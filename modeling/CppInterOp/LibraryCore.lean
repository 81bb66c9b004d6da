import Mathlib.Data.List.Basic
import CppInterOp.Basic
import CppInterOp.Library.Runs

/-!
Looking up, loading and unloading shared libraries: the file system and the dynamic linker
as the manager sees them, its two tables of loaded libraries, and the references it holds.
-/

namespace CppInterOp

abbrev PathName := List Char

/-- The file system and the dynamic linker. `stat` gives the file that a path names, links
followed; `dlopen` gives the file it opens, which is also the handle it returns.
`NormalizePath` is empty where the path has no canonical name. -/
structure LibraryFiles (File : Type) where
  stat : PathName → Option File
  NormalizePath : PathName → PathName
  isSharedLibrary : PathName → Bool
  dlopen : PathName → Option File
  getMainExecutable : PathName
  m_SearchPaths : List PathName
  stat_empty : stat [] = none
  canonical : ∀ path, NormalizePath path ≠ [] →
    stat (NormalizePath path) ≠ none ∧ NormalizePath (NormalizePath path) = NormalizePath path

/-- `//name` alone is taken for the name of a host, which has no root directory. -/
def isNetName : PathName → Bool
  | '/' :: '/' :: first :: rest => first != '/' && !rest.contains '/'
  | _ => false

def isAbsolute (path : PathName) : Bool := path.head? == some '/' && !isNetName path

def pathAppend (path component : PathName) : PathName :=
  if path.getLast? == some '/' then path ++ component.dropWhile (· == '/')
  else if path.isEmpty || component.head? == some '/' then path ++ component
  else path ++ '/' :: component

/-- `llvm::sys::path::filename`. Slashes at the end stand for `.`, unless they are the root. -/
def pathFilename (path : PathName) : PathName :=
  if path.getLast? == some '/' then
    let above := (path.reverse.dropWhile (· == '/')).reverse
    if above.isEmpty || isNetName above then ['/'] else ['.']
  else if isNetName path then path
  else (path.reverse.takeWhile (· != '/')).reverse

def removeFilename (path : PathName) : PathName :=
  let parent := (path.reverse.dropWhile (· != '/')).reverse
  let trimmed := (parent.reverse.dropWhile (· == '/')).reverse
  if trimmed.isEmpty then parent.take 1 else trimmed

def startsWithInsensitive (original pattern : PathName) : Bool :=
  (pattern.map Char.toLower).isPrefixOf (original.map Char.toLower)

def substFront (original pattern replacement : PathName) : PathName :=
  if !startsWithInsensitive original pattern then original
  else replacement ++ original.drop pattern.length

section Lookup

variable {File : Type} (files : LibraryFiles File)

def substAll (original libLoader : PathName) : PathName :=
  let loaderPath := if libLoader.isEmpty then files.getMainExecutable else libLoader
  substFront original "$origin".toList (removeFilename loaderPath)

def normalizePath (path : PathName) : PathName :=
  match files.stat path with
  | none => []
  | some _ => files.NormalizePath path

def lookupLibInPaths (libStem : PathName) (RPath RunPath : List PathName) (libLoader : PathName) :
    PathName :=
  let tries := RPath.map (fun Info => pathAppend (substAll files Info libLoader) libStem) ++
    files.m_SearchPaths.map (fun Info => pathAppend Info libStem) ++
    RunPath.map (fun Info => pathAppend (substAll files Info libLoader) libStem)
  (tries.find? files.isSharedLibrary).getD []

def lookupLibMaybeAddExt (libStem : PathName) (RPath RunPath : List PathName)
    (libLoader : PathName) : PathName :=
  let plain := lookupLibInPaths files libStem RPath RunPath libLoader
  let foundDyLib :=
    if plain.isEmpty then
      lookupLibInPaths files (libStem ++ ".so".toList) RPath RunPath libLoader
    else plain
  if foundDyLib.isEmpty then []
  else
    let Path := files.NormalizePath foundDyLib
    if Path.isEmpty then foundDyLib else Path

def lookupVariants (libStem : PathName) (RPath RunPath : List PathName) (libLoader : PathName)
    (variateLibStem : Bool) : PathName :=
  if variateLibStem then
    let foundName := lookupLibMaybeAddExt files libStem RPath RunPath libLoader
    let libStemName := pathFilename libStem
    if foundName.isEmpty && !"lib".toList.isPrefixOf libStemName then
      let position := libStem.length - libStemName.length
      lookupLibMaybeAddExt files (libStem.take position ++ "lib".toList ++ libStem.drop position)
        RPath RunPath libLoader
    else foundName
  else lookupLibInPaths files libStem RPath RunPath libLoader

def lookupLibrary (libStem : PathName) (RPath RunPath : List PathName) (libLoader : PathName)
    (variateLibStem : Bool) : PathName :=
  if isAbsolute libStem then
    if files.isSharedLibrary libStem then normalizePath files libStem else []
  else
    let result := substAll files libStem libLoader
    if files.isSharedLibrary result then normalizePath files result
    else
      let foundName := lookupVariants files libStem RPath RunPath libLoader variateLibStem
      if foundName.isEmpty then [] else files.NormalizePath foundName

/-- The lookup of a library that nothing loads: no paths of a loader, all variants. -/
def lookupLibrary' (libStem : PathName) : PathName := lookupLibrary files libStem [] [] [] true

end Lookup

inductive LoadLibResult
  | kLoadLibSuccess
  | kLoadLibAlreadyLoaded
  | kLoadLibNotFound
  | kLoadLibLoadError
  deriving DecidableEq, Repr

/-- `references` are the outstanding references to open files, one for each `dlopen` that no
`dlclose` followed. -/
structure DynamicLibraryManager (File : Type) where
  m_DyLibs : List (File × PathName) := []
  m_LoadedLibraries : List PathName := []
  references : List File := []
  deriving DecidableEq

namespace DynamicLibraryManager

section Load

variable {File : Type} [DecidableEq File] (files : LibraryFiles File)

def isLibraryLoaded (DLM : DynamicLibraryManager File) (fullPath : PathName) : Bool :=
  DLM.m_LoadedLibraries.contains (normalizePath files fullPath)

def loadCanonical (DLM : DynamicLibraryManager File) (canonicalLoadedLib : PathName) :
    LoadLibResult × DynamicLibraryManager File :=
  if DLM.m_LoadedLibraries.contains canonicalLoadedLib then (.kLoadLibAlreadyLoaded, DLM)
  else match files.dlopen canonicalLoadedLib with
    | none => (.kLoadLibLoadError, DLM)
    | some dyLibHandle =>
        let opened := { DLM with references := dyLibHandle :: DLM.references }
        if (DLM.m_DyLibs.map Prod.fst).contains dyLibHandle then (.kLoadLibAlreadyLoaded, opened)
        else
          (.kLoadLibSuccess,
            { opened with
              m_DyLibs := DLM.m_DyLibs ++ [(dyLibHandle, canonicalLoadedLib)]
              m_LoadedLibraries := DLM.m_LoadedLibraries ++ [canonicalLoadedLib] })

def loadLibrary (DLM : DynamicLibraryManager File) (libStem : PathName) (resolved : Bool) :
    LoadLibResult × DynamicLibraryManager File :=
  if resolved then DLM.loadCanonical files libStem
  else
    let canonicalLoadedLib := lookupLibrary' files libStem
    if canonicalLoadedLib.isEmpty then (.kLoadLibNotFound, DLM)
    else DLM.loadCanonical files canonicalLoadedLib

/-- Closing a null handle is an error that nobody looks at. -/
def unloadLibrary (DLM : DynamicLibraryManager File) (libStem : PathName) :
    DynamicLibraryManager File :=
  let canonicalLoadedLib := lookupLibrary' files libStem
  if !DLM.isLibraryLoaded files canonicalLoadedLib then DLM
  else
    let forgotten := DLM.m_LoadedLibraries.filter (· != canonicalLoadedLib)
    match DLM.m_DyLibs.find? fun entry => entry.2 == canonicalLoadedLib with
    | none => { DLM with m_LoadedLibraries := forgotten }
    | some (dyLibHandle, _) =>
        { m_DyLibs := DLM.m_DyLibs.filter fun entry => entry.1 != dyLibHandle
          m_LoadedLibraries := forgotten
          references := DLM.references.erase dyLibHandle }

end Load

end DynamicLibraryManager

inductive CompilationResult
  | kSuccess
  | kFailure
  | kMoreInputExpected
  deriving DecidableEq, Repr

def interpreterLoadLibrary {File : Type} [DecidableEq File] (files : LibraryFiles File)
    (DLM : DynamicLibraryManager File) (filename : PathName) (lookup : Bool) :
    CompilationResult × DynamicLibraryManager File :=
  let library := if lookup then lookupLibrary' files filename else filename
  if library.isEmpty then (.kMoreInputExpected, DLM)
  else
    let loaded := DLM.loadLibrary files library true
    (match loaded.1 with
      | .kLoadLibSuccess | .kLoadLibAlreadyLoaded => .kSuccess
      | .kLoadLibNotFound | .kLoadLibLoadError => .kFailure,
      loaded.2)

inductive LibraryOp
  | loadLibrary (libStem : PathName) (resolved : Bool)
  | interpreterLoadLibrary (filename : PathName) (lookup : Bool)
  | unloadLibrary (libStem : PathName)
  deriving DecidableEq, Repr

def DynamicLibraryManager.step {File : Type} [DecidableEq File] (files : LibraryFiles File)
    (DLM : DynamicLibraryManager File) : LibraryOp → DynamicLibraryManager File
  | .loadLibrary libStem resolved => (DLM.loadLibrary files libStem resolved).2
  | .interpreterLoadLibrary filename lookup =>
      (CppInterOp.interpreterLoadLibrary files DLM filename lookup).2
  | .unloadLibrary libStem => DLM.unloadLibrary files libStem

end CppInterOp
