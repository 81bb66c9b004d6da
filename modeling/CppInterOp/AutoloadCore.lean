import CppInterOp.LibraryCore
import CppInterOp.SymbolCore

/-!
The search for a library that defines a symbol: the scan of the search paths and of what the
libraries there depend on, the registers of libraries that are not loaded, and the lookup of
the symbol in them.
-/

namespace CppInterOp

/-- `LibraryPath` with the name it is registered under. -/
structure ScannedLib where
  m_Path : PathName
  m_LibName : PathName
  tables : LibraryPath := {}
  deriving DecidableEq

namespace ScannedLib

def GetFullName (Lib : ScannedLib) : PathName := pathAppend Lib.m_Path Lib.m_LibName

/-- What `operator==` compares. -/
def key (Lib : ScannedLib) : PathName × PathName := (Lib.m_Path, Lib.m_LibName)

def ofFile (FileName : PathName) : ScannedLib :=
  { m_Path := removeFilename FileName, m_LibName := pathFilename FileName }

end ScannedLib

abbrev LibraryPaths := List ScannedLib

namespace LibraryPaths

def HasRegisteredLib (libraries : LibraryPaths) (Lib : ScannedLib) : Bool :=
  libraries.any fun other => other.key == Lib.key

def RegisterLib (libraries : LibraryPaths) (Lib : ScannedLib) : LibraryPaths := libraries ++ [Lib]

def UnregisterLib (libraries : LibraryPaths) (Lib : ScannedLib) : LibraryPaths :=
  libraries.filter fun other => other.key != Lib.key

end LibraryPaths

inductive FileType
  | regular_file
  | symlink_file
  | other
  deriving DecidableEq, Repr

structure TextSection where
  nobits : Bool
  alloc : Bool

structure LibraryFile extends ObjectFile where
  fileFormatName : String
  text : Option TextSection
  isPIEExecutable : Bool := false
  RPath : List PathName := []
  RunPath : List PathName := []
  Deps : List PathName := []

structure SearchPathInfo where
  Path : PathName
  IsUser : Bool

/-- A file in a directory, without empty parts at the end. -/
def PlainName (path : PathName) : Prop :=
  ∃ directory name, path = directory ++ '/' :: name ∧ directory.getLast? ≠ some '/' ∧
    name ≠ [] ∧ '/' ∉ name

/-- A file system that does not change, with its shared libraries. `cached_realpath` is empty
where it fails; `directory_iterator` gives the entries of a directory. -/
structure AutoloadFiles (File : Type) extends LibraryFiles File where
  getSearchPaths : List SearchPathInfo
  cached_realpath : PathName → PathName
  is_directory : PathName → Bool
  directory_iterator : PathName → List (PathName × FileType)
  createObjectFile : PathName → Option LibraryFile
  m_ExecutableFormat : String
  m_ShouldPermanentlyIgnoreCallback : PathName → Bool
  bloomSize : UInt32 → UInt32
  sharedNames : List PathName
  search_paths : m_SearchPaths = getSearchPaths.map SearchPathInfo.Path
  shared_stat : ∀ path, isSharedLibrary path = true → stat path ≠ none
  shared_named : ∀ path, isSharedLibrary path = true → NormalizePath path ∈ sharedNames
  shared_plain : ∀ path, isSharedLibrary path = true →
    NormalizePath path = [] ∨ PlainName (NormalizePath path)
  listed_plain : ∀ path, ∀ entry ∈ directory_iterator (cached_realpath path), PlainName entry.1
  resolved_plain : ∀ path, is_directory (cached_realpath path) = false →
    cached_realpath path = [] ∨ PlainName (cached_realpath path)
  sized : ∀ n, 0 < n → 0 < bloomSize n
  counted : ∀ path, ∀ file ∈ createObjectFile path, ∀ flags,
    (collectSymbols file.toObjectFile flags).length < 4294967296

structure Dyld where
  m_FirstRun : Bool := true
  m_FirstRunSysLib : Bool := true
  m_Libraries : LibraryPaths := []
  m_SysLibraries : LibraryPaths := []
  m_QueriedLibraries : LibraryPaths := []
  deriving DecidableEq

namespace Dyld

def RegisterLib (dyld : Dyld) (searchSystemLibraries : Bool) (Lib : ScannedLib) : Dyld :=
  if searchSystemLibraries then
    { dyld with m_SysLibraries := dyld.m_SysLibraries.RegisterLib Lib }
  else { dyld with m_Libraries := dyld.m_Libraries.RegisterLib Lib }

def UnregisterLib (dyld : Dyld) (searchSystemLibraries : Bool) (Lib : ScannedLib) : Dyld :=
  if searchSystemLibraries then
    { dyld with m_SysLibraries := dyld.m_SysLibraries.UnregisterLib Lib }
  else { dyld with m_Libraries := dyld.m_Libraries.UnregisterLib Lib }

section Scan

variable {File : Type} (files : AutoloadFiles File)
variable (DLM : DynamicLibraryManager File)

def ShouldPermanentlyIgnore (FileName : PathName) : Bool :=
  if !files.isSharedLibrary FileName then true
  else if DLM.isLibraryLoaded files.toLibraryFiles FileName then true
  else match files.createObjectFile FileName with
    | none => true
    | some file =>
        if files.m_ExecutableFormat != file.fileFormatName then true
        else if file.isELF then
          match file.text with
          | none => true
          | some text => if text.nobits then true else !text.alloc
        else files.m_ShouldPermanentlyIgnoreCallback FileName

def searched (paths : List PathName) : Bool :=
  paths.all fun item => files.getSearchPaths.any fun item1 => item == item1.Path

/-- The dependencies that are handled: none by the heuristics on the paths of the loader. -/
def handledDeps (file : LibraryFile) : List PathName :=
  if file.RPath.isEmpty && file.RunPath.isEmpty then []
  else if searched files file.RPath && searched files file.RunPath then []
  else file.Deps

/-- `fuel` bounds how deep libraries depend on each other. -/
def HandleLib (searchSystemLibraries : Bool) : Nat → Nat → PathName → Dyld → Dyld
  | 0, _, _, dyld => dyld
  | fuel + 1, level, FileName, dyld =>
      let LibPath := ScannedLib.ofFile FileName
      if dyld.m_SysLibraries.HasRegisteredLib LibPath ||
          dyld.m_Libraries.HasRegisteredLib LibPath then dyld
      else if ShouldPermanentlyIgnore files DLM FileName then dyld
      else
        let registered := dyld.RegisterLib searchSystemLibraries LibPath
        match files.createObjectFile FileName with
        | none => registered
        | some file =>
            if level == 0 && (file.isELF && file.isPIEExecutable) then
              registered.UnregisterLib searchSystemLibraries LibPath
            else (handledDeps files file).foldl
              (fun dyld dep => HandleLib searchSystemLibraries fuel (level + 1)
                (lookupLibrary files.toLibraryFiles dep file.RPath file.RunPath FileName false)
                dyld)
              registered

/-- Every library that depends on another has a name of its own. -/
def depth : Nat := files.sharedNames.length + 2

def handleEntry (searchSystemLibraries : Bool) (dyld : Dyld) (entry : PathName × FileType) : Dyld :=
  match entry.2 with
  | .regular_file => HandleLib files DLM searchSystemLibraries (depth files) 0 entry.1 dyld
  | .symlink_file =>
      let DepFileName := files.cached_realpath entry.1
      if files.is_directory DepFileName then dyld
      else HandleLib files DLM searchSystemLibraries (depth files) 0 DepFileName dyld
  | .other => dyld

def scanPath (searchSystemLibraries : Bool) (state : List PathName × Dyld) (Info : SearchPathInfo) :
    List PathName × Dyld :=
  if Info.IsUser == searchSystemLibraries then state
  else
    let RealPath := files.cached_realpath Info.Path
    if !files.is_directory RealPath || RealPath.isEmpty then state
    else if state.1.contains RealPath then state
    else
      (RealPath :: state.1,
        (files.directory_iterator RealPath).foldl (handleEntry files DLM searchSystemLibraries)
          state.2)

def ScanForLibraries (searchSystemLibraries : Bool) (dyld : Dyld) : Dyld :=
  (files.getSearchPaths.foldl (scanPath files DLM searchSystemLibraries) ([], dyld)).2

def forgetLoaded (dyld : Dyld) : Dyld :=
  dyld.m_QueriedLibraries.foldl
    (fun dyld P =>
      if DLM.isLibraryLoaded files.toLibraryFiles P.GetFullName then
        { dyld with
          m_Libraries := dyld.m_Libraries.UnregisterLib P
          m_SysLibraries := dyld.m_SysLibraries.UnregisterLib P }
      else dyld)
    dyld

end Scan

section Search

variable {File : Type} (files : AutoloadFiles File)

def findSymbol (query : SymbolQuery) : LibraryPaths → Option ScannedLib × LibraryPaths
  | [] => (none, [])
  | P :: rest =>
      let answer := ContainsSymbol files.bloomSize true true
        ((files.createObjectFile P.GetFullName).map LibraryFile.toObjectFile) P.tables query
      let P := { P with tables := answer.2 }
      if answer.1 then (some P, P :: rest)
      else
        let later := findSymbol query rest
        (later.1, P :: later.2)

def remember (dyld : Dyld) (P : ScannedLib) : Dyld :=
  if dyld.m_QueriedLibraries.HasRegisteredLib P then dyld
  else { dyld with m_QueriedLibraries := dyld.m_QueriedLibraries.RegisterLib P }

variable (DLM : DynamicLibraryManager File)

def prepareUser (dyld : Dyld) : Dyld :=
  let scanned :=
    if dyld.m_FirstRun then
      { ScanForLibraries files DLM false dyld with m_FirstRun := false }
    else dyld
  scanned.forgetLoaded files DLM

def prepareSystem (dyld : Dyld) : Dyld :=
  if dyld.m_FirstRunSysLib then
    { ScanForLibraries files DLM true dyld with m_FirstRunSysLib := false }
  else dyld

/-- An empty name says that there is no such library. -/
def searchLibrariesForSymbol (dyld : Dyld) (mangledName : SymbolName) (searchSystem : Bool) :
    PathName × Dyld :=
  let prepared := dyld.prepareUser files DLM
  let user := findSymbol files ⟨mangledName, SF_Undefined⟩ prepared.m_Libraries
  let lookedUp := { prepared with m_Libraries := user.2 }
  match user.1 with
  | some P => (P.GetFullName, lookedUp.remember P)
  | none =>
      if !searchSystem then ([], lookedUp)
      else
        let prepared := lookedUp.prepareSystem files DLM
        let system := findSymbol files ⟨mangledName, SF_Undefined ||| SF_Weak⟩
          prepared.m_SysLibraries
        let lookedUp := { prepared with m_SysLibraries := system.2 }
        match system.1 with
        | some P => (P.GetFullName, lookedUp.remember P)
        | none => ([], lookedUp)

end Search

end Dyld

structure Autoloader (File : Type) where
  DLM : DynamicLibraryManager File := {}
  dyld : Dyld := {}
  deriving DecidableEq

inductive AutoloadOp
  | library (op : LibraryOp)
  | searchLibrariesForSymbol (mangledName : SymbolName) (searchSystem : Bool)
  deriving DecidableEq, Repr

def Autoloader.step {File : Type} [DecidableEq File] (files : AutoloadFiles File)
    (state : Autoloader File) : AutoloadOp → Autoloader File
  | .library op => { state with DLM := state.DLM.step files.toLibraryFiles op }
  | .searchLibrariesForSymbol mangledName searchSystem =>
      { state with
        dyld := (state.dyld.searchLibrariesForSymbol files state.DLM mangledName searchSystem).2 }

end CppInterOp
