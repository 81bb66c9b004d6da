import Mathlib
import CppInterOp.AutoloadCore
import CppInterOp.LibraryLoad

/-!
What a scan leaves in the registers: every library file on the search paths that is not loaded,
and nothing that is.
-/

namespace CppInterOp

section Names

theorem isNetName_inner {directory name : PathName} (inner : directory.getLast? ≠ some '/')
    (first : name.head? ≠ some '/') : isNetName (directory ++ '/' :: name) = false := by
  unfold isNetName
  split
  · next initial rest same =>
      rcases directory with _ | ⟨_, _ | ⟨_, _ | ⟨_, more⟩⟩⟩
      · rw [List.nil_append, List.cons.injEq] at same
        exact absurd (same.2 ▸ rfl) first
      · obtain ⟨rfl, _⟩ := List.cons.inj same
        exact absurd rfl inner
      · obtain ⟨rfl, rfl, _⟩ := List.cons.injEq .. ▸ same
        exact absurd rfl inner
      · simp only [List.cons_append, List.cons.injEq] at same
        rw [← same.2.2.2]
        simp
  · rfl

theorem PlainName.split {FileName : PathName} (plain : PlainName FileName) :
    ∃ directory name, FileName = directory ++ '/' :: name ∧ directory.getLast? ≠ some '/' ∧
      name.head? ≠ some '/' ∧ name.dropWhile (· == '/') = name ∧ pathFilename FileName = name ∧
      removeFilename FileName = if directory.isEmpty then ['/'] else directory := by
  obtain ⟨directory, name, rfl, no_slash, nonempty, plain_name⟩ := plain
  have reversed : (directory ++ '/' :: name).reverse = name.reverse ++ '/' :: directory.reverse := by
    simp
  have apart : ∀ c ∈ name.reverse, (c != '/') = true := by
    intro c member
    rw [bne_iff_ne]
    rintro rfl
    exact plain_name (List.mem_reverse.mp member)
  have first : name.head? ≠ some '/' := by
    intro head
    exact plain_name (List.mem_of_mem_head? head)
  have last : (directory ++ '/' :: name).getLast? ≠ some '/' := by
    intro at_end
    rw [← List.head?_reverse, reversed] at at_end
    cases at_name : name.reverse with
    | nil => exact nonempty (List.reverse_eq_nil_iff.mp at_name)
    | cons c rest =>
        rw [at_name] at at_end apart
        obtain rfl := Option.some.inj at_end
        simpa using apart '/' List.mem_cons_self
  have parent : ((directory ++ '/' :: name).reverse.dropWhile (· != '/')).reverse =
      directory ++ ['/'] := by
    rw [reversed, List.dropWhile_append_of_pos apart]
    simp
  have trimmed : ((directory ++ ['/']).reverse.dropWhile (· == '/')).reverse = directory := by
    cases at_directory : directory.reverse with
    | nil => simp [List.reverse_eq_nil_iff.mp at_directory]
    | cons c rest =>
        have not_slash : (c == '/') = false := by
          rw [beq_eq_false_iff_ne]
          rintro rfl
          rw [← List.head?_reverse, at_directory] at no_slash
          exact no_slash rfl
        rw [List.reverse_append, at_directory]
        simp only [List.reverse_cons, List.reverse_nil, List.nil_append, List.singleton_append,
          List.dropWhile_cons, beq_self_eq_true, if_true, not_slash, Bool.false_eq_true, if_false]
        rw [← List.reverse_cons, ← at_directory, List.reverse_reverse]
  refine ⟨directory, name, rfl, no_slash, first, ?_, ?_, ?_⟩
  · cases name with
    | nil => rfl
    | cons c rest =>
        have not_slash : c ≠ '/' := fun same => first (congrArg some same)
        simp [not_slash]
  · rw [pathFilename, if_neg (by simpa using last), if_neg (by simp [isNetName_inner no_slash first]),
      reversed, List.takeWhile_append_of_pos apart]
    simp
  · rw [removeFilename]
    simp only [parent, trimmed]
    cases directory with
    | nil => rfl
    | cons c rest => rfl

theorem ofFile_GetFullName {FileName : PathName} (plain : PlainName FileName) :
    (ScannedLib.ofFile FileName).GetFullName = FileName := by
  obtain ⟨directory, name, same, no_slash, first, no_slashes, at_name, at_directory⟩ := plain.split
  rw [ScannedLib.GetFullName, ScannedLib.ofFile]
  simp only [at_name, at_directory]
  cases directory with
  | nil =>
      rw [same, pathAppend]
      simp [no_slashes]
  | cons c rest =>
      rw [same, pathAppend]
      simp [no_slash, first]

variable {File : Type} (files : AutoloadFiles File)

/-- A dependency is looked for as it is named, and found under a canonical name. -/
theorem lookupLibrary_dep (dep : PathName) (RPath RunPath : List PathName) (libLoader : PathName) :
    lookupLibrary files.toLibraryFiles dep RPath RunPath libLoader false = [] ∨
      ∃ path, files.isSharedLibrary path = true ∧
        lookupLibrary files.toLibraryFiles dep RPath RunPath libLoader false =
          files.NormalizePath path := by
  have normalized : ∀ path, files.isSharedLibrary path = true →
      normalizePath files.toLibraryFiles path = [] ∨ ∃ other,
        files.isSharedLibrary other = true ∧
          normalizePath files.toLibraryFiles path = files.NormalizePath other := by
    intro path shared
    exact (normalizePath_eq files.toLibraryFiles path).imp id fun same => ⟨path, shared, same⟩
  have looked : ∀ name, lookupLibInPaths files.toLibraryFiles name RPath RunPath libLoader = [] ∨
      files.isSharedLibrary
        (lookupLibInPaths files.toLibraryFiles name RPath RunPath libLoader) = true := by
    intro name
    rw [lookupLibInPaths]
    generalize List.map _ RPath ++ _ ++ _ = tries
    cases found : tries.find? files.isSharedLibrary with
    | none => exact Or.inl rfl
    | some path => exact Or.inr (List.find?_some found)
  simp only [lookupLibrary, lookupVariants, Bool.false_eq_true, if_false]
  split
  · split
    next shared => exact normalized _ shared
    next _ => exact Or.inl rfl
  · split
    next shared => exact normalized _ shared
    next _ =>
        split
        next _ => exact Or.inl rfl
        next found =>
            rcases looked dep with none | shared
            · exact absurd (List.isEmpty_iff.mpr none) found
            · exact Or.inr ⟨_, shared, rfl⟩

theorem lookupLibrary_plain (dep : PathName) (RPath RunPath : List PathName)
    (libLoader : PathName) :
    lookupLibrary files.toLibraryFiles dep RPath RunPath libLoader false = [] ∨
      PlainName (lookupLibrary files.toLibraryFiles dep RPath RunPath libLoader false) := by
  rcases lookupLibrary_dep files dep RPath RunPath libLoader with none | ⟨path, shared, same⟩
  · exact Or.inl none
  · rw [same]
    exact files.shared_plain path shared

theorem not_shared_empty : files.isSharedLibrary [] = false := by
  rw [← Bool.not_eq_true]
  exact fun shared => files.shared_stat [] shared files.stat_empty

end Names

namespace LibraryPaths

section

variable {libraries : LibraryPaths} {Lib P : ScannedLib}

theorem HasRegisteredLib_iff :
    libraries.HasRegisteredLib Lib = true ↔ ∃ P ∈ libraries, P.key = Lib.key := by
  simp [HasRegisteredLib]

theorem mem_RegisterLib : P ∈ libraries.RegisterLib Lib ↔ P ∈ libraries ∨ P = Lib := by
  simp [RegisterLib]

theorem mem_UnregisterLib : P ∈ libraries.UnregisterLib Lib ↔ P ∈ libraries ∧ P.key ≠ Lib.key := by
  simp [UnregisterLib]

end

end LibraryPaths

theorem ScannedLib.GetFullName_of_key {P Lib : ScannedLib} (same : P.key = Lib.key) :
    P.GetFullName = Lib.GetFullName := by
  obtain ⟨path, name⟩ := Prod.mk.inj same
  rw [GetFullName, GetFullName, path, name]

namespace Dyld

section Scan

variable {File : Type} (files : AutoloadFiles File)
variable (DLM : DynamicLibraryManager File)

def Fresh (P : ScannedLib) : Prop :=
  P.tables = {} ∧ files.isSharedLibrary P.GetFullName = true ∧
    DLM.isLibraryLoaded files.toLibraryFiles P.GetFullName = false

structure Adds (searchSystemLibraries : Bool) (dyld later : Dyld) : Prop where
  user : ∀ P ∈ dyld.m_Libraries, P ∈ later.m_Libraries
  system : ∀ P ∈ dyld.m_SysLibraries, P ∈ later.m_SysLibraries
  newUser : ∀ P ∈ later.m_Libraries, P ∈ dyld.m_Libraries ∨
    searchSystemLibraries = false ∧ Fresh files DLM P
  newSystem : ∀ P ∈ later.m_SysLibraries, P ∈ dyld.m_SysLibraries ∨
    searchSystemLibraries = true ∧ Fresh files DLM P
  queried : later.m_QueriedLibraries = dyld.m_QueriedLibraries
  firstRun : later.m_FirstRun = dyld.m_FirstRun
  firstRunSysLib : later.m_FirstRunSysLib = dyld.m_FirstRunSysLib

variable {files DLM} {searchSystemLibraries : Bool}

theorem Adds.refl (dyld : Dyld) : Adds files DLM searchSystemLibraries dyld dyld where
  user _ member := member
  system _ member := member
  newUser _ member := Or.inl member
  newSystem _ member := Or.inl member
  queried := rfl
  firstRun := rfl
  firstRunSysLib := rfl

theorem Adds.trans {dyld later last : Dyld} (adds : Adds files DLM searchSystemLibraries dyld later)
    (more : Adds files DLM searchSystemLibraries later last) :
    Adds files DLM searchSystemLibraries dyld last where
  user P member := more.user P (adds.user P member)
  system P member := more.system P (adds.system P member)
  newUser P member := (more.newUser P member).elim (adds.newUser P) Or.inr
  newSystem P member := (more.newSystem P member).elim (adds.newSystem P) Or.inr
  queried := more.queried.trans adds.queried
  firstRun := more.firstRun.trans adds.firstRun
  firstRunSysLib := more.firstRunSysLib.trans adds.firstRunSysLib

theorem Adds.foldl {Item : Type} {handle : Dyld → Item → Dyld} {items : List Item}
    (adds : ∀ dyld, ∀ item ∈ items, Adds files DLM searchSystemLibraries dyld (handle dyld item))
    (dyld : Dyld) : Adds files DLM searchSystemLibraries dyld (items.foldl handle dyld) := by
  induction items generalizing dyld with
  | nil => exact .refl dyld
  | cons item items ih =>
      exact (adds dyld item List.mem_cons_self).trans
        (ih (fun dyld other member => adds dyld other (List.mem_cons_of_mem _ member)) _)

theorem adds_RegisterLib (searchSystemLibraries : Bool) {Lib : ScannedLib}
    (fresh : Fresh files DLM Lib) (dyld : Dyld) :
    Adds files DLM searchSystemLibraries dyld (dyld.RegisterLib searchSystemLibraries Lib) := by
  cases searchSystemLibraries with
  | false =>
      refine ⟨fun P member => ?_, fun _ member => member, fun P member => ?_,
        fun _ member => Or.inl member, rfl, rfl, rfl⟩
      · exact LibraryPaths.mem_RegisterLib.mpr (Or.inl member)
      · rcases LibraryPaths.mem_RegisterLib.mp member with old | rfl
        · exact Or.inl old
        · exact Or.inr ⟨rfl, fresh⟩
  | true =>
      refine ⟨fun _ member => member, fun P member => ?_, fun _ member => Or.inl member,
        fun P member => ?_, rfl, rfl, rfl⟩
      · exact LibraryPaths.mem_RegisterLib.mpr (Or.inl member)
      · rcases LibraryPaths.mem_RegisterLib.mp member with old | rfl
        · exact Or.inl old
        · exact Or.inr ⟨rfl, fresh⟩

theorem register_unregister {Lib : ScannedLib} {dyld : Dyld}
    (not_system : dyld.m_SysLibraries.HasRegisteredLib Lib = false)
    (not_user : dyld.m_Libraries.HasRegisteredLib Lib = false) :
    (dyld.RegisterLib searchSystemLibraries Lib).UnregisterLib searchSystemLibraries Lib = dyld := by
  have absent : ∀ libraries : LibraryPaths, libraries.HasRegisteredLib Lib = false →
      (libraries.RegisterLib Lib).UnregisterLib Lib = libraries := by
    intro libraries missing
    rw [LibraryPaths.RegisterLib, LibraryPaths.UnregisterLib, List.filter_append]
    have others : ∀ P ∈ libraries, (P.key != Lib.key) = true := by
      intro P member
      rw [bne_iff_ne]
      intro same
      exact Bool.false_ne_true (missing.symm.trans
        (LibraryPaths.HasRegisteredLib_iff.mpr ⟨P, member, same⟩))
    rw [List.filter_eq_self.mpr others]
    simp
  cases searchSystemLibraries with
  | false =>
      simp only [RegisterLib, UnregisterLib, Bool.false_eq_true, if_false]
      rw [absent _ not_user]
  | true =>
      simp only [RegisterLib, UnregisterLib, if_true]
      rw [absent _ not_system]

theorem fresh_ofFile {FileName : PathName} (plain : PlainName FileName)
    (kept : ShouldPermanentlyIgnore files DLM FileName = false) :
    Fresh files DLM (ScannedLib.ofFile FileName) := by
  rw [ShouldPermanentlyIgnore] at kept
  rw [Fresh, ofFile_GetFullName plain]
  cases shared : files.isSharedLibrary FileName with
  | false => simp [shared] at kept
  | true =>
      cases loaded : DLM.isLibraryLoaded files.toLibraryFiles FileName with
      | true => simp [shared, loaded] at kept
      | false => exact ⟨rfl, rfl, rfl⟩

theorem ignores_empty : ShouldPermanentlyIgnore files DLM [] = true := by
  rw [ShouldPermanentlyIgnore, not_shared_empty]
  rfl

theorem HandleLib_adds (fuel level : Nat) {FileName : PathName}
    (named : FileName = [] ∨ PlainName FileName) (dyld : Dyld) :
    Adds files DLM searchSystemLibraries dyld
      (HandleLib files DLM searchSystemLibraries fuel level FileName dyld) := by
  induction fuel generalizing level FileName dyld with
  | zero => exact .refl dyld
  | succ fuel ih =>
      rw [HandleLib]
      simp only
      split
      next _ => exact .refl dyld
      next absent =>
          rw [Bool.not_eq_true, Bool.or_eq_false_iff] at absent
          split
          next _ => exact .refl dyld
          next kept =>
              rw [Bool.not_eq_true] at kept
              have plain : PlainName FileName := by
                rcases named with rfl | plain
                · cases kept.symm.trans ignores_empty
                · exact plain
              have registered := adds_RegisterLib searchSystemLibraries
                (fresh_ofFile plain kept) dyld
              split
              next _ => exact registered
              next file _ =>
                  split
                  next _ =>
                      rw [register_unregister absent.1 absent.2]
                      exact .refl dyld
                  next _ =>
                      exact registered.trans (Adds.foldl (fun dyld dep _ =>
                        ih (level + 1) (lookupLibrary_plain files dep _ _ _) dyld) _)

theorem handleEntry_adds {path : PathName} {entry : PathName × FileType}
    (listed : entry ∈ files.directory_iterator (files.cached_realpath path)) (dyld : Dyld) :
    Adds files DLM searchSystemLibraries dyld
      (handleEntry files DLM searchSystemLibraries dyld entry) := by
  rw [handleEntry]
  cases entry.2 with
  | regular_file => exact HandleLib_adds _ _ (Or.inr (files.listed_plain path entry listed)) dyld
  | symlink_file =>
      simp only
      split
      next _ => exact .refl dyld
      next not_directory =>
          exact HandleLib_adds _ _
            (files.resolved_plain entry.1 (Bool.not_eq_true _ ▸ not_directory)) dyld
  | other => exact .refl dyld

def Covers (dyld : Dyld) (FileName : PathName) : Prop :=
  ∃ P, (P ∈ dyld.m_Libraries ∨ P ∈ dyld.m_SysLibraries) ∧ P.key = (ScannedLib.ofFile FileName).key

theorem covers_iff {dyld : Dyld} {FileName : PathName} : dyld.Covers FileName ↔
    (dyld.m_SysLibraries.HasRegisteredLib (ScannedLib.ofFile FileName) ||
      dyld.m_Libraries.HasRegisteredLib (ScannedLib.ofFile FileName)) = true := by
  rw [Bool.or_eq_true, LibraryPaths.HasRegisteredLib_iff, LibraryPaths.HasRegisteredLib_iff]
  constructor
  · rintro ⟨P, user | system, same⟩
    · exact Or.inr ⟨P, user, same⟩
    · exact Or.inl ⟨P, system, same⟩
  · rintro (⟨P, member, same⟩ | ⟨P, member, same⟩)
    · exact ⟨P, Or.inr member, same⟩
    · exact ⟨P, Or.inl member, same⟩

theorem Covers.later {dyld later : Dyld} {FileName : PathName} (covers : dyld.Covers FileName)
    (adds : Adds files DLM searchSystemLibraries dyld later) : later.Covers FileName := by
  obtain ⟨P, member, same⟩ := covers
  exact ⟨P, member.imp (adds.user P) (adds.system P), same⟩

theorem covers_RegisterLib (dyld : Dyld) (FileName : PathName) :
    (dyld.RegisterLib searchSystemLibraries (ScannedLib.ofFile FileName)).Covers FileName := by
  refine ⟨ScannedLib.ofFile FileName, ?_, rfl⟩
  cases searchSystemLibraries with
  | false => exact Or.inl (LibraryPaths.mem_RegisterLib.mpr (Or.inr rfl))
  | true => exact Or.inr (LibraryPaths.mem_RegisterLib.mpr (Or.inr rfl))

end Scan

end Dyld

section Candidates

variable {File : Type} (files : AutoloadFiles File)

/-- A library file that a scan does not pass over: a shared object of the format of the
executable that is more than debugging symbols, and no executable itself. -/
def Candidate (FileName : PathName) : Prop :=
  files.isSharedLibrary FileName = true ∧
    ∃ file, files.createObjectFile FileName = some file ∧
      file.fileFormatName = files.m_ExecutableFormat ∧
      (file.isELF = true → file.isPIEExecutable = false ∧
        ∃ text, file.text = some text ∧ text.nobits = false ∧ text.alloc = true) ∧
      (file.isELF = false → files.m_ShouldPermanentlyIgnoreCallback FileName = false)

def EntryOf (entry : PathName × FileType) (FileName : PathName) : Prop :=
  entry.2 = .regular_file ∧ entry.1 = FileName ∨
    entry.2 = .symlink_file ∧ files.cached_realpath entry.1 = FileName ∧
      files.is_directory FileName = false

/-- A file in a directory of the search paths, those of users or those of the system. -/
def OnSearchPath (searchSystem : Bool) (FileName : PathName) : Prop :=
  ∃ Info ∈ files.getSearchPaths, Info.IsUser ≠ searchSystem ∧
    files.is_directory (files.cached_realpath Info.Path) = true ∧
    files.cached_realpath Info.Path ≠ [] ∧
    ∃ entry ∈ files.directory_iterator (files.cached_realpath Info.Path),
      EntryOf files entry FileName

variable {files} {DLM : DynamicLibraryManager File} {FileName : PathName}

theorem Candidate.not_ignored (candidate : Candidate files FileName)
    (unloaded : DLM.isLibraryLoaded files.toLibraryFiles FileName = false) :
    Dyld.ShouldPermanentlyIgnore files DLM FileName = false := by
  obtain ⟨shared, file, opened, format, elf, other⟩ := candidate
  rw [Dyld.ShouldPermanentlyIgnore]
  cases is_elf : file.isELF with
  | false => simp [shared, unloaded, opened, format, is_elf, other is_elf]
  | true =>
      obtain ⟨_, text, section_text, nobits, alloc⟩ := elf is_elf
      simp [shared, unloaded, opened, format, is_elf, section_text, nobits, alloc]

namespace Dyld

theorem HandleLib_covers {searchSystemLibraries : Bool} (fuel : Nat)
    (candidate : Candidate files FileName)
    (unloaded : DLM.isLibraryLoaded files.toLibraryFiles FileName = false) (dyld : Dyld) :
    (HandleLib files DLM searchSystemLibraries (fuel + 1) 0 FileName dyld).Covers FileName := by
  have kept := candidate.not_ignored unloaded
  obtain ⟨_, file, opened, _, elf, _⟩ := candidate
  have no_executable : (file.isELF && file.isPIEExecutable) = false := by
    cases is_elf : file.isELF with
    | false => rfl
    | true => exact (elf is_elf).1
  rw [HandleLib]
  simp only [kept, opened, no_executable, Bool.and_false, Bool.false_eq_true, if_false]
  split
  next present => exact covers_iff.mpr present
  next _ =>
      have here : (dyld.RegisterLib searchSystemLibraries (ScannedLib.ofFile FileName)).Covers
          FileName := covers_RegisterLib dyld FileName
      exact here.later (Adds.foldl (fun dyld dep _ =>
        HandleLib_adds fuel 1 (lookupLibrary_plain files dep _ _ _) dyld) _)

theorem handleEntry_covers {searchSystemLibraries : Bool} {entry : PathName × FileType}
    (names : EntryOf files entry FileName) (candidate : Candidate files FileName)
    (unloaded : DLM.isLibraryLoaded files.toLibraryFiles FileName = false) (dyld : Dyld) :
    (handleEntry files DLM searchSystemLibraries dyld entry).Covers FileName := by
  rcases names with ⟨regular, rfl⟩ | ⟨link, rfl, not_directory⟩
  · rw [handleEntry, regular]
    exact HandleLib_covers _ candidate unloaded dyld
  · rw [handleEntry, link]
    simp only [not_directory, Bool.false_eq_true, if_false]
    exact HandleLib_covers _ candidate unloaded dyld

theorem entries_cover {searchSystemLibraries : Bool} {path : PathName}
    {entries : List (PathName × FileType)}
    (listed : ∀ entry ∈ entries, entry ∈ files.directory_iterator (files.cached_realpath path))
    (candidate : Candidate files FileName)
    (unloaded : DLM.isLibraryLoaded files.toLibraryFiles FileName = false) {dyld : Dyld}
    (named : dyld.Covers FileName ∨ ∃ entry ∈ entries, EntryOf files entry FileName) :
    (entries.foldl (handleEntry files DLM searchSystemLibraries) dyld).Covers FileName := by
  induction entries generalizing dyld with
  | nil =>
      rcases named with covers | ⟨_, member, _⟩
      · exact covers
      · cases member
  | cons entry entries ih =>
      refine ih (fun other member => listed other (List.mem_cons_of_mem _ member)) ?_
      rcases named with covers | ⟨other, member, names⟩
      · exact Or.inl (covers.later (handleEntry_adds (listed entry List.mem_cons_self) dyld))
      · rcases List.mem_cons.mp member with rfl | later
        · exact Or.inl (handleEntry_covers names candidate unloaded dyld)
        · exact Or.inr ⟨other, later, names⟩

theorem scanPath_adds (searchSystemLibraries : Bool) (state : List PathName × Dyld)
    (Info : SearchPathInfo) : Adds files DLM searchSystemLibraries state.2
      (scanPath files DLM searchSystemLibraries state Info).2 := by
  rw [scanPath]
  simp only
  split
  · exact .refl state.2
  · split
    · exact .refl state.2
    · split
      · exact .refl state.2
      · exact Adds.foldl (fun dyld entry listed => handleEntry_adds listed dyld) state.2

theorem ScanForLibraries_adds (searchSystemLibraries : Bool) (dyld : Dyld) :
    Adds files DLM searchSystemLibraries dyld
      (ScanForLibraries files DLM searchSystemLibraries dyld) := by
  have along : ∀ (Infos : List SearchPathInfo) (state : List PathName × Dyld),
      Adds files DLM searchSystemLibraries state.2
        (Infos.foldl (scanPath files DLM searchSystemLibraries) state).2 := by
    intro Infos
    induction Infos with
    | nil => exact fun state => .refl state.2
    | cons Info Infos ih =>
        exact fun state => (scanPath_adds searchSystemLibraries state Info).trans (ih _)
  exact along files.getSearchPaths ([], dyld)

def ScannedFor (files : AutoloadFiles File) (FileName : PathName) (state : List PathName × Dyld) :
    Prop :=
  ∀ RealPath ∈ state.1, (∃ entry ∈ files.directory_iterator RealPath,
    EntryOf files entry FileName) → state.2.Covers FileName

theorem scanPath_scanned {searchSystemLibraries : Bool} (candidate : Candidate files FileName)
    (unloaded : DLM.isLibraryLoaded files.toLibraryFiles FileName = false)
    {state : List PathName × Dyld} (scanned : ScannedFor files FileName state)
    (Info : SearchPathInfo) :
    ScannedFor files FileName (scanPath files DLM searchSystemLibraries state Info) ∧
      (∀ RealPath ∈ state.1, RealPath ∈ (scanPath files DLM searchSystemLibraries state Info).1) ∧
      (Info.IsUser ≠ searchSystemLibraries →
        files.is_directory (files.cached_realpath Info.Path) = true →
        files.cached_realpath Info.Path ≠ [] →
        files.cached_realpath Info.Path ∈
          (scanPath files DLM searchSystemLibraries state Info).1) := by
  rw [scanPath]
  simp only
  split
  next other_kind =>
      exact ⟨scanned, fun _ member => member,
        fun kind => absurd (eq_of_beq other_kind) kind⟩
  next _ =>
      split
      next unusable =>
          refine ⟨scanned, fun _ member => member, fun _ directory nonempty => ?_⟩
          rw [directory, Bool.not_true, Bool.false_or, List.isEmpty_iff] at unusable
          exact absurd unusable nonempty
      next _ =>
          split
          next before =>
              exact ⟨scanned, fun _ member => member,
                fun _ _ _ => List.contains_iff_mem.mp before⟩
          next _ =>
              refine ⟨fun RealPath member listed => ?_,
                fun _ member => List.mem_cons_of_mem _ member, fun _ _ _ => List.mem_cons_self⟩
              apply entries_cover (fun entry member => member) candidate unloaded
              rcases List.mem_cons.mp member with rfl | earlier
              · exact Or.inr listed
              · exact Or.inl (scanned RealPath earlier listed)

/-- A scan registers every library file on its search paths that is not loaded. -/
theorem ScanForLibraries_covers {searchSystemLibraries : Bool}
    (listed : OnSearchPath files searchSystemLibraries FileName)
    (candidate : Candidate files FileName)
    (unloaded : DLM.isLibraryLoaded files.toLibraryFiles FileName = false) (dyld : Dyld) :
    (ScanForLibraries files DLM searchSystemLibraries dyld).Covers FileName := by
  have along : ∀ (Infos : List SearchPathInfo) (state : List PathName × Dyld),
      ScannedFor files FileName state →
      ScannedFor files FileName (Infos.foldl (scanPath files DLM searchSystemLibraries) state) ∧
        (∀ RealPath ∈ state.1, RealPath ∈
          (Infos.foldl (scanPath files DLM searchSystemLibraries) state).1) ∧
        ∀ Info ∈ Infos, Info.IsUser ≠ searchSystemLibraries →
          files.is_directory (files.cached_realpath Info.Path) = true →
          files.cached_realpath Info.Path ≠ [] → files.cached_realpath Info.Path ∈
            (Infos.foldl (scanPath files DLM searchSystemLibraries) state).1 := by
    intro Infos
    induction Infos with
    | nil => exact fun state scanned => ⟨scanned, fun _ member => member, nofun⟩
    | cons Info Infos ih =>
        intro state scanned
        obtain ⟨here, kept, entered⟩ := scanPath_scanned candidate unloaded scanned Info
        obtain ⟨there, later, entered_later⟩ := ih _ here
        refine ⟨there, fun RealPath member => later RealPath (kept RealPath member), ?_⟩
        intro other member kind directory nonempty
        rcases List.mem_cons.mp member with rfl | member
        · exact later _ (entered kind directory nonempty)
        · exact entered_later other member kind directory nonempty
  obtain ⟨Info, at_path, kind, directory, nonempty, entry, member, names⟩ := listed
  obtain ⟨scanned, _, entered⟩ := along files.getSearchPaths ([], dyld) (fun _ member => nomatch member)
  exact scanned _ (entered Info at_path kind directory nonempty) ⟨entry, member, names⟩

end Dyld

end Candidates

namespace Dyld

section Depth

variable {File : Type} {files : AutoloadFiles File} {DLM : DynamicLibraryManager File}
variable {searchSystemLibraries : Bool}

def unregistered (files : AutoloadFiles File) (dyld : Dyld) : Finset PathName :=
  files.sharedNames.toFinset.filter fun FileName =>
    (dyld.m_SysLibraries.HasRegisteredLib (ScannedLib.ofFile FileName) ||
      dyld.m_Libraries.HasRegisteredLib (ScannedLib.ofFile FileName)) = false

theorem mem_unregistered {dyld : Dyld} {FileName : PathName} :
    FileName ∈ unregistered files dyld ↔
      FileName ∈ files.sharedNames ∧ ¬dyld.Covers FileName := by
  rw [unregistered, Finset.mem_filter, List.mem_toFinset, covers_iff, Bool.not_eq_true]

theorem Adds.unregistered_subset {dyld later : Dyld}
    (adds : Adds files DLM searchSystemLibraries dyld later) :
    unregistered files later ⊆ unregistered files dyld := by
  intro FileName member
  obtain ⟨shared, missing⟩ := mem_unregistered.mp member
  exact mem_unregistered.mpr ⟨shared, fun covers => missing (covers.later adds)⟩

def nesting (files : AutoloadFiles File) (dyld : Dyld) (FileName : PathName) : Nat :=
  (unregistered files dyld).card + if FileName ∈ files.sharedNames then 0 else 1

theorem nesting_dep {dyld registered : Dyld} {FileName dep : PathName}
    (adds : Adds files DLM searchSystemLibraries dyld registered)
    (missing : ¬dyld.Covers FileName) (covers : registered.Covers FileName)
    (dep_shared : dep ∈ files.sharedNames) :
    nesting files registered dep < nesting files dyld FileName := by
  have subset := adds.unregistered_subset
  rw [nesting, nesting, if_pos dep_shared]
  by_cases shared : FileName ∈ files.sharedNames
  · have strict : unregistered files registered ⊂ unregistered files dyld := by
      rw [Finset.ssubset_iff_of_subset subset]
      exact ⟨FileName, mem_unregistered.mpr ⟨shared, missing⟩,
        fun still => (mem_unregistered.mp still).2 covers⟩
    have fewer := Finset.card_lt_card strict
    rw [if_pos shared]
    omega
  · have fewer := Finset.card_le_card subset
    rw [if_neg shared]
    omega

theorem HandleLib_empty (fuel level : Nat) (dyld : Dyld) :
    HandleLib files DLM searchSystemLibraries fuel level [] dyld = dyld := by
  cases fuel with
  | zero => rfl
  | succ fuel =>
      rw [HandleLib]
      simp only [ignores_empty, if_true, ite_self]

def handleDeps (files : AutoloadFiles File) (DLM : DynamicLibraryManager File)
    (searchSystemLibraries : Bool) (fuel level : Nat) (FileName : PathName) (file : LibraryFile)
    (registered : Dyld) : Dyld :=
  (handledDeps files file).foldl
    (fun dyld dep => HandleLib files DLM searchSystemLibraries fuel (level + 1)
      (lookupLibrary files.toLibraryFiles dep file.RPath file.RunPath FileName false) dyld)
    registered

theorem HandleLib_eq (fuel level : Nat) (FileName : PathName) (dyld : Dyld) :
    HandleLib files DLM searchSystemLibraries (fuel + 1) level FileName dyld =
      let LibPath := ScannedLib.ofFile FileName
      if dyld.m_SysLibraries.HasRegisteredLib LibPath ||
          dyld.m_Libraries.HasRegisteredLib LibPath then dyld
      else if ShouldPermanentlyIgnore files DLM FileName then dyld
      else
        let registered := dyld.RegisterLib searchSystemLibraries LibPath
        match files.createObjectFile FileName with
        | none => registered
        | some file =>
            if level == 0 && (file.isELF && file.isPIEExecutable) then
              registered.UnregisterLib searchSystemLibraries LibPath
            else handleDeps files DLM searchSystemLibraries fuel level FileName file registered :=
  rfl

theorem handleDeps_succ {fuel level : Nat} {FileName : PathName} {file : LibraryFile}
    {dyld registered : Dyld}
    (inner : ∀ name state, name = [] ∨ PlainName name → nesting files state name < fuel →
      HandleLib files DLM searchSystemLibraries fuel (level + 1) name state =
        HandleLib files DLM searchSystemLibraries (fuel + 1) (level + 1) name state)
    (adds : Adds files DLM searchSystemLibraries dyld registered) (missing : ¬dyld.Covers FileName)
    (covers : registered.Covers FileName) (enough : nesting files dyld FileName < fuel + 1) :
    handleDeps files DLM searchSystemLibraries fuel level FileName file registered =
      handleDeps files DLM searchSystemLibraries (fuel + 1) level FileName file registered := by
  rw [handleDeps, handleDeps]
  induction handledDeps files file generalizing registered with
  | nil => rfl
  | cons dep deps ih =>
      rw [List.foldl_cons, List.foldl_cons]
      have plain := lookupLibrary_plain files dep file.RPath file.RunPath FileName
      have next : Adds files DLM searchSystemLibraries registered
          (HandleLib files DLM searchSystemLibraries fuel (level + 1)
            (lookupLibrary files.toLibraryFiles dep file.RPath file.RunPath FileName false)
            registered) := HandleLib_adds fuel (level + 1) plain registered
      have same : HandleLib files DLM searchSystemLibraries fuel (level + 1)
            (lookupLibrary files.toLibraryFiles dep file.RPath file.RunPath FileName false) registered =
          HandleLib files DLM searchSystemLibraries (fuel + 1) (level + 1)
            (lookupLibrary files.toLibraryFiles dep file.RPath file.RunPath FileName false)
            registered := by
        rcases lookupLibrary_dep files dep file.RPath file.RunPath FileName with
          none | ⟨path, shared, found⟩
        · rw [none, HandleLib_empty, HandleLib_empty]
        · have dep_shared : lookupLibrary files.toLibraryFiles dep file.RPath file.RunPath FileName
              false ∈ files.sharedNames := by
            rw [found]
            exact files.shared_named path shared
          have less := nesting_dep adds missing covers dep_shared
          exact inner _ registered plain (by omega)
      rw [← same]
      exact ih (adds.trans next) (covers.later next)

/-- With more fuel than libraries can depend on each other, one more changes nothing. -/
theorem HandleLib_succ (fuel level : Nat) {FileName : PathName}
    (named : FileName = [] ∨ PlainName FileName) (dyld : Dyld)
    (enough : nesting files dyld FileName < fuel) :
    HandleLib files DLM searchSystemLibraries fuel level FileName dyld =
      HandleLib files DLM searchSystemLibraries (fuel + 1) level FileName dyld := by
  induction fuel generalizing level FileName dyld with
  | zero => exact absurd enough (Nat.not_lt_zero _)
  | succ fuel ih =>
      rw [HandleLib_eq fuel level FileName dyld, HandleLib_eq (fuel + 1) level FileName dyld]
      simp only
      split
      next _ => rfl
      next absent =>
          split
          next _ => rfl
          next kept =>
              rw [Bool.not_eq_true] at kept
              have plain : PlainName FileName := by
                rcases named with rfl | plain
                · cases kept.symm.trans ignores_empty
                · exact plain
              have registered := adds_RegisterLib searchSystemLibraries
                (fresh_ofFile plain kept) dyld
              have covers : (dyld.RegisterLib searchSystemLibraries
                  (ScannedLib.ofFile FileName)).Covers FileName := covers_RegisterLib dyld FileName
              have missing : ¬dyld.Covers FileName := fun covers => absent (covers_iff.mp covers)
              split
              next _ => rfl
              next file _ =>
                  split
                  next _ => rfl
                  next _ =>
                      exact handleDeps_succ (fun name state named less =>
                        ih (level + 1) named state less) registered missing covers enough

/-- The bound of a scan is enough for every file. -/
theorem HandleLib_depth (level : Nat) {FileName : PathName}
    (named : FileName = [] ∨ PlainName FileName) (dyld : Dyld) (more : Nat) :
    HandleLib files DLM searchSystemLibraries (depth files + more) level FileName dyld =
      HandleLib files DLM searchSystemLibraries (depth files) level FileName dyld := by
  induction more with
  | zero => rfl
  | succ more ih =>
      have few : (unregistered files dyld).card ≤ files.sharedNames.length :=
        (Finset.card_filter_le _ _).trans (List.toFinset_card_le _)
      have enough : nesting files dyld FileName < depth files + more := by
        rw [nesting, depth]
        split <;> omega
      rw [← Nat.add_assoc, ← HandleLib_succ _ level named dyld enough]
      exact ih

end Depth

end Dyld

end CppInterOp
