import CppInterOp.LibraryCore

/-!
The bookkeeping of loaded libraries: the two tables, the references held, and the exact
condition on the paths that are opened under which all three agree.
-/

namespace CppInterOp

section Canonical

variable {File : Type} (files : LibraryFiles File)

theorem normalizePath_nil : normalizePath files [] = [] := by
  simp [normalizePath, files.stat_empty]

theorem normalizePath_eq (path : PathName) :
    normalizePath files path = [] ∨ normalizePath files path = files.NormalizePath path := by
  rw [normalizePath]
  cases files.stat path with
  | none => exact Or.inl rfl
  | some file => exact Or.inr rfl

theorem lookupLibrary_canonical (libStem : PathName) (RPath RunPath : List PathName)
    (libLoader : PathName) (variateLibStem : Bool) :
    lookupLibrary files libStem RPath RunPath libLoader variateLibStem = [] ∨
      ∃ path, lookupLibrary files libStem RPath RunPath libLoader variateLibStem =
        files.NormalizePath path := by
  have normalized : ∀ path, normalizePath files path = [] ∨
      ∃ other, normalizePath files path = files.NormalizePath other := fun path =>
    (normalizePath_eq files path).imp id fun same => ⟨path, same⟩
  simp only [lookupLibrary]
  split
  · split
    · exact normalized _
    · exact Or.inl rfl
  · split
    · exact normalized _
    · split
      · exact Or.inl rfl
      · exact Or.inr ⟨_, rfl⟩

theorem normalizePath_lookup (libStem : PathName) :
    normalizePath files (lookupLibrary' files libStem) = lookupLibrary' files libStem := by
  rcases lookupLibrary_canonical files libStem [] [] [] true with none | ⟨path, found⟩
  · rw [lookupLibrary', none, normalizePath_nil]
  · rw [lookupLibrary', found]
    by_cases empty : files.NormalizePath path = []
    · rw [empty, normalizePath_nil]
    · obtain ⟨exists_file, stable⟩ := files.canonical path empty
      obtain ⟨file, named⟩ := Option.ne_none_iff_exists'.mp exists_file
      simp [normalizePath, named, stable]

end Canonical

namespace LibraryOp

variable {File : Type} (files : LibraryFiles File)

def canonical : LibraryOp → Option PathName
  | loadLibrary libStem true => some libStem
  | loadLibrary libStem false =>
      let name := lookupLibrary' files libStem
      if name.isEmpty then none else some name
  | interpreterLoadLibrary filename lookup =>
      let name := if lookup then lookupLibrary' files filename else filename
      if name.isEmpty then none else some name
  | unloadLibrary _ => none

end LibraryOp

namespace DynamicLibraryManager

section Books

variable {File : Type} [DecidableEq File] (files : LibraryFiles File)

def Tracked (DLM : DynamicLibraryManager File) (file : File) : Prop :=
  ∃ path, (file, path) ∈ DLM.m_DyLibs

/-- The tables name the same libraries, a path is reported loaded exactly if its file is
held open, and an open file is held once if it is tracked and not at all otherwise. -/
structure Booked (DLM : DynamicLibraryManager File) : Prop where
  names : ∀ path, path ∈ DLM.m_LoadedLibraries ↔ ∃ file, (file, path) ∈ DLM.m_DyLibs
  reported : ∀ path, DLM.isLibraryLoaded files path = true ↔
    ∃ file, files.stat path = some file ∧ file ∈ DLM.references
  held : ∀ file, (DLM.Tracked file → DLM.references.count file = 1) ∧
    (¬DLM.Tracked file → DLM.references.count file = 0)

def Denotes (name : PathName) (file : File) : Prop :=
  ∀ path, normalizePath files path = name ↔ files.stat path = some file

/-- A library is opened that is not held under another name, and the name it is entered
under is the one all its paths normalize to, and no others. -/
def Settled (DLM : DynamicLibraryManager File) (op : LibraryOp) : Prop :=
  ∀ name ∈ op.canonical files, name ∉ DLM.m_LoadedLibraries →
    ∀ file ∈ files.dlopen name, file ∉ DLM.references ∧ Denotes files name file

structure Good (DLM : DynamicLibraryManager File) : Prop where
  names : ∀ path, path ∈ DLM.m_LoadedLibraries ↔ ∃ file, (file, path) ∈ DLM.m_DyLibs
  one_name : ∀ file path other, (file, path) ∈ DLM.m_DyLibs → (file, other) ∈ DLM.m_DyLibs →
    path = other
  one_file : ∀ file other path, (file, path) ∈ DLM.m_DyLibs → (other, path) ∈ DLM.m_DyLibs →
    file = other
  held : ∀ file, (DLM.Tracked file → DLM.references.count file = 1) ∧
    (¬DLM.Tracked file → DLM.references.count file = 0)
  denotes : ∀ file path, (file, path) ∈ DLM.m_DyLibs → Denotes files path file

variable {files} {DLM : DynamicLibraryManager File} (good : DLM.Good files)

include good

theorem Good.tracked_iff (file : File) : DLM.Tracked file ↔ file ∈ DLM.references := by
  constructor
  · intro tracked
    exact List.count_pos_iff.mp (by rw [(good.held file).1 tracked]; exact Nat.one_pos)
  · intro member
    by_contra untracked
    have zero := (good.held file).2 untracked
    exact List.count_eq_zero.mp zero member

theorem Good.reported (path : PathName) : DLM.isLibraryLoaded files path = true ↔
    ∃ file, files.stat path = some file ∧ file ∈ DLM.references := by
  rw [isLibraryLoaded, List.contains_iff_mem, good.names]
  refine exists_congr fun file => ?_
  constructor
  · intro entry
    exact ⟨(good.denotes file _ entry path).mp rfl, (good.tracked_iff file).mp ⟨_, entry⟩⟩
  · rintro ⟨named, member⟩
    obtain ⟨name, entry⟩ := (good.tracked_iff file).mpr member
    rwa [(good.denotes file name entry path).mpr named]

theorem Good.booked : DLM.Booked files :=
  ⟨good.names, good.reported, good.held⟩

section Enter

def entered (DLM : DynamicLibraryManager File) (name : PathName) (file : File) :
    DynamicLibraryManager File where
  m_DyLibs := DLM.m_DyLibs ++ [(file, name)]
  m_LoadedLibraries := DLM.m_LoadedLibraries ++ [name]
  references := file :: DLM.references

variable {name : PathName} {file : File} (unloaded : name ∉ DLM.m_LoadedLibraries)
variable (unheld : file ∉ DLM.references)

include unloaded unheld

theorem Good.enter_good (denotes : Denotes files name file) :
    (entered DLM name file).Good files := by
  have untracked : ¬DLM.Tracked file := fun tracked => unheld ((good.tracked_iff file).mp tracked)
  have unnamed : ∀ other, (other, name) ∉ DLM.m_DyLibs := fun other entry =>
    unloaded ((good.names name).mpr ⟨other, entry⟩)
  have entry_iff : ∀ other path, (other, path) ∈ (entered DLM name file).m_DyLibs ↔
      (other, path) ∈ DLM.m_DyLibs ∨ other = file ∧ path = name := by
    intro other path
    simp [entered]
  refine ⟨?_, ?_, ?_, ?_, ?_⟩
  · intro path
    simp only [entered, List.mem_append, List.mem_singleton, good.names, Prod.mk.injEq,
      exists_or, exists_eq_left]
  · intro other path another first second
    rcases (entry_iff other path).mp first with old | ⟨rfl, rfl⟩
    · rcases (entry_iff other another).mp second with older | ⟨rfl, rfl⟩
      · exact good.one_name other path another old older
      · exact absurd ⟨path, old⟩ untracked
    · rcases (entry_iff other another).mp second with older | ⟨_, rfl⟩
      · exact absurd ⟨another, older⟩ untracked
      · rfl
  · intro one other path first second
    rcases (entry_iff one path).mp first with old | ⟨rfl, rfl⟩
    · rcases (entry_iff other path).mp second with older | ⟨rfl, rfl⟩
      · exact good.one_file one other path old older
      · exact absurd old (unnamed one)
    · rcases (entry_iff other path).mp second with older | ⟨rfl, _⟩
      · exact absurd older (unnamed other)
      · rfl
  · intro other
    have tracked_iff : (entered DLM name file).Tracked other ↔ DLM.Tracked other ∨ other = file := by
      simp only [Tracked, entry_iff, exists_or, exists_and_left, exists_eq, and_true]
    by_cases same : other = file
    · subst same
      refine ⟨fun _ => ?_, fun untracked => absurd (tracked_iff.mpr (Or.inr rfl)) untracked⟩
      simp [entered, List.count_eq_zero.mpr unheld]
    · have count : (entered DLM name file).references.count other =
          DLM.references.count other := List.count_cons_of_ne (Ne.symm same)
      rw [count, tracked_iff]
      simpa [same] using good.held other
  · intro other path entry
    rcases (entry_iff other path).mp entry with old | ⟨rfl, rfl⟩
    · exact good.denotes other path old
    · exact denotes

/-- An entry that some path is wrong about shows in what is reported loaded. -/
theorem Good.denotes_of_booked (booked : (entered DLM name file).Booked files) :
    Denotes files name file := by
  intro path
  have reported := booked.reported path
  have before := good.reported path
  simp only [isLibraryLoaded, List.contains_iff_mem, entered, List.mem_append,
    List.mem_cons, List.not_mem_nil, or_false] at reported before
  constructor
  · intro normalized
    obtain ⟨other, named, rfl | held⟩ := reported.mp (Or.inr normalized)
    · exact named
    · exact absurd (normalized ▸ before.mpr ⟨other, named, held⟩) unloaded
  · intro named
    rcases reported.mpr ⟨file, named, Or.inl rfl⟩ with loaded | normalized
    · obtain ⟨other, named', held⟩ := before.mp loaded
      obtain rfl : file = other := Option.some.inj (named.symm.trans named')
      exact absurd held unheld
    · exact normalized

end Enter

theorem Good.leak_not_booked {file : File} (held : file ∈ DLM.references) :
    ¬Booked files { DLM with references := file :: DLM.references } := by
  intro booked
  have tracked := (good.tracked_iff file).mpr held
  have twice := (booked.held file).1 tracked
  have once := (good.held file).1 tracked
  rw [List.count_cons_self] at twice
  omega

theorem Good.contains_iff (file : File) :
    (DLM.m_DyLibs.map Prod.fst).contains file = true ↔ file ∈ DLM.references := by
  rw [List.contains_iff_mem, ← good.tracked_iff]
  simp [Tracked]

def SettledName (files : LibraryFiles File) (DLM : DynamicLibraryManager File) (name : PathName) :
    Prop :=
  name ∉ DLM.m_LoadedLibraries →
    ∀ file ∈ files.dlopen name, file ∉ DLM.references ∧ Denotes files name file

theorem Good.loadCanonical_spec (name : PathName) :
    ((DLM.loadCanonical files name).2.Booked files ↔ SettledName files DLM name) ∧
      (SettledName files DLM name → (DLM.loadCanonical files name).2.Good files) := by
  rw [loadCanonical]
  by_cases loaded : name ∈ DLM.m_LoadedLibraries
  · have settled : SettledName files DLM name := fun unloaded => absurd loaded unloaded
    rw [if_pos (by simpa using loaded)]
    exact ⟨⟨fun _ => settled, fun _ => good.booked⟩, fun _ => good⟩
  · rw [if_neg (by simpa using loaded)]
    cases opened : files.dlopen name with
    | none =>
        have settled : SettledName files DLM name := by simp [SettledName, opened]
        exact ⟨⟨fun _ => settled, fun _ => good.booked⟩, fun _ => good⟩
    | some file =>
        have settled_iff : SettledName files DLM name ↔
            file ∉ DLM.references ∧ Denotes files name file := by
          simp [SettledName, opened, loaded]
        by_cases held : file ∈ DLM.references
        · simp only [(good.contains_iff file).mpr held, if_true]
          have unsettled : ¬SettledName files DLM name := fun settled =>
            (settled_iff.mp settled).1 held
          exact ⟨⟨fun booked => absurd booked (good.leak_not_booked held),
            fun settled => absurd settled unsettled⟩, fun settled => absurd settled unsettled⟩
        · have new : (DLM.m_DyLibs.map Prod.fst).contains file = false :=
            Bool.eq_false_iff.mpr fun contained => held ((good.contains_iff file).mp contained)
          simp only [new, Bool.false_eq_true, if_false]
          have enter : SettledName files DLM name → (entered DLM name file).Good files :=
            fun settled => good.enter_good loaded held (settled_iff.mp settled).2
          refine ⟨⟨fun booked => settled_iff.mpr ⟨held, ?_⟩, fun settled => (enter settled).booked⟩,
            enter⟩
          exact good.denotes_of_booked loaded held booked

theorem Good.drop_good {file : File} {name : PathName} (entry : (file, name) ∈ DLM.m_DyLibs) :
    Good files
      { m_DyLibs := DLM.m_DyLibs.filter fun entry => entry.1 != file
        m_LoadedLibraries := DLM.m_LoadedLibraries.filter (· != name)
        references := DLM.references.erase file } := by
  have same_iff : ∀ {other path}, (other, path) ∈ DLM.m_DyLibs → (other = file ↔ path = name) := by
    intro other path present
    constructor
    · rintro rfl
      exact good.one_name other path name present entry
    · rintro rfl
      exact good.one_file other file path present entry
  have entry_iff : ∀ other path, (other, path) ∈ DLM.m_DyLibs.filter (fun entry => entry.1 != file) ↔
      (other, path) ∈ DLM.m_DyLibs ∧ other ≠ file := by
    intro other path
    simp
  refine ⟨?_, ?_, ?_, ?_, ?_⟩
  · intro path
    simp only [entry_iff, List.mem_filter, bne_iff_ne, good.names]
    constructor
    · rintro ⟨⟨other, present⟩, ne⟩
      exact ⟨other, present, fun same => ne ((same_iff present).mp same)⟩
    · rintro ⟨other, present, ne⟩
      exact ⟨⟨other, present⟩, fun same => ne ((same_iff present).mpr same)⟩
  · intro other path another first second
    exact good.one_name other path another ((entry_iff _ _).mp first).1 ((entry_iff _ _).mp second).1
  · intro one other path first second
    exact good.one_file one other path ((entry_iff _ _).mp first).1 ((entry_iff _ _).mp second).1
  · intro other
    simp only [Tracked, entry_iff]
    by_cases same : other = file
    · subst same
      have once := (good.held other).1 ⟨name, entry⟩
      simp [List.count_erase_self, once]
    · have kept := good.held other
      simp only [Tracked] at kept
      simpa only [ne_eq, same, not_false_iff, and_true, List.count_erase_of_ne same] using kept
  · intro other path present
    exact good.denotes other path ((entry_iff _ _).mp present).1

theorem Good.unloadLibrary_good (libStem : PathName) :
    (DLM.unloadLibrary files libStem).Good files := by
  rw [unloadLibrary]
  simp only
  split
  case isTrue => exact good
  case isFalse reported =>
    have loaded : lookupLibrary' files libStem ∈ DLM.m_LoadedLibraries := by
      simpa [isLibraryLoaded, normalizePath_lookup] using reported
    generalize lookupLibrary' files libStem = name at loaded
    cases found : DLM.m_DyLibs.find? fun entry => entry.2 == name with
    | none =>
        obtain ⟨file, entry⟩ := (good.names name).mp loaded
        exact absurd (List.find?_eq_none.mp found _ entry) (by simp)
    | some entry =>
        obtain ⟨file, named⟩ := entry
        obtain rfl : named = name := by simpa using List.find?_some found
        exact good.drop_good (List.mem_of_find?_eq_some found)

theorem Good.step_spec (op : LibraryOp) :
    ((DLM.step files op).Booked files ↔ Settled files DLM op) ∧
      (Settled files DLM op → (DLM.step files op).Good files) := by
  have of_canonical : ∀ next : DynamicLibraryManager File, next = (match op.canonical files with
      | none => DLM
      | some name => (DLM.loadCanonical files name).2) →
      (next.Booked files ↔ Settled files DLM op) ∧
        (Settled files DLM op → next.Good files) := by
    rintro next rfl
    cases called : op.canonical files with
    | none =>
        have settled : Settled files DLM op := by simp [Settled, called]
        exact ⟨⟨fun _ => settled, fun _ => good.booked⟩, fun _ => good⟩
    | some name =>
        have settled_iff : Settled files DLM op ↔ SettledName files DLM name := by
          simp [Settled, SettledName, called]
        rw [settled_iff]
        exact good.loadCanonical_spec name
  cases op with
  | loadLibrary libStem resolved =>
      refine of_canonical _ ?_
      cases resolved with
      | true => rfl
      | false =>
          by_cases none : lookupLibrary' files libStem = []
          · simp [step, loadLibrary, LibraryOp.canonical, none]
          · simp [step, loadLibrary, LibraryOp.canonical, none]
  | interpreterLoadLibrary filename lookup =>
      refine of_canonical _ ?_
      simp only [step, CppInterOp.interpreterLoadLibrary, LibraryOp.canonical, loadLibrary]
      generalize (if lookup = true then lookupLibrary' files filename else filename) = library
      by_cases none : library = []
      · simp [none]
      · simp [none]
  | unloadLibrary libStem =>
      have settled : Settled files DLM (.unloadLibrary libStem) := by
        simp [Settled, LibraryOp.canonical]
      have unloaded := good.unloadLibrary_good libStem
      exact ⟨⟨fun _ => settled, fun _ => unloaded.booked⟩, fun _ => unloaded⟩

end Books

theorem start_good {File : Type} [DecidableEq File] (files : LibraryFiles File) :
    ({} : DynamicLibraryManager File).Good files where
  names := by simp
  one_name := by simp
  one_file := by simp
  held := by simp [Tracked]
  denotes := by simp

end DynamicLibraryManager

open DynamicLibraryManager

theorem libraries_booked_iff {File : Type} [DecidableEq File] (files : LibraryFiles File)
    (ops : List LibraryOp) :
    Runs.EveryState (step files) (Booked files) {} ops ↔
      Runs.EveryStep (step files) (Settled files) {} ops := by
  have always : Runs.EveryStep (step files) (fun _ _ => True) {} ops :=
    Runs.everyStep_of_forall fun _ _ => trivial
  refine Runs.everyState_iff_everyStep (Good files) (Booked files) (start_good files)
    (fun _ good => good.booked) ?_ ?_ always
  · exact fun DLM op good _ => (good.step_spec op).1
  · exact fun DLM op good _ settled => (good.step_spec op).2 settled

def linkedLibrary : LibraryFiles Nat where
  stat := fun path => if path = ['/', 'a'] ∨ path = ['/', 'b'] then some 0 else none
  NormalizePath := fun path =>
    if path = ['/', 'a'] ∨ path = ['/', 'b'] then ['/', 'a'] else []
  isSharedLibrary := fun path => path = ['/', 'a'] ∨ path = ['/', 'b']
  dlopen := fun path => if path = ['/', 'a'] ∨ path = ['/', 'b'] then some 0 else none
  getMainExecutable := ['/', 'm']
  m_SearchPaths := [['.']]
  stat_empty := by decide
  canonical := by
    intro path named
    by_cases known : path = ['/', 'a'] ∨ path = ['/', 'b']
    · simp [known]
    · simp [known] at named

/-- Loaded under the link's name, the library is not reported as loaded. -/
theorem library_loaded_by_link :
    ¬Runs.EveryState (step linkedLibrary) (Booked linkedLibrary) {}
      [.interpreterLoadLibrary ['/', 'b'] false] := by
  intro every
  have reported := (every.last.reported ['/', 'b']).mpr ⟨0, by decide, by decide⟩
  revert reported
  decide

end CppInterOp
