import CppInterOp.DispatchCore
import CppInterOp.Library.Runs

/-!
Runs of loads and unloads of the dispatch table. A load is all or nothing exactly when it
does not ask for another library than the cached one and the library it goes through does
not lack a critical function after the slots were assigned.
-/

namespace CppInterOp

open ProcStatics

inductive DispatchOp
  | load (customLibPath getenv : Option String)
  | unload (getenv : Option String)
  deriving DecidableEq, Repr

/-- The table and the observer's own note of the library that the last successful load since
an unload was for. -/
structure WatchedDispatch where
  table : DispatchTable := {}
  loaded : Option ProcAddress := none

def exported (library : Option ProcAddress) (name : String) : Option Address :=
  library.bind fun getProc => getProc name

def Complete (library : Option ProcAddress) : Prop :=
  (exported library "GetInterpreter").isSome ∧ (exported library "CreateInterpreter").isSome

instance (library : Option ProcAddress) : Decidable (Complete library) :=
  inferInstanceAs (Decidable (_ ∧ _))

namespace WatchedDispatch

variable (api : DispatchAPI) (dlopen : String → Option SharedLibrary)

/-- The library a call is for: that at its path or, for a null path, the loaded one or that of
`CPPINTEROP_LIBRARY_PATH`. -/
def named (watched : WatchedDispatch) (customLibPath getenv : Option String) :
    Option ProcAddress :=
  match customLibPath with
  | some path => exportsOf dlopen path
  | none => watched.loaded.or (getenv.bind (exportsOf dlopen))

def step (watched : WatchedDispatch) : DispatchOp → WatchedDispatch
  | .load customLibPath getenv =>
      let out := LoadDispatchAPI dlopen api getenv watched.table customLibPath
      { table := out.1
        loaded := if out.2.isOk then named dlopen watched customLibPath getenv
          else watched.loaded }
  | .unload getenv => { table := UnloadDispatchAPI dlopen api getenv watched.table }

def Filled (table : DispatchTable) (library : ProcAddress) : Prop :=
  ∀ name ∈ api.names, table.slots name = library name

def AllOrNothing (watched : WatchedDispatch) : DispatchOp → Prop
  | .load customLibPath getenv =>
      let out := LoadDispatchAPI dlopen api getenv watched.table customLibPath
      if out.2.isOk then
        ∃ library, named dlopen watched customLibPath getenv = some library ∧
          Filled api out.1 library
      else out.1.slots = watched.table.slots
  | .unload getenv =>
      let table := UnloadDispatchAPI dlopen api getenv watched.table
      (∀ name ∈ api.names, table.slots name = none) ∧
        ∀ path later library, exportsOf dlopen path = some library → Complete (some library) →
          let out := LoadDispatchAPI dlopen api later table (some path)
          out.2.isOk = true ∧ Filled api out.1 library

def used (watched : WatchedDispatch) (customLibPath getenv : Option String) :
    Option ProcAddress :=
  usedLibrary dlopen getenv watched.table.statics.getProc customLibPath

/-- A path names a library with the same functions as a complete one that is cached, and the
library used, once it has passed the test of a path, exports both critical functions or
none at all. -/
structure SteadyLoad (watched : WatchedDispatch) (customLibPath getenv : Option String) :
    Prop where
  same : ∀ path cached, customLibPath = some path →
    watched.table.statics.getProc = some cached → Complete (some cached) →
    ∃ library, exportsOf dlopen path = some library ∧ ∀ name ∈ api.names,
      cached name = library name
  whole : (customLibPath = none ∨
      (exported (used dlopen watched customLibPath getenv) "GetInterpreter").isSome) →
    Complete (used dlopen watched customLibPath getenv) ∨
      ∀ name ∈ api.names, exported (used dlopen watched customLibPath getenv) name = none

def Steady (watched : WatchedDispatch) : DispatchOp → Prop
  | .load customLibPath getenv => SteadyLoad api dlopen watched customLibPath getenv
  | .unload _ => True

end WatchedDispatch

section

variable {api : DispatchAPI} {dlopen : String → Option SharedLibrary} {getenv : Option String}

theorem UnloadDispatchAPI_eq (table : DispatchTable) :
    UnloadDispatchAPI dlopen api getenv table =
      { statics := cache none
        slots := fun name => if name ∈ api.names then none else table.slots name } := by
  simp only [UnloadDispatchAPI, clearSlots_eq]
  rfl

theorem loadSlots_spec (table : DispatchTable) (cached : Option ProcAddress)
    (settled : table.statics = cache cached) :
    let library := usedLibrary dlopen getenv cached none
    let out := loadSlots dlopen api getenv table
    out.1.statics = cache library ∧
      (out.1.slots = fun name => if name ∈ api.names then exported library name
        else table.slots name) ∧
      (out.2.isOk = true ↔ Complete library) := by
  obtain ⟨slots, statics⟩ := assignSlots_eq table cached settled api.names
  rw [if_neg (List.ne_nil_of_mem api.getInterpreter)] at statics
  have critical : ∀ name ∈ api.names, (assignSlots dlopen getenv table api.names).slots name =
      exported (usedLibrary dlopen getenv cached none) name := by
    intro name listed
    rw [slots]
    exact if_pos listed
  unfold loadSlots Complete
  simp only [critical _ api.getInterpreter, critical _ api.createInterpreter]
  cases exported (usedLibrary dlopen getenv cached none) "GetInterpreter" with
  | none => exact ⟨statics, slots, by simp [Except.isOk, Except.toBool]⟩
  | some getInterpreter =>
      cases exported (usedLibrary dlopen getenv cached none) "CreateInterpreter" with
      | none => exact ⟨statics, slots, by simp [Except.isOk, Except.toBool]⟩
      | some createInterpreter => exact ⟨statics, slots, by simp [Except.isOk, Except.toBool]⟩

theorem LoadDispatchAPI_refused {table : DispatchTable} {path : String} {statics : ProcStatics}
    (test : dlGetProcAddress dlopen getenv table.statics (some "GetInterpreter") (some path) =
      (statics, none)) :
    LoadDispatchAPI dlopen api getenv table (some path) =
      ({ table with statics := statics },
        .error ("[CppInterOp Dispatch] Failed to load API from: " ++ path)) := by
  simp only [LoadDispatchAPI, test, Option.isNone_none, if_true]

theorem LoadDispatchAPI_passed {table : DispatchTable} {path : String} {statics : ProcStatics}
    {proc : Address}
    (test : dlGetProcAddress dlopen getenv table.statics (some "GetInterpreter") (some path) =
      (statics, some proc)) :
    LoadDispatchAPI dlopen api getenv table (some path) =
      loadSlots dlopen api getenv { table with statics := statics } := by
  simp only [LoadDispatchAPI, test, Option.isNone_some, Bool.false_eq_true, if_false]

/-- What a load does: the path is refused, or every slot is assigned and then the critical
ones are checked. -/
theorem LoadDispatchAPI_cases (table : DispatchTable) (settled : table.statics.Settled)
    (customLibPath : Option String) :
    let library := usedLibrary dlopen getenv table.statics.getProc customLibPath
    let out := LoadDispatchAPI dlopen api getenv table customLibPath
    out.1.statics = cache library ∧
      ((customLibPath ≠ none ∧ exported library "GetInterpreter" = none ∧
          out.1.slots = table.slots ∧ out.2.isOk = false) ∨
        ((customLibPath = none ∨ (exported library "GetInterpreter").isSome) ∧
          (out.1.slots = fun name => if name ∈ api.names then exported library name
            else table.slots name) ∧
          (out.2.isOk = true ↔ Complete library))) := by
  have start := settled.eq_cache
  cases customLibPath with
  | none =>
      obtain ⟨statics, assigned⟩ : _ ∧ _ := loadSlots_spec table _ start
      exact ⟨statics, Or.inr ⟨Or.inl rfl, assigned⟩⟩
  | some path =>
      have test : dlGetProcAddress dlopen getenv table.statics (some "GetInterpreter")
          (some path) = (cache (usedLibrary dlopen getenv table.statics.getProc (some path)),
            exported (usedLibrary dlopen getenv table.statics.getProc (some path))
              "GetInterpreter") := by
        rw [start]
        exact dlGetProcAddress_eq _ _ _
      generalize usedLibrary dlopen getenv table.statics.getProc (some path) = library at test ⊢
      cases interpreter : exported library "GetInterpreter" with
      | none =>
          rw [interpreter] at test
          rw [LoadDispatchAPI_refused test]
          exact ⟨rfl, Or.inl ⟨Option.some_ne_none path, interpreter, rfl, rfl⟩⟩
      | some proc =>
          rw [interpreter] at test
          obtain ⟨getProc, found⟩ : ∃ getProc, library = some getProc := by
            cases library with
            | none => cases interpreter
            | some getProc => exact ⟨getProc, rfl⟩
          subst found
          rw [LoadDispatchAPI_passed test]
          obtain ⟨statics, assigned⟩ : _ ∧ _ := loadSlots_spec
            { table with statics := cache (some getProc) } (some getProc) rfl
          rw [usedLibrary_cached] at statics assigned
          refine ⟨statics, Or.inr ⟨Or.inr ?_, assigned⟩⟩
          rw [interpreter]
          rfl

namespace WatchedDispatch

variable (api) in
/-- Of an incomplete library nothing is in the table; a complete one is that of the last
successful load. -/
structure Good (watched : WatchedDispatch) : Prop where
  settled : watched.table.statics.Settled
  empty : ¬Complete watched.table.statics.getProc →
    (∀ name ∈ api.names, watched.table.slots name = none) ∧ watched.loaded = none
  whole : Complete watched.table.statics.getProc → ∃ library, watched.loaded = some library ∧
    ∀ name ∈ api.names, exported watched.table.statics.getProc name = library name

theorem not_complete_none : ¬Complete none := fun complete => (nomatch complete.1)

theorem Good.start : Good api {} where
  settled := rfl
  empty _ := ⟨fun _ _ => rfl, rfl⟩
  whole complete := absurd complete not_complete_none

theorem Good.unloaded (getenv : Option String) (table : DispatchTable) :
    Good api { table := UnloadDispatchAPI dlopen api getenv table } := by
  rw [UnloadDispatchAPI_eq]
  exact ⟨rfl, fun _ => ⟨fun name listed => if_pos listed, rfl⟩,
    fun complete => absurd complete not_complete_none⟩

variable {watched : WatchedDispatch} {customLibPath : Option String}

theorem used_complete (complete : Complete watched.table.statics.getProc) :
    used dlopen watched customLibPath getenv = watched.table.statics.getProc := by
  unfold used
  cases cached : watched.table.statics.getProc with
  | none =>
      rw [cached] at complete
      exact absurd complete not_complete_none
  | some getProc => rfl

theorem cached_incomplete
    (incomplete : ¬Complete (used dlopen watched customLibPath getenv)) :
    ¬Complete watched.table.statics.getProc := by
  intro complete
  rw [used_complete complete] at incomplete
  exact incomplete complete

/-- A library that is opened by the load itself is the one the load is for. -/
theorem Good.named_opened (good : Good api watched)
    (fresh : ¬Complete watched.table.statics.getProc)
    (complete : Complete (used dlopen watched customLibPath getenv)) :
    named dlopen watched customLibPath getenv = used dlopen watched customLibPath getenv := by
  unfold used at complete ⊢
  cases cached : watched.table.statics.getProc with
  | some getProc =>
      rw [cached] at fresh complete
      exact absurd complete fresh
  | none =>
      unfold named usedLibrary
      rw [(good.empty fresh).2]
      cases customLibPath <;> rfl

/-- The right library was used: the one named exports the same functions. -/
def SameLibrary (api : DispatchAPI) (dlopen : String → Option SharedLibrary)
    (watched : WatchedDispatch) (customLibPath getenv : Option String) : Prop :=
  ∃ library, named dlopen watched customLibPath getenv = some library ∧
    ∀ name ∈ api.names, exported (used dlopen watched customLibPath getenv) name = library name

theorem Good.same_iff (good : Good api watched)
    (complete : Complete (used dlopen watched customLibPath getenv)) :
    SameLibrary api dlopen watched customLibPath getenv ↔
      SteadyLoad api dlopen watched customLibPath getenv := by
  constructor
  · rintro ⟨library, for_this, agrees⟩
    refine ⟨?_, fun _ => Or.inl complete⟩
    intro path cached given found cachedComplete
    subst given
    refine ⟨library, for_this, fun name listed => ?_⟩
    rw [← agrees name listed, used_complete (by rw [found]; exact cachedComplete), found]
    rfl
  · intro steady
    by_cases fresh : Complete watched.table.statics.getProc
    · have through : used dlopen watched customLibPath getenv = _ := used_complete fresh
      cases customLibPath with
      | none =>
          obtain ⟨library, loaded, agrees⟩ := good.whole fresh
          refine ⟨library, ?_, ?_⟩
          · simp only [named, loaded, Option.some_or]
          · rw [through]
            exact agrees
      | some path =>
          obtain ⟨cached, found⟩ : ∃ cached, watched.table.statics.getProc = some cached := by
            cases found : watched.table.statics.getProc with
            | none =>
                rw [found] at fresh
                exact absurd fresh not_complete_none
            | some cached => exact ⟨cached, rfl⟩
          rw [found] at fresh through
          obtain ⟨library, opened, agrees⟩ := steady.same path cached rfl found fresh
          refine ⟨library, opened, ?_⟩
          rw [through]
          exact agrees
    · have opened := good.named_opened fresh complete
      cases found : used dlopen watched customLibPath getenv with
      | none =>
          rw [found] at complete
          exact absurd complete not_complete_none
      | some library =>
          refine ⟨library, opened.trans found, ?_⟩
          rw [found]
          exact fun name _ => rfl

/-- The slots were assigned from an incomplete library, and the table is as before. -/
theorem Good.untouched_iff (good : Good api watched)
    (incomplete : ¬Complete (used dlopen watched customLibPath getenv))
    (passed : customLibPath = none ∨
      (exported (used dlopen watched customLibPath getenv) "GetInterpreter").isSome) :
    ((fun name => if name ∈ api.names then
        exported (used dlopen watched customLibPath getenv) name
        else watched.table.slots name) = watched.table.slots) ↔
      SteadyLoad api dlopen watched customLibPath getenv := by
  have before := good.empty (cached_incomplete incomplete)
  constructor
  · intro untouched
    refine ⟨?_, fun _ => Or.inr fun name listed => ?_⟩
    · intro path cached _ found complete
      rw [← found] at complete
      exact absurd complete (cached_incomplete incomplete)
    · have here := congrFun untouched name
      rw [if_pos listed, before.1 name listed] at here
      exact here
  · intro steady
    funext name
    by_cases listed : name ∈ api.names
    · rw [if_pos listed, before.1 name listed]
      exact (steady.whole passed).resolve_left incomplete name listed
    · exact if_neg listed

theorem not_complete_of_refused {library : Option ProcAddress}
    (refused : exported library "GetInterpreter" = none) : ¬Complete library := by
  intro complete
  have found := complete.1
  rw [refused] at found
  cases found

theorem Good.load_cases (good : Good api watched) (dlopen : String → Option SharedLibrary)
    (customLibPath getenv : Option String) :
    let library := used dlopen watched customLibPath getenv
    let out := LoadDispatchAPI dlopen api getenv watched.table customLibPath
    out.1.statics = cache library ∧
      ((customLibPath ≠ none ∧ exported library "GetInterpreter" = none ∧
          out.1.slots = watched.table.slots ∧ out.2.isOk = false) ∨
        ((customLibPath = none ∨ (exported library "GetInterpreter").isSome) ∧
          (out.1.slots = fun name => if name ∈ api.names then exported library name
            else watched.table.slots name) ∧
          (out.2.isOk = true ↔ Complete library))) :=
  LoadDispatchAPI_cases watched.table good.settled customLibPath

theorem Good.load_iff (good : Good api watched) (customLibPath getenv : Option String) :
    AllOrNothing api dlopen watched (.load customLibPath getenv) ↔
      SteadyLoad api dlopen watched customLibPath getenv := by
  obtain ⟨_, ⟨given, refused, same, failed⟩ | ⟨passed, assigned, ok⟩⟩ : _ ∧ _ :=
    good.load_cases dlopen customLibPath getenv
  · have incomplete := not_complete_of_refused refused
    simp only [AllOrNothing, failed, Bool.false_eq_true, if_false, same, true_iff]
    refine ⟨?_, ?_⟩
    · intro path cached _ found complete
      rw [← found] at complete
      exact absurd complete (cached_incomplete incomplete)
    · rintro (none | some)
      · exact absurd none given
      · rw [refused] at some
        cases some
  · by_cases complete : Complete (used dlopen watched customLibPath getenv)
    · simp only [AllOrNothing, ok.mpr complete, if_true]
      rw [← good.same_iff complete]
      have filled : ∀ library, Filled api
          (LoadDispatchAPI dlopen api getenv watched.table customLibPath).1 library ↔
          ∀ name ∈ api.names,
            exported (used dlopen watched customLibPath getenv) name = library name := by
        intro library
        unfold Filled
        refine forall_congr' fun name => forall_congr' fun listed => ?_
        simp only [assigned, if_pos listed]
      simp only [filled]
      exact Iff.rfl
    · have failed : (LoadDispatchAPI dlopen api getenv watched.table customLibPath).2.isOk =
          false := by
        rw [← Bool.not_eq_true, ok]
        exact complete
      simp only [AllOrNothing, failed, Bool.false_eq_true, if_false, assigned]
      exact good.untouched_iff complete passed

theorem Good.load_step (good : Good api watched) (customLibPath getenv : Option String)
    (steady : SteadyLoad api dlopen watched customLibPath getenv) :
    Good api (step api dlopen watched (.load customLibPath getenv)) := by
  have right := (good.load_iff customLibPath getenv).mpr steady
  obtain ⟨statics, outcome⟩ : _ ∧ _ := good.load_cases dlopen customLibPath getenv
  have settled : (step api dlopen watched (.load customLibPath getenv)).table.statics.Settled := by
    simp only [step]
    rw [statics]
    rfl
  have cached : (step api dlopen watched (.load customLibPath getenv)).table.statics.getProc =
      used dlopen watched customLibPath getenv := by
    simp only [step]
    rw [statics]
    rfl
  by_cases complete : Complete (used dlopen watched customLibPath getenv)
  · obtain ⟨_, refused, _, _⟩ | ⟨_, _, ok⟩ := outcome
    · exact absurd complete (not_complete_of_refused refused)
    · obtain ⟨library, for_this, agrees⟩ := (good.same_iff complete).mpr steady
      refine ⟨settled, fun incomplete => absurd (cached ▸ complete) incomplete, fun _ => ?_⟩
      refine ⟨library, ?_, ?_⟩
      · simp only [step, ok.mpr complete, if_true]
        exact for_this
      · rw [cached]
        exact agrees
  · have failed : (LoadDispatchAPI dlopen api getenv watched.table customLibPath).2.isOk =
        false := by
      obtain ⟨_, _, _, failed⟩ | ⟨_, _, ok⟩ := outcome
      · exact failed
      · rw [← Bool.not_eq_true, ok]
        exact complete
    simp only [AllOrNothing, failed, Bool.false_eq_true, if_false] at right
    have before := good.empty (cached_incomplete complete)
    refine ⟨settled, fun _ => ⟨?_, ?_⟩, fun whole => absurd (cached ▸ whole) complete⟩
    · simp only [step]
      rw [right]
      exact before.1
    · simp only [step, failed, Bool.false_eq_true, if_false]
      exact before.2

theorem unload_right (watched : WatchedDispatch) (getenv : Option String) :
    AllOrNothing api dlopen watched (.unload getenv) := by
  have good : Good api { table := UnloadDispatchAPI dlopen api getenv watched.table } :=
    Good.unloaded getenv watched.table
  have idle : (UnloadDispatchAPI dlopen api getenv watched.table).statics.getProc = none := by
    rw [UnloadDispatchAPI_eq]
    rfl
  refine ⟨(good.empty (by rw [idle]; exact not_complete_none)).1, ?_⟩
  intro path later library opened complete
  have asked : usedLibrary dlopen later
      (UnloadDispatchAPI dlopen api getenv watched.table).statics.getProc (some path) =
      some library := by
    rw [idle]
    exact opened
  obtain ⟨_, ⟨_, refused, _, _⟩ | ⟨_, assigned, ok⟩⟩ : _ ∧ _ :=
    LoadDispatchAPI_cases
      (UnloadDispatchAPI dlopen api getenv watched.table) good.settled (some path)
  · rw [asked] at refused
    exact absurd complete (not_complete_of_refused refused)
  · rw [asked] at assigned ok
    refine ⟨ok.mpr complete, fun name listed => ?_⟩
    simp only [assigned, if_pos listed]
    rfl

/-- Every load and unload of a run is all or nothing exactly when every load is steady. -/
theorem all_or_nothing_iff (api : DispatchAPI) (dlopen : String → Option SharedLibrary)
    (ops : List DispatchOp) :
    Runs.EveryStep (step api dlopen) (AllOrNothing api dlopen) {} ops ↔
      Runs.EveryStep (step api dlopen) (Steady api dlopen) {} ops := by
  apply Runs.everyStep_iff_everyStep (Good api) Good.start
  · intro watched op good
    cases op with
    | load customLibPath getenv => exact good.load_iff customLibPath getenv
    | unload getenv => exact iff_of_true (unload_right watched getenv) trivial
  · intro watched op good steady
    cases op with
    | load customLibPath getenv => exact good.load_step customLibPath getenv steady
    | unload getenv => exact Good.unloaded getenv watched.table

def criticalAPI : DispatchAPI where
  names := ["CreateInterpreter", "GetInterpreter"]
  getInterpreter := List.mem_cons_of_mem _ List.mem_cons_self
  createInterpreter := List.mem_cons_self

def partialLibrary (path : String) : Option SharedLibrary :=
  if path = "partial.so" then
    some ⟨some fun name => if name = "GetInterpreter" then some 0x1000 else none⟩
  else none

/-- The load fails, and its slot stays assigned. -/
theorem all_or_nothing_overwritten :
    ¬Runs.EveryStep (step criticalAPI partialLibrary) (AllOrNothing criticalAPI partialLibrary) {}
      [.load (some "partial.so") none] := by
  intro every
  have untouched : (LoadDispatchAPI partialLibrary criticalAPI none {} (some "partial.so")).1.slots =
      fun _ => none := every.1
  have slot := congrFun untouched "GetInterpreter"
  revert slot
  decide

end WatchedDispatch

end

end CppInterOp
