import CppInterOp.DispatchRuns
import CppInterOp.EmitterAPI

/-!
The functions behind the dispatch table: the entries that a library makes of `CppInterOpAPI.inc`, and
the functions that a client which includes the same file finds in its slots.
-/

namespace CppInterOp

open MacroCalls ProcStatics

/-- `static_cast<Ret(*) RawTypes>(&Cpp::CN)` -/
structure CppFunction where
  CppName : StringRef
  ReturnType : StringRef
  RawTypes : StringRef
  deriving DecidableEq, Repr

def APIFunction.function (R : APIFunction) : CppFunction :=
  ⟨R.CppName, R.ReturnType, R.RawArgTypes⟩

/-- A call with another number of arguments does not compile. -/
def dispatchEntry : List StringRef → Option (StringRef × CppFunction)
  | [DN, CN, Ret, _, _, RawTypes] => some (DN, ⟨CN, Ret, RawTypes⟩)
  | _ => none

def DispatchMap (lines : List StringRef) : Option (List (StringRef × CppFunction)) :=
  (macroCalls CPPINTEROP_API_FUNC lines).mapM dispatchEntry

/-- Of several entries of one name the map keeps the first. -/
def CppGetProcAddress (address : CppFunction → Address) (map : List (StringRef × CppFunction)) :
    ProcAddress :=
  fun funcName => (map.lookup funcName.toList).map address

def dispatchSlots (lines : List StringRef) : List String :=
  (macroCalls CPPINTEROP_API_FUNC lines).filterMap fun call => call.head?.map String.ofList

section Entries

variable {Records : List APIFunction}

theorem mapM_funcCall (Records : List APIFunction) :
    (Records.map APIFunction.funcCall).mapM dispatchEntry =
      some (Records.map fun R => (R.DispatchName, R.function)) := by
  induction Records with
  | nil => rfl
  | cons R Records ih =>
      rw [List.map_cons, List.mapM_cons, ih]
      rfl

theorem dispatchSlots_eq
    (read : macroCalls CPPINTEROP_API_FUNC (EmitCppInterOpAPI Records) =
      Records.map APIFunction.funcCall) :
    dispatchSlots (EmitCppInterOpAPI Records) =
      Records.map fun R => String.ofList R.DispatchName := by
  rw [dispatchSlots, read, List.filterMap_map, ← List.filterMap_eq_map]
  rfl

theorem exported_record {address : CppFunction → Address} {name : String}
    (listed : name ∈ Records.map fun R => String.ofList R.DispatchName) :
    ∃ R ∈ Records, String.ofList R.DispatchName = name ∧
      CppGetProcAddress address (Records.map fun R => (R.DispatchName, R.function)) name =
        some (address R.function) := by
  obtain ⟨other, member, rfl⟩ := List.mem_map.mp listed
  obtain ⟨first, alsoMember, same, found⟩ :=
    lookup_first APIFunction.DispatchName APIFunction.function member
  refine ⟨first, alsoMember, congrArg String.ofList same, ?_⟩
  rw [CppGetProcAddress, String.toList_ofList, found, Option.map_some]

end Entries

section Load

variable {Records : List APIFunction} {api : DispatchAPI} {dlopen : String → Option SharedLibrary}
variable {getenv : Option String} {address : CppFunction → Address}

/-- A client and a library that include the same file: the load succeeds, and each slot holds the
function of its own record exactly when records with one dispatch name are of one function. -/
theorem dispatch_slots_iff (written : ∀ R ∈ Records, R.Written)
    (single : ∀ R ∈ Records, separators {} R.ReturnType = 0)
    (slots : api.names = dispatchSlots (EmitCppInterOpAPI Records)) {path : String}
    (library : dlopen path =
      some ⟨(DispatchMap (EmitCppInterOpAPI Records)).map (CppGetProcAddress address)⟩)
    {table : DispatchTable} (unloaded : table.statics = {}) :
    (LoadDispatchAPI dlopen api getenv table (some path)).2.isOk = true ∧
      ((∀ R ∈ Records, (LoadDispatchAPI dlopen api getenv table (some path)).1.slots
          (String.ofList R.DispatchName) = some (address R.function)) ↔
        ∀ R ∈ Records, ∀ other ∈ Records, other.DispatchName = R.DispatchName →
          address other.function = address R.function) := by
  have read := macroCalls_of_single written single
  rw [dispatchSlots_eq read] at slots
  rw [DispatchMap, read, mapM_funcCall, Option.map_some] at library
  have settled : table.statics.Settled := by
    rw [unloaded]
    rfl
  have used : usedLibrary dlopen getenv table.statics.getProc (some path) = some
      (CppGetProcAddress address (Records.map fun R => (R.DispatchName, R.function))) := by
    rw [unloaded, usedLibrary, Option.none_or, Option.some_or, Option.bind_some, exportsOf, library]
    rfl
  obtain ⟨_, outcome⟩ : _ ∧ _ := @LoadDispatchAPI_cases api dlopen getenv table settled (some path)
  rw [used] at outcome
  have exports : ∀ name ∈ api.names, ∃ R ∈ Records, String.ofList R.DispatchName = name ∧
      exported (some (CppGetProcAddress address
        (Records.map fun R => (R.DispatchName, R.function)))) name = some (address R.function) := by
    intro name listed
    rw [slots] at listed
    exact exported_record listed
  obtain ⟨_, _, _, getInterpreter⟩ := exports _ api.getInterpreter
  obtain ⟨_, _, _, createInterpreter⟩ := exports _ api.createInterpreter
  rcases outcome with ⟨_, refused, _⟩ | ⟨_, filled, isOk⟩
  · rw [getInterpreter] at refused
    cases refused
  · refine ⟨isOk.mpr ⟨by rw [getInterpreter]; rfl, by rw [createInterpreter]; rfl⟩, ?_⟩
    rw [filled]
    constructor
    · intro right R member other alsoMember same
      have mine := right R member
      rw [← same, right other alsoMember] at mine
      exact Option.some.inj mine
    · intro agree R member
      have listed : String.ofList R.DispatchName ∈ api.names := by
        rw [slots]
        exact List.mem_map_of_mem member
      obtain ⟨first, alsoMember, same, found⟩ := exports _ listed
      have name : first.DispatchName = R.DispatchName := by
        have texts := congrArg String.toList same
        rwa [String.toList_ofList, String.toList_ofList] at texts
      refine (if_pos listed).trans ?_
      rw [found, agree R member first alsoMember name]

def overloadAPI : DispatchAPI where
  names := dispatchSlots (EmitCppInterOpAPI overloadRecords)
  getInterpreter := by
    rw [dispatchSlots_eq (macroCalls_of_single overloadRecords_written (by decide))]
    decide
  createInterpreter := by
    rw [dispatchSlots_eq (macroCalls_of_single overloadRecords_written (by decide))]
    decide

def overloadLibrary (_ : String) : Option SharedLibrary :=
  some ⟨(DispatchMap (EmitCppInterOpAPI overloadRecords)).map
    (CppGetProcAddress fun F => F.RawTypes.length)⟩

/-- The overloads share a name in the library, but not in the table. -/
theorem dispatch_slots_overloads :
    (LoadDispatchAPI overloadLibrary overloadAPI none {} (some "libclangCppInterOp.so")).1.slots
      (String.ofList GetFunctionAddress_fn.DispatchName) =
        some GetFunctionAddress_fn.RawArgTypes.length := by
  have slots := (@dispatch_slots_iff _ overloadAPI overloadLibrary none
    (fun F => F.RawTypes.length) overloadRecords_written (by decide) rfl "libclangCppInterOp.so" rfl
    {} rfl).2.mpr (by decide)
  exact slots GetFunctionAddress_fn (by decide)

end Load

end CppInterOp
