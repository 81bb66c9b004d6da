import CppInterOp.Basic

/-!
The dispatch table of `Dispatch.h`: the cached lookup function of the library that was
opened last, and loading and unloading the slots through it.
-/

namespace CppInterOp

abbrev ProcAddress := String → Option Address

structure SharedLibrary where
  CppGetProcAddress : Option ProcAddress

/-- The functions of `CppInterOpAPI.inc`; `LoadDispatchAPI` names two of them. -/
structure DispatchAPI where
  names : List String
  getInterpreter : "GetInterpreter" ∈ names
  createInterpreter : "CreateInterpreter" ∈ names

/-- The static variables of `dlGetProcAddress`; `init` is set once the flag was used. -/
structure ProcStatics where
  init : Bool := false
  getProc : Option ProcAddress := none

section

variable (dlopen : String → Option SharedLibrary)

/-- The body of `call_once`. A library without the symbol is closed again. -/
def openLibrary (getenv : Option String) (statics : ProcStatics)
    (customLibPath : Option String) : ProcStatics :=
  match customLibPath.or getenv with
  | none => statics
  | some path =>
      match dlopen path with
      | some handle => { statics with getProc := handle.CppGetProcAddress }
      | none => statics

def dlGetProcAddress (getenv : Option String) (statics : ProcStatics) (name : Option String)
    (customLibPath : Option String) : ProcStatics × Option Address :=
  match name with
  | none => ({ init := false, getProc := none }, none)
  | some name =>
      let statics :=
        if statics.init then statics
        else { openLibrary dlopen getenv statics customLibPath with init := true }
      match statics.getProc with
      | none => ({ init := false, getProc := none }, none)
      | some getProc => (statics, getProc name)

/-- The variables of `DispatchRaw`, by name, and what `dlGetProcAddress` keeps. -/
structure DispatchTable where
  statics : ProcStatics := {}
  slots : ProcAddress := fun _ => none

def DispatchTable.set (table : DispatchTable) (name : String) (proc : Option Address) :
    DispatchTable :=
  { table with slots := fun other => if other = name then proc else table.slots other }

def assignSlots (getenv : Option String) (table : DispatchTable) : List String → DispatchTable
  | [] => table
  | name :: names =>
      let found := dlGetProcAddress dlopen getenv table.statics (some name) none
      assignSlots getenv ({ table with statics := found.1 }.set name found.2) names

variable (api : DispatchAPI)

/-- The slots are all assigned before the critical ones are looked at. The error is the line
printed before `false` is returned. -/
def loadSlots (getenv : Option String) (table : DispatchTable) :
    DispatchTable × Except String Unit :=
  let table := assignSlots dlopen getenv table api.names
  if (table.slots "GetInterpreter").isNone || (table.slots "CreateInterpreter").isNone then
    (table, .error "[CppInterOp Dispatch] Failed to load critical functions")
  else (table, .ok ())

def LoadDispatchAPI (getenv : Option String) (table : DispatchTable)
    (customLibPath : Option String) : DispatchTable × Except String Unit :=
  match customLibPath with
  | none => loadSlots dlopen api getenv table
  | some path =>
      let test := dlGetProcAddress dlopen getenv table.statics (some "GetInterpreter") (some path)
      let table := { table with statics := test.1 }
      if test.2.isNone then
        (table, .error ("[CppInterOp Dispatch] Failed to load API from: " ++ path))
      else loadSlots dlopen api getenv table

def clearSlots (table : DispatchTable) : List String → DispatchTable
  | [] => table
  | name :: names => clearSlots (table.set name none) names

def UnloadDispatchAPI (getenv : Option String) (table : DispatchTable) : DispatchTable :=
  let table := clearSlots table api.names
  { table with statics := (dlGetProcAddress dlopen getenv table.statics none none).1 }

def exportsOf (path : String) : Option ProcAddress :=
  (dlopen path).bind SharedLibrary.CppGetProcAddress

end

namespace ProcStatics

/-- Between calls the flag is used exactly when a library is cached. -/
def Settled (statics : ProcStatics) : Prop := statics.init = statics.getProc.isSome

def cache (getProc : Option ProcAddress) : ProcStatics :=
  { init := getProc.isSome, getProc := getProc }

theorem Settled.eq_cache {statics : ProcStatics} (settled : statics.Settled) :
    statics = cache statics.getProc := by
  obtain ⟨init, getProc⟩ := statics
  rw [show init = getProc.isSome from settled]
  rfl

end ProcStatics

open ProcStatics

section

variable {dlopen : String → Option SharedLibrary} {getenv : Option String}

def usedLibrary (dlopen : String → Option SharedLibrary) (getenv : Option String)
    (cached : Option ProcAddress) (customLibPath : Option String) : Option ProcAddress :=
  cached.or ((customLibPath.or getenv).bind (exportsOf dlopen))

theorem usedLibrary_cached (getProc : ProcAddress) (customLibPath : Option String) :
    usedLibrary dlopen getenv (some getProc) customLibPath = some getProc := rfl

theorem usedLibrary_again (cached : Option ProcAddress) :
    usedLibrary dlopen getenv (usedLibrary dlopen getenv cached none) none =
      usedLibrary dlopen getenv cached none := by
  unfold usedLibrary
  cases cached with
  | some getProc => rfl
  | none => cases (Option.or none getenv).bind (exportsOf dlopen) <;> rfl

theorem openLibrary_getProc (customLibPath : Option String) :
    (openLibrary dlopen getenv (cache none) customLibPath).getProc =
      usedLibrary dlopen getenv none customLibPath := by
  unfold openLibrary usedLibrary exportsOf
  cases customLibPath.or getenv with
  | none => rfl
  | some path =>
      cases found : dlopen path with
      | none =>
          simp only [Option.bind_some, found, Option.bind_none, Option.or_none]
          rfl
      | some handle =>
          simp only [Option.bind_some, found, Option.none_or]

theorem dlGetProcAddress_eq (cached : Option ProcAddress) (name : String)
    (customLibPath : Option String) :
    dlGetProcAddress dlopen getenv (cache cached) (some name) customLibPath =
      (cache (usedLibrary dlopen getenv cached customLibPath),
        (usedLibrary dlopen getenv cached customLibPath).bind fun getProc => getProc name) := by
  cases cached with
  | some getProc => rfl
  | none =>
      have found : (openLibrary dlopen getenv (cache none) customLibPath).getProc = _ :=
        openLibrary_getProc customLibPath
      have unused : (cache none).init = false := rfl
      simp only [dlGetProcAddress, unused, Bool.false_eq_true, if_false, found]
      cases usedLibrary dlopen getenv none customLibPath with
      | none => rfl
      | some getProc => rfl

theorem assignSlots_eq (table : DispatchTable) (cached : Option ProcAddress)
    (settled : table.statics = cache cached) (names : List String) :
    (assignSlots dlopen getenv table names).slots =
        (fun name => if name ∈ names then
          (usedLibrary dlopen getenv cached none).bind fun getProc => getProc name
          else table.slots name) ∧
      (assignSlots dlopen getenv table names).statics =
        cache (if names = [] then cached else usedLibrary dlopen getenv cached none) := by
  induction names generalizing table cached with
  | nil => exact ⟨by simp [assignSlots], settled⟩
  | cons first names ih =>
      simp only [assignSlots, settled, dlGetProcAddress_eq]
      obtain ⟨slots, statics⟩ := ih (({ table with
        statics := cache (usedLibrary dlopen getenv cached none) } : DispatchTable).set first
          ((usedLibrary dlopen getenv cached none).bind fun getProc => getProc first))
        (usedLibrary dlopen getenv cached none) rfl
      rw [usedLibrary_again] at slots statics
      refine ⟨?_, ?_⟩
      · rw [slots]
        funext name
        by_cases later : name ∈ names
        · rw [if_pos later, if_pos (List.mem_cons_of_mem _ later)]
        · rw [if_neg later]
          by_cases here : name = first
          · subst here
            simp only [DispatchTable.set, if_true, List.mem_cons, true_or]
          · simp only [DispatchTable.set, List.mem_cons, here, later, or_false, if_false]
      · rw [statics, ite_self, if_neg (List.cons_ne_nil first names)]

theorem clearSlots_eq (table : DispatchTable) (names : List String) :
    clearSlots table names =
      { table with slots := fun name => if name ∈ names then none else table.slots name } := by
  induction names generalizing table with
  | nil => simp [clearSlots]
  | cons first names ih =>
      rw [clearSlots, ih]
      simp only [DispatchTable.set, DispatchTable.mk.injEq, true_and]
      funext name
      by_cases later : name ∈ names
      · rw [if_pos later, if_pos (List.mem_cons_of_mem _ later)]
      · rw [if_neg later]
        by_cases here : name = first <;> simp [here, later]

end

end CppInterOp
