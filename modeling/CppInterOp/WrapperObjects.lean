import Mathlib.Logic.Function.Basic
import CppInterOp.WrapperArity

/-!
Objects that are constructed and destroyed through wrappers: the elements and the storage of each
pair of calls.
-/

namespace CppInterOp

inductive StorageForm
  | scalar
  | array
  deriving DecidableEq, Repr

inductive ObjectEvent
  | allocated (base : Nat) (form : StorageForm)
  | constructed (base index : Nat)
  | destroyed (base index : Nat)
  | released (base : Nat) (form : StorageForm)
  deriving DecidableEq, Repr

structure StorageBlock where
  form : StorageForm
  count : Nat
  deriving DecidableEq, Repr

structure ObjectStore where
  blocks : Nat → Option StorageBlock
  log : List ObjectEvent

namespace ObjectStore

variable (store : ObjectStore)

def allocate (base : Nat) (block : StorageBlock) : ObjectStore :=
  { blocks := Function.update store.blocks base (some block)
    log := store.log ++ [.allocated base block.form] }

def constructAll (base count : Nat) : ObjectStore :=
  { store with log := store.log ++ (List.range count).map (.constructed base) }

def destroyDown (store : ObjectStore) (base : Nat) : Nat → ObjectStore
  | 0 => store
  | index + 1 =>
      destroyDown { store with log := store.log ++ [.destroyed base index] } base index

/-- A delete-expression of another form than the storage has is undefined behaviour, and so is one
of no storage. -/
def delete (form : StorageForm) (base : Nat) : Option ObjectStore :=
  match store.blocks base with
  | none => none
  | some block =>
      if block.form = form then
        some { blocks := Function.update store.blocks base none
               log := (store.destroyDown base block.count).log ++ [.released base form] }
      else none

end ObjectStore

/-- What `Construct` is given: a class with the default constructor that is looked up in it, a
function, or something else. -/
inductive ConstructScope
  | record (defaultConstructor : Option FunctionDecl)
  | function (FD : FunctionDecl)
  | other

def ConstructScope.constructor : ConstructScope → Option FunctionDecl
  | record defaultConstructor => defaultConstructor
  | function FD => if FD.isConstructor then some FD else none
  | other => none

/-- A new-expression leaves its pointer in `*ret`, which holds the arena if there is one. Other
storage is had at `fresh`. -/
def WrapperAction.execute (fresh nary : Nat) (state : Option Nat × ObjectStore) :
    WrapperAction → Option Nat × ObjectStore
  | .call _ _ => state
  | .new placement array _ =>
      let count := if array then nary else 1
      if placement then
        (state.1, match state.1 with
          | none => state.2
          | some arena => state.2.constructAll arena count)
      else
        let block : StorageBlock := ⟨if array then .array else .scalar, count⟩
        (some fresh, (state.2.allocate fresh block).constructAll fresh count)

def Construct (scope : ConstructScope) (arena : Option Nat) (count fresh : Nat)
    (store : ObjectStore) : Option Nat × ObjectStore :=
  match scope.constructor with
  | none => (none, store)
  | some ctor =>
      (ctor.runWrapper ⟨0, count, true, arena.isSome⟩).foldl
        (WrapperAction.execute fresh count) (arena, store)

/-- The wrapper of `make_dtor_wrapper`. Its loop runs as long as the index is not zero. -/
def dtorWrapper (obj nary : Nat) (withFree : Bool) (store : ObjectStore) : Option ObjectStore :=
  if withFree then
    if nary = 0 then store.delete .scalar obj else store.delete .array obj
  else if nary = 0 then
    some { store with log := store.log ++ [.destroyed obj 0] }
  else some (store.destroyDown obj nary)

def Destruct (This : Nat) (withFree : Bool) (count : Nat) (store : ObjectStore) :
    Option ObjectStore :=
  dtorWrapper This count withFree store

section Events

def constructions (events : List ObjectEvent) : List (Nat × Nat) :=
  events.filterMap fun
    | .constructed base index => some (base, index)
    | _ => none

def destructions (events : List ObjectEvent) : List (Nat × Nat) :=
  events.filterMap fun
    | .destroyed base index => some (base, index)
    | _ => none

def allocations (events : List ObjectEvent) : List (Nat × StorageForm) :=
  events.filterMap fun
    | .allocated base form => some (base, form)
    | _ => none

def releases (events : List ObjectEvent) : List (Nat × StorageForm) :=
  events.filterMap fun
    | .released base form => some (base, form)
    | _ => none

/-- The elements at `base`, and no others, are constructed once and destroyed once. -/
structure OnceEach (events : List ObjectEvent) (base n : Nat) : Prop where
  constructs : (constructions events).Perm ((List.range n).map (Prod.mk base))
  destroys : (destructions events).Perm ((List.range n).map (Prod.mk base))

/-- `n` objects at `base` that are constructed, and destroyed the other way round. -/
def lifetimes (base n : Nat) : List ObjectEvent :=
  (List.range n).map (.constructed base) ++ (List.range n).reverse.map (.destroyed base)

theorem onceEach_lifetimes (base n : Nat) : OnceEach (lifetimes base n) base n := by
  constructor
  · simp [constructions, lifetimes, List.filterMap_map]
  · have destroyed : destructions (lifetimes base n) =
        (List.range n).reverse.map (Prod.mk base) := by
      simp [destructions, lifetimes, List.filterMap_map]
    rw [destroyed]
    exact (List.reverse_perm _).map _

theorem storage_lifetimes (base n : Nat) :
    allocations (lifetimes base n) = [] ∧ releases (lifetimes base n) = [] := by
  constructor
  · simp [allocations, lifetimes, List.filterMap_map]
  · simp [releases, lifetimes, List.filterMap_map]

def stored (base n : Nat) (form : StorageForm) : List ObjectEvent :=
  .allocated base form :: lifetimes base n ++ [.released base form]

theorem onceEach_stored (base n : Nat) (form : StorageForm) :
    OnceEach (stored base n form) base n := by
  have constructed : constructions (stored base n form) = constructions (lifetimes base n) := by
    simp [stored, constructions]
  have destroyed : destructions (stored base n form) = destructions (lifetimes base n) := by
    simp [stored, destructions]
  obtain ⟨constructs, destroys⟩ := onceEach_lifetimes base n
  exact ⟨constructed ▸ constructs, destroyed ▸ destroys⟩

theorem storage_stored (base n : Nat) (form : StorageForm) :
    allocations (stored base n form) = [(base, form)] ∧
      releases (stored base n form) = [(base, form)] := by
  obtain ⟨none_allocated, none_released⟩ := storage_lifetimes base n
  constructor
  · have inner : allocations (stored base n form) =
        (base, form) :: allocations (lifetimes base n) := by
      simp [stored, allocations]
    rw [inner, none_allocated]
  · have inner : releases (stored base n form) =
        releases (lifetimes base n) ++ [(base, form)] := by
      simp [stored, releases]
    rw [inner, none_released]
    rfl

end Events

section Calls

variable {FD : FunctionDecl} {store : ObjectStore} {base fresh : Nat}

theorem destroyDown_log (count : Nat) :
    (store.destroyDown base count).log =
      store.log ++ (List.range count).reverse.map (.destroyed base) := by
  induction count generalizing store with
  | zero => exact (List.append_nil _).symm
  | succ index ih =>
      rw [ObjectStore.destroyDown, ih, List.range_succ, List.reverse_append, List.append_assoc]
      rfl

/-- A default constructor that is passed nothing constructs one object, or an array of more. -/
theorem runWrapper_default (default : FD.isDefaultConstructor = true) (nary : Nat)
    (ret is_arena : Bool) :
    FD.runWrapper ⟨0, nary, ret, is_arena⟩ = [.new is_arena (decide (1 < nary)) []] := by
  have constructs : FD.isConstructor = true ∧ FD.getMinRequiredArguments = 0 := by
    simpa [FunctionDecl.isDefaultConstructor] using default
  have min_args : FD.getMinRequiredExplicitArguments = 0 := by
    rw [FunctionDecl.getMinRequiredExplicitArguments, constructs.2, Nat.zero_sub]
  have clause : FD.runWrapper ⟨0, nary, ret, is_arena⟩ =
      (FD.make_narg_call_with_return 0).performed (WrapperInput.holds ⟨0, nary, ret, is_arena⟩) := by
    rw [FunctionDecl.runWrapper_eq, min_args]
    split
    · next only => rw [← only]
    · rw [if_pos ⟨Nat.le_refl _, Nat.zero_le _⟩]
  rw [clause, FunctionDecl.make_narg_call_with_return, if_pos constructs.1,
    FunctionDecl.performed_ctor, FunctionDecl.constructsArray, default, Bool.true_and]
  rfl

def constructForm (count : Nat) : StorageForm := if 1 < count then .array else .scalar

theorem constructed_count {n : Nat} (positive : 1 ≤ n) : (if 1 < n then n else 1) = n := by
  split
  · rfl
  · next single => exact Nat.le_antisymm positive (Nat.le_of_not_lt single)

theorem construct_heap (default : FD.isDefaultConstructor = true) {n : Nat} (positive : 1 ≤ n) :
    Construct (.record (some FD)) none n fresh store =
      (some fresh, (store.allocate fresh ⟨constructForm n, n⟩).constructAll fresh n) := by
  simp only [Construct, ConstructScope.constructor, runWrapper_default default, Option.isSome_none,
    List.foldl_cons, List.foldl_nil, WrapperAction.execute, decide_eq_true_iff,
    constructed_count positive, constructForm, Bool.false_eq_true, if_false]

theorem construct_arena (default : FD.isDefaultConstructor = true) {n : Nat} (positive : 1 ≤ n)
    (arena : Nat) :
    Construct (.record (some FD)) (some arena) n fresh store =
      (some arena, store.constructAll arena n) := by
  simp only [Construct, ConstructScope.constructor, runWrapper_default default, Option.isSome_some,
    List.foldl_cons, List.foldl_nil, WrapperAction.execute, decide_eq_true_iff,
    constructed_count positive, if_true]

theorem destroyDown_blocks (count : Nat) :
    (store.destroyDown base count).blocks = store.blocks := by
  induction count generalizing store with
  | zero => rfl
  | succ index ih => exact ih

theorem destruct_free {n : Nat} (positive : 1 ≤ n) :
    Destruct base true n store = store.delete .array base := by
  rw [Destruct, dtorWrapper, if_pos rfl, if_neg (Nat.ne_of_gt positive)]

theorem destruct_keep {n : Nat} (positive : 1 ≤ n) :
    Destruct base false n store = some (store.destroyDown base n) := by
  rw [Destruct, dtorWrapper, if_neg Bool.false_ne_true, if_neg (Nat.ne_of_gt positive)]

/-- What `delete[]` makes of the objects that `Construct` has put on the heap. -/
theorem delete_constructed (n : Nat) :
    ((store.allocate fresh ⟨constructForm n, n⟩).constructAll fresh n).delete .array fresh =
      if constructForm n = .array then
        some { blocks := Function.update (Function.update store.blocks fresh
                 (some ⟨constructForm n, n⟩)) fresh none
               log := store.log ++ stored fresh n (constructForm n) }
      else none := by
  have block : ((store.allocate fresh ⟨constructForm n, n⟩).constructAll fresh n).blocks fresh =
      some ⟨constructForm n, n⟩ := Function.update_self _ _ _
  rw [ObjectStore.delete, block]
  dsimp only
  split
  · next form =>
      rw [destroyDown_log, form]
      simp [ObjectStore.constructAll, ObjectStore.allocate, stored, lifetimes]
  · rfl

/-- The pair of calls on the heap: every object is constructed and destroyed once, and the storage
is released in the form in which it was allocated. -/
def HeapPair (FD : FunctionDecl) (n fresh : Nat) (store : ObjectStore) : Prop :=
  ∃ This constructed destroyed events,
    Construct (.record (some FD)) none n fresh store = (some This, constructed) ∧
      Destruct This true n constructed = some destroyed ∧
      destroyed.log = store.log ++ events ∧ OnceEach events This n ∧
      ∃ form, allocations events = [(This, form)] ∧ releases events = [(This, form)]

/-- The pair of calls in an arena: every object is constructed and destroyed once, and nothing is
allocated or released. -/
def ArenaPair (FD : FunctionDecl) (n fresh arena : Nat) (store : ObjectStore) : Prop :=
  ∃ constructed destroyed events,
    Construct (.record (some FD)) (some arena) n fresh store = (some arena, constructed) ∧
      Destruct arena false n constructed = some destroyed ∧
      destroyed.log = store.log ++ events ∧ OnceEach events arena n ∧
      allocations events = [] ∧ releases events = [] ∧ destroyed.blocks = store.blocks

theorem arenaPair (default : FD.isDefaultConstructor = true) {n : Nat} (positive : 1 ≤ n)
    (arena : Nat) : ArenaPair FD n fresh arena store := by
  refine ⟨_, _, lifetimes arena n, construct_arena default positive arena, destruct_keep positive,
    ?_, onceEach_lifetimes arena n, (storage_lifetimes arena n).1, (storage_lifetimes arena n).2,
    destroyDown_blocks n⟩
  rw [destroyDown_log, ObjectStore.constructAll, lifetimes, List.append_assoc]

theorem heapPair_iff (default : FD.isDefaultConstructor = true) {n : Nat} (positive : 1 ≤ n) :
    HeapPair FD n fresh store ↔ n ≠ 1 := by
  have array : constructForm n = .array ↔ n ≠ 1 := by
    rw [constructForm]
    split
    · next several => simpa using Nat.ne_of_gt several
    · next single => simpa using Nat.le_antisymm (Nat.le_of_not_lt single) positive
  rw [← array]
  constructor
  · rintro ⟨This, constructed, destroyed, events, construct, destruct, _⟩
    rw [construct_heap default positive] at construct
    cases construct
    rw [destruct_free positive, delete_constructed] at destruct
    by_contra scalar
    rw [if_neg scalar] at destruct
    cases destruct
  · intro form
    have deleted : Destruct fresh true n
        ((store.allocate fresh ⟨constructForm n, n⟩).constructAll fresh n) = some _ :=
      (destruct_free positive).trans ((delete_constructed n).trans (if_pos form))
    exact ⟨fresh, _, _, stored fresh n (constructForm n), construct_heap default positive, deleted,
      rfl, onceEach_stored fresh n _, _, storage_stored fresh n _⟩

/-- In an arena `Construct` and `Destruct` always pair up, and on the heap they do exactly when
there is more than one object. -/
theorem construct_destruct_iff (default : FD.isDefaultConstructor = true) (n : Nat)
    (positive : 1 ≤ n) (fresh arena : Nat) (store : ObjectStore) :
    (HeapPair FD n fresh store ∧ ArenaPair FD n fresh arena store ↔ n ≠ 1) ∧
      ArenaPair FD n fresh arena store := by
  have inside := @arenaPair FD store fresh default n positive arena
  refine ⟨?_, inside⟩
  rw [← @heapPair_iff FD store fresh default n positive]
  exact and_iff_left inside

theorem construct_destruct_two :
    (HeapPair JitCall.defaultedConstructor 2 64 ⟨fun _ => none, []⟩ ∧
        ArenaPair JitCall.defaultedConstructor 2 64 128 ⟨fun _ => none, []⟩ ↔ 2 ≠ 1) ∧
      ArenaPair JitCall.defaultedConstructor 2 64 128 ⟨fun _ => none, []⟩ :=
  construct_destruct_iff (by decide) 2 (by decide) 64 128 ⟨fun _ => none, []⟩

/-- A single object is had from `new`, and is given to `delete[]`. -/
theorem single_object_unpaired :
    Construct (.record (some JitCall.defaultedConstructor)) none 1 64 ⟨fun _ => none, []⟩ =
        (some 64, ⟨Function.update (fun _ => none) 64 (some ⟨.scalar, 1⟩),
          [.allocated 64 .scalar, .constructed 64 0]⟩) ∧
      Destruct 64 true 1 ⟨Function.update (fun _ => none) 64 (some ⟨.scalar, 1⟩),
          [.allocated 64 .scalar, .constructed 64 0]⟩ = none ∧
      ¬HeapPair JitCall.defaultedConstructor 1 64 ⟨fun _ => none, []⟩ := by
  refine ⟨?_, rfl, ?_⟩
  · exact construct_heap (by decide) (Nat.le_refl 1)
  · rw [heapPair_iff (by decide) (Nat.le_refl 1)]
    exact fun different => different rfl

end Calls

end CppInterOp
