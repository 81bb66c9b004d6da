import CppInterOp.RegistryCore
import Mathlib.Data.List.Nodup

/-! What `std::rotate` and `deque::erase` do to the elements: the members named by the
moves travel with the interpreter, the caches stay at their address. -/

namespace CppInterOp

/-- The members that both moves of `InterpreterInfo` hand over. -/
structure Tenant where
  interpreter : Option Address
  isOwned : Bool
  argvStorage : List String
  odrUseCounter : UInt32
  deriving DecidableEq, Repr

/-- The members that neither move mentions. -/
structure Caches where
  builtinMap : List (String × Address) := []
  wrapperStore : List (Address × Address) := []
  dtorWrapperStore : List (Address × Address) := []
  constArrayValueStore : List (Address × Int) := []
  storedDiags : List StoredDiagView := []
  deriving DecidableEq, Repr

namespace InterpreterInfo

def tenant (info : InterpreterInfo) : Tenant :=
  ⟨info.interpreter, info.isOwned, info.argvStorage, info.odrUseCounter⟩

def caches (info : InterpreterInfo) : Caches :=
  ⟨info.builtinMap, info.wrapperStore, info.dtorWrapperStore, info.constArrayValueStore,
    info.storedDiags⟩

@[simp] theorem construct_tenant (interp : Address) (owned : Bool) (argv : List String) :
    (construct interp owned argv).tenant = ⟨some interp, owned, argv, 0⟩ := rfl

@[simp] theorem construct_caches (interp : Address) (owned : Bool) (argv : List String) :
    (construct interp owned argv).caches = {} := rfl

@[simp] theorem movedFrom_deletes (other : InterpreterInfo) : other.movedFrom.deletes = [] := rfl

@[simp] theorem moveAssign_target_tenant (this other : InterpreterInfo) :
    (this.moveAssign other).target.tenant = other.tenant := rfl

@[simp] theorem moveAssign_target_caches (this other : InterpreterInfo) :
    (this.moveAssign other).target.caches = this.caches := rfl

@[simp] theorem moveAssign_source_caches (this other : InterpreterInfo) :
    (this.moveAssign other).source.caches = other.caches := rfl

@[simp] theorem swap_target_tenant (left right : InterpreterInfo) :
    (left.swap right).target.tenant = right.tenant := rfl

@[simp] theorem swap_source_tenant (left right : InterpreterInfo) :
    (left.swap right).source.tenant = left.tenant := rfl

@[simp] theorem swap_target_caches (left right : InterpreterInfo) :
    (left.swap right).target.caches = left.caches := rfl

@[simp] theorem swap_source_caches (left right : InterpreterInfo) :
    (left.swap right).source.caches = right.caches := rfl

@[simp] theorem swap_effects (left right : InterpreterInfo) : (left.swap right).effects = [] := rfl

theorem deletes_eq (info : InterpreterInfo) :
    info.deletes = if info.tenant.isOwned then info.tenant.interpreter.toList else [] := rfl

end InterpreterInfo

namespace Slot

def tenant (slot : Slot) : Tenant := slot.info.tenant

def place (slot : Slot) : Address × Caches := (slot.address, slot.info.caches)

@[simp] theorem tenant_interpreter (slot : Slot) :
    slot.tenant.interpreter = slot.info.interpreter := rfl

end Slot

theorem rotate_tenants (found : Slot) (after : List Slot) :
    (rotate found after).1.map Slot.tenant = after.map Slot.tenant ++ [found.tenant] := by
  have target : ∀ left right : Slot,
      (Slot.inPlace InterpreterInfo.swap left right).target.tenant = right.tenant :=
    fun left right => InterpreterInfo.swap_target_tenant left.info right.info
  have source : ∀ left right : Slot,
      (Slot.inPlace InterpreterInfo.swap left right).source.tenant = left.tenant :=
    fun left right => InterpreterInfo.swap_source_tenant left.info right.info
  exact Cascade.cascade_exchanged Slot.tenant target source found after

theorem rotate_places (found : Slot) (after : List Slot) :
    (rotate found after).1.map Slot.place = (found :: after).map Slot.place := by
  have target : ∀ left right : Slot,
      (Slot.inPlace InterpreterInfo.swap left right).target.place = left.place :=
    fun left right => Prod.ext rfl (InterpreterInfo.swap_target_caches left.info right.info)
  have source : ∀ left right : Slot,
      (Slot.inPlace InterpreterInfo.swap left right).source.place = right.place :=
    fun left right => Prod.ext rfl (InterpreterInfo.swap_source_caches left.info right.info)
  exact Cascade.cascade_kept Slot.place target source found after

theorem rotate_deletes (found : Slot) (after : List Slot) : (rotate found after).2 = [] := by
  have quiet : ∀ left right : Slot,
      (Slot.inPlace InterpreterInfo.swap left right).effects = [] :=
    fun left right => InterpreterInfo.swap_effects left.info right.info
  exact Cascade.cascade_quiet quiet found after

theorem erase_tenants (erasesFront : Nat → Nat → Bool) (before : List Slot) (found : Slot)
    (after : List Slot) :
    (erase erasesFront before found after).1.map Slot.tenant =
      before.map Slot.tenant ++ after.map Slot.tenant := by
  have carried : ∀ left right : Slot,
      (Slot.inPlace InterpreterInfo.moveAssign left right).target.tenant = right.tenant :=
    fun left right => InterpreterInfo.moveAssign_target_tenant left.info right.info
  unfold erase
  split
  · simp only [List.map_append, List.map_reverse]
    rw [Cascade.closeGap_carried Slot.tenant carried]
    simp
  · simp only [List.map_append]
    rw [Cascade.closeGap_carried Slot.tenant carried]

theorem erase_places (erasesFront : Nat → Nat → Bool) (before : List Slot) (found : Slot)
    (after : List Slot) :
    (erase erasesFront before found after).1.map Slot.place =
      if erasesFront before.length (before.length + 1 + after.length) then
        ((before ++ found :: after).map Slot.place).tail
      else ((before ++ found :: after).map Slot.place).dropLast := by
  have target : ∀ left right : Slot,
      (Slot.inPlace InterpreterInfo.moveAssign left right).target.place = left.place :=
    fun left right =>
      Prod.ext rfl (InterpreterInfo.moveAssign_target_caches left.info right.info)
  have source : ∀ left right : Slot,
      (Slot.inPlace InterpreterInfo.moveAssign left right).source.place = right.place :=
    fun left right =>
      Prod.ext rfl (InterpreterInfo.moveAssign_source_caches left.info right.info)
  unfold erase
  split
  · simp only [List.map_append, List.map_reverse]
    rw [Cascade.closeGap_kept Slot.place target source]
    cases before with
    | nil => simp
    | cons first rest =>
        simp only [List.map_cons, List.reverse_cons, List.map_append, List.map_reverse,
          List.map_nil]
        rw [← List.cons_append, List.dropLast_concat]
        simp
  · simp only [List.map_append]
    rw [Cascade.closeGap_kept Slot.place target source]
    rw [List.dropLast_append_of_ne_nil (by simp)]

theorem erase_deletes (erasesFront : Nat → Nat → Bool) (before : List Slot) (found : Slot)
    (after : List Slot) : (erase erasesFront before found after).2 = found.deletes := by
  have released : ∀ left right : Slot,
      (Slot.inPlace InterpreterInfo.moveAssign left right).effects = left.deletes :=
    fun _ _ => rfl
  have empty : ∀ left right : Slot,
      (Slot.inPlace InterpreterInfo.moveAssign left right).source.deletes = [] :=
    fun _ right => InterpreterInfo.movedFrom_deletes right.info
  unfold erase
  split
  · exact Cascade.closeGap_effects released empty found before.reverse
  · exact Cascade.closeGap_effects released empty found after

theorem findInterp_some {interp : Address} {slots before after : List Slot} {found : Slot}
    (result : findInterp interp slots = some (before, found, after)) :
    slots = before ++ found :: after ∧ found.info.interpreter = some interp ∧
      ∀ slot ∈ before, slot.info.interpreter ≠ some interp := by
  induction slots generalizing before with
  | nil => simp [findInterp] at result
  | cons slot rest ih =>
      simp only [findInterp] at result
      split at result
      · rename_i same
        simp only [Option.some.injEq, Prod.mk.injEq] at result
        obtain ⟨rfl, rfl, rfl⟩ := result
        exact ⟨rfl, same, by simp⟩
      · rename_i different
        cases tail : findInterp interp rest with
        | none => simp [tail] at result
        | some parts =>
            obtain ⟨tailBefore, tailFound, tailAfter⟩ := parts
            simp only [tail, Option.map_some, Option.some.injEq, Prod.mk.injEq] at result
            obtain ⟨rfl, rfl, rfl⟩ := result
            obtain ⟨split, same, earlier⟩ := ih tail
            refine ⟨by rw [split, List.cons_append], same, ?_⟩
            intro other member
            rcases List.mem_cons.mp member with first | later
            · subst other
              exact different
            · exact earlier other later

theorem findInterp_none {interp : Address} {slots : List Slot}
    (result : findInterp interp slots = none) :
    ∀ slot ∈ slots, slot.info.interpreter ≠ some interp := by
  induction slots with
  | nil => simp
  | cons slot rest ih =>
      simp only [findInterp] at result
      split at result
      · simp at result
      · rename_i different
        simp only [Option.map_eq_none_iff] at result
        intro other member
        rcases List.mem_cons.mp member with first | later
        · subst other
          exact different
        · exact ih result other later

namespace Registry

def tenants (registry : Registry) : List Tenant := registry.slots.map Slot.tenant

def places (registry : Registry) : List (Address × Caches) := registry.slots.map Slot.place

def names (registry : Registry) : List Address :=
  registry.tenants.filterMap Tenant.interpreter

theorem mem_names {registry : Registry} {interp : Address} :
    interp ∈ registry.names ↔ ∃ slot ∈ registry.slots, slot.info.interpreter = some interp := by
  simp [names, tenants]

@[simp] theorem destroyEngines_slots (registry : Registry) (deleted : List Address) :
    (registry.destroyEngines deleted).slots = registry.slots := rfl

@[simp] theorem destroyEngines_nil (registry : Registry) : registry.destroyEngines [] = registry := by
  simp [destroyEngines]

structure Unchanged (registry : Registry) (interp : Option Address) (outcome : Outcome) : Prop where
  same : outcome.registry = registry
  success : outcome.success = false
  deleted : outcome.deleted = []
  absent : ∀ wanted, interp = some wanted → wanted ∉ registry.names

theorem Unchanged.findInterp {registry : Registry} {interp : Option Address} {outcome : Outcome}
    (unchanged : Unchanged registry interp outcome) {wanted : Address}
    (asked : interp = some wanted) : findInterp wanted registry.slots = none := by
  cases result : CppInterOp.findInterp wanted registry.slots with
  | none => rfl
  | some parts =>
      obtain ⟨split, named, _⟩ := findInterp_some result
      exact absurd (mem_names.mpr ⟨parts.2.1, by simp [split], named⟩)
        (unchanged.absent wanted asked)

structure Activated (registry : Registry) (wanted : Address) (before : List Slot) (found : Slot)
    (after : List Slot) (outcome : Outcome) : Prop where
  split : registry.slots = before ++ found :: after
  named : found.info.interpreter = some wanted
  success : outcome.success = true
  deleted : outcome.deleted = []
  tenants : outcome.registry.tenants =
    before.map Slot.tenant ++ (after.map Slot.tenant ++ [found.tenant])
  places : outcome.registry.places = registry.places
  consumers : outcome.registry.consumers = registry.consumers

/-- What a successful `DeleteInterpreter` does to the element `found`; `front` says at which
end of the deque an address went away. -/
structure Removed (registry : Registry) (before : List Slot) (found : Slot) (after : List Slot)
    (front : Bool) (outcome : Outcome) : Prop where
  split : registry.slots = before ++ found :: after
  success : outcome.success = true
  deleted : outcome.deleted = found.deletes
  tenants : outcome.registry.tenants = before.map Slot.tenant ++ after.map Slot.tenant
  places : outcome.registry.places =
    if front then registry.places.tail else registry.places.dropLast
  consumers : outcome.registry.consumers =
    (registry.destroyEngines found.deletes).consumers

theorem activateInterpreter_cases (registry : Registry) (interp : Option Address) :
    Unchanged registry interp (registry.activateInterpreter interp) ∨
      ∃ wanted before found after, interp = some wanted ∧
        findInterp wanted registry.slots = some (before, found, after) ∧
        Activated registry wanted before found after (registry.activateInterpreter interp) := by
  cases interp with
  | none => exact Or.inl ⟨rfl, rfl, rfl, by simp⟩
  | some wanted =>
      cases result : findInterp wanted registry.slots with
      | none =>
          left
          refine ⟨?_, ?_, ?_, ?_⟩
          · simp [activateInterpreter, result]
          · simp [activateInterpreter, result]
          · simp [activateInterpreter, result]
          · rintro _ ⟨⟩ member
            obtain ⟨slot, inside, same⟩ := mem_names.mp member
            exact findInterp_none result slot inside same
      | some parts =>
          obtain ⟨before, found, after⟩ := parts
          obtain ⟨split, named, _⟩ := findInterp_some result
          refine Or.inr ⟨wanted, before, found, after, rfl, result, ?_⟩
          by_cases last : after = []
          · subst after
            have computed : registry.activateInterpreter (some wanted) = ⟨registry, true, []⟩ := by
              simp [activateInterpreter, result]
            rw [computed]
            exact ⟨split, named, rfl, rfl, by simp [tenants, split], rfl, rfl⟩
          · have computed : registry.activateInterpreter (some wanted) =
                ⟨{ registry with slots := before ++ (rotate found after).1 }, true, []⟩ := by
              simp [activateInterpreter, result, last, rotate_deletes]
            rw [computed]
            refine ⟨split, named, rfl, rfl, ?_, ?_, rfl⟩
            · simp [tenants, rotate_tenants]
            · simp [places, rotate_places, split]

theorem deleteInterpreter_cases (erasesFront : Nat → Nat → Bool) (registry : Registry)
    (interp : Option Address) :
    (Unchanged registry interp (registry.deleteInterpreter erasesFront interp) ∧
        (interp = none → registry.slots = [])) ∨
      (∃ before found, interp = none ∧ Removed registry before found [] false
        (registry.deleteInterpreter erasesFront interp)) ∨
      ∃ wanted before found after, interp = some wanted ∧
        findInterp wanted registry.slots = some (before, found, after) ∧
        found.info.interpreter = some wanted ∧
        Removed registry before found after (erasesFront before.length registry.slots.length)
          (registry.deleteInterpreter erasesFront interp) := by
  -- the source tests for an empty deque before it looks at the handle
  cases ending : registry.slots.getLast? with
  | none =>
      have empty : registry.slots = [] := by simpa using ending
      left
      refine ⟨⟨?_, ?_, ?_, ?_⟩, fun _ => empty⟩
      · simp [deleteInterpreter, ending]
      · simp [deleteInterpreter, ending]
      · simp [deleteInterpreter, ending]
      · intro wanted _
        simp [names, tenants, empty]
  | some last =>
      have ends : registry.slots = registry.slots.dropLast ++ [last] :=
        (List.dropLast_append_getLast? last ending).symm
      cases interp with
      | none =>
          right
          left
          refine ⟨registry.slots.dropLast, last, rfl, ?_⟩
          have computed : registry.deleteInterpreter erasesFront none =
              ⟨destroyEngines { registry with slots := registry.slots.dropLast } last.deletes,
                true, last.deletes⟩ := by
            simp [deleteInterpreter, ending]
          rw [computed]
          refine ⟨ends, rfl, rfl, by simp [tenants], ?_, rfl⟩
          simp [places, List.map_dropLast]
      | some wanted =>
          cases result : findInterp wanted registry.slots with
          | none =>
              left
              refine ⟨⟨?_, ?_, ?_, ?_⟩, by simp⟩
              · simp [deleteInterpreter, ending, result]
              · simp [deleteInterpreter, ending, result]
              · simp [deleteInterpreter, ending, result]
              · rintro _ ⟨⟩ member
                obtain ⟨slot, inside, same⟩ := mem_names.mp member
                exact findInterp_none result slot inside same
          | some parts =>
              obtain ⟨before, found, after⟩ := parts
              obtain ⟨split, named, _⟩ := findInterp_some result
              refine Or.inr (Or.inr ⟨wanted, before, found, after, rfl, result, named, ?_⟩)
              have computed : registry.deleteInterpreter erasesFront (some wanted) =
                  ⟨destroyEngines
                    { registry with slots := (erase erasesFront before found after).1 }
                    found.deletes, true, found.deletes⟩ := by
                simp [deleteInterpreter, ending, result, erase_deletes]
              have size : registry.slots.length = before.length + 1 + after.length := by
                rw [split]
                simp only [List.length_append, List.length_cons]
                omega
              rw [computed]
              refine ⟨split, rfl, rfl, ?_, ?_, rfl⟩
              · simp [tenants, erase_tenants]
              · simp only [places, destroyEngines_slots, erase_places]
                rw [size, split]

end Registry

end CppInterOp
