import CppInterOp.Library.Runs
import CppInterOp.RegistryMoves
import Mathlib.Logic.Function.Basic

/-! Runs of the registry: its operations, what a history records beside the deque, and the
invariant of the deque that every operation of a well-behaved caller preserves. -/

namespace CppInterOp

/-- The operations on the registry. A registration names the address at which the new element
is placed; the operations on caches carry what the compiler or the JIT computed. -/
inductive Op
  | create (made : Option Address) (argv : List String) (element : Address)
  | useExternal (interp element : Address)
  | activate (interp : Option Address)
  | delete (interp : Option Address)
  | findBuiltinType (populated : List (String × Address))
  | makeWrapper (interp function : Address) (compiled : Option Address)
  | makeDtorWrapper (interp decl : Address) (compiled : Option Address)
  | materializeConstArrayValue (interp varDecl : Address) (value : Int)
  | emitDiagnostic (interp : Address) (diag : Diagnostic)

def Op.perform (erasesFront : Nat → Nat → Bool) (registry : Registry) : Op → Registry.Outcome
  | .create made argv element => ⟨registry.createInterpreter made argv element, made.isSome, []⟩
  | .useExternal interp element => ⟨registry.useExternalInterpreter interp element, true, []⟩
  | .activate interp => registry.activateInterpreter interp
  | .delete interp => registry.deleteInterpreter erasesFront interp
  | .findBuiltinType populated => ⟨registry.findBuiltinType populated, true, []⟩
  | .makeWrapper interp function compiled =>
      ⟨registry.makeWrapper interp function compiled, true, []⟩
  | .makeDtorWrapper interp decl compiled =>
      ⟨registry.makeDtorWrapper interp decl compiled, true, []⟩
  | .materializeConstArrayValue interp varDecl value =>
      ⟨registry.materializeConstArrayValue interp varDecl value, true, []⟩
  | .emitDiagnostic interp diag => ⟨(registry.emitDiagnostic interp diag).1, true, []⟩

inductive CacheWrite
  | builtins (populated : List (String × Address))
  | wrapper (function : Address) (compiled : Option Address)
  | dtorWrapper (decl : Address) (compiled : Option Address)
  | constArray (varDecl : Address) (value : Int)
  | diagnostic (view : StoredDiagView)

def CacheWrite.apply (caches : Caches) : CacheWrite → Caches
  | .builtins populated =>
      { caches with
        builtinMap := if caches.builtinMap.isEmpty then populated else caches.builtinMap }
  | .wrapper _ none => caches
  | .wrapper function (some compiled) =>
      { caches with wrapperStore := emplace caches.wrapperStore function compiled }
  | .dtorWrapper _ none => caches
  | .dtorWrapper decl (some compiled) =>
      { caches with dtorWrapperStore := emplace caches.dtorWrapperStore decl compiled }
  | .constArray varDecl value =>
      { caches with constArrayValueStore := emplace caches.constArrayValueStore varDecl value }
  | .diagnostic view => { caches with storedDiags := caches.storedDiags ++ [view] }

def Op.records (registry : Registry) : Op → Option (Address × CacheWrite)
  | .findBuiltinType populated =>
      registry.getInterpreter.map fun active => (active, .builtins populated)
  | .makeWrapper interp function compiled => some (interp, .wrapper function compiled)
  | .makeDtorWrapper interp decl compiled => some (interp, .dtorWrapper decl compiled)
  | .materializeConstArrayValue interp varDecl value => some (interp, .constArray varDecl value)
  | .emitDiagnostic interp diag => some (interp, .diagnostic diag.view)
  | _ => none

def Op.registers : Op → Option (Address × Bool)
  | .create made _ _ => made.map fun interp => (interp, true)
  | .useExternal interp _ => some (interp, false)
  | _ => none

def Op.strays (registry : Registry) : Op → List Address
  | .emitDiagnostic interp diag => (registry.emitDiagnostic interp diag).2
  | _ => []

/-- The registry with its history: what was recorded for each interpreter since it was
registered, the writes that missed the deque, the owned interpreters registered and the
interpreters deleted so far, and which addresses hold a deleted interpreter now. -/
structure Session where
  registry : Registry
  recorded : Address → Caches
  strays : List Address
  created : List Address
  deleted : List Address
  freed : Address → Bool

namespace Session

def start : Session where
  registry := .empty
  recorded := fun _ => {}
  strays := []
  created := []
  deleted := []
  freed := fun _ => false

def recordedAfter (session : Session) (op : Op) : Address → Caches :=
  match op.registers, op.records session.registry with
  | some (interp, _), _ => Function.update session.recorded interp {}
  | none, some (interp, write) =>
      Function.update session.recorded interp (write.apply (session.recorded interp))
  | none, none => session.recorded

def step (erasesFront : Nat → Nat → Bool) (session : Session) (op : Op) : Session :=
  let outcome := op.perform erasesFront session.registry
  { registry := outcome.registry
    recorded := session.recordedAfter op
    strays := session.strays ++ op.strays session.registry
    created := session.created ++
      (match op.registers with
        | some (interp, true) => [interp]
        | _ => [])
    deleted := session.deleted ++ outcome.deleted
    freed := fun interp =>
      if interp ∈ outcome.deleted then true
      else if op.registers.map Prod.fst = some interp then false
      else session.freed interp }

/-- What the callers of the registry promise: a new or external interpreter and its element
are not in the registry yet, only registered interpreters compile, and a diagnostic comes
from an interpreter that is registered or still has a consumer installed. -/
def Allowed (session : Session) (op : Op) : Prop :=
  match op with
  | .create none _ _ => True
  | .create (some interp) _ element =>
      interp ∉ session.registry.names ∧ element ∉ session.registry.addresses
  | .useExternal interp element =>
      interp ∉ session.registry.names ∧ element ∉ session.registry.addresses
  | .activate _ | .delete _ => True
  | .findBuiltinType _ => session.registry.slots ≠ []
  | .makeWrapper interp _ _ | .makeDtorWrapper interp _ _
  | .materializeConstArrayValue interp _ _ => interp ∈ session.registry.names
  | .emitDiagnostic interp _ =>
      interp ∈ session.registry.names ∨ session.registry.consumers interp ≠ []

instance decidableAllowed (session : Session) : ∀ op, Decidable (session.Allowed op)
  | .create none _ _ => inferInstanceAs (Decidable True)
  | .create (some _) _ _ => inferInstanceAs (Decidable (_ ∧ _))
  | .useExternal _ _ => inferInstanceAs (Decidable (_ ∧ _))
  | .activate _ => inferInstanceAs (Decidable True)
  | .delete _ => inferInstanceAs (Decidable True)
  | .findBuiltinType _ => inferInstanceAs (Decidable (_ ≠ _))
  | .makeWrapper _ _ _ => inferInstanceAs (Decidable (_ ∈ _))
  | .makeDtorWrapper _ _ _ => inferInstanceAs (Decidable (_ ∈ _))
  | .materializeConstArrayValue _ _ _ => inferInstanceAs (Decidable (_ ∈ _))
  | .emitDiagnostic _ _ => inferInstanceAs (Decidable (_ ∨ _))

end Session

namespace Registry

theorem addresses_eq (registry : Registry) :
    registry.addresses = registry.places.map Prod.fst := by
  simp only [addresses, places, List.map_map]
  rfl

/-- The elements hold distinct interpreters, none of them moved-from, at distinct addresses. -/
structure WellFormed (registry : Registry) : Prop where
  present : ∀ tenant ∈ registry.tenants, tenant.interpreter ≠ none
  distinct : registry.names.Nodup
  placed : registry.addresses.Nodup

theorem empty_wellFormed : empty.WellFormed :=
  ⟨by simp [empty, tenants], by simp [empty, names, tenants], by simp [empty, addresses]⟩

theorem WellFormed.of_same {registry other : Registry} (formed : registry.WellFormed)
    (tenants : other.tenants = registry.tenants) (addresses : other.addresses = registry.addresses) :
    other.WellFormed := by
  refine ⟨?_, ?_, ?_⟩
  · rw [tenants]
    exact formed.present
  · rw [names, tenants]
    exact formed.distinct
  · rw [addresses]
    exact formed.placed

theorem WellFormed.interpreters {registry : Registry} (formed : registry.WellFormed) :
    registry.interpreters = registry.names.map some := by
  have every : ∀ tenants : List Tenant, (∀ tenant ∈ tenants, tenant.interpreter ≠ none) →
      tenants.map Tenant.interpreter = (tenants.filterMap Tenant.interpreter).map some := by
    intro tenants present
    induction tenants with
    | nil => rfl
    | cons tenant rest ih =>
        have tail := ih fun other member => present other (List.mem_cons_of_mem _ member)
        cases held : tenant.interpreter with
        | none => exact absurd held (present tenant (by simp))
        | some interp => simp [held, tail]
  have mapped := every registry.tenants formed.present
  simpa [Registry.interpreters, tenants, names, Function.comp_def] using mapped

theorem WellFormed.same_interpreter {registry : Registry} (formed : registry.WellFormed)
    {left right : Slot} (leftMember : left ∈ registry.slots) (rightMember : right ∈ registry.slots)
    (same : left.info.interpreter = right.info.interpreter) : left = right := by
  have nodup : registry.interpreters.Nodup := by
    rw [formed.interpreters]
    exact formed.distinct.map fun _ _ same => Option.some.inj same
  exact List.inj_on_of_nodup_map nodup leftMember rightMember same

theorem WellFormed.same_address {registry : Registry} (formed : registry.WellFormed)
    {left right : Slot} (leftMember : left ∈ registry.slots) (rightMember : right ∈ registry.slots)
    (same : left.address = right.address) : left = right :=
  List.inj_on_of_nodup_map formed.placed leftMember rightMember same

theorem WellFormed.getInterpreter {registry : Registry} (formed : registry.WellFormed) :
    registry.getInterpreter = registry.names.getLast? := by
  have last : registry.interpreters.getLast? = registry.names.getLast?.map some := by
    rw [formed.interpreters, List.getLast?_map]
  rw [Registry.interpreters, List.getLast?_map] at last
  cases ending : registry.slots.getLast? with
  | none =>
      rw [ending] at last
      have empty : registry.names.getLast? = none := Option.map_eq_none_iff.mp last.symm
      simp [Registry.getInterpreter, ending, empty]
  | some slot =>
      cases name : registry.names.getLast? with
      | none => simp [ending, name] at last
      | some interp => simpa [Registry.getInterpreter, ending, name] using last

theorem WellFormed.held {registry : Registry} (formed : registry.WellFormed) {slot : Slot}
    (member : slot ∈ registry.slots) : ∃ interp, slot.info.interpreter = some interp := by
  have present := formed.present slot.tenant (List.mem_map.mpr ⟨slot, member, rfl⟩)
  exact Option.ne_none_iff_exists'.mp present

theorem WellFormed.active {registry : Registry} (formed : registry.WellFormed)
    (nonempty : registry.slots ≠ []) :
    ∃ interp, registry.getInterpreter = some interp ∧ interp ∈ registry.names := by
  cases active : registry.getInterpreter with
  | none =>
      rw [formed.getInterpreter, List.getLast?_eq_none_iff] at active
      have empty : registry.slots = [] := by
        simpa [active, Registry.interpreters] using formed.interpreters
      exact absurd empty nonempty
  | some interp =>
      rw [formed.getInterpreter] at active
      exact ⟨interp, rfl, List.mem_of_getLast? active⟩

theorem names_of_split {registry : Registry} {before after : List Slot} {found : Slot}
    {wanted : Address} (split : registry.slots = before ++ found :: after)
    (named : found.info.interpreter = some wanted) :
    registry.names = (before.map Slot.tenant).filterMap Tenant.interpreter ++
      wanted :: (after.map Slot.tenant).filterMap Tenant.interpreter := by
  simp [names, tenants, split, named]

theorem Activated.names {registry : Registry} {wanted : Address} {before after : List Slot}
    {found : Slot} {outcome : Outcome}
    (activated : Activated registry wanted before found after outcome) :
    outcome.registry.names = (before.map Slot.tenant).filterMap Tenant.interpreter ++
      ((after.map Slot.tenant).filterMap Tenant.interpreter ++ [wanted]) := by
  have named : found.tenant.interpreter = some wanted := activated.named
  rw [Registry.names, activated.tenants, List.filterMap_append, List.filterMap_append,
    List.filterMap_cons_some named, List.filterMap_nil]

theorem Activated.wellFormed {registry : Registry} {wanted : Address} {before after : List Slot}
    {found : Slot} {outcome : Outcome}
    (activated : Activated registry wanted before found after outcome)
    (formed : registry.WellFormed) : outcome.registry.WellFormed := by
  have tenantsBefore : registry.tenants =
      before.map Slot.tenant ++ found.tenant :: after.map Slot.tenant := by
    simp [Registry.tenants, activated.split]
  have moved : outcome.registry.tenants.Perm registry.tenants := by
    rw [activated.tenants, tenantsBefore]
    exact List.Perm.append_left _ (List.perm_append_singleton _ _)
  refine ⟨?_, ?_, ?_⟩
  · intro tenant member
    exact formed.present tenant (moved.subset member)
  · exact (moved.filterMap _).nodup_iff.mpr formed.distinct
  · rw [addresses_eq, activated.places, ← addresses_eq]
    exact formed.placed

theorem Removed.names {registry : Registry} {before after : List Slot} {found : Slot}
    {front : Bool} {outcome : Outcome}
    (removed : Removed registry before found after front outcome) :
    outcome.registry.names = (before.map Slot.tenant).filterMap Tenant.interpreter ++
      (after.map Slot.tenant).filterMap Tenant.interpreter := by
  rw [Registry.names, removed.tenants, List.filterMap_append]

theorem Removed.gone {registry : Registry} {before after : List Slot} {found : Slot}
    {front : Bool} {outcome : Outcome} {wanted : Address}
    (removed : Removed registry before found after front outcome) (formed : registry.WellFormed)
    (named : found.info.interpreter = some wanted) : wanted ∉ outcome.registry.names := by
  have distinct := formed.distinct
  rw [names_of_split removed.split named] at distinct
  rw [removed.names]
  exact (List.nodup_cons.mp (List.perm_middle.nodup_iff.mp distinct)).1

theorem Removed.held {registry : Registry} {before after : List Slot} {found : Slot}
    {front : Bool} {outcome : Outcome}
    (removed : Removed registry before found after front outcome) (formed : registry.WellFormed) :
    ∃ interp, found.info.interpreter = some interp := by
  apply formed.held
  rw [removed.split]
  exact List.mem_append_right _ (List.mem_cons_self ..)

theorem Removed.addresses {registry : Registry} {before after : List Slot} {found : Slot}
    {front : Bool} {outcome : Outcome}
    (removed : Removed registry before found after front outcome) :
    outcome.registry.addresses =
      if front then registry.addresses.tail else registry.addresses.dropLast := by
  rw [addresses_eq, addresses_eq, removed.places, apply_ite (List.map Prod.fst), List.map_tail,
    List.map_dropLast]

theorem Removed.wellFormed {registry : Registry} {before after : List Slot} {found : Slot}
    {front : Bool} {outcome : Outcome}
    (removed : Removed registry before found after front outcome)
    (formed : registry.WellFormed) : outcome.registry.WellFormed := by
  have kept : outcome.registry.tenants.Sublist registry.tenants := by
    have tenantsBefore : registry.tenants =
        before.map Slot.tenant ++ found.tenant :: after.map Slot.tenant := by
      simp [Registry.tenants, removed.split]
    rw [removed.tenants, tenantsBefore]
    exact List.Sublist.append (List.Sublist.refl _) (List.sublist_cons_self _ _)
  refine ⟨?_, ?_, ?_⟩
  · intro tenant member
    exact formed.present tenant (kept.subset member)
  · exact (kept.filterMap _).nodup formed.distinct
  · rw [removed.addresses]
    split
    · exact (List.tail_sublist _).nodup formed.placed
    · exact (List.dropLast_sublist _).nodup formed.placed

/-! Writes through a reference change caches only. -/

@[simp] theorem update_consumers (registry : Registry) (address : Address)
    (change : InterpreterInfo → InterpreterInfo) :
    (registry.update address change).consumers = registry.consumers := rfl

@[simp] theorem update_addresses (registry : Registry) (address : Address)
    (change : InterpreterInfo → InterpreterInfo) :
    (registry.update address change).addresses = registry.addresses := by
  simp only [addresses, update, List.map_map]
  apply List.map_congr_left
  intro slot _
  simp only [Function.comp_apply]
  split <;> rfl

theorem update_tenants (registry : Registry) (address : Address)
    {change : InterpreterInfo → InterpreterInfo} (keeps : ∀ info, (change info).tenant = info.tenant) :
    (registry.update address change).tenants = registry.tenants := by
  simp only [tenants, update, List.map_map]
  apply List.map_congr_left
  intro slot _
  simp only [Function.comp_apply]
  split
  · exact keeps slot.info
  · rfl

theorem WellFormed.getInterpInfo {registry : Registry} (formed : registry.WellFormed) {slot : Slot}
    (member : slot ∈ registry.slots) :
    registry.getInterpInfo slot.info.interpreter = some slot.address := by
  cases held : slot.info.interpreter with
  | none =>
      exact absurd held (formed.present slot.tenant (List.mem_map.mpr ⟨slot, member, rfl⟩))
  | some interp =>
      cases result : registry.slots.find? fun other => other.info.interpreter = some interp with
      | none =>
          have absent := List.find?_eq_none.mp result slot member
          simp [held] at absent
      | some first =>
          have firstMember := List.mem_of_find?_eq_some result
          have firstHeld := List.find?_some result
          simp only [decide_eq_true_eq] at firstHeld
          have same := formed.same_interpreter firstMember member (firstHeld.trans held.symm)
          simp [Registry.getInterpInfo, result, same]

theorem WellFormed.getInterpInfo_active {registry : Registry} (formed : registry.WellFormed) :
    registry.getInterpInfo none = registry.getInterpInfo registry.getInterpreter := by
  cases ending : registry.slots.getLast? with
  | none =>
      have noInterpreter : registry.getInterpreter = none := by
        simp [Registry.getInterpreter, ending]
      rw [noInterpreter]
  | some slot =>
      have member : slot ∈ registry.slots := List.mem_of_getLast? ending
      have active : registry.getInterpreter = slot.info.interpreter := by
        simp [Registry.getInterpreter, ending]
      rw [active, formed.getInterpInfo member]
      simp [Registry.getInterpInfo, ending]

theorem WellFormed.updateInfo_slots {registry : Registry} (formed : registry.WellFormed)
    {interp : Address} (member : interp ∈ registry.names)
    (change : InterpreterInfo → InterpreterInfo) :
    (registry.updateInfo (some interp) change).slots = registry.slots.map fun slot =>
      if slot.info.interpreter = some interp then { slot with info := change slot.info }
      else slot := by
  obtain ⟨owner, ownerMember, held⟩ := mem_names.mp member
  have address : registry.getInterpInfo (some interp) = some owner.address := by
    rw [← held]
    exact formed.getInterpInfo ownerMember
  simp only [updateInfo, address, update]
  apply List.map_congr_left
  intro slot slotMember
  have agree : slot.address = owner.address ↔ slot.info.interpreter = some interp := by
    constructor
    · intro same
      rw [formed.same_address slotMember ownerMember same, held]
    · intro same
      rw [formed.same_interpreter slotMember ownerMember (same.trans held.symm)]
  simp only [agree]

theorem handleDiagnostic_slots (registry : Registry) (view : StoredDiagView)
    (chain : List Address) :
    (registry.handleDiagnostic view chain).1.slots = registry.slots.map fun slot =>
      { slot with info := { slot.info with
        storedDiags := slot.info.storedDiags ++ List.replicate (chain.count slot.address) view } } := by
  induction chain with
  | nil => simp [handleDiagnostic]
  | cons element raw ih =>
      simp only [handleDiagnostic]
      split
      · simp only [update, ih, List.map_map]
        apply List.map_congr_left
        intro slot _
        by_cases same : slot.address = element
        · subst element
          simp [List.replicate_succ', List.append_assoc]
        · simp [same, List.count_cons_of_ne (Ne.symm same)]
      · rename_i outside
        rw [ih]
        apply List.map_congr_left
        intro slot member
        have different : slot.address ≠ element := by
          intro same
          apply outside
          simp only [addresses, ih, List.map_map, List.mem_map]
          exact ⟨slot, member, same⟩
        rw [List.count_cons_of_ne (Ne.symm different)]

theorem handleDiagnostic_consumers (registry : Registry) (view : StoredDiagView)
    (chain : List Address) :
    (registry.handleDiagnostic view chain).1.consumers = registry.consumers := by
  induction chain with
  | nil => rfl
  | cons element raw ih =>
      simp only [handleDiagnostic]
      split <;> simpa using ih

theorem handleDiagnostic_tenants (registry : Registry) (view : StoredDiagView)
    (chain : List Address) :
    (registry.handleDiagnostic view chain).1.tenants = registry.tenants := by
  simp only [tenants, handleDiagnostic_slots, List.map_map]
  rfl

theorem handleDiagnostic_addresses (registry : Registry) (view : StoredDiagView)
    (chain : List Address) :
    (registry.handleDiagnostic view chain).1.addresses = registry.addresses := by
  simp only [addresses, handleDiagnostic_slots, List.map_map]
  rfl

theorem handleDiagnostic_strays (registry : Registry) (view : StoredDiagView)
    (chain : List Address) :
    (registry.handleDiagnostic view chain).2 =
      (chain.filter fun element => element ∉ registry.addresses).reverse := by
  induction chain with
  | nil => rfl
  | cons element raw ih =>
      simp only [handleDiagnostic, handleDiagnostic_addresses]
      split
      · rename_i inside
        simp [ih, inside]
      · rename_i outside
        simp [ih, outside]

@[simp] theorem updateInfo_consumers (registry : Registry) (interp : Option Address)
    (change : InterpreterInfo → InterpreterInfo) :
    (registry.updateInfo interp change).consumers = registry.consumers := by
  unfold updateInfo
  split <;> rfl

@[simp] theorem updateInfo_addresses (registry : Registry) (interp : Option Address)
    (change : InterpreterInfo → InterpreterInfo) :
    (registry.updateInfo interp change).addresses = registry.addresses := by
  unfold updateInfo
  split
  · rfl
  · exact update_addresses _ _ _

theorem updateInfo_tenants (registry : Registry) (interp : Option Address)
    {change : InterpreterInfo → InterpreterInfo} (keeps : ∀ info, (change info).tenant = info.tenant) :
    (registry.updateInfo interp change).tenants = registry.tenants := by
  unfold updateInfo
  split
  · rfl
  · exact update_tenants _ _ keeps

@[simp] theorem registerInterpreter_tenants (registry : Registry) (interp : Address) (owned : Bool)
    (argv : List String) (element : Address) :
    (registry.registerInterpreter interp owned argv element).tenants =
      registry.tenants ++ [⟨some interp, owned, argv, 0⟩] := by
  simp [registerInterpreter, installDiagConsumer, tenants, Slot.tenant]

@[simp] theorem registerInterpreter_addresses (registry : Registry) (interp : Address)
    (owned : Bool) (argv : List String) (element : Address) :
    (registry.registerInterpreter interp owned argv element).addresses =
      registry.addresses ++ [element] := by
  simp [registerInterpreter, installDiagConsumer, addresses]

@[simp] theorem registerInterpreter_names (registry : Registry) (interp : Address) (owned : Bool)
    (argv : List String) (element : Address) :
    (registry.registerInterpreter interp owned argv element).names =
      registry.names ++ [interp] := by
  simp [names]

@[simp] theorem destroyEngines_tenants (registry : Registry) (deleted : List Address) :
    (registry.destroyEngines deleted).tenants = registry.tenants := rfl

@[simp] theorem destroyEngines_names (registry : Registry) (deleted : List Address) :
    (registry.destroyEngines deleted).names = registry.names := rfl

@[simp] theorem destroyEngines_addresses (registry : Registry) (deleted : List Address) :
    (registry.destroyEngines deleted).addresses = registry.addresses := rfl

theorem WellFormed.register {registry : Registry} (formed : registry.WellFormed)
    {interp element : Address} (newName : interp ∉ registry.names)
    (newAddress : element ∉ registry.addresses) (owned : Bool) (argv : List String) :
    (registry.registerInterpreter interp owned argv element).WellFormed := by
  refine ⟨?_, ?_, ?_⟩
  · intro tenant member
    simp only [registerInterpreter_tenants, List.mem_append, List.mem_singleton] at member
    rcases member with old | new
    · exact formed.present tenant old
    · simp [new]
  · rw [registerInterpreter_names]
    exact List.nodup_append.mpr ⟨formed.distinct, by simp, by
      intro old member new isNew same
      rw [List.mem_singleton] at isNew
      subst new
      subst old
      exact newName member⟩
  · rw [registerInterpreter_addresses]
    exact List.nodup_append.mpr ⟨formed.placed, by simp, by
      intro old member new isNew same
      rw [List.mem_singleton] at isNew
      subst new
      subst old
      exact newAddress member⟩

end Registry

def CacheWrite.store (write : CacheWrite) (info : InterpreterInfo) : InterpreterInfo :=
  let caches := write.apply info.caches
  { info with
    builtinMap := caches.builtinMap
    wrapperStore := caches.wrapperStore
    dtorWrapperStore := caches.dtorWrapperStore
    constArrayValueStore := caches.constArrayValueStore
    storedDiags := caches.storedDiags }

@[simp] theorem CacheWrite.store_tenant (write : CacheWrite) (info : InterpreterInfo) :
    (write.store info).tenant = info.tenant := rfl

@[simp] theorem CacheWrite.store_caches (write : CacheWrite) (info : InterpreterInfo) :
    (write.store info).caches = write.apply info.caches := rfl

theorem Op.perform_records {erasesFront : Nat → Nat → Bool} {registry : Registry} {op : Op}
    {interp : Address} {write : CacheWrite} (formed : registry.WellFormed)
    (records : op.records registry = some (interp, write))
    (silent : ∀ view, write ≠ .diagnostic view) :
    op.perform erasesFront registry = ⟨registry.updateInfo (some interp) write.store, true, []⟩ := by
  cases op with
  | findBuiltinType populated =>
      simp only [Op.records, Option.map_eq_some_iff, Prod.mk.injEq] at records
      obtain ⟨active, isActive, rfl, rfl⟩ := records
      have target : registry.getInterpInfo none = registry.getInterpInfo (some active) := by
        rw [formed.getInterpInfo_active, isActive]
      simp only [Op.perform, Registry.findBuiltinType, Registry.updateInfo, target]
      rfl
  | makeWrapper owner function compiled =>
      simp only [Op.records, Option.some.injEq, Prod.mk.injEq] at records
      obtain ⟨rfl, rfl⟩ := records
      simp only [Op.perform, Registry.makeWrapper]
      cases compiled <;> rfl
  | makeDtorWrapper owner decl compiled =>
      simp only [Op.records, Option.some.injEq, Prod.mk.injEq] at records
      obtain ⟨rfl, rfl⟩ := records
      simp only [Op.perform, Registry.makeDtorWrapper]
      cases compiled <;> rfl
  | materializeConstArrayValue owner varDecl value =>
      simp only [Op.records, Option.some.injEq, Prod.mk.injEq] at records
      obtain ⟨rfl, rfl⟩ := records
      rfl
  | emitDiagnostic owner diag =>
      simp only [Op.records, Option.some.injEq, Prod.mk.injEq] at records
      exact absurd records.2.symm (silent diag.view)
  | create made argv element => simp [Op.records] at records
  | useExternal owner element => simp [Op.records] at records
  | activate wanted => simp [Op.records] at records
  | delete wanted => simp [Op.records] at records

theorem Registry.WellFormed.updateInfo {registry : Registry} (formed : registry.WellFormed)
    (interp : Option Address) (write : CacheWrite) :
    (registry.updateInfo interp write.store).WellFormed :=
  formed.of_same (Registry.updateInfo_tenants registry interp write.store_tenant)
    (Registry.updateInfo_addresses registry interp write.store)

theorem Op.perform_wellFormed {erasesFront : Nat → Nat → Bool} {session : Session} {op : Op}
    (formed : session.registry.WellFormed) (allowed : session.Allowed op) :
    (op.perform erasesFront session.registry).registry.WellFormed := by
  cases op with
  | create made argv element =>
      cases made with
      | none => exact formed
      | some interp =>
          have fresh : (session.registry.destroyEngines [interp]).WellFormed :=
            formed.of_same rfl rfl
          exact fresh.register allowed.1 allowed.2 true argv
  | useExternal interp element => exact formed.register allowed.1 allowed.2 false []
  | activate interp =>
      rcases session.registry.activateInterpreter_cases interp with
        unchanged | ⟨wanted, before, found, after, _, _, activated⟩
      · simp only [Op.perform, unchanged.same]
        exact formed
      · exact activated.wellFormed formed
  | delete interp =>
      rcases session.registry.deleteInterpreter_cases erasesFront interp with
        ⟨unchanged, _⟩ | ⟨before, found, _, removed⟩ |
          ⟨wanted, before, found, after, _, _, _, removed⟩
      · simp only [Op.perform, unchanged.same]
        exact formed
      · exact removed.wellFormed formed
      · exact removed.wellFormed formed
  | findBuiltinType populated =>
      obtain ⟨interp, active, _⟩ := formed.active allowed
      have records : (Op.findBuiltinType populated).records session.registry =
          some (interp, .builtins populated) := by simp [Op.records, active]
      rw [Op.perform_records formed records (by simp)]
      exact formed.updateInfo _ _
  | makeWrapper interp function compiled =>
      rw [Op.perform_records formed rfl (by simp)]
      exact formed.updateInfo _ _
  | makeDtorWrapper interp decl compiled =>
      rw [Op.perform_records formed rfl (by simp)]
      exact formed.updateInfo _ _
  | materializeConstArrayValue interp varDecl value =>
      rw [Op.perform_records formed rfl (by simp)]
      exact formed.updateInfo _ _
  | emitDiagnostic interp diag =>
      exact formed.of_same (Registry.handleDiagnostic_tenants _ _ _)
        (Registry.handleDiagnostic_addresses _ _ _)

end CppInterOp
