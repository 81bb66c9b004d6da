import CppInterOp.RegistryRuns

/-! Ownership: which operations delete an interpreter, and that none is deleted twice. -/

namespace CppInterOp

def Tenant.ownedInterpreter (tenant : Tenant) : Option Address :=
  if tenant.isOwned then tenant.interpreter else none

namespace Registry

def owned (registry : Registry) : List Address :=
  registry.tenants.filterMap Tenant.ownedInterpreter

end Registry

/-- What a step deletes: each owned interpreter whose element it removes, once, and nothing
on activation; none of these had been deleted before, and none was external. -/
structure Session.DeletesOwned (erasesFront : Nat → Nat → Bool) (session : Session) (op : Op) :
    Prop where
  exactly : (op.perform erasesFront session.registry).deleted =
    session.registry.owned.filter fun interp =>
      interp ∉ (session.step erasesFront op).registry.names
  activation : ∀ interp, op = .activate interp →
    (op.perform erasesFront session.registry).deleted = []
  once : ∀ interp ∈ (op.perform erasesFront session.registry).deleted,
    session.freed interp = false
  external : ∀ slot ∈ session.registry.slots, slot.info.isOwned = false →
    ∀ interp ∈ (op.perform erasesFront session.registry).deleted,
      slot.info.interpreter ≠ some interp

/-- No element refers to a deleted interpreter, and every owned interpreter ever registered
is either held or was deleted: as often deleted as registered and not held. -/
structure Session.Ownership (session : Session) : Prop where
  alive : ∀ interp ∈ session.registry.names, session.freed interp = false
  balance : ∀ interp, session.deleted.count interp + session.registry.owned.count interp =
    session.created.count interp

@[simp] theorem Tenant.ownedInterpreter_eq_some {tenant : Tenant} {interp : Address} :
    tenant.ownedInterpreter = some interp ↔
      tenant.isOwned = true ∧ tenant.interpreter = some interp := by
  cases owns : tenant.isOwned <;> simp [Tenant.ownedInterpreter, owns]

theorem Slot.deletes_eq (slot : Slot) : slot.deletes = slot.tenant.ownedInterpreter.toList := by
  by_cases owns : slot.info.tenant.isOwned = true <;>
    simp [Slot.deletes, InterpreterInfo.deletes_eq, Tenant.ownedInterpreter, Slot.tenant, owns]

namespace Registry

theorem owned_subset_names (registry : Registry) : registry.owned ⊆ registry.names := by
  intro interp member
  obtain ⟨tenant, held, owns⟩ := List.mem_filterMap.mp member
  exact List.mem_filterMap.mpr ⟨tenant, held, (Tenant.ownedInterpreter_eq_some.mp owns).2⟩

theorem owned_of_same {registry other : Registry} (same : other.tenants = registry.tenants) :
    other.owned = registry.owned ∧ other.names = registry.names := by
  constructor
  · rw [owned, same]
    rfl
  · rw [names, same]
    rfl

theorem owned_of_split {registry : Registry} {before after : List Slot} {found : Slot}
    (split : registry.slots = before ++ found :: after) :
    registry.owned = (before.map Slot.tenant).filterMap Tenant.ownedInterpreter ++
      (found.deletes ++ (after.map Slot.tenant).filterMap Tenant.ownedInterpreter) := by
  simp only [owned, tenants, split, List.map_append, List.map_cons, List.filterMap_append,
    List.filterMap_cons, Slot.deletes_eq]
  cases found.tenant.ownedInterpreter <;> rfl

theorem WellFormed.external_not_owned {registry : Registry} (formed : registry.WellFormed)
    {slot : Slot} (member : slot ∈ registry.slots) (external : slot.info.isOwned = false)
    {interp : Address} (owns : interp ∈ registry.owned) : slot.info.interpreter ≠ some interp := by
  intro held
  obtain ⟨tenant, tenantMember, owner⟩ := List.mem_filterMap.mp owns
  obtain ⟨other, otherMember, rfl⟩ := List.mem_map.mp tenantMember
  obtain ⟨isOwned, ownerHeld⟩ := Tenant.ownedInterpreter_eq_some.mp owner
  have same := formed.same_interpreter member otherMember (held.trans ownerHeld.symm)
  rw [same] at external
  exact Bool.false_ne_true (external.symm.trans isOwned)

end Registry

namespace Op

inductive Shift (registry : Registry) (op : Op) (outcome : Registry.Outcome) : Prop
  | registration (interp : Address) (owned : Bool) (registers : op.registers = some (interp, owned))
      (newName : interp ∉ registry.names) (silent : outcome.deleted = [])
      (owned_eq : outcome.registry.owned = registry.owned ++ if owned then [interp] else [])
      (names_eq : outcome.registry.names = registry.names ++ [interp])
  | permutation (registers : op.registers = none) (silent : outcome.deleted = [])
      (owned_perm : outcome.registry.owned.Perm registry.owned)
      (names_perm : outcome.registry.names.Perm registry.names)
  | removal (before after : List Slot) (found : Slot) (front : Bool) (interp : Address)
      (registers : op.registers = none) (notActivation : ∀ wanted, op ≠ .activate wanted)
      (named : found.info.interpreter = some interp)
      (removed : Registry.Removed registry before found after front outcome)

theorem Shift.of_same {registry : Registry} {op : Op} {outcome : Registry.Outcome}
    (registers : op.registers = none) (silent : outcome.deleted = [])
    (same : outcome.registry.tenants = registry.tenants) : Shift registry op outcome := by
  obtain ⟨owned, names⟩ := Registry.owned_of_same same
  exact .permutation registers silent (by rw [owned]) (by rw [names])

theorem perform_shift (erasesFront : Nat → Nat → Bool) {session : Session} {op : Op}
    (formed : session.registry.WellFormed) (allowed : session.Allowed op) :
    Shift session.registry op (op.perform erasesFront session.registry) := by
  have recorded (interp : Address) (write : CacheWrite) (registers : op.registers = none)
      (records : op.records session.registry = some (interp, write))
      (silent : ∀ view, write ≠ .diagnostic view) :
      Shift session.registry op (op.perform erasesFront session.registry) := by
    rw [Op.perform_records formed records silent]
    exact .of_same registers rfl (Registry.updateInfo_tenants _ _ write.store_tenant)
  cases op with
  | create made argv element =>
      cases made with
      | none => exact .of_same rfl rfl rfl
      | some interp =>
          refine .registration interp true rfl allowed.1 rfl ?_ ?_
          · simp [perform, Registry.createInterpreter, Registry.owned, Tenant.ownedInterpreter]
          · exact Registry.registerInterpreter_names _ _ _ _ _
  | useExternal interp element =>
      refine .registration interp false rfl allowed.1 rfl ?_ ?_
      · simp [perform, Registry.useExternalInterpreter, Registry.owned, Tenant.ownedInterpreter]
      · exact Registry.registerInterpreter_names _ _ _ _ _
  | activate interp =>
      rcases session.registry.activateInterpreter_cases interp with
        unchanged | ⟨wanted, before, found, after, rfl, _, activated⟩
      · exact .of_same rfl unchanged.deleted (by simp [perform, unchanged.same])
      · have moved : (session.registry.activateInterpreter (some wanted)).registry.tenants.Perm
            session.registry.tenants := by
          rw [activated.tenants, Registry.tenants, activated.split, List.map_append, List.map_cons]
          exact List.Perm.append_left _ (List.perm_append_singleton _ _)
        exact .permutation rfl activated.deleted (moved.filterMap _) (moved.filterMap _)
  | delete interp =>
      rcases session.registry.deleteInterpreter_cases erasesFront interp with
        ⟨unchanged, _⟩ | ⟨before, found, rfl, removed⟩ |
          ⟨wanted, before, found, after, rfl, _, named, removed⟩
      · exact .of_same rfl unchanged.deleted (by simp [perform, unchanged.same])
      · obtain ⟨last, held⟩ := removed.held formed
        exact .removal before [] found _ last rfl (by simp) held removed
      · exact .removal before after found _ wanted rfl (by simp) named removed
  | findBuiltinType populated =>
      obtain ⟨interp, active, _⟩ := formed.active allowed
      exact recorded interp (.builtins populated) rfl (by simp [Op.records, active]) (by simp)
  | makeWrapper interp function compiled => exact recorded _ _ rfl rfl (by simp)
  | makeDtorWrapper interp decl compiled => exact recorded _ _ rfl rfl (by simp)
  | materializeConstArrayValue interp varDecl value => exact recorded _ _ rfl rfl (by simp)
  | emitDiagnostic interp diag =>
      exact .of_same rfl rfl (Registry.handleDiagnostic_tenants _ _ _)

end Op

namespace Session

theorem step_freed (erasesFront : Nat → Nat → Bool) (session : Session) (op : Op)
    (interp : Address) : (session.step erasesFront op).freed interp =
      if interp ∈ (op.perform erasesFront session.registry).deleted then true
      else if op.registers.map Prod.fst = some interp then false
      else session.freed interp := rfl

theorem step_deletesOwned (erasesFront : Nat → Nat → Bool) {session : Session} {op : Op}
    (formed : session.registry.WellFormed) (ownership : session.Ownership)
    (allowed : session.Allowed op) : session.DeletesOwned erasesFront op := by
  have subset : ∀ interp ∈ (op.perform erasesFront session.registry).deleted,
      interp ∈ session.registry.owned →
        session.freed interp = false ∧ ∀ slot ∈ session.registry.slots,
          slot.info.isOwned = false → slot.info.interpreter ≠ some interp := by
    intro interp _ owns
    exact ⟨ownership.alive interp (session.registry.owned_subset_names owns),
      fun slot member external => formed.external_not_owned member external owns⟩
  have quiet (silent : (op.perform erasesFront session.registry).deleted = [])
      (kept : session.registry.names ⊆ (session.step erasesFront op).registry.names) :
      session.DeletesOwned erasesFront op := by
    refine ⟨?_, fun _ _ => silent, by simp [silent], by simp [silent]⟩
    rw [silent, eq_comm, List.filter_eq_nil_iff]
    intro interp owns
    simpa using kept (session.registry.owned_subset_names owns)
  cases Op.perform_shift erasesFront formed allowed with
  | registration interp owned registers newName silent owned_eq names_eq =>
      apply quiet silent
      rw [show (session.step erasesFront op).registry.names = _ from names_eq]
      exact List.subset_append_left _ _
  | permutation registers silent owned_perm names_perm => exact quiet silent names_perm.symm.subset
  | removal before after found front interp registers notActivation named removed =>
      have ownedBefore := Registry.owned_of_split removed.split
      have namesAfter : (session.step erasesFront op).registry.names = _ := removed.names
      have gone : interp ∉ (session.step erasesFront op).registry.names :=
        removed.gone formed named
      have ownedSubset : ∀ slots : List Slot,
          (slots.map Slot.tenant).filterMap Tenant.ownedInterpreter ⊆
            (slots.map Slot.tenant).filterMap Tenant.interpreter := by
        intro slots other member
        obtain ⟨tenant, held, owns⟩ := List.mem_filterMap.mp member
        exact List.mem_filterMap.mpr ⟨tenant, held, (Tenant.ownedInterpreter_eq_some.mp owns).2⟩
      have keptOf : ∀ slots : List Slot,
          (slots.map Slot.tenant).filterMap Tenant.interpreter ⊆
            (session.step erasesFront op).registry.names →
          ((slots.map Slot.tenant).filterMap Tenant.ownedInterpreter).filter (fun other =>
            other ∉ (session.step erasesFront op).registry.names) = [] := by
        intro slots kept
        rw [List.filter_eq_nil_iff]
        intro other owns
        simpa using kept (ownedSubset slots owns)
      have foundGone : found.deletes.filter (fun other =>
          other ∉ (session.step erasesFront op).registry.names) = found.deletes := by
        rw [List.filter_eq_self]
        intro other member
        rw [Slot.deletes_eq, Option.mem_toList] at member
        have held := (Tenant.ownedInterpreter_eq_some.mp member).2
        have same : other = interp := Option.some.inj (held.symm.trans named)
        simpa [same] using gone
      have inOwned : ∀ other ∈ found.deletes, other ∈ session.registry.owned := by
        intro other member
        rw [ownedBefore]
        simp [member]
      refine ⟨?_, ?_, ?_, ?_⟩
      · rw [removed.deleted, ownedBefore, List.filter_append, List.filter_append, foundGone,
          keptOf before (by rw [namesAfter]; exact List.subset_append_left _ _),
          keptOf after (by rw [namesAfter]; exact List.subset_append_right _ _)]
        simp
      · intro wanted isActivation
        exact absurd isActivation (notActivation wanted)
      · intro other member
        exact (subset other member (inOwned other (removed.deleted ▸ member))).1
      · intro slot slotMember external other member
        exact (subset other member (inOwned other (removed.deleted ▸ member))).2 slot slotMember external

theorem step_ownership (erasesFront : Nat → Nat → Bool) {session : Session} {op : Op}
    (formed : session.registry.WellFormed) (ownership : session.Ownership)
    (allowed : session.Allowed op) : (session.step erasesFront op).Ownership := by
  cases Op.perform_shift erasesFront formed allowed with
  | registration interp owned registers newName silent owned_eq names_eq =>
      refine ⟨?_, ?_⟩
      · intro other member
        rw [show (session.step erasesFront op).registry.names = _ from names_eq] at member
        rw [step_freed, silent, registers]
        by_cases same : interp = other
        · simp [same]
        · have old : other ∈ session.registry.names := by
            rcases List.mem_append.mp member with old | new
            · exact old
            · exact absurd (List.mem_singleton.mp new).symm same
          simpa [same] using ownership.alive other old
      · intro other
        have before := ownership.balance other
        simp only [step, silent, registers, owned_eq, List.append_nil]
        cases owned
        · simpa using before
        · simp only [List.count_append, if_true]
          omega
  | permutation registers silent owned_perm names_perm =>
      refine ⟨?_, ?_⟩
      · intro other member
        rw [step_freed, silent, registers]
        simpa using ownership.alive other (names_perm.subset member)
      · intro other
        simp only [step, silent, registers, List.append_nil, owned_perm.count_eq]
        exact ownership.balance other
  | removal before after found front interp registers notActivation named removed =>
      have ownedBefore := Registry.owned_of_split removed.split
      have ownedAfter : (op.perform erasesFront session.registry).registry.owned =
          (before.map Slot.tenant).filterMap Tenant.ownedInterpreter ++
            (after.map Slot.tenant).filterMap Tenant.ownedInterpreter := by
        rw [Registry.owned, removed.tenants, List.filterMap_append]
      have namesSubset : (session.step erasesFront op).registry.names ⊆ session.registry.names := by
        rw [show (session.step erasesFront op).registry.names = _ from removed.names,
          Registry.names_of_split removed.split named]
        exact List.append_subset.mpr ⟨List.subset_append_left _ _,
          List.Subset.trans (List.subset_cons_self _ _) (List.subset_append_right _ _)⟩
      have exactly := (step_deletesOwned erasesFront formed ownership allowed).exactly
      refine ⟨?_, ?_⟩
      · intro other member
        have notDeleted : other ∉ (op.perform erasesFront session.registry).deleted := by
          rw [exactly]
          simp [member]
        rw [step_freed, if_neg notDeleted, registers]
        simpa using ownership.alive other (namesSubset member)
      · intro other
        have balance := ownership.balance other
        rw [ownedBefore] at balance
        simp only [step, registers, removed.deleted, ownedAfter, List.append_nil, List.count_append] at balance ⊢
        omega

end Session

/-- Along every run, owned interpreters are deleted exactly once, by the operation that removes
their element, and nothing else is deleted. -/
theorem registry_deletes_owned_once (erasesFront : Nat → Nat → Bool) (ops : List Op)
    (permitted : Runs.EveryStep (Session.step erasesFront) Session.Allowed Session.start ops) :
    Runs.EveryStep (Session.step erasesFront) (Session.DeletesOwned erasesFront) Session.start ops ∧
      Runs.EveryState (Session.step erasesFront) Session.Ownership Session.start ops := by
  have start : Session.start.registry.WellFormed ∧ Session.start.Ownership := by
    refine ⟨Registry.empty_wellFormed, ?_, ?_⟩
    · intro interp member
      rfl
    · intro interp
      simp [Session.start, Registry.empty, Registry.owned, Registry.tenants]
  have preserved (session : Session) (op : Op)
      (inv : session.registry.WellFormed ∧ session.Ownership) (allowed : session.Allowed op) :
      (session.step erasesFront op).registry.WellFormed ∧
        (session.step erasesFront op).Ownership :=
    ⟨Op.perform_wellFormed inv.1 allowed, Session.step_ownership erasesFront inv.1 inv.2 allowed⟩
  constructor
  · exact Runs.everyStep_of_invariant
      (fun session : Session => session.registry.WellFormed ∧ session.Ownership) start preserved
      (fun session op inv allowed => Session.step_deletesOwned erasesFront inv.1 inv.2 allowed)
      permitted
  · exact (Runs.everyState_of_invariant
      (fun session : Session => session.registry.WellFormed ∧ session.Ownership) start preserved
      permitted).imp fun _ inv => inv.2

theorem registry_deletes_owned_once_external :
    let ops : List Op :=
      [.create (some 1) [] 100, .useExternal 2 101, .activate (some 1), .delete (some 2),
        .delete none]
    (Runs.run (Session.step libstdcxxErasesFront) Session.start ops).deleted = [1] ∧
      Runs.EveryStep (Session.step libstdcxxErasesFront)
        (Session.DeletesOwned libstdcxxErasesFront) Session.start ops := by
  intro ops
  exact ⟨by decide, (registry_deletes_owned_once libstdcxxErasesFront ops (by decide)).1⟩

end CppInterOp
