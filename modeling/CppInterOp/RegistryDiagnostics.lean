import CppInterOp.RegistryRuns

/-! Diagnostics: when the consumers of an interpreter point at the element that holds it. -/

namespace CppInterOp

/-- Every registered interpreter has a consumer, and a consumer points at the element found
for its interpreter, which is one of the deque. -/
structure Registry.DiagnosticsRouted (registry : Registry) : Prop where
  installed : ∀ interp ∈ registry.names, registry.consumers interp ≠ []
  referred : ∀ interp, ∀ element ∈ registry.consumers interp,
    interp ∈ registry.names ∧ registry.getInterpInfo (some interp) = some element
  placed : ∀ interp, ∀ element ∈ registry.consumers interp, element ∈ registry.addresses

/-- A diagnostic is appended to the element of its interpreter and written nowhere else. -/
def Session.DiagnosticAppended (erasesFront : Nat → Nat → Bool) (session : Session) : Op → Prop
  | .emitDiagnostic interp diag =>
      (session.step erasesFront (.emitDiagnostic interp diag)).registry.slots =
          session.registry.slots.map (fun slot =>
            if slot.info.interpreter = some interp then
              { slot with info := { slot.info with
                storedDiags := slot.info.storedDiags ++ [diag.view] } }
            else slot) ∧
        (session.step erasesFront (.emitDiagnostic interp diag)).strays = session.strays
  | _ => True

/-- The steps that leave every element in place: only the last element is activated, and only
an owned element is removed, from the end at which the deque gives an element back. -/
def Op.KeepsRoutes (erasesFront : Nat → Nat → Bool) (registry : Registry) : Op → Prop
  | .activate (some interp) => ∀ parts ∈ findInterp interp registry.slots, parts.2.2 = []
  | .delete none => ∀ last ∈ registry.slots.getLast?, last.info.isOwned = true
  | .delete (some interp) => ∀ parts ∈ findInterp interp registry.slots,
      parts.2.1.info.isOwned = true ∧
        (if erasesFront parts.1.length registry.slots.length then parts.1 else parts.2.2) = []
  | _ => True

instance Op.decidableKeepsRoutes (erasesFront : Nat → Nat → Bool) (registry : Registry) :
    ∀ op : Op, Decidable (op.KeepsRoutes erasesFront registry)
  | .activate none => inferInstanceAs (Decidable True)
  | .activate (some _) => inferInstanceAs (Decidable (∀ _ ∈ _, _ = _))
  | .delete none => inferInstanceAs (Decidable (∀ _ ∈ _, _ = _))
  | .delete (some _) => inferInstanceAs (Decidable (∀ _ ∈ _, _ ∧ _ = _))
  | .emitDiagnostic _ _ | .create _ _ _ | .useExternal _ _ | .findBuiltinType _
  | .makeWrapper _ _ _ | .makeDtorWrapper _ _ _ | .materializeConstArrayValue _ _ _ =>
      inferInstanceAs (Decidable True)

namespace Registry

def routes (registry : Registry) : List (Tenant × Address) :=
  registry.tenants.zip registry.addresses

structure Routed (registry : Registry) : Prop where
  own : ∀ route ∈ registry.routes, ∀ interp, route.1.interpreter = some interp →
    registry.consumers interp = [route.2]
  silent : ∀ interp, interp ∉ registry.names → registry.consumers interp = []

theorem routes_eq (registry : Registry) :
    registry.routes = registry.slots.map fun slot => (slot.tenant, slot.address) := by
  rw [routes, tenants, addresses, List.zip_map']

theorem Routed.slot {registry : Registry} (routed : registry.Routed) {slot : Slot}
    (member : slot ∈ registry.slots) {interp : Address}
    (held : slot.info.interpreter = some interp) : registry.consumers interp = [slot.address] := by
  refine routed.own (slot.tenant, slot.address) ?_ interp held
  rw [routes_eq]
  exact List.mem_map.mpr ⟨slot, member, rfl⟩

theorem Routed.of_same {registry other : Registry} (routed : registry.Routed)
    (tenants : other.tenants = registry.tenants) (addresses : other.addresses = registry.addresses)
    (consumers : other.consumers = registry.consumers) : other.Routed := by
  have routes : other.routes = registry.routes := by rw [Registry.routes, tenants, addresses]; rfl
  have names : other.names = registry.names := by rw [Registry.names, tenants]; rfl
  refine ⟨?_, ?_⟩
  · rw [routes, consumers]
    exact routed.own
  · rw [names, consumers]
    exact routed.silent

theorem Routed.register {registry : Registry} (routed : registry.Routed) {interp element : Address}
    (newName : interp ∉ registry.names) (owned : Bool) (argv : List String) :
    (registry.registerInterpreter interp owned argv element).Routed := by
  have consumers (other : Address) :
      (registry.registerInterpreter interp owned argv element).consumers other =
        if other = interp then [element] else registry.consumers other := by
    simp [registerInterpreter, installDiagConsumer, routed.silent interp newName]
  refine ⟨?_, ?_⟩
  · intro route member other held
    rw [routes_eq] at member
    simp only [registerInterpreter, installDiagConsumer, List.map_append, List.mem_append,
      List.map_cons, List.map_nil, List.mem_singleton] at member
    rw [consumers]
    rcases member with old | rfl
    · obtain ⟨slot, slotMember, rfl⟩ := List.mem_map.mp old
      have different : other ≠ interp := by
        rintro rfl
        exact newName (mem_names.mpr ⟨slot, slotMember, held⟩)
      rw [if_neg different]
      exact routed.slot slotMember held
    · obtain rfl : interp = other := Option.some.inj held
      simp
  · intro other absent
    rw [registerInterpreter_names, List.mem_append, List.mem_singleton, not_or] at absent
    rw [consumers, if_neg absent.2]
    exact routed.silent other absent.1

theorem DiagnosticsRouted.slot {registry : Registry} (diagnostics : registry.DiagnosticsRouted)
    (formed : registry.WellFormed) {interp element : Address}
    (consumer : element ∈ registry.consumers interp) :
    ∃ slot ∈ registry.slots, slot.info.interpreter = some interp ∧ slot.address = element := by
  obtain ⟨named, found⟩ := diagnostics.referred interp element consumer
  obtain ⟨slot, member, held⟩ := mem_names.mp named
  have address := formed.getInterpInfo member
  rw [held, found, Option.some.injEq] at address
  exact ⟨slot, member, held, address.symm⟩

theorem Routed.diagnosticsRouted {registry : Registry} (routed : registry.Routed)
    (formed : registry.WellFormed) : registry.DiagnosticsRouted := by
  have located (interp element : Address) (consumer : element ∈ registry.consumers interp) :
      ∃ slot ∈ registry.slots, slot.info.interpreter = some interp ∧ element = slot.address := by
    by_cases named : interp ∈ registry.names
    · obtain ⟨slot, member, held⟩ := mem_names.mp named
      rw [routed.slot member held, List.mem_singleton] at consumer
      exact ⟨slot, member, held, consumer⟩
    · rw [routed.silent interp named] at consumer
      exact absurd consumer List.not_mem_nil
  refine ⟨?_, ?_, ?_⟩
  · intro interp named
    obtain ⟨slot, member, held⟩ := mem_names.mp named
    simp [routed.slot member held]
  · intro interp element consumer
    obtain ⟨slot, member, held, rfl⟩ := located interp element consumer
    exact ⟨mem_names.mpr ⟨slot, member, held⟩, held ▸ formed.getInterpInfo member⟩
  · intro interp element consumer
    obtain ⟨slot, member, _, rfl⟩ := located interp element consumer
    exact List.mem_map.mpr ⟨slot, member, rfl⟩

theorem Activated.routed {registry : Registry} {wanted : Address} {before after : List Slot}
    {found : Slot} {outcome : Outcome}
    (activated : Activated registry wanted before found after outcome) (routed : registry.Routed)
    (still : after = []) : outcome.registry.Routed := by
  refine routed.of_same ?_ ?_ activated.consumers
  · rw [activated.tenants, still, Registry.tenants, activated.split, still]
    simp
  · rw [addresses_eq, activated.places, ← addresses_eq]

theorem Activated.still {registry : Registry} {wanted : Address} {before after : List Slot}
    {found : Slot} {outcome : Outcome}
    (activated : Activated registry wanted before found after outcome)
    (formed : registry.WellFormed) (routed : registry.Routed)
    (diagnostics : outcome.registry.DiagnosticsRouted) : after = [] := by
  have formedAfter := activated.wellFormed formed
  have consumer : found.address ∈ outcome.registry.consumers wanted := by
    rw [activated.consumers, routed.slot (by simp [activated.split]) activated.named]
    exact List.mem_singleton_self _
  obtain ⟨slot, member, held, address⟩ := diagnostics.slot formedAfter consumer
  obtain ⟨last, ending, lastHeld⟩ : ∃ last, outcome.registry.slots.getLast? = some last ∧
      last.info.interpreter = some wanted := by
    have active := formedAfter.getInterpreter
    rw [activated.names, ← List.append_assoc, List.getLast?_concat, getInterpreter] at active
    exact Option.bind_eq_some_iff.mp active
  have same := formedAfter.same_interpreter member (List.mem_of_getLast? ending)
    (held.trans lastHeld.symm)
  have lastAddress : registry.addresses.getLast? = some found.address := by
    have kept : outcome.registry.addresses = registry.addresses := by
      rw [addresses_eq, activated.places, ← addresses_eq]
    rw [← kept, addresses, List.getLast?_map, ending, Option.map_some, ← same, address]
  have placed := formed.placed
  rw [addresses, activated.split, List.map_append, List.map_cons] at placed lastAddress
  by_contra nonempty
  have inAfter : found.address ∈ after.map Slot.address := by
    rw [List.getLast?_append_of_ne_nil _ (by simp),
      List.getLast?_cons_of_ne_nil (by simpa using nonempty)] at lastAddress
    exact List.mem_of_getLast? lastAddress
  exact (List.nodup_cons.mp (List.nodup_append.mp placed).2.1).1 inAfter

theorem Removed.routed {registry : Registry} {wanted : Address} {before after : List Slot}
    {found : Slot} {front : Bool} {outcome : Outcome}
    (removed : Removed registry before found after front outcome) (formed : registry.WellFormed)
    (routed : registry.Routed) (named : found.info.interpreter = some wanted)
    (owned : found.info.isOwned = true) (still : (if front then before else after) = []) :
    outcome.registry.Routed := by
  have gone := removed.gone formed named
  have consumers (interp : Address) : outcome.registry.consumers interp =
      if interp = wanted then [] else registry.consumers interp := by
    rw [removed.consumers]
    simp [destroyEngines, Slot.deletes, InterpreterInfo.deletes, owned, named]
  have routes : outcome.registry.routes =
      (before ++ after).map fun slot => (slot.tenant, slot.address) := by
    rw [Registry.routes, removed.tenants, removed.addresses, Registry.addresses, removed.split,
      ← List.map_append]
    cases front
    · rw [if_neg Bool.false_ne_true] at still ⊢
      subst after
      simp [List.zip_map']
    · rw [if_pos rfl] at still ⊢
      subst before
      simp [List.zip_map']
  refine ⟨?_, ?_⟩
  · intro route member interp held
    have nameKept : interp ∈ outcome.registry.names := by
      rw [Registry.names]
      exact List.mem_filterMap.mpr ⟨route.1, (List.of_mem_zip member).1, held⟩
    have different : interp ≠ wanted := by
      rintro rfl
      exact gone nameKept
    rw [routes] at member
    obtain ⟨slot, slotMember, rfl⟩ := List.mem_map.mp member
    rw [consumers, if_neg different]
    refine routed.slot ?_ held
    rw [removed.split]
    rcases List.mem_append.mp slotMember with earlier | later
    · exact List.mem_append_left _ earlier
    · exact List.mem_append_right _ (List.mem_cons_of_mem _ later)
  · intro interp absent
    rw [consumers]
    by_cases same : interp = wanted
    · rw [if_pos same]
    · rw [if_neg same]
      apply routed.silent
      intro present
      apply absent
      rw [names_of_split removed.split named] at present
      rw [removed.names]
      simpa [same] using present

theorem Removed.still {registry : Registry} {wanted : Address} {before after : List Slot}
    {found : Slot} {front : Bool} {outcome : Outcome}
    (removed : Removed registry before found after front outcome) (formed : registry.WellFormed)
    (routed : registry.Routed) (named : found.info.interpreter = some wanted)
    (diagnostics : outcome.registry.DiagnosticsRouted) :
    found.info.isOwned = true ∧ (if front then before else after) = [] := by
  have foundMember : found ∈ registry.slots := by simp [removed.split]
  have owned : found.info.isOwned = true := by
    -- an external interpreter stays alive and keeps its consumer
    by_contra external
    have consumer : found.address ∈ outcome.registry.consumers wanted := by
      rw [removed.consumers]
      simp [destroyEngines, Slot.deletes, InterpreterInfo.deletes, external,
        routed.slot foundMember named]
    exact removed.gone formed named (diagnostics.referred wanted _ consumer).1
  -- an element whose address is gone would leave its consumer pointing nowhere
  have vanished (slot : Slot) (member : slot ∈ registry.slots)
      (gone : slot.address ∉ outcome.registry.addresses) : slot = found := by
    obtain ⟨interp, held⟩ := formed.held member
    by_cases same : interp = wanted
    · exact formed.same_interpreter member foundMember (by rw [held, named, same])
    · have consumer : slot.address ∈ outcome.registry.consumers interp := by
        rw [removed.consumers]
        simp [destroyEngines, Slot.deletes, InterpreterInfo.deletes, owned, named, same,
          routed.slot member held]
      exact absurd (diagnostics.placed interp _ consumer) gone
  have placed := formed.placed
  have addressesAfter := removed.addresses
  have addressesBefore : registry.addresses = (before ++ found :: after).map Slot.address := by
    rw [Registry.addresses, removed.split]
  rw [addressesBefore] at placed addressesAfter
  refine ⟨owned, ?_⟩
  cases front
  · rw [if_neg Bool.false_ne_true] at addressesAfter ⊢
    rcases List.eq_nil_or_concat after with nothing | ⟨rest, last, ending⟩
    · exact nothing
    · subst after
      rw [List.concat_eq_append, ← List.cons_append, ← List.append_assoc, List.map_append,
        List.map_singleton] at placed addressesAfter
      have lastGone : last.address ∉ (before ++ found :: rest).map Slot.address := by
        intro earlier
        exact (List.nodup_append.mp placed).2.2 _ earlier _ (List.mem_singleton_self _) rfl
      have same := vanished last (by simp [removed.split])
        (by rw [addressesAfter, List.dropLast_concat]; exact lastGone)
      rw [same] at lastGone
      exact absurd (List.mem_map.mpr ⟨found, by simp, rfl⟩) lastGone
  · rw [if_pos rfl] at addressesAfter ⊢
    cases before with
    | nil => rfl
    | cons first rest =>
        have firstGone : first.address ∉ (rest ++ found :: after).map Slot.address :=
          (List.nodup_cons.mp placed).1
        have same := vanished first (by simp [removed.split]) (by rw [addressesAfter]; exact firstGone)
        rw [same] at firstGone
        exact absurd (List.mem_map.mpr ⟨found, by simp, rfl⟩) firstGone

end Registry

namespace Session

theorem diagnosticAppended_of_routed (erasesFront : Nat → Nat → Bool) {session : Session} {op : Op}
    (formed : session.registry.WellFormed) (routed : session.registry.Routed)
    (allowed : session.Allowed op) : session.DiagnosticAppended erasesFront op := by
  cases op with
  | emitDiagnostic interp diag =>
      have named : interp ∈ session.registry.names := by
        by_contra absent
        exact allowed.elim absent fun consumer => consumer (routed.silent interp absent)
      obtain ⟨owner, ownerMember, held⟩ := Registry.mem_names.mp named
      have chain := routed.slot ownerMember held
      constructor
      · refine (Registry.handleDiagnostic_slots session.registry diag.view
          (session.registry.consumers interp)).trans ?_
        apply List.map_congr_left
        intro slot member
        rw [chain]
        by_cases own : slot.info.interpreter = some interp
        · have same := formed.same_interpreter member ownerMember (own.trans held.symm)
          simp [same, held]
        · have different : owner.address ≠ slot.address := by
            intro same
            exact own (formed.same_address ownerMember member same ▸ held)
          simp [own, different]
      · have strays : (Op.emitDiagnostic interp diag).strays session.registry = _ :=
          Registry.handleDiagnostic_strays session.registry diag.view
            (session.registry.consumers interp)
        have inside : owner.address ∈ session.registry.addresses :=
          List.mem_map.mpr ⟨owner, ownerMember, rfl⟩
        simp [step, strays, chain, inside]
  | _ => trivial

end Session

namespace Op

theorem perform_routed (erasesFront : Nat → Nat → Bool) {session : Session} {op : Op}
    (formed : session.registry.WellFormed) (routed : session.registry.Routed)
    (allowed : session.Allowed op) (keeps : op.KeepsRoutes erasesFront session.registry) :
    (op.perform erasesFront session.registry).registry.Routed := by
  have recorded (interp : Address) (write : CacheWrite)
      (records : op.records session.registry = some (interp, write))
      (silent : ∀ view, write ≠ .diagnostic view) :
      (op.perform erasesFront session.registry).registry.Routed := by
    rw [Op.perform_records formed records silent]
    exact routed.of_same (Registry.updateInfo_tenants _ _ write.store_tenant)
      (Registry.updateInfo_addresses _ _ _) (Registry.updateInfo_consumers _ _ _)
  cases op with
  | create made argv element =>
      cases made with
      | none => exact routed
      | some interp =>
          have fresh : (session.registry.destroyEngines [interp]).Routed := by
            refine routed.of_same rfl rfl ?_
            funext other
            by_cases same : other = interp
            · subst other
              simp [Registry.destroyEngines, routed.silent interp allowed.1]
            · simp [Registry.destroyEngines, same]
          exact fresh.register allowed.1 true argv
  | useExternal interp element => exact routed.register allowed.1 false []
  | activate interp =>
      rcases session.registry.activateInterpreter_cases interp with
        unchanged | ⟨wanted, before, found, after, rfl, result, activated⟩
      · simp only [perform, unchanged.same]
        exact routed
      · exact activated.routed routed (keeps _ result)
  | delete interp =>
      rcases session.registry.deleteInterpreter_cases erasesFront interp with
        ⟨unchanged, _⟩ | ⟨before, found, rfl, removed⟩ |
          ⟨wanted, before, found, after, rfl, result, named, removed⟩
      · simp only [perform, unchanged.same]
        exact routed
      · obtain ⟨last, held⟩ := removed.held formed
        exact removed.routed formed routed held (keeps found (by simp [removed.split])) rfl
      · obtain ⟨owned, still⟩ := keeps _ result
        exact removed.routed formed routed named owned still
  | findBuiltinType populated =>
      obtain ⟨interp, active, _⟩ := formed.active allowed
      exact recorded interp (.builtins populated) (by simp [Op.records, active]) (by simp)
  | makeWrapper interp function compiled => exact recorded _ _ rfl (by simp)
  | makeDtorWrapper interp decl compiled => exact recorded _ _ rfl (by simp)
  | materializeConstArrayValue interp varDecl value => exact recorded _ _ rfl (by simp)
  | emitDiagnostic interp diag =>
      exact routed.of_same (Registry.handleDiagnostic_tenants _ _ _)
        (Registry.handleDiagnostic_addresses _ _ _) (Registry.handleDiagnostic_consumers _ _ _)

theorem keepsRoutes_of_diagnosticsRouted (erasesFront : Nat → Nat → Bool) {session : Session}
    {op : Op} (formed : session.registry.WellFormed) (routed : session.registry.Routed)
    (diagnostics : (op.perform erasesFront session.registry).registry.DiagnosticsRouted) :
    op.KeepsRoutes erasesFront session.registry := by
  cases op with
  | activate interp =>
      rcases session.registry.activateInterpreter_cases interp with
        unchanged | ⟨wanted, before, found, after, rfl, result, activated⟩
      · cases interp with
        | none => trivial
        | some wanted => simp [KeepsRoutes, unchanged.findInterp rfl]
      · have still := activated.still formed routed diagnostics
        simpa [KeepsRoutes, result] using still
  | delete interp =>
      rcases session.registry.deleteInterpreter_cases erasesFront interp with
        ⟨unchanged, empty⟩ | ⟨before, found, rfl, removed⟩ |
          ⟨wanted, before, found, after, rfl, result, named, removed⟩
      · cases interp with
        | none => simp [KeepsRoutes, empty rfl]
        | some wanted => simp [KeepsRoutes, unchanged.findInterp rfl]
      · obtain ⟨last, held⟩ := removed.held formed
        have owned := (removed.still formed routed held diagnostics).1
        simpa [KeepsRoutes, removed.split] using owned
      · have still := removed.still formed routed named diagnostics
        simpa only [KeepsRoutes, result, Option.mem_some_iff, forall_eq'] using still
  | _ => trivial

end Op

/-- Along a run every consumer points at the element of its interpreter, so that diagnostics
reach it and no other, exactly when no step moves an interpreter to another element or removes
an external one. -/
theorem registry_diagnostics_routed_iff (erasesFront : Nat → Nat → Bool) (ops : List Op)
    (permitted : Runs.EveryStep (Session.step erasesFront) Session.Allowed Session.start ops) :
    (Runs.EveryState (Session.step erasesFront)
          (fun session => session.registry.DiagnosticsRouted) Session.start ops ∧
        Runs.EveryStep (Session.step erasesFront) (Session.DiagnosticAppended erasesFront)
          Session.start ops) ↔
      Runs.EveryStep (Session.step erasesFront)
        (fun session op => op.KeepsRoutes erasesFront session.registry) Session.start ops := by
  have start : Session.start.registry.WellFormed ∧ Session.start.registry.Routed :=
    ⟨Registry.empty_wellFormed, ⟨by simp [Session.start, Registry.empty, Registry.routes,
      Registry.tenants], fun _ _ => rfl⟩⟩
  have preserved (session : Session) (op : Op)
      (inv : session.registry.WellFormed ∧ session.registry.Routed) (allowed : session.Allowed op)
      (keeps : op.KeepsRoutes erasesFront session.registry) :
      (session.step erasesFront op).registry.WellFormed ∧
        (session.step erasesFront op).registry.Routed :=
    ⟨Op.perform_wellFormed inv.1 allowed,
      Op.perform_routed erasesFront inv.1 inv.2 allowed keeps⟩
  have states := Runs.everyState_iff_everyStep
    (fun session : Session => session.registry.WellFormed ∧ session.registry.Routed)
    (fun session => session.registry.DiagnosticsRouted) start
    (fun _ inv => inv.2.diagnosticsRouted inv.1)
    (fun session op inv allowed =>
      ⟨Op.keepsRoutes_of_diagnosticsRouted erasesFront inv.1 inv.2, fun keeps =>
        have next := preserved session op inv allowed keeps
        next.2.diagnosticsRouted next.1⟩) preserved permitted
  constructor
  · intro every
    exact states.mp every.1
  · intro keeps
    refine ⟨states.mpr keeps, ?_⟩
    exact Runs.everyStep_of_invariant
      (fun session : Session => session.registry.WellFormed ∧ session.registry.Routed) start
      (fun session op inv permits => preserved session op inv permits.1 permits.2)
      (fun session op inv permits =>
        Session.diagnosticAppended_of_routed erasesFront inv.1 inv.2 permits.1)
      (permitted.and keeps)

theorem registry_diagnostics_routed_iff_last :
    let ops : List Op :=
      [.create (some 1) [] 100, .create (some 2) [] 101, .activate (some 2), .delete (some 2),
        .emitDiagnostic 1 ⟨.error, "undeclared identifier", none⟩]
    Runs.EveryState (Session.step libstdcxxErasesFront)
        (fun session => session.registry.DiagnosticsRouted) Session.start ops ∧
      Runs.EveryStep (Session.step libstdcxxErasesFront)
        (Session.DiagnosticAppended libstdcxxErasesFront) Session.start ops :=
  (registry_diagnostics_routed_iff libstdcxxErasesFront _ (by decide)).mpr (by decide)

theorem registry_diagnostics_misrouted :
    let ops : List Op :=
      [.create (some 1) [] 100, .create (some 2) [] 101, .activate (some 1),
        .emitDiagnostic 1 ⟨.error, "undeclared identifier", none⟩]
    Runs.EveryStep (Session.step libstdcxxErasesFront) Session.Allowed Session.start ops ∧
      ¬ Runs.EveryState (Session.step libstdcxxErasesFront)
        (fun session => session.registry.DiagnosticsRouted) Session.start ops ∧
      ¬ Runs.EveryStep (Session.step libstdcxxErasesFront)
        (Session.DiagnosticAppended libstdcxxErasesFront) Session.start ops := by
  intro ops
  refine ⟨by decide, ?_, ?_⟩
  · intro every
    have routed := every.last.referred 1 100 (by decide)
    exact absurd routed (by decide)
  · intro every
    have appended := every.2.2.2.1.1
    revert appended
    decide

end CppInterOp
