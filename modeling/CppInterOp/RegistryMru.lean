import CppInterOp.Library.Recency
import CppInterOp.RegistryRuns

/-! The registry refines a list of interpreters in order of most recent use. -/

namespace CppInterOp

def Op.request : Op → Recency.Request Address
  | .create none _ _ => .idle false
  | .create (some interp) _ _ => .append interp
  | .useExternal interp _ => .append interp
  | .activate interp => .activate interp
  | .delete interp => .delete interp
  | _ => .idle true

namespace Registry

theorem WellFormed.absent_before {registry : Registry} (formed : registry.WellFormed)
    {before after : List Slot} {found : Slot} {wanted : Address}
    (split : registry.slots = before ++ found :: after)
    (named : found.info.interpreter = some wanted) :
    wanted ∉ (before.map Slot.tenant).filterMap Tenant.interpreter := by
  have distinct := formed.distinct
  rw [names_of_split split named, List.nodup_append] at distinct
  intro member
  exact distinct.2.2 wanted member wanted (by simp) rfl

theorem activateInterpreter_recency {registry : Registry} (formed : registry.WellFormed)
    (interp : Option Address) :
    (registry.activateInterpreter interp).registry.names =
        Recency.step registry.names (.activate interp) ∧
      (registry.activateInterpreter interp).success =
        Recency.succeeds registry.names (.activate interp) := by
  rcases registry.activateInterpreter_cases interp with
    unchanged | ⟨wanted, before, found, after, rfl, _, activated⟩
  · rw [unchanged.same, unchanged.success]
    cases interp with
    | none => exact ⟨rfl, rfl⟩
    | some wanted =>
        have absent := unchanged.absent wanted rfl
        exact ⟨(Recency.touch_absent absent).symm, by simp [Recency.succeeds, absent]⟩
  · have absent := formed.absent_before activated.split activated.named
    have held := names_of_split activated.split activated.named
    constructor
    · rw [activated.names, held]
      exact (Recency.touch_split absent).symm
    · rw [activated.success, held]
      simp [Recency.succeeds]

theorem deleteInterpreter_recency (erasesFront : Nat → Nat → Bool) {registry : Registry}
    (formed : registry.WellFormed) (interp : Option Address) :
    (registry.deleteInterpreter erasesFront interp).registry.names =
        Recency.step registry.names (.delete interp) ∧
      (registry.deleteInterpreter erasesFront interp).success =
        Recency.succeeds registry.names (.delete interp) := by
  rcases registry.deleteInterpreter_cases erasesFront interp with
    ⟨unchanged, empty⟩ | ⟨before, found, rfl, removed⟩ |
      ⟨wanted, before, found, after, rfl, _, named, removed⟩
  · rw [unchanged.same, unchanged.success]
    cases interp with
    | none =>
        have noNames : registry.names = [] := by simp [Registry.names, tenants, empty rfl]
        simp [Recency.step, Recency.succeeds, noNames]
    | some wanted =>
        have absent := unchanged.absent wanted rfl
        exact ⟨(List.erase_of_not_mem absent).symm, by simp [Recency.succeeds, absent]⟩
  · obtain ⟨last, held⟩ := removed.held formed
    have all := names_of_split removed.split held
    simp only [List.map_nil, List.filterMap_nil] at all
    constructor
    · rw [removed.names, all]
      simp [Recency.step]
    · rw [removed.success, all]
      simp [Recency.succeeds]
  · have absent := formed.absent_before removed.split named
    have held := names_of_split removed.split named
    constructor
    · rw [removed.names, held]
      exact (Recency.erase_split absent).symm
    · rw [removed.success, held]
      simp [Recency.succeeds]

end Registry

theorem Op.perform_recency (erasesFront : Nat → Nat → Bool) {session : Session} {op : Op}
    (formed : session.registry.WellFormed) (allowed : session.Allowed op) :
    (op.perform erasesFront session.registry).registry.names =
        Recency.step session.registry.names op.request ∧
      (op.perform erasesFront session.registry).success =
        Recency.succeeds session.registry.names op.request := by
  have recorded (interp : Address) (write : CacheWrite)
      (records : op.records session.registry = some (interp, write))
      (silent : ∀ view, write ≠ .diagnostic view) :
      (op.perform erasesFront session.registry).registry.names = session.registry.names ∧
        (op.perform erasesFront session.registry).success = true := by
    rw [Op.perform_records formed records silent]
    refine ⟨?_, rfl⟩
    rw [Registry.names, Registry.updateInfo_tenants _ _ write.store_tenant]
    rfl
  cases op with
  | create made argv element =>
      cases made with
      | none => exact ⟨rfl, rfl⟩
      | some interp => exact ⟨Registry.registerInterpreter_names _ _ _ _ _, rfl⟩
  | useExternal interp element => exact ⟨Registry.registerInterpreter_names _ _ _ _ _, rfl⟩
  | activate interp => exact Registry.activateInterpreter_recency formed interp
  | delete interp => exact Registry.deleteInterpreter_recency erasesFront formed interp
  | findBuiltinType populated =>
      obtain ⟨interp, active, _⟩ := formed.active allowed
      exact recorded interp (.builtins populated) (by simp [Op.records, active]) (by simp)
  | makeWrapper interp function compiled => exact recorded _ _ rfl (by simp)
  | makeDtorWrapper interp decl compiled => exact recorded _ _ rfl (by simp)
  | materializeConstArrayValue interp varDecl value => exact recorded _ _ rfl (by simp)
  | emitDiagnostic interp diag =>
      refine ⟨?_, rfl⟩
      simp only [Op.perform, Registry.emitDiagnostic, Registry.names,
        Registry.handleDiagnostic_tenants]
      rfl

/-- Along every run of the registry, the interpreters held and the values returned are those
of the list, a failing operation changes nothing, and the active interpreter is the last. -/
theorem registry_refines_recency_list (erasesFront : Nat → Nat → Bool) (ops : List Op)
    (permitted : Runs.EveryStep (Session.step erasesFront) Session.Allowed Session.start ops) :
    (Runs.run (Session.step erasesFront) Session.start ops).registry.interpreters =
        (Runs.run (fun held op => Recency.step held op.request) [] ops).map some ∧
      (Runs.run (Session.step erasesFront) Session.start ops).registry.getInterpreter =
        (Runs.run (fun held op => Recency.step held op.request) [] ops).getLast? ∧
      Runs.outputs (Session.step erasesFront)
          (fun session op => (op.perform erasesFront session.registry).success) Session.start ops =
        Runs.outputs (fun held op => Recency.step held op.request)
          (fun held op => Recency.succeeds held op.request) [] ops ∧
      Runs.EveryStep (Session.step erasesFront)
        (fun session op => (op.perform erasesFront session.registry).success = false →
          (session.step erasesFront op).registry.interpreters = session.registry.interpreters)
        Session.start ops := by
  have preserved (session : Session) (op : Op) (formed : session.registry.WellFormed)
      (allowed : session.Allowed op) : (session.step erasesFront op).registry.WellFormed :=
    Op.perform_wellFormed formed allowed
  have simulates (session : Session) (op : Op) (formed : session.registry.WellFormed)
      (allowed : session.Allowed op) : (session.step erasesFront op).registry.names =
        Recency.step session.registry.names op.request :=
    (Op.perform_recency erasesFront formed allowed).1
  have formed := (Runs.everyState_of_invariant
    (fun session : Session => session.registry.WellFormed) Registry.empty_wellFormed preserved
    permitted).last
  have names := Runs.run_simulates (fun held op => Recency.step held op.request)
    (fun session : Session => session.registry.names)
    (fun session => session.registry.WellFormed) Registry.empty_wellFormed preserved
    simulates permitted
  refine ⟨?_, ?_, ?_, ?_⟩
  · rw [formed.interpreters, names]
    rfl
  · rw [formed.getInterpreter, names]
    rfl
  · exact Runs.outputs_simulate _ (fun session : Session => session.registry.names)
      (fun session => session.registry.WellFormed) Registry.empty_wellFormed preserved
      simulates (fun session op formed allowed => (Op.perform_recency erasesFront formed allowed).2)
      permitted
  · apply Runs.everyStep_of_invariant (fun session : Session => session.registry.WellFormed)
      Registry.empty_wellFormed preserved _ permitted
    intro session op formed allowed failed
    have agree := Op.perform_recency erasesFront formed allowed
    rw [agree.2] at failed
    rw [(preserved session op formed allowed).interpreters, formed.interpreters,
      simulates session op formed allowed, Recency.step_of_failure failed]

theorem registry_refines_recency_list_three :
    let ops : List Op :=
      [.create (some 1) [] 100, .create (some 2) [] 101, .create (some 3) [] 102,
        .activate (some 2), .delete (some 1), .delete (some 7)]
    Runs.EveryStep (Session.step libstdcxxErasesFront) Session.Allowed Session.start ops ∧
      (Runs.run (Session.step libstdcxxErasesFront) Session.start ops).registry.interpreters =
        [some 3, some 2] := by
  intro ops
  have permitted : Runs.EveryStep (Session.step libstdcxxErasesFront) Session.Allowed
      Session.start ops := by decide
  exact ⟨permitted, (registry_refines_recency_list libstdcxxErasesFront ops permitted).1⟩

end CppInterOp
