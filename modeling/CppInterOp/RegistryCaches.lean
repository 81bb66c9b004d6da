import CppInterOp.RegistryRuns

/-! The caches of an interpreter: when the element that holds it also holds what was
recorded for it. -/

namespace CppInterOp

/-- The element that holds an interpreter holds exactly what was recorded for it. -/
def Session.CachesFollow (session : Session) : Prop :=
  ∀ slot ∈ session.registry.slots, ∀ interp ∈ slot.info.interpreter,
    slot.info.caches = session.recorded interp

instance Session.decidableCachesFollow (session : Session) : Decidable session.CachesFollow :=
  inferInstanceAs (Decidable (∀ _ ∈ _, ∀ _ ∈ _, _ = _))

/-- The steps that leave the caches with their interpreter: the elements shifted over one
another hold equal caches, and a diagnostic reaches the element of its interpreter once and no
other element. -/
def Op.KeepsCaches (erasesFront : Nat → Nat → Bool) (registry : Registry) : Op → Prop
  | .activate (some interp) =>
      ∀ parts ∈ findInterp interp registry.slots,
        ∀ slot ∈ parts.2.2, slot.info.caches = parts.2.1.info.caches
  | .delete (some interp) =>
      ∀ parts ∈ findInterp interp registry.slots,
        ∀ slot ∈ if erasesFront parts.1.length registry.slots.length then parts.1 else parts.2.2,
          slot.info.caches = parts.2.1.info.caches
  | .emitDiagnostic interp _ =>
      ∀ slot ∈ registry.slots, (registry.consumers interp).count slot.address =
        if slot.info.interpreter = some interp then 1 else 0
  | _ => True

instance Op.decidableKeepsCaches (erasesFront : Nat → Nat → Bool) (registry : Registry) :
    ∀ op : Op, Decidable (op.KeepsCaches erasesFront registry)
  | .activate none | .delete none => inferInstanceAs (Decidable True)
  | .activate (some _) => inferInstanceAs (Decidable (∀ _ ∈ _, ∀ _ ∈ _, _ = _))
  | .delete (some _) => inferInstanceAs (Decidable (∀ _ ∈ _, ∀ _ ∈ _, _ = _))
  | .emitDiagnostic _ _ => inferInstanceAs (Decidable (∀ _ ∈ _, _ = _))
  | .create _ _ _ | .useExternal _ _ | .findBuiltinType _ | .makeWrapper _ _ _
  | .makeDtorWrapper _ _ _ | .materializeConstArrayValue _ _ _ => inferInstanceAs (Decidable True)

namespace Registry

def stored (registry : Registry) : List Caches := registry.places.map Prod.snd

theorem stored_eq (registry : Registry) :
    registry.stored = registry.slots.map fun slot => slot.info.caches := by
  simp only [stored, places, List.map_map]
  rfl

theorem stored_of_split {registry : Registry} {before after : List Slot} {found : Slot}
    (split : registry.slots = before ++ found :: after) :
    registry.stored = before.map (fun slot => slot.info.caches) ++
      found.info.caches :: after.map fun slot => slot.info.caches := by
  rw [stored_eq, split, List.map_append, List.map_cons]

end Registry

theorem follow_iff (recorded : Address → Caches) {slots : List Slot}
    (present : ∀ slot ∈ slots, slot.info.interpreter ≠ none) :
    (∀ slot ∈ slots, ∀ interp, slot.info.interpreter = some interp →
        slot.info.caches = recorded interp) ↔
      (slots.map fun slot => slot.info.caches) =
        ((slots.map Slot.tenant).filterMap Tenant.interpreter).map recorded := by
  induction slots with
  | nil => simp
  | cons slot rest ih =>
      have tail := ih fun other member => present other (List.mem_cons_of_mem _ member)
      obtain ⟨interp, held⟩ :=
        Option.ne_none_iff_exists'.mp (present slot (List.mem_cons_self ..))
      have named : slot.tenant.interpreter = some interp := held
      rw [List.forall_mem_cons, tail, List.map_cons, List.map_cons,
        List.filterMap_cons_some named, List.map_cons, List.cons.injEq]
      simp [held]

namespace Session

theorem present_of_formed {session : Session} (formed : session.registry.WellFormed) :
    ∀ slot ∈ session.registry.slots, slot.info.interpreter ≠ none := by
  intro slot member
  obtain ⟨interp, held⟩ := formed.held member
  simp [held]

theorem cachesFollow_iff {session : Session} (formed : session.registry.WellFormed) :
    session.CachesFollow ↔
      session.registry.stored = session.registry.names.map session.recorded := by
  rw [Registry.stored_eq]
  exact follow_iff session.recorded (present_of_formed formed)

theorem CachesFollow.split {session : Session} {before after : List Slot} {found : Slot}
    {wanted : Address} (follow : session.CachesFollow) (formed : session.registry.WellFormed)
    (split : session.registry.slots = before ++ found :: after)
    (named : found.info.interpreter = some wanted) :
    ((before.map Slot.tenant).filterMap Tenant.interpreter).map session.recorded =
        before.map (fun slot => slot.info.caches) ∧
      session.recorded wanted = found.info.caches ∧
      ((after.map Slot.tenant).filterMap Tenant.interpreter).map session.recorded =
        after.map fun slot => slot.info.caches := by
  have present := present_of_formed formed
  have part (slots : List Slot) (inside : slots ⊆ session.registry.slots) :
      ((slots.map Slot.tenant).filterMap Tenant.interpreter).map session.recorded =
        slots.map fun slot => slot.info.caches :=
    ((follow_iff session.recorded fun slot member => present slot (inside member)).mp
      fun slot member => follow slot (inside member)).symm
  refine ⟨part before ?_, ?_, part after ?_⟩
  · rw [split]
    exact List.subset_append_left _ _
  · exact (follow found (by simp [split]) wanted named).symm
  · rw [split]
    exact List.Subset.trans (List.subset_cons_self _ _) (List.subset_append_right _ _)

theorem cachesFollow_of_same {session next : Session} (follow : session.CachesFollow)
    (slots : next.registry.slots = session.registry.slots)
    (recorded : next.recorded = session.recorded) : next.CachesFollow := by
  intro slot member interp held
  rw [recorded]
  exact follow slot (slots ▸ member) interp held

theorem activate_cachesFollow_iff {erasesFront : Nat → Nat → Bool} {session : Session}
    {interp : Option Address} (formed : session.registry.WellFormed)
    (follow : session.CachesFollow) :
    (session.step erasesFront (.activate interp)).CachesFollow ↔
      (Op.activate interp).KeepsCaches erasesFront session.registry := by
  have formedAfter : (session.step erasesFront (.activate interp)).registry.WellFormed :=
    Op.perform_wellFormed formed (show session.Allowed (.activate interp) from trivial)
  rcases session.registry.activateInterpreter_cases interp with
    unchanged | ⟨wanted, before, found, after, rfl, result, activated⟩
  · have kept : (Op.activate interp).KeepsCaches erasesFront session.registry := by
      cases interp with
      | none => trivial
      | some wanted => simp [Op.KeepsCaches, unchanged.findInterp rfl]
    have same : (session.step erasesFront (.activate interp)).registry.slots =
        session.registry.slots := congrArg Registry.slots unchanged.same
    exact iff_of_true (cachesFollow_of_same follow same rfl) kept
  · obtain ⟨earlier, own, later⟩ := follow.split formed activated.split activated.named
    have stored : (session.step erasesFront (.activate (some wanted))).registry.stored =
        session.registry.stored := congrArg (List.map Prod.snd) activated.places
    have names : (session.step erasesFront (.activate (some wanted))).registry.names = _ :=
      activated.names
    have recorded : (session.step erasesFront (.activate (some wanted))).recorded =
        session.recorded := rfl
    rw [cachesFollow_iff formedAfter, stored, Registry.stored_of_split activated.split, names,
      recorded, List.map_append, List.map_append, earlier, later, List.append_cancel_left_eq,
      List.map_cons, List.map_nil, own, eq_comm, Cascade.rotated_eq_iff]
    simp [Op.KeepsCaches, result]

theorem delete_cachesFollow_iff {erasesFront : Nat → Nat → Bool} {session : Session}
    {interp : Option Address} (formed : session.registry.WellFormed)
    (follow : session.CachesFollow) :
    (session.step erasesFront (.delete interp)).CachesFollow ↔
      (Op.delete interp).KeepsCaches erasesFront session.registry := by
  have formedAfter : (session.step erasesFront (.delete interp)).registry.WellFormed :=
    Op.perform_wellFormed formed (show session.Allowed (.delete interp) from trivial)
  have recorded : (session.step erasesFront (.delete interp)).recorded = session.recorded := rfl
  have storedAfter {before after : List Slot} {found : Slot} {front : Bool}
      (removed : Registry.Removed session.registry before found after front
        (session.registry.deleteInterpreter erasesFront interp)) :
      (session.step erasesFront (.delete interp)).registry.stored =
        if front then session.registry.stored.tail else session.registry.stored.dropLast := by
    have places := congrArg (List.map Prod.snd) removed.places
    simp only [apply_ite (List.map Prod.snd), List.map_tail, List.map_dropLast] at places
    exact places
  rcases session.registry.deleteInterpreter_cases erasesFront interp with
    ⟨unchanged, _⟩ | ⟨before, found, rfl, removed⟩ |
      ⟨wanted, before, found, after, rfl, result, named, removed⟩
  · have kept : (Op.delete interp).KeepsCaches erasesFront session.registry := by
      cases interp with
      | none => trivial
      | some wanted => simp [Op.KeepsCaches, unchanged.findInterp rfl]
    have same : (session.step erasesFront (.delete interp)).registry.slots =
        session.registry.slots := congrArg Registry.slots unchanged.same
    exact iff_of_true (cachesFollow_of_same follow same rfl) kept
  · obtain ⟨last, held⟩ := removed.held formed
    obtain ⟨earlier, _, _⟩ := follow.split formed removed.split held
    have names : (session.step erasesFront (.delete none)).registry.names = _ := removed.names
    refine iff_of_true ?_ trivial
    rw [cachesFollow_iff formedAfter, storedAfter removed, names, recorded,
      Registry.stored_of_split removed.split, List.map_append, earlier]
    simp
  · obtain ⟨earlier, own, later⟩ := follow.split formed removed.split named
    have names : (session.step erasesFront (.delete (some wanted))).registry.names = _ :=
      removed.names
    rw [cachesFollow_iff formedAfter, storedAfter removed, names, recorded,
      Registry.stored_of_split removed.split, List.map_append, earlier, later]
    simp only [Op.KeepsCaches, result, Option.mem_some_iff]
    by_cases front : erasesFront before.length session.registry.slots.length = true
    · simp only [front, if_true, Cascade.tail_eq_iff]
      simp [front]
    · simp only [front]
      rw [if_neg Bool.false_ne_true, List.dropLast_append_of_ne_nil (by simp),
        List.append_cancel_left_eq, Cascade.dropLast_eq_iff]
      simp [front]

theorem register_cachesFollow {erasesFront : Nat → Nat → Bool} {session : Session} {op : Op}
    {interp : Address} {owned : Bool} {argv : List String} {element : Address}
    (follow : session.CachesFollow) (newName : interp ∉ session.registry.names)
    (registers : op.registers = some (interp, owned))
    (slots : (op.perform erasesFront session.registry).registry.slots =
      session.registry.slots ++ [⟨element, .construct interp owned argv⟩]) :
    (session.step erasesFront op).CachesFollow := by
  have recorded : (session.step erasesFront op).recorded =
      Function.update session.recorded interp {} := by
    simp [step, recordedAfter, registers]
  intro slot member holder held
  rw [recorded]
  rw [show (session.step erasesFront op).registry.slots = _ from slots] at member
  rcases List.mem_append.mp member with old | new
  · have other : holder ≠ interp := by
      intro same
      exact newName (Registry.mem_names.mpr ⟨slot, old, same ▸ held⟩)
    rw [Function.update_of_ne other]
    exact follow slot old holder held
  · rw [List.mem_singleton] at new
    subst slot
    obtain rfl := Option.some.inj held
    rw [Function.update_self]
    rfl

theorem record_cachesFollow {erasesFront : Nat → Nat → Bool} {session : Session} {op : Op}
    {interp : Address} {write : CacheWrite} (formed : session.registry.WellFormed)
    (follow : session.CachesFollow) (registers : op.registers = none)
    (records : op.records session.registry = some (interp, write))
    (silent : ∀ view, write ≠ .diagnostic view) (member : interp ∈ session.registry.names) :
    (session.step erasesFront op).CachesFollow := by
  have recorded : (session.step erasesFront op).recorded =
      Function.update session.recorded interp (write.apply (session.recorded interp)) := by
    simp [step, recordedAfter, registers, records]
  have slots : (session.step erasesFront op).registry.slots = session.registry.slots.map fun slot =>
      if slot.info.interpreter = some interp then { slot with info := write.store slot.info }
      else slot := by
    simp only [step]
    rw [Op.perform_records formed records silent]
    exact formed.updateInfo_slots member write.store
  intro slot slotMember holder held
  rw [slots] at slotMember
  obtain ⟨source, sourceMember, rfl⟩ := List.mem_map.mp slotMember
  rw [recorded]
  by_cases own : source.info.interpreter = some interp
  · simp only [own, if_true] at held ⊢
    have kept : (write.store source.info).interpreter = source.info.interpreter :=
      congrArg Tenant.interpreter (write.store_tenant source.info)
    obtain rfl : interp = holder := Option.some.inj (own.symm.trans (kept.symm.trans held))
    rw [Function.update_self, CacheWrite.store_caches, follow source sourceMember interp own]
  · -- other interpreters' entries and histories are untouched
    simp only [own, if_false] at held ⊢
    have other : holder ≠ interp := by
      intro same
      exact own (same ▸ held)
    rw [Function.update_of_ne other]
    exact follow source sourceMember holder held

theorem emit_cachesFollow_iff {erasesFront : Nat → Nat → Bool} {session : Session}
    {interp : Address} {diag : Diagnostic} (formed : session.registry.WellFormed)
    (follow : session.CachesFollow) :
    (session.step erasesFront (.emitDiagnostic interp diag)).CachesFollow ↔
      (Op.emitDiagnostic interp diag).KeepsCaches erasesFront session.registry := by
  have recorded : (session.step erasesFront (.emitDiagnostic interp diag)).recorded =
      Function.update session.recorded interp
        ((CacheWrite.diagnostic diag.view).apply (session.recorded interp)) := rfl
  have slots : (session.step erasesFront (.emitDiagnostic interp diag)).registry.slots = _ :=
    Registry.handleDiagnostic_slots session.registry diag.view (session.registry.consumers interp)
  have one (slot : Slot) (member : slot ∈ session.registry.slots) (holder : Address)
      (held : slot.info.interpreter = some holder) (copies : Nat) :
      ({ slot.info with storedDiags := slot.info.storedDiags ++ List.replicate copies diag.view } :
          InterpreterInfo).caches =
        (session.step erasesFront (.emitDiagnostic interp diag)).recorded holder ↔
      copies = if slot.info.interpreter = some interp then 1 else 0 := by
    have own := follow slot member holder held
    rw [recorded, held]
    by_cases same : holder = interp
    · subst holder
      rw [Function.update_self, ← own]
      simp only [CacheWrite.apply, InterpreterInfo.caches, Caches.mk.injEq, true_and,
        List.append_cancel_left_eq, if_true]
      constructor
      · intro equal
        simpa using congrArg List.length equal
      · rintro rfl
        rfl
    · rw [Function.update_of_ne same, ← own]
      simp [InterpreterInfo.caches, same]
  rw [CachesFollow, slots, List.forall_mem_map]
  simp only [Op.KeepsCaches]
  constructor
  · intro after slot member
    obtain ⟨holder, held⟩ := formed.held member
    exact (one slot member holder held _).mp (after slot member holder held)
  · intro kept slot member holder held
    exact (one slot member holder held _).mpr (kept slot member)

theorem step_cachesFollow_iff (erasesFront : Nat → Nat → Bool) {session : Session} {op : Op}
    (formed : session.registry.WellFormed) (follow : session.CachesFollow)
    (allowed : session.Allowed op) :
    (session.step erasesFront op).CachesFollow ↔
      op.KeepsCaches erasesFront session.registry := by
  cases op with
  | create made argv element =>
      refine iff_of_true ?_ trivial
      cases made with
      | none => exact cachesFollow_of_same follow rfl rfl
      | some interp => exact register_cachesFollow follow allowed.1 rfl rfl
  | useExternal interp element =>
      exact iff_of_true (register_cachesFollow follow allowed.1 rfl rfl) trivial
  | activate interp => exact activate_cachesFollow_iff formed follow
  | delete interp => exact delete_cachesFollow_iff formed follow
  | findBuiltinType populated =>
      obtain ⟨interp, active, member⟩ := formed.active allowed
      have records : (Op.findBuiltinType populated).records session.registry =
          some (interp, .builtins populated) := by simp [Op.records, active]
      exact iff_of_true (record_cachesFollow formed follow rfl records (by simp) member) trivial
  | makeWrapper interp function compiled =>
      exact iff_of_true (record_cachesFollow formed follow rfl rfl (by simp) allowed) trivial
  | makeDtorWrapper interp decl compiled =>
      exact iff_of_true (record_cachesFollow formed follow rfl rfl (by simp) allowed) trivial
  | materializeConstArrayValue interp varDecl value =>
      exact iff_of_true (record_cachesFollow formed follow rfl rfl (by simp) allowed) trivial
  | emitDiagnostic interp diag => exact emit_cachesFollow_iff formed follow

end Session

/-- Along a run the caches follow their interpreters exactly when no step shifts elements with
different caches over one another or routes a diagnostic elsewhere. -/
theorem registry_caches_follow_iff (erasesFront : Nat → Nat → Bool) (ops : List Op)
    (permitted : Runs.EveryStep (Session.step erasesFront) Session.Allowed Session.start ops) :
    Runs.EveryState (Session.step erasesFront) Session.CachesFollow Session.start ops ↔
      Runs.EveryStep (Session.step erasesFront)
        (fun session op => op.KeepsCaches erasesFront session.registry) Session.start ops := by
  refine Runs.everyState_iff_everyStep
    (fun session : Session => session.registry.WellFormed ∧ session.CachesFollow) _
    ⟨Registry.empty_wellFormed, ?_⟩ (fun _ inv => inv.2) ?_ ?_ permitted
  · intro slot member
    simp [Session.start, Registry.empty] at member
  · intro session op inv allowed
    exact Session.step_cachesFollow_iff erasesFront inv.1 inv.2 allowed
  · intro session op inv allowed kept
    exact ⟨Op.perform_wellFormed inv.1 allowed,
      (Session.step_cachesFollow_iff erasesFront inv.1 inv.2 allowed).mpr kept⟩

theorem registry_caches_follow_iff_two :
    Runs.EveryState (Session.step libstdcxxErasesFront) Session.CachesFollow Session.start
      [.create (some 1) [] 100, .create (some 2) [] 101, .activate (some 1),
        .makeWrapper 1 7 (some 8), .delete (some 2)] :=
  (registry_caches_follow_iff libstdcxxErasesFront _ (by decide)).mpr (by decide)

theorem registry_caches_stay_behind :
    let ops : List Op :=
      [.create (some 1) [] 100, .create (some 2) [] 101, .makeWrapper 1 7 (some 8),
        .activate (some 1)]
    Runs.EveryStep (Session.step libstdcxxErasesFront) Session.Allowed Session.start ops ∧
      ¬ Runs.EveryState (Session.step libstdcxxErasesFront) Session.CachesFollow Session.start
        ops := by
  decide

end CppInterOp
