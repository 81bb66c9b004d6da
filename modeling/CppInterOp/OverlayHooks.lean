import CppInterOp.OverlayBlocks

/-! Which slot of the overlay the destruction hook takes. -/

namespace CppInterOp

/-- The wrapper stands in the slot of the class's deleting destructor and in no other; the
other slots hold the listed replacement or what the instance's vtable held. -/
structure HookOnDestructor (context : VTableContext) (memory : OverlayMemory) (inst : Address)
    (call : OverlayCall) (base : CXXRecordDecl) (next : OverlayMemory) : Prop where
  slots : ∀ slot < base.vtableSlots.length, next.methodSlot inst slot =
    if base.deletingDtorSlot = some slot then .wrapper
    else replacedWord (call.listed context) slot (memory.methodSlot inst slot)
  only : ∀ slot < base.vtableSlots.length,
    (next.methodSlot inst slot = .wrapper ↔ base.deletingDtorSlot = some slot)

theorem vtableMethodSlotCount_eq {context : VTableContext} (itanium : context.Itanium)
    {base : CXXRecordDecl} (single : base.SingleVptr) (polymorphic : base.isPolymorphic = true) :
    vtableMethodSlotCount context (some base) = base.vtableSlots.length := by
  simp only [vtableMethodSlotCount, polymorphic, if_true, itanium.primary base single]
  omega

theorem Overlaid.hook_iff {context : VTableContext} {memory next : OverlayMemory} {inst : Address}
    {call : OverlayCall} {base : CXXRecordDecl} (itanium : context.Itanium)
    (single : base.SingleVptr) (overlaid : Overlaid context memory inst call base next)
    (hooked : call.onDestroy.isSome = true) :
    HookOnDestructor context memory inst call base next ↔
      base.firstVirtual = some .destructor ∧
        ∀ slot < base.vtableSlots.length, slot ≠ kDeletingDtorSlot →
          replacedWord (call.listed context) slot (memory.methodSlot inst slot) ≠ .wrapper := by
  have count := vtableMethodSlotCount_eq itanium single overlaid.polymorphic
  have enough := overlaid.enough
  have within : kDeletingDtorSlot < base.vtableSlots.length := by
    simp only [kMinVTableMethodSlots, kDeletingDtorSlot] at enough ⊢
    omega
  have slots : ∀ slot < base.vtableSlots.length, next.methodSlot inst slot =
      if slot = kDeletingDtorSlot then .wrapper
      else replacedWord (call.listed context) slot (memory.methodSlot inst slot) := by
    intro slot bound
    have found := overlaid.slots slot (by omega)
    simpa only [hooked, true_and] using found
  rw [← CXXRecordDecl.deletingDtorSlot_eq_one]
  constructor
  · intro hook
    have patched : next.methodSlot inst kDeletingDtorSlot = .wrapper := by
      rw [slots _ within, if_pos rfl]
    have deleting := (hook.only _ within).mp patched
    refine ⟨deleting, ?_⟩
    intro slot bound different same
    have standing : next.methodSlot inst slot = .wrapper := by
      rw [slots slot bound, if_neg different, same]
    have again := (hook.only slot bound).mp standing
    rw [deleting, Option.some.injEq] at again
    exact different again.symm
  · rintro ⟨deleting, others⟩
    refine ⟨?_, ?_⟩
    · intro slot bound
      rw [slots slot bound, deleting]
      by_cases same : slot = kDeletingDtorSlot
      · simp [same, kDeletingDtorSlot]
      · have different : ¬ some 1 = some slot := by
          intro equal
          exact same (Option.some.inj equal).symm
        rw [if_neg same, if_neg different]
    · intro slot bound
      rw [slots slot bound, deleting]
      by_cases same : slot = kDeletingDtorSlot
      · simp [same, kDeletingDtorSlot]
      · have different : ¬ some 1 = some slot := by
          intro equal
          exact same (Option.some.inj equal).symm
        rw [if_neg same]
        exact iff_of_false (others slot bound same) different

/-- A successful call with a hook patches the deleting destructor and nothing else exactly when
the first virtual function of the hierarchy is the destructor and no other slot already holds
the wrapper. -/
theorem destructor_hook_iff (context : VTableContext) (itanium : context.Itanium)
    (memory : OverlayMemory) (inst : Address) (base : CXXRecordDecl) (single : base.SingleVptr)
    (call : OverlayCall) (named : call.base = some base) (hooked : call.onDestroy.isSome = true)
    (made : (memory.makeVTableOverlay context (some inst) call).2 ≠ none) :
    HookOnDestructor context memory inst call base
        (memory.makeVTableOverlay context (some inst) call).1 ↔
      base.firstVirtual = some .destructor ∧
        ∀ slot < base.vtableSlots.length, slot ≠ kDeletingDtorSlot →
          replacedWord (call.listed context) slot (memory.methodSlot inst slot) ≠ .wrapper := by
  rcases memory.makeVTableOverlay_cases context (some inst) call with
    failed | ⟨target, other, same, _, overlaid⟩
  · rw [failed] at made
    exact absurd rfl made
  · obtain rfl := Option.some.inj same
    obtain rfl := Option.some.inj (named.symm.trans overlaid.named)
    exact overlaid.hook_iff itanium single hooked

def lateDestructor : CXXRecordDecl := .members [.method "frob", .method "bar", .destructor]

theorem destructor_hook_iff_derived :
    let base : CXXRecordDecl :=
      .base false (.members [.destructor, .method "frob"]) (.members [.method "bar", .destructor])
    let call : OverlayCall :=
      { base := some base, overlays := [(some ⟨base, .method "bar", true⟩, .code 40)],
        onDestroy := some 50 }
    let memory := OverlayMemory.emitted [.data 0, .data 1, .code 10, .code 11, .code 12, .code 13]
    HookOnDestructor .primary memory 7 call base
      (memory.makeVTableOverlay .primary (some 7) call).1 := by
  intro base call memory
  exact (destructor_hook_iff .primary VTableContext.primary_itanium memory 7 base
    ⟨by decide, by decide⟩ call rfl rfl (by decide)).mpr ⟨by decide, by decide⟩

/-- With the destructor declared last, the hook takes the slot of an ordinary method. -/
theorem destructor_hook_on_method :
    let call : OverlayCall := { base := some lateDestructor, overlays := [], onDestroy := some 50 }
    let memory := OverlayMemory.emitted [.data 0, .data 1, .code 12, .code 13, .code 10, .code 11]
    let made := memory.makeVTableOverlay .primary (some 7) call
    lateDestructor.SingleVptr ∧ made.2 = some 0 ∧ lateDestructor.deletingDtorSlot = some 3 ∧
      made.1.methodSlot 7 1 = .wrapper ∧
      ¬ HookOnDestructor .primary memory 7 call lateDestructor made.1 := by
  intro call memory made
  refine ⟨⟨by decide, by decide⟩, by decide, by decide, by decide, ?_⟩
  intro hook
  have moved := (hook.only 1 (by decide)).mp (by decide)
  exact absurd moved (by decide)

end CppInterOp
