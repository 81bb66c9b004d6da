import CppInterOp.OverlayCore

/-! What `MakeVTableOverlay` and `DestroyVTableOverlay` do to the blocks, the vptrs and the
overlays. -/

namespace CppInterOp

/-- The word of method slot `slot` after the listed replacements, the last one winning. -/
def replacedWord (listed : List (Int × Word)) (slot : Nat) (original : Word) : Word :=
  listed.foldl (fun word entry => if entry.1 = (slot : Int) then entry.2 else word) original

namespace OverlayMemory

structure Serial (memory : OverlayMemory) : Prop where
  distinct : (memory.overlays.map VTableOverlay.serial).Nodup
  earlier : ∀ overlay ∈ memory.overlays, overlay.serial < memory.fresh

theorem foldl_set_length (listed : List (Int × Word)) (offset : Nat) (words : List Word) :
    (listed.foldl (fun words entry => words.set (offset + entry.1.toNat) entry.2) words).length =
      words.length := by
  induction listed generalizing words with
  | nil => rfl
  | cons entry rest ih =>
      simp only [List.foldl_cons]
      rw [ih, List.length_set]

theorem foldl_set_slot {listed : List (Int × Word)} (natural : ∀ entry ∈ listed, 0 ≤ entry.1)
    (offset slot : Nat) {words : List Word} {original : Word}
    (held : words[offset + slot]? = some original) :
    (listed.foldl (fun words entry => words.set (offset + entry.1.toNat) entry.2)
        words)[offset + slot]? = some (replacedWord listed slot original) := by
  induction listed generalizing words original with
  | nil => exact held
  | cons entry rest ih =>
      have first := natural entry (List.mem_cons_self ..)
      have others : ∀ other ∈ rest, 0 ≤ other.1 := fun other member =>
        natural other (List.mem_cons_of_mem _ member)
      have bound : offset + slot < words.length := (List.getElem?_eq_some_iff.mp held).1
      simp only [List.foldl_cons, replacedWord]
      by_cases same : entry.1 = slot
      · have index : offset + entry.1.toNat = offset + slot := by omega
        rw [if_pos same, index]
        exact ih others (List.getElem?_set_self bound)
      · have index : offset + entry.1.toNat ≠ offset + slot := by omega
        rw [if_neg same]
        exact ih others (by rw [List.getElem?_set_ne index]; exact held)

theorem overlayWords_length (memory : OverlayMemory) (vptr : VPtr) (total : Nat)
    (listed : List (Int × Word)) (nExtra : Nat) :
    (memory.overlayWords vptr total listed nExtra).length =
      nExtra + kVTableOverlayPrefixSize + total := by
  simp only [overlayWords, foldl_set_length, List.length_append, List.length_replicate,
    List.length_map, List.length_range, kVTableOverlayPrefixSize]
  omega

theorem overlayWords_slot (memory : OverlayMemory) (vptr : VPtr) {total : Nat}
    {listed : List (Int × Word)} (natural : ∀ entry ∈ listed, 0 ≤ entry.1) (nExtra : Nat)
    {slot : Nat} (bound : slot < total) :
    (memory.overlayWords vptr total listed nExtra)[nExtra + kVTableOverlayPrefixSize + slot]? =
      some (replacedWord listed slot (memory.readWord vptr.block (vptr.offset + slot))) := by
  apply foldl_set_slot natural
  have skip : (List.replicate (nExtra + 1) Word.null).length ≤
      nExtra + kVTableOverlayPrefixSize + slot := by
    simp only [List.length_replicate, kVTableOverlayPrefixSize]
    omega
  have index : nExtra + kVTableOverlayPrefixSize + slot -
      (List.replicate (nExtra + 1) Word.null).length = kABIPrefixSize + slot := by
    simp only [List.length_replicate, kVTableOverlayPrefixSize]
    omega
  have source : vptr.offset + (kABIPrefixSize + slot) - kABIPrefixSize = vptr.offset + slot := by
    omega
  rw [List.getElem?_append_right skip, index, List.getElem?_map,
    List.getElem?_range (by omega), Option.map_some, source]

theorem writeWord_blocks_ne {memory : OverlayMemory} {block other : BlockId} (index : Nat)
    (word : Word) (different : other ≠ block) :
    (memory.writeWord block index word).blocks other = memory.blocks other := if_neg different

theorem writeWord_allocated {memory : OverlayMemory} {block : BlockId} {words : List Word}
    (allocated : memory.blocks block = some words) (index : Nat) (word : Word) :
    (memory.writeWord block index word).blocks block = some (words.set index word) := by
  simp [writeWord, allocated]

theorem readWord_writeWord_ne {memory : OverlayMemory} {block other : BlockId} {index i : Nat}
    (word : Word) (elsewhere : other = block → i ≠ index) :
    (memory.writeWord block index word).readWord other i = memory.readWord other i := by
  simp only [readWord, writeWord]
  by_cases same : other = block
  · subst other
    have different : i ≠ index := elsewhere rfl
    cases memory.blocks block with
    | none => simp
    | some words => simp [List.getElem?_set_ne (Ne.symm different)]
  · rw [if_neg same]

theorem readWord_writeWord_self {memory : OverlayMemory} {block : BlockId} {index : Nat}
    {words : List Word} (allocated : memory.blocks block = some words) (bound : index < words.length)
    (word : Word) : (memory.writeWord block index word).readWord block index = word := by
  simp [readWord, writeWord, allocated, List.getElem?_set_self bound]

theorem construct_blocks (memory : OverlayMemory) (words : List Word) (vptr : VPtr)
    (inst : Address) (nExtra : Nat) (block : BlockId) :
    (memory.construct words vptr inst nExtra).1.blocks block =
      if block = .owned memory.fresh then some (words.set nExtra (.overlay memory.fresh))
      else memory.blocks block := by
  by_cases same : block = .owned memory.fresh <;>
    simp [construct, writeVPtr, writeWord, same]

theorem construct_vptrs (memory : OverlayMemory) (words : List Word) (vptr : VPtr)
    (inst other : Address) (nExtra : Nat) :
    (memory.construct words vptr inst nExtra).1.vptrs other =
      if other = inst then ⟨.owned memory.fresh, nExtra + kVTableOverlayPrefixSize⟩
      else memory.vptrs other := rfl

theorem construct_methodSlot (memory : OverlayMemory) {listed : List (Int × Word)}
    (natural : ∀ entry ∈ listed, 0 ≤ entry.1) (inst : Address) (nExtra : Nat) {total slot : Nat}
    (bound : slot < total) :
    (memory.construct (memory.overlayWords (memory.vptrs inst) total listed nExtra)
        (memory.vptrs inst) inst nExtra).1.methodSlot inst slot =
      replacedWord listed slot (memory.methodSlot inst slot) := by
  have apart : nExtra ≠ nExtra + kVTableOverlayPrefixSize + slot := by
    simp only [kVTableOverlayPrefixSize]
    omega
  rw [methodSlot, construct_vptrs, if_pos rfl, readWord, construct_blocks, if_pos rfl,
    Option.bind_some,
    List.getElem?_set_ne apart, overlayWords_slot memory _ natural nExtra bound, Option.getD_some]
  rfl

theorem construct_hidden (memory : OverlayMemory) (listed : List (Int × Word)) (inst : Address)
    (nExtra total : Nat) :
    (memory.construct (memory.overlayWords (memory.vptrs inst) total listed nExtra)
        (memory.vptrs inst) inst nExtra).1.readWord (.owned memory.fresh) nExtra =
      .overlay memory.fresh := by
  have bound : nExtra < (memory.overlayWords (memory.vptrs inst) total listed nExtra).length := by
    rw [overlayWords_length]
    simp only [kVTableOverlayPrefixSize]
    omega
  rw [readWord, construct_blocks, if_pos rfl, Option.bind_some, List.getElem?_set_self bound,
    Option.getD_some]

theorem updateOverlay_appended (memory : OverlayMemory) {before : List VTableOverlay}
    (last : VTableOverlay) (split : memory.overlays = before ++ [last])
    (earlier : ∀ overlay ∈ before, overlay.serial < last.serial)
    (change : VTableOverlay → VTableOverlay) :
    (memory.updateOverlay last.serial change).overlays = before ++ [change last] := by
  have unchanged : before.map (fun overlay =>
      if overlay.serial = last.serial then change overlay else overlay) = before.map id := by
    apply List.map_congr_left
    intro overlay member
    rw [if_neg (Nat.ne_of_lt (earlier overlay member)), id]
  rw [List.map_id] at unchanged
  simp only [updateOverlay, split, List.map_append, List.map_cons, if_true, List.map_nil, unchanged]

end OverlayMemory

def OverlayCall.overlay (call : OverlayCall) (context : VTableContext) (memory : OverlayMemory)
    (inst : Address) : VTableOverlay where
  serial := memory.fresh
  block := .owned memory.fresh
  originalVptr := memory.vptrs inst
  inst := inst
  nExtraPrefixSlots := call.nExtra
  origDtor := if call.onDestroy.isSome then
    replacedWord (call.listed context) kDeletingDtorSlot (memory.methodSlot inst kDeletingDtorSlot)
    else .null
  cleanup := call.onDestroy
  cleanupData := if call.onDestroy.isSome then call.cleanupData else 0

structure Overlaid (context : VTableContext) (memory : OverlayMemory) (inst : Address)
    (call : OverlayCall) (base : CXXRecordDecl) (next : OverlayMemory) : Prop where
  named : call.base = some base
  polymorphic : base.isPolymorphic = true
  simple : hasComplexVTableLayout base = false
  enough : kMinVTableMethodSlots ≤ vtableMethodSlotCount context (some base)
  natural : ∀ entry ∈ call.listed context, 0 ≤ entry.1
  vptrs : ∀ other, next.vptrs other =
    if other = inst then ⟨.owned memory.fresh, call.nExtra + kVTableOverlayPrefixSize⟩
    else memory.vptrs other
  allocated : next.blocks (.owned memory.fresh) ≠ none
  others : ∀ block, block ≠ .owned memory.fresh → next.blocks block = memory.blocks block
  slots : ∀ slot : Nat, (slot : Int) < vtableMethodSlotCount context (some base) →
    next.methodSlot inst slot =
      if call.onDestroy.isSome ∧ slot = kDeletingDtorSlot then .wrapper
      else replacedWord (call.listed context) slot (memory.methodSlot inst slot)
  hidden : next.readWord (.owned memory.fresh) call.nExtra = .overlay memory.fresh
  overlays : memory.Serial → next.overlays = memory.overlays ++ [call.overlay context memory inst]
  fresh : next.fresh = memory.fresh + 1

namespace OverlayMemory

def withOverlay (context : VTableContext) (memory : OverlayMemory) (inst : Address)
    (call : OverlayCall) (base : CXXRecordDecl) : OverlayMemory × VTableOverlay :=
  memory.construct (memory.overlayWords (memory.vptrs inst)
      (vtableMethodSlotCount context (some base)).toNat (call.listed context) call.nExtra)
    (memory.vptrs inst) inst call.nExtra

theorem overlaid_plain {context : VTableContext} {memory : OverlayMemory} {inst : Address}
    {call : OverlayCall} {base : CXXRecordDecl} (named : call.base = some base)
    (polymorphic : base.isPolymorphic = true) (simple : hasComplexVTableLayout base = false)
    (enough : kMinVTableMethodSlots ≤ vtableMethodSlotCount context (some base))
    (natural : ∀ entry ∈ call.listed context, 0 ≤ entry.1) (unhooked : call.onDestroy = none) :
    Overlaid context memory inst call base (memory.withOverlay context inst call base).1 := by
  refine ⟨named, polymorphic, simple, enough, natural, fun _ => rfl, ?_, ?_, ?_, ?_, ?_, rfl⟩
  · rw [withOverlay, construct_blocks, if_pos rfl]
    exact Option.some_ne_none _
  · intro block different
    rw [withOverlay, construct_blocks, if_neg different]
  · intro slot bound
    have inside : slot < (vtableMethodSlotCount context (some base)).toNat := by omega
    rw [unhooked, withOverlay, construct_methodSlot memory natural inst call.nExtra inside]
    simp
  · exact construct_hidden memory (call.listed context) inst call.nExtra _
  · intro _
    simp [withOverlay, construct, writeVPtr, writeWord, OverlayCall.overlay, unhooked]

theorem overlaid_hooked {context : VTableContext} {memory : OverlayMemory} {inst : Address}
    {call : OverlayCall} {base : CXXRecordDecl} (named : call.base = some base)
    (polymorphic : base.isPolymorphic = true) (simple : hasComplexVTableLayout base = false)
    (enough : kMinVTableMethodSlots ≤ vtableMethodSlotCount context (some base))
    (natural : ∀ entry ∈ call.listed context, 0 ≤ entry.1) {onDestroy : Address}
    (hooked : call.onDestroy = some onDestroy) :
    Overlaid context memory inst call base
      ((memory.withOverlay context inst call base).1.installHook
        (memory.withOverlay context inst call base).2 onDestroy call.cleanupData) := by
  have dtorSlot : kDeletingDtorSlot < (vtableMethodSlotCount context (some base)).toNat := by
    simp only [kMinVTableMethodSlots, kDeletingDtorSlot] at enough ⊢
    omega
  have allocated := construct_blocks memory (memory.overlayWords (memory.vptrs inst)
    (vtableMethodSlotCount context (some base)).toNat (call.listed context) call.nExtra)
    (memory.vptrs inst) inst call.nExtra (.owned memory.fresh)
  rw [if_pos rfl] at allocated
  have length := overlayWords_length memory (memory.vptrs inst)
    (vtableMethodSlotCount context (some base)).toNat (call.listed context) call.nExtra
  have origDtor : (memory.withOverlay context inst call base).1.readWord (.owned memory.fresh)
      (call.nExtra + kVTableOverlayPrefixSize + kDeletingDtorSlot) =
        replacedWord (call.listed context) kDeletingDtorSlot
          (memory.methodSlot inst kDeletingDtorSlot) := by
    rw [← construct_methodSlot memory natural inst call.nExtra dtorSlot]
    simp [methodSlot, withOverlay, construct, writeVPtr, VTableOverlay.addressPoint]
  refine ⟨named, polymorphic, simple, enough, natural, fun _ => rfl, ?_, ?_, ?_, ?_, ?_, rfl⟩
  · intro missing
    exact Option.some_ne_none _ ((writeWord_allocated allocated _ _).symm.trans missing)
  · intro block different
    exact (writeWord_blocks_ne _ _ different).trans
      ((construct_blocks memory _ _ inst call.nExtra block).trans (if_neg different))
  · intro slot bound
    have inside : slot < (vtableMethodSlotCount context (some base)).toNat := by omega
    have hookedVPtr : ((memory.withOverlay context inst call base).1.installHook
        (memory.withOverlay context inst call base).2 onDestroy call.cleanupData).vptrs inst =
          ⟨.owned memory.fresh, call.nExtra + kVTableOverlayPrefixSize⟩ := if_pos rfl
    by_cases same : slot = kDeletingDtorSlot
    · have within : call.nExtra + kVTableOverlayPrefixSize + kDeletingDtorSlot <
          ((memory.overlayWords (memory.vptrs inst) (vtableMethodSlotCount context (some base)).toNat
            (call.listed context) call.nExtra).set call.nExtra (.overlay memory.fresh)).length := by
        rw [List.length_set, length]
        omega
      rw [hooked, if_pos ⟨rfl, same⟩, same, methodSlot, hookedVPtr]
      exact readWord_writeWord_self allocated within _
    · rw [if_neg fun both => same both.2, methodSlot, hookedVPtr]
      refine Eq.trans ?_ (construct_methodSlot memory natural inst call.nExtra inside)
      rw [methodSlot, construct_vptrs, if_pos rfl]
      exact readWord_writeWord_ne _ fun _ equal => same (Nat.add_left_cancel equal)
  · refine Eq.trans ?_ (construct_hidden memory (call.listed context) inst call.nExtra
      (vtableMethodSlotCount context (some base)).toNat)
    apply readWord_writeWord_ne
    intro _ equal
    simp only [VTableOverlay.addressPoint, withOverlay, construct, kVTableOverlayPrefixSize] at equal
    omega
  · intro serial
    refine (updateOverlay_appended (memory.withOverlay context inst call base).1
      (memory.withOverlay context inst call base).2 rfl serial.earlier _).trans ?_
    simp only [OverlayCall.overlay, hooked, Option.isSome_some, if_true, ← origDtor]
    rfl

theorem makeVTableOverlay_cases (context : VTableContext) (memory : OverlayMemory)
    (inst : Option Address) (call : OverlayCall) :
    memory.makeVTableOverlay context inst call = (memory, none) ∨
      ∃ target base, inst = some target ∧
        (memory.makeVTableOverlay context inst call).2 = some memory.fresh ∧
        Overlaid context memory target call base (memory.makeVTableOverlay context inst call).1 := by
  cases inst with
  | none => exact Or.inl rfl
  | some target =>
      cases named : call.base with
      | none =>
          left
          simp [makeVTableOverlay, named]
      | some base =>
          by_cases accepted : (!base.isPolymorphic || hasComplexVTableLayout base) = true
          · left
            simp [makeVTableOverlay, named, accepted]
          by_cases few : vtableMethodSlotCount context (some base) < kMinVTableMethodSlots
          · left
            simp [makeVTableOverlay, named, accepted, few]
          by_cases negative : ((call.listed context).any fun entry => entry.1 < 0) = true
          · left
            simp [makeVTableOverlay, named, accepted, few, negative]
          by_cases outside : ((call.listed context).any fun entry =>
              entry.1 < 0 || vtableMethodSlotCount context (some base) ≤ entry.1) = true
          · left
            simp [makeVTableOverlay, applyVTableOverlay, named, accepted, few, negative, outside]
          right
          simp only [Bool.or_eq_true, Bool.not_eq_true', not_or, Bool.not_eq_false,
            Bool.not_eq_true] at accepted
          have natural : ∀ entry ∈ call.listed context, 0 ≤ entry.1 := by
            simpa [List.any_eq_true] using negative
          have applied : memory.applyVTableOverlay (some target)
              (vtableMethodSlotCount context (some base)) (call.listed context) call.nExtra =
                ((memory.withOverlay context target call base).1,
                  some (memory.withOverlay context target call base).2) := by
            simp only [applyVTableOverlay, few, outside, if_false]
            rfl
          refine ⟨target, base, rfl, ?_⟩
          cases hook : call.onDestroy with
          | none =>
              have computed : memory.makeVTableOverlay context (some target) call =
                  ((memory.withOverlay context target call base).1, some memory.fresh) := by
                simp [makeVTableOverlay, named, accepted, few, negative, applied, hook]
                rfl
              rw [computed]
              exact ⟨rfl, overlaid_plain named accepted.1 accepted.2 (by omega) natural hook⟩
          | some onDestroy =>
              have computed : memory.makeVTableOverlay context (some target) call =
                  ((memory.withOverlay context target call base).1.installHook
                    (memory.withOverlay context target call base).2 onDestroy call.cleanupData,
                    some memory.fresh) := by
                simp [makeVTableOverlay, named, accepted, few, negative, applied, hook]
                rfl
              rw [computed]
              exact ⟨rfl, overlaid_hooked named accepted.1 accepted.2 (by omega) natural hook⟩

end OverlayMemory

end CppInterOp
