import Mathlib
import CppInterOp.OverlayBlocks

/-!
What stands in the block of an overlay: the user's extra words, the hidden pointer, the ABI
prefix and the method slots.
-/

namespace CppInterOp

def intMax : Nat := 2147483647

/-- `static_cast<int>` of a `std::size_t`. -/
def narrowToInt (i : Nat) : Int := Int.bmod i 4294967296

/-- The offset from the vptr that `VTableOverlayExtraSlot` computes in an `int`, where the sum
fits into one. -/
def extraSlotOffset (i : Nat) : Option Int :=
  let sum := (kVTableOverlayPrefixSize : Int) + 1 + narrowToInt i
  if sum ≤ intMax then some (-sum) else none

def allocatedWords (nExtra totalMethodSlots : Nat) : Nat :=
  (nExtra + kVTableOverlayPrefixSize + totalMethodSlots) % 2 ^ 64

inductive BlockPart
  | extra (i : Nat)
  | hidden
  | abi (j : Nat)
  | method (k : Nat)
  deriving DecidableEq, Repr

namespace BlockPart

def Present (nExtra totalMethodSlots : Nat) : BlockPart → Prop
  | extra i => i < nExtra
  | hidden => True
  | abi j => j < kABIPrefixSize
  | method k => k < totalMethodSlots

def offset : BlockPart → Option Int
  | extra i => extraSlotOffset i
  | hidden => some (-kVTableOverlayPrefixSize)
  | abi j => some (j - kABIPrefixSize)
  | method k => some k

def index (point : Nat) (part : BlockPart) : Option Nat :=
  part.offset.bind fun offset =>
    if 0 ≤ (point : Int) + offset then some ((point : Int) + offset).toNat else none

end BlockPart

def lastListed (listed : List (Int × Word)) (slot : Nat) (original : Word) : Word :=
  ((listed.filter fun entry => entry.1 = (slot : Int)).getLast?.map Prod.snd).getD original

def OutOfRange (totalMethodSlots : Nat) (listed : List (Int × Word)) : Prop :=
  ∃ entry ∈ listed, entry.1 < 0 ∨ (totalMethodSlots : Int) ≤ entry.1

instance (totalMethodSlots : Nat) (listed : List (Int × Word)) :
    Decidable (OutOfRange totalMethodSlots listed) :=
  inferInstanceAs (Decidable (∃ entry ∈ listed, _ ∨ _))

namespace OverlayMemory

structure BlockContents (memory : OverlayMemory) (inst : Address) (totalMethodSlots : Nat)
    (listed : List (Int × Word)) (nExtra : Nat) (next : OverlayMemory) : Prop where
  newBlock : (next.vptrs inst).block = .owned memory.fresh ∧
    next.blocks (.owned memory.fresh) ≠ none
  otherVPtrs : ∀ other, other ≠ inst → next.vptrs other = memory.vptrs other
  otherBlocks : ∀ block, block ≠ .owned memory.fresh → next.blocks block = memory.blocks block
  methods : ∀ k < totalMethodSlots,
    next.methodSlot inst k = lastListed listed k (memory.methodSlot inst k)
  abi : ∀ j < kABIPrefixSize,
    next.readWord (next.vptrs inst).block ((next.vptrs inst).offset + j - kABIPrefixSize) =
      memory.readWord (memory.vptrs inst).block ((memory.vptrs inst).offset + j - kABIPrefixSize)
  extras : ∀ i < nExtra, ∃ index, (BlockPart.extra i).index (next.vptrs inst).offset = some index ∧
    next.readWord (next.vptrs inst).block index = .null
  inside : ∀ part : BlockPart, part.Present nExtra totalMethodSlots →
    ∃ index, part.index (next.vptrs inst).offset = some index ∧
      index < allocatedWords nExtra totalMethodSlots
  apart : ∀ left right : BlockPart, left.Present nExtra totalMethodSlots →
    right.Present nExtra totalMethodSlots →
    left.index (next.vptrs inst).offset = right.index (next.vptrs inst).offset → left = right

/-- `applyVTableOverlay` refuses a slot out of range, and otherwise builds the block. -/
def BlockLaw (memory : OverlayMemory) (inst : Address) (totalMethodSlots : Nat)
    (listed : List (Int × Word)) (nExtra : Nat) : Prop :=
  let made := memory.applyVTableOverlay (some inst) totalMethodSlots listed nExtra
  (OutOfRange totalMethodSlots listed → made = (memory, none)) ∧
    (¬OutOfRange totalMethodSlots listed →
      made.2.isSome = true ∧ memory.BlockContents inst totalMethodSlots listed nExtra made.1)

end OverlayMemory

theorem replacedWord_eq (listed : List (Int × Word)) (slot : Nat) (original : Word) :
    replacedWord listed slot original = lastListed listed slot original := by
  induction listed generalizing original with
  | nil => rfl
  | cons entry rest ih =>
      rw [replacedWord, List.foldl_cons, ← replacedWord, ih, lastListed, lastListed]
      by_cases here : entry.1 = (slot : Int)
      · simp only [here, if_true, List.filter_cons, decide_true, List.getLast?_cons,
          Option.map_some, Option.getD_some]
        cases (rest.filter fun other => other.1 = (slot : Int)).getLast? with
        | none => rfl
        | some last => rfl
      · simp only [here, if_false, List.filter_cons, decide_false, Bool.false_eq_true]

theorem narrowToInt_of_small {i : Nat} (small : i ≤ intMax) : narrowToInt i = i := by
  simp only [intMax] at small
  exact Int.bmod_eq_of_le_mul_two (by omega) (by omega)

theorem extraSlotOffset_of_small {i : Nat} (small : i + 4 ≤ intMax) :
    extraSlotOffset i = some (-(i + 4 : Int)) := by
  have sum : (kVTableOverlayPrefixSize : Int) + 1 + narrowToInt i = i + 4 := by
    rw [narrowToInt_of_small (by omega)]
    simp only [kVTableOverlayPrefixSize, kABIPrefixSize]
    omega
  have fits : (i + 4 : Int) ≤ intMax := by omega
  rw [extraSlotOffset, sum, if_pos fits]

theorem extraSlotOffset_overflow : extraSlotOffset (intMax - 3) = none := by
  decide

namespace BlockPart

variable {nExtra totalMethodSlots : Nat}

def position (nExtra : Nat) : BlockPart → Nat
  | extra i => nExtra - 1 - i
  | hidden => nExtra
  | abi j => nExtra + 1 + j
  | method k => nExtra + kVTableOverlayPrefixSize + k

theorem index_of_offset {part : BlockPart} {point result : Nat} {offset : Int}
    (found : part.offset = some offset) (sum : (point : Int) + offset = result) :
    part.index point = some result := by
  rw [index, found, Option.bind_some, sum, if_pos (Int.natCast_nonneg _), Int.toNat_natCast]

theorem index_eq_position (small : nExtra + 3 ≤ intMax) {part : BlockPart}
    (present : part.Present nExtra totalMethodSlots) :
    part.index (nExtra + kVTableOverlayPrefixSize) = some (part.position nExtra) := by
  cases part with
  | extra i =>
      have below : i < nExtra := present
      have room : i + 4 ≤ intMax := by omega
      have offset : (extra i).offset = some (-(i + 4 : Int)) := by
        rw [BlockPart.offset, extraSlotOffset_of_small room]
      refine index_of_offset offset ?_
      simp only [position, kVTableOverlayPrefixSize, kABIPrefixSize]
      omega
  | hidden =>
      refine index_of_offset rfl ?_
      simp only [position, Int.natCast_add]
      omega
  | abi j =>
      refine index_of_offset rfl ?_
      simp only [position, kVTableOverlayPrefixSize, kABIPrefixSize]
      omega
  | method k =>
      exact index_of_offset rfl rfl

theorem position_lt {part : BlockPart} (present : part.Present nExtra totalMethodSlots) :
    part.position nExtra < nExtra + kVTableOverlayPrefixSize + totalMethodSlots := by
  cases part with
  | extra i | hidden | abi j | method k =>
      simp only [Present, position, kVTableOverlayPrefixSize, kABIPrefixSize] at present ⊢
      omega

theorem position_injective {left right : BlockPart} (leftPresent : left.Present nExtra totalMethodSlots)
    (rightPresent : right.Present nExtra totalMethodSlots)
    (same : left.position nExtra = right.position nExtra) : left = right := by
  cases left with
  | extra i | hidden | abi j | method k =>
      cases right with
      | extra i' | hidden | abi j' | method k' =>
          grind [Present, position, kVTableOverlayPrefixSize, kABIPrefixSize]

end BlockPart

namespace OverlayMemory

theorem foldl_set_below (listed : List (Int × Word)) {offset index : Nat} (below : index < offset)
    (words : List Word) :
    (listed.foldl (fun words entry => words.set (offset + entry.1.toNat) entry.2) words)[index]? =
      words[index]? := by
  induction listed generalizing words with
  | nil => rfl
  | cons entry rest ih =>
      rw [List.foldl_cons, ih, List.getElem?_set_ne (by omega)]

variable (memory : OverlayMemory) (inst : Address) (totalMethodSlots : Nat)
variable (listed : List (Int × Word)) (nExtra : Nat)

theorem construct_readWord {index : Nat} (apart : nExtra ≠ index) (words : List Word) (vptr : VPtr) :
    (memory.construct words vptr inst nExtra).1.readWord (.owned memory.fresh) index =
      (words[index]?).getD .null := by
  rw [readWord, construct_blocks, if_pos rfl, Option.bind_some, List.getElem?_set_ne apart]

theorem overlayWords_extra {index : Nat} (below : index < nExtra) (vptr : VPtr) :
    (memory.overlayWords vptr totalMethodSlots listed nExtra)[index]? = some .null := by
  rw [overlayWords, foldl_set_below listed (by omega)]
  rw [List.getElem?_append_left (by simp; omega), List.getElem?_replicate, if_pos (by omega)]

theorem overlayWords_abi {j : Nat} (bound : j < kABIPrefixSize) (vptr : VPtr) :
    (memory.overlayWords vptr totalMethodSlots listed nExtra)[nExtra + 1 + j]? =
      some (memory.readWord vptr.block (vptr.offset + j - kABIPrefixSize)) := by
  have below : nExtra + 1 + j < nExtra + kVTableOverlayPrefixSize := by
    simp only [kVTableOverlayPrefixSize]
    omega
  have skipped : nExtra + 1 + j - (List.replicate (nExtra + 1) Word.null).length = j := by
    simp only [List.length_replicate]
    omega
  rw [overlayWords, foldl_set_below listed below, List.getElem?_append_right (by simp), skipped,
    List.getElem?_map, List.getElem?_range (by omega), Option.map_some]

theorem construct_contents (small : nExtra + 3 ≤ intMax) (fits : totalMethodSlots ≤ intMax)
    (natural : ∀ entry ∈ listed, 0 ≤ entry.1) :
    memory.BlockContents inst totalMethodSlots listed nExtra
      (memory.construct (memory.overlayWords (memory.vptrs inst) totalMethodSlots listed nExtra)
        (memory.vptrs inst) inst nExtra).1 := by
  have placed : (memory.construct
      (memory.overlayWords (memory.vptrs inst) totalMethodSlots listed nExtra)
      (memory.vptrs inst) inst nExtra).1.vptrs inst =
      ⟨.owned memory.fresh, nExtra + kVTableOverlayPrefixSize⟩ := by
    rw [construct_vptrs, if_pos rfl]
  refine ⟨⟨by rw [placed], ?_⟩, ?_, ?_, ?_, ?_, ?_, ?_, ?_⟩
  · rw [construct_blocks, if_pos rfl]
    exact Option.some_ne_none _
  · intro other different
    rw [construct_vptrs, if_neg different]
  · intro block different
    rw [construct_blocks, if_neg different]
  · intro k bound
    rw [← replacedWord_eq]
    exact construct_methodSlot memory natural inst nExtra bound
  · intro j bound
    have shifted : nExtra + kVTableOverlayPrefixSize + j - kABIPrefixSize = nExtra + 1 + j := by
      simp only [kVTableOverlayPrefixSize, kABIPrefixSize]
      omega
    rw [placed, shifted, construct_readWord memory inst nExtra (by omega),
      overlayWords_abi memory totalMethodSlots listed nExtra bound, Option.getD_some]
  · intro i bound
    have index := BlockPart.index_eq_position small
      (show (BlockPart.extra i).Present nExtra totalMethodSlots from bound)
    rw [placed]
    refine ⟨_, index, ?_⟩
    have below : (BlockPart.extra i).position nExtra < nExtra := by
      simp only [BlockPart.position]
      omega
    rw [construct_readWord memory inst nExtra (by omega),
      overlayWords_extra memory totalMethodSlots listed nExtra below, Option.getD_some]
  · intro part present
    rw [placed]
    refine ⟨_, BlockPart.index_eq_position small present, ?_⟩
    have room : nExtra + kVTableOverlayPrefixSize + totalMethodSlots < 2 ^ 64 := by
      simp only [kVTableOverlayPrefixSize, kABIPrefixSize, intMax] at *
      omega
    rw [allocatedWords, Nat.mod_eq_of_lt room]
    exact BlockPart.position_lt present
  · intro left right leftPresent rightPresent same
    rw [placed, BlockPart.index_eq_position small leftPresent,
      BlockPart.index_eq_position small rightPresent, Option.some.injEq] at same
    exact BlockPart.position_injective leftPresent rightPresent same

theorem applyVTableOverlay_cases :
    memory.applyVTableOverlay (some inst) totalMethodSlots listed nExtra =
      if 2 ≤ totalMethodSlots ∧ ¬OutOfRange totalMethodSlots listed then
        let made := memory.construct
          (memory.overlayWords (memory.vptrs inst) totalMethodSlots listed nExtra)
          (memory.vptrs inst) inst nExtra
        (made.1, some made.2)
      else (memory, none) := by
  have outside : (listed.any fun entry =>
      decide (entry.1 < 0) || decide ((totalMethodSlots : Int) ≤ entry.1)) = true ↔
      OutOfRange totalMethodSlots listed := by
    simp [OutOfRange, List.any_eq_true]
  rw [applyVTableOverlay]
  by_cases few : (totalMethodSlots : Int) < kMinVTableMethodSlots
  · have short : ¬2 ≤ totalMethodSlots := by
      simp only [kMinVTableMethodSlots] at few
      omega
    rw [if_pos few, if_neg fun both => short both.1]
  · have enough : 2 ≤ totalMethodSlots := by
      simp only [kMinVTableMethodSlots] at few
      omega
    rw [if_neg few]
    by_cases out : OutOfRange totalMethodSlots listed
    · rw [if_pos (outside.mpr out), if_neg fun both => both.2 out]
    · rw [if_neg fun found => out (outside.mp found), if_pos ⟨enough, out⟩]
      rfl

end OverlayMemory

open OverlayMemory

theorem block_law_iff (memory : OverlayMemory) (inst : Address) (totalMethodSlots : Nat)
    (fits : totalMethodSlots ≤ intMax) (listed : List (Int × Word)) (nExtra : Nat) :
    memory.BlockLaw inst totalMethodSlots listed nExtra ↔
      OutOfRange totalMethodSlots listed ∨ (2 ≤ totalMethodSlots ∧ nExtra + 3 ≤ intMax) := by
  rw [BlockLaw, applyVTableOverlay_cases]
  by_cases out : OutOfRange totalMethodSlots listed
  · simp [out]
  by_cases enough : 2 ≤ totalMethodSlots
  · have natural : ∀ entry ∈ listed, 0 ≤ entry.1 := by
      intro entry member
      have := mt (fun low => ⟨entry, member, Or.inl low⟩) out
      omega
    simp only [out, enough, not_false_eq_true, if_true, false_or, true_and,
      forall_const, Option.isSome_some, IsEmpty.forall_iff]
    constructor
    · intro contents
      by_contra many
      -- the first extra word whose offset does not fit into an `int`
      have present : intMax - 3 < nExtra := by
        simp only [intMax] at many ⊢
        omega
      obtain ⟨index, overflow, _⟩ := contents.extras (intMax - 3) present
      simp only [BlockPart.index, BlockPart.offset, extraSlotOffset_overflow] at overflow
      cases overflow
    · intro few
      exact construct_contents memory inst totalMethodSlots listed nExtra few fits natural
  · simp [out, enough]

/-- Two replacements of one slot of four, beside two extra words. -/
theorem block_law_twice :
    (emitted [.data 0, .data 1, .code 10, .code 11, .code 12, .code 13]).BlockLaw 5 4
      [(2, .code 20), (2, .code 21)] 2 :=
  (block_law_iff _ 5 4 (by decide) _ 2).mpr (Or.inr (by decide))

/-- A class with one virtual function and no virtual destructor has one method slot. -/
theorem block_law_one_slot :
    ¬(emitted [.data 0, .data 1, .code 10]).BlockLaw 5 1 [(0, .code 20)] 0 := by
  rintro ⟨_, built⟩
  have inRange : ¬OutOfRange 1 [(0, Word.code 20)] := by
    rintro ⟨entry, member, out⟩
    obtain rfl : entry = (0, Word.code 20) := by simpa using member
    simp at out
  have refused := (built inRange).1
  rw [applyVTableOverlay_cases, if_neg (by decide)] at refused
  cases refused

end CppInterOp
