import Mathlib.Data.List.Basic

/-!
Masks with a bit for every flag of a list, and hexadecimal numerals: when masks are the same, and that
a numeral is read as the number that it was written for.
-/

namespace BitMasks

/-- Bit `I` for the first flag, and the ones behind it for the others. -/
def maskFrom (I : Nat) : List Bool → Nat
  | [] => 0
  | flag :: flags => (if flag then 1 <<< I else 0) ||| maskFrom (I + 1) flags

theorem testBit_flag (flag : Bool) (I bit : Nat) :
    (if flag then 1 <<< I else 0).testBit bit = (flag && decide (I = bit)) := by
  cases flag with
  | false => exact Nat.zero_testBit bit
  | true =>
      rw [if_pos rfl, Nat.one_shiftLeft, Nat.testBit_two_pow]
      rfl

theorem testBit_maskFrom (flags : List Bool) (I bit : Nat) :
    (maskFrom I flags).testBit bit = (decide (I ≤ bit) && flags.getD (bit - I) false) := by
  induction flags generalizing I with
  | nil => simp [maskFrom]
  | cons flag flags ih =>
      rw [maskFrom, Nat.testBit_or, testBit_flag, ih]
      rcases Nat.lt_trichotomy bit I with below | rfl | above
      · have other : I ≠ bit := Nat.ne_of_gt below
        have apart : ¬I ≤ bit := Nat.not_le.mpr below
        have later : ¬I + 1 ≤ bit := fun reaches => apart (Nat.le_of_succ_le reaches)
        simp [other, apart, later]
      · have later : ¬bit + 1 ≤ bit := Nat.not_succ_le_self bit
        simp [later]
      · obtain ⟨more, rfl⟩ := Nat.exists_eq_add_of_lt above
        have other : I ≠ I + more + 1 := by omega
        have reached : I ≤ I + more + 1 := by omega
        have later : I + 1 ≤ I + more + 1 := by omega
        have first : I + more + 1 - I = more + 1 := by omega
        have second : I + more + 1 - (I + 1) = more := by omega
        simp only [other, reached, later, first, second, List.getD_cons_succ, decide_false,
          decide_true, Bool.and_false, Bool.false_or]

theorem mask_eq_iff {flags others : List Bool} :
    maskFrom 0 flags = maskFrom 0 others ↔
      ∀ position, flags.getD position false = others.getD position false := by
  have bits : ∀ (list : List Bool) (position : Nat),
      (maskFrom 0 list).testBit position = list.getD position false := by
    intro list position
    rw [testBit_maskFrom, Nat.sub_zero, decide_eq_true (Nat.zero_le _), Bool.true_and]
  constructor
  · intro same position
    rw [← bits, same, bits]
  · intro same
    refine Nat.eq_of_testBit_eq fun position => ?_
    rw [bits, bits, same]

theorem mask_eq_iff_of_length {flags others : List Bool} (same : flags.length = others.length) :
    maskFrom 0 flags = maskFrom 0 others ↔ flags = others := by
  rw [mask_eq_iff]
  constructor
  · intro alike
    refine List.ext_getElem same fun position here there => ?_
    have equal := alike position
    rwa [List.getD_eq_getElem?_getD, List.getD_eq_getElem?_getD, List.getElem?_eq_getElem here,
      List.getElem?_eq_getElem there] at equal
  · rintro rfl position
    rfl

def hexDigits : List Char := "0123456789abcdef".toList

def hexValue (digits : List Char) : Nat :=
  digits.foldl (fun value c => 16 * value + hexDigits.idxOf c) 0

theorem digitChar_hex : ∀ d : Fin 16,
    Nat.digitChar d ∈ hexDigits ∧ hexDigits.idxOf (Nat.digitChar d) = d := by decide

theorem toDigits_hex (n : Nat) :
    (∀ c ∈ Nat.toDigits 16 n, c ∈ hexDigits) ∧ hexValue (Nat.toDigits 16 n) = n := by
  induction n using Nat.strongRecOn with
  | ind n ih =>
      by_cases short : n < 16
      · obtain ⟨digit, value⟩ := digitChar_hex ⟨n, short⟩
        rw [Nat.toDigits_of_lt_base short]
        refine ⟨fun c member => ?_, ?_⟩
        · rw [List.mem_singleton.mp member]
          exact digit
        · change 16 * 0 + hexDigits.idxOf _ = n
          rw [value]
          exact Nat.zero_add n
      · obtain ⟨digits, value⟩ := ih (n / 16) (Nat.div_lt_self (by omega) (by decide))
        obtain ⟨digit, last⟩ := digitChar_hex ⟨n % 16, Nat.mod_lt _ (by decide)⟩
        rw [Nat.toDigits_of_base_le (by decide) (Nat.not_lt.mp short)]
        refine ⟨fun c member => ?_, ?_⟩
        · rcases List.mem_append.mp member with front | back
          · exact digits c front
          · rw [List.mem_singleton.mp back]
            exact digit
        · rw [hexValue, List.foldl_append]
          change 16 * hexValue _ + hexDigits.idxOf _ = n
          rw [value, last]
          exact Nat.div_add_mod n 16

end BitMasks
