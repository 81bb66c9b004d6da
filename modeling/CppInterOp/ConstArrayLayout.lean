import CppInterOp.ConstArrayCore

/-!
What the loop of `MaterializeConstArrayValue` does to a new block: it never writes outside the
block, and if it reaches the end the bytes read back as the elements of the value.
-/

namespace CppInterOp

open Blocks

/-- The bytes of an integer that fills them exactly, in the byte order of the host. -/
def StoresInts {VarDecl : Type} (C : ConstArrayHost VarDecl) (littleEndian : Bool) : Prop :=
  ∀ IntVal StoreBytes, IntVal.BitWidth.toNat = 8 * StoreBytes.toNat →
    C.storedBytes IntVal StoreBytes =
      HostBytes.encode littleEndian StoreBytes.toNat IntVal.value.toNat

def readInt (littleEndian : Bool) (EltBytes : UInt64) (bytes : List UInt8) : APInt :=
  ⟨(EltBytes * 8).toUInt32, BitVec.ofNat _ (HostBytes.decode littleEndian bytes)⟩

def readInts (littleEndian : Bool) (EltBytes : UInt64) : Nat → List UInt8 → List APInt
  | 0, _ => []
  | Count + 1, bytes =>
      readInt littleEndian EltBytes (bytes.take EltBytes.toNat) ::
        readInts littleEndian EltBytes Count (bytes.drop EltBytes.toNat)

section

variable {VarDecl : Type} {C : ConstArrayHost VarDecl} {littleEndian : Bool} {EltBytes : UInt64}

theorem readInts_append {bytes : List UInt8} (length : bytes.length = EltBytes.toNat) (Count : Nat)
    (more : List UInt8) : readInts littleEndian EltBytes (Count + 1) (bytes ++ more) =
      readInt littleEndian EltBytes bytes :: readInts littleEndian EltBytes Count more := by
  rw [readInts, List.take_left' length, List.drop_left' length]

theorem bits_of_width {IntVal : APInt} (small : EltBytes.toNat < 2 ^ 32)
    (width : IntVal.BitWidth.toUInt64 = EltBytes * 8) :
    IntVal.BitWidth.toNat = 8 * EltBytes.toUInt32.toNat := by
  have bits := congrArg UInt64.toNat width
  rw [UInt32.toNat_toUInt64, UInt64.toNat_mul] at bits
  rw [UInt64.toNat_toUInt32, Nat.mod_eq_of_lt small, bits]
  have eight : (8 : UInt64).toNat = 8 := rfl
  rw [eight, Nat.mod_eq_of_lt (by omega), Nat.mul_comm]

theorem storedBytes_length (stores : StoresInts C littleEndian) (small : EltBytes.toNat < 2 ^ 32)
    {IntVal : APInt} (width : IntVal.BitWidth.toUInt64 = EltBytes * 8) :
    (C.storedBytes IntVal EltBytes.toUInt32).length = EltBytes.toNat := by
  rw [stores _ _ (bits_of_width small width), HostBytes.encode_length, UInt64.toNat_toUInt32,
    Nat.mod_eq_of_lt small]

theorem readInt_storedBytes (stores : StoresInts C littleEndian) (small : EltBytes.toNat < 2 ^ 32)
    {IntVal : APInt} (width : IntVal.BitWidth.toUInt64 = EltBytes * 8) :
    readInt littleEndian EltBytes (C.storedBytes IntVal EltBytes.toUInt32) = IntVal := by
  have bits := bits_of_width small width
  have decoded : HostBytes.decode littleEndian (C.storedBytes IntVal EltBytes.toUInt32) =
      IntVal.value.toNat := by
    rw [stores _ _ bits]
    apply HostBytes.decode_encode_of_lt
    rw [← bits]
    exact IntVal.value.isLt
  have same : (EltBytes * 8).toUInt32 = IntVal.BitWidth := by
    rw [← width, UInt32.toUInt32_toUInt64]
  obtain ⟨BitWidth, value⟩ := IntVal
  simp only at same
  subst same
  rw [readInt, decoded, BitVec.ofNat_toNat, BitVec.setWidth_eq]

theorem stored_at {I : UInt64} {Count : Nat}
    (size : Count * EltBytes.toNat < 2 ^ 32) (inside : I.toNat < Count) :
    (I * EltBytes).toNat = I.toNat * EltBytes.toNat := by
  rw [UInt64.toNat_mul]
  apply Nat.mod_eq_of_lt
  have below := Nat.mul_le_mul_right EltBytes.toNat inside.le
  omega

theorem succ_index {I limit : UInt64} (inside : I.toNat < limit.toNat) :
    (I + 1).toNat = I.toNat + 1 := by
  have bound := limit.toNat_lt
  rw [UInt64.toNat_add]
  exact Nat.mod_eq_of_lt (by simp only [UInt64.toNat_one]; omega)

/-- One element of the loop: where it is an integer of the right width, its bytes go behind
those that are already written. -/
theorem StoreIntToMemory_next (stores : StoresInts C littleEndian) (small : EltBytes.toNat < 2 ^ 32)
    {IntVal : APInt} (width : IntVal.BitWidth.toUInt64 = EltBytes * 8) (Buf rest : Nat)
    (written : List UInt8) (memory : Memory UInt8) :
    StoreIntToMemory C IntVal (Buf + written.length) EltBytes.toUInt32
        (⟨Buf, written.map some ++ List.replicate ((rest + 1) * EltBytes.toNat) none⟩ :: memory) =
      some (⟨Buf, (written ++ C.storedBytes IntVal EltBytes.toUInt32).map some ++
        List.replicate (rest * EltBytes.toNat) none⟩ :: memory) := by
  have bits := bits_of_width small width
  have wide : ¬ (IntVal.BitWidth.toNat + 7) / 8 < EltBytes.toUInt32.toNat := by omega
  have room : List.replicate ((rest + 1) * EltBytes.toNat) (none : Option UInt8) =
      List.replicate EltBytes.toNat none ++ List.replicate (rest * EltBytes.toNat) none := by
    rw [List.replicate_append_replicate, Nat.succ_mul, Nat.add_comm]
  have length : (List.replicate EltBytes.toNat (none : Option UInt8)).length =
      (C.storedBytes IntVal EltBytes.toUInt32).length := by
    rw [List.length_replicate, storedBytes_length stores small width]
  have stored := store_newest Buf (written.map some) length
    (List.replicate (rest * EltBytes.toNat) none) memory
  rw [List.length_map] at stored
  rw [StoreIntToMemory, if_neg wide, room, ← List.append_assoc, stored, List.map_append]

/-- From the element `I` on, with those before it written: no store fails, and a loop that
reaches the end leaves the bytes of all elements. -/
theorem layOutElements_spec (stores : StoresInts C littleEndian) (Val : APValue) (Buf : Nat)
    (size : Val.getArraySize.toNat * EltBytes.toNat < 2 ^ 32) (small : EltBytes.toNat < 2 ^ 32)
    (memory : Memory UInt8) (rest : Nat) (I : UInt64) (written : List UInt8)
    (position : I.toNat + rest = Val.getArraySize.toNat)
    (length : written.length = I.toNat * EltBytes.toNat) :
    ∃ done cells,
      layOutElements C Val EltBytes Buf rest I
          (⟨Buf, written.map some ++ List.replicate (rest * EltBytes.toNat) none⟩ :: memory) =
        some (done, ⟨Buf, cells⟩ :: memory) ∧
      (done = true → ∃ bytes : List UInt8, cells = (written ++ bytes).map some ∧
        bytes.length = rest * EltBytes.toNat ∧
        (readInts littleEndian EltBytes rest bytes).map (some ∘ APValue.int) =
          Val.elements.drop I.toNat) := by
  induction rest generalizing I written with
  | zero =>
      refine ⟨true, written.map some, ?_, fun _ => ⟨[], ?_, ?_, ?_⟩⟩
      · rw [layOutElements, Nat.zero_mul, List.replicate_zero, List.append_nil]
      · rw [List.append_nil]
      · rw [List.length_nil, Nat.zero_mul]
      · rw [readInts, List.map_nil, List.drop_eq_nil_of_le]
        rw [Val.elements_length]
        omega
  | succ rest ih =>
      have inside : I.toNat < Val.getArraySize.toNat := by omega
      rw [layOutElements]
      split
      · rename_i IntVal element
        by_cases width : IntVal.BitWidth.toUInt64 = EltBytes * 8
        · have bytes := storedBytes_length stores small width
          have next := succ_index inside
          have place : (I * EltBytes).toNat = written.length := by
            rw [stored_at size inside, length]
          rw [if_neg (not_not.mpr width), place, StoreIntToMemory_next stores small width]
          obtain ⟨done, cells, laid, complete⟩ := ih (I + 1)
            (written ++ C.storedBytes IntVal EltBytes.toUInt32) (by omega)
            (by rw [List.length_append, length, bytes, next, Nat.succ_mul])
          refine ⟨done, cells, laid, fun finished => ?_⟩
          obtain ⟨more, all, count, values⟩ := complete finished
          refine ⟨C.storedBytes IntVal EltBytes.toUInt32 ++ more, ?_, ?_, ?_⟩
          · rw [all, List.append_assoc]
          · rw [List.length_append, bytes, count, Nat.succ_mul, Nat.add_comm]
          · rw [readInts_append bytes, readInt_storedBytes stores small width, List.map_cons, values,
              next, Val.elements_drop inside, element]
            rfl
        · exact ⟨false, _, by rw [if_pos width], fun finished => nomatch finished⟩
      · exact ⟨false, _, rfl, fun finished => nomatch finished⟩

def FillsElement (EltBytes : UInt64) (element : Option APValue) : Prop :=
  ∃ IntVal : APInt, element = some (.int IntVal) ∧ IntVal.BitWidth.toUInt64 = EltBytes * 8

/-- The loop gives up at the first element that cannot be laid out, and only there. -/
theorem layOutElements_done {Val : APValue} {Buf rest : Nat} {I : UInt64}
    (position : I.toNat + rest = Val.getArraySize.toNat) {memory : Memory UInt8}
    {done : Bool} {after : Memory UInt8}
    (laid : layOutElements C Val EltBytes Buf rest I memory = some (done, after)) :
    done = true ↔ ∀ element ∈ Val.elements.drop I.toNat, FillsElement EltBytes element := by
  induction rest generalizing I memory with
  | zero =>
      have none_left : Val.elements.drop I.toNat = [] := by
        apply List.drop_eq_nil_of_le
        rw [Val.elements_length]
        omega
      rw [layOutElements, Option.some_inj, Prod.mk.injEq] at laid
      simp [none_left, ← laid.1]
  | succ rest ih =>
      have inside : I.toNat < Val.getArraySize.toNat := by omega
      rw [Val.elements_drop inside, List.forall_mem_cons]
      rw [layOutElements] at laid
      split at laid
      · rename_i IntVal element
        by_cases width : IntVal.BitWidth.toUInt64 = EltBytes * 8
        · rw [if_neg (not_not.mpr width)] at laid
          split at laid
          · have next := succ_index inside
            have later := ih (by omega) laid
            rw [next] at later
            rw [later, and_iff_right]
            exact ⟨IntVal, element, width⟩
          · exact nomatch laid
        · rw [if_pos width, Option.some_inj, Prod.mk.injEq] at laid
          rw [← laid.1]
          refine ⟨fun finished => (nomatch finished), fun ⟨fills, _⟩ => ?_⟩
          obtain ⟨other, same, exact_width⟩ := fills
          rw [element, Option.some_inj, APValue.int.injEq] at same
          exact absurd (same ▸ exact_width) width
      · rename_i unusable
        rw [Option.some_inj, Prod.mk.injEq] at laid
        rw [← laid.1]
        refine ⟨fun finished => (nomatch finished), fun ⟨fills, _⟩ => ?_⟩
        obtain ⟨other, same, -⟩ := fills
        exact absurd same (unusable other)

end

end CppInterOp
