import Mathlib.Data.Nat.Digits.Defs

/-!
A number as a fixed count of bytes, in either byte order, and the number that such bytes stand
for.
-/

namespace HostBytes

def little : Nat → Nat → List UInt8
  | 0, _ => []
  | count + 1, number => UInt8.ofNat number :: little count (number / 256)

def encode (littleEndian : Bool) (count number : Nat) : List UInt8 :=
  if littleEndian then little count number else (little count number).reverse

def decode (littleEndian : Bool) (bytes : List UInt8) : Nat :=
  Nat.ofDigits 256 ((if littleEndian then bytes else bytes.reverse).map UInt8.toNat)

theorem little_length (count number : Nat) : (little count number).length = count := by
  induction count generalizing number with
  | zero => rfl
  | succ count ih => rw [little, List.length_cons, ih]

@[simp] theorem encode_length (littleEndian : Bool) (count number : Nat) :
    (encode littleEndian count number).length = count := by
  cases littleEndian <;> simp [encode, little_length]

theorem little_value (count number : Nat) :
    Nat.ofDigits 256 ((little count number).map UInt8.toNat) = number % 256 ^ count := by
  induction count generalizing number with
  | zero => simp [little, Nat.mod_one]
  | succ count ih =>
      have digit : (UInt8.ofNat number).toNat = number % 256 := UInt8.toNat_ofNat'
      rw [little, List.map_cons, Nat.ofDigits_cons, ih, digit, Nat.pow_succ',
        Nat.mod_mul]

theorem decode_encode (littleEndian : Bool) (count number : Nat) :
    decode littleEndian (encode littleEndian count number) = number % 256 ^ count := by
  have ordered : (if littleEndian then encode littleEndian count number
      else (encode littleEndian count number).reverse) = little count number := by
    cases littleEndian <;> simp [encode]
  rw [decode, ordered, little_value]

theorem decode_encode_of_lt {littleEndian : Bool} {count number : Nat} (fits : number < 2 ^ (8 * count)) :
    decode littleEndian (encode littleEndian count number) = number := by
  rw [decode_encode]
  apply Nat.mod_eq_of_lt
  have power : 256 ^ count = 2 ^ (8 * count) := by rw [Nat.pow_mul]
  rwa [power]

end HostBytes
