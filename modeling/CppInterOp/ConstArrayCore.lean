import CppInterOp.Library.Blocks
import CppInterOp.Library.HostBytes

/-!
The address that a constant array is served from: its evaluated initializer, laid out once in
memory of the ASTContext and kept in a cache. What clang knows of a variable, where the
ASTContext allocates and the bytes that LLVM stores for an integer are given.
-/

namespace CppInterOp

open Blocks

structure APInt where
  BitWidth : UInt32
  value : BitVec BitWidth.toNat
  deriving DecidableEq, Repr

inductive APValue
  | int (Int : APInt)
  | array (initialized : List APValue) (filler : Option APValue) (size : UInt64)
  | other

namespace APValue

def isArray : APValue → Bool
  | .array _ _ _ => true
  | _ => false

def getArraySize : APValue → UInt64
  | .array _ _ size => size
  | _ => 0

def getArrayElt (I : UInt64) : APValue → Option APValue
  | .array initialized filler _ => if I.toNat < initialized.length then initialized[I.toNat]? else filler
  | _ => none

def elements : APValue → List (Option APValue)
  | .array initialized filler size =>
      (initialized.map some ++ List.replicate (size.toNat - initialized.length) filler).take size.toNat
  | _ => []

theorem elements_length (Val : APValue) : Val.elements.length = Val.getArraySize.toNat := by
  cases Val with
  | int Int => rfl
  | other => rfl
  | array initialized filler size =>
      simp only [elements, getArraySize, List.length_take, List.length_append, List.length_map,
        List.length_replicate]
      omega

theorem elements_getElem (Val : APValue) {I : UInt64} (inside : I.toNat < Val.getArraySize.toNat) :
    Val.elements[I.toNat]? = some (Val.getArrayElt I) := by
  cases Val with
  | int Int => exact absurd inside (Nat.not_lt_zero _)
  | other => exact absurd inside (Nat.not_lt_zero _)
  | array initialized filler size =>
      simp only [getArraySize] at inside
      simp only [elements, getArrayElt, List.getElem?_take_of_lt inside]
      by_cases explicit : I.toNat < initialized.length
      · rw [if_pos explicit, List.getElem?_append_left (by simpa using explicit),
          List.getElem?_map, List.getElem?_eq_getElem explicit]
        rfl
      · rw [if_neg explicit, List.getElem?_append_right (by simpa using Nat.le_of_not_lt explicit),
          List.getElem?_replicate, if_pos (by simp only [List.length_map]; omega)]

theorem elements_drop (Val : APValue) {I : UInt64} (inside : I.toNat < Val.getArraySize.toNat) :
    Val.elements.drop I.toNat = Val.getArrayElt I :: Val.elements.drop (I.toNat + 1) := by
  have bound : I.toNat < Val.elements.length := by
    rw [elements_length]
    exact inside
  have here := Val.elements_getElem inside
  rw [List.getElem?_eq_getElem bound, Option.some_inj] at here
  rw [List.drop_eq_getElem_cons bound, here]

end APValue

structure ElementType where
  sizeInChars : UInt64
  alignInChars : UInt64
  deriving DecidableEq, Repr

/-- The variables of the AST with their evaluated initializers, and the parts of clang and LLVM
that the code calls. An array variable has an element type. -/
structure ConstArrayHost (VarDecl : Type) where
  getCanonicalDecl : VarDecl → VarDecl
  hasInit : VarDecl → Bool
  getDefinition : VarDecl → Option VarDecl
  isVolatileQualified : VarDecl → Bool
  isConstexpr : VarDecl → Bool
  isConstQualified : VarDecl → Bool
  isIntegralType : VarDecl → Bool
  getAsArrayType : VarDecl → Option ElementType
  evaluateValue : VarDecl → Option APValue
  getRawData : VarDecl → Nat
  Allocate : Memory UInt8 → UInt64 → UInt32 → Nat
  storedBytes : APInt → UInt32 → List UInt8

/-- The variables whose arrays were asked for, by canonical declaration, and the memory. -/
structure ConstArrays (VarDecl : Type) where
  Cache : VarDecl → Option Nat
  memory : Memory UInt8

section

variable {VarDecl : Type} (C : ConstArrayHost VarDecl)

/-- `none` where the width assertion fails or the bytes are not those of one block. -/
def StoreIntToMemory (IntVal : APInt) (Dst : Nat) (StoreBytes : UInt32) (memory : Memory UInt8) :
    Option (Memory UInt8) :=
  if (IntVal.BitWidth.toNat + 7) / 8 < StoreBytes.toNat then none
  else store memory Dst (C.storedBytes IntVal StoreBytes)

/-- The loop over the elements from `I` on; the flag tells whether it reached the end. -/
def layOutElements (Val : APValue) (EltBytes : UInt64) (Buf : Nat) :
    Nat → UInt64 → Memory UInt8 → Option (Bool × Memory UInt8)
  | 0, _, memory => some (true, memory)
  | rest + 1, I, memory =>
      match Val.getArrayElt I with
      | some (.int Int) =>
          if Int.BitWidth.toUInt64 ≠ EltBytes * 8 then some (false, memory)
          else
            match StoreIntToMemory C Int (Buf + (I * EltBytes).toNat) EltBytes.toUInt32 memory with
            | some memory => layOutElements Val EltBytes Buf rest (I + 1) memory
            | none => none
      | _ => some (false, memory)

def ConstArrayHost.arrayType (VD : VarDecl) (Val : APValue) : Option ElementType :=
  if Val.isArray then C.getAsArrayType VD else none

def ConstArrayHost.EltBytes (VD : VarDecl) (Val : APValue) : UInt64 :=
  ((C.arrayType VD Val).map ElementType.sizeInChars).getD 0

def ConstArrayHost.Count (VD : VarDecl) (Val : APValue) : UInt64 :=
  ((C.arrayType VD Val).map fun _ => Val.getArraySize).getD 0

def ConstArrayHost.EltAlign (VD : VarDecl) (Val : APValue) : UInt32 :=
  (((C.arrayType VD Val).map ElementType.alignInChars).getD 0).toUInt32

/-- The values that are turned away before the cache is consulted. -/
def ConstArrayHost.Unsuited (VD : VarDecl) (Val : APValue) : Prop :=
  C.EltBytes VD Val = 0 ∨ C.Count VD Val = 0 ∨ C.Count VD Val > 0xFFFFFFFF / C.EltBytes VD Val

instance (VD : VarDecl) (Val : APValue) : Decidable (C.Unsuited VD Val) :=
  inferInstanceAs (Decidable (_ ∨ _ ∨ _))

variable [DecidableEq VarDecl]

/-- The result with the cache and the memory afterwards; `none` where a store goes wrong. -/
def MaterializeConstArrayValue (VD : VarDecl) (Val : APValue) (arrays : ConstArrays VarDecl) :
    Option (Nat × ConstArrays VarDecl) :=
  let EltBytes := C.EltBytes VD Val
  let Count := C.Count VD Val
  if C.Unsuited VD Val then some (0, arrays)
  else
    match arrays.Cache (C.getCanonicalDecl VD) with
    | some cached => some (cached, arrays)
    | none =>
        let Cache := Function.update arrays.Cache (C.getCanonicalDecl VD) (some 0)
        let Buf := C.Allocate arrays.memory (EltBytes * Count) (C.EltAlign VD Val)
        let memory := allocate arrays.memory Buf (EltBytes * Count).toNat
        match layOutElements C Val EltBytes Buf Count.toNat 0 memory with
        | none => none
        | some (false, memory) => some (0, ⟨Cache, memory⟩)
        | some (true, memory) =>
            some (Buf, ⟨Function.update Cache (C.getCanonicalDecl VD) (some Buf), memory⟩)

def ConstArrayHost.constInitVD (VD : VarDecl) : Option VarDecl :=
  match if C.hasInit VD then some VD else C.getDefinition VD with
  | none => none
  | some InitVD =>
      if C.hasInit InitVD && !C.isVolatileQualified InitVD &&
          (C.isConstexpr InitVD || C.isConstQualified InitVD) then some InitVD
      else none

/-- `GetVariableOffset` between the search of the loaded binaries, with the address it found, and
the lookup in the JIT: the address that is served, if any. -/
def constVariableOffset (VD : VarDecl) (address : Nat) (arrays : ConstArrays VarDecl) :
    Option (Option Nat × ConstArrays VarDecl) :=
  if address ≠ 0 then some (none, arrays)
  else
    match C.constInitVD VD with
    | none => some (none, arrays)
    | some InitVD =>
        match C.evaluateValue InitVD with
        | none => some (none, arrays)
        | some val =>
            if C.isIntegralType InitVD then some (some (C.getRawData InitVD), arrays)
            else
              match MaterializeConstArrayValue C InitVD val arrays with
              | none => none
              | some (ArrAddr, arrays) => some (if ArrAddr ≠ 0 then some ArrAddr else none, arrays)

end

end CppInterOp
