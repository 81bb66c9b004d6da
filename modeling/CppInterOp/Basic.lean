import Mathlib.Data.List.Basic

/-! Pointers and standard containers shared by the components. -/

namespace CppInterOp

/-- The address of an object; a nullable pointer is an `Option Address`. -/
abbrev Address := Nat

instance lawfulText : LawfulBEq (List Char) := inferInstance

/-- `std::map::insert` and `try_emplace`: an existing key keeps its value. -/
def emplace {Key Value : Type} [DecidableEq Key] (store : List (Key × Value)) (key : Key)
    (value : Value) : List (Key × Value) :=
  if store.any fun entry => entry.1 = key then store else store ++ [(key, value)]

end CppInterOp
