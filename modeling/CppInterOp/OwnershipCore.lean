import CppInterOp.Library.PointerPrograms

/-!
The code whose pointers the ownership analyses follow: forms of allocation and deallocation,
and programs over them.
-/

namespace CppInterOp

open PointerPrograms

inductive AllocForm
  | new
  | newArr
  | malloc
  | operatorNew
  | operatorNewArr
  deriving DecidableEq, Repr

inductive DeallocForm
  | delete
  | deleteArr
  | free
  deriving DecidableEq, Repr

abbrev CodeExpr := Expr AllocForm
abbrev Code := Stmt AllocForm DeallocForm
abbrev CodeFunction := Function AllocForm DeallocForm
abbrev CodeBase := Program AllocForm DeallocForm

end CppInterOp
