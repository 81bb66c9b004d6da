import Mathlib.Data.List.DropRight
import CppInterOp.Library.Branching

/-!
Calls through wrappers: the code that is generated for a function, and the check of the arguments
that it is run with.
-/

namespace CppInterOp

open Branching

inductive EReferenceType
  | kNotReference
  | kLValueReference
  | kRValueReference
  deriving DecidableEq, Repr

/-- `copyDeleted` is what `IsCopyConstructorDeleted` says of the type. -/
structure ParmVarDecl where
  refType : EReferenceType
  isPointer : Bool
  copyDeleted : Bool
  hasDefaultArg : Bool
  deriving DecidableEq, Repr

inductive FunctionKind
  | function
  | method
  | staticMethod
  | constructor
  deriving DecidableEq, Repr

/-- A function as its wrapper is made from it. An explicit object parameter is one of a method, the
first one, and has no default argument. -/
structure FunctionDecl where
  kind : FunctionKind
  returnsVoid : Bool
  explicitObject : Bool
  parameters : List ParmVarDecl
  object : explicitObject = true → kind = .method ∧
    ∃ PVD ∈ parameters.head?, PVD.hasDefaultArg = false

namespace FunctionDecl

variable (FD : FunctionDecl)

def nonObjectParameters : List ParmVarDecl :=
  if FD.explicitObject then FD.parameters.tail else FD.parameters

def getNumNonObjectParams : Nat := FD.nonObjectParameters.length

/-- The parameters up to the last one without a default argument. -/
def getMinRequiredArguments : Nat := (FD.parameters.rdropWhile ParmVarDecl.hasDefaultArg).length

def getMinRequiredExplicitArguments : Nat :=
  FD.getMinRequiredArguments - if FD.explicitObject then 1 else 0

def isConstructor : Bool := FD.kind == .constructor

def isDefaultConstructor : Bool := FD.isConstructor && FD.getMinRequiredArguments == 0

end FunctionDecl

inductive ArgForm
  | lvalue
  | rvalue
  | pointer
  | moved
  | copied
  deriving DecidableEq, Repr

structure ArgExpr where
  form : ArgForm
  index : Nat
  deriving DecidableEq, Repr

inductive ResultUse
  | nothing
  | intoRet
  | discarded
  deriving DecidableEq, Repr

inductive WrapperAction
  | call (use : ResultUse) (args : List ArgExpr)
  | new (placement array : Bool) (args : List ArgExpr)
  deriving DecidableEq, Repr

namespace WrapperAction

def args : WrapperAction → List ArgExpr
  | call _ args => args
  | new _ _ args => args

end WrapperAction

inductive WrapperTest
  | nargsIs (N : Nat)
  | naryAboveOne
  | ret
  | is_arena
  deriving DecidableEq, Repr

abbrev WrapperCode := Script WrapperTest WrapperAction

def argExpr (PVD : ParmVarDecl) (i : Nat) : ArgExpr :=
  match PVD.refType with
  | .kLValueReference => ⟨.lvalue, i⟩
  | .kRValueReference => ⟨.rvalue, i⟩
  | .kNotReference =>
      if PVD.isPointer then ⟨.pointer, i⟩
      else if PVD.copyDeleted then ⟨.moved, i⟩
      else ⟨.copied, i⟩

def argExprs (parameters : List ParmVarDecl) (N : Nat) : List ArgExpr :=
  (parameters.take N).zipIdx.map fun parameter => argExpr parameter.1 parameter.2

namespace FunctionDecl

variable (FD : FunctionDecl)

def make_narg_ctor (N : Nat) (array : Bool) : List ArgExpr :=
  if N ≠ 0 ∧ array = false then argExprs FD.parameters N else []

def make_narg_call (N : Nat) : List ArgExpr := argExprs FD.nonObjectParameters N

/-- `(is_arena) ? ::new (*(ClassName**)ret) ... : new ...` -/
def newExpression (N : Nat) (array : Bool) : WrapperCode :=
  .branch .is_arena (.perform (.new true array (FD.make_narg_ctor N array)))
    (.perform (.new false array (FD.make_narg_ctor N array)))

def make_narg_ctor_with_return (N : Nat) : WrapperCode :=
  if FD.isDefaultConstructor then
    .branch .naryAboveOne (FD.newExpression N true) (FD.newExpression N false)
  else FD.newExpression N false

/-- No function declaration is a using-shadow, so that no special member is left out. -/
def make_narg_call_with_return (N : Nat) : WrapperCode :=
  if FD.isConstructor then FD.make_narg_ctor_with_return N
  else if FD.returnsVoid then .seq (.perform (.call .nothing (FD.make_narg_call N))) .stop
  else
    .branch .ret (.seq (.perform (.call .intoRet (FD.make_narg_call N))) .stop)
      (.seq (.perform (.call .discarded (FD.make_narg_call N))) .stop)

def get_wrapper_code : WrapperCode :=
  let min_args := FD.getMinRequiredExplicitArguments
  let num_params := FD.getNumNonObjectParams
  if min_args = num_params then FD.make_narg_call_with_return num_params
  else
    -- One clause for every possible number of arguments.
    .guarded .nargsIs FD.make_narg_call_with_return
      (List.range' min_args (num_params + 1 - min_args))

end FunctionDecl

/-- What a wrapper is run with. Of the pointers it matters whether they are null. -/
structure WrapperInput where
  nargs : Nat
  nary : Nat
  ret : Bool
  is_arena : Bool
  deriving DecidableEq, Repr

def WrapperInput.holds (input : WrapperInput) : WrapperTest → Bool
  | .nargsIs N => input.nargs == N
  | .naryAboveOne => decide (1 < input.nary)
  | .ret => input.ret
  | .is_arena => input.is_arena

def FunctionDecl.runWrapper (FD : FunctionDecl) (input : WrapperInput) : List WrapperAction :=
  FD.get_wrapper_code.performed input.holds

namespace JitCall

structure ArgList where
  m_Args : Bool
  m_ArgSize : Nat
  deriving DecidableEq, Repr

/-- For the wrapper of a function or a constructor: destructors have another one. -/
def AreArgumentsValid (FD : FunctionDecl) (result : Bool) (args : ArgList) (self : Bool)
    (nary : Nat) : Bool :=
  (!FD.isConstructor || result) &&
    !decide (FD.getMinRequiredExplicitArguments > args.m_ArgSize) &&
    (args.m_ArgSize == 0 || args.m_Args) &&
    (!(FD.kind == .method) || self) &&
    (FD.returnsVoid || result) &&
    !(FD.isConstructor && nary == 0) &&
    !(FD.isConstructor && (FD.getMinRequiredArguments != 0 && decide (nary > 1)))

end JitCall

end CppInterOp
