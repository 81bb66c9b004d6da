import CppInterOp.Library.Runs
import CppInterOp.Library.Visited
import CppInterOp.OwnershipCore

/-!
How functions deallocate the pointers they are passed, as `DeallocationTraverser` reads it
off their bodies: the aliases of parameters it follows, and the class of each parameter.
-/

namespace CppInterOp

open PointerPrograms

inductive DeallocType
  | none
  | delete
  | deleteArr
  | free
  | unknown
  | opaqueBody
  deriving DecidableEq, Repr

def DeallocForm.type : DeallocForm → DeallocType
  | delete => .delete
  | deleteArr => .deleteArr
  | free => .free

inductive Visit
  | assign (v : Var) (e : Option CodeExpr)
  | dealloc (form : DeallocForm) (e : CodeExpr)
  | call (f : Nat) (args : List CodeExpr)

section Visits

mutual

/-- A traversal comes to a node before its children, and to these from left to right. -/
def exprVisits : CodeExpr → List Visit
  | .var _ => []
  | .null => []
  | .other => []
  | .allocate _ => []
  | .cast e => exprVisits e
  | .assign v e => .assign v (some e) :: exprVisits e
  | .shift _ e => exprVisits e
  | .comma a b => exprVisits a ++ exprVisits b
  | .cond c a b => exprVisits c ++ exprVisits a ++ exprVisits b
  | .call f args => .call f args :: argsVisits args
  | .filled _ => []

def argsVisits : List CodeExpr → List Visit
  | [] => []
  | e :: es => exprVisits e ++ argsVisits es

end

def stmtVisits : Code → List Visit
  | .absent => []
  | .expr e => exprVisits e
  | .decl name init => .assign (.own name) init :: (init.map exprVisits).getD []
  | .seq s t => stmtVisits s ++ stmtVisits t
  | .dealloc form e => .dealloc form e :: exprVisits e
  | .ite init test s t => stmtVisits init ++ stmtVisits test ++ stmtVisits s ++ stmtVisits t
  | .loop c inc body => exprVisits c ++ exprVisits inc ++ stmtVisits body
  | .doWhile body c => stmtVisits body ++ exprVisits c
  | .switch c body => exprVisits c ++ stmtVisits body
  | .labelled s => stmtVisits s
  | .brk => []
  | .cont => []
  | .ret e => exprVisits e

end Visits

/-- `IgnoreParenCasts`, and the variable that is then left. -/
def resolveExpr : CodeExpr → Option Var
  | .cast e => resolveExpr e
  | .var v => some v
  | _ => none

/-- A function that is not in the table has not been seen; one without a value is being
analysed. -/
abbrev VisitedFuncs := Visited.Table (Option (List DeallocType))

structure DeallocationTraverser where
  aliasMap : Nat → Option Nat := fun _ => none
  overwritenParms : List Nat := []
  valPerParam : List DeallocType
  visitedFuncs : VisitedFuncs

namespace DeallocationTraverser

def resolveVar (traverser : DeallocationTraverser) : Var → Option Nat
  | .param index => if index ∈ traverser.overwritenParms then none else some index
  | .own name => traverser.aliasMap name

def resolveParam (traverser : DeallocationTraverser) (e : CodeExpr) : Option Nat :=
  (resolveExpr e).bind traverser.resolveVar

def updateMap (traverser : DeallocationTraverser) (v : Var) (e : Option CodeExpr) :
    DeallocationTraverser :=
  match v with
  | .param index =>
      { traverser with overwritenParms := index :: traverser.overwritenParms }
  | .own name =>
      { traverser with
        aliasMap := fun other =>
          if other = name then e.bind traverser.resolveParam else traverser.aliasMap other }

def joined (old new : DeallocType) : DeallocType :=
  if old = .unknown then .unknown
  else if (old ≠ .none ∧ old ≠ new) ∨ new = .opaqueBody then .unknown
  else new

def updateVPP (traverser : DeallocationTraverser) (index : Nat) (type : DeallocType) :
    DeallocationTraverser :=
  { traverser with
    valPerParam := traverser.valPerParam.modify index fun old => joined old type }

def record (traverser : DeallocationTraverser) (e : CodeExpr) (type : DeallocType) :
    DeallocationTraverser :=
  match traverser.resolveParam e with
  | none => traverser
  | some index => traverser.updateVPP index type

def joinVectors (traverser : DeallocationTraverser) (recursiveVec : List DeallocType)
    (args : List CodeExpr) : DeallocationTraverser :=
  (recursiveVec.zip args).foldl
    (fun traverser pair =>
      if pair.1 = .none then traverser else traverser.record pair.2 pair.1) traverser

/-- `analyze` is the analysis of a function that is called for the first time. -/
def visitCall
    (analyze : Nat → VisitedFuncs → List DeallocType × VisitedFuncs)
    (traverser : DeallocationTraverser) (f : Nat) (args : List CodeExpr) :
    DeallocationTraverser :=
  match traverser.visitedFuncs f with
  | some none => traverser
  | some (some known) => traverser.joinVectors known args
  | none =>
      let calleeVec := analyze f (traverser.visitedFuncs.insert f none)
      { traverser with visitedFuncs := calleeVec.2 }.joinVectors calleeVec.1 args

def visit
    (analyze : Nat → VisitedFuncs → List DeallocType × VisitedFuncs)
    (traverser : DeallocationTraverser) : Visit → DeallocationTraverser
  | .assign v e => traverser.updateMap v e
  | .dealloc form e => traverser.record e form.type
  | .call f args => traverser.visitCall analyze f args

end DeallocationTraverser

/-- `fuel` bounds how deep the analyses of functions not seen before nest. -/
def AnalyzeDeallocType (base : CodeBase) :
    Nat → Nat → VisitedFuncs → List DeallocType × VisitedFuncs
  | 0, f, visitedFuncs =>
      let fn := base.function f
      let valPerParam := List.replicate fn.numParams .opaqueBody
      (valPerParam, visitedFuncs.insert f (some valPerParam))
  | fuel + 1, f, visitedFuncs =>
      let fn := base.function f
      match fn.body with
      | none =>
          let valPerParam := List.replicate fn.numParams .opaqueBody
          (valPerParam, visitedFuncs.insert f (some valPerParam))
      | some body =>
          let traverser := Runs.run (DeallocationTraverser.visit (AnalyzeDeallocType base fuel))
            { valPerParam := List.replicate fn.numParams .none, visitedFuncs := visitedFuncs }
            (stmtVisits body)
          (traverser.valPerParam, traverser.visitedFuncs.insert f (some traverser.valPerParam))

/-- Whether there is a body to analyse, and the class of each parameter. -/
def GetDeallocType (base : CodeBase) (f : Nat) : Bool × List DeallocType :=
  let visitedFuncs : VisitedFuncs := Visited.Table.insert (fun _ => none) f none
  ((base.function f).body.isSome, (AnalyzeDeallocType base base.length f visitedFuncs).1)

end CppInterOp
