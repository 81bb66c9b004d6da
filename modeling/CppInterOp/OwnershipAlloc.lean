import CppInterOp.Library.Visited
import CppInterOp.OwnershipCore

/-!
Which form of allocation a function returns pointers of, as `AllocationTraverser` reads it off
the body: the map of variables, its branches with their undo logs, and the join of the returned
values.
-/

namespace CppInterOp

open PointerPrograms

inductive AllocType
  | none
  | new
  | newArr
  | malloc
  | operatorNew
  | operatorNewArr
  | null
  | unknown
  deriving DecidableEq, Repr

def AllocForm.type : AllocForm → AllocType
  | new => .new
  | newArr => .newArr
  | malloc => .malloc
  | operatorNew => .operatorNew
  | operatorNewArr => .operatorNewArr

def IsAllocator (base : CodeBase) (f : Nat) : AllocType :=
  match (base.function f).promise with
  | none => .unknown
  | some none => .none
  | some (some form) => form.type

/-- What a variable or a call stands for, without a value as long as only the function that is
asked about could tell. -/
abbrev Known := Option AllocType

abbrev AllocFuncs := Visited.Table Known

abbrev VarMap := Var → Option Known

namespace VarMap

def empty : VarMap := fun _ => none

/-- `map[v]` where it is read: a missing variable has no value. -/
def subscript (map : VarMap) (v : Var) : Known := (map v).getD none

def set (map : VarMap) (v : Var) (known : Known) : VarMap :=
  fun w => if w = v then some known else map w

def try_emplace (map : VarMap) (v : Var) (known : Known) : VarMap :=
  match map v with
  | none => map.set v known
  | some _ => map

end VarMap

def join (a b : Known) : Known :=
  if a = some .null then b
  else if b = some .null then a
  else if a = b then a
  else some .unknown

structure AllocationTraverser where
  varMap : VarMap := .empty
  visitedFuncs : AllocFuncs
  result : Known := none
  undoLog : Option VarMap := none

namespace AllocationTraverser

section Expressions

variable (base : CodeBase) (analyze : Nat → AllocFuncs → Known × AllocFuncs)

/-- `analyze` is the analysis of a function that is called for the first time. -/
def handleCall (f : Nat) (visitedFuncs : AllocFuncs) : Known × AllocFuncs :=
  match visitedFuncs f with
  | some known => (known, visitedFuncs)
  | none =>
      let storedResult := IsAllocator base f
      let visitedFuncs := visitedFuncs.insert f (some storedResult)
      if storedResult ≠ .unknown then (some storedResult, visitedFuncs)
      else analyze f visitedFuncs

def handleExpr (varMap : VarMap) (visitedFuncs : AllocFuncs) : CodeExpr → Known × AllocFuncs
  | .cast e => handleExpr varMap visitedFuncs e
  | .allocate form => (some form.type, visitedFuncs)
  | .var v => ((varMap v).getD (some .none), visitedFuncs)
  | .call f _ => handleCall base analyze f visitedFuncs
  | .null => (some .null, visitedFuncs)
  | _ => (some .none, visitedFuncs)

def log (traverser : AllocationTraverser) (v : Var) : AllocationTraverser :=
  match traverser.undoLog with
  | none => traverser
  | some undoLog =>
      { traverser with
        varMap := traverser.varMap.set v (traverser.varMap.subscript v)
        undoLog := some (undoLog.try_emplace v (traverser.varMap.subscript v)) }

/-- `varMap[v] = handleExpr(e)`. -/
def store (traverser : AllocationTraverser) (v : Var) (e : CodeExpr) : AllocationTraverser :=
  let handled := handleExpr base analyze traverser.varMap traverser.visitedFuncs e
  { traverser with varMap := traverser.varMap.set v handled.1, visitedFuncs := handled.2 }

def visitVarDecl (traverser : AllocationTraverser) (v : Var) (init : Option CodeExpr) :
    AllocationTraverser :=
  match init with
  | some e => traverser.store base analyze v e
  | none => { traverser with varMap := traverser.varMap.set v (some .none) }

/-- A body names the parameters of the declaration that defines it. Those of another declaration
have entries of their own, which nothing reads. -/
def visitParameter (fn : CodeFunction) (traverser : AllocationTraverser) (index : Nat) :
    AllocationTraverser :=
  let visited := traverser.visitVarDecl base analyze (.param index) (fn.default index)
  match fn.definedBy with
  | none => visited
  | some _ => { visited with varMap := traverser.varMap }

def visitParameters (traverser : AllocationTraverser) (fn : CodeFunction) :
    AllocationTraverser :=
  (List.range fn.numParams).foldl (visitParameter base analyze fn) traverser

mutual

/-- An assignment is visited before its operands are traversed. -/
def traverseExpr : CodeExpr → AllocationTraverser → AllocationTraverser
  | .var _, traverser => traverser
  | .null, traverser => traverser
  | .other, traverser => traverser
  | .allocate _, traverser => traverser
  | .cast e, traverser => traverseExpr e traverser
  | .assign v e, traverser => traverseExpr e ((traverser.log v).store base analyze v e)
  | .shift v e, traverser =>
      let logged := traverser.log v
      traverseExpr e { logged with varMap := logged.varMap.set v (some .unknown) }
  | .comma a b, traverser => traverseExpr b (traverseExpr a traverser)
  | .cond c a b, traverser => traverseExpr b (traverseExpr a (traverseExpr c traverser))
  | .call _ args, traverser => traverseArgs args traverser
  | .filled _, traverser => traverser

def traverseArgs : List CodeExpr → AllocationTraverser → AllocationTraverser
  | [], traverser => traverser
  | e :: es, traverser => traverseArgs es (traverseExpr e traverser)

end

/-- Whether the traversal goes on is the second part. -/
def visitReturnStmt (traverser : AllocationTraverser) (e : CodeExpr) :
    AllocationTraverser × Bool :=
  let tmp := handleExpr base analyze traverser.varMap traverser.visitedFuncs e
  let traverser := { traverser with visitedFuncs := tmp.2 }
  if tmp.1 = none then (traverser, true)
  else if traverser.result = none then ({ traverser with result := tmp.1 }, true)
  else
    let result := join traverser.result tmp.1
    ({ traverser with result := result }, decide (result ≠ some .unknown))

end Expressions

section Branches

def enter (traverser : AllocationTraverser) : AllocationTraverser :=
  { traverser with undoLog := some .empty }

def overwritten (traverser : AllocationTraverser) : VarMap := traverser.undoLog.getD .empty

def undoOnVarMap (traverser : AllocationTraverser) : AllocationTraverser :=
  { traverser with
    varMap := fun v =>
      match traverser.overwritten v with
      | none => traverser.varMap v
      | some oldVal => some oldVal }

def inform (outer inner : VarMap) : VarMap :=
  fun v =>
    match outer v with
    | none => inner v
    | some val => some val

def joinThen (tested thenBranch : AllocationTraverser) : AllocationTraverser :=
  let undoLogThen := thenBranch.overwritten
  { thenBranch with
    varMap := fun v =>
      match undoLogThen v with
      | none => thenBranch.varMap v
      | some val => some (join val (thenBranch.varMap.subscript v))
    undoLog := tested.undoLog.map fun undoLogCopy => inform undoLogCopy undoLogThen }

def joinElse (tested thenBranch elseBranch : AllocationTraverser) : AllocationTraverser :=
  let undoLogThen := thenBranch.overwritten
  let undoLogElse := elseBranch.overwritten
  let valuesInIfBranch : VarMap := fun v =>
    (undoLogThen v).map fun _ => thenBranch.varMap.subscript v
  let joined : VarMap := fun v =>
    match undoLogElse v with
    | none => elseBranch.varMap v
    | some val =>
        match valuesInIfBranch v with
        | none => some (join val (elseBranch.varMap.subscript v))
        | some inIf => some (join (elseBranch.varMap.subscript v) inIf)
  { elseBranch with
    varMap := fun v =>
      match valuesInIfBranch v with
      | none => joined v
      | some val => some (join val (joined.subscript v))
    undoLog := tested.undoLog.map fun undoLogCopy =>
      inform (inform undoLogCopy undoLogThen) undoLogElse }

end Branches

section Statements

variable (base : CodeBase) (analyze : Nat → AllocFuncs → Known × AllocFuncs)

/-- A return statement may stop the traversal of what is around it, up to the branch of an if
statement. The init statement of an if statement is not traversed. -/
def traverseStmt : Code → AllocationTraverser → AllocationTraverser × Bool
  | .absent, traverser => (traverser, true)
  | .expr e, traverser => (traverseExpr base analyze e traverser, true)
  | .decl name none, traverser => (traverser.visitVarDecl base analyze (.own name) none, true)
  | .decl name (some e), traverser =>
      (traverseExpr base analyze e (traverser.visitVarDecl base analyze (.own name) (some e)), true)
  | .seq s t, traverser =>
      let first := traverseStmt s traverser
      if first.2 then traverseStmt t first.1 else first
  | .dealloc _ e, traverser => (traverseExpr base analyze e traverser, true)
  | .ite _ test s t, traverser =>
      let tested := (traverseStmt test traverser).1
      let thenBranch := (traverseStmt s tested.enter).1
      if t.isAbsent then (joinThen tested thenBranch, true)
      else
        let elseBranch := (traverseStmt t thenBranch.undoOnVarMap.enter).1
        (joinElse tested thenBranch elseBranch, true)
  | .loop c inc body, traverser =>
      traverseStmt body (traverseExpr base analyze inc (traverseExpr base analyze c traverser))
  | .doWhile body c, traverser =>
      let first := traverseStmt body traverser
      if first.2 then (traverseExpr base analyze c first.1, true) else first
  | .switch c body, traverser => traverseStmt body (traverseExpr base analyze c traverser)
  | .labelled s, traverser => traverseStmt s traverser
  | .brk, traverser => (traverser, true)
  | .cont, traverser => (traverser, true)
  | .ret e, traverser =>
      let visited := traverser.visitReturnStmt base analyze e
      if visited.2 then (traverseExpr base analyze e visited.1, true) else visited

end Statements

end AllocationTraverser

/-- `fuel` bounds how deep the analyses of functions not seen before nest. -/
def AnalyzeAllocType (base : CodeBase) : Nat → Nat → AllocFuncs → Known × AllocFuncs
  | 0, _, visitedFuncs => (some .unknown, visitedFuncs)
  | fuel + 1, f, visitedFuncs =>
      let fn := base.function f
      if fn.returnsPointer then
        match fn.body with
        | none => (some .unknown, visitedFuncs)
        | some body =>
            let analyze := AnalyzeAllocType base fuel
            let start : AllocationTraverser := { visitedFuncs := visitedFuncs }
            let parameters := start.visitParameters base analyze fn
            let traverser := (AllocationTraverser.traverseStmt base analyze body parameters).1
            (traverser.result, traverser.visitedFuncs.insert f traverser.result)
      else (some .none, visitedFuncs)

def GetAllocType (base : CodeBase) (f : Nat) : AllocType :=
  let visitedFuncs : AllocFuncs := Visited.Table.insert (fun _ => none) f none
  (AnalyzeAllocType base base.length f visitedFuncs).1.getD .none

end CppInterOp
