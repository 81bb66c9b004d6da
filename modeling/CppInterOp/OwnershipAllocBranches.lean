import CppInterOp.OwnershipAllocSteps

/-!
Undo logs against copies: an interpreter that gives each branch a map of its own and joins the
two maps pointwise, and when `AllocationTraverser` comes to the same.
-/

namespace CppInterOp

open PointerPrograms

section Scopes

mutual

def exprVars : CodeExpr → List Var
  | .var v => [v]
  | .null => []
  | .other => []
  | .allocate _ => []
  | .cast e => exprVars e
  | .assign v e => v :: exprVars e
  | .shift v e => v :: exprVars e
  | .comma a b => exprVars a ++ exprVars b
  | .cond c a b => exprVars c ++ exprVars a ++ exprVars b
  | .call _ args => argsVars args
  | .filled _ => []

def argsVars : List CodeExpr → List Var
  | [] => []
  | e :: es => exprVars e ++ argsVars es

end

def branchLocals : Code → List Var
  | .seq s t => branchLocals s ++ branchLocals t
  | .ite _ _ s t => declared s ++ declared t
  | .loop _ _ body => branchLocals body
  | .doWhile body _ => branchLocals body
  | .switch _ body => branchLocals body
  | .labelled s => branchLocals s
  | _ => []

def isCondition : Code → Bool
  | .absent => true
  | .expr _ => true
  | .decl _ _ => true
  | .seq s t => isCondition s && isCondition t
  | _ => false

def ExprScoped (inBranch : Bool) (hidden assigned : List Var) (e : CodeExpr) : Prop :=
  (∀ v ∈ exprVars e, v ∉ hidden) ∧ (inBranch = true → ∀ v ∈ e.touched, v ∈ assigned)

/-- The branches of a statement assign the variables of `assigned` and those declared before, and
a variable is not named once its branch has ended. -/
def Scoped (inBranch : Bool) : List Var → List Var → Code → Prop
  | _, _, .absent => True
  | hidden, assigned, .expr e => ExprScoped inBranch hidden assigned e
  | _, _, .decl _ none => True
  | hidden, assigned, .decl name (some e) =>
      ExprScoped inBranch hidden (.own name :: assigned) e
  | hidden, assigned, .seq s t =>
      Scoped inBranch hidden assigned s ∧
        Scoped inBranch (hidden ++ branchLocals s) (declared s ++ assigned) t
  | hidden, assigned, .dealloc _ e => ExprScoped inBranch hidden assigned e
  | hidden, assigned, .ite _ test s t =>
      isCondition test = true ∧ Scoped inBranch hidden assigned test ∧
        Scoped true hidden (declared test ++ assigned) s ∧
        Scoped true (hidden ++ declared s) (declared test ++ assigned) t
  | hidden, assigned, .loop c inc body =>
      ExprScoped inBranch hidden assigned c ∧ ExprScoped inBranch hidden assigned inc ∧
        Scoped inBranch hidden assigned body
  | hidden, assigned, .doWhile body c =>
      Scoped inBranch hidden assigned body ∧
        ExprScoped inBranch (hidden ++ branchLocals body) (declared body ++ assigned) c
  | hidden, assigned, .switch c body =>
      ExprScoped inBranch hidden assigned c ∧ Scoped inBranch hidden assigned body
  | hidden, assigned, .labelled s => Scoped inBranch hidden assigned s
  | _, _, .brk => True
  | _, _, .cont => True
  | hidden, assigned, .ret e => ExprScoped inBranch hidden assigned e

end Scopes

section Copies

/-- `varMap` where it is read: a variable that is missing holds nothing allocated. -/
def VarMap.lookup (map : VarMap) (v : Var) : Known := (map v).getD (some .none)

/-- Null adds nothing, equal kinds are kept and different kinds are unknown. -/
def merge : Known → Known → Known
  | some .null, b => b
  | a, some .null => a
  | a, b => if a = b then a else some .unknown

namespace AllocationTraverser

variable (base : CodeBase) (analyze : Nat → AllocFuncs → Known × AllocFuncs)

def mergeCopies (thenBranch elseBranch : AllocationTraverser) : AllocationTraverser :=
  { elseBranch with
    varMap := fun v => some (merge (thenBranch.varMap.lookup v) (elseBranch.varMap.lookup v)) }

/-- The reference: it keeps no undo log, and both branches start with the map that the condition
left. -/
def copyStmt : Code → AllocationTraverser → AllocationTraverser × Bool
  | .absent, state => (state, true)
  | .expr e, state => (traverseExpr base analyze e state, true)
  | .decl name none, state => (state.visitVarDecl base analyze (.own name) none, true)
  | .decl name (some e), state =>
      (traverseExpr base analyze e (state.visitVarDecl base analyze (.own name) (some e)), true)
  | .seq s t, state =>
      let first := copyStmt s state
      if first.2 then copyStmt t first.1 else first
  | .dealloc _ e, state => (traverseExpr base analyze e state, true)
  | .ite _ test s t, state =>
      let tested := (copyStmt test state).1
      let thenBranch := (copyStmt s tested).1
      let elseBranch := (copyStmt t { thenBranch with varMap := tested.varMap }).1
      (mergeCopies thenBranch elseBranch, true)
  | .loop c inc body, state =>
      copyStmt body (traverseExpr base analyze inc (traverseExpr base analyze c state))
  | .doWhile body c, state =>
      let first := copyStmt body state
      if first.2 then (traverseExpr base analyze c first.1, true) else first
  | .switch c body, state => copyStmt body (traverseExpr base analyze c state)
  | .labelled s, state => copyStmt s state
  | .brk, state => (state, true)
  | .cont, state => (state, true)
  | .ret e, state =>
      let visited := state.visitReturnStmt base analyze e
      if visited.2 then (traverseExpr base analyze e visited.1, true) else visited

/-- An if statement leaves what the reference leaves, and its else branch would find what was
there before the then branch. -/
def MergesAsCopies (start : AllocationTraverser) (init test s t : Code) : Prop :=
  let traversed := start.traverseStmt base analyze (.ite init test s t)
  let copied := { start with undoLog := none }.copyStmt base analyze (.ite init test s t)
  let tested := (start.traverseStmt base analyze test).1
  let undone := (tested.enter.traverseStmt base analyze s).1.undoOnVarMap
  (∀ v ∉ branchLocals (.ite init test s t),
      traversed.1.varMap.lookup v = copied.1.varMap.lookup v) ∧
    traversed.1.result = copied.1.result ∧ traversed.1.visitedFuncs = copied.1.visitedFuncs ∧
    ∀ v ∉ declared s, undone.varMap.lookup v = tested.varMap.lookup v

end AllocationTraverser

end Copies

section Merging

theorem join_eq_merge (a b : Known) : join a b = merge a b := by
  rcases a with _ | _ | _ | _ | _ | _ | _ | _ | _ <;>
    rcases b with _ | _ | _ | _ | _ | _ | _ | _ | _ <;> rfl

theorem merge_self (a : Known) : merge a a = a := by
  rcases a with _ | _ | _ | _ | _ | _ | _ | _ | _ <;> rfl

theorem merge_comm (a b : Known) : merge a b = merge b a := by
  rcases a with _ | _ | _ | _ | _ | _ | _ | _ | _ <;>
    rcases b with _ | _ | _ | _ | _ | _ | _ | _ | _ <;> rfl

theorem merge_again (a b : Known) : merge a (merge b a) = merge a b := by
  rcases a with _ | _ | _ | _ | _ | _ | _ | _ | _ <;>
    rcases b with _ | _ | _ | _ | _ | _ | _ | _ | _ <;> rfl

end Merging

namespace VarMap

theorem lookup_eq {map other : VarMap} {v : Var} (same : map v = other v) :
    map.lookup v = other.lookup v := by
  rw [lookup, lookup, same]

theorem subscript_eq_lookup {map : VarMap} {v : Var} (present : (map v).isSome = true) :
    map.subscript v = map.lookup v := by
  obtain ⟨known, at_v⟩ := Option.isSome_iff_exists.mp present
  rw [subscript, lookup, at_v]
  rfl

theorem lookup_set (map : VarMap) (v w : Var) (known : Known) :
    (map.set w known).lookup v = if v = w then known else map.lookup v := by
  by_cases same : v = w
  · rw [if_pos same, same, lookup, set_same]
    rfl
  · rw [if_neg same]
    exact lookup_eq (map.set_other same known)

theorem present_set {map : VarMap} {v : Var} (present : (map v).isSome = true) (w : Var)
    (known : Known) : (map.set w known v).isSome = true := by
  by_cases same : v = w
  · rw [same, set_same]
    rfl
  · rwa [set_other _ same]

end VarMap

namespace AllocationTraverser

variable {base : CodeBase} {analyze : Nat → AllocFuncs → Known × AllocFuncs}
variable {inBranch : Bool} {hidden assigned : List Var} {left right : AllocationTraverser}

theorem handleExpr_lookup {varMap other : VarMap} (table : AllocFuncs) :
    ∀ e : CodeExpr, (∀ v ∈ exprVars e, varMap.lookup v = other.lookup v) →
      handleExpr base analyze varMap table e = handleExpr base analyze other table e
  | .cast e, same => handleExpr_lookup table e same
  | .var v, same => Prod.ext (same v (List.mem_singleton.mpr rfl)) rfl
  | .null, _ => rfl
  | .other, _ => rfl
  | .allocate _, _ => rfl
  | .assign _ _, _ => rfl
  | .shift _ _, _ => rfl
  | .comma _ _, _ => rfl
  | .cond _ _ _, _ => rfl
  | .call _ _, _ => rfl
  | .filled _, _ => rfl

structure Follows (inBranch : Bool) (hidden assigned : List Var)
    (left right : AllocationTraverser) : Prop where
  lookup : ∀ v ∉ hidden, left.varMap.lookup v = right.varMap.lookup v
  present : ∀ v ∈ assigned, v ∉ hidden → (left.varMap v).isSome = true
  visited : left.visitedFuncs = right.visitedFuncs
  result : left.result = right.result
  logs : left.undoLog.isSome = inBranch
  plain : right.undoLog = none

section Expressions

theorem log_plain {traverser : AllocationTraverser} (plain : traverser.undoLog = none) (v : Var) :
    traverser.log v = traverser := by
  rw [log, plain]

theorem log_logs (traverser : AllocationTraverser) (v : Var) :
    (traverser.log v).undoLog.isSome = traverser.undoLog.isSome := by
  rw [log]
  cases has_log : traverser.undoLog with
  | none => exact congrArg Option.isSome has_log
  | some undoLog => rfl

theorem log_lookup {traverser : AllocationTraverser} {w : Var}
    (present : traverser.undoLog.isSome = true → (traverser.varMap w).isSome = true) (v : Var) :
    (traverser.log w).varMap.lookup v = traverser.varMap.lookup v := by
  rw [log]
  cases has_log : traverser.undoLog with
  | none => rfl
  | some undoLog =>
      simp only
      rw [VarMap.lookup_set]
      split
      next same =>
          rw [same]
          exact VarMap.subscript_eq_lookup (present (by rw [has_log]; rfl))
      next _ => rfl

theorem log_present (traverser : AllocationTraverser) {v : Var}
    (present : (traverser.varMap v).isSome = true) (w : Var) :
    ((traverser.log w).varMap v).isSome = true := by
  rw [log]
  cases traverser.undoLog with
  | none => exact present
  | some undoLog => exact VarMap.present_set present _ _

theorem Follows.log (follows : Follows inBranch hidden assigned left right) {w : Var}
    (seen : w ∉ hidden) (allowed : inBranch = true → w ∈ assigned) :
    Follows inBranch hidden assigned (left.log w) (right.log w) := by
  rw [log_plain follows.plain]
  have present : left.undoLog.isSome = true → (left.varMap w).isSome = true := fun logging =>
    follows.present w (allowed (follows.logs ▸ logging)) seen
  exact {
    lookup := fun v visible => (log_lookup present v).trans (follows.lookup v visible)
    present := fun v member visible => log_present left (follows.present v member visible) w
    visited := (log_visited left w).trans follows.visited
    result := (log_result left w).trans follows.result
    logs := (log_logs left w).trans follows.logs
    plain := follows.plain }

theorem Follows.write (follows : Follows inBranch hidden assigned left right) (w : Var)
    {known other : Known} (same : known = other) {table seen : AllocFuncs} (tables : table = seen) :
    Follows inBranch hidden (w :: assigned)
      { left with varMap := left.varMap.set w known, visitedFuncs := table }
      { right with varMap := right.varMap.set w other, visitedFuncs := seen } where
  lookup v visible := by
    rw [VarMap.lookup_set, VarMap.lookup_set, same, follows.lookup v visible]
  present v member visible := by
    rcases List.mem_cons.mp member with rfl | before
    · simp
    · exact VarMap.present_set (follows.present v before visible) _ _
  visited := tables
  result := follows.result
  logs := follows.logs
  plain := follows.plain

theorem Follows.reassign (follows : Follows inBranch hidden assigned left right) {other : List Var}
    (covered : ∀ v ∈ other, v ∈ assigned ∨ v ∈ hidden) : Follows inBranch hidden other left right :=
  { follows with
    present := fun v member visible =>
      follows.present v ((covered v member).resolve_right visible) visible }

theorem Follows.hide (follows : Follows inBranch hidden assigned left right) {more : List Var}
    (subset : ∀ v ∈ hidden, v ∈ more) : Follows inBranch more assigned left right :=
  { follows with
    lookup := fun v visible => follows.lookup v fun member => visible (subset v member)
    present := fun v member visible =>
      follows.present v member fun before => visible (subset v before) }

theorem Follows.handleExpr (follows : Follows inBranch hidden assigned left right) {e : CodeExpr}
    (seen : ∀ v ∈ exprVars e, v ∉ hidden) :
    handleExpr base analyze left.varMap left.visitedFuncs e =
      handleExpr base analyze right.varMap right.visitedFuncs e := by
  rw [follows.visited]
  exact handleExpr_lookup _ e fun v member => follows.lookup v (seen v member)

theorem Follows.store (follows : Follows inBranch hidden assigned left right) {e : CodeExpr}
    (seen : ∀ v ∈ exprVars e, v ∉ hidden) (w : Var) :
    Follows inBranch hidden (w :: assigned) (left.store base analyze w e)
      (right.store base analyze w e) := by
  have handled : AllocationTraverser.handleExpr base analyze left.varMap left.visitedFuncs e =
      AllocationTraverser.handleExpr base analyze right.varMap right.visitedFuncs e :=
    follows.handleExpr seen
  exact follows.write w (congrArg Prod.fst handled) (congrArg Prod.snd handled)

mutual

theorem Follows.traverseExpr :
    ∀ (e : CodeExpr) {left right : AllocationTraverser},
      Follows inBranch hidden assigned left right → ExprScoped inBranch hidden assigned e →
        Follows inBranch hidden assigned (left.traverseExpr base analyze e)
          (right.traverseExpr base analyze e)
  | .var _, _, _, follows, _ => follows
  | .null, _, _, follows, _ => follows
  | .other, _, _, follows, _ => follows
  | .allocate _, _, _, follows, _ => follows
  | .cast e, _, _, follows, names => Follows.traverseExpr e follows names
  | .assign w e, left, right, follows, names => by
      obtain ⟨seen, allowed⟩ := names
      rw [exprVars, List.forall_mem_cons] at seen
      simp only [Expr.touched, List.forall_mem_cons] at allowed
      have logged := follows.log seen.1 fun inside => (allowed inside).1
      have stored : Follows inBranch hidden assigned ((left.log w).store base analyze w e)
          ((right.log w).store base analyze w e) :=
        (logged.store seen.2 w).reassign fun v member => Or.inl (List.mem_cons_of_mem w member)
      exact Follows.traverseExpr e stored ⟨seen.2, fun inside => (allowed inside).2⟩
  | .shift w e, _, _, follows, names => by
      obtain ⟨seen, allowed⟩ := names
      rw [exprVars, List.forall_mem_cons] at seen
      simp only [Expr.touched, List.forall_mem_cons] at allowed
      have logged := follows.log seen.1 fun inside => (allowed inside).1
      have moved := (logged.write w (rfl : some AllocType.unknown = _) logged.visited).reassign
        fun v member => Or.inl (List.mem_cons_of_mem w member)
      exact Follows.traverseExpr e moved ⟨seen.2, fun inside => (allowed inside).2⟩
  | .comma a b, _, _, follows, names => by
      obtain ⟨seen, allowed⟩ := names
      rw [exprVars, List.forall_mem_append] at seen
      simp only [Expr.touched, List.forall_mem_append] at allowed
      exact Follows.traverseExpr b
        (Follows.traverseExpr a follows ⟨seen.1, fun inside => (allowed inside).1⟩)
        ⟨seen.2, fun inside => (allowed inside).2⟩
  | .cond c a b, _, _, follows, names => by
      obtain ⟨seen, allowed⟩ := names
      rw [exprVars, List.forall_mem_append, List.forall_mem_append] at seen
      simp only [Expr.touched, List.forall_mem_append] at allowed
      have tested := Follows.traverseExpr c follows ⟨seen.1.1, fun inside => (allowed inside).1.1⟩
      exact Follows.traverseExpr b
        (Follows.traverseExpr a tested ⟨seen.1.2, fun inside => (allowed inside).1.2⟩)
        ⟨seen.2, fun inside => (allowed inside).2⟩
  | .call _ args, _, _, follows, names => Follows.traverseArgs args follows names
  | .filled _, _, _, follows, _ => follows

theorem Follows.traverseArgs :
    ∀ (es : List CodeExpr) {left right : AllocationTraverser},
      Follows inBranch hidden assigned left right →
        (∀ v ∈ argsVars es, v ∉ hidden) ∧
          (inBranch = true → ∀ v ∈ Expr.touchedArgs es, v ∈ assigned) →
        Follows inBranch hidden assigned (left.traverseArgs base analyze es)
          (right.traverseArgs base analyze es)
  | [], _, _, follows, _ => follows
  | e :: es, _, _, follows, names => by
      obtain ⟨seen, allowed⟩ := names
      rw [argsVars, List.forall_mem_append] at seen
      simp only [Expr.touchedArgs, List.forall_mem_append] at allowed
      exact Follows.traverseArgs es
        (Follows.traverseExpr e follows ⟨seen.1, fun inside => (allowed inside).1⟩)
        ⟨seen.2, fun inside => (allowed inside).2⟩

end

end Expressions

section Branches

theorem branchLocals_declared {s : Code} {v : Var} (inside : v ∈ branchLocals s) :
    v ∈ declared s := by
  induction s with
  | seq s t ihs iht =>
      rw [branchLocals, List.mem_append] at inside
      rw [declared, List.mem_append]
      exact inside.imp ihs iht
  | ite init test s t =>
      rw [branchLocals, List.mem_append] at inside
      rw [declared, List.append_assoc, List.mem_append, List.mem_append]
      exact Or.inr inside
  | loop c inc body ihb => exact ihb inside
  | doWhile body c ihb => exact ihb inside
  | switch c body ihb => exact ihb inside
  | labelled s ihs => exact ihs inside
  | _ => exact absurd inside List.not_mem_nil

theorem branchLocals_condition {test : Code} (condition : isCondition test = true) :
    branchLocals test = [] := by
  induction test with
  | seq s t ihs iht =>
      rw [isCondition, Bool.and_eq_true] at condition
      rw [branchLocals, ihs condition.1, iht condition.2]
      rfl
  | ite => cases condition
  | loop => cases condition
  | doWhile => cases condition
  | switch => cases condition
  | labelled => cases condition
  | _ => rfl

theorem condition_goes {test : Code} (condition : isCondition test = true)
    (traverser : AllocationTraverser) : (traverser.traverseStmt base analyze test).2 = true := by
  induction test generalizing traverser with
  | absent => rfl
  | expr e => rfl
  | decl name init =>
      cases init with
      | none => rfl
      | some e => rfl
  | seq s t ihs iht =>
      rw [isCondition, Bool.and_eq_true] at condition
      rw [traverseStmt]
      simp only [ihs condition.1, if_true]
      exact iht condition.2 _
  | _ => cases condition

theorem written_assigned {s : Code} {v : Var} (names : Scoped true hidden assigned s)
    (written : v ∈ stmtWritten s) : v ∈ declared s ∨ v ∈ assigned := by
  induction s generalizing hidden assigned with
  | absent => exact absurd written List.not_mem_nil
  | expr e => exact Or.inr (names.2 rfl v written)
  | decl name init =>
      rw [stmtWritten, List.mem_cons] at written
      rcases written with rfl | inside
      · exact Or.inl (List.mem_singleton.mpr rfl)
      · cases init with
        | none => exact absurd inside List.not_mem_nil
        | some e => exact (List.mem_cons.mp (names.2 rfl v inside)).imp_left List.mem_singleton.mpr
  | seq s t ihs iht =>
      rw [stmtWritten, List.mem_append] at written
      rw [declared, List.mem_append]
      rcases written with first | second
      · exact (ihs names.1 first).imp_left Or.inl
      · rcases iht names.2 second with later | before
        · exact Or.inl (Or.inr later)
        · exact (List.mem_append.mp before).imp_left Or.inl
  | dealloc form e => exact Or.inr (names.2 rfl v written)
  | ite init test s t _ ihc ihs iht =>
      obtain ⟨_, test, chosen, other⟩ := names
      simp only [stmtWritten, List.mem_append] at written
      simp only [declared, List.mem_append]
      rcases written with (first | second) | third
      · exact (ihc test first).imp_left fun inside => Or.inl (Or.inl inside)
      · rcases ihs chosen second with inside | before
        · exact Or.inl (Or.inl (Or.inr inside))
        · exact (List.mem_append.mp before).imp_left fun inside => Or.inl (Or.inl inside)
      · rcases iht other third with inside | before
        · exact Or.inl (Or.inr inside)
        · exact (List.mem_append.mp before).imp_left fun inside => Or.inl (Or.inl inside)
  | loop c inc body ihb =>
      obtain ⟨c, inc, body⟩ := names
      simp only [stmtWritten, List.mem_append] at written
      rcases written with (first | second) | third
      · exact Or.inr (c.2 rfl v first)
      · exact Or.inr (inc.2 rfl v second)
      · exact ihb body third
  | doWhile body c ihb =>
      rw [stmtWritten, List.mem_append] at written
      rcases written with first | second
      · exact ihb names.1 first
      · exact List.mem_append.mp (names.2.2 rfl v second)
  | switch c body ihb =>
      rw [stmtWritten, List.mem_append] at written
      rcases written with first | second
      · exact Or.inr (names.1.2 rfl v first)
      · exact ihb names.2 second
  | labelled s ihs => exact ihs names written
  | brk => exact absurd written List.not_mem_nil
  | cont => exact absurd written List.not_mem_nil
  | ret e => exact Or.inr (names.2 rfl v written)

def LogsKnown (assigned : List Var) (v : Var) (tested branch : AllocationTraverser) : Prop :=
  (branch.overwritten v = none ∧ branch.varMap v = tested.varMap v) ∨
    (branch.overwritten v = some (tested.varMap.lookup v) ∧ v ∈ assigned)

theorem branch_logsKnown {tested : AllocationTraverser} {s : Code} {v : Var}
    (present : v ∈ assigned → (tested.varMap v).isSome = true)
    (names : Scoped true hidden assigned s) (outside : v ∉ declared s) :
    LogsKnown assigned v tested (tested.enter.traverseStmt base analyze s).1 := by
  rcases (traverseStmt_logged v s tested.enter outside).overwritten with missing | logged
  · exact Or.inl missing
  · refine Or.inr ?_
    have written : v ∈ stmtWritten s := by
      by_contra untouched
      have same : SameAt v tested.enter (tested.enter.traverseStmt base analyze s).1 :=
        traverseStmt_same s tested.enter untouched
      cases logged.symm.trans (overwritten_enter same)
    have member : v ∈ assigned := (written_assigned names written).resolve_left outside
    rw [← VarMap.subscript_eq_lookup (present member)]
    exact ⟨logged, member⟩

variable {tested thenBranch elseBranch : AllocationTraverser} {v : Var}

/-- Undoing a branch leaves what was known before it. -/
theorem LogsKnown.undo (logs : LogsKnown assigned v tested thenBranch) :
    thenBranch.undoOnVarMap.varMap.lookup v = tested.varMap.lookup v := by
  rcases logs with ⟨missing, same⟩ | ⟨logged, _⟩
  · refine VarMap.lookup_eq ?_
    simp only [undoOnVarMap, missing]
    exact same
  · rw [VarMap.lookup]
    simp only [undoOnVarMap, logged]
    rfl

theorem undo_present {branch : AllocationTraverser} {v : Var}
    (present : (branch.varMap v).isSome = true) :
    (branch.undoOnVarMap.varMap v).isSome = true := by
  simp only [undoOnVarMap]
  split
  · exact present
  · rfl

theorem joinThen_present {tested thenBranch : AllocationTraverser} {v : Var}
    (present : (thenBranch.varMap v).isSome = true) :
    ((joinThen tested thenBranch).varMap v).isSome = true := by
  simp only [joinThen]
  split
  · exact present
  · rfl

theorem joinElse_present {tested thenBranch elseBranch : AllocationTraverser} {v : Var}
    (present : (elseBranch.varMap v).isSome = true) :
    ((joinElse tested thenBranch elseBranch).varMap v).isSome = true := by
  simp only [joinElse]
  split
  · split
    · exact present
    · split <;> rfl
  · rfl

theorem LogsKnown.joinThen (logs : LogsKnown assigned v tested thenBranch)
    (present : v ∈ assigned → (thenBranch.varMap v).isSome = true) :
    (joinThen tested thenBranch).varMap.lookup v =
      merge (thenBranch.varMap.lookup v) (tested.varMap.lookup v) := by
  rcases logs with ⟨missing, same⟩ | ⟨logged, member⟩
  · have left : (AllocationTraverser.joinThen tested thenBranch).varMap v = tested.varMap v := by
      simp only [AllocationTraverser.joinThen, missing]
      exact same
    rw [VarMap.lookup_eq left, VarMap.lookup_eq same, merge_self]
  · rw [← VarMap.subscript_eq_lookup (present member), merge_comm, ← join_eq_merge, VarMap.lookup]
    simp only [AllocationTraverser.joinThen, logged]
    rfl

theorem LogsKnown.joinElse (logs : LogsKnown assigned v tested thenBranch)
    (logs_else : LogsKnown assigned v thenBranch.undoOnVarMap elseBranch)
    (present : v ∈ assigned → (thenBranch.varMap v).isSome = true)
    (present_else : v ∈ assigned → (elseBranch.varMap v).isSome = true) :
    (joinElse tested thenBranch elseBranch).varMap.lookup v =
      merge (thenBranch.varMap.lookup v) (elseBranch.varMap.lookup v) := by
  have undone := logs.undo
  rcases logs with ⟨missing, same⟩ | ⟨logged, member⟩
  · rcases logs_else with ⟨missing_else, same_else⟩ | ⟨logged_else, member⟩
    · -- Neither branch overwrote the variable.
      have left : (AllocationTraverser.joinElse tested thenBranch elseBranch).varMap v =
          elseBranch.varMap v := by
        simp only [AllocationTraverser.joinElse, missing, missing_else, Option.map_none]
      rw [VarMap.lookup_eq left, VarMap.lookup_eq same_else, undone, VarMap.lookup_eq same,
        merge_self]
    · rw [VarMap.lookup_eq same, ← undone, ← VarMap.subscript_eq_lookup (present_else member),
        ← join_eq_merge, VarMap.lookup]
      simp only [AllocationTraverser.joinElse, missing, logged_else, Option.map_none]
      rfl
  · rw [← VarMap.subscript_eq_lookup (present member),
      ← VarMap.subscript_eq_lookup (present_else member)]
    rcases logs_else with ⟨missing_else, _⟩ | ⟨logged_else, _⟩
    · rw [← join_eq_merge, VarMap.lookup]
      simp only [AllocationTraverser.joinElse, VarMap.subscript, logged, missing_else,
        Option.map_some]
      rfl
    · -- The value of the else branch is joined with that of the then branch twice.
      rw [← merge_again, ← join_eq_merge, ← join_eq_merge, VarMap.lookup]
      simp only [AllocationTraverser.joinElse, VarMap.subscript, logged, logged_else,
        Option.map_some]
      rfl

end Branches

section Statements

theorem eq_absent {s : Code} (absent : s.isAbsent = true) : s = .absent := by
  cases s with
  | absent => rfl
  | _ => cases absent

def assignedAfter (s : Code) (goes : Bool) (assigned : List Var) : List Var :=
  if goes then declared s ++ assigned else assigned

theorem before_assignedAfter (s : Code) (goes : Bool) {v : Var} (before : v ∈ assigned) :
    v ∈ assignedAfter s goes assigned := by
  rw [assignedAfter]
  split
  · exact List.mem_append_right _ before
  · exact before

theorem assignedAfter_seq {s t : Code} {goes : Bool} {v : Var}
    (member : v ∈ assignedAfter (.seq s t) goes assigned) :
    v ∈ assignedAfter t goes (assignedAfter s true assigned) := by
  cases goes with
  | false => exact before_assignedAfter s true member
  | true =>
      simp only [assignedAfter, if_true, declared, List.append_assoc, List.mem_append] at member ⊢
      rcases member with first | second | before
      · exact Or.inr (Or.inl first)
      · exact Or.inl second
      · exact Or.inr (Or.inr before)

theorem assignedAfter_ite {init test s t : Code} {v : Var}
    (member : v ∈ assignedAfter (.ite init test s t) true assigned) :
    v ∈ declared test ++ assigned ∨ v ∈ hidden ++ (declared s ++ declared t) := by
  simp only [assignedAfter, if_true, declared, List.append_assoc, List.mem_append] at member ⊢
  rcases member with first | second | third | before
  · exact Or.inl (Or.inl first)
  · exact Or.inr (Or.inr (Or.inl second))
  · exact Or.inr (Or.inr (Or.inr third))
  · exact Or.inl (Or.inr before)

/-- A statement that declares nothing leaves the scopes as they are. -/
theorem Follows.same (follows : Follows inBranch hidden assigned left right) {s : Code}
    (nothing : declared s = []) (goes : Bool) :
    Follows inBranch (hidden ++ branchLocals s) (assignedAfter s goes assigned) left right := by
  have none_inside : branchLocals s = [] := List.eq_nil_iff_forall_not_mem.mpr fun v inside =>
    absurd (nothing ▸ branchLocals_declared inside) List.not_mem_nil
  rw [none_inside, List.append_nil, assignedAfter, nothing]
  exact (ite_self assigned).symm ▸ follows

theorem Follows.enter (follows : Follows inBranch hidden assigned left right) :
    Follows true hidden assigned left.enter right :=
  { follows with logs := rfl }

theorem Follows.joinThen {names : List Var} {tested state thenBranch copied : AllocationTraverser}
    (before : Follows inBranch hidden assigned tested state)
    (after : Follows true names assigned thenBranch copied)
    {locals : List Var} (inner : ∀ v ∈ names, v ∈ hidden ++ locals)
    (logs : ∀ v, v ∉ hidden ++ locals → LogsKnown assigned v tested thenBranch) :
    Follows inBranch (hidden ++ locals) assigned (joinThen tested thenBranch)
      (mergeCopies copied { copied with varMap := state.varMap }) where
  lookup v visible := by
    have inside : v ∉ names := fun member => visible (inner v member)
    have outside : v ∉ hidden := fun member => visible (List.mem_append_left _ member)
    rw [(logs v visible).joinThen fun member => after.present v member inside,
      after.lookup v inside, before.lookup v outside]
    rfl
  present v member visible :=
    joinThen_present (after.present v member fun inside => visible (inner v inside))
  visited := after.visited
  result := after.result
  logs := Option.isSome_map.trans before.logs
  plain := after.plain

theorem Follows.undo {names : List Var} {tested state thenBranch copied : AllocationTraverser}
    (before : Follows inBranch hidden assigned tested state)
    (after : Follows true names assigned thenBranch copied)
    {locals : List Var} (inner : ∀ v ∈ names, v ∈ hidden ++ locals)
    (logs : ∀ v, v ∉ hidden ++ locals → LogsKnown assigned v tested thenBranch) :
    Follows true (hidden ++ locals) assigned thenBranch.undoOnVarMap.enter
      { copied with varMap := state.varMap } where
  lookup v visible := by
    have outside : v ∉ hidden := fun member => visible (List.mem_append_left _ member)
    exact (logs v visible).undo.trans (before.lookup v outside)
  present v member visible :=
    undo_present (after.present v member fun inside => visible (inner v inside))
  visited := after.visited
  result := after.result
  logs := rfl
  plain := after.plain

theorem Follows.joinElse {names others : List Var}
    {tested state thenBranch elseBranch copied other : AllocationTraverser}
    (before : Follows inBranch hidden assigned tested state)
    (after : Follows true names assigned thenBranch copied)
    (after_else : Follows true others assigned elseBranch other)
    {locals : List Var} (inner : ∀ v ∈ names, v ∈ locals) (inner_else : ∀ v ∈ others, v ∈ locals)
    (logs : ∀ v, v ∉ locals → LogsKnown assigned v tested thenBranch)
    (logs_else : ∀ v, v ∉ locals →
      LogsKnown assigned v thenBranch.undoOnVarMap elseBranch) :
    Follows inBranch locals assigned (joinElse tested thenBranch elseBranch)
      (mergeCopies copied other) where
  lookup v visible := by
    have inside : v ∉ names := fun member => visible (inner v member)
    have inside_else : v ∉ others := fun member => visible (inner_else v member)
    rw [(logs v visible).joinElse (logs_else v visible)
      (fun member => after.present v member inside)
      (fun member => after_else.present v member inside_else),
      after.lookup v inside, after_else.lookup v inside_else]
    rfl
  present v member visible :=
    joinElse_present (after_else.present v member fun inside => visible (inner_else v inside))
  visited := after_else.visited
  result := after_else.result
  logs := Option.isSome_map.trans before.logs
  plain := after_else.plain

theorem Follows.visitReturnStmt (follows : Follows inBranch hidden assigned left right)
    {e : CodeExpr} (seen : ∀ v ∈ exprVars e, v ∉ hidden) :
    Follows inBranch hidden assigned (left.visitReturnStmt base analyze e).1
        (right.visitReturnStmt base analyze e).1 ∧
      (left.visitReturnStmt base analyze e).2 = (right.visitReturnStmt base analyze e).2 := by
  have handled : AllocationTraverser.handleExpr base analyze left.varMap left.visitedFuncs e =
      AllocationTraverser.handleExpr base analyze right.varMap right.visitedFuncs e :=
    follows.handleExpr seen
  obtain ⟨lookup, present, _, result, logs, plain⟩ := follows
  rw [AllocationTraverser.visitReturnStmt, AllocationTraverser.visitReturnStmt]
  simp only [handled, result]
  split
  · exact ⟨⟨lookup, present, rfl, rfl, logs, plain⟩, rfl⟩
  · split
    · exact ⟨⟨lookup, present, rfl, rfl, logs, plain⟩, rfl⟩
    · exact ⟨⟨lookup, present, rfl, rfl, logs, plain⟩, rfl⟩

/-- By induction on the statement: at the end of an if statement the logs of its branches have
what the reference kept in its copies. -/
theorem Follows.traverseStmt (s : Code) {inBranch : Bool} {hidden assigned : List Var}
    {left right : AllocationTraverser} (follows : Follows inBranch hidden assigned left right)
    (names : Scoped inBranch hidden assigned s) :
    (left.traverseStmt base analyze s).2 = (right.copyStmt base analyze s).2 ∧
      Follows inBranch (hidden ++ branchLocals s)
        (assignedAfter s (right.copyStmt base analyze s).2 assigned)
        (left.traverseStmt base analyze s).1 (right.copyStmt base analyze s).1 := by
  induction s generalizing inBranch hidden assigned left right with
  | absent => exact ⟨rfl, follows.same rfl _⟩
  | expr e => exact ⟨rfl, (Follows.traverseExpr e follows names).same rfl _⟩
  | decl name init =>
      rw [branchLocals, List.append_nil]
      cases init with
      | none => exact ⟨rfl, follows.write _ rfl follows.visited⟩
      | some e => exact ⟨rfl, Follows.traverseExpr e (follows.store names.1 _) names⟩
      all_goals exact nofun
  | seq s t ihs iht =>
      obtain ⟨same, first⟩ := ihs follows names.1
      rw [AllocationTraverser.traverseStmt, copyStmt, same]
      cases goes : (right.copyStmt base analyze s).2 with
      | false =>
          rw [if_neg Bool.false_ne_true, if_neg Bool.false_ne_true]
          rw [goes] at first same ⊢
          refine ⟨same, first.hide fun v member => ?_⟩
          rw [branchLocals, ← List.append_assoc]
          exact List.mem_append_left _ member
      | true =>
          rw [if_pos rfl, if_pos rfl]
          rw [goes] at first
          obtain ⟨same_second, second⟩ := iht first names.2
          rw [List.append_assoc] at second
          exact ⟨same_second, second.reassign fun v member => Or.inl (assignedAfter_seq member)⟩
  | dealloc form e => exact ⟨rfl, (Follows.traverseExpr e follows names).same rfl _⟩
  | ite init test s t _ ihc ihs iht =>
      obtain ⟨condition, names_test, names_s, names_t⟩ := names
      obtain ⟨same, tested⟩ := ihc follows names_test
      rw [← same, condition_goes condition, branchLocals_condition condition,
        List.append_nil] at tested
      have chosen := (ihs tested.enter names_s).2.reassign fun v member =>
        Or.inl (before_assignedAfter s _ member)
      have logs : ∀ v, v ∉ hidden ++ declared s → LogsKnown (declared test ++ assigned) v
          (left.traverseStmt base analyze test).1
          ((left.traverseStmt base analyze test).1.enter.traverseStmt base analyze s).1 := by
        intro v visible
        rw [List.mem_append, not_or] at visible
        exact branch_logsKnown (fun member => tested.present v member visible.1) names_s visible.2
      have inner : ∀ v ∈ hidden ++ branchLocals s, v ∈ hidden ++ declared s := fun v member =>
        List.mem_append.mpr ((List.mem_append.mp member).imp_right branchLocals_declared)
      have wider : ∀ v ∈ hidden ++ declared s, v ∈ hidden ++ (declared s ++ declared t) := by
        intro v member
        rw [← List.append_assoc]
        exact List.mem_append_left _ member
      rw [AllocationTraverser.traverseStmt, copyStmt]
      split
      next absent =>
          obtain rfl := eq_absent absent
          have joined := (tested.joinThen chosen inner logs).hide wider
          exact ⟨rfl, joined.reassign fun v member => assignedAfter_ite member⟩
      next _ =>
          have undone := tested.undo chosen inner logs
          have other := (iht undone names_t).2.reassign fun v member =>
            Or.inl (before_assignedAfter t _ member)
          have joined := tested.joinElse chosen other (fun v member => wider v (inner v member))
            (fun v member => ?_) (fun v visible => logs v fun member => visible (wider v member))
            fun v visible => ?_
          · exact ⟨rfl, joined.reassign fun v member => assignedAfter_ite member⟩
          · rw [← List.append_assoc]
            exact List.mem_append.mpr ((List.mem_append.mp member).imp_right branchLocals_declared)
          · rw [← List.append_assoc, List.mem_append, not_or] at visible
            exact branch_logsKnown (fun member => undone.present v member visible.1) names_t visible.2
  | loop c inc body ihb =>
      exact ihb (Follows.traverseExpr inc (Follows.traverseExpr c follows names.1) names.2.1)
        names.2.2
  | doWhile body c ihb =>
      obtain ⟨same, first⟩ := ihb follows names.1
      rw [AllocationTraverser.traverseStmt, copyStmt, same]
      cases goes : (right.copyStmt base analyze body).2 with
      | false =>
          rw [if_neg Bool.false_ne_true, if_neg Bool.false_ne_true]
          rw [goes] at first same ⊢
          exact ⟨same, first⟩
      | true =>
          rw [if_pos rfl, if_pos rfl]
          rw [goes] at first
          exact ⟨rfl, Follows.traverseExpr c first names.2⟩
  | switch c body ihb => exact ihb (Follows.traverseExpr c follows names.1) names.2
  | labelled s ihs => exact ihs follows names
  | brk => exact ⟨rfl, follows.same rfl _⟩
  | cont => exact ⟨rfl, follows.same rfl _⟩
  | ret e =>
      obtain ⟨visited, same⟩ : Follows inBranch hidden assigned
          (left.visitReturnStmt base analyze e).1 (right.visitReturnStmt base analyze e).1 ∧
          (left.visitReturnStmt base analyze e).2 = (right.visitReturnStmt base analyze e).2 :=
        follows.visitReturnStmt names.1
      rw [AllocationTraverser.traverseStmt, copyStmt, same]
      cases goes : (right.visitReturnStmt base analyze e).2 with
      | false =>
          rw [if_neg Bool.false_ne_true, if_neg Bool.false_ne_true]
          exact ⟨same, visited.same rfl _⟩
      | true =>
          rw [if_pos rfl, if_pos rfl]
          exact ⟨rfl, (Follows.traverseExpr e visited names).same rfl _⟩

end Statements

end AllocationTraverser

section Agreement

open AllocationTraverser

variable {base : CodeBase} {analyze : Nat → AllocFuncs → Known × AllocFuncs}
variable {start : AllocationTraverser}

/-- With every variable that its branches assign in the map, an if statement is joined as the
reference joins it. -/
theorem mergesAsCopies_of_present {assigned : List Var} {init test s t : Code}
    (present : ∀ v ∈ assigned, (start.varMap v).isSome = true)
    (names : Scoped start.undoLog.isSome [] assigned (.ite init test s t)) :
    MergesAsCopies base analyze start init test s t := by
  have follows : Follows start.undoLog.isSome [] assigned start { start with undoLog := none } :=
    ⟨fun _ _ => rfl, fun v member _ => present v member, rfl, rfl, rfl, rfl⟩
  obtain ⟨_, after⟩ : _ ∧ Follows _ _ _ (start.traverseStmt base analyze (.ite init test s t)).1 _ :=
    follows.traverseStmt _ names
  obtain ⟨same, tested⟩ : _ ∧ Follows _ _ _ (start.traverseStmt base analyze test).1 _ :=
    follows.traverseStmt _ names.2.1
  rw [← same, condition_goes names.1] at tested
  refine ⟨after.lookup, after.result, after.visited, fun v outside => ?_⟩
  have visible : v ∉ [] ++ branchLocals test := by
    rw [branchLocals_condition names.1]
    exact List.not_mem_nil
  exact (branch_logsKnown (fun member => tested.present v member visible) names.2.2.1 outside).undo

/-- `if (...) v = nullptr;` -/
def assignInBranch (v : Var) : Code := .ite .absent (.expr .other) (.expr (.assign v .null)) .absent

/-- Of a variable that is missing the log has no value, where the reference knows one. -/
theorem assignInBranch_missing {v : Var} (missing : start.varMap v = none) :
    (start.traverseStmt base analyze (assignInBranch v)).1.varMap.lookup v = none ∧
      ({ start with undoLog := none }.copyStmt base analyze (assignInBranch v)).1.varMap.lookup v =
        some .none := by
  constructor
  · simp [assignInBranch, traverseStmt, traverseExpr, Stmt.isAbsent, joinThen, enter, log, store,
      handleExpr, overwritten, VarMap.try_emplace, VarMap.empty, VarMap.set, VarMap.subscript,
      VarMap.lookup, missing, join]
  · simp [assignInBranch, copyStmt, traverseExpr, mergeCopies, log, store, handleExpr, VarMap.set,
      VarMap.lookup, missing, merge]

theorem branches_merge_iff (base : CodeBase) (analyze : Nat → AllocFuncs → Known × AllocFuncs)
    (start : AllocationTraverser) (assigned : List Var) :
    (∀ init test s t, Scoped start.undoLog.isSome [] assigned (.ite init test s t) →
        MergesAsCopies base analyze start init test s t) ↔
      ∀ v ∈ assigned, (start.varMap v).isSome = true := by
  refine ⟨fun merges v member => ?_, fun present init test s t names =>
    mergesAsCopies_of_present present names⟩
  by_contra absent
  rw [Bool.not_eq_true, Option.isSome_eq_false_iff, Option.isNone_iff_eq_none] at absent
  have names : Scoped start.undoLog.isSome [] assigned (assignInBranch v) := by
    refine ⟨rfl, ⟨fun _ => nofun, fun _ _ => nofun⟩, ⟨fun _ _ => List.not_mem_nil,
      fun _ w touched => ?_⟩, trivial⟩
    obtain rfl := List.mem_singleton.mp touched
    exact member
  have agrees : (start.traverseStmt base analyze (assignInBranch v)).1.varMap.lookup v =
      ({ start with undoLog := none }.copyStmt base analyze (assignInBranch v)).1.varMap.lookup v :=
    (merges _ _ _ _ names).1 v List.not_mem_nil
  obtain ⟨left, right⟩ := @assignInBranch_missing base analyze start v absent
  cases left.symm.trans (agrees.trans right)

/-- `if (...) { if (...) g = nullptr; if (...) return new int; return g; }` for a global `g` loses
the value that `g` has when it is not assigned. -/
theorem branches_lose_global :
    let g := Var.own 0
    let body : Code := .seq (assignInBranch g)
      (.seq (.ite .absent (.expr .other) (.ret (.allocate .new)) .absent) (.ret (.var g)))
    Scoped false [] [g] (.ite .absent (.expr .other) body .absent) ∧
      ¬MergesAsCopies [] (fun _ table => (none, table)) { visitedFuncs := fun _ => none }
        .absent (.expr .other) body .absent := by
  intro g body
  refine ⟨by simp [g, body, Scoped, ExprScoped, assignInBranch, isCondition, exprVars, Expr.touched,
    branchLocals, declared], fun merges => ?_⟩
  have left : (({ visitedFuncs := fun _ => none } : AllocationTraverser).traverseStmt []
      (fun _ table => (none, table)) (.ite .absent (.expr .other) body .absent)).1.result =
        some .new := by
    decide
  have right : (({ visitedFuncs := fun _ => none } : AllocationTraverser).copyStmt []
      (fun _ table => (none, table)) (.ite .absent (.expr .other) body .absent)).1.result =
        some .unknown := by
    decide
  cases left.symm.trans (merges.2.1.trans right)

end Agreement

end CppInterOp
