import CppInterOp.OwnershipAlloc

/-!
What a traversal of `AllocationTraverser` can do to its map, its undo log, its result and the
table of functions already seen.
-/

namespace CppInterOp

open PointerPrograms

section Handed

mutual

def exprHanded : CodeExpr → List CodeExpr
  | .var _ => []
  | .null => []
  | .other => []
  | .allocate _ => []
  | .cast e => exprHanded e
  | .assign _ e => e :: exprHanded e
  | .shift _ e => exprHanded e
  | .comma a b => exprHanded a ++ exprHanded b
  | .cond c a b => exprHanded c ++ exprHanded a ++ exprHanded b
  | .call _ args => argsHanded args
  | .filled _ => []

def argsHanded : List CodeExpr → List CodeExpr
  | [] => []
  | e :: es => exprHanded e ++ argsHanded es

end

def stmtHanded : Code → List CodeExpr
  | .absent => []
  | .expr e => exprHanded e
  | .decl _ none => []
  | .decl _ (some e) => e :: exprHanded e
  | .seq s t => stmtHanded s ++ stmtHanded t
  | .dealloc _ e => exprHanded e
  | .ite _ test s t => stmtHanded test ++ stmtHanded s ++ stmtHanded t
  | .loop c inc body => exprHanded c ++ exprHanded inc ++ stmtHanded body
  | .doWhile body c => stmtHanded body ++ exprHanded c
  | .switch c body => exprHanded c ++ stmtHanded body
  | .labelled s => stmtHanded s
  | .brk => []
  | .cont => []
  | .ret e => e :: exprHanded e

def parametersHanded (fn : CodeFunction) : List CodeExpr :=
  (List.range fn.numParams).filterMap fn.default

def analysisHanded (fn : CodeFunction) (body : Code) : List CodeExpr :=
  parametersHanded fn ++ stmtHanded body

def directCall : CodeExpr → Option (Nat × List CodeExpr)
  | .cast e => directCall e
  | .call f args => some (f, args)
  | _ => none

def declared : Code → List Var
  | .decl name _ => [.own name]
  | .seq s t => declared s ++ declared t
  | .ite _ test s t => declared test ++ declared s ++ declared t
  | .loop _ _ body => declared body
  | .doWhile body _ => declared body
  | .switch _ body => declared body
  | .labelled s => declared s
  | _ => []

/-- The variables that a traversal may write: the init statement of an if statement is left
out. -/
def stmtWritten : Code → List Var
  | .absent => []
  | .expr e => e.touched
  | .decl name init => .own name :: (init.map Expr.touched).getD []
  | .seq s t => stmtWritten s ++ stmtWritten t
  | .dealloc _ e => e.touched
  | .ite _ test s t => stmtWritten test ++ stmtWritten s ++ stmtWritten t
  | .loop c inc body => c.touched ++ inc.touched ++ stmtWritten body
  | .doWhile body c => stmtWritten body ++ c.touched
  | .switch c body => c.touched ++ stmtWritten body
  | .labelled s => stmtWritten s
  | .brk => []
  | .cont => []
  | .ret e => e.touched

theorem touched_of_written {v : Var} {s : Code} (written : v ∈ stmtWritten s) : v ∈ s.touched := by
  induction s with
  | seq s t ihs iht =>
      rw [stmtWritten, List.mem_append] at written
      rw [Stmt.touched, List.mem_append]
      exact written.imp ihs iht
  | ite init test s t _ ihc ihs iht =>
      simp only [stmtWritten, List.mem_append] at written
      simp only [Stmt.touched, List.mem_append]
      exact written.imp (Or.imp (fun test => Or.inr (ihc test)) ihs) iht
  | loop c inc body ihb =>
      rw [stmtWritten, List.mem_append] at written
      rw [Stmt.touched, List.mem_append]
      exact written.imp_right ihb
  | doWhile body c ihb =>
      rw [stmtWritten, List.mem_append] at written
      rw [Stmt.touched, List.mem_append]
      exact written.imp_left ihb
  | switch c body ihb =>
      rw [stmtWritten, List.mem_append] at written
      rw [Stmt.touched, List.mem_append]
      exact written.imp_right ihb
  | labelled s ihs => exact ihs written
  | _ => exact written

end Handed

namespace VarMap

@[simp] theorem set_same (map : VarMap) (v : Var) (known : Known) :
    map.set v known v = some known := if_pos rfl

theorem set_other (map : VarMap) {v w : Var} (other : w ≠ v) (known : Known) :
    map.set v known w = map w := if_neg other

@[simp] theorem subscript_set (map : VarMap) (v : Var) (known : Known) :
    (map.set v known).subscript v = known := by
  rw [subscript, set_same]
  rfl

theorem try_emplace_other (map : VarMap) {v w : Var} (other : w ≠ v) (known : Known) :
    map.try_emplace v known w = map w := by
  rw [try_emplace]
  cases map v with
  | none => exact map.set_other other known
  | some _ => rfl

theorem try_emplace_new {map : VarMap} {v : Var} (missing : map v = none) (known : Known) :
    map.try_emplace v known v = some known := by
  rw [try_emplace, missing]
  exact map.set_same v known

theorem try_emplace_old {map : VarMap} {v w : Var} {old : Known} (present : map w = some old)
    (known : Known) : map.try_emplace v known w = some old := by
  rw [try_emplace]
  cases at_v : map v with
  | some _ => exact present
  | none =>
      have other : w ≠ v := by
        rintro rfl
        cases at_v.symm.trans present
      exact (map.set_other other known).trans present

end VarMap

namespace AllocationTraverser

variable {base : CodeBase} {analyze : Nat → AllocFuncs → Known × AllocFuncs}

section Results

structure Kept (holds : Known → Prop) : Prop where
  first : holds none → ∀ a, holds a
  join : ∀ a b, holds a → holds (join a b)

@[simp] theorem log_result (traverser : AllocationTraverser) (v : Var) :
    (traverser.log v).result = traverser.result := by
  rw [log]
  split
  · rfl
  · rfl

@[simp] theorem log_visited (traverser : AllocationTraverser) (v : Var) :
    (traverser.log v).visitedFuncs = traverser.visitedFuncs := by
  rw [log]
  split
  · rfl
  · rfl

mutual

theorem traverseExpr_result :
    ∀ (e : CodeExpr) (traverser : AllocationTraverser),
      (traverser.traverseExpr base analyze e).result = traverser.result
  | .var _, _ => rfl
  | .null, _ => rfl
  | .other, _ => rfl
  | .allocate _, _ => rfl
  | .cast e, traverser => traverseExpr_result e traverser
  | .assign v e, traverser => (traverseExpr_result e _).trans (traverser.log_result v)
  | .shift v e, traverser => (traverseExpr_result e _).trans (traverser.log_result v)
  | .comma a b, traverser => (traverseExpr_result b _).trans (traverseExpr_result a traverser)
  | .cond c a b, traverser =>
      ((traverseExpr_result b _).trans (traverseExpr_result a _)).trans
        (traverseExpr_result c traverser)
  | .call _ args, traverser => traverseArgs_result args traverser
  | .filled _, _ => rfl

theorem traverseArgs_result :
    ∀ (es : List CodeExpr) (traverser : AllocationTraverser),
      (traverser.traverseArgs base analyze es).result = traverser.result
  | [], _ => rfl
  | e :: es, traverser => (traverseArgs_result es _).trans (traverseExpr_result e traverser)

end

theorem visitVarDecl_result (traverser : AllocationTraverser) (v : Var)
    (init : Option CodeExpr) :
    (traverser.visitVarDecl base analyze v init).result = traverser.result := by
  cases init with
  | none => rfl
  | some e => rfl

theorem visitParameter_result (fn : CodeFunction) (traverser : AllocationTraverser) (index : Nat) :
    (traverser.visitParameter base analyze fn index).result = traverser.result := by
  rw [visitParameter]
  split
  · exact visitVarDecl_result traverser _ _
  · exact visitVarDecl_result traverser _ _

theorem visitParameters_result (fn : CodeFunction) (traverser : AllocationTraverser) :
    (traverser.visitParameters base analyze fn).result = traverser.result := by
  rw [visitParameters]
  induction List.range fn.numParams generalizing traverser with
  | nil => rfl
  | cons index rest ih => exact (ih _).trans (visitParameter_result fn traverser index)

theorem visitReturnStmt_cases (traverser : AllocationTraverser) {e : CodeExpr} {tmp : Known}
    (handled : (handleExpr base analyze traverser.varMap traverser.visitedFuncs e).1 = tmp) :
    (tmp = none ∧ (traverser.visitReturnStmt base analyze e).1.result = traverser.result ∧
        (traverser.visitReturnStmt base analyze e).2 = true) ∨
      (traverser.result = none ∧ (traverser.visitReturnStmt base analyze e).1.result = tmp ∧
        (traverser.visitReturnStmt base analyze e).2 = true) ∨
      ((traverser.visitReturnStmt base analyze e).1.result = join traverser.result tmp ∧
        (traverser.visitReturnStmt base analyze e).2 =
          decide ((traverser.visitReturnStmt base analyze e).1.result ≠ some .unknown)) := by
  simp only [visitReturnStmt, handled]
  by_cases nothing : tmp = none
  · simp only [if_pos nothing]
    exact Or.inl ⟨nothing, trivial, trivial⟩
  · simp only [if_neg nothing]
    by_cases first : traverser.result = none
    · simp only [if_pos first]
      exact Or.inr (Or.inl ⟨first, trivial, trivial⟩)
    · simp only [if_neg first]
      exact Or.inr (Or.inr ⟨trivial, trivial⟩)

theorem Kept.visitReturnStmt {holds : Known → Prop} (kept : Kept holds)
    {traverser : AllocationTraverser} (here : holds traverser.result) (e : CodeExpr) :
    holds (traverser.visitReturnStmt base analyze e).1.result := by
  have handled : (handleExpr base analyze traverser.varMap traverser.visitedFuncs e).1 = _ := rfl
  rcases visitReturnStmt_cases traverser handled with ⟨_, same, _⟩ | ⟨first, _, _⟩ | ⟨joined, _⟩
  · rwa [same]
  · exact kept.first (first ▸ here) _
  · rw [joined]
    exact kept.join _ _ here

/-- What holds of the result goes on to hold while returned values are joined with it. -/
theorem Kept.traverseStmt {holds : Known → Prop} (kept : Kept holds) (s : Code)
    {traverser : AllocationTraverser} (here : holds traverser.result) :
    holds (traverser.traverseStmt base analyze s).1.result := by
  induction s generalizing traverser with
  | absent => exact here
  | expr e => exact (traverseExpr_result e traverser).symm ▸ here
  | decl name init =>
      cases init with
      | none => exact here
      | some e =>
          exact ((traverseExpr_result e _).trans (visitVarDecl_result traverser _ _)).symm ▸ here
  | seq s t ihs iht =>
      rw [AllocationTraverser.traverseStmt]
      split
      · exact iht (ihs here)
      · exact ihs here
  | dealloc form e => exact (traverseExpr_result e traverser).symm ▸ here
  | ite init test s t ihi ihc ihs iht =>
      have inside : holds ((traverser.traverseStmt base analyze test).1.enter.traverseStmt base
          analyze s).1.result := ihs (ihc here)
      rw [AllocationTraverser.traverseStmt]
      split
      · exact inside
      · exact iht inside
  | loop c inc body ihb =>
      apply ihb
      exact ((traverseExpr_result inc _).trans (traverseExpr_result c traverser)).symm ▸ here
  | doWhile body c ihb =>
      rw [AllocationTraverser.traverseStmt]
      split
      · exact (traverseExpr_result c _).symm ▸ ihb here
      · exact ihb here
  | switch c body ihb =>
      apply ihb
      exact (traverseExpr_result c traverser).symm ▸ here
  | labelled s ihs => exact ihs here
  | brk => exact here
  | cont => exact here
  | ret e =>
      rw [AllocationTraverser.traverseStmt]
      split
      · exact (traverseExpr_result e _).symm ▸ kept.visitReturnStmt here e
      · exact kept.visitReturnStmt here e

theorem join_unknown (other : Known) : join (some .unknown) other = some .unknown := by
  rw [join, if_neg nofun]
  split
  · rfl
  · split
    · rfl
    · rfl

theorem kept_unknown : Kept fun known => known = some .unknown where
  first := nofun
  join := by
    rintro a b rfl
    exact join_unknown b

theorem traverseStmt_stopped (s : Code) {traverser : AllocationTraverser}
    (stopped : (traverser.traverseStmt base analyze s).2 = false) :
    (traverser.traverseStmt base analyze s).1.result = some .unknown := by
  induction s generalizing traverser with
  | absent => cases stopped
  | expr e => cases stopped
  | decl name init =>
      cases init with
      | none => cases stopped
      | some e => cases stopped
  | seq s t ihs iht =>
      rw [traverseStmt] at stopped ⊢
      split at stopped
      · rename_i goes
        rw [if_pos goes]
        exact iht stopped
      · rename_i stops
        rw [if_neg stops]
        exact ihs stopped
  | dealloc form e => cases stopped
  | ite init test s t =>
      rw [traverseStmt] at stopped
      split at stopped
      · cases stopped
      · cases stopped
  | loop c inc body ihb => exact ihb stopped
  | doWhile body c ihb =>
      rw [traverseStmt] at stopped ⊢
      split at stopped
      · cases stopped
      · rename_i stops
        rw [if_neg stops]
        exact ihb stopped
  | switch c body ihb => exact ihb stopped
  | labelled s ihs => exact ihs stopped
  | brk => cases stopped
  | cont => cases stopped
  | ret e =>
      rw [traverseStmt] at stopped ⊢
      split at stopped
      · cases stopped
      · rename_i stops
        rw [if_neg stops]
        have handled :
            (handleExpr base analyze traverser.varMap traverser.visitedFuncs e).1 = _ := rfl
        rcases visitReturnStmt_cases traverser handled with ⟨_, _, goes⟩ | ⟨_, _, goes⟩ | ⟨_, goes⟩
        · exact absurd goes stops
        · exact absurd goes stops
        · rw [goes] at stopped
          exact not_not.mp (of_decide_eq_false stopped)

end Results

section Frame

def SameAt (v : Var) (before after : AllocationTraverser) : Prop :=
  after.varMap v = before.varMap v ∧
    (after.undoLog.map fun log => log v) = before.undoLog.map fun log => log v

theorem SameAt.refl (v : Var) (traverser : AllocationTraverser) : SameAt v traverser traverser :=
  ⟨rfl, rfl⟩

theorem SameAt.trans {v : Var} {before middle after : AllocationTraverser}
    (first : SameAt v before middle) (second : SameAt v middle after) : SameAt v before after :=
  ⟨second.1.trans first.1, second.2.trans first.2⟩

theorem log_same (traverser : AllocationTraverser) {v w : Var} (other : v ≠ w) :
    SameAt v traverser (traverser.log w) := by
  rw [log]
  cases has_log : traverser.undoLog with
  | none => exact .refl v traverser
  | some undoLog =>
      refine ⟨VarMap.set_other _ other _, ?_⟩
      simp only [has_log, Option.map_some, VarMap.try_emplace_other _ other]

theorem set_same (traverser : AllocationTraverser) {v w : Var} (other : v ≠ w) (known : Known)
    (table : AllocFuncs) : SameAt v traverser
      { traverser with varMap := traverser.varMap.set w known, visitedFuncs := table } :=
  ⟨VarMap.set_other _ other _, rfl⟩

mutual

theorem traverseExpr_same {v : Var} :
    ∀ (e : CodeExpr) (traverser : AllocationTraverser), v ∉ e.touched →
      SameAt v traverser (traverser.traverseExpr base analyze e)
  | .var _, traverser, _ => .refl v traverser
  | .null, traverser, _ => .refl v traverser
  | .other, traverser, _ => .refl v traverser
  | .allocate _, traverser, _ => .refl v traverser
  | .cast e, traverser, untouched => traverseExpr_same e traverser untouched
  | .assign w e, traverser, untouched => by
      rw [Expr.touched, List.mem_cons, not_or] at untouched
      have stored : SameAt v traverser ((traverser.log w).store base analyze w e) :=
        (traverser.log_same untouched.1).trans (set_same _ untouched.1 _ _)
      exact stored.trans (traverseExpr_same e _ untouched.2)
  | .shift w e, traverser, untouched => by
      rw [Expr.touched, List.mem_cons, not_or] at untouched
      have moved : SameAt v traverser { traverser.log w with
          varMap := (traverser.log w).varMap.set w (some .unknown) } :=
        (traverser.log_same untouched.1).trans (set_same _ untouched.1 _ _)
      exact moved.trans (traverseExpr_same e _ untouched.2)
  | .comma a b, traverser, untouched => by
      rw [Expr.touched, List.mem_append, not_or] at untouched
      exact (traverseExpr_same a traverser untouched.1).trans (traverseExpr_same b _ untouched.2)
  | .cond c a b, traverser, untouched => by
      simp only [Expr.touched, List.mem_append, not_or] at untouched
      exact ((traverseExpr_same c traverser untouched.1.1).trans
        (traverseExpr_same a _ untouched.1.2)).trans (traverseExpr_same b _ untouched.2)
  | .call _ args, traverser, untouched => traverseArgs_same args traverser untouched
  | .filled _, traverser, _ => .refl v traverser

theorem traverseArgs_same {v : Var} :
    ∀ (es : List CodeExpr) (traverser : AllocationTraverser), v ∉ Expr.touchedArgs es →
      SameAt v traverser (traverser.traverseArgs base analyze es)
  | [], traverser, _ => .refl v traverser
  | e :: es, traverser, untouched => by
      rw [Expr.touchedArgs, List.mem_append, not_or] at untouched
      exact (traverseExpr_same e traverser untouched.1).trans (traverseArgs_same es _ untouched.2)

end

theorem visitReturnStmt_same (traverser : AllocationTraverser) (e : CodeExpr) :
    (traverser.visitReturnStmt base analyze e).1.varMap = traverser.varMap ∧
      (traverser.visitReturnStmt base analyze e).1.undoLog = traverser.undoLog := by
  rw [visitReturnStmt]
  split
  · exact ⟨rfl, rfl⟩
  · split
    · exact ⟨rfl, rfl⟩
    · exact ⟨rfl, rfl⟩

theorem overwritten_enter {v : Var} {tested branch : AllocationTraverser}
    (same : SameAt v tested.enter branch) : branch.overwritten v = none := by
  have logged := same.2
  rw [enter, Option.map_some] at logged
  obtain ⟨log, has_log, at_v⟩ := Option.map_eq_some_iff.mp logged
  rw [overwritten, has_log]
  exact at_v

theorem inform_untouched {v : Var} {outer inner : VarMap} (untouched : inner v = none) :
    inform outer inner v = outer v := by
  rw [inform]
  cases at_v : outer v with
  | none => exact untouched
  | some known => rfl

theorem joinThen_same {v : Var} {tested thenBranch : AllocationTraverser}
    (same : SameAt v tested.enter thenBranch) : SameAt v tested (joinThen tested thenBranch) := by
  have untouched := overwritten_enter same
  constructor
  · simp only [joinThen, untouched]
    exact same.1
  · simp only [joinThen, Option.map_map]
    exact Option.map_congr fun log _ => inform_untouched untouched

theorem undo_same {v : Var} {tested thenBranch : AllocationTraverser}
    (same : SameAt v tested.enter thenBranch) :
    SameAt v tested.enter thenBranch.undoOnVarMap.enter := by
  refine ⟨?_, rfl⟩
  simp only [enter, undoOnVarMap, overwritten_enter same]
  exact same.1

theorem joinElse_same {v : Var} {tested thenBranch elseBranch : AllocationTraverser}
    (same : SameAt v tested.enter thenBranch)
    (same_else : SameAt v thenBranch.undoOnVarMap.enter elseBranch) :
    SameAt v tested (joinElse tested thenBranch elseBranch) := by
  have untouched := overwritten_enter same
  have untouched_else := overwritten_enter same_else
  constructor
  · simp only [joinElse, untouched, untouched_else, Option.map_none]
    exact same_else.1.trans (undo_same same).1
  · simp only [joinElse, Option.map_map]
    exact Option.map_congr fun log _ =>
      (inform_untouched untouched_else).trans (inform_untouched untouched)

theorem traverseStmt_same {v : Var} (s : Code) (traverser : AllocationTraverser)
    (untouched : v ∉ stmtWritten s) : SameAt v traverser (traverser.traverseStmt base analyze s).1 := by
  induction s generalizing traverser with
  | absent => exact .refl v traverser
  | expr e => exact traverseExpr_same e traverser untouched
  | decl name init =>
      rw [stmtWritten, List.mem_cons, not_or] at untouched
      cases init with
      | none => exact set_same traverser untouched.1 _ _
      | some e =>
          have stored : SameAt v traverser
              (traverser.visitVarDecl base analyze (.own name) (some e)) :=
            set_same traverser untouched.1 _ _
          exact stored.trans (traverseExpr_same e _ untouched.2)
  | seq s t ihs iht =>
      rw [stmtWritten, List.mem_append, not_or] at untouched
      rw [traverseStmt]
      split
      · exact (ihs traverser untouched.1).trans (iht _ untouched.2)
      · exact ihs traverser untouched.1
  | dealloc form e => exact traverseExpr_same e traverser untouched
  | ite init test s t _ ihc ihs iht =>
      simp only [stmtWritten, List.mem_append, not_or] at untouched
      obtain ⟨⟨test, s⟩, t⟩ := untouched
      have tested := ihc traverser test
      rw [traverseStmt]
      split
      · exact tested.trans (joinThen_same (ihs _ s))
      · exact tested.trans (joinElse_same (ihs _ s) (iht _ t))
  | loop c inc body ihb =>
      simp only [stmtWritten, List.mem_append, not_or] at untouched
      obtain ⟨⟨c, inc⟩, body⟩ := untouched
      exact ((traverseExpr_same _ traverser c).trans (traverseExpr_same _ _ inc)).trans (ihb _ body)
  | doWhile body c ihb =>
      rw [stmtWritten, List.mem_append, not_or] at untouched
      rw [traverseStmt]
      split
      · exact (ihb traverser untouched.1).trans (traverseExpr_same c _ untouched.2)
      · exact ihb traverser untouched.1
  | switch c body ihb =>
      rw [stmtWritten, List.mem_append, not_or] at untouched
      exact (traverseExpr_same c traverser untouched.1).trans (ihb _ untouched.2)
  | labelled s ihs => exact ihs traverser untouched
  | brk => exact .refl v traverser
  | cont => exact .refl v traverser
  | ret e =>
      have visited : SameAt v traverser (traverser.visitReturnStmt base analyze e).1 := by
        have same := @visitReturnStmt_same base analyze traverser e
        exact ⟨by rw [same.1], by rw [same.2]⟩
      rw [traverseStmt]
      split
      · exact visited.trans (traverseExpr_same e _ untouched)
      · exact visited

end Frame

section Logs

def Logged (v : Var) (before after : AllocationTraverser) : Prop :=
  (before.undoLog = none → after.undoLog = none) ∧
    ∀ log, before.undoLog = some log → ∃ later, after.undoLog = some later ∧
      (∀ old, log v = some old → later v = some old) ∧
      (log v = none → later v = none ∧ after.varMap v = before.varMap v ∨
        later v = some (before.varMap.subscript v))

theorem SameAt.logged {v : Var} {before after : AllocationTraverser}
    (same : SameAt v before after) : Logged v before after := by
  refine ⟨fun no_log => ?_, fun log has_log => ?_⟩
  · have logged := same.2
    rw [no_log] at logged
    exact Option.map_eq_none_iff.mp logged
  · have logged := same.2
    rw [has_log, Option.map_some] at logged
    obtain ⟨later, has_later, at_v⟩ := Option.map_eq_some_iff.mp logged
    exact ⟨later, has_later, fun old present => at_v.trans present,
      fun missing => Or.inl ⟨at_v.trans missing, same.1⟩⟩

theorem Logged.trans {v : Var} {before middle after : AllocationTraverser}
    (first : Logged v before middle) (second : Logged v middle after) :
    Logged v before after := by
  refine ⟨fun no_log => second.1 (first.1 no_log), fun log has_log => ?_⟩
  obtain ⟨between, has_between, kept, changed⟩ := first.2 log has_log
  obtain ⟨later, has_later, kept_later, changed_later⟩ := second.2 between has_between
  refine ⟨later, has_later, fun old present => kept_later old (kept old present), fun missing => ?_⟩
  rcases changed missing with ⟨still_missing, same⟩ | logged
  · rw [VarMap.subscript, ← same]
    exact changed_later still_missing
  · exact Or.inr (kept_later _ logged)

theorem assigned_logged (traverser : AllocationTraverser) (v w : Var) (known : Known)
    (table : AllocFuncs) : Logged v traverser
      { traverser.log w with
        varMap := (traverser.log w).varMap.set w known, visitedFuncs := table } := by
  by_cases same : v = w
  · subst same
    rw [log]
    cases has_log : traverser.undoLog with
    | none => exact ⟨fun _ => has_log, fun log present => nomatch has_log.symm.trans present⟩
    | some log =>
        refine ⟨fun no_log => (nomatch has_log.symm.trans no_log), fun other has_other => ?_⟩
        obtain rfl : log = other := Option.some.inj (has_log.symm.trans has_other)
        exact ⟨_, rfl, fun old present => VarMap.try_emplace_old present _,
          fun missing => Or.inr (VarMap.try_emplace_new missing _)⟩
  · exact ((traverser.log_same same).trans (set_same _ same _ _)).logged

mutual

theorem traverseExpr_logged (v : Var) :
    ∀ (e : CodeExpr) (traverser : AllocationTraverser),
      Logged v traverser (traverser.traverseExpr base analyze e)
  | .var _, traverser => (SameAt.refl v traverser).logged
  | .null, traverser => (SameAt.refl v traverser).logged
  | .other, traverser => (SameAt.refl v traverser).logged
  | .allocate _, traverser => (SameAt.refl v traverser).logged
  | .cast e, traverser => traverseExpr_logged v e traverser
  | .assign w e, traverser =>
      (assigned_logged traverser v w _ _).trans (traverseExpr_logged v e _)
  | .shift w e, traverser =>
      (assigned_logged traverser v w _ _).trans (traverseExpr_logged v e _)
  | .comma a b, traverser =>
      (traverseExpr_logged v a traverser).trans (traverseExpr_logged v b _)
  | .cond c a b, traverser =>
      ((traverseExpr_logged v c traverser).trans (traverseExpr_logged v a _)).trans
        (traverseExpr_logged v b _)
  | .call _ args, traverser => traverseArgs_logged v args traverser
  | .filled _, traverser => (SameAt.refl v traverser).logged

theorem traverseArgs_logged (v : Var) :
    ∀ (es : List CodeExpr) (traverser : AllocationTraverser),
      Logged v traverser (traverser.traverseArgs base analyze es)
  | [], traverser => (SameAt.refl v traverser).logged
  | e :: es, traverser => (traverseExpr_logged v e traverser).trans (traverseArgs_logged v es _)

end

/-- What a branch overwrote is logged with what was known before the branch. -/
theorem Logged.overwritten {v : Var} {tested branch : AllocationTraverser}
    (logged : Logged v tested.enter branch) :
    (branch.overwritten v = none ∧ branch.varMap v = tested.varMap v) ∨
      branch.overwritten v = some (tested.varMap.subscript v) := by
  obtain ⟨later, has_later, _, changed⟩ := logged.2 _ rfl
  rw [AllocationTraverser.overwritten, has_later]
  exact changed rfl

theorem undo_cases {v : Var} {tested thenBranch : AllocationTraverser}
    (logged : Logged v tested.enter thenBranch) :
    (thenBranch.overwritten v = none ∧
        thenBranch.undoOnVarMap.varMap v = tested.varMap v) ∨
      (thenBranch.overwritten v = some (tested.varMap.subscript v) ∧
        thenBranch.undoOnVarMap.varMap v = some (tested.varMap.subscript v)) := by
  rcases logged.overwritten with ⟨missing, same⟩ | present
  · refine Or.inl ⟨missing, ?_⟩
    simp only [undoOnVarMap, missing]
    exact same
  · refine Or.inr ⟨present, ?_⟩
    simp only [undoOnVarMap, present]

theorem undo_subscript {v : Var} {tested thenBranch : AllocationTraverser}
    (logged : Logged v tested.enter thenBranch) :
    thenBranch.undoOnVarMap.varMap.subscript v = tested.varMap.subscript v := by
  rw [VarMap.subscript]
  rcases undo_cases logged with ⟨_, same⟩ | ⟨_, same⟩
  · rw [same]
    rfl
  · rw [same]
    rfl

theorem inform_present {v : Var} {outer inner : VarMap} {old : Known} (present : outer v = some old) :
    inform outer inner v = some old := by
  rw [inform, present]

theorem inform_missing {v : Var} {outer inner : VarMap} (missing : outer v = none) :
    inform outer inner v = inner v := by
  rw [inform, missing]

theorem joinThen_logged {v : Var} {tested thenBranch : AllocationTraverser}
    (logged : Logged v tested.enter thenBranch) :
    Logged v tested (joinThen tested thenBranch) := by
  refine ⟨fun no_log => by rw [joinThen, no_log]; rfl, fun log has_log => ?_⟩
  refine ⟨inform log thenBranch.overwritten, by rw [joinThen, has_log]; rfl,
    fun old present => inform_present present, fun missing => ?_⟩
  rw [inform_missing missing]
  rcases logged.overwritten with ⟨untouched, same⟩ | present
  · refine Or.inl ⟨untouched, ?_⟩
    simp only [joinThen, untouched]
    exact same
  · exact Or.inr present

theorem joinElse_logged {v : Var} {tested thenBranch elseBranch : AllocationTraverser}
    (logged : Logged v tested.enter thenBranch)
    (logged_else : Logged v thenBranch.undoOnVarMap.enter elseBranch) :
    Logged v tested (joinElse tested thenBranch elseBranch) := by
  refine ⟨fun no_log => by rw [joinElse, no_log]; rfl, fun log has_log => ?_⟩
  refine ⟨inform (inform log thenBranch.overwritten) elseBranch.overwritten,
    by rw [joinElse, has_log]; rfl,
    fun old present => inform_present (inform_present present), fun missing => ?_⟩
  rcases undo_cases logged with ⟨untouched, undone⟩ | ⟨present, _⟩
  · have both_missing : inform log thenBranch.overwritten v = none :=
      (inform_missing missing).trans untouched
    rw [inform_missing both_missing]
    rcases logged_else.overwritten with ⟨untouched_else, same⟩ | present
    · refine Or.inl ⟨untouched_else, ?_⟩
      simp only [joinElse, untouched, untouched_else, Option.map_none]
      exact same.trans undone
    · exact Or.inr (undo_subscript logged ▸ present)
  · exact Or.inr (inform_present ((inform_missing missing).trans present))

theorem traverseStmt_logged (v : Var) (s : Code) (traverser : AllocationTraverser)
    (outside : v ∉ declared s) : Logged v traverser (traverser.traverseStmt base analyze s).1 := by
  induction s generalizing traverser with
  | absent => exact (SameAt.refl v traverser).logged
  | expr e => exact traverseExpr_logged v e traverser
  | decl name init =>
      have other : v ≠ .own name := fun same => outside (List.mem_singleton.mpr same)
      cases init with
      | none => exact (set_same traverser other _ _).logged
      | some e =>
          have stored : SameAt v traverser
              (traverser.visitVarDecl base analyze (.own name) (some e)) :=
            set_same traverser other _ _
          exact stored.logged.trans (traverseExpr_logged v e _)
  | seq s t ihs iht =>
      rw [declared, List.mem_append, not_or] at outside
      rw [traverseStmt]
      split
      · exact (ihs traverser outside.1).trans (iht _ outside.2)
      · exact ihs traverser outside.1
  | dealloc form e => exact traverseExpr_logged v e traverser
  | ite init test s t _ ihc ihs iht =>
      simp only [declared, List.mem_append, not_or] at outside
      obtain ⟨⟨test, s⟩, t⟩ := outside
      have tested := ihc traverser test
      rw [traverseStmt]
      split
      · exact tested.trans (joinThen_logged (ihs _ s))
      · exact tested.trans (joinElse_logged (ihs _ s) (iht _ t))
  | loop c inc body ihb =>
      exact ((traverseExpr_logged v c traverser).trans (traverseExpr_logged v inc _)).trans
        (ihb _ outside)
  | doWhile body c ihb =>
      rw [traverseStmt]
      split
      · exact (ihb traverser outside).trans (traverseExpr_logged v c _)
      · exact ihb traverser outside
  | switch c body ihb => exact (traverseExpr_logged v c traverser).trans (ihb _ outside)
  | labelled s ihs => exact ihs traverser outside
  | brk => exact (SameAt.refl v traverser).logged
  | cont => exact (SameAt.refl v traverser).logged
  | ret e =>
      have visited : SameAt v traverser (traverser.visitReturnStmt base analyze e).1 := by
        have same := @visitReturnStmt_same base analyze traverser e
        exact ⟨by rw [same.1], by rw [same.2]⟩
      rw [traverseStmt]
      split
      · exact visited.logged.trans (traverseExpr_logged v e _)
      · exact visited.logged

end Logs

section Tables

variable {again : Nat → AllocFuncs → Known × AllocFuncs}
variable {related : AllocFuncs → AllocFuncs → Prop} {holds : AllocFuncs → Prop}

structure Alike (related : AllocFuncs → AllocFuncs → Prop) (left right : AllocationTraverser) :
    Prop where
  varMap : left.varMap = right.varMap
  result : left.result = right.result
  undoLog : left.undoLog = right.undoLog
  tables : related left.visitedFuncs right.visitedFuncs

def Answers (base : CodeBase) (analyze again : Nat → AllocFuncs → Known × AllocFuncs)
    (related : AllocFuncs → AllocFuncs → Prop) (e : CodeExpr) : Prop :=
  ∀ varMap table other, related table other →
    (handleExpr base analyze varMap table e).1 = (handleExpr base again varMap other e).1 ∧
      related (handleExpr base analyze varMap table e).2 (handleExpr base again varMap other e).2

theorem answers_of_call {e : CodeExpr}
    (calls : ∀ f args, directCall e = some (f, args) → ∀ table other, related table other →
      (handleCall base analyze f table).1 = (handleCall base again f other).1 ∧
        related (handleCall base analyze f table).2 (handleCall base again f other).2) :
    Answers base analyze again related e := by
  intro varMap table other here
  fun_induction directCall e with
  | case1 e ih => exact ih calls
  | case2 f args => exact calls f args rfl table other here
  | case3 e not_cast not_call =>
      cases e with
      | cast e => exact absurd rfl (not_cast e)
      | call f args => exact absurd rfl (not_call f args)
      | _ => exact ⟨rfl, here⟩

namespace Alike

variable {left right : AllocationTraverser}

theorem log (alike : Alike related left right) (v : Var) :
    Alike related (left.log v) (right.log v) := by
  obtain ⟨varMap, result, undoLog, tables⟩ := alike
  rw [AllocationTraverser.log, AllocationTraverser.log, ← undoLog, ← varMap]
  split
  · exact ⟨varMap, result, undoLog, tables⟩
  · exact ⟨rfl, result, rfl, tables⟩

theorem store (alike : Alike related left right) {e : CodeExpr}
    (answers : Answers base analyze again related e) (v : Var) :
    Alike related (left.store base analyze v e) (right.store base again v e) := by
  obtain ⟨same, after⟩ := answers left.varMap _ _ alike.tables
  rw [alike.varMap] at same after
  refine ⟨?_, alike.result, alike.undoLog, ?_⟩
  · rw [AllocationTraverser.store, AllocationTraverser.store, alike.varMap, same]
  · rw [AllocationTraverser.store, AllocationTraverser.store, alike.varMap]
    exact after

theorem set (alike : Alike related left right) (v : Var) (known : Known) :
    Alike related { left with varMap := left.varMap.set v known }
      { right with varMap := right.varMap.set v known } :=
  ⟨by rw [alike.varMap], alike.result, alike.undoLog, alike.tables⟩

theorem visitVarDecl (alike : Alike related left right) (v : Var) {init : Option CodeExpr}
    (answers : ∀ e, init = some e → Answers base analyze again related e) :
    Alike related (left.visitVarDecl base analyze v init) (right.visitVarDecl base again v init) := by
  cases init with
  | none => exact alike.set v _
  | some e => exact alike.store (answers e rfl) v

theorem visitParameter (alike : Alike related left right) {fn : CodeFunction} (index : Nat)
    (answers : ∀ e, fn.default index = some e → Answers base analyze again related e) :
    Alike related (left.visitParameter base analyze fn index)
      (right.visitParameter base again fn index) := by
  have visited := alike.visitVarDecl (.param index) answers
  rw [AllocationTraverser.visitParameter, AllocationTraverser.visitParameter]
  split
  · exact visited
  · exact ⟨alike.varMap, visited.result, visited.undoLog, visited.tables⟩

theorem visitParameters (alike : Alike related left right) {fn : CodeFunction}
    (answers : ∀ part ∈ parametersHanded fn, Answers base analyze again related part) :
    Alike related (left.visitParameters base analyze fn) (right.visitParameters base again fn) := by
  rw [AllocationTraverser.visitParameters, AllocationTraverser.visitParameters]
  rw [parametersHanded] at answers
  generalize List.range fn.numParams = indices at answers ⊢
  induction indices generalizing left right with
  | nil => exact alike
  | cons index rest ih =>
      have here : ∀ e, fn.default index = some e → Answers base analyze again related e :=
        fun e is_default => answers e (List.mem_filterMap.mpr ⟨index, List.mem_cons_self, is_default⟩)
      refine ih (alike.visitParameter index here) fun part member => answers part ?_
      obtain ⟨other, later, is_default⟩ := List.mem_filterMap.mp member
      exact List.mem_filterMap.mpr ⟨other, List.mem_cons_of_mem _ later, is_default⟩

mutual

theorem traverseExpr :
    ∀ (e : CodeExpr) {left right : AllocationTraverser},
      (∀ part ∈ exprHanded e, Answers base analyze again related part) →
      Alike related left right →
        Alike related (left.traverseExpr base analyze e) (right.traverseExpr base again e)
  | .var _, _, _, _, alike => alike
  | .null, _, _, _, alike => alike
  | .other, _, _, _, alike => alike
  | .allocate _, _, _, _, alike => alike
  | .cast e, _, _, answers, alike => traverseExpr e answers alike
  | .assign v e, _, _, answers, alike => by
      rw [exprHanded, List.forall_mem_cons] at answers
      exact traverseExpr e answers.2 ((alike.log v).store answers.1 v)
  | .shift v e, _, _, answers, alike => traverseExpr e answers ((alike.log v).set v _)
  | .comma a b, _, _, answers, alike => by
      rw [exprHanded, List.forall_mem_append] at answers
      exact traverseExpr b answers.2 (traverseExpr a answers.1 alike)
  | .cond c a b, _, _, answers, alike => by
      rw [exprHanded, List.forall_mem_append, List.forall_mem_append] at answers
      exact traverseExpr b answers.2
        (traverseExpr a answers.1.2 (traverseExpr c answers.1.1 alike))
  | .call _ args, _, _, answers, alike => traverseArgs args answers alike
  | .filled _, _, _, _, alike => alike

theorem traverseArgs :
    ∀ (es : List CodeExpr) {left right : AllocationTraverser},
      (∀ part ∈ argsHanded es, Answers base analyze again related part) →
      Alike related left right →
        Alike related (left.traverseArgs base analyze es) (right.traverseArgs base again es)
  | [], _, _, _, alike => alike
  | e :: es, _, _, answers, alike => by
      rw [argsHanded, List.forall_mem_append] at answers
      exact traverseArgs es answers.2 (traverseExpr e answers.1 alike)

end

theorem visitReturnStmt (alike : Alike related left right) {e : CodeExpr}
    (answers : Answers base analyze again related e) :
    Alike related (left.visitReturnStmt base analyze e).1 (right.visitReturnStmt base again e).1 ∧
      (left.visitReturnStmt base analyze e).2 = (right.visitReturnStmt base again e).2 := by
  obtain ⟨same, after⟩ := answers left.varMap _ _ alike.tables
  rw [alike.varMap] at same after
  have result := alike.result
  rw [AllocationTraverser.visitReturnStmt, AllocationTraverser.visitReturnStmt, alike.varMap, same]
  simp only [result]
  by_cases nothing : (handleExpr base again right.varMap right.visitedFuncs e).1 = none
  · rw [if_pos nothing, if_pos nothing]
    exact ⟨⟨rfl, rfl, alike.undoLog, after⟩, rfl⟩
  · rw [if_neg nothing, if_neg nothing]
    by_cases first : right.result = none
    · rw [if_pos first, if_pos first]
      exact ⟨⟨rfl, rfl, alike.undoLog, after⟩, rfl⟩
    · rw [if_neg first, if_neg first]
      exact ⟨⟨rfl, rfl, alike.undoLog, after⟩, rfl⟩

theorem overwritten (alike : Alike related left right) :
    left.overwritten = right.overwritten := by
  rw [AllocationTraverser.overwritten, AllocationTraverser.overwritten, alike.undoLog]

theorem enter (alike : Alike related left right) : Alike related left.enter right.enter :=
  ⟨alike.varMap, alike.result, rfl, alike.tables⟩

theorem undoOnVarMap (alike : Alike related left right) :
    Alike related left.undoOnVarMap right.undoOnVarMap := by
  refine ⟨?_, alike.result, alike.undoLog, alike.tables⟩
  rw [AllocationTraverser.undoOnVarMap, AllocationTraverser.undoOnVarMap, alike.overwritten,
    alike.varMap]

theorem joinThen {tested other : AllocationTraverser} (before : Alike related tested other)
    (alike : Alike related left right) :
    Alike related (AllocationTraverser.joinThen tested left)
      (AllocationTraverser.joinThen other right) := by
  refine ⟨?_, alike.result, ?_, alike.tables⟩
  · rw [AllocationTraverser.joinThen, AllocationTraverser.joinThen, alike.overwritten,
      alike.varMap]
  · rw [AllocationTraverser.joinThen, AllocationTraverser.joinThen, alike.overwritten,
      before.undoLog]

theorem joinElse {tested other first second : AllocationTraverser}
    (before : Alike related tested other) (chosen : Alike related first second)
    (alike : Alike related left right) :
    Alike related (AllocationTraverser.joinElse tested first left)
      (AllocationTraverser.joinElse other second right) := by
  refine ⟨?_, alike.result, ?_, alike.tables⟩
  · rw [AllocationTraverser.joinElse, AllocationTraverser.joinElse, alike.overwritten,
      chosen.overwritten, alike.varMap, chosen.varMap]
  · rw [AllocationTraverser.joinElse, AllocationTraverser.joinElse, alike.overwritten,
      chosen.overwritten, before.undoLog]

/-- A traversal asks for no more of an analysis than what it hands to `handleExpr`. -/
theorem traverseStmt (s : Code) (alike : Alike related left right)
    (answers : ∀ part ∈ stmtHanded s, Answers base analyze again related part) :
    Alike related (left.traverseStmt base analyze s).1 (right.traverseStmt base again s).1 ∧
      (left.traverseStmt base analyze s).2 = (right.traverseStmt base again s).2 := by
  induction s generalizing left right with
  | absent => exact ⟨alike, rfl⟩
  | expr e => exact ⟨traverseExpr e answers alike, rfl⟩
  | decl name init =>
      cases init with
      | none => exact ⟨alike.set _ _, rfl⟩
      | some e =>
          rw [stmtHanded, List.forall_mem_cons] at answers
          exact ⟨traverseExpr e answers.2 (alike.store answers.1 _), rfl⟩
  | seq s t ihs iht =>
      rw [stmtHanded, List.forall_mem_append] at answers
      obtain ⟨after, same⟩ := ihs alike answers.1
      rw [AllocationTraverser.traverseStmt, AllocationTraverser.traverseStmt, same]
      cases goes : (right.traverseStmt base again s).2 with
      | true =>
          rw [if_pos rfl, if_pos rfl]
          exact iht after answers.2
      | false =>
          rw [if_neg Bool.false_ne_true, if_neg Bool.false_ne_true]
          exact ⟨after, same⟩
  | dealloc form e => exact ⟨traverseExpr e answers alike, rfl⟩
  | ite init test s t _ ihc ihs iht =>
      rw [stmtHanded, List.forall_mem_append, List.forall_mem_append] at answers
      have tested := (ihc alike answers.1.1).1
      have chosen := (ihs tested.enter answers.1.2).1
      rw [AllocationTraverser.traverseStmt, AllocationTraverser.traverseStmt]
      split
      · exact ⟨tested.joinThen chosen, rfl⟩
      · have other := (iht chosen.undoOnVarMap.enter answers.2).1
        exact ⟨tested.joinElse chosen other, rfl⟩
  | loop c inc body ihb =>
      rw [stmtHanded, List.forall_mem_append, List.forall_mem_append] at answers
      have tested := traverseExpr c answers.1.1 alike
      exact ihb (traverseExpr inc answers.1.2 tested) answers.2
  | doWhile body c ihb =>
      rw [stmtHanded, List.forall_mem_append] at answers
      obtain ⟨after, same⟩ := ihb alike answers.1
      rw [AllocationTraverser.traverseStmt, AllocationTraverser.traverseStmt, same]
      cases goes : (right.traverseStmt base again body).2 with
      | true =>
          rw [if_pos rfl, if_pos rfl]
          exact ⟨traverseExpr c answers.2 after, rfl⟩
      | false =>
          rw [if_neg Bool.false_ne_true, if_neg Bool.false_ne_true]
          exact ⟨after, same⟩
  | switch c body ihb =>
      rw [stmtHanded, List.forall_mem_append] at answers
      exact ihb (traverseExpr c answers.1 alike) answers.2
  | labelled s ihs => exact ihs alike answers
  | brk => exact ⟨alike, rfl⟩
  | cont => exact ⟨alike, rfl⟩
  | ret e =>
      rw [stmtHanded, List.forall_mem_cons] at answers
      obtain ⟨after, same⟩ := alike.visitReturnStmt answers.1
      rw [AllocationTraverser.traverseStmt, AllocationTraverser.traverseStmt, same]
      cases goes : (right.visitReturnStmt base again e).2 with
      | true =>
          rw [if_pos rfl, if_pos rfl]
          exact ⟨traverseExpr e answers.2 after, rfl⟩
      | false =>
          rw [if_neg Bool.false_ne_true, if_neg Bool.false_ne_true]
          exact ⟨after, same⟩

end Alike

def Permits (base : CodeBase) (analyze again : Nat → AllocFuncs → Known × AllocFuncs)
    (holds : AllocFuncs → Prop) (e : CodeExpr) : Prop :=
  ∀ varMap table, holds table →
    handleExpr base analyze varMap table e = handleExpr base again varMap table e ∧
      holds (handleExpr base analyze varMap table e).2

theorem permits_of_call {e : CodeExpr}
    (calls : ∀ f args, directCall e = some (f, args) → ∀ table, holds table →
      handleCall base analyze f table = handleCall base again f table ∧
        holds (handleCall base analyze f table).2) :
    Permits base analyze again holds e := by
  intro varMap table here
  have answers : Answers base analyze again (fun table other => table = other ∧ holds table) e := by
    refine answers_of_call fun f args call table other here => ?_
    obtain ⟨rfl, here⟩ := here
    obtain ⟨same, after⟩ := calls f args call table here
    exact ⟨congrArg Prod.fst same, congrArg Prod.snd same, after⟩
  obtain ⟨first, second, after⟩ := answers varMap table table ⟨rfl, here⟩
  exact ⟨Prod.ext first second, after⟩

theorem Permits.answers {e : CodeExpr} (permits : Permits base analyze again holds e) :
    Answers base analyze again (fun table other => table = other ∧ holds table) e := by
  intro varMap table other here
  obtain ⟨rfl, here⟩ := here
  obtain ⟨same, after⟩ := permits varMap table here
  exact ⟨congrArg Prod.fst same, congrArg Prod.snd same, after⟩

theorem alike_self {traverser : AllocationTraverser} (here : holds traverser.visitedFuncs) :
    Alike (fun table other => table = other ∧ holds table) traverser traverser :=
  ⟨rfl, rfl, rfl, rfl, here⟩

theorem Alike.eq {left right : AllocationTraverser}
    (alike : Alike (fun table other => table = other ∧ holds table) left right) :
    left = right ∧ holds left.visitedFuncs := by
  obtain ⟨varMap, result, undoLog, visited, here⟩ := alike
  obtain ⟨_, _, _, _⟩ := left
  obtain ⟨_, _, _, _⟩ := right
  simp only at varMap result undoLog visited
  subst varMap result undoLog visited
  exact ⟨rfl, here⟩

theorem store_permitted {e : CodeExpr} (permits : Permits base analyze again holds e)
    {traverser : AllocationTraverser} (here : holds traverser.visitedFuncs) (v : Var) :
    traverser.store base analyze v e = traverser.store base again v e ∧
      holds (traverser.store base analyze v e).visitedFuncs :=
  ((alike_self here).store permits.answers v).eq

theorem traverseExpr_permitted (e : CodeExpr) (traverser : AllocationTraverser)
    (permits : ∀ part ∈ exprHanded e, Permits base analyze again holds part)
    (here : holds traverser.visitedFuncs) :
    traverser.traverseExpr base analyze e = traverser.traverseExpr base again e ∧
      holds (traverser.traverseExpr base analyze e).visitedFuncs :=
  (Alike.traverseExpr e (fun part member => (permits part member).answers) (alike_self here)).eq

theorem traverseArgs_permitted (es : List CodeExpr) (traverser : AllocationTraverser)
    (permits : ∀ part ∈ argsHanded es, Permits base analyze again holds part)
    (here : holds traverser.visitedFuncs) :
    traverser.traverseArgs base analyze es = traverser.traverseArgs base again es ∧
      holds (traverser.traverseArgs base analyze es).visitedFuncs :=
  (Alike.traverseArgs es (fun part member => (permits part member).answers) (alike_self here)).eq

theorem traverseStmt_permitted (s : Code) (traverser : AllocationTraverser)
    (permits : ∀ part ∈ stmtHanded s, Permits base analyze again holds part)
    (here : holds traverser.visitedFuncs) :
    traverser.traverseStmt base analyze s = traverser.traverseStmt base again s ∧
      holds (traverser.traverseStmt base analyze s).1.visitedFuncs := by
  obtain ⟨alike, goes⟩ := (alike_self here).traverseStmt s
    fun part member => (permits part member).answers
  obtain ⟨same, after⟩ := alike.eq
  exact ⟨Prod.ext same goes, after⟩

theorem visitParameters_permitted (fn : CodeFunction) (traverser : AllocationTraverser)
    (permits : ∀ part ∈ parametersHanded fn, Permits base analyze again holds part)
    (here : holds traverser.visitedFuncs) :
    traverser.visitParameters base analyze fn = traverser.visitParameters base again fn ∧
      holds (traverser.visitParameters base analyze fn).visitedFuncs :=
  (Alike.visitParameters (alike_self here) fun part member => (permits part member).answers).eq

end Tables

end AllocationTraverser

section Fuel

variable {base : CodeBase}

def unseenAllocFuncs (base : CodeBase) (visitedFuncs : AllocFuncs) : Finset Nat :=
  Visited.unseen base.length (fun _ => true) visitedFuncs

theorem AnalyzeAllocType_no_pointer {f : Nat} (returns : (base.function f).returnsPointer = false)
    (fuel : Nat) (visitedFuncs : AllocFuncs) :
    AnalyzeAllocType base (fuel + 1) f visitedFuncs = (some .none, visitedFuncs) := by
  rw [AnalyzeAllocType]
  simp only [returns, Bool.false_eq_true, if_false]

theorem AnalyzeAllocType_no_body {f : Nat} (returns : (base.function f).returnsPointer = true)
    (no_body : (base.function f).body = none) (fuel : Nat) (visitedFuncs : AllocFuncs) :
    AnalyzeAllocType base fuel f visitedFuncs = (some .unknown, visitedFuncs) := by
  cases fuel with
  | zero => rfl
  | succ fuel =>
      rw [AnalyzeAllocType]
      simp only [returns, if_true, no_body]

def analysisStart (base : CodeBase) (fuel f : Nat) (visitedFuncs : AllocFuncs) :
    AllocationTraverser :=
  let start : AllocationTraverser := { visitedFuncs := visitedFuncs }
  start.visitParameters base (AnalyzeAllocType base fuel) (base.function f)

theorem analysisStart_result (fuel f : Nat) (visitedFuncs : AllocFuncs) :
    (analysisStart base fuel f visitedFuncs).result = none :=
  AllocationTraverser.visitParameters_result _ _

theorem AnalyzeAllocType_body {f : Nat} (returns : (base.function f).returnsPointer = true)
    {body : Code} (has_body : (base.function f).body = some body) (fuel : Nat)
    (visitedFuncs : AllocFuncs) :
    AnalyzeAllocType base (fuel + 1) f visitedFuncs =
      let traverser := ((analysisStart base fuel f visitedFuncs).traverseStmt base
        (AnalyzeAllocType base fuel) body).1
      (traverser.result, traverser.visitedFuncs.insert f traverser.result) := by
  rw [AnalyzeAllocType]
  simp only [returns, if_true, has_body]
  rfl

theorem AnalyzeAllocType_succ (fuel f : Nat) (visitedFuncs : AllocFuncs)
    (enough : f < base.length → (unseenAllocFuncs base visitedFuncs).card < fuel) :
    AnalyzeAllocType base fuel f visitedFuncs = AnalyzeAllocType base (fuel + 1) f visitedFuncs ∧
      Visited.Grows visitedFuncs (AnalyzeAllocType base fuel f visitedFuncs).2 := by
  induction fuel generalizing f visitedFuncs with
  | zero =>
      obtain ⟨returns, no_body⟩ := Program.function_beyond (not_lt.mp fun bound => by
        have few := enough bound
        omega)
      rw [AnalyzeAllocType_no_body returns no_body, AnalyzeAllocType_no_body returns no_body]
      exact ⟨rfl, .refl _⟩
  | succ fuel ih =>
      cases returns : (base.function f).returnsPointer with
      | false =>
          rw [AnalyzeAllocType_no_pointer returns, AnalyzeAllocType_no_pointer returns]
          exact ⟨rfl, .refl _⟩
      | true =>
          cases has_body : (base.function f).body with
          | none =>
              rw [AnalyzeAllocType_no_body returns has_body,
                AnalyzeAllocType_no_body returns has_body]
              exact ⟨rfl, .refl _⟩
          | some body =>
              have bound : f < base.length := by
                by_contra beyond
                cases has_body.symm.trans (Program.function_beyond (not_lt.mp beyond)).2
              have few := enough bound
              have permits : ∀ part ∈ analysisHanded (base.function f) body,
                  AllocationTraverser.Permits base (AnalyzeAllocType base fuel)
                    (AnalyzeAllocType base (fuel + 1)) (Visited.Grows visitedFuncs) part := by
                refine fun part _ => AllocationTraverser.permits_of_call fun g args _ table grows => ?_
                rw [AllocationTraverser.handleCall, AllocationTraverser.handleCall]
                cases at_g : table g with
                | some known => exact ⟨rfl, grows⟩
                | none =>
                    by_cases promised : IsAllocator base g = .unknown
                    · rw [if_neg (not_not.mpr promised), if_neg (not_not.mpr promised)]
                      have fewer : g < base.length →
                          (unseenAllocFuncs base (table.insert g (some (IsAllocator base g)))).card <
                            fuel := by
                        intro inside
                        have less : (unseenAllocFuncs base
                            (table.insert g (some (IsAllocator base g)))).card <
                              (unseenAllocFuncs base table).card :=
                          Visited.unseen_insert inside rfl at_g _
                        have at_most : (unseenAllocFuncs base table).card ≤
                            (unseenAllocFuncs base visitedFuncs).card := grows.card_le
                        omega
                      obtain ⟨same, more⟩ := ih g _ fewer
                      exact ⟨same, (grows.insert g _).trans more⟩
                    · rw [if_pos promised, if_pos promised]
                      exact ⟨rfl, grows.insert g _⟩
              rw [analysisHanded, List.forall_mem_append] at permits
              obtain ⟨same_start, start⟩ := AllocationTraverser.visitParameters_permitted
                (base.function f) { visitedFuncs := visitedFuncs } permits.1 (.refl _)
              obtain ⟨same, grown⟩ := AllocationTraverser.traverseStmt_permitted body
                (analysisStart base fuel f visitedFuncs) permits.2 start
              have same_state : analysisStart base fuel f visitedFuncs =
                  analysisStart base (fuel + 1) f visitedFuncs := same_start
              rw [AnalyzeAllocType_body returns has_body, AnalyzeAllocType_body returns has_body]
              refine ⟨?_, grown.insert _ _⟩
              rw [same, same_state]

/-- The analysis never runs out of fuel: more of it gives the same result. -/
theorem GetAllocType_fuel (f more : Nat) :
    (AnalyzeAllocType base (base.length + more) f
      (Visited.Table.insert (fun _ => none) f none)).1.getD .none = GetAllocType base f := by
  induction more with
  | zero => rfl
  | succ more ih =>
      have enough : f < base.length →
          (unseenAllocFuncs base (Visited.Table.insert (fun _ => none) f none)).card <
            base.length + more := by
        intro bound
        have less : (unseenAllocFuncs base (Visited.Table.insert (fun _ => none) f none)).card <
            (unseenAllocFuncs base fun _ => none).card :=
          Visited.unseen_insert bound rfl rfl none
        have at_most : (unseenAllocFuncs base fun _ => none).card ≤ base.length :=
          Visited.unseen_card_le _
        omega
      rw [← Nat.add_assoc, ← (AnalyzeAllocType_succ _ _ _ enough).1]
      exact ih

end Fuel

end CppInterOp
