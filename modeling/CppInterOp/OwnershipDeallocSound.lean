import CppInterOp.OwnershipDeallocPaths

/-!
Soundness of `GetDeallocType`: a deallocation of a parameter's pointer on any path is found as
long as the traverser's aliases are those of the path wherever a pointer is used.
-/

namespace CppInterOp

open PointerPrograms

section Soundness

variable {base : CodeBase} {rank : Nat → Nat} {held : Finset Var} {holders : Nat → Finset Var}

def taskVisits : Task AllocForm DeallocForm → List Visit
  | .expr e => exprVisits e
  | .args es => argsVisits es
  | .stmt s => stmtVisits s

def taskStale (base : CodeBase) (held labels stale : Finset Var) :
    Task AllocForm DeallocForm → Finset Var
  | .expr e => staleExpr base held stale e
  | .args es => staleArgs base held stale es
  | .stmt s => staleStmt base held labels stale s

def taskClear (base : CodeBase) (held labels stale : Finset Var) :
    Task AllocForm DeallocForm → Bool
  | .expr e => clearExpr base held stale e
  | .args es => clearArgs base held stale es
  | .stmt s => clearStmt base held labels stale s

def Goes : Task AllocForm DeallocForm → Outcome AllocForm → Prop
  | .stmt _, outcome => outcome = .fall
  | _, _ => True

theorem taskVisits_touched {v : Var} {a : Option CodeExpr} {task : Task AllocForm DeallocForm}
    (member : Visit.assign v a ∈ taskVisits task) : v ∈ task.touched := by
  cases task with
  | expr e => exact exprVisits_touched e member
  | args es => exact argsVisits_touched es member
  | stmt s => exact stmtVisits_touched member

abbrev traversed (base : CodeBase) (fuel : Nat) (traverser : DeallocationTraverser)
    (nodes : List Visit) : DeallocationTraverser :=
  Runs.run (DeallocationTraverser.visit (AnalyzeDeallocType base fuel)) traverser nodes

theorem traversed_append (fuel : Nat) (traverser : DeallocationTraverser)
    (nodes more : List Visit) : traversed base fuel traverser (nodes ++ more) =
      traversed base fuel (traversed base fuel traverser nodes) more :=
  Runs.run_append traverser nodes more

theorem Explained.later {entry : Env AllocForm} {traverser : DeallocationTraverser}
    {events : List (Value AllocForm × DeallocForm)}
    (explained : Explained entry traverser.valPerParam events) (base : CodeBase) (fuel : Nat)
    (nodes : List Visit) :
    Explained entry (traversed base fuel traverser nodes).valPerParam events := by
  intro i form member
  obtain ⟨index, passed, classed⟩ := explained i form member
  exact ⟨index, passed, DeallocationTraverser.run_classed _ classed nodes⟩

theorem traversed_frame {fuel : Nat} {traverser : DeallocationTraverser}
    {task : Task AllocForm DeallocForm} {v : Var} (fresh : v ∉ task.touched) :
    (traversed base fuel traverser (taskVisits task)).resolveVar v = traverser.resolveVar v :=
  DeallocationTraverser.run_frame _ traverser fun _ member => fresh (taskVisits_touched member)

/-- What a task touches and may hold such a pointer is at risk, whether the task is executed,
traversed or both. -/
theorem Covers.shaken {entry env next : Env AllocForm} {stale : Finset Var}
    {traverser later : DeallocationTraverser} (covers : Covers held entry stale traverser env)
    (avoids : next.Avoids .given held) {touched : List Var}
    (value : ∀ v, v ∉ touched → next v = env v)
    (alias_of : ∀ v, v ∉ touched → later.resolveVar v = traverser.resolveVar v) :
    Covers held entry (stale ∪ atRisk held touched) later next := by
  refine covers.change avoids Finset.subset_union_left fun v fresh => ?_
  rcases (not_at_risk fresh).2 with untouched | outside
  · exact Or.inr ⟨value v untouched, alias_of v untouched⟩
  · exact Or.inl outside

/-- Whatever a task does, the variables it does not touch stay covered. -/
theorem Covers.around {entry env next : Env AllocForm} {stale : Finset Var}
    {traverser : DeallocationTraverser} (covers : Covers held entry stale traverser env) (fuel : Nat)
    {task : Task AllocForm DeallocForm} {events : List (Value AllocForm × DeallocForm)}
    {outcome : Outcome AllocForm} (run : Run base task env events outcome next)
    (closed : task.closed base .given held = true) :
    Covers held entry (stale ∪ atRisk held task.touched)
      (traversed base fuel traverser (taskVisits task)) next :=
  covers.shaken (run.avoids closed covers.avoids).2 (fun _ untouched => run.frame untouched)
    fun _ untouched => traversed_frame untouched

/-- The traversal of a task that is not executed leaves the variables it does not touch. -/
theorem Covers.past {entry env : Env AllocForm} {stale : Finset Var}
    {traverser : DeallocationTraverser} (covers : Covers held entry stale traverser env)
    (base : CodeBase) (fuel : Nat) (task : Task AllocForm DeallocForm) :
    Covers held entry (stale ∪ atRisk held task.touched)
      (traversed base fuel traverser (taskVisits task)) env :=
  covers.shaken covers.avoids (fun _ _ => rfl) fun _ untouched => traversed_frame untouched

theorem Covers.grow {entry env : Env AllocForm} {stale : Finset Var}
    {traverser : DeallocationTraverser} (covers : Covers held entry stale traverser env)
    (more : Finset Var) : Covers held entry (stale ∪ more) traverser env :=
  covers.change covers.avoids Finset.subset_union_left fun _ _ => Or.inr ⟨rfl, rfl⟩

/-- A part of a loop or a switch is executed among variables that may be wrong anyway. -/
theorem Covers.executed {entry env next : Env AllocForm} {stale : Finset Var} {whole : List Var}
    {traverser : DeallocationTraverser}
    (covers : Covers held entry (stale ∪ atRisk held whole) traverser env)
    {task : Task AllocForm DeallocForm} {events : List (Value AllocForm × DeallocForm)}
    {outcome : Outcome AllocForm} (run : Run base task env events outcome next)
    (closed : task.closed base .given held = true) (part : task.touched ⊆ whole) :
    Covers held entry (stale ∪ atRisk held whole) traverser next := by
  refine covers.change (run.avoids closed covers.avoids).2 (Finset.Subset.refl _) fun v fresh => ?_
  rcases (not_at_risk fresh).2 with untouched | outside
  · exact Or.inr ⟨run.frame fun member => untouched (part member), rfl⟩
  · exact Or.inl outside

theorem Covers.traversed {entry env : Env AllocForm} {stale : Finset Var} {whole : List Var}
    {traverser : DeallocationTraverser}
    (covers : Covers held entry (stale ∪ atRisk held whole) traverser env) (base : CodeBase)
    (fuel : Nat) (task : Task AllocForm DeallocForm) (part : task.touched ⊆ whole) :
    Covers held entry (stale ∪ atRisk held whole)
      (traversed base fuel traverser (taskVisits task)) env := by
  refine covers.change covers.avoids (Finset.Subset.refl _) fun v fresh => ?_
  rcases (not_at_risk fresh).2 with untouched | outside
  · exact Or.inr ⟨rfl, traversed_frame fun member => untouched (part member)⟩
  · exact Or.inl outside

theorem assign_covers {entry env next : Env AllocForm} {stale : Finset Var}
    {traverser : DeallocationTraverser} (covers : Covers held entry stale traverser env) {fuel : Nat}
    {v : Var} {e : CodeExpr} {events : List (Value AllocForm × DeallocForm)}
    {value : Value AllocForm} (closed : (Expr.assign v e).closed base .given held = true)
    (run : Run base (.expr e) env events (.value value) next)
    (inner : Covers held entry (staleExpr base held (insert v stale) e)
      (traversed base fuel (traverser.updateMap v (some e)) (exprVisits e)) next) :
    Covers held entry (staleExpr base held stale (.assign v e))
      (traversed base fuel (traverser.updateMap v (some e)) (exprVisits e))
      (next.set v value) where
  avoids := by
    have assigned : Run base (.expr (.assign v e)) env events (.value value) (next.set v value) :=
      .assign run
    exact (assigned.avoids closed covers.avoids).2
  aliased := by
    intro w fresh i holds
    rw [staleExpr] at fresh
    by_cases same : w = v
    · subst same
      rw [Env.set_same] at holds
      subst holds
      by_cases kept : keeps base held stale w e = true
      · have closed_value := (Bool.and_eq_true_iff.mp closed).2
        have not_plain : e.avoids base .given held ≠ true := fun plain =>
          (run.avoids closed_value covers.avoids).1 plain rfl
        cases w with
        | param index => exact absurd kept not_plain
        | own name =>
            obtain ⟨index, found, passed⟩ := traced covers closed_value kept run
            cases resolves : resolveExpr e with
            | none =>
                rw [keeps, traceable, resolves, Bool.or_false] at kept
                exact absurd kept not_plain
            | some x =>
                obtain ⟨_, _, no_visits⟩ := resolveExpr_value resolves run
                refine ⟨index, ?_, passed⟩
                rw [no_visits]
                simpa [CppInterOp.traversed, Runs.run, DeallocationTraverser.updateMap,
                  DeallocationTraverser.resolveVar] using found
      · rw [if_neg kept] at fresh
        exact absurd (Finset.mem_insert_self _ _) fresh
    · rw [Env.set_other _ same] at holds
      refine inner.aliased w (fun member => fresh ?_) i holds
      split
      · exact Finset.mem_erase.mpr ⟨same, member⟩
      · exact Finset.mem_insert_of_mem member

/-- A switch enters its body at a statement that is clear with what may be wrong at a label. -/
theorem entries_clear {labels : Finset Var} {body entry : Code} (member : entry ∈ body.entries)
    {stale : Finset Var} (clear : clearStmt base held labels stale body = true) :
    ∃ before here, stmtVisits body = before ++ stmtVisits entry ∧
      clearStmt base held labels (here ∪ labels) entry = true := by
  fun_induction Stmt.entries body generalizing stale with
  | case1 s t ih =>
      rw [clearStmt, Bool.and_eq_true] at clear
      rcases List.mem_cons.mp member with rfl | later
      · refine ⟨[], stale, rfl, ?_⟩
        simp only [clearStmt, staleStmt, Finset.union_assoc, Finset.union_self,
          Bool.and_eq_true] at clear ⊢
        exact clear
      · obtain ⟨before, here, same, rest⟩ := ih later clear.2
        exact ⟨stmtVisits s ++ before, here, by
          rw [stmtVisits, stmtVisits, same, List.append_assoc], rest⟩
  | case2 s t _ ih =>
      rw [clearStmt, Bool.and_eq_true] at clear
      obtain ⟨before, here, same, rest⟩ := ih member clear.2
      exact ⟨stmtVisits s ++ before, here, by rw [stmtVisits, same, List.append_assoc], rest⟩
  | case3 s =>
      obtain rfl := List.mem_singleton.mp member
      refine ⟨[], stale, rfl, ?_⟩
      simp only [clearStmt, Finset.union_assoc, Finset.union_self] at clear ⊢
      exact clear
  | case4 s _ _ _ => exact absurd member List.not_mem_nil

/-- The classes of a callee explain, through the arguments, what the callee deallocates. -/
theorem call_explained {f g fuel : Nat} {values passed : List (Value AllocForm)}
    {traverser : DeallocationTraverser} {stale : Finset Var} {env next : Env AllocForm}
    {args : List CodeExpr} {before events : List (Value AllocForm × DeallocForm)}
    (shaped : DeallocationTraverser.Shaped (base.function f).numParams traverser.valPerParam)
    (covers : Covers held ((base.function f).entry values) stale traverser env)
    (closed : Expr.closedArgs base .given held args = true)
    (trace : args.all (traceable base held (stale ∪ atRisk held (Expr.touchedArgs args))) = true)
    (run : Run base (.args args) env before (.values passed) next) {types : List DeallocType}
    {table : VisitedFuncs}
    (same : traverser.visitCall (AnalyzeDeallocType base fuel) g args =
      { traverser with visitedFuncs := table }.joinVectors types args)
    (explained : Explained ((base.function g).entry passed) types events) :
    Explained ((base.function f).entry values)
      (traversed base fuel traverser (Visit.call g args :: argsVisits args)).valPerParam events := by
  intro i form member
  obtain ⟨position, passed_at, type, at_types, accounts⟩ := explained i form member
  have touched_at_risk : ∀ v ∈ Expr.touchedArgs args,
      v ∈ stale ∪ atRisk held (Expr.touchedArgs args) ∨ v ∉ held := by
    intro v inside
    by_contra neither
    rw [not_or] at neither
    exact (not_at_risk neither.1).2.elim (fun out => out inside) neither.2
  obtain ⟨e, index, at_args, found, entered⟩ := args_traced
    (covers.grow (atRisk held (Expr.touchedArgs args))) run closed covers.avoids
    (fun _ _ => Or.inr rfl) touched_at_risk trace (entry_given passed_at).2
  refine ⟨index, entered, ?_⟩
  rw [traversed, Runs.run, DeallocationTraverser.visit, same]
  apply DeallocationTraverser.run_classed
  have bound : index < traverser.valPerParam.length := shaped.1 ▸ (entry_given entered).1
  exact joinVectors_explains at_types accounts at_args found bound

theorem certified_no_body {g : Nat} {types : List DeallocType}
    (certified : Certified base rank holders g types) (no_body : (base.function g).body = none) :
    types = List.replicate (base.function g).numParams .opaqueBody := by
  cases certified with
  | opaqueBody => rfl
  | body _ fuel body table has_body => exact absurd (no_body.symm.trans has_body) nofun

theorem opaque_explains {g : Nat} {passed : List (Value AllocForm)}
    {events : List (Value AllocForm × DeallocForm)}
    (on_params : ∀ event ∈ events, event.1.Within fun i =>
      ∃ index, (base.function g).entry passed (.param index) = .given i) :
    Explained ((base.function g).entry passed)
      (List.replicate (base.function g).numParams .opaqueBody) events := by
  intro i form member
  obtain ⟨index, held⟩ := on_params _ member i rfl
  refine ⟨index, held, .opaqueBody, ?_, Or.inr (Or.inr rfl)⟩
  rw [List.getElem?_replicate, if_pos (entry_given held).1]

theorem entry_held (function : Function AllocForm DeallocForm) (values : List (Value AllocForm))
    (v : Var) : (function.entry values v).Within fun i =>
      ∃ index, function.entry values (.param index) = .given i := by
  intro i holds
  cases v with
  | param index => exact ⟨index, holds⟩
  | own name => cases holds

theorem Settles.traced {f : Nat} (settles : Settles base rank holders f) {body : Code}
    (has_body : (base.function f).body = some body) : Traced base (holders f) f body :=
  (settles f .refl).1 body has_body

theorem analysing_start {f : Nat} {body : Code} {table : VisitedFuncs}
    (has_body : (base.function f).body = some body) (settles : Settles base rank holders f)
    (ready : Ready base rank holders f table) :
    Analysing base rank holders f
      { valPerParam := List.replicate (base.function f).numParams .none, visitedFuncs := table }
      (stmtVisits body) where
  ready := ready
  calls := fun g args member =>
    have called : Calls base f g := ⟨body, args, has_body, member⟩
    ⟨(settles f .refl).2 g called, settles.callee called⟩
  shaped := DeallocationTraverser.shaped_start _

/-- At its start a function holds what it was passed in its parameters, which resolve to
themselves. -/
theorem start_covers {f : Nat} {body : Code} (traced : Traced base held f body)
    (values : List (Value AllocForm)) (types : List DeallocType) (table : VisitedFuncs) :
    Covers held ((base.function f).entry values) ∅
      { valPerParam := types, visitedFuncs := table } ((base.function f).entry values) where
  avoids := by
    intro v outside
    cases v with
    | own name => exact id
    | param index =>
        rw [Function.entry, if_neg fun bound => outside (traced.params index bound)]
        exact id
  aliased := by
    intro v _ i holds
    cases v with
    | param index => exact ⟨index, rfl, holds⟩
    | own name => cases holds

theorem declare_covers {entry env : Env AllocForm} {stale : Finset Var}
    {traverser : DeallocationTraverser} (covers : Covers held entry stale traverser env)
    (name : Nat) :
    Covers held entry (stale.erase (.own name)) (traverser.updateMap (.own name) none)
      (env.set (.own name) .other) where
  avoids := covers.avoids.set (Or.inr id)
  aliased := by
    intro v fresh i holds
    by_cases same : v = .own name
    · rw [same, Env.set_same] at holds
      cases holds
    · rw [Env.set_other _ same] at holds
      rw [traverser.updateMap_other same]
      exact covers.aliased v (fun member => fresh (Finset.mem_erase.mpr ⟨same, member⟩)) i holds

/-- A compound assignment leaves the alias as it is, and the pointer or none that is followed. -/
theorem shift_covers {entry env : Env AllocForm} {stale : Finset Var}
    {traverser : DeallocationTraverser} (covers : Covers held entry stale traverser env) {v : Var}
    {moved : Value AllocForm} (moves : moved = env v ∨ moved = .other) :
    Covers held entry stale traverser (env.set v moved) where
  avoids := by
    apply covers.avoids.set
    rcases moves with rfl | rfl
    · exact (em (v ∈ held)).imp_right (covers.avoids v)
    · exact Or.inr id
  aliased := by
    intro w fresh i holds
    by_cases same : w = v
    · subst same
      rw [Env.set_same] at holds
      rcases moves with rfl | rfl
      · exact covers.aliased w fresh i holds
      · cases holds
    · rw [Env.set_other _ same] at holds
      exact covers.aliased w fresh i holds

theorem dealloc_explained {f fuel : Nat} {values : List (Value AllocForm)}
    {traverser : DeallocationTraverser} {stale : Finset Var} {env next : Env AllocForm}
    {form : DeallocForm} {e : CodeExpr} {events : List (Value AllocForm × DeallocForm)}
    {value : Value AllocForm}
    (shaped : DeallocationTraverser.Shaped (base.function f).numParams traverser.valPerParam)
    (covers : Covers held ((base.function f).entry values) stale traverser env)
    (closed : e.closed base .given held = true) (trace : traceable base held stale e = true)
    (run : Run base (.expr e) env events (.value value) next) :
    Explained ((base.function f).entry values)
      (traversed base fuel traverser (Visit.dealloc form e :: exprVisits e)).valPerParam
      [(value, form)] := by
  intro i other member
  obtain ⟨rfl, rfl⟩ := Prod.mk.inj (List.mem_singleton.mp member)
  obtain ⟨index, found, entered⟩ := traced covers closed trace run
  have bound : index < traverser.valPerParam.length := shaped.1 ▸ (entry_given entered).1
  have classed : DeallocationTraverser.Classed (traverser.record e other.type).valPerParam index
      other := by
    rw [DeallocationTraverser.record, found]
    exact DeallocationTraverser.classed_new bound (Or.inl rfl)
  exact ⟨index, entered, DeallocationTraverser.run_classed _ classed (exprVisits e)⟩

/-- Along an execution that the traverser passes over, everything deallocated is explained,
and what comes next starts covered. -/
def Followed (base : CodeBase) (rank : Nat → Nat) (holders : Nat → Finset Var)
    (task : Task AllocForm DeallocForm) (env : Env AllocForm)
    (events : List (Value AllocForm × DeallocForm)) (outcome : Outcome AllocForm)
    (next : Env AllocForm) : Prop :=
  ∀ (f fuel : Nat) (values : List (Value AllocForm)) (traverser : DeallocationTraverser)
    (stale labels : Finset Var), Analysing base rank holders f traverser (taskVisits task) →
    task.closed base .given (holders f) = true →
    taskClear base (holders f) labels stale task = true →
    Covers (holders f) ((base.function f).entry values) stale traverser env →
      Explained ((base.function f).entry values)
          (traversed base fuel traverser (taskVisits task)).valPerParam events ∧
        (Goes task outcome → Covers (holders f) ((base.function f).entry values)
          (taskStale base (holders f) labels stale task)
          (traversed base fuel traverser (taskVisits task)) next)

section Cases

variable {env middle next again : Env AllocForm}
  {first second third events : List (Value AllocForm × DeallocForm)}
  {seen value : Value AllocForm} {outcome last : Outcome AllocForm}

theorem assign_followed {v : Var} {e : CodeExpr}
    (run : Run base (.expr e) env events (.value value) next)
    (ih : Followed base rank holders (.expr e) env events (.value value) next) :
    Followed base rank holders (.expr (.assign v e)) env events (.value value) (next.set v value) := by
  intro f fuel values traverser stale labels analysing closed clear covers
  obtain ⟨explained, after⟩ := ih f fuel values _ _ labels
    (analysing.step (analyze_reliable base rank holders fuel))
    (Bool.and_eq_true_iff.mp closed).2 clear (covers.assigned _ _)
  exact ⟨explained, fun _ => assign_covers covers closed run (after trivial)⟩

theorem shift_followed {v : Var} {e : CodeExpr} {moved : Value AllocForm}
    (moves : moved = next v ∨ moved = .other)
    (ih : Followed base rank holders (.expr e) env events (.value seen) next) :
    Followed base rank holders (.expr (.shift v e)) env events (.value moved)
      (next.set v moved) := by
  intro f fuel values traverser stale labels analysing closed clear covers
  obtain ⟨explained, after⟩ := ih f fuel values _ _ labels analysing closed clear covers
  exact ⟨explained, fun _ => shift_covers (after trivial) moves⟩

theorem comma_followed {a b : CodeExpr}
    (iha : Followed base rank holders (.expr a) env first (.value seen) middle)
    (ihb : Followed base rank holders (.expr b) middle events (.value value) next) :
    Followed base rank holders (.expr (.comma a b)) env (first ++ events) (.value value) next := by
  intro f fuel values traverser stale labels analysing closed clear covers
  simp only [Task.closed, Expr.closed, Bool.and_eq_true] at closed
  simp only [taskClear, clearExpr, Bool.and_eq_true] at clear
  simp only [taskVisits, exprVisits, traversed_append] at analysing ⊢
  obtain ⟨explained, after⟩ := iha f fuel values _ _ labels analysing.first closed.1 clear.1 covers
  have rest := ihb f fuel values _ _ labels
    (analysing.rest (analyze_reliable base rank holders fuel)) closed.2 clear.2 (after trivial)
  exact ⟨(explained.later base fuel (exprVisits b)).append rest.1, rest.2⟩

theorem condLeft_followed {c a b : CodeExpr}
    (run : Run base (.expr a) middle events (.value value) next)
    (ihc : Followed base rank holders (.expr c) env first (.value seen) middle)
    (iha : Followed base rank holders (.expr a) middle events (.value value) next) :
    Followed base rank holders (.expr (.cond c a b)) env (first ++ events) (.value value) next := by
  intro f fuel values traverser stale labels analysing closed clear covers
  have reliable := analyze_reliable base rank holders fuel
  simp only [Task.closed, Expr.closed, Bool.and_eq_true] at closed
  simp only [taskClear, clearExpr, Bool.and_eq_true] at clear
  simp only [taskVisits, exprVisits, traversed_append] at analysing ⊢
  obtain ⟨explained, after⟩ :=
    ihc f fuel values _ _ labels analysing.first.first closed.1.1 clear.1.1 covers
  have tested := after trivial
  have chosen := iha f fuel values _ _ labels (analysing.first.rest reliable) closed.1.2 clear.1.2
    tested
  have both := (explained.later base fuel (exprVisits a)).append chosen.1
  refine ⟨both.later base fuel (exprVisits b), fun _ => ?_⟩
  have after_branch := (tested.around fuel run closed.1.2).past base fuel (.expr b)
  exact after_branch

theorem condRight_followed {c a b : CodeExpr}
    (run : Run base (.expr b) middle events (.value value) next)
    (ihc : Followed base rank holders (.expr c) env first (.value seen) middle)
    (ihb : Followed base rank holders (.expr b) middle events (.value value) next) :
    Followed base rank holders (.expr (.cond c a b)) env (first ++ events) (.value value) next := by
  intro f fuel values traverser stale labels analysing closed clear covers
  have reliable := analyze_reliable base rank holders fuel
  simp only [Task.closed, Expr.closed, Bool.and_eq_true] at closed
  simp only [taskClear, clearExpr, Bool.and_eq_true] at clear
  simp only [taskVisits, exprVisits, traversed_append] at analysing ⊢
  obtain ⟨explained, after⟩ :=
    ihc f fuel values _ _ labels analysing.first.first closed.1.1 clear.1.1 covers
  have passed := (after trivial).past base fuel (.expr a)
  have chosen := analysing.rest reliable
  rw [Runs.run_append] at chosen
  have branch := ihb f fuel values _ _ labels chosen closed.2 clear.2 passed
  have skipped := (explained.later base fuel (exprVisits a)).later base fuel (exprVisits b)
  refine ⟨skipped.append branch.1, fun _ => ?_⟩
  have after_branch := passed.around fuel run closed.2
  exact after_branch

theorem call_followed {g : Nat} {args : List CodeExpr} {passed : List (Value AllocForm)}
    (run : Run base (.args args) env first (.values passed) next)
    (iha : Followed base rank holders (.args args) env first (.values passed) next)
    (callee : ∀ types, Certified base rank holders g types →
      Explained ((base.function g).entry passed) types events) :
    Followed base rank holders (.expr (.call g args)) env (first ++ events) (.value value) next := by
  intro f fuel values traverser stale labels analysing closed clear covers
  have reliable := analyze_reliable base rank holders fuel
  simp only [taskClear, clearExpr, Bool.and_eq_true] at clear
  obtain ⟨lower, settles⟩ := analysing.calls g args List.mem_cons_self
  obtain ⟨types, table, certified, same, _, _⟩ :=
    visitCall_ready reliable analysing.ready lower settles args
  have here := iha f fuel values _ _ labels (analysing.step reliable) closed clear.2
    (covers.same (DeallocationTraverser.visitCall_same _ traverser g args))
  refine ⟨here.1.append ?_, fun _ => here.2 trivial⟩
  exact call_explained analysing.shaped covers closed clear.1 run same (callee types certified)

theorem body_explains {g : Nat} {code : Code} {passed : List (Value AllocForm)}
    (has_body : (base.function g).body = some code)
    (run : Run base (.stmt code) ((base.function g).entry passed) events outcome middle)
    (ih : Followed base rank holders (.stmt code) ((base.function g).entry passed) events outcome middle)
    {types : List DeallocType} (certified : Certified base rank holders g types) :
    Explained ((base.function g).entry passed) types events := by
  cases certified with
  | opaqueBody => exact opaque_explains (run.events_within (entry_held _ _))
  | body _ fuel _ table also_body settled known pending =>
      obtain rfl := Option.some.inj (has_body.symm.trans also_body)
      have traced := settled.traced has_body
      exact (ih g fuel passed _ ∅ ∅ (analysing_start has_body settled ⟨known, pending⟩)
        traced.closed traced.clear (start_covers traced _ _ _)).1

theorem opaque_call_explains {g : Nat} {passed : List (Value AllocForm)}
    (no_body : (base.function g).body = none)
    (on_params : ∀ event ∈ events, ∃ index,
      (base.function g).entry passed (.param index) = event.1)
    {types : List DeallocType} (certified : Certified base rank holders g types) :
    Explained ((base.function g).entry passed) types events := by
  rw [certified_no_body certified no_body]
  apply opaque_explains
  intro event member i holds
  obtain ⟨index, held⟩ := on_params event member
  exact ⟨index, held.trans holds⟩

theorem argsCons_followed {e : CodeExpr} {es : List CodeExpr} {passed : List (Value AllocForm)}
    (ihe : Followed base rank holders (.expr e) env first (.value value) middle)
    (ihes : Followed base rank holders (.args es) middle events (.values passed) next) :
    Followed base rank holders (.args (e :: es)) env (first ++ events) (.values (value :: passed))
      next := by
  intro f fuel values traverser stale labels analysing closed clear covers
  simp only [Task.closed, Expr.closedArgs, Bool.and_eq_true] at closed
  simp only [taskClear, clearArgs, Bool.and_eq_true] at clear
  simp only [taskVisits, argsVisits, traversed_append] at analysing ⊢
  obtain ⟨explained, after⟩ := ihe f fuel values _ _ labels analysing.first closed.1 clear.1
    covers
  have rest := ihes f fuel values _ _ labels
    (analysing.rest (analyze_reliable base rank holders fuel)) closed.2 clear.2 (after trivial)
  exact ⟨(explained.later base fuel (argsVisits es)).append rest.1, rest.2⟩

theorem decl_followed {name : Nat} {e : CodeExpr}
    (run : Run base (.expr e) env events (.value value) next)
    (ih : Followed base rank holders (.expr e) env events (.value value) next) :
    Followed base rank holders (.stmt (.decl name (some e))) env events .fall
      (next.set (.own name) value) := by
  intro f fuel values traverser stale labels analysing closed clear covers
  obtain ⟨explained, after⟩ := ih f fuel values _ _ labels
    (analysing.step (analyze_reliable base rank holders fuel))
    (Bool.and_eq_true_iff.mp closed).2 clear (covers.assigned _ _)
  exact ⟨explained, fun _ => assign_covers covers closed run (after trivial)⟩

theorem seq_followed {s t : Code} (ihs : Followed base rank holders (.stmt s) env first .fall middle)
    (iht : Followed base rank holders (.stmt t) middle events outcome next) :
    Followed base rank holders (.stmt (.seq s t)) env (first ++ events) outcome next := by
  intro f fuel values traverser stale labels analysing closed clear covers
  simp only [Task.closed, Stmt.closed, Bool.and_eq_true] at closed
  simp only [taskClear, clearStmt, Bool.and_eq_true] at clear
  simp only [taskVisits, stmtVisits, traversed_append] at analysing ⊢
  obtain ⟨explained, after⟩ := ihs f fuel values _ _ labels analysing.first closed.1 clear.1
    covers
  have rest := iht f fuel values _ _ labels
    (analysing.rest (analyze_reliable base rank holders fuel)) closed.2 clear.2 (after rfl)
  exact ⟨(explained.later base fuel (stmtVisits t)).append rest.1, rest.2⟩

theorem seqStop_followed {s t : Code} (stops : outcome ≠ .fall)
    (ihs : Followed base rank holders (.stmt s) env events outcome next) :
    Followed base rank holders (.stmt (.seq s t)) env events outcome next := by
  intro f fuel values traverser stale labels analysing closed clear covers
  simp only [Task.closed, Stmt.closed, Bool.and_eq_true] at closed
  simp only [taskClear, clearStmt, Bool.and_eq_true] at clear
  simp only [taskVisits, stmtVisits, traversed_append] at analysing ⊢
  have done := ihs f fuel values _ _ labels analysing.first closed.1 clear.1 covers
  exact ⟨done.1.later base fuel (stmtVisits t), fun goes => absurd goes stops⟩

theorem dealloc_followed {form : DeallocForm} {e : CodeExpr}
    (run : Run base (.expr e) env events (.value value) next)
    (ih : Followed base rank holders (.expr e) env events (.value value) next) :
    Followed base rank holders (.stmt (.dealloc form e)) env (events ++ [(value, form)]) .fall next := by
  intro f fuel values traverser stale labels analysing closed clear covers
  simp only [taskClear, clearStmt, Bool.and_eq_true] at clear
  have here := ih f fuel values _ _ labels
    (analysing.step (analyze_reliable base rank holders fuel)) closed clear.2
    (covers.same (traverser.record_same e form.type))
  refine ⟨here.1.append ?_, fun _ => here.2 trivial⟩
  exact dealloc_explained analysing.shaped covers closed clear.1 run

theorem iteThen_followed {init test s t : Code} {declared : Env AllocForm}
    (run : Run base (.stmt s) middle events outcome next)
    (ihi : Followed base rank holders (.stmt init) env first .fall declared)
    (ihc : Followed base rank holders (.stmt test) declared second .fall middle)
    (ihs : Followed base rank holders (.stmt s) middle events outcome next) :
    Followed base rank holders (.stmt (.ite init test s t)) env (first ++ second ++ events) outcome
      next := by
  intro f fuel values traverser stale labels analysing closed clear covers
  have reliable := analyze_reliable base rank holders fuel
  simp only [Task.closed, Stmt.closed, Bool.and_eq_true] at closed
  simp only [taskClear, clearStmt, Bool.and_eq_true] at clear
  simp only [taskVisits, stmtVisits, traversed_append] at analysing ⊢
  have before := ihi f fuel values _ _ labels analysing.first.first.first closed.1.1.1 clear.1.1.1
    covers
  have tested := ihc f fuel values _ _ labels (analysing.first.first.rest reliable) closed.1.1.2
    clear.1.1.2 (before.2 rfl)
  have chosen := analysing.first.rest reliable
  rw [Runs.run_append] at chosen
  have branch := ihs f fuel values _ _ labels chosen closed.1.2 clear.1.2 (tested.2 rfl)
  have header := (before.1.later base fuel (stmtVisits test)).append tested.1
  have whole := (header.later base fuel (stmtVisits s)).append branch.1
  refine ⟨whole.later base fuel (stmtVisits t), fun _ => ?_⟩
  have after_branch := ((tested.2 rfl).around fuel run closed.1.2).past base fuel (.stmt t)
  exact after_branch

theorem iteElse_followed {init test s t : Code} {declared : Env AllocForm}
    (run : Run base (.stmt t) middle events outcome next)
    (ihi : Followed base rank holders (.stmt init) env first .fall declared)
    (ihc : Followed base rank holders (.stmt test) declared second .fall middle)
    (iht : Followed base rank holders (.stmt t) middle events outcome next) :
    Followed base rank holders (.stmt (.ite init test s t)) env (first ++ second ++ events) outcome
      next := by
  intro f fuel values traverser stale labels analysing closed clear covers
  have reliable := analyze_reliable base rank holders fuel
  simp only [Task.closed, Stmt.closed, Bool.and_eq_true] at closed
  simp only [taskClear, clearStmt, Bool.and_eq_true] at clear
  simp only [taskVisits, stmtVisits, traversed_append] at analysing ⊢
  have before := ihi f fuel values _ _ labels analysing.first.first.first closed.1.1.1 clear.1.1.1
    covers
  have tested := ihc f fuel values _ _ labels (analysing.first.first.rest reliable) closed.1.1.2
    clear.1.1.2 (before.2 rfl)
  have passed := (tested.2 rfl).past base fuel (.stmt s)
  have chosen := analysing.rest reliable
  rw [Runs.run_append, Runs.run_append] at chosen
  have branch := iht f fuel values _ _ labels chosen closed.2 clear.2 passed
  have header := (before.1.later base fuel (stmtVisits test)).append tested.1
  have skipped := (header.later base fuel (stmtVisits s)).later base fuel (stmtVisits t)
  refine ⟨skipped.append branch.1, fun _ => ?_⟩
  have after_branch := passed.around fuel run closed.2
  exact after_branch

theorem loopDone_followed {c inc : CodeExpr} {body : Code}
    (run : Run base (.expr c) env events (.value seen) next)
    (ihc : Followed base rank holders (.expr c) env events (.value seen) next) :
    Followed base rank holders (.stmt (.loop c inc body)) env events .fall next := by
  intro f fuel values traverser stale labels analysing closed clear covers
  have whole : Run base (.stmt (.loop c inc body)) env events .fall next := .loopDone run
  have after_loop := covers.around fuel whole closed
  refine ⟨?_, fun _ => after_loop⟩
  simp only [Task.closed, Stmt.closed, Bool.and_eq_true] at closed
  simp only [taskClear, clearStmt, Bool.and_eq_true] at clear
  simp only [taskVisits, stmtVisits, traversed_append] at analysing ⊢
  have tested := ihc f fuel values _ _ labels analysing.first.first closed.1.1 clear.1.1
    (covers.grow _)
  exact (tested.1.later base fuel (exprVisits inc)).later base fuel (stmtVisits body)

theorem cond_in_loop (c inc : CodeExpr) (body : Code) :
    c.touched ⊆ c.touched ++ inc.touched ++ body.touched :=
  List.subset_append_of_subset_left _ (List.subset_append_left _ _)

theorem inc_in_loop (c inc : CodeExpr) (body : Code) :
    inc.touched ⊆ c.touched ++ inc.touched ++ body.touched :=
  List.subset_append_of_subset_left _ (List.subset_append_right _ _)

theorem loop_body_explained {c inc : CodeExpr} {body : Code}
    (run : Run base (.expr c) env first (.value seen) middle)
    (ihc : Followed base rank holders (.expr c) env first (.value seen) middle)
    (ihb : Followed base rank holders (.stmt body) middle second outcome next)
    {f : Nat} (fuel : Nat) {values : List (Value AllocForm)} {traverser : DeallocationTraverser}
    {stale labels : Finset Var}
    (analysing : Analysing base rank holders f traverser (stmtVisits (.loop c inc body)))
    (closed : (Stmt.loop c inc body).closed base .given (holders f) = true)
    (clear : clearStmt base (holders f) labels stale (.loop c inc body) = true)
    (covers : Covers (holders f) ((base.function f).entry values) stale traverser env) :
    Explained ((base.function f).entry values)
      (traversed base fuel traverser (stmtVisits (.loop c inc body))).valPerParam
      (first ++ second) := by
  have reliable := analyze_reliable base rank holders fuel
  simp only [Stmt.closed, Bool.and_eq_true] at closed
  have start := covers.grow (atRisk (holders f) (c.touched ++ inc.touched ++ body.touched))
  have here := ((start.executed run closed.1.1 (cond_in_loop c inc body)).traversed base fuel
    (.expr c) (cond_in_loop c inc body)).traversed base fuel (.expr inc) (inc_in_loop c inc body)
  simp only [clearStmt, Bool.and_eq_true] at clear
  simp only [stmtVisits, traversed_append] at analysing ⊢
  have tested := ihc f fuel values _ _ labels analysing.first.first closed.1.1 clear.1.1 start
  have inside := analysing.rest reliable
  rw [Runs.run_append] at inside
  have done := ihb f fuel values _ _ labels inside closed.2 clear.2 here
  have header := tested.1.later base fuel (exprVisits inc)
  exact (header.later base fuel (stmtVisits body)).append done.1

theorem loopNext_followed {c inc : CodeExpr} {body : Code} {tested : Env AllocForm}
    (run : Run base (.expr c) env first (.value seen) tested)
    (run_body : Run base (.stmt body) tested second outcome middle)
    (goes : outcome = .fall ∨ outcome = .continued)
    (run_inc : Run base (.expr inc) middle third (.value value) again)
    (run_again : Run base (.stmt (.loop c inc body)) again events last next)
    (ihc : Followed base rank holders (.expr c) env first (.value seen) tested)
    (ihb : Followed base rank holders (.stmt body) tested second outcome middle)
    (ihi : Followed base rank holders (.expr inc) middle third (.value value) again)
    (ihl : Followed base rank holders (.stmt (.loop c inc body)) again events last next) :
    Followed base rank holders (.stmt (.loop c inc body)) env (first ++ second ++ third ++ events) last
      next := by
  intro f fuel values traverser stale labels analysing closed clear covers
  have reliable := analyze_reliable base rank holders fuel
  have after_loop := covers.around fuel (.loopNext run run_body goes run_inc run_again) closed
  refine ⟨?_, fun _ => after_loop⟩
  have parts := closed
  simp only [Task.closed, Stmt.closed, Bool.and_eq_true] at parts
  have start := covers.grow (atRisk (holders f) (c.touched ++ inc.touched ++ body.touched))
  have before_inc := (start.executed run parts.1.1 (cond_in_loop c inc body)).executed run_body
    parts.2 (List.subset_append_right _ _)
  have repeated : taskClear base (holders f) labels
      (stale ∪ atRisk (holders f) (c.touched ++ inc.touched ++ body.touched))
      (.stmt (.loop c inc body)) = true := by
    simpa only [taskClear, clearStmt, Finset.union_assoc, Finset.union_self] using clear
  have rest := ihl f fuel values _ _ labels analysing closed repeated
    (before_inc.executed run_inc parts.1.2 (inc_in_loop c inc body))
  have done := loop_body_explained run ihc ihb fuel analysing closed clear covers
  have here := before_inc.traversed base fuel (.expr c) (cond_in_loop c inc body)
  simp only [Task.closed, Stmt.closed, Bool.and_eq_true] at closed
  simp only [taskClear, clearStmt, Bool.and_eq_true] at clear
  simp only [taskVisits, stmtVisits, traversed_append] at analysing done rest ⊢
  have stepped := ihi f fuel values _ _ labels (analysing.first.rest reliable) parts.1.2 clear.1.2
    here
  exact (done.append (stepped.1.later base fuel (stmtVisits body))).append rest.1

theorem loopLeft_followed {c inc : CodeExpr} {body : Code}
    (run : Run base (.expr c) env first (.value seen) middle)
    (run_body : Run base (.stmt body) middle events outcome next) (not_fall : outcome ≠ .fall)
    (not_continued : outcome ≠ .continued)
    (ihc : Followed base rank holders (.expr c) env first (.value seen) middle)
    (ihb : Followed base rank holders (.stmt body) middle events outcome next) :
    Followed base rank holders (.stmt (.loop c inc body)) env (first ++ events) outcome.leave next := by
  intro f fuel values traverser stale labels analysing closed clear covers
  have whole : Run base (.stmt (.loop c inc body)) env (first ++ events) outcome.leave next :=
    .loopLeft run run_body not_fall not_continued
  have after_loop := covers.around fuel whole closed
  exact ⟨loop_body_explained run ihc ihb fuel analysing closed clear covers, fun _ => after_loop⟩

theorem do_body_explained {body : Code} {c : CodeExpr}
    (run_body : Run base (.stmt body) env first outcome middle)
    (ihb : Followed base rank holders (.stmt body) env first outcome middle)
    (ihc : Followed base rank holders (.expr c) middle second (.value seen) next)
    {f : Nat} (fuel : Nat) {values : List (Value AllocForm)} {traverser : DeallocationTraverser}
    {stale labels : Finset Var}
    (analysing : Analysing base rank holders f traverser (stmtVisits (.doWhile body c)))
    (closed : (Stmt.doWhile body c).closed base .given (holders f) = true)
    (clear : clearStmt base (holders f) labels stale (.doWhile body c) = true)
    (covers : Covers (holders f) ((base.function f).entry values) stale traverser env) :
    Explained ((base.function f).entry values)
      (traversed base fuel traverser (stmtVisits (.doWhile body c))).valPerParam
      (first ++ second) := by
  obtain ⟨closed_body, closed_cond⟩ := Bool.and_eq_true_iff.mp closed
  have start := covers.grow (atRisk (holders f) (body.touched ++ c.touched))
  have in_body : body.touched ⊆ body.touched ++ c.touched := List.subset_append_left _ _
  have here := (start.executed run_body closed_body in_body).traversed base fuel (.stmt body)
    in_body
  simp only [clearStmt, Bool.and_eq_true] at clear
  simp only [stmtVisits, traversed_append] at analysing ⊢
  have done := ihb f fuel values _ _ labels analysing.first closed_body clear.1 start
  have tested := ihc f fuel values _ _ labels
    (analysing.rest (analyze_reliable base rank holders fuel)) closed_cond clear.2 here
  exact (done.1.later base fuel (exprVisits c)).append tested.1

theorem doDone_followed {body : Code} {c : CodeExpr}
    (run_body : Run base (.stmt body) env first outcome middle)
    (goes : outcome = .fall ∨ outcome = .continued)
    (run : Run base (.expr c) middle events (.value seen) next)
    (ihb : Followed base rank holders (.stmt body) env first outcome middle)
    (ihc : Followed base rank holders (.expr c) middle events (.value seen) next) :
    Followed base rank holders (.stmt (.doWhile body c)) env (first ++ events) .fall next := by
  intro f fuel values traverser stale labels analysing closed clear covers
  have after_loop := covers.around fuel (.doDone run_body goes run) closed
  exact ⟨do_body_explained run_body ihb ihc fuel analysing closed clear covers, fun _ => after_loop⟩

theorem doNext_followed {body : Code} {c : CodeExpr}
    (run_body : Run base (.stmt body) env first outcome middle)
    (goes : outcome = .fall ∨ outcome = .continued)
    (run : Run base (.expr c) middle second (.value seen) again)
    (run_again : Run base (.stmt (.doWhile body c)) again events last next)
    (ihb : Followed base rank holders (.stmt body) env first outcome middle)
    (ihc : Followed base rank holders (.expr c) middle second (.value seen) again)
    (ihl : Followed base rank holders (.stmt (.doWhile body c)) again events last next) :
    Followed base rank holders (.stmt (.doWhile body c)) env (first ++ second ++ events) last next := by
  intro f fuel values traverser stale labels analysing closed clear covers
  have after_loop := covers.around fuel (.doNext run_body goes run run_again) closed
  refine ⟨?_, fun _ => after_loop⟩
  obtain ⟨closed_body, closed_cond⟩ := Bool.and_eq_true_iff.mp closed
  have start := covers.grow (atRisk (holders f) (body.touched ++ c.touched))
  have repeated : taskClear base (holders f) labels
      (stale ∪ atRisk (holders f) (body.touched ++ c.touched)) (.stmt (.doWhile body c)) = true := by
    simpa only [taskClear, clearStmt, Finset.union_assoc, Finset.union_self] using clear
  have rest := ihl f fuel values _ _ labels analysing closed repeated
    ((start.executed run_body closed_body (List.subset_append_left _ _)).executed run closed_cond
      (List.subset_append_right _ _))
  exact (do_body_explained run_body ihb ihc fuel analysing closed clear covers).append rest.1

theorem doLeft_followed {body : Code} {c : CodeExpr}
    (run_body : Run base (.stmt body) env events outcome next) (not_fall : outcome ≠ .fall)
    (not_continued : outcome ≠ .continued)
    (ihb : Followed base rank holders (.stmt body) env events outcome next) :
    Followed base rank holders (.stmt (.doWhile body c)) env events outcome.leave next := by
  intro f fuel values traverser stale labels analysing closed clear covers
  have whole : Run base (.stmt (.doWhile body c)) env events outcome.leave next :=
    .doLeft run_body not_fall not_continued
  have after_loop := covers.around fuel whole closed
  refine ⟨?_, fun _ => after_loop⟩
  simp only [Task.closed, Stmt.closed, Bool.and_eq_true] at closed
  simp only [taskClear, clearStmt, Bool.and_eq_true] at clear
  simp only [taskVisits, stmtVisits, traversed_append] at analysing ⊢
  have done := ihb f fuel values _ _ labels analysing.first closed.1 clear.1 (covers.grow _)
  exact done.1.later base fuel (exprVisits c)

theorem switchNone_followed {c : CodeExpr} {body : Code}
    (run : Run base (.expr c) env events (.value seen) next)
    (ihc : Followed base rank holders (.expr c) env events (.value seen) next) :
    Followed base rank holders (.stmt (.switch c body)) env events .fall next := by
  intro f fuel values traverser stale labels analysing closed clear covers
  have whole : Run base (.stmt (.switch c body)) env events .fall next := .switchNone run
  have after_switch := covers.around fuel whole closed
  refine ⟨?_, fun _ => after_switch⟩
  simp only [Task.closed, Stmt.closed, Bool.and_eq_true] at closed
  simp only [taskClear, clearStmt, Bool.and_eq_true] at clear
  simp only [taskVisits, stmtVisits, traversed_append] at analysing ⊢
  have tested := ihc f fuel values _ _ labels analysing.first closed.1 clear.1 covers
  exact tested.1.later base fuel (stmtVisits body)

theorem switch_followed {c : CodeExpr} {body entry : Code} (member : entry ∈ body.entries)
    (run : Run base (.expr c) env first (.value seen) middle)
    (run_entry : Run base (.stmt entry) middle events outcome next)
    (ihc : Followed base rank holders (.expr c) env first (.value seen) middle)
    (ihe : Followed base rank holders (.stmt entry) middle events outcome next) :
    Followed base rank holders (.stmt (.switch c body)) env (first ++ events) outcome.leave next := by
  intro f fuel values traverser stale labels analysing closed clear covers
  have reliable := analyze_reliable base rank holders fuel
  have after_switch := covers.around fuel (.switch run member run_entry) closed
  refine ⟨?_, fun _ => after_switch⟩
  simp only [Task.closed, Stmt.closed, Bool.and_eq_true] at closed
  simp only [taskClear, clearStmt, Bool.and_eq_true] at clear
  obtain ⟨before, here, split, clear_entry⟩ := entries_clear member clear.2
  have start := covers.grow (atRisk (holders f) (c.touched ++ body.touched))
  have in_cond : c.touched ⊆ c.touched ++ body.touched := List.subset_append_left _ _
  have chosen := (start.executed run closed.1 in_cond).traversed base fuel (.expr c) in_cond
  -- what stands before the label is traversed, though it is not executed
  have wider : Covers (holders f) ((base.function f).entry values)
      (here ∪ (stale ∪ atRisk (holders f) (c.touched ++ body.touched)))
      (traversed base fuel (traversed base fuel traverser (exprVisits c)) before) middle := by
    refine chosen.change chosen.avoids Finset.subset_union_right fun v fresh => ?_
    rw [Finset.mem_union, not_or] at fresh
    rcases (not_at_risk fresh.2).2 with untouched | outside
    · refine Or.inr ⟨rfl, DeallocationTraverser.run_frame _ _ fun a inside => untouched ?_⟩
      exact List.mem_append_right _
        (stmtVisits_touched (split ▸ List.mem_append_left _ inside))
    · exact Or.inl outside
  simp only [taskVisits, stmtVisits, split, traversed_append] at analysing ⊢
  have tested := ihc f fuel values _ _ labels analysing.first closed.1 clear.1 covers
  have inside := ihe f fuel values _ _ _ ((analysing.rest reliable).rest reliable)
    (Stmt.entries_closed member closed.2) clear_entry wider
  have header := tested.1.later base fuel before
  exact (header.later base fuel (stmtVisits entry)).append inside.1

end Cases

theorem run_followed {task : Task AllocForm DeallocForm} {env next : Env AllocForm}
    {events : List (Value AllocForm × DeallocForm)} {outcome : Outcome AllocForm}
    (run : Run base task env events outcome next) :
    Followed base rank holders task env events outcome next := by
  induction run with
  | cast _ ih =>
      exact fun f fuel values traverser stale labels analysing closed clear covers =>
        ih f fuel values traverser stale labels analysing closed clear covers
  | assign run ih => exact assign_followed run ih
  | shift _ moves ih => exact shift_followed moves ih
  | comma _ _ iha ihb => exact comma_followed iha ihb
  | condLeft _ run ihc iha => exact condLeft_followed run ihc iha
  | condRight _ run ihc ihb => exact condRight_followed run ihc ihb
  | call args has_body run _ iha ihb =>
      exact call_followed args iha fun _ certified => body_explains has_body run ihb certified
  | callOpaque args no_body on_params _ _ iha =>
      exact call_followed args iha fun _ certified =>
        opaque_call_explains no_body on_params certified
  | @filled _ _ events _ _ run _ =>
      intro f fuel values traverser stale labels _ _ _ covers
      -- a default argument gets hold of nothing that is passed
      have own : ∀ event ∈ events, event.1.Own := run.events_within fun _ => nofun
      exact ⟨fun i form member => absurd rfl (own _ member i), fun _ => covers⟩
  | argsCons _ _ ihe ihes => exact argsCons_followed ihe ihes
  | expr _ ih =>
      intro f fuel values traverser stale labels analysing closed clear covers
      have inner := ih f fuel values traverser stale labels analysing closed clear covers
      exact ⟨inner.1, fun _ => inner.2 trivial⟩
  | declare =>
      intro f fuel values traverser stale labels _ _ _ covers
      exact ⟨.nil _ _, fun _ => declare_covers covers _⟩
  | decl run ih => exact decl_followed run ih
  | seq _ _ ihs iht => exact seq_followed ihs iht
  | seqStop _ stops ihs => exact seqStop_followed stops ihs
  | dealloc run ih => exact dealloc_followed run ih
  | iteThen _ _ run ihi ihc ihs => exact iteThen_followed run ihi ihc ihs
  | iteElse _ _ run ihi ihc iht => exact iteElse_followed run ihi ihc iht
  | loopDone run ihc => exact loopDone_followed run ihc
  | loopNext run body goes inc again ihc ihb ihi ihl =>
      exact loopNext_followed run body goes inc again ihc ihb ihi ihl
  | loopLeft run body not_fall not_continued ihc ihb =>
      exact loopLeft_followed run body not_fall not_continued ihc ihb
  | doDone body goes run ihb ihc => exact doDone_followed body goes run ihb ihc
  | doNext body goes run again ihb ihc ihl =>
      exact doNext_followed body goes run again ihb ihc ihl
  | doLeft body not_fall not_continued ihb =>
      exact doLeft_followed body not_fall not_continued ihb
  | switchNone run ihc => exact switchNone_followed run ihc
  | switch run member entry ihc ihe => exact switch_followed member run entry ihc ihe
  | labelled _ ih =>
      intro f fuel values traverser stale labels analysing closed clear covers
      exact ih f fuel values traverser _ labels analysing closed clear (covers.grow labels)
  | ret _ ih =>
      intro f fuel values traverser stale labels analysing closed clear covers
      have inner := ih f fuel values traverser stale labels analysing closed clear covers
      exact ⟨inner.1, fun goes => by cases goes⟩
  | brk => exact fun f fuel values traverser stale labels _ _ _ _ =>
      ⟨.nil _ _, fun goes => by cases goes⟩
  | cont => exact fun f fuel values traverser stale labels _ _ _ _ =>
      ⟨.nil _ _, fun goes => by cases goes⟩
  | _ => exact fun f fuel values traverser stale labels _ _ _ covers => ⟨.nil _ _, fun _ => covers⟩

end Soundness

section Result

variable (base : CodeBase)

/-- On some way through the body, the pointer passed as a parameter is deallocated so. -/
def Deallocates (f i : Nat) (form : DeallocForm) : Prop :=
  let fn := base.function f
  ∃ body events outcome next, fn.body = some body ∧
    Run base (.stmt body) (fn.entry ((List.range fn.numParams).map .given)) events outcome next ∧
      (.given i, form) ∈ events

/-- The class of a parameter is the form of its deallocations, or left open. -/
def SoundDealloc (f : Nat) : Prop :=
  (∀ i form, Deallocates base f i form →
    (GetDeallocType base f).2[i]? = some form.type ∨
      (GetDeallocType base f).2[i]? = some .unknown) ∧
  (∀ i form other, Deallocates base f i form → Deallocates base f i other → form ≠ other →
    (GetDeallocType base f).2[i]? = some .unknown) ∧
  ∀ i form, Deallocates base f i form → (GetDeallocType base f).2[i]? ≠ some .none

variable {base}

theorem given_distinct {function : Function AllocForm DeallocForm} {numParams index i : Nat}
    (holds : function.entry ((List.range numParams).map Value.given) (.param index) = .given i) :
    index = i := by
  have passed := (entry_given holds).2
  simp only [List.getElem?_map, Option.map_eq_some_iff] at passed
  obtain ⟨position, at_index, same⟩ := passed
  obtain ⟨_, rfl⟩ := List.getElem?_eq_some_iff.mp at_index
  rw [List.getElem_range] at same
  exact Value.given.inj same

theorem dealloc_classed {f i : Nat} {form : DeallocForm} {rank : Nat → Nat}
    {held : Nat → Finset Var} (settles : Settles base rank held f) (deallocates : Deallocates base f i form) :
    (GetDeallocType base f).2[i]? = some form.type ∨
      (GetDeallocType base f).2[i]? = some .unknown := by
  obtain ⟨body, events, outcome, next, has_body, run, member⟩ := deallocates
  let start : DeallocationTraverser :=
    { valPerParam := List.replicate (base.function f).numParams .none,
      visitedFuncs := Visited.Table.insert (fun _ => none) f none }
  have analysing := analysing_start has_body settles (Ready.alone f)
  have result : (GetDeallocType base f).2 =
      (traversed base base.length start (stmtVisits body)).valPerParam := by
    rw [← GetDeallocType_fuel f 1, AnalyzeDeallocType]
    simp only [has_body]
    rfl
  have traced := settles.traced has_body
  have followed := run_followed run f base.length _ _ ∅ ∅ analysing traced.closed traced.clear
    (start_covers traced _ _ _)
  obtain ⟨index, passed, classed⟩ := followed.1 i form member
  obtain rfl := given_distinct passed
  have classed : DeallocationTraverser.Classed (GetDeallocType base f).2 index form :=
    result ▸ classed
  obtain ⟨type, found, accounts⟩ := classed
  rw [found]
  rcases accounts with rfl | rfl | rfl
  · exact Or.inl rfl
  · exact Or.inr rfl
  · have shaped := DeallocationTraverser.run_shaped (AnalyzeDeallocType base base.length)
      analysing.shaped (stmtVisits body)
    rw [result] at found
    exact absurd (List.mem_of_getElem? found) shaped.2

theorem DeallocForm.type_injective {form other : DeallocForm} (same : form.type = other.type) :
    form = other := by
  cases form <;> cases other <;> first | rfl | cases same

/-- `void release(int* p) { delete p; }` and
`void pass(int* p, int* q, bool b) { int* x = p; if (b) release(x); else free(q); }`. -/
def releaseThrough : CodeBase :=
  [{ numParams := 1, body := some (.dealloc .delete (.var (.param 0))), returnsPointer := false,
     promise := none },
   { numParams := 3,
     body := some (.seq (.decl 0 (some (.var (.param 0))))
       (.ite .absent (.expr .other) (.expr (.call 0 [.var (.own 0)]))
         (.dealloc .free (.var (.param 1))))),
     returnsPointer := false, promise := none }]

theorem releaseThrough_calls {g h : Nat} (calls : Calls releaseThrough g h) : g = 1 ∧ h = 0 := by
  obtain ⟨body, args, has_body, member⟩ := calls
  match g, has_body with
  | 0, has_body =>
      obtain rfl := Option.some.inj has_body
      simp [stmtVisits, exprVisits] at member
  | 1, has_body =>
      obtain rfl := Option.some.inj has_body
      simp [stmtVisits, exprVisits, argsVisits] at member
      exact ⟨rfl, member.1⟩
  | _ + 2, has_body => cases has_body

def releaseThroughHeld : Nat → Finset Var
  | 0 => {.param 0}
  | _ => {.param 0, .param 1, .param 2, .own 0}

theorem releaseThrough_settles (f : Nat) : Settles releaseThrough id releaseThroughHeld f := by
  refine fun g _ => ⟨fun body has_body => ?_, fun h calls => ?_⟩
  · match g, has_body with
    | 0, has_body =>
        obtain rfl := Option.some.inj has_body
        exact ⟨by decide, by decide, by decide⟩
    | 1, has_body =>
        obtain rfl := Option.some.inj has_body
        exact ⟨by decide, by decide, by decide⟩
    | _ + 2, has_body => cases has_body
  · obtain ⟨rfl, rfl⟩ := releaseThrough_calls calls
    exact Nat.zero_lt_one

/-- `void drop(int* p, bool b) { int* x = p; if (b) x = nullptr; delete x; }`. -/
def dropUnless : CodeBase :=
  [{ numParams := 2,
     body := some (.seq (.decl 0 (some (.var (.param 0))))
       (.seq (.ite .absent (.expr .other) (.expr (.assign (.own 0) .null)) .absent)
         (.dealloc .delete (.var (.own 0))))),
     returnsPointer := false, promise := none }]

theorem dropUnless_deallocates : Deallocates dropUnless 0 0 .delete := by
  refine ⟨_, _, _, _, rfl, .seq (.decl .var) (.seq (.iteElse .absent (.expr .other) .absent)
    (.dealloc .var)), ?_⟩
  exact List.mem_append_right _ (List.mem_append_right _ List.mem_cons_self)

end Result

end CppInterOp
