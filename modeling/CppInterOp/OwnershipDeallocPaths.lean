import Mathlib.Logic.Relation
import CppInterOp.Library.PointerFlows
import CppInterOp.OwnershipDeallocSteps

/-!
Where the aliases of `DeallocationTraverser` are those of every path: the condition, what the
table of functions already seen holds, and how a use of a pointer is attributed.
-/

namespace CppInterOp

open PointerPrograms

section Stale

variable (base : CodeBase) (held : Finset Var)

/-- A pointer of a parameter is attributed to it: the expression reads a variable whose alias
is right, or gives no such pointer at all. -/
def traceable (stale : Finset Var) (e : CodeExpr) : Bool :=
  e.avoids base .given held ||
    match resolveExpr e with
    | some v => decide (v ∉ stale)
    | none => false

/-- An assignment after which the alias of the variable is right. A parameter is never an
alias of another. -/
def keeps (stale : Finset Var) (v : Var) (e : CodeExpr) : Bool :=
  match v with
  | .param _ => e.avoids base .given held
  | .own _ => traceable base held stale e

mutual

/-- The variables whose aliases may be wrong after an expression. The traverser comes to an
assignment before its right-hand side, and to both branches of a conditional. -/
def staleExpr : Finset Var → CodeExpr → Finset Var
  | stale, .var _ => stale
  | stale, .null => stale
  | stale, .other => stale
  | stale, .allocate _ => stale
  | stale, .cast e => staleExpr stale e
  | stale, .assign v e =>
      let inner := staleExpr (insert v stale) e
      if keeps base held stale v e then inner.erase v else insert v inner
  | stale, .shift _ e => staleExpr stale e
  | stale, .comma a b => staleExpr (staleExpr stale a) b
  | stale, .cond c a b => staleExpr stale c ∪ atRisk held a.touched ∪ atRisk held b.touched
  | stale, .call _ args => staleArgs stale args
  | stale, .filled _ => stale

def staleArgs : Finset Var → List CodeExpr → Finset Var
  | stale, [] => stale
  | stale, e :: es => staleArgs (staleExpr stale e) es

end

mutual

/-- Every pointer passed to a function is attributed to its parameter. -/
def clearExpr : Finset Var → CodeExpr → Bool
  | _, .var _ => true
  | _, .null => true
  | _, .other => true
  | _, .allocate _ => true
  | stale, .cast e => clearExpr stale e
  | stale, .assign v e => clearExpr (insert v stale) e
  | stale, .shift _ e => clearExpr stale e
  | stale, .comma a b => clearExpr stale a && clearExpr (staleExpr base held stale a) b
  | stale, .cond c a b =>
      clearExpr stale c && clearExpr (staleExpr base held stale c) a &&
        clearExpr (staleExpr base held stale c ∪ atRisk held a.touched) b
  | stale, .call _ args =>
      args.all (traceable base held (stale ∪ atRisk held (Expr.touchedArgs args))) &&
        clearArgs stale args
  | _, .filled _ => true

def clearArgs : Finset Var → List CodeExpr → Bool
  | _, [] => true
  | stale, e :: es => clearExpr stale e && clearArgs (staleExpr base held stale e) es

end

/-- Where control flow joins, what was assigned on one of the ways may be wrong on the
other. -/
def staleStmt (labels : Finset Var) : Finset Var → Code → Finset Var
  | stale, .absent => stale
  | stale, .expr e => staleExpr base held stale e
  | stale, .decl name none => stale.erase (.own name)
  | stale, .decl name (some e) => staleExpr base held stale (.assign (.own name) e)
  | stale, .seq s t => staleStmt labels (staleStmt labels stale s) t
  | stale, .dealloc _ e => staleExpr base held stale e
  | stale, .ite init test s t =>
      staleStmt labels (staleStmt labels stale init) test ∪
        atRisk held s.touched ∪ atRisk held t.touched
  | stale, .loop c inc body =>
      stale ∪ atRisk held (c.touched ++ inc.touched ++ body.touched)
  | stale, .doWhile body c => stale ∪ atRisk held (body.touched ++ c.touched)
  | stale, .switch c body => stale ∪ atRisk held (c.touched ++ body.touched)
  | stale, .labelled s => staleStmt labels (stale ∪ labels) s
  | stale, .brk => stale
  | stale, .cont => stale
  | stale, .ret e => staleExpr base held stale e

/-- Every pointer that is deallocated or passed to a function is attributed to its parameter.
`labels` are the variables that may be wrong at a label of the switch around the statement. -/
def clearStmt (labels : Finset Var) : Finset Var → Code → Bool
  | _, .absent => true
  | stale, .expr e => clearExpr base held stale e
  | _, .decl _ none => true
  | stale, .decl name (some e) => clearExpr base held (insert (.own name) stale) e
  | stale, .seq s t =>
      clearStmt labels stale s && clearStmt labels (staleStmt base held labels stale s) t
  | stale, .dealloc _ e => traceable base held stale e && clearExpr base held stale e
  | stale, .ite init test s t =>
      let declared := staleStmt base held labels stale init
      let chosen := staleStmt base held labels declared test
      clearStmt labels stale init && clearStmt labels declared test &&
        clearStmt labels chosen s && clearStmt labels (chosen ∪ atRisk held s.touched) t
  | stale, .loop c inc body =>
      let again := stale ∪ atRisk held (c.touched ++ inc.touched ++ body.touched)
      clearExpr base held again c && clearExpr base held again inc && clearStmt labels again body
  | stale, .doWhile body c =>
      let again := stale ∪ atRisk held (body.touched ++ c.touched)
      clearStmt labels again body && clearExpr base held again c
  | stale, .switch c body =>
      let inside := stale ∪ atRisk held (c.touched ++ body.touched)
      clearExpr base held stale c && clearStmt inside inside body
  | stale, .labelled s => clearStmt labels (stale ∪ labels) s
  | _, .brk => true
  | _, .cont => true
  | stale, .ret e => clearExpr base held stale e

end Stale

section Condition

variable (base : CodeBase)

def Calls (f g : Nat) : Prop :=
  ∃ body args, (base.function f).body = some body ∧ Visit.call g args ∈ stmtVisits body

/-- The variables `held` are those that may hold a pointer of a parameter, and their aliases
are right wherever a pointer is deallocated or passed to a function. -/
structure Traced (held : Finset Var) (f : Nat) (body : Code) : Prop where
  params : ∀ index, index < (base.function f).numParams → .param index ∈ held
  closed : body.closed base .given held = true
  clear : clearStmt base held ∅ ∅ body = true

/-- No function that is analysed with `f` calls one that is still being analysed, and in each
of them the aliases are right wherever a pointer is used. -/
def Settles (rank : Nat → Nat) (held : Nat → Finset Var) (f : Nat) : Prop :=
  ∀ g, Relation.ReflTransGen (Calls base) f g →
    (∀ body, (base.function g).body = some body → Traced base (held g) g body) ∧
      ∀ h, Calls base g h → rank h < rank g

variable {base}

theorem Settles.callee {rank : Nat → Nat} {held : Nat → Finset Var} {f g : Nat}
    (settles : Settles base rank held f) (calls : Calls base f g) : Settles base rank held g :=
  fun h reached => settles h (.head calls reached)

end Condition

section Tables

variable (base : CodeBase) (rank : Nat → Nat) (held : Nat → Finset Var)

inductive Certified : Nat → List DeallocType → Prop
  | opaqueBody (f : Nat) : Certified f (List.replicate (base.function f).numParams .opaqueBody)
  | body (f fuel : Nat) (body : Code) (table : VisitedFuncs)
      (has_body : (base.function f).body = some body) (settles : Settles base rank held f)
      (known : ∀ g types, table g = some (some types) → Certified g types)
      (pending : ∀ g, table g = some none → rank f ≤ rank g) :
      Certified f (Runs.run (DeallocationTraverser.visit (AnalyzeDeallocType base fuel))
        { valPerParam := List.replicate (base.function f).numParams .none, visitedFuncs := table }
        (stmtVisits body)).valPerParam

structure Ready (f : Nat) (table : VisitedFuncs) : Prop where
  known : ∀ g types, table g = some (some types) → Certified base rank held g types
  pending : ∀ g, table g = some none → rank f ≤ rank g

def Reliable (analyze : Nat → VisitedFuncs → List DeallocType × VisitedFuncs) : Prop :=
  ∀ f table, Settles base rank held f → Ready base rank held f table →
    Certified base rank held f (analyze f table).1 ∧
      (∀ g types, (analyze f table).2 g = some (some types) → Certified base rank held g types) ∧
      ∀ g, (analyze f table).2 g = some none → g ≠ f ∧ table g = some none

variable {base rank held}

theorem Ready.insert {f g : Nat} {table : VisitedFuncs} (ready : Ready base rank held f table)
    (lower : rank g < rank f) : Ready base rank held g (table.insert g none) where
  known := by
    intro h types found
    by_cases same : h = g
    · rw [same, Visited.Table.insert_same] at found
      cases found
    · rw [Visited.Table.insert_other _ same] at found
      exact ready.known h types found
  pending := by
    intro h found
    by_cases same : h = g
    · exact same ▸ Nat.le_refl _
    · rw [Visited.Table.insert_other _ same] at found
      exact Nat.le_trans (Nat.le_of_lt lower) (ready.pending h found)

/-- A table in which only the analysed function itself has been seen. -/
theorem Ready.alone (f : Nat) :
    Ready base rank held f (Visited.Table.insert (fun _ => none) f none) where
  known := by
    intro g types found
    by_cases same : g = f
    · rw [same, Visited.Table.insert_same] at found
      cases found
    · rw [Visited.Table.insert_other _ same] at found
      cases found
  pending := by
    intro g found
    by_cases same : g = f
    · exact same ▸ Nat.le_refl _
    · rw [Visited.Table.insert_other _ same] at found
      cases found

variable {analyze : Nat → VisitedFuncs → List DeallocType × VisitedFuncs}

theorem visitCall_ready (reliable : Reliable base rank held analyze) {f g : Nat}
    {traverser : DeallocationTraverser} (ready : Ready base rank held f traverser.visitedFuncs)
    (lower : rank g < rank f) (settles : Settles base rank held g) (args : List CodeExpr) :
    ∃ types table, Certified base rank held g types ∧
      traverser.visitCall analyze g args =
        { traverser with visitedFuncs := table }.joinVectors types args ∧
      Ready base rank held f table ∧
      ∀ h, table h = some none → traverser.visitedFuncs h = some none := by
  cases at_g : traverser.visitedFuncs g with
  | none =>
      obtain ⟨certified, known, pending⟩ := reliable g _ settles (ready.insert lower)
      have earlier : ∀ h, (analyze g (traverser.visitedFuncs.insert g none)).2 h = some none →
          traverser.visitedFuncs h = some none := by
        intro h found
        obtain ⟨other, before⟩ := pending h found
        rwa [Visited.Table.insert_other _ other] at before
      exact ⟨_, _, certified, DeallocationTraverser.visitCall_new analyze at_g args,
        ⟨known, fun h found => ready.pending h (earlier h found)⟩, earlier⟩
  | some known =>
      cases known with
      | none => exact absurd (ready.pending g at_g) (Nat.not_le.mpr lower)
      | some types =>
          exact ⟨types, traverser.visitedFuncs, ready.known g types at_g,
            DeallocationTraverser.visitCall_known analyze at_g args, ready, fun _ found => found⟩

structure Analysing (base : CodeBase) (rank : Nat → Nat) (held : Nat → Finset Var) (f : Nat)
    (traverser : DeallocationTraverser) (nodes : List Visit) : Prop where
  ready : Ready base rank held f traverser.visitedFuncs
  calls : ∀ g args, Visit.call g args ∈ nodes → rank g < rank f ∧ Settles base rank held g
  shaped : DeallocationTraverser.Shaped (base.function f).numParams traverser.valPerParam

theorem visit_ready (reliable : Reliable base rank held analyze) {f : Nat}
    {traverser : DeallocationTraverser} {node : Visit}
    (calls : ∀ g args, Visit.call g args = node → rank g < rank f ∧ Settles base rank held g)
    (ready : Ready base rank held f traverser.visitedFuncs) :
    Ready base rank held f (traverser.visit analyze node).visitedFuncs ∧
      ∀ h, (traverser.visit analyze node).visitedFuncs h = some none →
        traverser.visitedFuncs h = some none := by
  cases node with
  | assign v e =>
      cases v with
      | param index => exact ⟨ready, fun _ found => found⟩
      | own name => exact ⟨ready, fun _ found => found⟩
  | dealloc form e =>
      rw [DeallocationTraverser.visit, DeallocationTraverser.record_visited]
      exact ⟨ready, fun _ found => found⟩
  | call g args =>
      obtain ⟨lower, settles⟩ := calls g args rfl
      obtain ⟨types, table, _, same, later, earlier⟩ :=
        visitCall_ready reliable ready lower settles args
      rw [DeallocationTraverser.visit, same, (DeallocationTraverser.joinVectors_same _ _ _).2]
      exact ⟨later, earlier⟩

theorem Analysing.first {f : Nat} {traverser : DeallocationTraverser} {nodes more : List Visit}
    (analysing : Analysing base rank held f traverser (nodes ++ more)) :
    Analysing base rank held f traverser nodes :=
  { analysing with
    calls := fun g args member => analysing.calls g args (List.mem_append_left _ member) }

theorem Analysing.step (reliable : Reliable base rank held analyze) {f : Nat}
    {traverser : DeallocationTraverser} {node : Visit} {nodes : List Visit}
    (analysing : Analysing base rank held f traverser (node :: nodes)) :
    Analysing base rank held f (traverser.visit analyze node) nodes where
  ready := (visit_ready reliable
    (fun g args here => analysing.calls g args (here ▸ List.mem_cons_self)) analysing.ready).1
  calls := fun g args member => analysing.calls g args (List.mem_cons_of_mem _ member)
  shaped := DeallocationTraverser.visit_shaped analyze analysing.shaped node

theorem Analysing.rest (reliable : Reliable base rank held analyze) {f : Nat}
    {traverser : DeallocationTraverser} {nodes more : List Visit}
    (analysing : Analysing base rank held f traverser (nodes ++ more)) :
    Analysing base rank held f (Runs.run (DeallocationTraverser.visit analyze) traverser nodes)
      more := by
  induction nodes generalizing traverser with
  | nil => exact analysing
  | cons node nodes ih => exact ih (analysing.step reliable)

theorem insert_reliable {f : Nat} {table later : VisitedFuncs} {types : List DeallocType}
    (certified : Certified base rank held f types)
    (known : ∀ g types, later g = some (some types) → Certified base rank held g types)
    (earlier : ∀ g, later g = some none → table g = some none) :
    (∀ g found, later.insert f (some types) g = some (some found) → Certified base rank held g found) ∧
      ∀ g, later.insert f (some types) g = some none → g ≠ f ∧ table g = some none := by
  constructor
  · intro g found at_g
    by_cases same : g = f
    · rw [same, Visited.Table.insert_same] at at_g
      obtain rfl : types = found := by simpa using at_g
      exact same ▸ certified
    · rw [Visited.Table.insert_other _ same] at at_g
      exact known g found at_g
  · intro g at_g
    by_cases same : g = f
    · rw [same, Visited.Table.insert_same] at at_g
      cases at_g
    · rw [Visited.Table.insert_other _ same] at at_g
      exact ⟨same, earlier g at_g⟩

theorem analyze_reliable (base : CodeBase) (rank : Nat → Nat) (held : Nat → Finset Var)
    (fuel : Nat) :
    Reliable base rank held (AnalyzeDeallocType base fuel) := by
  induction fuel with
  | zero =>
      intro f table _ ready
      exact ⟨.opaqueBody f, insert_reliable (.opaqueBody f) ready.known fun _ found => found⟩
  | succ fuel ih =>
      intro f table settles ready
      cases has_body : (base.function f).body with
      | none =>
          rw [AnalyzeDeallocType_no_body has_body]
          exact ⟨.opaqueBody f, insert_reliable (.opaqueBody f) ready.known fun _ found => found⟩
      | some body =>
          let start : DeallocationTraverser :=
            { valPerParam := List.replicate (base.function f).numParams .none,
              visitedFuncs := table }
          have calls : ∀ g args, Visit.call g args ∈ stmtVisits body →
              rank g < rank f ∧ Settles base rank held g := by
            intro g args member
            have called : Calls base f g := ⟨body, args, has_body, member⟩
            exact ⟨(settles f .refl).2 g called, settles.callee called⟩
          have visited : Ready base rank held f (Runs.run (DeallocationTraverser.visit
                (AnalyzeDeallocType base fuel)) start (stmtVisits body)).visitedFuncs ∧
              ∀ h, (Runs.run (DeallocationTraverser.visit (AnalyzeDeallocType base fuel)) start
                (stmtVisits body)).visitedFuncs h = some none → table h = some none := by
            refine Runs.run_preserves (fun traverser : DeallocationTraverser =>
              Ready base rank held f traverser.visitedFuncs ∧
                ∀ h, traverser.visitedFuncs h = some none → table h = some none) ?_
              ⟨ready, fun _ found => found⟩
            intro traverser node member here
            obtain ⟨later, earlier⟩ := visit_ready ih
              (fun g args same => calls g args (same ▸ member)) here.1
            exact ⟨later, fun h found => here.2 h (earlier h found)⟩
          have certified := Certified.body f fuel body table has_body settles ready.known
            ready.pending
          rw [AnalyzeDeallocType]
          simp only [has_body]
          exact ⟨certified, insert_reliable certified visited.1.known visited.2⟩

end Tables

section Paths

variable {base : CodeBase} {held : Finset Var}

/-- A variable that holds a pointer passed to the function is one of those that may, and it is
an alias of a parameter that was passed the pointer, unless the variable is stale. -/
structure Covers (held : Finset Var) (entry : Env AllocForm) (stale : Finset Var)
    (traverser : DeallocationTraverser) (env : Env AllocForm) : Prop where
  avoids : env.Avoids .given held
  aliased : ∀ v, v ∉ stale → ∀ i, env v = .given i →
    ∃ index, traverser.resolveVar v = some index ∧ entry (.param index) = .given i

theorem Covers.change {entry env next : Env AllocForm} {stale more : Finset Var}
    {traverser later : DeallocationTraverser} (covers : Covers held entry stale traverser env)
    (avoids : next.Avoids .given held) (within : stale ⊆ more)
    (same : ∀ v, v ∉ more → v ∉ held ∨
      next v = env v ∧ later.resolveVar v = traverser.resolveVar v) :
    Covers held entry more later next where
  avoids := avoids
  aliased := by
    intro v fresh i holds
    rcases same v fresh with outside | ⟨value, alias_of⟩
    · have given : (next v).Is .given := by rw [holds]; rfl
      exact absurd given (avoids v outside)
    · rw [value] at holds
      rw [alias_of]
      exact covers.aliased v (fun member => fresh (within member)) i holds

theorem Covers.same {entry env : Env AllocForm} {stale : Finset Var}
    {traverser later : DeallocationTraverser} (covers : Covers held entry stale traverser env)
    (same : DeallocationTraverser.SameAliases traverser later) :
    Covers held entry stale later env :=
  covers.change covers.avoids (Finset.Subset.refl _) fun v _ => Or.inr ⟨rfl, same.resolveVar v⟩

theorem Covers.assigned {entry env : Env AllocForm} {stale : Finset Var}
    {traverser : DeallocationTraverser} (covers : Covers held entry stale traverser env) (v : Var)
    (e : Option CodeExpr) : Covers held entry (insert v stale) (traverser.updateMap v e) env := by
  refine covers.change covers.avoids (Finset.subset_insert v stale) fun w fresh =>
    Or.inr ⟨rfl, ?_⟩
  apply traverser.updateMap_other
  rintro rfl
  exact fresh (Finset.mem_insert_self w stale)

theorem resolveExpr_value {e : CodeExpr} {v : Var} (resolves : resolveExpr e = some v)
    {env next : Env AllocForm} {events : List (Value AllocForm × DeallocForm)}
    {value : Value AllocForm} (run : Run base (.expr e) env events (.value value) next) :
    value = env v ∧ next = env ∧ exprVisits e = [] := by
  fun_induction resolveExpr e with
  | case1 e ih =>
      cases run with
      | cast inner => exact ih resolves inner
  | case2 w =>
      obtain rfl : w = v := Option.some.inj resolves
      cases run with
      | var => exact ⟨rfl, rfl, rfl⟩
  | case3 e _ _ => cases resolves

/-- A traceable expression that gives a pointer of a parameter resolves to it. -/
theorem traced {entry env next : Env AllocForm} {stale : Finset Var}
    {traverser : DeallocationTraverser} (covers : Covers held entry stale traverser env)
    {e : CodeExpr} (closed : e.closed base .given held = true)
    (trace : traceable base held stale e = true)
    {events : List (Value AllocForm × DeallocForm)} {i : Nat}
    (run : Run base (.expr e) env events (.value (.given i)) next) :
    ∃ index, traverser.resolveParam e = some index ∧ entry (.param index) = .given i := by
  rw [traceable, Bool.or_eq_true] at trace
  rcases trace with avoids | known
  · have not_given : ¬ (Value.given i : Value AllocForm).Is .given :=
      (run.avoids closed covers.avoids).1 avoids
    exact absurd rfl not_given
  · cases resolves : resolveExpr e with
    | none =>
        rw [resolves] at known
        cases known
    | some v =>
        rw [resolves] at known
        obtain ⟨holds, _, _⟩ := resolveExpr_value resolves run
        obtain ⟨index, found, passed⟩ := covers.aliased v (of_decide_eq_true known) i holds.symm
        exact ⟨index, by rw [DeallocationTraverser.resolveParam, resolves]; exact found, passed⟩

/-- The same for the arguments of a call, which are evaluated one after the other. -/
theorem args_traced {entry start : Env AllocForm} {all : Finset Var}
    {traverser : DeallocationTraverser} (covers : Covers held entry all traverser start)
    {es : List CodeExpr} {env next : Env AllocForm}
    {events : List (Value AllocForm × DeallocForm)} {values : List (Value AllocForm)}
    (run : Run base (.args es) env events (.values values) next)
    (closed : Expr.closedArgs base .given held es = true) (avoids : env.Avoids .given held)
    (before : ∀ v, v ∉ all → v ∉ held ∨ env v = start v)
    (within : ∀ v ∈ Expr.touchedArgs es, v ∈ all ∨ v ∉ held)
    (trace : es.all (traceable base held all) = true) {position i : Nat}
    (passed : values[position]? = some (.given i)) :
    ∃ e index, es[position]? = some e ∧ traverser.resolveParam e = some index ∧
      entry (.param index) = .given i := by
  induction es generalizing env events values position with
  | nil =>
      cases run with
      | argsNil => simp at passed
  | cons e es ih =>
      rw [List.all_cons, Bool.and_eq_true] at trace
      obtain ⟨closed_first, closed_rest⟩ := Bool.and_eq_true_iff.mp closed
      cases run with
      | @argsCons _ _ _ _ _ middle _ _ _ first rest =>
          have now : Covers held entry all traverser _ :=
            covers.change avoids (Finset.Subset.refl all) fun v fresh =>
              (before v fresh).imp_right fun same => ⟨same, rfl⟩
          cases position with
          | zero =>
              simp only [List.getElem?_cons_zero, Option.some.injEq] at passed
              subst passed
              obtain ⟨index, found, same⟩ := traced now closed_first trace.1 first
              exact ⟨e, index, rfl, found, same⟩
          | succ position =>
              rw [List.getElem?_cons_succ] at passed
              have unchanged : ∀ v, v ∉ all → v ∉ held ∨ middle v = start v := by
                intro v fresh
                by_cases inside : v ∈ held
                · have untouched : v ∉ e.touched := fun member =>
                    (within v (List.mem_append_left _ member)).elim fresh fun out => out inside
                  refine Or.inr ((first.frame untouched).trans ?_)
                  exact (before v fresh).resolve_left fun out => out inside
                · exact Or.inl inside
              obtain ⟨found, index, at_position, rest_found⟩ := ih rest closed_rest
                (first.avoids closed_first avoids).2 unchanged
                (fun v member => within v (List.mem_append_right _ member)) trace.2 passed
              exact ⟨found, index, by rw [List.getElem?_cons_succ, at_position], rest_found⟩

theorem entry_given {function : Function AllocForm DeallocForm} {values : List (Value AllocForm)}
    {index i : Nat} (holds : function.entry values (.param index) = .given i) :
    index < function.numParams ∧ values[index]? = some (.given i) := by
  rw [Function.entry] at holds
  split at holds
  next bound =>
    rw [List.getD_eq_getElem?_getD] at holds
    cases at_index : values[index]? with
    | none =>
        rw [at_index] at holds
        cases holds
    | some value =>
        rw [at_index] at holds
        exact ⟨bound, congrArg some holds⟩
  next _ => cases holds

/-- What is deallocated is accounted for by the class of a parameter that was passed it. -/
def Explained (entry : Env AllocForm) (types : List DeallocType)
    (events : List (Value AllocForm × DeallocForm)) : Prop :=
  ∀ i form, (Value.given i, form) ∈ events →
    ∃ index, entry (.param index) = .given i ∧ DeallocationTraverser.Classed types index form

theorem Explained.nil (entry : Env AllocForm) (types : List DeallocType) :
    Explained entry types [] := fun _ _ member => absurd member List.not_mem_nil

theorem Explained.append {entry : Env AllocForm} {types : List DeallocType}
    {events more : List (Value AllocForm × DeallocForm)} (explained : Explained entry types events)
    (rest : Explained entry types more) : Explained entry types (events ++ more) := by
  intro i form member
  rcases List.mem_append.mp member with first | later
  · exact explained i form first
  · exact rest i form later

theorem joinVectors_explains {traverser : DeallocationTraverser} {types : List DeallocType}
    {args : List CodeExpr} {position index : Nat} {type : DeallocType} {form : DeallocForm}
    {e : CodeExpr} (at_types : types[position]? = some type)
    (accounts : DeallocationTraverser.Accounts type form) (at_args : args[position]? = some e)
    (found : traverser.resolveParam e = some index)
    (bound : index < traverser.valPerParam.length) :
    DeallocationTraverser.Classed (traverser.joinVectors types args).valPerParam index form := by
  induction types generalizing traverser args position with
  | nil => simp at at_types
  | cons first types ih =>
      cases args with
      | nil => simp at at_args
      | cons arg args =>
          rw [DeallocationTraverser.joinVectors_cons]
          cases position with
          | zero =>
              simp only [List.getElem?_cons_zero, Option.some.injEq] at at_types at_args
              subst at_types at_args
              rw [if_neg accounts.ne_none]
              apply DeallocationTraverser.joinVectors_classed
              rw [DeallocationTraverser.record, found]
              exact DeallocationTraverser.classed_new bound accounts
          | succ position =>
              rw [List.getElem?_cons_succ] at at_types at_args
              by_cases nothing : first = .none
              · rw [if_pos nothing]
                exact ih at_types at_args found bound
              · rw [if_neg nothing]
                refine ih at_types at_args ?_ ?_
                · rw [(DeallocationTraverser.record_same traverser arg first).resolveParam]
                  exact found
                · rw [DeallocationTraverser.record]
                  cases traverser.resolveParam arg with
                  | none => exact bound
                  | some other =>
                      simpa [DeallocationTraverser.updateVPP] using bound

end Paths

end CppInterOp
