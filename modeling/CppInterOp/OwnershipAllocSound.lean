import CppInterOp.OwnershipAllocPaths

/-!
Soundness of `GetAllocType`: the form of a pointer returned on any path is found as long as
what the traverser knows at each return statement is so on every path to it.
-/

namespace CppInterOp

open PointerPrograms

section Tracking

variable {held : Finset Var} {final : Known}

/-- A variable with an allocated pointer is one of those that may have one, and what is known of
it explains the pointer unless the variable is lost. -/
structure Tracks (held : Finset Var) (final : Known) (lost : Finset Var) (map : VarMap)
    (env : Env AllocForm) : Prop where
  avoids : env.Avoids .made held
  explained : ∀ v, v ∉ lost → Explains final (map.subscript v) (env v)

theorem Tracks.change {lost more : Finset Var} {map later : VarMap} {env next : Env AllocForm}
    (tracks : Tracks held final lost map env) (avoids : next.Avoids .made held)
    (within : lost ⊆ more)
    (same : ∀ v, v ∉ more → v ∉ held ∨ next v = env v ∧ later.subscript v = map.subscript v) :
    Tracks held final more later next where
  avoids := avoids
  explained := by
    intro v fresh
    rcases same v fresh with outside | ⟨value, known⟩
    · exact explains_of_not (avoids v outside) _
    · rw [value, known]
      exact tracks.explained v fun member => fresh (within member)

theorem Tracks.grow {lost : Finset Var} {map : VarMap} {env : Env AllocForm}
    (tracks : Tracks held final lost map env) (more : Finset Var) :
    Tracks held final (lost ∪ more) map env :=
  tracks.change tracks.avoids Finset.subset_union_left fun _ _ => Or.inr ⟨rfl, rfl⟩

/-- What is touched on some way and may have an allocated pointer is at risk. -/
theorem Tracks.shaken {lost : Finset Var} {map later : VarMap} {env next : Env AllocForm}
    (tracks : Tracks held final lost map env) (avoids : next.Avoids .made held)
    {touched : List Var} (value : ∀ v, v ∉ touched → next v = env v)
    (known : ∀ v, v ∉ touched → later.subscript v = map.subscript v) :
    Tracks held final (lost ∪ atRisk held touched) later next := by
  refine tracks.change avoids Finset.subset_union_left fun v fresh => ?_
  rcases (not_at_risk fresh).2 with untouched | outside
  · exact Or.inr ⟨value v untouched, known v untouched⟩
  · exact Or.inl outside

/-- A part of a loop or a switch is executed, or traversed, or both, among variables that may be
lost anyway. -/
theorem Tracks.inside {lost : Finset Var} {whole : List Var} {map later : VarMap}
    {env next : Env AllocForm} (tracks : Tracks held final (lost ∪ atRisk held whole) map env)
    (avoids : next.Avoids .made held) (value : ∀ v, v ∉ whole → next v = env v)
    (known : ∀ v, v ∉ whole → later.subscript v = map.subscript v) :
    Tracks held final (lost ∪ atRisk held whole) later next := by
  refine tracks.change avoids (Finset.Subset.refl _) fun v fresh => ?_
  rcases (not_at_risk fresh).2 with untouched | outside
  · exact Or.inr ⟨value v untouched, known v untouched⟩
  · exact Or.inl outside

/-- Where two branches come together, what neither of them declares is explained by what the one
or the other knows of it. -/
theorem Tracks.of_join {lostThen lostElse : Finset Var} {inThen inElse : List Var} {map : VarMap}
    {env : Env AllocForm} (avoids : env.Avoids .made held)
    (known : ∀ v, v ∉ lostThen → v ∉ lostElse → v ∉ inThen → v ∉ inElse →
      Explains final (map.subscript v) (env v)) :
    Tracks held final (lostThen ∪ lostElse ∪ atRisk held (inThen ++ inElse)) map env := by
  refine ⟨avoids, fun v fresh => ?_⟩
  obtain ⟨fresh_branches, undeclared | outside⟩ := not_at_risk fresh
  · rw [Finset.mem_union, not_or] at fresh_branches
    rw [List.mem_append, not_or] at undeclared
    exact known v fresh_branches.1 fresh_branches.2 undeclared.1 undeclared.2
  · exact explains_of_not (avoids v outside) _

theorem subscript_of_same {v : Var} {before after : AllocationTraverser}
    (same : AllocationTraverser.SameAt v before after) :
    after.varMap.subscript v = before.varMap.subscript v := by
  rw [VarMap.subscript, same.1]
  rfl

theorem subscript_set_other (map : VarMap) {v w : Var} (other : w ≠ v) (known : Known) :
    (map.set v known).subscript w = map.subscript w := by
  rw [VarMap.subscript, map.set_other other]
  rfl

theorem log_subscript (traverser : AllocationTraverser) (v w : Var) :
    (traverser.log v).varMap.subscript w = traverser.varMap.subscript w := by
  by_cases same : w = v
  · subst same
    rw [AllocationTraverser.log]
    split
    · rfl
    · exact VarMap.subscript_set _ _ _
  · exact subscript_of_same (traverser.log_same same)

end Tracking

section Soundness

variable {base : CodeBase} {holders : Nat → Finset Var} {root : Nat}

def rootResult (base : CodeBase) (root : Nat) : Known :=
  (AnalyzeAllocType base (base.length + 1) root (Visited.Table.insert (fun _ => none) root none)).1

def taskHanded : Task AllocForm DeallocForm → List CodeExpr
  | .expr e => exprHanded e
  | .args es => argsHanded es
  | .stmt s => stmtHanded s

def taskLost (base : CodeBase) (held labels lost : Finset Var) :
    Task AllocForm DeallocForm → Finset Var
  | .expr e => lostExpr base held lost e
  | .args es => lostArgs base held lost es
  | .stmt s => lostStmt base held labels lost s

def taskKept (base : CodeBase) (held labels lost : Finset Var) :
    Task AllocForm DeallocForm → Bool
  | .stmt s => keptStmt base held labels lost s
  | _ => true

def traverseTask (base : CodeBase) (fuel : Nat) (traverser : AllocationTraverser) :
    Task AllocForm DeallocForm → AllocationTraverser
  | .expr e => traverser.traverseExpr base (AnalyzeAllocType base fuel) e
  | .args es => traverser.traverseArgs base (AnalyzeAllocType base fuel) es
  | .stmt s => (traverser.traverseStmt base (AnalyzeAllocType base fuel) s).1

def GoesOn : Task AllocForm DeallocForm → Outcome AllocForm → Prop
  | .stmt _, outcome => outcome = .fall
  | _, _ => True

theorem traverseTask_same {fuel : Nat} {traverser : AllocationTraverser}
    {task : Task AllocForm DeallocForm} {v : Var} (untouched : v ∉ task.touched) :
    AllocationTraverser.SameAt v traverser (traverseTask base fuel traverser task) := by
  cases task with
  | expr e => exact AllocationTraverser.traverseExpr_same e traverser untouched
  | args es => exact AllocationTraverser.traverseArgs_same es traverser untouched
  | stmt s =>
      exact AllocationTraverser.traverseStmt_same s traverser fun written =>
        untouched (touched_of_written written)

theorem traverseTask_kept {holds : Known → Prop} (kept : AllocationTraverser.Kept holds)
    (base : CodeBase) (fuel : Nat) {traverser : AllocationTraverser} (here : holds traverser.result)
    (task : Task AllocForm DeallocForm) : holds (traverseTask base fuel traverser task).result := by
  cases task with
  | expr e =>
      rw [traverseTask, AllocationTraverser.traverseExpr_result]
      exact here
  | args es =>
      rw [traverseTask, AllocationTraverser.traverseArgs_result]
      exact here
  | stmt s => exact kept.traverseStmt s here

def Handleable (base : CodeBase) (holders : Nat → Finset Var) (root f : Nat)
    (handed : List CodeExpr) : Prop :=
  ∀ e ∈ handed, ∀ g args, directCall e = some (g, args) → Callable base holders root f g args

theorem Handleable.permits {f : Nat} {handed : List CodeExpr}
    (handleable : Handleable base holders root f handed) (fuel : Nat) :
    ∀ part ∈ handed, AllocationTraverser.Permits base (AnalyzeAllocType base fuel)
      (AnalyzeAllocType base fuel) (ReadyAlloc base root) part := by
  intro part member
  apply AllocationTraverser.permits_of_call
  intro g args call table ready
  have callable := handleable part member g args call
  exact ⟨rfl, (handleCall_certified
    (fun plain table => analysis_certified fuel g plain (callable.reached plain) table) ready).2⟩

theorem traverseTask_ready (fuel : Nat) {f : Nat} {traverser : AllocationTraverser}
    {task : Task AllocForm DeallocForm}
    (handleable : Handleable base holders root f (taskHanded task))
    (ready : ReadyAlloc base root traverser.visitedFuncs) :
    ReadyAlloc base root (traverseTask base fuel traverser task).visitedFuncs := by
  cases task with
  | expr e =>
      exact (AllocationTraverser.traverseExpr_permitted e traverser (handleable.permits fuel)
        ready).2
  | args es =>
      exact (AllocationTraverser.traverseArgs_permitted es traverser (handleable.permits fuel)
        ready).2
  | stmt s =>
      exact (AllocationTraverser.traverseStmt_permitted s traverser (handleable.permits fuel)
        ready).2

theorem kept_explains (final : Known) (value : Value AllocForm) :
    AllocationTraverser.Kept fun known => Explains final known value where
  first := fun explains _ form made => Or.inr ((explains form made).resolve_left nofun)
  join := fun _ b explains => explains.join_left b

structure Standing (base : CodeBase) (holders : Nat → Finset Var) (root f : Nat)
    (task : Task AllocForm DeallocForm) (traverser : AllocationTraverser)
    (lost labels : Finset Var) (env : Env AllocForm) : Prop where
  handleable : Handleable base holders root f (taskHanded task)
  ready : ReadyAlloc base root traverser.visitedFuncs
  closed : task.closed base .made (holders f) = true
  kept : taskKept base (holders f) labels lost task = true
  tracks : Tracks (holders f) (rootResult base root) lost traverser.varMap env

/-- Where it gets to: nothing more can be said of the result, or a returned pointer is explained
by it and what comes next is tracked. -/
def Reaches (base : CodeBase) (holders : Nat → Finset Var) (root f : Nat)
    (task : Task AllocForm DeallocForm) (after : AllocationTraverser) (lost labels : Finset Var)
    (outcome : Outcome AllocForm) (next : Env AllocForm) : Prop :=
  after.result = some .unknown ∨
    (∀ value, outcome = .returned value →
      Explains (rootResult base root) after.result value) ∧
    (GoesOn task outcome →
      Tracks (holders f) (rootResult base root) (taskLost base (holders f) labels lost task)
        after.varMap next)

def Valued (base : CodeBase) (holders : Nat → Finset Var) (root : Nat) :
    Task AllocForm DeallocForm → Env AllocForm → Outcome AllocForm → Prop
  | .expr e, env, .value value =>
      ∀ (f fuel : Nat) (map : VarMap) (table : AllocFuncs) (lost : Finset Var),
        (∀ g args, directCall e = some (g, args) → Callable base holders root f g args) →
        ReadyAlloc base root table → e.closed base .made (holders f) = true →
        followedTo lost e = true → Tracks (holders f) (rootResult base root) lost map env →
          Explains (rootResult base root) (AllocationTraverser.handleExpr base
            (AnalyzeAllocType base fuel) map table e).1 value
  | _, _, _ => True

structure Carried (base : CodeBase) (holders : Nat → Finset Var) (root : Nat)
    (task : Task AllocForm DeallocForm) (env : Env AllocForm) (outcome : Outcome AllocForm)
    (next : Env AllocForm) : Prop where
  reaches : ∀ (f fuel : Nat) (traverser : AllocationTraverser) (lost labels : Finset Var),
    Standing base holders root f task traverser lost labels env →
      Reaches base holders root f task (traverseTask base fuel traverser task) lost labels outcome
        next
  valued : Valued base holders root task env outcome

section Cases

variable {env middle next again : Env AllocForm}
  {first second third events : List (Value AllocForm × DeallocForm)}
  {seen value : Value AllocForm} {outcome last : Outcome AllocForm}
  {f fuel : Nat} {traverser : AllocationTraverser} {lost labels : Finset Var}

theorem handled_explains (fuel : Nat) {e : CodeExpr}
    (run : Run base (.expr e) env events (.value value) next)
    (valued : Valued base holders root (.expr e) env (.value value))
    (callable : ∀ g args, directCall e = some (g, args) → Callable base holders root f g args)
    (ready : ReadyAlloc base root traverser.visitedFuncs)
    (closed : e.closed base .made (holders f) = true)
    (is_handled : handled base (holders f) lost e = true)
    (tracks : Tracks (holders f) (rootResult base root) lost traverser.varMap env) :
    Explains (rootResult base root) (AllocationTraverser.handleExpr base
      (AnalyzeAllocType base fuel) traverser.varMap traverser.visitedFuncs e).1 value := by
  rcases Bool.or_eq_true_iff.mp is_handled with avoids | followed
  · exact explains_of_not ((run.avoids closed tracks.avoids).1 avoids) _
  · exact valued f fuel _ _ lost callable ready closed followed tracks

theorem store_reaches {v : Var} {e : CodeExpr}
    (run : Run base (.expr e) env events (.value value) next)
    (ih : Carried base holders root (.expr e) env (.value value) next)
    (handleable : Handleable base holders root f (e :: exprHanded e))
    (ready : ReadyAlloc base root traverser.visitedFuncs)
    (closed : (Expr.assign v e).closed base .made (holders f) = true)
    (tracks : Tracks (holders f) (rootResult base root) lost traverser.varMap env) :
    let after := (traverser.store base (AnalyzeAllocType base fuel) v e).traverseExpr base
      (AnalyzeAllocType base fuel) e
    after.result = some .unknown ∨
      Tracks (holders f) (rootResult base root) (lostExpr base (holders f) lost (.assign v e))
        after.varMap (next.set v value) := by
  intro after
  have permits := handleable.permits fuel e List.mem_cons_self
  have stored := AllocationTraverser.store_permitted permits ready v
  obtain ⟨_, closed_value⟩ := Bool.and_eq_true_iff.mp closed
  have others : ∀ w, w ≠ v →
      (traverser.store base (AnalyzeAllocType base fuel) v e).varMap.subscript w =
        traverser.varMap.subscript w := fun w other => subscript_set_other _ other _
  have standing : Standing base holders root f (.expr e)
      (traverser.store base (AnalyzeAllocType base fuel) v e) (insert v lost) ∅ env :=
    { handleable := fun part member => handleable part (List.mem_cons_of_mem _ member)
      ready := stored.2
      closed := closed_value
      kept := rfl
      tracks := tracks.change tracks.avoids (Finset.subset_insert v lost) fun w fresh =>
        Or.inr ⟨rfl, others w fun same => fresh (same ▸ Finset.mem_insert_self w lost)⟩ }
  rcases ih.reaches f fuel _ _ ∅ standing with unknown | ⟨_, goes⟩
  · exact Or.inl unknown
  · have inner := goes trivial
    refine Or.inr ⟨?_, fun w fresh => ?_⟩
    · have assigned : Run base (.expr (.assign v e)) env events (.value value)
          (next.set v value) := .assign run
      exact (assigned.avoids closed tracks.avoids).2
    · rw [lostExpr] at fresh
      by_cases same : w = v
      · subst same
        rw [Env.set_same]
        by_cases avoids : e.avoids base .made (holders f) = true
        · exact explains_of_not ((run.avoids closed_value tracks.avoids).1 avoids) _
        · by_cases followed : (followedTo lost e && decide (w ∉ e.touched)) = true
          · obtain ⟨followed, untouched⟩ := Bool.and_eq_true_iff.mp followed
            have known : after.varMap.subscript w = _ :=
              (subscript_of_same (AllocationTraverser.traverseExpr_same e _
                (of_decide_eq_true untouched))).trans (VarMap.subscript_set _ w _)
            rw [known]
            exact ih.valued f fuel _ _ lost (fun g args => handleable e List.mem_cons_self g args)
              ready closed_value followed tracks
          · rw [if_neg (by rw [Bool.or_eq_true]; exact not_or.mpr ⟨avoids, followed⟩)] at fresh
            exact absurd (Finset.mem_insert_self _ _) fresh
      · rw [Env.set_other _ same]
        refine inner.explained w fun member => fresh ?_
        split
        · exact Finset.mem_erase.mpr ⟨same, member⟩
        · exact Finset.mem_insert_of_mem member

theorem assign_carried {v : Var} {e : CodeExpr}
    (run : Run base (.expr e) env events (.value value) next)
    (ih : Carried base holders root (.expr e) env (.value value) next) :
    Carried base holders root (.expr (.assign v e)) env (.value value) (next.set v value) where
  reaches := by
    intro f fuel traverser lost labels standing
    have tracks : Tracks (holders f) (rootResult base root) lost (traverser.log v).varMap env :=
      standing.tracks.change standing.tracks.avoids (Finset.Subset.refl _) fun w _ =>
        Or.inr ⟨rfl, log_subscript traverser v w⟩
    have ready := (traverser.log_visited v).symm ▸ standing.ready
    exact (store_reaches run ih standing.handleable ready standing.closed tracks).imp_right
      fun after => ⟨fun _ returned => (nomatch returned), fun _ => after⟩
  valued := fun _ _ _ _ _ _ _ _ followed _ => nomatch followed

theorem shift_carried {v : Var} {e : CodeExpr} {moved : Value AllocForm}
    (run : Run base (.expr (.shift v e)) env events (.value moved) (next.set v moved))
    (moves : moved = next v ∨ moved = .other)
    (ih : Carried base holders root (.expr e) env (.value seen) next) :
    Carried base holders root (.expr (.shift v e)) env (.value moved) (next.set v moved) where
  reaches := by
    intro f fuel traverser lost labels standing
    let start : AllocationTraverser :=
      { traverser.log v with varMap := (traverser.log v).varMap.set v (some .unknown) }
    have tracks : Tracks (holders f) (rootResult base root) (lost.erase v) start.varMap env := by
      refine ⟨standing.tracks.avoids, fun w fresh => ?_⟩
      by_cases same : w = v
      · subst same
        have known : start.varMap.subscript w = some .unknown := VarMap.subscript_set _ w _
        rw [known]
        exact explains_unknown _
      · have known : start.varMap.subscript w = traverser.varMap.subscript w :=
          (subscript_set_other _ same _).trans (log_subscript traverser v w)
        rw [known]
        exact standing.tracks.explained w fun member =>
          fresh (Finset.mem_erase.mpr ⟨same, member⟩)
    have inner : Standing base holders root f (.expr e) start (lost.erase v) labels env :=
      { standing with
        ready := (traverser.log_visited v).symm ▸ standing.ready
        kept := rfl
        tracks := tracks }
    refine (ih.reaches f fuel _ _ labels inner).imp_right fun ⟨_, goes⟩ =>
      ⟨fun _ returned => (nomatch returned), fun _ =>
        ⟨(run.avoids standing.closed standing.tracks.avoids).2, fun w fresh => ?_⟩⟩
    by_cases same : w = v
    · subst same
      rw [Env.set_same]
      rcases moves with rfl | rfl
      · exact (goes trivial).explained w fresh
      · exact explains_of_not id _
    · rw [Env.set_other _ same]
      exact (goes trivial).explained w fresh
  valued := fun _ _ _ _ _ _ _ _ followed _ => nomatch followed

theorem Handleable.left {handed more : List CodeExpr}
    (handleable : Handleable base holders root f (handed ++ more)) :
    Handleable base holders root f handed :=
  fun e member => handleable e (List.mem_append_left _ member)

theorem Handleable.right {handed more : List CodeExpr}
    (handleable : Handleable base holders root f (handed ++ more)) :
    Handleable base holders root f more :=
  fun e member => handleable e (List.mem_append_right _ member)

theorem then_reaches {task rest : Task AllocForm DeallocForm} {final : Outcome AllocForm}
    (ih : Carried base holders root rest middle final next)
    (ready : ReadyAlloc base root traverser.visitedFuncs)
    (handleable : Handleable base holders root f (taskHanded task))
    (after_task : Reaches base holders root f task (traverseTask base fuel traverser task) lost
      labels outcome middle)
    (goes : GoesOn task outcome) (handleable_rest : Handleable base holders root f (taskHanded rest))
    (closed : rest.closed base .made (holders f) = true)
    (kept :
      taskKept base (holders f) labels (taskLost base (holders f) labels lost task) rest = true) :
    Reaches base holders root f rest
      (traverseTask base fuel (traverseTask base fuel traverser task) rest)
      (taskLost base (holders f) labels lost task) labels final next := by
  rcases after_task with unknown | ⟨_, tracked⟩
  · exact Or.inl (traverseTask_kept AllocationTraverser.kept_unknown base fuel unknown rest)
  · exact ih.reaches f fuel _ _ labels
      { handleable := handleable_rest
        ready := traverseTask_ready fuel handleable ready
        closed := closed
        kept := kept
        tracks := tracked goes }

theorem comma_carried {a b : CodeExpr}
    (iha : Carried base holders root (.expr a) env (.value seen) middle)
    (ihb : Carried base holders root (.expr b) middle (.value value) next) :
    Carried base holders root (.expr (.comma a b)) env (.value value) next where
  reaches := by
    intro f fuel traverser lost labels standing
    obtain ⟨closed_a, closed_b⟩ := Bool.and_eq_true_iff.mp standing.closed
    have first := iha.reaches f fuel traverser lost labels
      { standing with
        handleable := standing.handleable.left, closed := closed_a, kept := rfl }
    exact then_reaches ihb standing.ready standing.handleable.left first trivial
      standing.handleable.right closed_b rfl
  valued := fun _ _ _ _ _ _ _ _ followed _ => nomatch followed

theorem argsCons_carried {e : CodeExpr} {es : List CodeExpr} {passed : List (Value AllocForm)}
    (ihe : Carried base holders root (.expr e) env (.value value) middle)
    (ihes : Carried base holders root (.args es) middle (.values passed) next) :
    Carried base holders root (.args (e :: es)) env (.values (value :: passed)) next where
  reaches := by
    intro f fuel traverser lost labels standing
    obtain ⟨closed_e, closed_es⟩ := Bool.and_eq_true_iff.mp standing.closed
    have first := ihe.reaches f fuel traverser lost labels
      { standing with
        handleable := standing.handleable.left, closed := closed_e, kept := rfl }
    have rest := then_reaches ihes standing.ready standing.handleable.left first trivial
      standing.handleable.right closed_es rfl
    exact rest.imp_right fun after => ⟨fun _ returned => (nomatch returned), after.2⟩
  valued := trivial

theorem cond_reaches {c a b : CodeExpr}
    (run : Run base (.expr (.cond c a b)) env events (.value value) next)
    (ihc : Carried base holders root (.expr c) env (.value seen) middle)
    (chosen : ∀ v, v ∉ a.touched → v ∉ b.touched → next v = middle v)
    (standing : Standing base holders root f (.expr (.cond c a b)) traverser lost labels env) :
    Reaches base holders root f (.expr (.cond c a b))
      (traverseTask base fuel traverser (.expr (.cond c a b))) lost labels (.value value) next := by
  have closed := standing.closed
  simp only [Task.closed, Expr.closed, Bool.and_eq_true] at closed
  have tested := ihc.reaches f fuel traverser lost labels
    { standing with
      handleable := standing.handleable.left.left, closed := closed.1.1, kept := rfl }
  rcases tested with unknown | ⟨_, goes⟩
  · refine Or.inl ?_
    have after_first := traverseTask_kept AllocationTraverser.kept_unknown base fuel unknown (.expr a)
    exact traverseTask_kept AllocationTraverser.kept_unknown base fuel after_first (.expr b)
  · refine Or.inr ⟨fun _ returned => (by cases returned), fun _ => ?_⟩
    have avoids := (run.avoids standing.closed standing.tracks.avoids).2
    refine (goes trivial).change avoids
      (Finset.subset_union_left.trans Finset.subset_union_left) fun v fresh => ?_
    obtain ⟨fresh_a, risk_b⟩ := not_at_risk fresh
    rcases (not_at_risk fresh_a).2 with untouched_a | outside
    · rcases risk_b with untouched_b | outside
      · refine Or.inr ⟨chosen v untouched_a untouched_b, ?_⟩
        exact (subscript_of_same (AllocationTraverser.traverseExpr_same b _ untouched_b)).trans
          (subscript_of_same (AllocationTraverser.traverseExpr_same a _ untouched_a))
      · exact Or.inl outside
    · exact Or.inl outside

theorem expr_carried {e : CodeExpr} (ih : Carried base holders root (.expr e) env (.value value) next) :
    Carried base holders root (.stmt (.expr e)) env .fall next where
  reaches := by
    intro f fuel traverser lost labels standing
    refine (ih.reaches f fuel traverser lost labels { standing with kept := rfl }).imp_right ?_
    exact fun ⟨_, goes⟩ => ⟨fun _ returned => (nomatch returned), fun _ => goes trivial⟩
  valued := trivial

theorem dealloc_carried {form : DeallocForm} {e : CodeExpr}
    (ih : Carried base holders root (.expr e) env (.value value) next) :
    Carried base holders root (.stmt (.dealloc form e)) env .fall next where
  reaches := by
    intro f fuel traverser lost labels standing
    refine (ih.reaches f fuel traverser lost labels { standing with kept := rfl }).imp_right ?_
    exact fun ⟨_, goes⟩ => ⟨fun _ returned => (nomatch returned), fun _ => goes trivial⟩
  valued := trivial

theorem declare_carried {name : Nat} :
    Carried base holders root (.stmt (.decl name none)) env .fall (env.set (.own name) .other) where
  reaches := by
    intro f fuel traverser lost labels standing
    refine Or.inr ⟨fun _ returned => (nomatch returned), fun _ =>
      ⟨standing.tracks.avoids.set (Or.inr id), fun v fresh => ?_⟩⟩
    by_cases same : v = .own name
    · rw [same, Env.set_same]
      exact explains_of_not id _
    · rw [Env.set_other _ same]
      have known : (traverseTask base fuel traverser (.stmt (.decl name none))).varMap.subscript v =
          traverser.varMap.subscript v := subscript_set_other _ same _
      rw [known]
      exact standing.tracks.explained v fun member => fresh (Finset.mem_erase.mpr ⟨same, member⟩)
  valued := trivial

theorem decl_carried {name : Nat} {e : CodeExpr}
    (run : Run base (.expr e) env events (.value value) next)
    (ih : Carried base holders root (.expr e) env (.value value) next) :
    Carried base holders root (.stmt (.decl name (some e))) env .fall
      (next.set (.own name) value) where
  reaches := by
    intro f fuel traverser lost labels standing
    exact (store_reaches run ih standing.handleable standing.ready standing.closed
      standing.tracks).imp_right
        fun after => ⟨fun _ returned => (nomatch returned), fun _ => after⟩
  valued := trivial

theorem seq_stop {s t : Code}
    (stops : (traverser.traverseStmt base (AnalyzeAllocType base fuel) s).2 = false) :
    (traverseTask base fuel traverser (.stmt (.seq s t))).result = some .unknown := by
  rw [traverseTask, AllocationTraverser.traverseStmt, if_neg (by rw [stops]; exact Bool.false_ne_true)]
  exact AllocationTraverser.traverseStmt_stopped s stops

theorem seq_go {s t : Code}
    (goes : (traverser.traverseStmt base (AnalyzeAllocType base fuel) s).2 = true) :
    traverseTask base fuel traverser (.stmt (.seq s t)) =
      traverseTask base fuel (traverseTask base fuel traverser (.stmt s)) (.stmt t) := by
  rw [traverseTask, AllocationTraverser.traverseStmt, if_pos goes]
  rfl

theorem seq_carried {s t : Code} (ihs : Carried base holders root (.stmt s) env .fall middle)
    (iht : Carried base holders root (.stmt t) middle outcome next) :
    Carried base holders root (.stmt (.seq s t)) env outcome next where
  reaches := by
    intro f fuel traverser lost labels standing
    obtain ⟨closed_s, closed_t⟩ := Bool.and_eq_true_iff.mp standing.closed
    obtain ⟨kept_s, kept_t⟩ := Bool.and_eq_true_iff.mp standing.kept
    cases goes : (traverser.traverseStmt base (AnalyzeAllocType base fuel) s).2 with
    | false => exact Or.inl (seq_stop goes)
    | true =>
        have first := ihs.reaches f fuel traverser lost labels
          { standing with
            handleable := standing.handleable.left, closed := closed_s, kept := kept_s }
        rw [seq_go goes]
        exact then_reaches iht standing.ready standing.handleable.left first rfl
          standing.handleable.right closed_t kept_t
  valued := trivial

/-- What a statement leaves to be said after a later part is traversed that is not executed. -/
theorem Reaches.returned {task : Task AllocForm DeallocForm} {after : AllocationTraverser}
    (reaches : Reaches base holders root f task after lost labels outcome next) {value : Value AllocForm}
    (returns : outcome = .returned value) (fuel : Nat) (rest : Task AllocForm DeallocForm) :
    (traverseTask base fuel after rest).result = some .unknown ∨
      Explains (rootResult base root) (traverseTask base fuel after rest).result value := by
  rcases reaches with unknown | ⟨explained, _⟩
  · exact Or.inl (traverseTask_kept AllocationTraverser.kept_unknown base fuel unknown rest)
  · exact Or.inr (traverseTask_kept (kept_explains _ value) base fuel (explained value returns) rest)

theorem seqStop_carried {s t : Code} (stops : outcome ≠ .fall)
    (ihs : Carried base holders root (.stmt s) env outcome next) :
    Carried base holders root (.stmt (.seq s t)) env outcome next where
  reaches := by
    intro f fuel traverser lost labels standing
    obtain ⟨closed_s, _⟩ := Bool.and_eq_true_iff.mp standing.closed
    obtain ⟨kept_s, _⟩ := Bool.and_eq_true_iff.mp standing.kept
    cases goes : (traverser.traverseStmt base (AnalyzeAllocType base fuel) s).2 with
    | false => exact Or.inl (seq_stop goes)
    | true =>
        have first := ihs.reaches f fuel traverser lost labels
          { standing with
            handleable := standing.handleable.left, closed := closed_s, kept := kept_s }
        rw [seq_go goes]
        rcases first with unknown | ⟨explained, _⟩
        · exact Or.inl
            (traverseTask_kept AllocationTraverser.kept_unknown base fuel unknown (.stmt t))
        · exact Or.inr ⟨fun value returns => traverseTask_kept (kept_explains _ value) base fuel
            (explained value returns) (.stmt t), fun falls => absurd falls stops⟩
  valued := trivial

theorem ret_carried {e : CodeExpr} (run : Run base (.expr e) env events (.value value) next)
    (ih : Carried base holders root (.expr e) env (.value value) next) :
    Carried base holders root (.stmt (.ret e)) env (.returned value) next where
  reaches := by
    intro f fuel traverser lost labels standing
    refine Or.inr ⟨fun returned same => ?_, fun falls => by cases falls⟩
    obtain rfl := Outcome.returned.inj same
    have explained := handled_explains fuel run ih.valued
      (fun g args => standing.handleable e List.mem_cons_self g args) standing.ready
      standing.closed standing.kept standing.tracks
    have visited : Explains (rootResult base root)
        (traverser.visitReturnStmt base (AnalyzeAllocType base fuel) e).1.result value := by
      rcases AllocationTraverser.visitReturnStmt_cases traverser rfl with
        ⟨missing, result, _⟩ | ⟨_, result, _⟩ | ⟨result, _⟩
      · rw [missing] at explained
        rw [result]
        exact (kept_explains _ value).first explained _
      · rwa [result]
      · rw [result]
        exact explained.join_right _
    rw [traverseTask, AllocationTraverser.traverseStmt]
    split
    · rw [AllocationTraverser.traverseExpr_result]
      exact visited
    · exact visited
  valued := trivial

/-- Whatever a task does, what it does not touch stays tracked. -/
theorem Standing.around {task : Task AllocForm DeallocForm}
    (standing : Standing base holders root f task traverser lost labels env)
    (run : Run base task env events outcome next) (fuel : Nat) :
    Tracks (holders f) (rootResult base root) (lost ∪ atRisk (holders f) task.touched)
      (traverseTask base fuel traverser task).varMap next :=
  standing.tracks.shaken (run.avoids standing.closed standing.tracks.avoids).2
    (fun _ untouched => run.frame untouched)
    fun _ untouched => subscript_of_same (traverseTask_same untouched)

/-- The branches of an if statement, with what is known where they start and how they are
joined. -/
theorem ite_state (init test s t : Code) :
    let tested := traverseTask base fuel traverser (.stmt test)
    let thenBranch := traverseTask base fuel tested.enter (.stmt s)
    traverseTask base fuel traverser (.stmt (.ite init test s t)) =
      if t.isAbsent then AllocationTraverser.joinThen tested thenBranch
      else AllocationTraverser.joinElse tested thenBranch
        (traverseTask base fuel thenBranch.undoOnVarMap.enter (.stmt t)) := by
  intro tested thenBranch
  rw [traverseTask, AllocationTraverser.traverseStmt]
  split
  · rfl
  · rfl

/-- What the result is after the then branch is kept to the end of the if statement. -/
theorem ite_kept {holds : Known → Prop} (kept : AllocationTraverser.Kept holds)
    {init test s t : Code}
    (here : holds (traverseTask base fuel
      (traverseTask base fuel traverser (.stmt test)).enter (.stmt s)).result) :
    holds (traverseTask base fuel traverser (.stmt (.ite init test s t))).result := by
  rw [ite_state]
  split
  · exact here
  · have undone : holds (traverseTask base fuel (traverseTask base fuel traverser
        (.stmt test)).enter (.stmt s)).undoOnVarMap.enter.result := here
    exact traverseTask_kept kept base fuel undone (.stmt t)

theorem ite_kept_test {holds : Known → Prop} (kept : AllocationTraverser.Kept holds)
    {init test s t : Code} (here : holds (traverseTask base fuel traverser (.stmt test)).result) :
    holds (traverseTask base fuel traverser (.stmt (.ite init test s t))).result := by
  apply ite_kept kept
  have entered : holds (traverseTask base fuel traverser (.stmt test)).enter.result := here
  exact traverseTask_kept kept base fuel entered (.stmt s)

theorem chosen_reaches {init test s t : Code} {declaredEnv : Env AllocForm}
    (run_init : Run base (.stmt init) env first .fall declaredEnv)
    (ihc : Carried base holders root (.stmt test) declaredEnv .fall middle)
    (standing : Standing base holders root f (.stmt (.ite init test s t)) traverser lost labels env)
    (fuel : Nat) :
    (traverseTask base fuel traverser (.stmt test)).result = some .unknown ∨
      Tracks (holders f) (rootResult base root)
        (lostStmt base (holders f) labels (lost ∪ atRisk (holders f) init.touched) test)
        (traverseTask base fuel traverser (.stmt test)).varMap middle := by
  have closed := standing.closed
  have kept := standing.kept
  simp only [Task.closed, Stmt.closed, Bool.and_eq_true] at closed
  simp only [taskKept, keptStmt, Bool.and_eq_true] at kept
  have entered : Tracks (holders f) (rootResult base root)
      (lost ∪ atRisk (holders f) init.touched) traverser.varMap declaredEnv :=
    standing.tracks.shaken (run_init.avoids closed.1.1.1 standing.tracks.avoids).2
      (fun _ untouched => run_init.frame untouched) fun _ _ => rfl
  have tested := ihc.reaches f fuel traverser _ labels
    { handleable := standing.handleable.left.left
      ready := standing.ready
      closed := closed.1.1.2
      kept := kept.1.1
      tracks := entered }
  exact tested.imp_right fun after => after.2 rfl

theorem iteThen_carried {init test s t : Code} {declaredEnv : Env AllocForm}
    (run_init : Run base (.stmt init) env first .fall declaredEnv)
    (run : Run base (.stmt s) middle events outcome next)
    (ihc : Carried base holders root (.stmt test) declaredEnv .fall middle)
    (ihs : Carried base holders root (.stmt s) middle outcome next) :
    Carried base holders root (.stmt (.ite init test s t)) env outcome next where
  reaches := by
    intro f fuel traverser lost labels standing
    have closed := standing.closed
    have kept := standing.kept
    simp only [Task.closed, Stmt.closed, Bool.and_eq_true] at closed
    simp only [taskKept, keptStmt, Bool.and_eq_true] at kept
    have ready : ReadyAlloc base root
        (traverseTask base fuel traverser (.stmt test)).visitedFuncs :=
      traverseTask_ready fuel standing.handleable.left.left standing.ready
    let tested := traverseTask base fuel traverser (.stmt test)
    let thenBranch := traverseTask base fuel tested.enter (.stmt s)
    let elseBranch := traverseTask base fuel thenBranch.undoOnVarMap.enter (.stmt t)
    rcases chosen_reaches run_init ihc standing fuel with unknown | tracks
    · exact Or.inl (ite_kept_test AllocationTraverser.kept_unknown unknown)
    · have branch := ihs.reaches f fuel tested.enter _ labels
        { handleable := standing.handleable.left.right
          ready := ready
          closed := closed.1.2
          kept := kept.1.2
          tracks := tracks }
      rcases branch with unknown | ⟨explained, goes⟩
      · exact Or.inl (ite_kept AllocationTraverser.kept_unknown unknown)
      · refine Or.inr ⟨fun value returns => ite_kept (kept_explains _ value)
          (explained value returns), fun falls => ?_⟩
        rw [ite_state]
        rw [taskLost, lostStmt]
        refine .of_join (run.avoids closed.1.2 tracks.avoids).2
          fun v fresh _ undeclared undeclared_else => ?_
        have logged : AllocationTraverser.Logged v tested.enter thenBranch :=
          AllocationTraverser.traverseStmt_logged v s tested.enter undeclared
        have known := (goes falls).explained v fresh
        split
        · exact joinThen_explains logged (Or.inl known)
        · exact joinElse_explains logged
            (AllocationTraverser.traverseStmt_logged v t _ undeclared_else) (Or.inl known)
  valued := trivial

theorem iteElse_carried {init test s t : Code} {declaredEnv : Env AllocForm}
    (run_init : Run base (.stmt init) env first .fall declaredEnv)
    (run : Run base (.stmt t) middle events outcome next)
    (ihc : Carried base holders root (.stmt test) declaredEnv .fall middle)
    (iht : Carried base holders root (.stmt t) middle outcome next) :
    Carried base holders root (.stmt (.ite init test s t)) env outcome next where
  reaches := by
    intro f fuel traverser lost labels standing
    have closed := standing.closed
    have kept := standing.kept
    simp only [Task.closed, Stmt.closed, Bool.and_eq_true] at closed
    simp only [taskKept, keptStmt, Bool.and_eq_true] at kept
    have ready : ReadyAlloc base root
        (traverseTask base fuel traverser (.stmt test)).visitedFuncs :=
      traverseTask_ready fuel standing.handleable.left.left standing.ready
    let tested := traverseTask base fuel traverser (.stmt test)
    let thenBranch := traverseTask base fuel tested.enter (.stmt s)
    let elseBranch := traverseTask base fuel thenBranch.undoOnVarMap.enter (.stmt t)
    have ready_then : ReadyAlloc base root thenBranch.visitedFuncs :=
      traverseTask_ready fuel standing.handleable.left.right ready
    rcases chosen_reaches run_init ihc standing fuel with unknown | tracks
    · exact Or.inl (ite_kept_test AllocationTraverser.kept_unknown unknown)
    · rw [Reaches, ite_state]
      have avoids := (run.avoids closed.2 tracks.avoids).2
      have logged : ∀ v, v ∉ declared s →
          AllocationTraverser.Logged v tested.enter thenBranch := fun v outside =>
        AllocationTraverser.traverseStmt_logged v s tested.enter outside
      -- the else branch starts from what was known before the then branch
      have undone := tracks.shaken tracks.avoids
        (fun _ _ => rfl) fun v outside => AllocationTraverser.undo_subscript (logged v outside)
      have branch := iht.reaches f fuel thenBranch.undoOnVarMap.enter _ labels
        { handleable := standing.handleable.right
          ready := ready_then
          closed := closed.2
          kept := kept.2
          tracks := undone }
      by_cases absent : t.isAbsent = true
      · rw [if_pos absent]
        cases t with
        | absent =>
            cases run with
            | absent =>
                rw [taskLost, lostStmt]
                refine Or.inr ⟨fun _ returned => (by cases returned), fun _ => .of_join avoids
                  fun v _ fresh undeclared _ => ?_⟩
                exact joinThen_explains (logged v undeclared) (Or.inr (tracks.explained v
                  fun member => fresh (Finset.mem_union_left _ member)))
        | _ => cases absent
      · rw [if_neg absent]
        rcases branch with unknown | ⟨explained, goes⟩
        · exact Or.inl unknown
        · rw [taskLost, lostStmt]
          refine Or.inr ⟨explained, fun falls => .of_join avoids
            fun v _ fresh undeclared undeclared_else => ?_⟩
          exact joinElse_explains (logged v undeclared)
            (AllocationTraverser.traverseStmt_logged v t _ undeclared_else)
            (Or.inr ((goes falls).explained v fresh))
  valued := trivial

theorem loop_standing {c inc : CodeExpr} {body : Code} {tested : Env AllocForm}
    (run : Run base (.expr c) env first (.value seen) tested)
    (standing : Standing base holders root f (.stmt (.loop c inc body)) traverser lost labels env)
    (fuel : Nat) :
    Standing base holders root f (.stmt body)
      (traverseTask base fuel (traverseTask base fuel traverser (.expr c)) (.expr inc))
      (lost ∪ atRisk (holders f) (c.touched ++ inc.touched ++ body.touched)) labels tested := by
  have closed := standing.closed
  simp only [Task.closed, Stmt.closed, Bool.and_eq_true] at closed
  have in_cond : Handleable base holders root f (taskHanded (.expr c)) :=
    standing.handleable.left.left
  have in_inc : Handleable base holders root f (taskHanded (.expr inc)) :=
    standing.handleable.left.right
  refine ⟨standing.handleable.right,
    traverseTask_ready fuel in_inc (traverseTask_ready fuel in_cond standing.ready), closed.2,
    standing.kept, ?_⟩
  refine standing.tracks.shaken (run.avoids closed.1.1 standing.tracks.avoids).2
    (fun v untouched => run.frame fun member => untouched ?_) fun v untouched => ?_
  · exact List.mem_append_left _ (List.mem_append_left _ member)
  · simp only [List.mem_append, not_or] at untouched
    have after_cond : (traverseTask base fuel traverser (.expr c)).varMap.subscript v =
        traverser.varMap.subscript v :=
      subscript_of_same (AllocationTraverser.traverseExpr_same c traverser untouched.1.1)
    exact (subscript_of_same (AllocationTraverser.traverseExpr_same inc _ untouched.1.2)).trans
      after_cond

theorem loopDone_carried {c inc : CodeExpr} {body : Code}
    (run : Run base (.expr c) env events (.value seen) next) :
    Carried base holders root (.stmt (.loop c inc body)) env .fall next where
  reaches := fun _ fuel _ _ _ standing => Or.inr
    ⟨fun _ returned => (nomatch returned), fun _ => standing.around (.loopDone run) fuel⟩
  valued := trivial

theorem leave_returned {outcome : Outcome AllocForm} {value : Value AllocForm}
    (returns : outcome.leave = .returned value) : outcome = .returned value := by
  cases outcome with
  | returned given => exact returns
  | value given => cases returns
  | values given => cases returns
  | fall => cases returns
  | broke => cases returns
  | continued => cases returns

theorem loopLeft_carried {c inc : CodeExpr} {body : Code}
    (run : Run base (.expr c) env first (.value seen) middle)
    (run_body : Run base (.stmt body) middle events outcome next) (not_fall : outcome ≠ .fall)
    (not_continued : outcome ≠ .continued)
    (ihb : Carried base holders root (.stmt body) middle outcome next) :
    Carried base holders root (.stmt (.loop c inc body)) env outcome.leave next where
  reaches := by
    intro f fuel traverser lost labels standing
    have whole : Run base (.stmt (.loop c inc body)) env (first ++ events) outcome.leave next :=
      .loopLeft run run_body not_fall not_continued
    have after_loop := standing.around whole fuel
    rcases ihb.reaches f fuel _ _ labels (loop_standing run standing fuel) with
      unknown | ⟨explained, _⟩
    · exact Or.inl unknown
    · exact Or.inr ⟨fun value returns => explained value (leave_returned returns),
        fun _ => after_loop⟩
  valued := trivial

theorem loopNext_carried {c inc : CodeExpr} {body : Code} {tested : Env AllocForm}
    (run : Run base (.expr c) env first (.value seen) tested)
    (run_body : Run base (.stmt body) tested second outcome middle)
    (goes : outcome = .fall ∨ outcome = .continued)
    (run_inc : Run base (.expr inc) middle third (.value value) again)
    (run_again : Run base (.stmt (.loop c inc body)) again events last next)
    (ihl : Carried base holders root (.stmt (.loop c inc body)) again last next) :
    Carried base holders root (.stmt (.loop c inc body)) env last next where
  reaches := by
    intro f fuel traverser lost labels standing
    have after_loop := standing.around (.loopNext run run_body goes run_inc run_again) fuel
    have closed := standing.closed
    simp only [Task.closed, Stmt.closed, Bool.and_eq_true] at closed
    have tested_avoids := (run.avoids closed.1.1 standing.tracks.avoids).2
    have body_avoids := (run_body.avoids closed.2 tested_avoids).2
    have kept : taskKept base (holders f) labels
        (lost ∪ atRisk (holders f) (c.touched ++ inc.touched ++ body.touched))
        (.stmt (.loop c inc body)) = true := by
      simpa only [taskKept, keptStmt, Finset.union_assoc, Finset.union_self] using standing.kept
    have once : Tracks (holders f) (rootResult base root)
        (lost ∪ atRisk (holders f) (c.touched ++ inc.touched ++ body.touched)) traverser.varMap
        again := by
      refine standing.tracks.shaken (run_inc.avoids closed.1.2 body_avoids).2
        (fun v untouched => ?_) fun _ _ => rfl
      simp only [List.mem_append, not_or] at untouched
      exact ((run_inc.frame untouched.1.2).trans (run_body.frame untouched.2)).trans
        (run.frame untouched.1.1)
    rcases ihl.reaches f fuel traverser _ labels { standing with kept := kept, tracks := once } with
      unknown | ⟨explained, _⟩
    · exact Or.inl unknown
    · exact Or.inr ⟨explained, fun _ => after_loop⟩
  valued := trivial

theorem do_kept {holds : Known → Prop} (kept : AllocationTraverser.Kept holds) {body : Code}
    {c : CodeExpr} (here : holds (traverseTask base fuel traverser (.stmt body)).result) :
    holds (traverseTask base fuel traverser (.stmt (.doWhile body c))).result := by
  rw [traverseTask, AllocationTraverser.traverseStmt]
  split
  · exact traverseTask_kept kept base fuel here (.expr c)
  · exact here

theorem do_standing {c : CodeExpr} {body : Code}
    (standing : Standing base holders root f (.stmt (.doWhile body c)) traverser lost labels env) :
    Standing base holders root f (.stmt body) traverser
      (lost ∪ atRisk (holders f) (body.touched ++ c.touched)) labels env where
  handleable := standing.handleable.left
  ready := standing.ready
  closed := (Bool.and_eq_true_iff.mp standing.closed).1
  kept := standing.kept
  tracks := standing.tracks.grow _

theorem doDone_carried {body : Code} {c : CodeExpr}
    (run_body : Run base (.stmt body) env first outcome middle)
    (goes : outcome = .fall ∨ outcome = .continued)
    (run : Run base (.expr c) middle events (.value seen) next) :
    Carried base holders root (.stmt (.doWhile body c)) env .fall next where
  reaches := fun _ fuel _ _ _ standing => Or.inr ⟨fun _ returned => (nomatch returned),
    fun _ => standing.around (.doDone run_body goes run) fuel⟩
  valued := trivial

theorem doLeft_carried {body : Code} {c : CodeExpr}
    (run_body : Run base (.stmt body) env events outcome next) (not_fall : outcome ≠ .fall)
    (not_continued : outcome ≠ .continued)
    (ihb : Carried base holders root (.stmt body) env outcome next) :
    Carried base holders root (.stmt (.doWhile body c)) env outcome.leave next where
  reaches := by
    intro f fuel traverser lost labels standing
    have whole : Run base (.stmt (.doWhile body c)) env events outcome.leave next :=
      .doLeft run_body not_fall not_continued
    have after_loop := standing.around whole fuel
    rcases ihb.reaches f fuel traverser _ labels (do_standing standing) with
      unknown | ⟨explained, _⟩
    · exact Or.inl (do_kept AllocationTraverser.kept_unknown unknown)
    · exact Or.inr ⟨fun value returns => do_kept (kept_explains _ value)
        (explained value (leave_returned returns)), fun _ => after_loop⟩
  valued := trivial

theorem doNext_carried {body : Code} {c : CodeExpr}
    (run_body : Run base (.stmt body) env first outcome middle)
    (goes : outcome = .fall ∨ outcome = .continued)
    (run : Run base (.expr c) middle second (.value seen) again)
    (run_again : Run base (.stmt (.doWhile body c)) again events last next)
    (ihl : Carried base holders root (.stmt (.doWhile body c)) again last next) :
    Carried base holders root (.stmt (.doWhile body c)) env last next where
  reaches := by
    intro f fuel traverser lost labels standing
    have after_loop := standing.around (.doNext run_body goes run run_again) fuel
    obtain ⟨closed_body, closed_cond⟩ := Bool.and_eq_true_iff.mp standing.closed
    have body_avoids := (run_body.avoids closed_body standing.tracks.avoids).2
    have kept : taskKept base (holders f) labels
        (lost ∪ atRisk (holders f) (body.touched ++ c.touched)) (.stmt (.doWhile body c)) = true := by
      simpa only [taskKept, keptStmt, Finset.union_assoc, Finset.union_self] using standing.kept
    have once : Tracks (holders f) (rootResult base root)
        (lost ∪ atRisk (holders f) (body.touched ++ c.touched)) traverser.varMap again := by
      refine standing.tracks.shaken (run.avoids closed_cond body_avoids).2
        (fun v untouched => ?_) fun _ _ => rfl
      rw [List.mem_append, not_or] at untouched
      exact (run.frame untouched.2).trans (run_body.frame untouched.1)
    rcases ihl.reaches f fuel traverser _ labels { standing with kept := kept, tracks := once } with
      unknown | ⟨explained, _⟩
    · exact Or.inl unknown
    · exact Or.inr ⟨explained, fun _ => after_loop⟩
  valued := trivial

theorem switchNone_carried {c : CodeExpr} {body : Code}
    (run : Run base (.expr c) env events (.value seen) next) :
    Carried base holders root (.stmt (.switch c body)) env .fall next where
  reaches := fun _ fuel _ _ _ standing => Or.inr
    ⟨fun _ returned => (nomatch returned), fun _ => standing.around (.switchNone run) fuel⟩
  valued := trivial

theorem entries_handed {body entry : Code} (member : entry ∈ body.entries) :
    ∀ e ∈ stmtHanded entry, e ∈ stmtHanded body := by
  fun_induction Stmt.entries body with
  | case1 s t ih =>
      rcases List.mem_cons.mp member with rfl | later
      · exact fun _ inside => inside
      · exact fun e inside => List.mem_append_right _ (ih later e inside)
  | case2 s t _ ih => exact fun e inside => List.mem_append_right _ (ih member e inside)
  | case3 s =>
      obtain rfl := List.mem_singleton.mp member
      exact fun _ inside => inside
  | case4 s _ _ _ => exact absurd member List.not_mem_nil

/-- A traversal comes to the statements behind a label in some state, which differs from the one
at the start of the switch in what stands before the label. -/
def EntersAt (base : CodeBase) (root fuel : Nat) (body entry : Code) : Prop :=
  ∀ traverser : AllocationTraverser, ReadyAlloc base root traverser.visitedFuncs →
    ∃ state : AllocationTraverser, ReadyAlloc base root state.visitedFuncs ∧
      (∀ v, v ∉ body.touched → state.varMap.subscript v = traverser.varMap.subscript v) ∧
      ((traverseTask base fuel traverser (.stmt body)).result = some .unknown ∨
        traverseTask base fuel traverser (.stmt body) =
          traverseTask base fuel state (.stmt entry))

theorem EntersAt.here (fuel : Nat) (body : Code) : EntersAt base root fuel body body :=
  fun traverser ready => ⟨traverser, ready, fun _ _ => rfl, Or.inr rfl⟩

theorem EntersAt.seq {s t entry : Code}
    (handleable : Handleable base holders root f (taskHanded (.stmt s)))
    (enters : EntersAt base root fuel t entry) : EntersAt base root fuel (.seq s t) entry := by
  intro traverser ready
  obtain ⟨state, ready_state, untouched, reached⟩ :=
    enters _ (traverseTask_ready fuel handleable ready)
  refine ⟨state, ready_state, fun v outside => ?_, ?_⟩
  · rw [Stmt.touched, List.mem_append, not_or] at outside
    exact (untouched v outside.2).trans
      (subscript_of_same (AllocationTraverser.traverseStmt_same s traverser fun written =>
        outside.1 (touched_of_written written)))
  · cases goes : (traverser.traverseStmt base (AnalyzeAllocType base fuel) s).2 with
    | false => exact Or.inl (seq_stop goes)
    | true =>
        rw [seq_go goes]
        exact reached

theorem entries_entered (fuel : Nat) {body entry : Code} (member : entry ∈ body.entries)
    (handleable : Handleable base holders root f (stmtHanded body)) :
    EntersAt base root fuel body entry := by
  fun_induction Stmt.entries body with
  | case1 s t ih =>
      rcases List.mem_cons.mp member with rfl | later
      · exact .here fuel _
      · exact (ih later handleable.right).seq handleable.left
  | case2 s t _ ih => exact (ih member handleable.right).seq handleable.left
  | case3 s =>
      obtain rfl := List.mem_singleton.mp member
      exact .here fuel _
  | case4 s _ _ _ => exact absurd member List.not_mem_nil

/-- A switch enters its body at a statement whose returned pointers are explained with what may
be lost at a label. -/
theorem entries_kept {held labels : Finset Var} {body entry : Code} (member : entry ∈ body.entries)
    {lost : Finset Var} (kept : keptStmt base held labels lost body = true) :
    ∃ here, keptStmt base held labels (here ∪ labels) entry = true := by
  fun_induction Stmt.entries body generalizing lost with
  | case1 s t ih =>
      rw [keptStmt, Bool.and_eq_true] at kept
      rcases List.mem_cons.mp member with rfl | later
      · refine ⟨lost, ?_⟩
        simp only [keptStmt, lostStmt, Finset.union_assoc, Finset.union_self,
          Bool.and_eq_true] at kept ⊢
        exact kept
      · exact ih later kept.2
  | case2 s t _ ih =>
      rw [keptStmt, Bool.and_eq_true] at kept
      exact ih member kept.2
  | case3 s =>
      obtain rfl := List.mem_singleton.mp member
      refine ⟨lost, ?_⟩
      simp only [keptStmt, Finset.union_assoc, Finset.union_self] at kept ⊢
      exact kept
  | case4 s _ _ _ => exact absurd member List.not_mem_nil

theorem switch_carried {c : CodeExpr} {body entry : Code} (member : entry ∈ body.entries)
    (run : Run base (.expr c) env first (.value seen) middle)
    (run_entry : Run base (.stmt entry) middle events outcome next)
    (ihe : Carried base holders root (.stmt entry) middle outcome next) :
    Carried base holders root (.stmt (.switch c body)) env outcome.leave next where
  reaches := by
    intro f fuel traverser lost labels standing
    have whole : Run base (.stmt (.switch c body)) env (first ++ events) outcome.leave next :=
      .switch run member run_entry
    have after_switch := standing.around whole fuel
    obtain ⟨closed_cond, closed_body⟩ := Bool.and_eq_true_iff.mp standing.closed
    obtain ⟨here, kept⟩ := entries_kept member standing.kept
    have in_cond : Handleable base holders root f (taskHanded (.expr c)) := standing.handleable.left
    obtain ⟨state, ready, untouched, reached⟩ := entries_entered fuel member
      standing.handleable.right _ (traverseTask_ready fuel in_cond standing.ready)
    have tracks : Tracks (holders f) (rootResult base root)
        (here ∪ (lost ∪ atRisk (holders f) (c.touched ++ body.touched))) state.varMap middle := by
      refine standing.tracks.change (run.avoids closed_cond standing.tracks.avoids).2
        (Finset.subset_union_left.trans Finset.subset_union_right) fun v fresh => ?_
      rw [Finset.mem_union, not_or] at fresh
      rcases (not_at_risk fresh.2).2 with outside | not_held
      · rw [List.mem_append, not_or] at outside
        refine Or.inr ⟨run.frame outside.1, (untouched v outside.2).trans ?_⟩
        exact subscript_of_same (AllocationTraverser.traverseExpr_same c traverser outside.1)
      · exact Or.inl not_held
    have entered := ihe.reaches f fuel state _ _
      { handleable := fun e inside =>
          standing.handleable.right e (entries_handed member e inside)
        ready := ready
        closed := Stmt.entries_closed member closed_body
        kept := kept
        tracks := tracks }
    have state_same : traverseTask base fuel traverser (.stmt (.switch c body)) =
        traverseTask base fuel (traverseTask base fuel traverser (.expr c)) (.stmt body) := rfl
    rw [Reaches, state_same]
    rcases reached with unknown | same
    · exact Or.inl unknown
    · rw [← state_same] at same
      rcases entered with unknown | ⟨explained, _⟩
      · exact Or.inl (same ▸ unknown)
      · exact Or.inr ⟨fun value returns => same ▸ explained value (leave_returned returns),
          fun _ => after_switch⟩
  valued := trivial

/-- A function holds no allocated pointer at its start but in its parameters that may be passed
one. -/
theorem entry_avoids {g : Nat} {args : List CodeExpr} {values : List (Value AllocForm)}
    (avoided : List.Forall₂ (fun e value => e.avoids base .made (holders f) = true →
      ¬ value.Is .made) args values)
    (passes : ∀ position arg, args[position]? = some arg →
      .param position ∈ holders g ∨ arg.avoids base .made (holders f) = true) :
    ((base.function g).entry values).Avoids .made (holders g) := by
  intro v outside
  cases v with
  | own name => exact id
  | param position =>
      rw [Function.entry]
      split
      · rw [List.getD_eq_getElem?_getD]
        cases at_position : values[position]? with
        | none => exact id
        | some value =>
            obtain ⟨bound, _⟩ := List.getElem?_eq_some_iff.mp at_position
            have arg_bound : position < args.length := avoided.length_eq ▸ bound
            obtain ⟨arg, at_args⟩ : ∃ arg, args[position]? = some arg :=
              ⟨_, List.getElem?_eq_getElem arg_bound⟩
            have plain := (passes position arg at_args).resolve_left outside
            obtain ⟨_, rfl⟩ := List.getElem?_eq_some_iff.mp at_args
            obtain ⟨_, rfl⟩ := List.getElem?_eq_some_iff.mp at_position
            exact (List.forall₂_iff_get.mp avoided).2 position arg_bound bound plain
      · exact id

theorem ready_root : ReadyAlloc base root (Visited.Table.insert (fun _ => none) root none) := by
  intro g known at_g
  by_cases same : g = root
  · rw [same, Visited.Table.insert_same] at at_g
    obtain rfl := Option.some.inj at_g
    exact same ▸ .pending
  · rw [Visited.Table.insert_other _ same] at at_g
    cases at_g

/-- What an analysis found out about a function explains what calls of it give, if the analysis
of its body explains what the body gives. -/
theorem certified_explains {g : Nat} {known : Known} (certified : CertifiedAlloc base root g known)
    {got given : Value AllocForm} (gives : (base.function g).Gives got given)
    (plain : g = root → (base.function root).promise = none)
    (inside : ∀ fuel table code, (base.function g).body = some code →
      (base.function g).promise = none →
      Relation.ReflTransGen (Consults base) root g → ReadyAlloc base root table →
        Explains (rootResult base root) ((analysisStart base fuel g table).traverseStmt base
          (AnalyzeAllocType base fuel) code).1.result got) :
    Explains (rootResult base root) known given := by
  have plain_gives : (base.function g).promise = none →
      given = if (base.function g).returnsPointer then got else .other := by
    intro no_promise
    simpa only [Function.Gives, no_promise] using gives
  cases certified with
  | promised =>
      rw [Function.Gives] at gives
      rw [IsAllocator]
      split at gives
      next no_promise =>
        simp only [no_promise]
        exact explains_unknown _
      next promised =>
        rcases gives with rfl | rfl
        · exact explains_of_not id _
        · exact explains_of_not id _
      next form promised =>
        simp only [promised]
        rcases gives with rfl | rfl
        · exact explains_of_not id _
        · intro other made
          obtain rfl := Value.made.inj made
          exact Or.inl (Or.inl rfl)
  | pending =>
      have no_promise := plain rfl
      rw [plain_gives no_promise]
      cases returns : (base.function root).returnsPointer with
      | false => exact explains_of_not id _
      | true =>
          intro form made
          refine Or.inr ?_
          cases has_body : (base.function root).body with
          | none =>
              rw [rootResult, AnalyzeAllocType_no_body returns has_body]
              exact Or.inr rfl
          | some code =>
              have result := inside base.length _ code has_body no_promise .refl ready_root form made
              have same : rootResult base root = ((analysisStart base base.length root
                  (Visited.Table.insert (fun _ => none) root none)).traverseStmt base
                    (AnalyzeAllocType base base.length) code).1.result := by
                rw [rootResult, AnalyzeAllocType_body returns has_body]
              rw [← same] at result
              exact result.elim id id
  | noPointer _ returns no_promise =>
      rw [plain_gives no_promise, returns]
      exact explains_of_not id _
  | body _ fuel code table has_body no_promise reached known_table =>
      have result := inside fuel table code has_body no_promise reached known_table
      rw [plain_gives no_promise]
      split
      · exact result
      · exact explains_of_not id _

theorem Outcome.result_explained {outcome : Outcome AllocForm} {known : Known}
    (explained : ∀ value, outcome = .returned value → Explains (rootResult base root) known value) :
    Explains (rootResult base root) known outcome.result := by
  cases outcome with
  | returned value => exact explained value rfl
  | _ => exact explains_of_not id _

theorem body_explained (settles : KeptBodies base holders root) {g : Nat} {code : Code}
    (has_body : (base.function g).body = some code)
    (reached : Relation.ReflTransGen (Consults base) root g)
    (avoids : env.Avoids .made (holders g))
    (ih : Carried base holders root (.stmt code) env outcome next) (fuel : Nat) {table : AllocFuncs}
    (ready : ReadyAlloc base root table) :
    Explains (rootResult base root) ((analysisStart base fuel g table).traverseStmt base
      (AnalyzeAllocType base fuel) code).1.result outcome.result := by
  have kept := settles g reached code has_body
  have standing : Standing base holders root g (.stmt code) (analysisStart base fuel g table)
      (holders g) ∅ env :=
    { handleable := fun e member h args call =>
        { reached := fun plain returns =>
            reached.tail ⟨plain, returns, code, has_body, e, List.mem_append_right _ member, args,
              call⟩
          passes := kept.passes e member h args call
          plain := by
            rintro rfl
            exact kept.plain e member args call }
      ready := analysisStart_ready fuel has_body reached ready
      closed := kept.closed
      kept := kept.kept
      tracks := ⟨avoids, fun v fresh => explains_of_not (avoids v fresh) _⟩ }
  rcases ih.reaches g fuel _ _ ∅ standing with unknown | ⟨explained, _⟩
  · have result : ((analysisStart base fuel g table).traverseStmt base
        (AnalyzeAllocType base fuel) code).1.result = some .unknown := unknown
    rw [result]
    exact explains_unknown _
  · exact Outcome.result_explained explained

/-- A call, when the analysis of the callee's body explains what the body gives. -/
theorem call_carried {g : Nat} {args : List CodeExpr} {values : List (Value AllocForm)}
    {got given : Value AllocForm} (run : Run base (.args args) env first (.values values) next)
    (iha : Carried base holders root (.args args) env (.values values) next)
    (gives : (base.function g).Gives got given)
    (inside : ((base.function g).entry values).Avoids .made (holders g) →
      ∀ fuel table code, (base.function g).body = some code →
        Relation.ReflTransGen (Consults base) root g → ReadyAlloc base root table →
          Explains (rootResult base root) ((analysisStart base fuel g table).traverseStmt base
            (AnalyzeAllocType base fuel) code).1.result got) :
    Carried base holders root (.expr (.call g args)) env (.value given) next where
  reaches := by
    intro f fuel traverser lost labels standing
    have passed := iha.reaches f fuel traverser lost labels { standing with kept := rfl }
    exact passed.imp_right fun after => ⟨fun _ returned => (nomatch returned), after.2⟩
  valued := by
    intro f fuel map table lost callable ready closed _ tracks
    have call := callable g args rfl
    have certified := (handleCall_certified (fun plain table =>
      analysis_certified fuel g plain (call.reached plain) table) ready).1
    refine certified_explains certified gives call.plain
      fun fuel table code has_body plain reached ready => ?_
    exact inside (entry_avoids (run.avoids closed tracks.avoids).1 (call.passes plain)) fuel table
      code has_body reached ready

end Cases

theorem run_carried (settles : KeptBodies base holders root) {task : Task AllocForm DeallocForm}
    {env next : Env AllocForm} {events : List (Value AllocForm × DeallocForm)}
    {outcome : Outcome AllocForm} (run : Run base task env events outcome next) :
    Carried base holders root task env outcome next := by
  induction run with
  | @var env v =>
      refine ⟨fun f fuel traverser lost labels standing =>
        Or.inr ⟨fun _ returned => (nomatch returned), fun _ => standing.tracks⟩, ?_⟩
      intro f fuel map table lost _ _ _ followed tracks
      exact explains_getD.mpr (tracks.explained v (of_decide_eq_true followed))
  | null =>
      exact ⟨fun _ _ _ _ _ standing =>
        Or.inr ⟨fun _ returned => (nomatch returned), fun _ => standing.tracks⟩,
        fun _ _ _ _ _ _ _ _ _ _ => explains_of_not id _⟩
  | other =>
      exact ⟨fun _ _ _ _ _ standing =>
        Or.inr ⟨fun _ returned => (nomatch returned), fun _ => standing.tracks⟩,
        fun _ _ _ _ _ _ _ _ _ _ => explains_of_not id _⟩
  | allocate =>
      refine ⟨fun f fuel traverser lost labels standing =>
        Or.inr ⟨fun _ returned => (nomatch returned), fun _ => standing.tracks⟩, ?_⟩
      intro f fuel map table lost _ _ _ _ _ other made
      obtain rfl := Value.made.inj made
      exact Or.inl (Or.inl rfl)
  | cast _ ih =>
      exact ⟨fun f fuel traverser lost labels standing =>
        ih.reaches f fuel traverser lost labels { standing with }, ih.valued⟩
  | assign run ih => exact assign_carried run ih
  | shift run moves ih => exact shift_carried (.shift run moves) moves ih
  | comma _ _ iha ihb => exact comma_carried iha ihb
  | condLeft c run ihc _ =>
      exact ⟨fun _ _ _ _ _ standing => cond_reaches (.condLeft c run) ihc
        (fun v untouched _ => run.frame untouched) standing,
        fun _ _ _ _ _ _ _ _ followed _ => nomatch followed⟩
  | condRight c run ihc _ =>
      exact ⟨fun _ _ _ _ _ standing => cond_reaches (.condRight c run) ihc
        (fun v _ untouched => run.frame untouched) standing,
        fun _ _ _ _ _ _ _ _ followed _ => nomatch followed⟩
  | call args has_body run gives iha ihb =>
      refine call_carried args iha gives fun avoids fuel table code also_body reached ready => ?_
      obtain rfl := Option.some.inj (has_body.symm.trans also_body)
      exact body_explained settles has_body reached avoids ihb fuel ready
  | callOpaque args no_body _ _ gives iha =>
      exact call_carried args iha gives fun _ _ _ _ also_body => nomatch no_body.symm.trans also_body
  | filled _ _ =>
      exact ⟨fun _ _ _ _ _ standing =>
        Or.inr ⟨fun _ returned => (nomatch returned), fun _ => standing.tracks⟩,
        fun _ _ _ _ _ _ _ _ followed _ => nomatch followed⟩
  | argsNil =>
      exact ⟨fun _ _ _ _ _ standing =>
        Or.inr ⟨fun _ returned => (nomatch returned), fun _ => standing.tracks⟩, trivial⟩
  | argsCons _ _ ihe ihes => exact argsCons_carried ihe ihes
  | absent =>
      exact ⟨fun _ _ _ _ _ standing =>
        Or.inr ⟨fun _ returned => (nomatch returned), fun _ => standing.tracks⟩, trivial⟩
  | expr _ ih => exact expr_carried ih
  | declare => exact declare_carried
  | decl run ih => exact decl_carried run ih
  | seq _ _ ihs iht => exact seq_carried ihs iht
  | seqStop _ stops ihs => exact seqStop_carried stops ihs
  | dealloc _ ih => exact dealloc_carried ih
  | iteThen init _ run _ ihc ihs => exact iteThen_carried init run ihc ihs
  | iteElse init _ run _ ihc iht => exact iteElse_carried init run ihc iht
  | loopDone run _ => exact loopDone_carried run
  | loopNext run body goes inc again _ _ _ ihl =>
      exact loopNext_carried run body goes inc again ihl
  | loopLeft run body not_fall not_continued _ ihb =>
      exact loopLeft_carried run body not_fall not_continued ihb
  | doDone body goes run _ _ => exact doDone_carried body goes run
  | doNext body goes run again _ _ ihl => exact doNext_carried body goes run again ihl
  | doLeft body not_fall not_continued ihb => exact doLeft_carried body not_fall not_continued ihb
  | switchNone run _ => exact switchNone_carried run
  | switch run member entry _ ihe => exact switch_carried member run entry ihe
  | labelled _ ih =>
      exact ⟨fun f fuel traverser lost labels standing =>
        ih.reaches f fuel traverser _ labels
          { standing with tracks := standing.tracks.grow labels }, trivial⟩
  | brk =>
      exact ⟨fun _ _ _ _ _ _ =>
        Or.inr ⟨fun _ returned => (nomatch returned), fun falls => by cases falls⟩, trivial⟩
  | cont =>
      exact ⟨fun _ _ _ _ _ _ =>
        Or.inr ⟨fun _ returned => (nomatch returned), fun falls => by cases falls⟩, trivial⟩
  | ret run ih => exact ret_carried run ih

end Soundness

section Nulls

namespace AllocationTraverser

variable {base : CodeBase} {analyze : Nat → AllocFuncs → Known × AllocFuncs}

/-- The same traverser, after one more return statement that gives a null pointer. -/
def nullSeen (traverser : AllocationTraverser) : AllocationTraverser :=
  { traverser with result := traverser.result.or (some .null) }

theorem log_nullSeen (traverser : AllocationTraverser) (v : Var) :
    traverser.nullSeen.log v = (traverser.log v).nullSeen := by
  rw [log, log]
  cases has_log : traverser.undoLog with
  | none => simp only [nullSeen, has_log]
  | some undoLog => simp only [nullSeen, has_log]

mutual

theorem traverseExpr_nullSeen :
    ∀ (e : CodeExpr) (traverser : AllocationTraverser),
      traverser.nullSeen.traverseExpr base analyze e =
        (traverser.traverseExpr base analyze e).nullSeen
  | .var _, _ => rfl
  | .null, _ => rfl
  | .other, _ => rfl
  | .allocate _, _ => rfl
  | .filled _, _ => rfl
  | .cast e, traverser => traverseExpr_nullSeen e traverser
  | .assign v e, traverser => by
      rw [traverseExpr, traverseExpr, log_nullSeen]
      exact traverseExpr_nullSeen e ((traverser.log v).store base analyze v e)
  | .shift v e, traverser => by
      rw [traverseExpr, traverseExpr, log_nullSeen]
      exact traverseExpr_nullSeen e
        { traverser.log v with varMap := (traverser.log v).varMap.set v (some .unknown) }
  | .comma a b, traverser => by
      rw [traverseExpr, traverseExpr, traverseExpr_nullSeen a]
      exact traverseExpr_nullSeen b _
  | .cond c a b, traverser => by
      rw [traverseExpr, traverseExpr, traverseExpr_nullSeen c, traverseExpr_nullSeen a]
      exact traverseExpr_nullSeen b _
  | .call _ args, traverser => traverseArgs_nullSeen args traverser

theorem traverseArgs_nullSeen :
    ∀ (es : List CodeExpr) (traverser : AllocationTraverser),
      traverser.nullSeen.traverseArgs base analyze es =
        (traverser.traverseArgs base analyze es).nullSeen
  | [], _ => rfl
  | e :: es, traverser => by
      rw [traverseArgs, traverseArgs, traverseExpr_nullSeen e]
      exact traverseArgs_nullSeen es _

end

/-- Two traversals go on alike but for the null pointer, or nothing more can be said after
either. -/
def NullNeutral (seen plain : AllocationTraverser × Bool) : Prop :=
  seen = (plain.1.nullSeen, plain.2) ∨
    seen.1.result = some .unknown ∧ plain.1.result = some .unknown

theorem traversedExpr_neutral (e : CodeExpr) (traverser : AllocationTraverser) :
    NullNeutral (traverser.nullSeen.traverseExpr base analyze e, true)
      (traverser.traverseExpr base analyze e, true) :=
  Or.inl (Prod.ext (traverseExpr_nullSeen e traverser) rfl)

theorem NullNeutral.andThen {seen plain : AllocationTraverser × Bool}
    (neutral : NullNeutral seen plain) (rest : AllocationTraverser → AllocationTraverser × Bool)
    (kept : ∀ after, after.result = some .unknown → (rest after).1.result = some .unknown)
    (goes : ∀ after, NullNeutral (rest after.nullSeen) (rest after)) :
    NullNeutral (if seen.2 then rest seen.1 else seen) (if plain.2 then rest plain.1 else plain) := by
  rcases neutral with rfl | ⟨seen_unknown, plain_unknown⟩
  · simp only
    split
    · exact goes plain.1
    · exact Or.inl rfl
  · refine Or.inr ⟨?_, ?_⟩
    · split
      · exact kept seen.1 seen_unknown
      · exact seen_unknown
    · split
      · exact kept plain.1 plain_unknown
      · exact plain_unknown

theorem NullNeutral.andExpr {seen plain : AllocationTraverser × Bool}
    (neutral : NullNeutral seen plain) (e : CodeExpr) :
    NullNeutral (if seen.2 then (seen.1.traverseExpr base analyze e, true) else seen)
      (if plain.2 then (plain.1.traverseExpr base analyze e, true) else plain) :=
  neutral.andThen (fun after => (after.traverseExpr base analyze e, true))
    (fun after unknown => (traverseExpr_result e after).trans unknown) (traversedExpr_neutral e)

theorem visitReturnStmt_nullSeen (traverser : AllocationTraverser) (e : CodeExpr) :
    NullNeutral (traverser.nullSeen.visitReturnStmt base analyze e)
      (traverser.visitReturnStmt base analyze e) := by
  have handled : handleExpr base analyze traverser.nullSeen.varMap traverser.nullSeen.visitedFuncs
      e = handleExpr base analyze traverser.varMap traverser.visitedFuncs e := rfl
  rw [visitReturnStmt, visitReturnStmt, handled]
  generalize handleExpr base analyze traverser.varMap traverser.visitedFuncs e = tmp
  have already : traverser.nullSeen.result ≠ none := by simp [nullSeen]
  by_cases nothing : tmp.1 = none
  · simp only [if_pos nothing]
    exact Or.inl rfl
  · simp only [if_neg nothing, if_neg already]
    obtain ⟨type, known⟩ := Option.ne_none_iff_exists'.mp nothing
    by_cases first : traverser.result = none
    · have here : join traverser.nullSeen.result tmp.1 = tmp.1 := by
        rw [nullSeen, first]
        exact (join_null tmp.1).1
      simp only [if_pos first, here]
      -- the form that is returned first stops nothing, one after a null pointer may
      by_cases unknown : tmp.1 = some .unknown
      · exact Or.inr ⟨unknown, unknown⟩
      · refine Or.inl (Prod.ext ?_ (decide_eq_true unknown))
        simp only [nullSeen, known, Option.some_or]
    · obtain ⟨old, before⟩ := Option.ne_none_iff_exists'.mp first
      have here : traverser.nullSeen.result = traverser.result := by
        rw [nullSeen, before]
        rfl
      have joined : (join traverser.result tmp.1).or (some .null) = join traverser.result tmp.1 := by
        rw [before, known, join]
        split
        · rfl
        · split
          · rfl
          · split
            · rfl
            · rfl
      simp only [if_neg first, here]
      refine Or.inl (Prod.ext ?_ rfl)
      simp only [nullSeen, joined]

def traverseBranches (base : CodeBase) (analyze : Nat → AllocFuncs → Known × AllocFuncs)
    (s t : Code) (tested : AllocationTraverser) : AllocationTraverser × Bool :=
  let thenBranch := (traverseStmt base analyze s tested.enter).1
  if t.isAbsent then (joinThen tested thenBranch, true)
  else
    let elseBranch := (traverseStmt base analyze t thenBranch.undoOnVarMap.enter).1
    (joinElse tested thenBranch elseBranch, true)

theorem traverseBranches_unknown (s t : Code) {tested : AllocationTraverser}
    (unknown : tested.result = some .unknown) :
    (traverseBranches base analyze s t tested).1.result = some .unknown := by
  have entered : tested.enter.result = some .unknown := unknown
  have chosen : (traverseStmt base analyze s tested.enter).1.undoOnVarMap.enter.result =
      some .unknown := kept_unknown.traverseStmt s entered
  rw [traverseBranches]
  split
  · exact chosen
  · exact kept_unknown.traverseStmt t chosen

theorem traverseBranches_nullSeen {s t : Code}
    (ihs : ∀ traverser, NullNeutral (traverseStmt base analyze s traverser.nullSeen)
      (traverseStmt base analyze s traverser))
    (iht : ∀ traverser, NullNeutral (traverseStmt base analyze t traverser.nullSeen)
      (traverseStmt base analyze t traverser)) (tested : AllocationTraverser) :
    NullNeutral (traverseBranches base analyze s t tested.nullSeen)
      (traverseBranches base analyze s t tested) := by
  rw [traverseBranches, traverseBranches]
  have entered : tested.nullSeen.enter = tested.enter.nullSeen := rfl
  rw [entered]
  rcases ihs tested.enter with same | ⟨seen, plain⟩
  · rw [same]
    simp only
    split
    · exact Or.inl rfl
    · rcases iht (traverseStmt base analyze s tested.enter).1.undoOnVarMap.enter with
        same_else | unknown
      · have undone : (traverseStmt base analyze s tested.enter).1.nullSeen.undoOnVarMap.enter =
            (traverseStmt base analyze s tested.enter).1.undoOnVarMap.enter.nullSeen := rfl
        rw [undone, same_else]
        exact Or.inl rfl
      · exact Or.inr unknown
  · split
    · exact Or.inr ⟨seen, plain⟩
    · exact Or.inr ⟨kept_unknown.traverseStmt t seen, kept_unknown.traverseStmt t plain⟩

/-- A null pointer that was returned before makes no difference to a traversal. -/
theorem traverseStmt_nullSeen (s : Code) (traverser : AllocationTraverser) :
    NullNeutral (traverser.nullSeen.traverseStmt base analyze s)
      (traverser.traverseStmt base analyze s) := by
  induction s generalizing traverser with
  | absent => exact Or.inl rfl
  | expr e => exact traversedExpr_neutral e traverser
  | decl name init =>
      cases init with
      | none => exact Or.inl rfl
      | some e =>
          exact traversedExpr_neutral e (traverser.visitVarDecl base analyze (.own name) (some e))
  | seq s t ihs iht =>
      exact (ihs traverser).andThen _ (fun _ unknown => kept_unknown.traverseStmt t unknown) iht
  | dealloc form e => exact traversedExpr_neutral e traverser
  | ite init test s t _ ihc ihs iht =>
      have whole : ∀ start : AllocationTraverser, start.traverseStmt base analyze
          (.ite init test s t) =
            traverseBranches base analyze s t (start.traverseStmt base analyze test).1 :=
        fun _ => rfl
      rw [whole, whole]
      rcases ihc traverser with same | ⟨seen, plain⟩
      · rw [same]
        exact traverseBranches_nullSeen ihs iht _
      · exact Or.inr ⟨traverseBranches_unknown s t seen, traverseBranches_unknown s t plain⟩
  | loop c inc body ihb =>
      rw [traverseStmt, traverseStmt, traverseExpr_nullSeen, traverseExpr_nullSeen]
      exact ihb _
  | doWhile body c ihb =>
      exact (ihb traverser).andExpr c
  | switch c body ihb =>
      rw [traverseStmt, traverseStmt, traverseExpr_nullSeen]
      exact ihb _
  | labelled s ihs => exact ihs traverser
  | brk => exact Or.inl rfl
  | cont => exact Or.inl rfl
  | ret e =>
      exact (visitReturnStmt_nullSeen traverser e).andExpr e

/-- The branch that returns the null pointer leaves nothing else behind. -/
theorem nullBranch_nullSeen {traverser : AllocationTraverser} (first : traverser.result = none) :
    traverser.traverseStmt base analyze (.ite .absent (.expr .other) (.ret .null) .absent) =
      (traverser.nullSeen, true) := by
  obtain ⟨varMap, visitedFuncs, result, undoLog⟩ := traverser
  obtain rfl : result = none := first
  cases undoLog with
  | none => rfl
  | some undoLog =>
      have informed : inform undoLog .empty = undoLog := funext fun v => inform_untouched rfl
      refine Prod.ext ?_ rfl
      simp only [traverseStmt, traverseExpr, visitReturnStmt, handleExpr, Stmt.isAbsent, enter,
        joinThen, overwritten, nullSeen, Option.map_some]
      simp [informed, VarMap.empty]

end AllocationTraverser

end Nulls

section Result

variable (base : CodeBase)

/-- On some way through the body, a pointer allocated so is returned. -/
def ReturnsForm (f : Nat) (form : AllocForm) : Prop :=
  let fn := base.function f
  fn.returnsPointer = true ∧ ∃ body events next, fn.body = some body ∧
    Run base (.stmt body) (fn.entry ((List.range fn.numParams).map .given)) events
      (.returned (.made form)) next

/-- What the query about `f` finds out about a body. -/
def foundIn (f : Nat) (body : Code) : Known :=
  ((analysisStart base base.length f (Visited.Table.insert (fun _ => none) f none)).traverseStmt
    base (AnalyzeAllocType base base.length) body).1.result

/-- The body, with `if (...) return nullptr;` before it. -/
def nullBefore (body : Code) : Code :=
  .seq (.ite .absent (.expr .other) (.ret .null) .absent) body

/-- The form of the pointers that are returned, or left open. A null pointer that is returned on a
way of its own counts for nothing, unless no form is found anywhere else. -/
def SoundAlloc (f : Nat) : Prop :=
  (∀ form, ReturnsForm base f form →
    GetAllocType base f = form.type ∨ GetAllocType base f = .unknown) ∧
  (∀ form other, ReturnsForm base f form → ReturnsForm base f other → form ≠ other →
    GetAllocType base f = .unknown) ∧
  ∀ body, (base.function f).returnsPointer = true → (base.function f).body = some body →
    GetAllocType base f = (foundIn base f body).getD .none ∧
      foundIn base f (nullBefore body) = (foundIn base f body).or (some .null)

theorem AllocForm.type_injective {form other : AllocForm} (same : form.type = other.type) :
    form = other := by
  cases form <;> cases other <;> first | rfl | cases same

variable {base}

theorem rootResult_body {f : Nat} {body : Code} (returns : (base.function f).returnsPointer = true)
    (has_body : (base.function f).body = some body) : rootResult base f = foundIn base f body := by
  rw [rootResult, AnalyzeAllocType_body returns has_body, foundIn]

theorem GetAllocType_root (f : Nat) : GetAllocType base f = (rootResult base f).getD .none :=
  (GetAllocType_fuel f 1).symm

theorem nullBefore_found (f : Nat) (body : Code) :
    foundIn base f (nullBefore body) = (foundIn base f body).or (some .null) := by
  let start := analysisStart base base.length f (Visited.Table.insert (fun _ => none) f none)
  have first : start.result = none := analysisStart_result base.length f _
  have passed : start.traverseStmt base (AnalyzeAllocType base base.length) (nullBefore body) =
      start.nullSeen.traverseStmt base (AnalyzeAllocType base base.length) body := by
    rw [nullBefore, AllocationTraverser.traverseStmt,
      AllocationTraverser.nullBranch_nullSeen first]
    rfl
  rw [foundIn, foundIn, passed]
  have neutral : AllocationTraverser.NullNeutral
      (start.nullSeen.traverseStmt base (AnalyzeAllocType base base.length) body)
      (start.traverseStmt base (AnalyzeAllocType base base.length) body) :=
    AllocationTraverser.traverseStmt_nullSeen body start
  rcases neutral with same | ⟨seen, plain⟩
  · rw [same]
    rfl
  · rw [seen, plain]
    rfl

theorem returned_form {f : Nat} {form : AllocForm} {held : Nat → Finset Var}
    (settles : KeptBodies base held f) (returns : ReturnsForm base f form) :
    GetAllocType base f = form.type ∨ GetAllocType base f = .unknown := by
  obtain ⟨is_pointer, body, events, next, has_body, run⟩ := returns
  have avoids : ((base.function f).entry
      ((List.range (base.function f).numParams).map Value.given)).Avoids .made (held f) := by
    intro v _
    cases v with
    | own name => exact id
    | param index =>
        rw [Function.entry]
        split
        · rw [List.getD_eq_getElem?_getD, List.getElem?_map]
          cases (List.range (base.function f).numParams)[index]? with
          | none => exact id
          | some given => rintro ⟨⟩
        · exact id
  have explained := body_explained settles has_body .refl avoids (run_carried settles run)
    base.length ready_root form rfl
  have result : rootResult base f = foundIn base f body := rootResult_body is_pointer has_body
  rw [← foundIn, ← result] at explained
  rw [GetAllocType_root]
  rcases explained.elim id id with same | unknown
  · exact Or.inl (congrArg (fun known : Known => known.getD .none) same)
  · exact Or.inr (congrArg (fun known : Known => known.getD .none) unknown)

/-- `int* make() { return new int; }` and
`int* choose(int* p, bool b) { int* x = nullptr; if (b) x = make(); else { if (b) return
(int*)malloc(4); } return x; }`. -/
def chooseForm : CodeBase :=
  [{ numParams := 0, body := some (.ret (.allocate .new)), returnsPointer := true, promise := none },
   { numParams := 2,
     body := some (.seq (.decl 0 (some .null))
       (.seq (.ite .absent (.expr .other) (.expr (.assign (.own 0) (.call 0 [])))
           (.ite .absent (.expr .other) (.ret (.cast (.allocate .malloc))) .absent))
         (.ret (.var (.own 0))))),
     returnsPointer := true, promise := none }]

theorem chooseForm_kept (f : Nat) : KeptBodies chooseForm (fun _ => {.own 0}) f := by
  intro g _ body has_body
  match g, has_body with
  | 0, has_body =>
      obtain rfl := Option.some.inj has_body
      exact ⟨by decide, by decide, by simp [stmtHanded, exprHanded, directCall],
        by simp [stmtHanded, exprHanded, directCall]⟩
  | 1, has_body =>
      obtain rfl := Option.some.inj has_body
      refine ⟨by decide, by decide, ?_, ?_⟩
      · intro e member g args call _ position arg at_position
        simp [stmtHanded, exprHanded, argsHanded] at member
        rcases member with rfl | rfl | rfl | rfl
        · cases call
        · obtain ⟨rfl, rfl⟩ := Prod.mk.inj (Option.some.inj call)
          simp at at_position
        · cases call
        · cases call
      · intro e member args call
        simp [stmtHanded, exprHanded, argsHanded] at member
        rcases member with rfl | rfl | rfl | rfl
        · cases call
        · obtain ⟨rfl, _⟩ := Prod.mk.inj (Option.some.inj call)
          rfl
        · cases call
        · cases call
  | _ + 2, has_body => cases has_body

/-- `int* grow(bool b) { int* x = new int; while (b) x = (int*)malloc(4); return x; }`. -/
def growWhile : CodeBase :=
  [{ numParams := 1,
     body := some (.seq (.decl 0 (some (.allocate .new)))
       (.seq (.loop .other .other (.expr (.assign (.own 0) (.cast (.allocate .malloc)))))
         (.ret (.var (.own 0))))),
     returnsPointer := true, promise := none }]

theorem growWhile_returns : ReturnsForm growWhile 0 .new :=
  ⟨rfl, _, _, _, rfl, .seq (.decl .allocate) (.seq (.loopDone .other) (.ret .var))⟩

end Result

end CppInterOp
