import Mathlib.Logic.Relation
import CppInterOp.Library.PointerFlows
import CppInterOp.OwnershipAllocSteps

/-!
Where the map of `AllocationTraverser` is right on every path: the condition, when what is
known explains a pointer, and what the table of functions already seen holds.
-/

namespace CppInterOp

open PointerPrograms

section Lost

variable (base : CodeBase) (held : Finset Var)

/-- `handleExpr` follows the expression to an allocation, a call or a variable it knows of. -/
def followedTo (lost : Finset Var) : CodeExpr → Bool
  | .cast e => followedTo lost e
  | .allocate _ => true
  | .var v => decide (v ∉ lost)
  | .call _ _ => true
  | _ => false

def handled (lost : Finset Var) (e : CodeExpr) : Bool :=
  e.avoids base .made held || followedTo lost e

mutual

/-- The variables that may have an allocated pointer that is not known after an expression. The
traverser comes to an assignment before its right-hand side, and to both branches of a
conditional. -/
def lostExpr : Finset Var → CodeExpr → Finset Var
  | lost, .var _ => lost
  | lost, .null => lost
  | lost, .other => lost
  | lost, .allocate _ => lost
  | lost, .cast e => lostExpr lost e
  | lost, .assign v e =>
      let inner := lostExpr (insert v lost) e
      if e.avoids base .made held || (followedTo lost e && decide (v ∉ e.touched)) then
        inner.erase v
      else insert v inner
  | lost, .shift v e => lostExpr (lost.erase v) e
  | lost, .comma a b => lostExpr (lostExpr lost a) b
  | lost, .cond c a b => lostExpr lost c ∪ atRisk held a.touched ∪ atRisk held b.touched
  | lost, .call _ args => lostArgs lost args
  | lost, .filled _ => lost

def lostArgs : Finset Var → List CodeExpr → Finset Var
  | lost, [] => lost
  | lost, e :: es => lostArgs (lostExpr lost e) es

end

/-- The branches of an if statement are joined, those of a loop or a switch are not, and the
init statement of an if statement is skipped. -/
def lostStmt (labels : Finset Var) : Finset Var → Code → Finset Var
  | lost, .absent => lost
  | lost, .expr e => lostExpr base held lost e
  | lost, .decl name none => lost.erase (.own name)
  | lost, .decl name (some e) => lostExpr base held lost (.assign (.own name) e)
  | lost, .seq s t => lostStmt labels (lostStmt labels lost s) t
  | lost, .dealloc _ e => lostExpr base held lost e
  | lost, .ite init test s t =>
      let chosen := lostStmt labels (lost ∪ atRisk held init.touched) test
      lostStmt labels chosen s ∪ lostStmt labels (chosen ∪ atRisk held (declared s)) t ∪
        atRisk held (declared s ++ declared t)
  | lost, .loop c inc body => lost ∪ atRisk held (c.touched ++ inc.touched ++ body.touched)
  | lost, .doWhile body c => lost ∪ atRisk held (body.touched ++ c.touched)
  | lost, .switch c body => lost ∪ atRisk held (c.touched ++ body.touched)
  | lost, .labelled s => lostStmt labels (lost ∪ labels) s
  | lost, .brk => lost
  | lost, .cont => lost
  | lost, .ret e => lostExpr base held lost e

/-- What is known of each returned expression explains what it gives. `labels` are the variables
that may be lost at a label of the switch around the statement. -/
def keptStmt (labels : Finset Var) : Finset Var → Code → Bool
  | lost, .seq s t => keptStmt labels lost s && keptStmt labels (lostStmt base held labels lost s) t
  | lost, .ite init test s t =>
      let entered := lost ∪ atRisk held init.touched
      let chosen := lostStmt base held labels entered test
      keptStmt labels entered test && keptStmt labels chosen s &&
        keptStmt labels (chosen ∪ atRisk held (declared s)) t
  | lost, .loop c inc body =>
      keptStmt labels (lost ∪ atRisk held (c.touched ++ inc.touched ++ body.touched)) body
  | lost, .doWhile body c =>
      keptStmt labels (lost ∪ atRisk held (body.touched ++ c.touched)) body
  | lost, .switch c body =>
      let inside := lost ∪ atRisk held (c.touched ++ body.touched)
      keptStmt inside inside body
  | lost, .labelled s => keptStmt labels (lost ∪ labels) s
  | lost, .ret e => handled base held lost e
  | _, _ => true

end Lost

section Condition

variable (base : CodeBase) (held : Nat → Finset Var) (root : Nat)

def Consults (f g : Nat) : Prop :=
  (base.function g).promise = none ∧ (base.function g).returnsPointer = true ∧
    ∃ body, (base.function f).body = some body ∧
      ∃ e ∈ analysisHanded (base.function f) body, ∃ args, directCall e = some (g, args)

/-- A call in `f` whose result is used: a parameter that may be passed an allocated pointer is
one of those `held`, and only a function without a promise is still being analysed. -/
structure Callable (f g : Nat) (args : List CodeExpr) : Prop where
  reached : (base.function g).promise = none → (base.function g).returnsPointer = true →
    Relation.ReflTransGen (Consults base) root g
  passes : (base.function g).promise = none → ∀ position arg, args[position]? = some arg →
    .param position ∈ held g ∨ arg.avoids base .made (held f) = true
  plain : g = root → (base.function root).promise = none

/-- The variables `held` are those that may hold an allocated pointer, and each pointer the body
returns is explained. -/
structure KeptBody (f : Nat) (body : Code) : Prop where
  closed : body.closed base .made (held f) = true
  kept : keptStmt base (held f) ∅ (held f) body = true
  passes : ∀ e ∈ stmtHanded body, ∀ g args, directCall e = some (g, args) →
    (base.function g).promise = none → ∀ position arg, args[position]? = some arg →
      .param position ∈ held g ∨ arg.avoids base .made (held f) = true
  plain : ∀ e ∈ stmtHanded body, ∀ args, directCall e = some (root, args) →
    (base.function root).promise = none

def KeptBodies : Prop :=
  ∀ g, Relation.ReflTransGen (Consults base) root g →
    ∀ body, (base.function g).body = some body → KeptBody base held root g body

end Condition

section Explanations

/-- What is known accounts for pointers of a form. -/
def Accounts (known : Known) (form : AllocForm) : Prop :=
  known = some form.type ∨ known = some .unknown

theorem AllocForm.type_ne (form : AllocForm) : form.type ≠ .null ∧ form.type ≠ .none := by
  cases form <;> exact ⟨nofun, nofun⟩

theorem Accounts.ne_null {known : Known} {form : AllocForm} (accounts : Accounts known form) :
    known ≠ some .null := by
  rintro rfl
  rcases accounts with same | same
  · exact form.type_ne.1 (Option.some.inj same).symm
  · cases same

theorem not_accounts_none {form : AllocForm} : ¬ Accounts (some .none) form := by
  rintro (same | same)
  · exact form.type_ne.2 (Option.some.inj same).symm
  · cases same

theorem Accounts.join_left {known : Known} {form : AllocForm} (accounts : Accounts known form)
    (other : Known) : Accounts (join known other) form := by
  rw [join, if_neg accounts.ne_null]
  split
  · exact accounts
  · split
    · exact accounts
    · exact Or.inr rfl

theorem Accounts.join_right {known : Known} {form : AllocForm} (accounts : Accounts known form)
    (other : Known) : Accounts (join other known) form := by
  rw [join, if_neg accounts.ne_null]
  split
  · exact accounts
  · split
    next same => exact same ▸ accounts
    next => exact Or.inr rfl

/-- Null pointers are neutral where returned values and branches are joined. -/
theorem join_null (known : Known) :
    join (some .null) known = known ∧ join known (some .null) = known := by
  refine ⟨if_pos rfl, ?_⟩
  rw [join]
  split
  next same => exact same.symm
  next => exact if_pos rfl

variable {final : Known}

/-- What is known explains a pointer: it accounts for it if the pointer was allocated, unless
`final`, what is known of the function asked about in the end, does. -/
def Explains (final known : Known) (value : Value AllocForm) : Prop :=
  ∀ form, value = .made form → Accounts known form ∨ Accounts final form

theorem explains_of_not {value : Value AllocForm} (not_made : ¬ value.Is .made) (known : Known) :
    Explains final known value := by
  rintro form rfl
  exact absurd rfl not_made

theorem explains_unknown (value : Value AllocForm) : Explains final (some .unknown) value :=
  fun _ _ => Or.inl (Or.inr rfl)

theorem Explains.join_left {known : Known} {value : Value AllocForm}
    (explains : Explains final known value) (other : Known) :
    Explains final (join known other) value :=
  fun form made => (explains form made).imp_left fun accounts => accounts.join_left other

theorem Explains.join_right {known : Known} {value : Value AllocForm}
    (explains : Explains final known value) (other : Known) :
    Explains final (join other known) value :=
  fun form made => (explains form made).imp_left fun accounts => accounts.join_right other

/-- A missing variable explains no more than one that holds nothing allocated. -/
theorem explains_getD {map : VarMap} {v : Var} {value : Value AllocForm} :
    Explains final ((map v).getD (some .none)) value ↔ Explains final (map.subscript v) value := by
  rw [VarMap.subscript]
  cases map v with
  | some known => exact Iff.rfl
  | none =>
      constructor
      · exact fun explains form made => Or.inr ((explains form made).resolve_left not_accounts_none)
      · exact fun explains form made => Or.inr ((explains form made).resolve_left (by rintro (known | known) <;> cases known))

end Explanations

section Joins

variable {final : Known} {v : Var} {tested thenBranch elseBranch : AllocationTraverser}
  {value : Value AllocForm}

/-- After an if statement without else a variable explains what it has on either way. -/
theorem joinThen_explains (logged : AllocationTraverser.Logged v tested.enter thenBranch)
    (explains : Explains final (thenBranch.varMap.subscript v) value ∨
      Explains final (tested.varMap.subscript v) value) :
    Explains final ((AllocationTraverser.joinThen tested thenBranch).varMap.subscript v) value := by
  rcases logged.overwritten with ⟨untouched, same⟩ | present
  · have joined : (AllocationTraverser.joinThen tested thenBranch).varMap.subscript v =
        tested.varMap.subscript v := by
      simp only [VarMap.subscript, AllocationTraverser.joinThen, untouched, same]
    have before : thenBranch.varMap.subscript v = tested.varMap.subscript v := by
      rw [VarMap.subscript, same]
      rfl
    rw [joined]
    exact explains.elim (fun after => before ▸ after) id
  · have joined : (AllocationTraverser.joinThen tested thenBranch).varMap.subscript v =
        join (tested.varMap.subscript v) (thenBranch.varMap.subscript v) := by
      simp only [VarMap.subscript, AllocationTraverser.joinThen, present, Option.getD_some]
    rw [joined]
    exact explains.elim (fun after => after.join_right _) fun before => before.join_left _

theorem joinElse_explains (logged : AllocationTraverser.Logged v tested.enter thenBranch)
    (logged_else : AllocationTraverser.Logged v thenBranch.undoOnVarMap.enter elseBranch)
    (explains : Explains final (thenBranch.varMap.subscript v) value ∨
      Explains final (elseBranch.varMap.subscript v) value) :
    Explains final
      ((AllocationTraverser.joinElse tested thenBranch elseBranch).varMap.subscript v) value := by
  rcases AllocationTraverser.undo_cases logged with ⟨untouched, undone⟩ | ⟨present, _⟩
  · have before : thenBranch.varMap.subscript v = tested.varMap.subscript v := by
      rcases logged.overwritten with ⟨_, same⟩ | present
      · rw [VarMap.subscript, same]
        rfl
      · cases untouched.symm.trans present
    rcases logged_else.overwritten with ⟨untouched_else, same⟩ | present
    · have joined : (AllocationTraverser.joinElse tested thenBranch elseBranch).varMap.subscript v =
          elseBranch.varMap.subscript v := by
        simp only [VarMap.subscript, AllocationTraverser.joinElse, untouched, untouched_else,
          Option.map_none]
      have unchanged : elseBranch.varMap.subscript v = tested.varMap.subscript v := by
        rw [VarMap.subscript, same.trans undone]
        rfl
      rw [joined]
      exact explains.elim (fun after => unchanged.trans before.symm ▸ after) id
    · have joined : (AllocationTraverser.joinElse tested thenBranch elseBranch).varMap.subscript v =
          join (tested.varMap.subscript v) (elseBranch.varMap.subscript v) := by
        rw [← AllocationTraverser.undo_subscript logged]
        simp only [VarMap.subscript, AllocationTraverser.joinElse, untouched, present,
          Option.map_none, Option.getD_some]
      rw [joined]
      exact explains.elim (fun after => (before ▸ after).join_left _) fun after =>
        after.join_right _
  · rcases logged_else.overwritten with ⟨untouched_else, _⟩ | present_else
    · have joined : (AllocationTraverser.joinElse tested thenBranch elseBranch).varMap.subscript v =
          join (thenBranch.varMap.subscript v) (elseBranch.varMap.subscript v) := by
        simp only [VarMap.subscript, AllocationTraverser.joinElse, present, untouched_else,
          Option.map_some, Option.getD_some]
      rw [joined]
      exact explains.elim (fun after => after.join_left _) fun after => after.join_right _
    · have joined : (AllocationTraverser.joinElse tested thenBranch elseBranch).varMap.subscript v =
          join (thenBranch.varMap.subscript v)
            (join (elseBranch.varMap.subscript v) (thenBranch.varMap.subscript v)) := by
        simp only [VarMap.subscript, AllocationTraverser.joinElse, present, present_else,
          Option.map_some, Option.getD_some]
      rw [joined]
      exact explains.elim (fun after => after.join_left _) fun after =>
        (after.join_left _).join_right _

end Joins

section Tables

variable (base : CodeBase) (root : Nat)

inductive CertifiedAlloc : Nat → Known → Prop
  | promised (f : Nat) : CertifiedAlloc f (some (IsAllocator base f))
  | pending : CertifiedAlloc root none
  | noPointer (f : Nat) (returns : (base.function f).returnsPointer = false)
      (plain : (base.function f).promise = none) : CertifiedAlloc f (some .none)
  | body (f fuel : Nat) (body : Code) (table : AllocFuncs)
      (has_body : (base.function f).body = some body)
      (plain : (base.function f).promise = none)
      (reached : Relation.ReflTransGen (Consults base) root f)
      (known : ∀ g found, table g = some found → CertifiedAlloc g found) :
      CertifiedAlloc f ((analysisStart base fuel f table).traverseStmt base
        (AnalyzeAllocType base fuel) body).1.result

def ReadyAlloc (table : AllocFuncs) : Prop :=
  ∀ f known, table f = some known → CertifiedAlloc base root f known

variable {base root}

theorem ReadyAlloc.insert {table : AllocFuncs} (ready : ReadyAlloc base root table) {f : Nat}
    {known : Known} (certified : CertifiedAlloc base root f known) :
    ReadyAlloc base root (table.insert f known) := by
  intro g found at_g
  by_cases same : g = f
  · rw [same, Visited.Table.insert_same] at at_g
    obtain rfl := Option.some.inj at_g
    exact same ▸ certified
  · rw [Visited.Table.insert_other _ same] at at_g
    exact ready g found at_g

theorem IsAllocator_plain {f : Nat} (plain : (base.function f).promise = none) :
    IsAllocator base f = .unknown := by
  rw [IsAllocator, plain]

theorem IsAllocator_unknown {f : Nat} (unknown : IsAllocator base f = .unknown) :
    (base.function f).promise = none := by
  rw [IsAllocator] at unknown
  split at unknown
  next plain => exact plain
  next => cases unknown
  next form _ => cases form <;> cases unknown

theorem handleCall_certified {analyze : Nat → AllocFuncs → Known × AllocFuncs} {f : Nat}
    (analysis : (base.function f).promise = none → ∀ table, ReadyAlloc base root table →
      CertifiedAlloc base root f (analyze f table).1 ∧
        ReadyAlloc base root (analyze f table).2)
    {table : AllocFuncs} (ready : ReadyAlloc base root table) :
    CertifiedAlloc base root f (AllocationTraverser.handleCall base analyze f table).1 ∧
      ReadyAlloc base root (AllocationTraverser.handleCall base analyze f table).2 := by
  rw [AllocationTraverser.handleCall]
  cases at_f : table f with
  | some known => exact ⟨ready f known at_f, ready⟩
  | none =>
      have stored := ready.insert (.promised f)
      by_cases unknown : IsAllocator base f = .unknown
      · rw [if_neg (not_not.mpr unknown)]
        exact analysis (IsAllocator_unknown unknown) _ stored
      · rw [if_pos unknown]
        exact ⟨.promised f, stored⟩

/-- The functions that the analysis of `f` hands to `handleExpr` are analysed with `root`. -/
theorem analysed_permits {analyze : Nat → AllocFuncs → Known × AllocFuncs} {f : Nat} {body : Code}
    (has_body : (base.function f).body = some body)
    (reached : Relation.ReflTransGen (Consults base) root f)
    (analysis : ∀ g, (base.function g).promise = none → ((base.function g).returnsPointer = true →
      Relation.ReflTransGen (Consults base) root g) → ∀ table, ReadyAlloc base root table →
        CertifiedAlloc base root g (analyze g table).1 ∧ ReadyAlloc base root (analyze g table).2) :
    ∀ part ∈ analysisHanded (base.function f) body,
      AllocationTraverser.Permits base analyze analyze (ReadyAlloc base root) part := by
  intro part member
  refine AllocationTraverser.permits_of_call fun g args call table ready => ⟨rfl, ?_⟩
  refine (handleCall_certified (fun plain table ready => ?_) ready).2
  exact analysis g plain (fun returns => reached.tail
    ⟨plain, returns, body, has_body, part, member, args, call⟩) table ready

theorem analysis_certified (fuel f : Nat) (plain : (base.function f).promise = none)
    (reached : (base.function f).returnsPointer = true →
      Relation.ReflTransGen (Consults base) root f) (table : AllocFuncs)
    (ready : ReadyAlloc base root table) :
    CertifiedAlloc base root f (AnalyzeAllocType base fuel f table).1 ∧
      ReadyAlloc base root (AnalyzeAllocType base fuel f table).2 := by
  have promised : CertifiedAlloc base root f (some .unknown) :=
    IsAllocator_plain plain ▸ CertifiedAlloc.promised f
  induction fuel generalizing f table with
  | zero => exact ⟨promised, ready⟩
  | succ fuel ih =>
      cases returns : (base.function f).returnsPointer with
      | false =>
          rw [AnalyzeAllocType_no_pointer returns]
          exact ⟨.noPointer f returns plain, ready⟩
      | true =>
          cases has_body : (base.function f).body with
          | none =>
              rw [AnalyzeAllocType_no_body returns has_body]
              exact ⟨promised, ready⟩
          | some body =>
              have certified := CertifiedAlloc.body f fuel body table has_body plain
                (reached returns) ready
              have permits := analysed_permits has_body (reached returns)
                fun g plain reached table ready => ih g plain reached table ready
                  (IsAllocator_plain plain ▸ CertifiedAlloc.promised g)
              rw [analysisHanded, List.forall_mem_append] at permits
              have start := (AllocationTraverser.visitParameters_permitted (base.function f)
                { visitedFuncs := table } permits.1 ready).2
              have after := (AllocationTraverser.traverseStmt_permitted body
                (analysisStart base fuel f table) permits.2 start).2
              rw [AnalyzeAllocType_body returns has_body]
              exact ⟨certified, after.insert certified⟩

/-- The default arguments of a function that is analysed leave the table in order. -/
theorem analysisStart_ready (fuel : Nat) {f : Nat} {body : Code}
    (has_body : (base.function f).body = some body)
    (reached : Relation.ReflTransGen (Consults base) root f) {table : AllocFuncs}
    (ready : ReadyAlloc base root table) :
    ReadyAlloc base root (analysisStart base fuel f table).visitedFuncs := by
  have permits := analysed_permits has_body reached (analysis_certified fuel)
  rw [analysisHanded, List.forall_mem_append] at permits
  exact (AllocationTraverser.visitParameters_permitted (base.function f) { visitedFuncs := table }
    permits.1 ready).2

end Tables

end CppInterOp
