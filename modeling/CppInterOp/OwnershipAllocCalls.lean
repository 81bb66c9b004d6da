import Mathlib.Logic.Relation
import CppInterOp.OwnershipAllocPaths

/-!
Functions that only forward to another one. They are classified as that one is, unless a
function is asked for while it is still being analysed.
-/

namespace CppInterOp

open PointerPrograms AllocationTraverser

section Condition

variable (base : CodeBase)

def Asks (f g : Nat) : Prop :=
  ∃ body, (base.function f).body = some body ∧
    ∃ e ∈ analysisHanded (base.function f) body, ∃ args, directCall e = some (g, args)

/-- The body of `g` is `return f(...);`, with or without casts, and none of its default arguments
is a call. -/
def Forwards (g f : Nat) : Prop :=
  (base.function g).returnsPointer = true ∧
    (∀ e ∈ parametersHanded (base.function g), directCall e = none) ∧
    ∃ e args, (base.function g).body = some (.ret e) ∧ directCall e = some (f, args)

def Unasked (f g : Nat) : Prop :=
  ∀ h, Relation.ReflTransGen (Consults base) f h → ¬Asks base h f ∧ ¬Asks base h g

end Condition

section Tables

variable {base : CodeBase} {f g : Nat}

def Agree (f g : Nat) (table other : AllocFuncs) : Prop :=
  ∀ key, key ≠ f → key ≠ g → table key = other key

theorem Agree.insert {table other : AllocFuncs} (agree : Agree f g table other) (key : Nat)
    (known : Known) : Agree f g (table.insert key known) (other.insert key known) := by
  intro seen not_f not_g
  by_cases same : seen = key
  · rw [same, Visited.Table.insert_same, Visited.Table.insert_same]
  · rw [Visited.Table.insert_other _ same, Visited.Table.insert_other _ same]
    exact agree seen not_f not_g

theorem handleCall_agree {analyze : Nat → AllocFuncs → Known × AllocFuncs} {called : Nat}
    (not_f : called ≠ f) (not_g : called ≠ g)
    (analysis : (base.function called).promise = none → ∀ table other, Agree f g table other →
      (analyze called table).1 = (analyze called other).1 ∧
        Agree f g (analyze called table).2 (analyze called other).2)
    {table other : AllocFuncs} (agree : Agree f g table other) :
    (handleCall base analyze called table).1 = (handleCall base analyze called other).1 ∧
      Agree f g (handleCall base analyze called table).2
        (handleCall base analyze called other).2 := by
  rw [handleCall, handleCall, agree called not_f not_g]
  cases other called with
  | some known => exact ⟨rfl, agree⟩
  | none =>
      have stored := agree.insert called (some (IsAllocator base called))
      by_cases unknown : IsAllocator base called = .unknown
      · rw [if_neg (not_not.mpr unknown), if_neg (not_not.mpr unknown)]
        exact analysis (IsAllocator_unknown unknown) _ _ stored
      · rw [if_pos unknown, if_pos unknown]
        exact ⟨rfl, stored⟩

/-- What the tables say of `f` and `g` makes no difference to a function that asks for neither,
nor has it analysed. -/
theorem analysis_agree (unasked : Unasked base f g) (fuel h : Nat)
    (reached : (base.function h).returnsPointer = true →
      Relation.ReflTransGen (Consults base) f h)
    {table other : AllocFuncs} (agree : Agree f g table other) :
    (AnalyzeAllocType base fuel h table).1 = (AnalyzeAllocType base fuel h other).1 ∧
      Agree f g (AnalyzeAllocType base fuel h table).2 (AnalyzeAllocType base fuel h other).2 := by
  induction fuel generalizing h table other with
  | zero => exact ⟨rfl, agree⟩
  | succ fuel ih =>
      cases returns : (base.function h).returnsPointer with
      | false =>
          rw [AnalyzeAllocType_no_pointer returns, AnalyzeAllocType_no_pointer returns]
          exact ⟨rfl, agree⟩
      | true =>
          cases has_body : (base.function h).body with
          | none =>
              rw [AnalyzeAllocType_no_body returns has_body,
                AnalyzeAllocType_no_body returns has_body]
              exact ⟨rfl, agree⟩
          | some body =>
              have answers : ∀ part ∈ analysisHanded (base.function h) body,
                  Answers base (AnalyzeAllocType base fuel) (AnalyzeAllocType base fuel)
                    (Agree f g) part := by
                intro part member
                refine answers_of_call fun called args call table other agree => ?_
                have asked : Asks base h called := ⟨body, has_body, part, member, args, call⟩
                obtain ⟨not_f, not_g⟩ := unasked h (reached returns)
                refine handleCall_agree (by rintro rfl; exact not_f asked)
                  (by rintro rfl; exact not_g asked) (fun plain table other agree => ?_) agree
                refine ih called (fun returns_too => ?_) agree
                exact (reached returns).tail
                  ⟨plain, returns_too, body, has_body, part, member, args, call⟩
              rw [analysisHanded, List.forall_mem_append] at answers
              have empty : Alike (Agree f g) { visitedFuncs := table } { visitedFuncs := other } :=
                ⟨rfl, rfl, rfl, agree⟩
              have start : Alike (Agree f g) (analysisStart base fuel h table)
                  (analysisStart base fuel h other) := empty.visitParameters answers.1
              obtain ⟨after, _⟩ := start.traverseStmt body answers.2
              rw [AnalyzeAllocType_body returns has_body, AnalyzeAllocType_body returns has_body]
              simp only [after.result]
              exact ⟨trivial, after.tables.insert h _⟩

end Tables

section Forwarding

variable {base : CodeBase}

theorem handleExpr_call {analyze : Nat → AllocFuncs → Known × AllocFuncs} {e : CodeExpr} {f : Nat}
    {args : List CodeExpr} (call : directCall e = some (f, args)) (varMap : VarMap)
    (table : AllocFuncs) :
    handleExpr base analyze varMap table e = handleCall base analyze f table := by
  fun_induction directCall e with
  | case1 e ih => exact ih call
  | case2 called given =>
      cases call
      rfl
  | case3 e not_cast not_call => cases call

theorem traverseStmt_ret {analyze : Nat → AllocFuncs → Known × AllocFuncs}
    {traverser : AllocationTraverser} (first : traverser.result = none) (e : CodeExpr) :
    (traverser.traverseStmt base analyze (.ret e)).1.result =
      (handleExpr base analyze traverser.varMap traverser.visitedFuncs e).1 := by
  have visited : (traverser.visitReturnStmt base analyze e).1.result =
      (handleExpr base analyze traverser.varMap traverser.visitedFuncs e).1 := by
    rw [visitReturnStmt]
    by_cases nothing : (handleExpr base analyze traverser.varMap traverser.visitedFuncs e).1 = none
    · rw [if_pos nothing, nothing]
      exact first
    · rw [if_neg nothing, if_pos first]
  rw [traverseStmt]
  split
  · rw [traverseExpr_result]
    exact visited
  · exact visited

/-- Default arguments that call nothing ask for nothing. -/
theorem analysisStart_visited {g : Nat}
    (quiet : ∀ e ∈ parametersHanded (base.function g), directCall e = none) (fuel : Nat)
    (table : AllocFuncs) : (analysisStart base fuel g table).visitedFuncs = table := by
  have permits : ∀ part ∈ parametersHanded (base.function g), Permits base
      (AnalyzeAllocType base fuel) (AnalyzeAllocType base fuel) (fun visited => visited = table)
      part := by
    refine fun part member => permits_of_call fun f args call => ?_
    cases (quiet part member).symm.trans call
  exact (visitParameters_permitted (base.function g) { visitedFuncs := table } permits rfl).2

theorem GetAllocType_forwards {f g : Nat} (plain : (base.function f).promise = none)
    (forwards : Forwards base g f) (different : f ≠ g) :
    GetAllocType base g = (AnalyzeAllocType base (base.length - 1) f
      (((Visited.Table.insert (fun _ => none) g none).insert f (some .unknown)))).1.getD .none := by
  obtain ⟨returns, quiet, e, args, has_body, call⟩ := forwards
  have bound : g < base.length := by
    by_contra beyond
    cases has_body.symm.trans (Program.function_beyond (not_lt.mp beyond)).2
  obtain ⟨fuel, fueled⟩ : ∃ fuel, base.length = fuel + 1 := ⟨base.length - 1, by omega⟩
  have new : (Visited.Table.insert (fun _ => none) g none : AllocFuncs) f = none :=
    Visited.Table.insert_other _ different _
  have first : (analysisStart base fuel g (Visited.Table.insert (fun _ => none) g none)).result =
      none := analysisStart_result fuel g _
  rw [GetAllocType, fueled, AnalyzeAllocType_body returns has_body, Nat.add_sub_cancel]
  simp only
  rw [traverseStmt_ret first, handleExpr_call call, analysisStart_visited quiet, handleCall, new]
  simp only [IsAllocator_plain plain, ne_eq, not_true_eq_false, if_false]

/-- `int* climb(int n) { if (n > 0) return climb(n - 1); return new int; }`,
`int* make() { return climb(3); }` and `int* forward() { return (int*)make(); }`. -/
def forwardMake : CodeBase :=
  [{ numParams := 1,
     body := some (.seq (.ite .absent (.expr .other) (.ret (.call 0 [.other])) .absent)
       (.ret (.allocate .new))),
     returnsPointer := true, promise := none },
   { numParams := 0, body := some (.ret (.call 0 [.other])), returnsPointer := true,
     promise := none },
   { numParams := 0, body := some (.ret (.cast (.call 1 []))), returnsPointer := true,
     promise := none }]

theorem forwardMake_asks {h called : Nat} (asks : Asks forwardMake h called) :
    called = 0 ∨ called = 1 ∧ h = 2 := by
  obtain ⟨body, has_body, e, member, args, call⟩ := asks
  match h, has_body with
  | 0, has_body =>
      obtain rfl := Option.some.inj has_body
      simp [analysisHanded, parametersHanded, Program.function, Program.definition,
        Program.declaration, forwardMake,
        Function.default, stmtHanded, exprHanded, argsHanded] at member
      rcases member with rfl | rfl
      · exact Or.inl (Prod.mk.inj (Option.some.inj call)).1.symm
      · cases call
  | 1, has_body =>
      obtain rfl := Option.some.inj has_body
      simp [analysisHanded, parametersHanded, Program.function, Program.definition,
        Program.declaration, forwardMake,
        Function.default, stmtHanded, exprHanded, argsHanded] at member
      subst member
      exact Or.inl (Prod.mk.inj (Option.some.inj call)).1.symm
  | 2, has_body =>
      obtain rfl := Option.some.inj has_body
      simp [analysisHanded, parametersHanded, Program.function, Program.definition,
        Program.declaration, forwardMake,
        Function.default, stmtHanded, exprHanded, argsHanded] at member
      subst member
      exact Or.inr ⟨(Prod.mk.inj (Option.some.inj call)).1.symm, rfl⟩
  | _ + 3, has_body => cases has_body

theorem forwardMake_unasked : Unasked forwardMake 1 2 := by
  intro h reached
  have not_forward : h ≠ 2 := by
    induction reached with
    | refl => decide
    | tail _ consults ih =>
        obtain ⟨_, _, body, has_body, part, member, args, call⟩ := consults
        rcases forwardMake_asks ⟨body, has_body, part, member, args, call⟩ with rfl | ⟨rfl, _⟩
        · decide
        · decide
  constructor
  · intro asks
    rcases forwardMake_asks asks with called | ⟨_, same⟩
    · cases called
    · exact not_forward same
  · intro asks
    rcases forwardMake_asks asks with called | ⟨called, _⟩
    · cases called
    · cases called

theorem forwardMake_forwards : Forwards forwardMake 2 1 :=
  ⟨rfl, fun _ member => absurd member List.not_mem_nil, _, _, rfl, rfl⟩

/-- `func28` of the tests and `int* forward(int n) { return func28(n); }`: the recursive call has
no value while `func28` is asked about, and is unknown while `forward` is. -/
def forwardFunc28 : CodeBase :=
  [{ numParams := 1,
     body := some (.seq (.ite .absent (.expr .other) (.ret (.call 0 [.other])) .absent)
       (.ret (.allocate .new))),
     returnsPointer := true, promise := none },
   { numParams := 1, body := some (.ret (.call 0 [.var (.param 0)])), returnsPointer := true,
     promise := none }]

/-- `int* h(int* p, bool c, bool d);`, a definition of `h` with the body `{ if (c) { if (d)
p = nullptr; if (d) return new int; return p; } return new int; }`, and functions that forward to
the one and to the other. The body names the parameters of the definition only. -/
example :
    let base : CodeBase :=
      [{ numParams := 3, body := none, returnsPointer := true, promise := none,
         definedBy := some 1 },
       { numParams := 3,
         body := some (.seq (.ite .absent (.expr .other)
             (.seq (.ite .absent (.expr .other) (.expr (.assign (.param 0) .null)) .absent)
               (.seq (.ite .absent (.expr .other) (.ret (.allocate .new)) .absent)
                 (.ret (.var (.param 0))))) .absent)
           (.ret (.allocate .new))),
         returnsPointer := true, promise := none },
       { numParams := 0, body := some (.ret (.call 0 [])), returnsPointer := true,
         promise := none },
       { numParams := 0, body := some (.ret (.call 1 [])), returnsPointer := true,
         promise := none }]
    (List.range 4).map (GetAllocType base) = [.new, .unknown, .new, .unknown] := by
  decide

end Forwarding

end CppInterOp
