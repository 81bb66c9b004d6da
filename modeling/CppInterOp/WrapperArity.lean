import CppInterOp.WrapperCore

/-!
The arity of wrappers: which clause a run performs, and when it passes the arguments it is given.
-/

namespace CppInterOp

open Branching

theorem argExprs_index {parameters : List ParmVarDecl} {N : Nat} (bound : N ≤ parameters.length) :
    (argExprs parameters N).map ArgExpr.index = List.range N := by
  have index : ∀ PVD i, (argExpr PVD i).index = i := by
    intro PVD i
    rw [argExpr]
    split
    · rfl
    · rfl
    · split_ifs <;> rfl
  have pointwise : (ArgExpr.index ∘ fun parameter : ParmVarDecl × Nat =>
      argExpr parameter.1 parameter.2) = Prod.snd := by
    funext parameter
    exact index parameter.1 parameter.2
  rw [argExprs, List.map_map, pointwise, List.zipIdx_map_snd, List.length_take,
    Nat.min_eq_left bound, List.range_eq_range']

namespace FunctionDecl

variable {FD : FunctionDecl} {input : WrapperInput}

theorem min_le_num : FD.getMinRequiredExplicitArguments ≤ FD.getNumNonObjectParams := by
  have shorter := (List.rdropWhile_prefix ParmVarDecl.hasDefaultArg FD.parameters).length_le
  rw [getMinRequiredExplicitArguments, getNumNonObjectParams, nonObjectParameters,
    getMinRequiredArguments]
  split_ifs
  · rw [List.length_tail]
    exact Nat.sub_le_sub_right shorter 1
  · exact shorter

theorem getMinRequiredArguments_eq {needed optional : List ParmVarDecl}
    (parameters : FD.parameters = needed ++ optional)
    (without : ∀ PVD ∈ needed, PVD.hasDefaultArg = false)
    (with_default : ∀ PVD ∈ optional, PVD.hasDefaultArg = true) :
    FD.getMinRequiredArguments = needed.length := by
  have kept : needed.rdropWhile ParmVarDecl.hasDefaultArg = needed := by
    refine List.rdropWhile_eq_self_iff.mpr fun nonempty => ?_
    exact Bool.eq_false_iff.mp (without _ (List.getLast_mem nonempty))
  rw [getMinRequiredArguments, parameters]
  clear parameters
  induction optional using List.reverseRecOn with
  | nil => rw [List.append_nil, kept]
  | append_singleton optional last ih =>
      rw [← List.append_assoc, List.rdropWhile_concat_pos _ _ _
        (with_default last (List.mem_append_right _ List.mem_cons_self))]
      exact ih fun PVD member => with_default PVD (List.mem_append_left _ member)

def constructsArray (FD : FunctionDecl) (nary : Nat) : Bool :=
  FD.isDefaultConstructor && decide (1 < nary)

theorem performed_newExpression (N : Nat) (array : Bool) :
    (FD.newExpression N array).performed input.holds =
      [.new input.is_arena array (FD.make_narg_ctor N array)] := by
  rw [newExpression, Script.performed, Script.run]
  cases arena : input.is_arena <;> simp [WrapperInput.holds, arena, Script.run]

theorem performed_ctor (N : Nat) :
    (FD.make_narg_ctor_with_return N).performed input.holds =
      [.new input.is_arena (FD.constructsArray input.nary)
        (FD.make_narg_ctor N (FD.constructsArray input.nary))] := by
  rw [make_narg_ctor_with_return, constructsArray]
  cases FD.isDefaultConstructor with
  | false => exact performed_newExpression N false
  | true =>
      rw [if_pos rfl, Bool.true_and, Script.performed]
      cases array : decide (1 < input.nary) with
      | true =>
          have above : input.holds .naryAboveOne = true := array
          rw [Script.run_branch_true _ _ above]
          exact performed_newExpression N true
      | false =>
          have above : input.holds .naryAboveOne = false := array
          rw [Script.run_branch_false _ _ above]
          exact performed_newExpression N false

theorem performed_call (ordinary : FD.isConstructor = false) (N : Nat) :
    ∃ use, (FD.make_narg_call_with_return N).performed input.holds =
      [.call use (FD.make_narg_call N)] := by
  rw [make_narg_call_with_return, ordinary, if_neg Bool.false_ne_true]
  split
  · exact ⟨.nothing, rfl⟩
  · rw [Script.performed]
    cases given : input.holds .ret with
    | true =>
        rw [Script.run_branch_true _ _ given]
        exact ⟨.intoRet, rfl⟩
    | false =>
        rw [Script.run_branch_false _ _ given]
        exact ⟨.discarded, rfl⟩

theorem nonObjectParameters_constructor (constructs : FD.isConstructor = true) :
    FD.nonObjectParameters = FD.parameters := by
  rw [nonObjectParameters]
  split
  · next explicit =>
      have isMethod := (FD.object explicit).1
      rw [isConstructor, isMethod] at constructs
      cases constructs
  · rfl

theorem make_narg_ctor_index (constructs : FD.isConstructor = true) {N : Nat}
    (bound : N ≤ FD.getNumNonObjectParams) (array : Bool) :
    (FD.make_narg_ctor N array).map ArgExpr.index = if array then [] else List.range N := by
  rw [getNumNonObjectParams, nonObjectParameters_constructor constructs] at bound
  rw [make_narg_ctor]
  cases array with
  | true => simp
  | false =>
      by_cases some_args : N = 0
      · simp [some_args]
      · rw [if_pos ⟨some_args, rfl⟩]
        exact argExprs_index bound

/-- A clause performs one call or one construction, of as many arguments as the clause has, or of
none where it constructs an array. -/
theorem performed_clause {N : Nat} (bound : N ≤ FD.getNumNonObjectParams) :
    ∃ clause, (FD.make_narg_call_with_return N).performed input.holds = [clause] ∧
      clause.args.map ArgExpr.index =
        if FD.constructsArray input.nary then [] else List.range N := by
  cases constructs : FD.isConstructor with
  | true =>
      rw [make_narg_call_with_return, constructs, if_pos rfl]
      exact ⟨_, performed_ctor N, make_narg_ctor_index constructs bound _⟩
  | false =>
      obtain ⟨use, performed⟩ := @performed_call FD input constructs N
      refine ⟨_, performed, ?_⟩
      rw [constructsArray, isDefaultConstructor, constructs]
      exact argExprs_index bound

/-- A run performs the clause of the number of arguments it is given, or the only clause there is. -/
theorem runWrapper_eq :
    FD.runWrapper input =
      if FD.getMinRequiredExplicitArguments = FD.getNumNonObjectParams then
        (FD.make_narg_call_with_return FD.getNumNonObjectParams).performed input.holds
      else if FD.getMinRequiredExplicitArguments ≤ input.nargs ∧
          input.nargs ≤ FD.getNumNonObjectParams then
        (FD.make_narg_call_with_return input.nargs).performed input.holds
      else [] := by
  rw [runWrapper, get_wrapper_code]
  split
  · rfl
  · have alone : ∀ N, input.holds (.nargsIs N) = true ↔ N = input.nargs := by
      intro N
      rw [WrapperInput.holds, beq_iff_eq, eq_comm]
    rw [Script.performed_guarded List.nodup_range' alone]
    have among : input.nargs ∈ List.range' FD.getMinRequiredExplicitArguments
          (FD.getNumNonObjectParams + 1 - FD.getMinRequiredExplicitArguments) ↔
        FD.getMinRequiredExplicitArguments ≤ input.nargs ∧
          input.nargs ≤ FD.getNumNonObjectParams := by
      rw [List.mem_range'_1]
      have := FD.min_le_num
      omega
    rw [if_congr among rfl rfl]

/-- The run performs one call or construction, which is passed the given arguments in order. -/
def PassesArguments (FD : FunctionDecl) (input : WrapperInput) : Prop :=
  ∃ clause, FD.runWrapper input = [clause] ∧
    clause.args.map ArgExpr.index = List.range input.nargs

theorem clause_passes_iff {N nargs : Nat} (bound : N ≤ FD.getNumNonObjectParams) :
    (∃ clause, (FD.make_narg_call_with_return N).performed input.holds = [clause] ∧
        clause.args.map ArgExpr.index = List.range nargs) ↔
      if FD.constructsArray input.nary then nargs = 0 else N = nargs := by
  obtain ⟨clause, performed, index⟩ := @performed_clause FD input N bound
  have passes : (if FD.constructsArray input.nary then [] else List.range N) = List.range nargs ↔
      if FD.constructsArray input.nary then nargs = 0 else N = nargs := by
    split
    · rw [eq_comm, List.range_eq_nil]
    · constructor
      · intro same
        simpa using congrArg List.length same
      · rintro rfl
        rfl
  rw [← passes, performed, ← index]
  constructor
  · rintro ⟨other, same, passed⟩
    cases same
    exact passed
  · intro passed
    exact ⟨clause, rfl, passed⟩

end FunctionDecl

namespace JitCall

open FunctionDecl

variable {FD : FunctionDecl} {input : WrapperInput}

theorem counts_of_valid {result self : Bool} {args : ArgList} {nary : Nat}
    (accepted : AreArgumentsValid FD result args self nary = true) :
    FD.getMinRequiredExplicitArguments ≤ args.m_ArgSize ∧
      (FD.isConstructor = true → 1 < nary → FD.isDefaultConstructor = true) := by
  simp only [AreArgumentsValid, Bool.and_eq_true, Bool.not_eq_true', decide_eq_false_iff_not]
    at accepted
  obtain ⟨⟨⟨⟨⟨⟨_, enough⟩, _⟩, _⟩, _⟩, _⟩, single⟩ := accepted
  refine ⟨Nat.le_of_not_lt enough, ?_⟩
  intro constructs several
  rw [constructs, decide_eq_true several, Bool.and_true, Bool.true_and, bne_eq_false_iff_eq]
    at single
  rw [isDefaultConstructor, constructs, single]
  rfl

theorem constructsArray_iff {nary : Nat}
    (default : FD.isConstructor = true → 1 < nary → FD.isDefaultConstructor = true) :
    FD.constructsArray nary = true ↔ FD.isConstructor = true ∧ 1 < nary := by
  rw [constructsArray, Bool.and_eq_true, decide_eq_true_iff]
  constructor
  · rintro ⟨constructs, several⟩
    rw [isDefaultConstructor, Bool.and_eq_true] at constructs
    exact ⟨constructs.1, several⟩
  · rintro ⟨constructs, several⟩
    exact ⟨default constructs several, several⟩

/-- Of the arguments that the check accepts the wrapper passes all, in one clause, exactly when there
are no more of them than parameters, and none where an array is constructed. -/
theorem passesArguments_iff (result is_arena self : Bool) (args : ArgList) (nary : Nat)
    (accepted : AreArgumentsValid FD result args self nary = true) :
    FD.PassesArguments ⟨args.m_ArgSize, nary, result, is_arena⟩ ↔
      args.m_ArgSize ≤ FD.getNumNonObjectParams ∧
        (FD.isConstructor = true → 1 < nary → args.m_ArgSize = 0) := by
  obtain ⟨enough, default⟩ := counts_of_valid accepted
  have single : (FD.isConstructor = true → 1 < nary → args.m_ArgSize = 0) ↔
      (FD.constructsArray nary = true → args.m_ArgSize = 0) := by
    rw [constructsArray_iff default, and_imp]
  rw [PassesArguments, runWrapper_eq, single]
  split
  · next all_required =>
      rw [clause_passes_iff (Nat.le_refl _)]
      dsimp only
      split
      · next array =>
          have := FD.min_le_num
          simp only [array, forall_const]
          omega
      · next one =>
          simp only [one, Bool.false_eq_true, false_implies, and_true]
          omega
  · split
    · next within =>
        rw [clause_passes_iff within.2]
        dsimp only
        split
        · next array =>
            simp only [array, forall_const]
            omega
        · next one =>
            simp only [one, Bool.false_eq_true, false_implies, and_true, within.2]
    · next outside =>
        constructor
        · rintro ⟨clause, performed, _⟩
          cases performed
        · intro inside
          exact absurd ⟨enough, inside.1⟩ outside

/-- `void f(int, int = 0)` -/
def secondDefault : FunctionDecl where
  kind := .function
  returnsVoid := true
  explicitObject := false
  parameters := [⟨.kNotReference, false, false, false⟩, ⟨.kNotReference, false, false, true⟩]
  object := by simp

theorem passesArguments_secondDefault : secondDefault.PassesArguments ⟨1, 1, false, false⟩ :=
  (passesArguments_iff false false false ⟨true, 1⟩ 1 (by decide)).mpr ⟨by decide, by decide⟩

/-- `struct C { C(int = 0); }` -/
def defaultedConstructor : FunctionDecl where
  kind := .constructor
  returnsVoid := true
  explicitObject := false
  parameters := [⟨.kNotReference, false, false, true⟩]
  object := by simp

/-- A third argument leaves `f` without a clause, and an array of `C` leaves the argument out. -/
theorem arguments_dropped :
    (AreArgumentsValid secondDefault false ⟨true, 3⟩ false 1 = true ∧
        ¬secondDefault.PassesArguments ⟨3, 1, false, false⟩) ∧
      AreArgumentsValid defaultedConstructor true ⟨true, 1⟩ false 2 = true ∧
        ¬defaultedConstructor.PassesArguments ⟨1, 2, true, false⟩ := by
  refine ⟨⟨by decide, ?_⟩, by decide, ?_⟩
  · rintro ⟨clause, performed, _⟩
    have nothing : secondDefault.runWrapper ⟨3, 1, false, false⟩ = [] := by decide
    rw [nothing] at performed
    cases performed
  · rintro ⟨clause, performed, index⟩
    have array : defaultedConstructor.runWrapper ⟨1, 2, true, false⟩ = [.new false true []] := by
      decide
    rw [array] at performed
    cases performed
    cases index

end JitCall

end CppInterOp
