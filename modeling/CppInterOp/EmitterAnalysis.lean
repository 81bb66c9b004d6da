import CppInterOp.EmitterCore

/-!
What the analysis of a record finds: the last of its out-collections, a list of C parameters and
one C++ argument for each of its parameters.
-/

namespace CppInterOp

open Delimiters

def joined (texts : List StringRef) : StringRef := [',', ' '].intercalate texts

theorem joined_cons (text : StringRef) {texts : List StringRef} (nonempty : texts ≠ []) :
    joined (text :: texts) = text ++ [',', ' '] ++ joined texts :=
  List.intercalate_cons_of_ne_nil nonempty

theorem joined_append {texts : List StringRef} (more : List StringRef) (nonempty : more ≠ []) :
    joined (texts ++ more) =
      joined texts ++ (if texts.isEmpty then [] else [',', ' ']) ++ joined more := by
  induction texts with
  | nil => rfl
  | cons first texts ih =>
      rw [List.cons_append, joined_cons first (List.append_ne_nil_of_right_ne_nil _ nonempty), ih]
      cases texts with
      | nil => simp [joined]
      | cons second texts =>
          rw [joined_cons first (List.cons_ne_nil second texts)]
          simp only [List.isEmpty_cons, List.append_assoc]

section

variable (types : TypeMap)

def OutArg (A : ArgInfo) : Prop := (types.entry A.Ty).IsOut

def InArg (A : ArgInfo) : Prop := (types.entry A.Ty).IsIn

instance : DecidablePred (OutArg types) := fun _ => inferInstanceAs (Decidable (_ = _))

instance : DecidablePred (InArg types) := fun _ => inferInstanceAs (Decidable (_ = _))

def cParameters (A : ArgInfo) : List (StringRef × StringRef) :=
  if OutArg types A then []
  else if InArg types A then
    [((types.entry A.Ty).CType, A.Name ++ "_data".toList), ("size_t".toList, A.Name ++ "_size".toList)]
  else [((types.entry A.Ty).CType, A.Name)]

def spelled (parameter : StringRef × StringRef) : StringRef := parameter.1 ++ [' '] ++ parameter.2

def converted (A : ArgInfo) : StringRef :=
  if InArg types A then
    "\x7b".toList ++ A.Name ++ "_data, ".toList ++ A.Name ++ "_data + ".toList ++ A.Name ++ "_size\x7d".toList
  else if (types.entry A.Ty).ArgConversion ≠ [] then
    substPlaceholder namePlaceholder_ne_nil (types.entry A.Ty).ArgConversion A.Name
  else A.Name

def passedText (A : ArgInfo) : StringRef := if OutArg types A then outName else converted types A

end

structure CArgStreams.Written (streams : CArgStreams) (parameters : List (StringRef × StringRef))
    (args : List StringRef) : Prop where
  declared : streams.DA = joined (parameters.map spelled)
  firstDA : streams.FirstDA = parameters.isEmpty
  passed : streams.CA = joined args
  firstCA : streams.FirstCA = args.isEmpty

namespace CArgStreams.Written

variable {streams : CArgStreams} {parameters : List (StringRef × StringRef)} {args : List StringRef}

theorem pass (written : streams.Written parameters args) (text : StringRef) :
    (streams.pass text).Written parameters (args ++ [text]) := by
  refine ⟨written.declared, written.firstDA, ?_, ?_⟩
  · rw [joined_append _ (List.cons_ne_nil _ _), ← written.passed, ← written.firstCA]
    simp [CArgStreams.pass, joined, List.intercalate]
  · simp [CArgStreams.pass]

theorem declare (written : streams.Written parameters args) {more : List (StringRef × StringRef)}
    (nonempty : more ≠ []) {text : StringRef} (same : text = joined (more.map spelled)) :
    (streams.declare text).Written (parameters ++ more) args := by
  refine ⟨?_, ?_, written.passed, written.firstCA⟩
  · have filled : more.map spelled ≠ [] := fun empty => nonempty (List.map_eq_nil_iff.mp empty)
    rw [List.map_append, joined_append _ filled, ← written.declared, List.isEmpty_map,
      ← written.firstDA, ← same, CArgStreams.declare]
  · simp [CArgStreams.declare, nonempty]

/-- One parameter: its C parameters are declared and its C++ argument is passed. -/
theorem addArg (types : TypeMap) (written : streams.Written parameters args) (A : ArgInfo) :
    (streams.addArg types A).Written (parameters ++ cParameters types A)
      (args ++ [passedText types A]) := by
  unfold CArgStreams.addArg passedText cParameters converted
  by_cases out : OutArg types A
  · simp only [if_pos out, if_pos (show (types.entry A.Ty).IsOut from out), List.append_nil]
    exact written.pass outName
  · simp only [if_neg out, if_neg (show ¬ (types.entry A.Ty).IsOut from out)]
    by_cases collection : InArg types A
    · simp only [if_pos collection, if_pos (show (types.entry A.Ty).IsIn from collection)]
      apply Written.pass
      apply written.declare (List.cons_ne_nil _ _)
      simp [joined, List.intercalate, spelled]
    · simp only [if_neg collection, if_neg (show ¬ (types.entry A.Ty).IsIn from collection)]
      apply Written.pass
      apply written.declare (List.cons_ne_nil _ _)
      simp [joined, List.intercalate, spelled]

theorem foldl (types : TypeMap) (written : streams.Written parameters args) (Args : List ArgInfo) :
    (Args.foldl (CArgStreams.addArg types) streams).Written
      (parameters ++ Args.flatMap (cParameters types)) (args ++ Args.map (passedText types)) := by
  induction Args generalizing streams parameters args with
  | nil => simpa using written
  | cons A Args ih =>
      have next := ih (written.addArg types A)
      simpa only [List.foldl_cons, List.flatMap_cons, List.map_cons, List.append_assoc,
        List.singleton_append] using next

end CArgStreams.Written

section

variable (types : TypeMap)

theorem findOutParam_cons (A : ArgInfo) (Args : List ArgInfo) (I : Nat)
    (OutParam : Option (CTypeMapEntry × Nat)) :
    findOutParam types (A :: Args) I OutParam =
      findOutParam types Args (I + 1)
        (if OutArg types A then some (types.entry A.Ty, I) else OutParam) := by
  rw [findOutParam]
  cases mapped : types A.Ty with
  | none =>
      have free : ¬ OutArg types A := by
        rw [OutArg, TypeMap.entry, mapped, Option.getD_none]
        decide
      rw [if_neg free]
  | some Entry =>
      have entry : types.entry A.Ty = Entry := by rw [TypeMap.entry, mapped, Option.getD_some]
      simp only [OutArg, entry]

/-- The loop keeps what it had, where no out-collection follows, or has found one of them. -/
theorem findOutParam_cases (Args : List ArgInfo) (I : Nat) (OutParam : Option (CTypeMapEntry × Nat)) :
    (findOutParam types Args I OutParam = OutParam ∧ ∀ A ∈ Args, ¬ OutArg types A) ∨
      ∃ offset A, Args[offset]? = some A ∧ OutArg types A ∧
        findOutParam types Args I OutParam = some (types.entry A.Ty, I + offset) := by
  induction Args generalizing I OutParam with
  | nil => exact .inl ⟨rfl, fun _ absent => nomatch absent⟩
  | cons A Args ih =>
      rw [List.forall_mem_cons, findOutParam_cons]
      rcases ih (I + 1) (if OutArg types A then some (types.entry A.Ty, I) else OutParam) with
        ⟨kept, free⟩ | ⟨offset, other, position, out, found⟩
      · by_cases out : OutArg types A
        · rw [if_pos out] at kept ⊢
          exact .inr ⟨0, A, rfl, out, kept⟩
        · rw [if_neg out] at kept ⊢
          exact .inl ⟨kept, out, free⟩
      · refine .inr ⟨offset + 1, other, position, out, ?_⟩
        rw [found, Nat.add_right_comm, Nat.add_assoc]

theorem unmappable_isEmpty (R : APIRecord) :
    (unmappable types R).isEmpty = true ↔
      (types R.ReturnType).isSome = true ∧ ∀ A ∈ R.Args, (types A.Ty).isSome = true := by
  unfold unmappable
  rw [List.isEmpty_iff, List.append_eq_nil_iff]
  refine and_congr ?_ ?_
  · cases (types R.ReturnType).isSome <;> simp
  · rw [Option.toList_eq_nil_iff, Option.map_eq_none_iff, List.find?_eq_none]
    simp [Option.isSome_iff_ne_none]

/-- A record can have a C wrapper: its types are in the map and it does not return both a value
and an out-collection. -/
structure Mappable (R : APIRecord) : Prop where
  returned : (types R.ReturnType).isSome = true
  args : ∀ A ∈ R.Args, (types A.Ty).isSome = true
  alone : (∃ A ∈ R.Args, OutArg types A) → R.ReturnType = voidType

theorem findOutParam_isSome (Args : List ArgInfo) :
    (findOutParam types Args 0 none).isSome = true ↔ ∃ A ∈ Args, OutArg types A := by
  rcases findOutParam_cases types Args 0 none with ⟨kept, free⟩ | ⟨offset, A, position, out, found⟩
  · rw [kept]
    refine ⟨fun found => (nomatch found), fun ⟨A, member, out⟩ => absurd out (free A member)⟩
  · rw [found]
    exact ⟨fun _ => ⟨A, List.mem_of_getElem? position, out⟩, fun _ => rfl⟩

variable {types}

/-- Exactly the records that are not marked and can have a wrapper get one. -/
theorem wrapperOf_isSome {R : APIRecord} :
    (wrapperOf types R).isSome = true ↔ R.NoCWrapper = false ∧ Mappable types R := by
  have mapped := unmappable_isEmpty types R
  unfold wrapperOf canGenerateCWrapper analyzeCWrapper
  cases marked : R.NoCWrapper with
  | true => simp
  | false =>
      by_cases all : (unmappable types R).isEmpty = true
      · obtain ⟨returned, args⟩ := mapped.mp all
        have out := findOutParam_isSome types R.Args
        by_cases both : (findOutParam types R.Args 0 none).isSome ∧ R.ReturnType ≠ voidType
        · simp only [Bool.false_eq_true, if_false, all, if_true, if_pos both]
          refine ⟨fun made => (nomatch made), fun ⟨_, mappable⟩ => ?_⟩
          exact absurd (mappable.alone (out.mp both.1)) both.2
        · simp only [Bool.false_eq_true, if_false, all, if_true, if_neg both]
          refine ⟨fun _ => ⟨trivial, returned, args, fun found => ?_⟩, fun _ => rfl⟩
          exact not_not.mp fun distinct => both ⟨out.mpr found, distinct⟩
      · simp only [Bool.false_eq_true, if_false, if_neg all]
        refine ⟨fun made => (nomatch made), fun ⟨_, mappable⟩ => ?_⟩
        exact absurd (mapped.mpr ⟨mappable.returned, mappable.args⟩) all

variable (types) in
/-- The wrapper of a record: one C++ argument for each parameter, the C parameters of all of
them, and the out-collection that the wrapper returns. -/
structure Analyzed (R : APIRecord) (wrapper : CWrapper) : Prop where
  declared : wrapper.CDeclArgs = joined ((R.Args.flatMap (cParameters types)).map spelled)
  passed : wrapper.CCallArgs = joined (R.Args.map (passedText types))
  collection : wrapper.RetCollEntry = (types R.ReturnType).filter fun Entry => Entry.IsReturn
  out : (wrapper.OutParam = none ∧ ∀ A ∈ R.Args, ¬ OutArg types A) ∨
    ∃ I A, R.Args[I]? = some A ∧ OutArg types A ∧ wrapper.OutParam = some (types.entry A.Ty, I) ∧
      wrapper.CRetStr = (types.entry A.Ty).CType

theorem analyzed_of_wrapperOf {R : APIRecord} {wrapper : CWrapper}
    (made : wrapperOf types R = some wrapper) : Analyzed types R wrapper := by
  have written : CArgStreams.Written {} [] [] := ⟨rfl, rfl, rfl, rfl⟩
  have streams := written.foldl types R.Args
  rw [List.nil_append, List.nil_append] at streams
  unfold wrapperOf at made
  split at made
  · unfold analyzeCWrapper at made
    by_cases both : (findOutParam types R.Args 0 none).isSome ∧ R.ReturnType ≠ voidType
    · simp only [if_pos both] at made
      exact nomatch made
    · simp only [if_neg both, Option.some_inj] at made
      rw [← made]
      refine ⟨streams.declared, streams.passed, rfl, ?_⟩
      rcases findOutParam_cases types R.Args 0 none with ⟨kept, free⟩ | ⟨I, A, position, out, found⟩
      · exact .inl ⟨kept, free⟩
      · rw [Nat.zero_add] at found
        exact .inr ⟨I, A, position, out, found, by simp only [found]⟩
  · exact nomatch made

end

end CppInterOp
