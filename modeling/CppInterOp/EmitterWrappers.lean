import CppInterOp.EmitterAnalysis
import CppInterOp.Library.CallLists
import Mathlib.Data.List.Forall2

/-!
When the two emitters agree: the functions they emit, what the emitted bodies do with each
parameter, and the records they warn of.
-/

namespace CppInterOp

open CallLists Delimiters

def places {Placeholder : StringRef} (nonempty : Placeholder ≠ []) (Pattern : StringRef) : Nat :=
  (pieces nonempty Pattern).length - 1

def PlacedOnce (Placeholder Pattern before behind : StringRef) : Prop :=
  Pattern = before ++ Placeholder ++ behind ∧ ¬Placeholder <:+: before ∧ ¬Placeholder <:+: behind

section

variable {first : Char} {later Pattern before behind : StringRef}

theorem PlacedOnce.pieces (once : first ∉ later)
    (placed : PlacedOnce (first :: later) Pattern before behind) :
    pieces (List.cons_ne_nil first later) Pattern = [before, behind] := by
  obtain ⟨rfl, free_before, free_behind⟩ := placed
  have whole : (first :: later).intercalate [before, behind] = before ++ first :: later ++ behind := by
    rw [List.intercalate_cons_of_ne_nil (List.cons_ne_nil _ _), List.intercalate_singleton]
  rw [← whole]
  apply pieces_intercalate once (List.cons_ne_nil _ _)
  intro part member
  rcases List.mem_cons.mp member with rfl | member
  · exact free_before
  · exact List.mem_singleton.mp member ▸ free_behind

/-- A single place is filled with the value, and nothing else is changed. -/
theorem PlacedOnce.subst (once : first ∉ later)
    (placed : PlacedOnce (first :: later) Pattern before behind) (Value : StringRef) :
    substPlaceholder (List.cons_ne_nil first later) Pattern Value = before ++ Value ++ behind := by
  rw [substPlaceholder, placed.pieces once, List.intercalate_cons_of_ne_nil (List.cons_ne_nil _ _),
    List.intercalate_singleton]

theorem places_eq_one (once : first ∉ later) :
    places (List.cons_ne_nil first later) Pattern = 1 ↔
      ∃ before behind, PlacedOnce (first :: later) Pattern before behind := by
  constructor
  · intro single
    have whole := intercalate_pieces (List.cons_ne_nil first later) Pattern
    have free := fun piece => @pieces_free _ _ _ (List.cons_ne_nil first later) Pattern piece
    rw [places] at single
    match cut : Delimiters.pieces (List.cons_ne_nil first later) Pattern with
    | [] => simp [cut] at single
    | [only] => simp [cut] at single
    | [before, behind] =>
        rw [cut] at whole free
        refine ⟨before, behind, ?_, free before List.mem_cons_self,
          free behind (List.mem_cons_of_mem _ List.mem_cons_self)⟩
        rw [← whole, List.intercalate_cons_of_ne_nil (List.cons_ne_nil _ _), List.intercalate_singleton]
    | before :: middle :: behind :: more => simp [cut] at single
  · rintro ⟨before, behind, placed⟩
    rw [places, placed.pieces once]
    rfl

end

/-- The calls of the C++ function in a statement; a conversion makes one wherever it puts the
result. -/
def CStmt.calls : CStmt → List CppCall
  | .call made => [made]
  | .declareCall _ made => [made]
  | .returnCall made => [made]
  | .returnConversion RetConversion made =>
      List.replicate (places resultPlaceholder_ne_nil RetConversion) made
  | _ => []

theorem substPlaceholder_infix {Placeholder : StringRef} (nonempty : Placeholder ≠ []) {Pattern : StringRef}
    (place : places nonempty Pattern ≠ 0) (Value : StringRef) :
    Value <:+: substPlaceholder nonempty Pattern Value := by
  cases found : splitAtFirst Placeholder Pattern with
  | none =>
      rw [places, pieces_last nonempty found] at place
      exact absurd rfl place
  | some parts =>
      obtain ⟨before, behind⟩ := parts
      refine ⟨before, Value.intercalate (pieces nonempty behind), ?_⟩
      rw [substPlaceholder, pieces_more nonempty found,
        List.intercalate_cons_of_ne_nil (pieces_ne_nil nonempty behind)]

/-- The calls of a statement stand in its text. -/
theorem render_of_calls {statement : CStmt} {made : CppCall} (called : made ∈ statement.calls) :
    made.render <:+: statement.render := by
  cases statement with
  | call other =>
      obtain rfl := List.mem_singleton.mp called
      exact ⟨_, _, rfl⟩
  | declareCall VarName other =>
      obtain rfl := List.mem_singleton.mp called
      exact ⟨_, _, rfl⟩
  | returnCall other =>
      obtain rfl := List.mem_singleton.mp called
      exact ⟨_, _, rfl⟩
  | returnConversion RetConversion other =>
      obtain ⟨place, rfl⟩ := List.mem_replicate.mp called
      have inside := substPlaceholder_infix resultPlaceholder_ne_nil place made.render
      exact inside.trans ⟨_, _, rfl⟩
  | declare TmpType VarName => exact nomatch called
  | collectionToArray VarName Entry => exact nomatch called
  | returnArr => exact nomatch called
  | line text => exact nomatch called

def CStmt.locals : CStmt → List StringRef
  | .declare _ VarName => [VarName]
  | .declareCall VarName _ => [VarName]
  | .collectionToArray _ _ => [arrName]
  | _ => []

def CStmt.temporary : CStmt → Option (StringRef × StringRef)
  | .declare TmpType VarName => some (TmpType, VarName)
  | _ => none

def CStmt.converted : CStmt → Option (StringRef × CTypeMapEntry)
  | .collectionToArray VarName Entry => some (VarName, Entry)
  | _ => none

def returnedArrays (body : List CStmt) : List (StringRef × CTypeMapEntry) :=
  if .returnArr ∈ body then body.filterMap CStmt.converted else []

/-- The type is a reference to the other type, which is none itself; blanks may stand before and
behind the `&`. -/
def RefersTo (Ty Referred : StringRef) : Prop :=
  (∃ last ∈ Referred.getLast?, isBlank last = false ∧ last ≠ '&') ∧
    ∃ before behind : StringRef, (∀ c ∈ before, isBlank c = true) ∧ (∀ c ∈ behind, isBlank c = true) ∧
      Ty = Referred ++ before ++ '&' :: behind

def Lists (templates : StringRef → Bool) (text : StringRef) (args : List StringRef) : Prop :=
  if args = [] then text = [] else arguments templates {} [] text = some (spread args)

section

variable (templates : StringRef → Bool) (types : TypeMap) (R : APIRecord) (signature : CSignature)
variable (body : List CStmt)

def cNames : List StringRef := (R.Args.flatMap (cParameters types)).map Prod.snd

/-- A plain parameter is passed as it is, or in the one place of its conversion. -/
def PlainPassed (A : ArgInfo) (arg : StringRef) : Prop :=
  if (types.entry A.Ty).ArgConversion = [] then arg = A.Name
  else ∃ before behind, PlacedOnce namePlaceholder (types.entry A.Ty).ArgConversion before behind ∧
    arg = before ++ A.Name ++ behind

/-- An out-collection is a temporary of the type it refers to, whose contents are returned; an
in-collection is the range of its two C parameters. -/
def Passed (A : ArgInfo) (arg : StringRef) : Prop :=
  if OutArg types A then
    (∃ TmpType, RefersTo A.Ty TmpType ∧ (TmpType, arg) ∈ body.filterMap CStmt.temporary) ∧
      (arg, types.entry A.Ty) ∈ returnedArrays body ∧ signature.CRetStr = (types.entry A.Ty).CType
  else if InArg types A then
    arg = '\x7b' :: (A.Name ++ "_data".toList ++ ", ".toList ++ (A.Name ++ "_data".toList) ++ " + ".toList ++
      (A.Name ++ "_size".toList) ++ ['\x7d'])
  else PlainPassed types A arg

def outArgs (Args : List ArgInfo) (args : List StringRef) : List StringRef :=
  ((Args.zip args).filter fun passed => OutArg types passed.1).map Prod.snd

/-- The C parameters are those of the parameters in order, under distinct names, and the C++
function is called once, with one argument for each parameter; no two out-collections share a
temporary, and no variable of the body has the name of a C parameter. -/
structure RightBody : Prop where
  declared : signature.CDeclArgs = joined ((R.Args.flatMap (cParameters types)).map spelled)
  named : ∀ name ∈ cNames types R, IsName name
  distinct : (cNames types R).Nodup
  called : ∃ (text : StringRef) (args : List StringRef),
    body.flatMap CStmt.calls = [⟨R.CppName, text⟩] ∧ Lists templates text args ∧
    args.length = R.Args.length ∧ List.Forall₂ (Passed types signature body) R.Args args ∧
    (outArgs types R.Args args).Nodup
  apart : ∀ name ∈ body.flatMap CStmt.locals, name ∉ cNames types R

def SingleOut : Prop := (R.Args.filter fun A => OutArg types A).length ≤ 1

instance : Decidable (SingleOut types R) := inferInstanceAs (Decidable (_ ≤ _))

def ReturnsArray : Prop := (∃ A ∈ R.Args, OutArg types A) ∨ (types.entry R.ReturnType).IsReturn

/-- Where the body has variables, no plain parameter is named like one. -/
def NamedApart : Prop :=
  ReturnsArray types R → ∀ A ∈ R.Args, ¬ OutArg types A → ¬ InArg types A →
    A.Name ≠ outName ∧ A.Name ≠ arrName

/-- A conversion has one place for the parameter, and with the name in it is one argument. -/
def ConvertsArgs : Prop :=
  ∀ A ∈ R.Args, ¬ OutArg types A → ¬ InArg types A → (types.entry A.Ty).ArgConversion ≠ [] →
    ∃ before behind, PlacedOnce namePlaceholder (types.entry A.Ty).ArgConversion before behind ∧
      Whole templates (before ++ A.Name ++ behind)

/-- The type of an out-collection is a reference, written with the `&` at its end. -/
def RefersOut : Prop :=
  ∀ A ∈ R.Args, OutArg types A → (∃ Referred, RefersTo A.Ty Referred) ∧ A.Ty.getLast? = some '&'

/-- Where a conversion is applied to the result, it has one place for it. -/
def PlacesResult : Prop :=
  ¬ ReturnsArray types R → R.ReturnType ≠ voidType → (types.entry R.ReturnType).RetConversion ≠ [] →
    ∃ before behind, PlacedOnce resultPlaceholder (types.entry R.ReturnType).RetConversion before behind

end

def CPiece.declared : CPiece → Option CSignature
  | .declaration signature => some signature
  | _ => none

def CPiece.defined : CPiece → Option CSignature
  | .definition signature _ => some signature
  | _ => none

def Warned (output : List CPiece) (R : APIRecord) : Prop :=
  ∃ warned : CWarning, CPiece.warning warned ∈ output ∧ warned.CppName = R.CppName

/-- Both emitters emit the same functions, every emitted body is right, and both warn of a
record that is skipped without being marked; `<` opens a list behind the names of `templates`. -/
structure ConsistentWrappers (templates : StringRef → Bool) (Records : RecordKeeper) : Prop where
  signatures : (declOutput Records).filterMap CPiece.declared =
    (implOutput Records).filterMap CPiece.defined
  bodies : ∀ R ∈ Records.CppInterOpAPI, ∀ signature body,
    CPiece.definition signature body ∈ implPieces (collectCTypeMaps Records) R →
      RightBody templates (collectCTypeMaps Records) R signature body
  skipped : ∀ R ∈ Records.CppInterOpAPI, R.NoCWrapper = false →
    (implPieces (collectCTypeMaps Records) R).filterMap CPiece.defined = [] →
      Warned (declOutput Records) R ∧ Warned (implOutput Records) R

structure Wrappable (templates : StringRef → Bool) (types : TypeMap) (R : APIRecord) : Prop where
  mappable : Mappable types R
  named : ∀ name ∈ cNames types R, IsName name
  distinct : (cNames types R).Nodup
  converts : ConvertsArgs templates types R
  single : SingleOut types R
  refers : RefersOut types R
  apart : NamedApart types R
  placed : PlacesResult types R

section

variable {types : TypeMap} {R : APIRecord} {wrapper : CWrapper}

/-- The three kinds of bodies: around an out-collection, around a returned collection, or the
bare call. -/
theorem wrapperBody_cases (made : wrapperOf types R = some wrapper) :
    (∃ (I : Nat) (A : ArgInfo), R.Args[I]? = some A ∧ OutArg types A ∧ wrapper.CRetStr = (types.entry A.Ty).CType ∧
      wrapperBody types R wrapper =
        [.declare (getCppTmpType A.Ty) outName, .call ⟨R.CppName, wrapper.CCallArgs⟩,
          .collectionToArray outName (types.entry A.Ty), .returnArr]) ∨
    ((∀ A ∈ R.Args, ¬ OutArg types A) ∧ (types.entry R.ReturnType).IsReturn ∧
      wrapperBody types R wrapper =
        [.declareCall outName ⟨R.CppName, wrapper.CCallArgs⟩,
          .collectionToArray outName (types.entry R.ReturnType), .returnArr]) ∨
    ((∀ A ∈ R.Args, ¬ OutArg types A) ∧ ¬ (types.entry R.ReturnType).IsReturn ∧
      wrapperBody types R wrapper =
        if R.ReturnType = voidType then [.call ⟨R.CppName, wrapper.CCallArgs⟩]
        else if (types.entry R.ReturnType).RetConversion ≠ [] then
          [.returnConversion (types.entry R.ReturnType).RetConversion ⟨R.CppName, wrapper.CCallArgs⟩]
        else [.returnCall ⟨R.CppName, wrapper.CCallArgs⟩]) := by
  have analyzed := analyzed_of_wrapperOf made
  have mappable := (wrapperOf_isSome.mp (by rw [made]; rfl)).2
  obtain ⟨RetEntry, mapped⟩ := Option.isSome_iff_exists.mp mappable.returned
  have entry : types.entry R.ReturnType = RetEntry := by
    rw [TypeMap.entry, mapped, Option.getD_some]
  rcases analyzed.out with ⟨free, none_out⟩ | ⟨I, A, position, out, found, returned⟩
  · refine .inr ?_
    by_cases collection : RetEntry.IsReturn
    · refine .inl ⟨none_out, by rw [entry]; exact collection, ?_⟩
      have kept : wrapper.RetCollEntry = some RetEntry := by
        simp [analyzed.collection, mapped, collection]
      simp only [wrapperBody, free, kept, entry]
    · refine .inr ⟨none_out, by rw [entry]; exact collection, ?_⟩
      have kept : wrapper.RetCollEntry = none := by
        simp [analyzed.collection, mapped, collection]
      simp only [wrapperBody, free, kept]
  · refine .inl ⟨I, A, position, out, returned, ?_⟩
    simp only [wrapperBody, found, position, Option.map_some, Option.getD_some]

theorem temporary_name (made : wrapperOf types R = some wrapper) {temporary : StringRef × StringRef}
    (member : temporary ∈ (wrapperBody types R wrapper).filterMap CStmt.temporary) :
    temporary.2 = outName := by
  rcases wrapperBody_cases made with ⟨I, A, -, -, -, body⟩ | ⟨-, -, body⟩ | ⟨-, -, body⟩
  · rw [body] at member
    simp only [List.filterMap_cons, CStmt.temporary, List.filterMap_nil, List.mem_singleton] at member
    rw [member]
  · rw [body] at member
    exact nomatch member
  · rw [body] at member
    split_ifs at member <;> exact nomatch member

theorem locals_eq (made : wrapperOf types R = some wrapper) :
    (wrapperBody types R wrapper).flatMap CStmt.locals = [outName, arrName] ∧ ReturnsArray types R ∨
      (wrapperBody types R wrapper).flatMap CStmt.locals = [] ∧ ¬ ReturnsArray types R := by
  rcases wrapperBody_cases made with ⟨I, A, position, out, -, body⟩ | ⟨free, collection, body⟩ |
    ⟨free, plain, body⟩
  · rw [body]
    exact .inl ⟨rfl, .inl ⟨A, List.mem_of_getElem? position, out⟩⟩
  · rw [body]
    exact .inl ⟨rfl, .inr collection⟩
  · refine .inr ⟨?_, ?_⟩
    · rw [body]
      split_ifs <;> rfl
    · rintro (⟨A, member, out⟩ | collection)
      · exact free A member out
      · exact plain collection

theorem calls_eq (made : wrapperOf types R = some wrapper) :
    (PlacesResult types R ∧
      (wrapperBody types R wrapper).flatMap CStmt.calls = [⟨R.CppName, wrapper.CCallArgs⟩]) ∨
    (¬ PlacesResult types R ∧ ∀ text,
      (wrapperBody types R wrapper).flatMap CStmt.calls ≠ [⟨R.CppName, text⟩]) := by
  rcases wrapperBody_cases made with ⟨I, A, position, out, -, body⟩ | ⟨free, collection, body⟩ |
    ⟨free, plain, body⟩
  · rw [body]
    exact .inl ⟨fun bare => absurd (.inl ⟨A, List.mem_of_getElem? position, out⟩) bare, rfl⟩
  · rw [body]
    exact .inl ⟨fun bare => absurd (.inr collection) bare, rfl⟩
  · have bare : ¬ ReturnsArray types R := by
      rintro (⟨A, member, out⟩ | collection)
      · exact free A member out
      · exact plain collection
    rw [body]
    by_cases void : R.ReturnType = voidType
    · rw [if_pos void]
      exact .inl ⟨fun _ valued => absurd void valued, rfl⟩
    · by_cases conversion : (types.entry R.ReturnType).RetConversion ≠ []
      · rw [if_neg void, if_pos conversion, List.flatMap_singleton, CStmt.calls]
        have once : places resultPlaceholder_ne_nil (types.entry R.ReturnType).RetConversion = 1 ↔ _ :=
          places_eq_one (by decide)
        by_cases place : places resultPlaceholder_ne_nil (types.entry R.ReturnType).RetConversion = 1
        · exact .inl ⟨fun _ _ _ => once.mp place, by rw [place]; rfl⟩
        · refine .inr ⟨fun placed => place (once.mpr (placed bare void conversion)), fun text single => ?_⟩
          exact place (by simpa using congrArg List.length single)
      · rw [if_neg void, if_neg conversion]
        exact .inl ⟨fun _ _ converts => absurd converts conversion, rfl⟩

/-- If every out-collection is passed under one name, the names repeat as often as there are
out-collections. -/
theorem outArgs_eq {passed : ArgInfo → StringRef → Prop} {name : StringRef}
    (named : ∀ A arg, passed A arg → OutArg types A → arg = name) {Args : List ArgInfo}
    {args : List StringRef} (all : List.Forall₂ passed Args args) :
    outArgs types Args args = List.replicate (Args.filter fun A => OutArg types A).length name := by
  induction all with
  | nil => rfl
  | cons here later ih =>
      rename_i A arg Args args
      unfold outArgs at ih ⊢
      rw [List.zip_cons_cons, List.filter_cons, List.filter_cons]
      by_cases out : OutArg types A
      · rw [if_pos (by simpa using out), if_pos (by simpa using out), List.map_cons, ih,
          List.length_cons, List.replicate_succ, named A arg here out]
      · rw [if_neg (by simpa using out), if_neg (by simpa using out), ih]

theorem outArgs_nodup (made : wrapperOf types R = some wrapper) {signature : CSignature}
    {args : List StringRef}
    (all : List.Forall₂ (Passed types signature (wrapperBody types R wrapper)) R.Args args) :
    (outArgs types R.Args args).Nodup ↔ SingleOut types R := by
  have named : ∀ A arg, Passed types signature (wrapperBody types R wrapper) A arg → OutArg types A →
      arg = outName := by
    intro A arg passed out
    rw [Passed, if_pos out] at passed
    obtain ⟨⟨TmpType, -, member⟩, -⟩ := passed
    exact temporary_name made member
  rw [outArgs_eq named all, List.nodup_replicate, SingleOut]

theorem eq_of_single (single : SingleOut types R) {A other : ArgInfo} (member : A ∈ R.Args)
    (present : other ∈ R.Args) (out : OutArg types A) (another : OutArg types other) : A = other := by
  have first : A ∈ R.Args.filter fun A => OutArg types A := by simp [member, out]
  have second : other ∈ R.Args.filter fun A => OutArg types A := by simp [present, another]
  rcases shape : R.Args.filter fun A => OutArg types A with _ | ⟨only, rest⟩
  · rw [shape] at first
    exact nomatch first
  · rw [SingleOut, shape, List.length_cons] at single
    obtain rfl : rest = [] := List.length_eq_zero_iff.mp (by omega)
    rw [shape, List.mem_singleton] at first second
    rw [first, second]

theorem dropped_back {p : Char → Bool} {text more : StringRef}
    (last : ∃ c ∈ text.getLast?, p c = false) (dropped : ∀ c ∈ more, p c = true) :
    ((text ++ more).reverse.dropWhile p).reverse = text := by
  obtain ⟨c, ends, kept⟩ := last
  have reversed : ∀ c ∈ more.reverse, p c = true := fun c member => dropped c (List.mem_reverse.mp member)
  obtain ⟨front, rfl⟩ := List.getLast?_eq_some_iff.mp ends
  rw [List.reverse_append, List.dropWhile_append_of_pos reversed, List.reverse_append,
    List.reverse_singleton, List.singleton_append, List.dropWhile_cons_of_neg (by rw [kept]; decide),
    List.reverse_cons, List.reverse_reverse]

/-- The temporary is of the type that is referred to exactly where the `&` comes last. -/
theorem refersTo_tmpType {Ty : StringRef} : RefersTo Ty (getCppTmpType Ty) ↔
    (∃ Referred, RefersTo Ty Referred) ∧ Ty.getLast? = some '&' := by
  constructor
  · intro refers
    refine ⟨⟨_, refers⟩, ?_⟩
    obtain ⟨-, before, behind, -, blanks, written⟩ := refers
    rcases List.eq_nil_or_concat' behind with rfl | ⟨front, last, rfl⟩
    · rw [written, List.getLast?_concat]
    · have blank := blanks last (by simp)
      have ends : Ty = getCppTmpType Ty ++ before ++ ['&'] ++ (front ++ [last]) := by
        rw [List.append_assoc _ ['&'], List.singleton_append]
        simpa using written
      have unchanged : (Ty.reverse.dropWhile (· = '&')).reverse = Ty := by
        have other : decide (last = '&') = false := by
          rw [decide_eq_false_iff_not]
          rintro rfl
          exact absurd blank (by decide)
        have kept := @dropped_back (· = '&') Ty []
          ⟨last, by rw [written]; simp [List.getLast?_cons], other⟩ (fun c absent => nomatch absent)
        rwa [List.append_nil] at kept
      have longer : getCppTmpType Ty = getCppTmpType Ty ++ before ++ ['&'] := by
        conv_lhs => rw [getCppTmpType, unchanged, ends]
        exact dropped_back ⟨'&', List.getLast?_concat, by decide⟩ (by simpa using blanks)
      have lengths := congrArg List.length longer
      simp at lengths
  · rintro ⟨⟨Referred, ⟨last, ends, kept, other⟩, before, behind, blank, blanks, written⟩, reference⟩
    obtain rfl : behind = [] := by
      rcases List.eq_nil_or_concat' behind with empty | ⟨front, final, rfl⟩
      · exact empty
      · have closes : final = '&' := by
          rw [written] at reference
          simpa [List.getLast?_cons] using reference
        exact absurd (closes ▸ blanks final (by simp)) (by decide)
    have front : (Ty.reverse.dropWhile (· = '&')).reverse = Referred ++ before := by
      rw [written]
      refine dropped_back ?_ (by simp)
      rcases List.eq_nil_or_concat' before with rfl | ⟨front, final, rfl⟩
      · exact ⟨last, by rw [List.append_nil]; exact ends, decide_eq_false other⟩
      · refine ⟨final, by simp, ?_⟩
        rw [decide_eq_false_iff_not]
        rintro rfl
        exact absurd (blank '&' (by simp)) (by decide)
    have same : getCppTmpType Ty = Referred := by
      rw [getCppTmpType, front]
      exact dropped_back ⟨last, ends, kept⟩ blank
    rw [same]
    exact ⟨⟨last, ends, kept, other⟩, before, [], blank, blanks, written⟩

theorem namePlaceholder_subst {Pattern before behind : StringRef}
    (placed : PlacedOnce namePlaceholder Pattern before behind) (Value : StringRef) :
    substPlaceholder namePlaceholder_ne_nil Pattern Value = before ++ Value ++ behind :=
  PlacedOnce.subst (by decide) placed Value

/-- Whatever is passed is what the analysis writes. -/
theorem passed_text (made : wrapperOf types R = some wrapper) {signature : CSignature} {A : ArgInfo}
    {arg : StringRef} (passed : Passed types signature (wrapperBody types R wrapper) A arg) :
    arg = passedText types A := by
  unfold Passed at passed
  unfold passedText converted
  by_cases out : OutArg types A
  · rw [if_pos out] at passed ⊢
    obtain ⟨⟨TmpType, -, member⟩, -⟩ := passed
    exact temporary_name made member
  · rw [if_neg out] at passed ⊢
    by_cases collection : InArg types A
    · rw [if_pos collection] at passed ⊢
      rw [passed]
      simp
    · rw [if_neg collection] at passed ⊢
      unfold PlainPassed at passed
      by_cases conversion : (types.entry A.Ty).ArgConversion = []
      · rw [if_pos conversion] at passed
        rw [if_neg (not_not.mpr conversion), passed]
      · rw [if_neg conversion] at passed
        obtain ⟨before, behind, placed, rfl⟩ := passed
        rw [if_pos conversion, namePlaceholder_subst placed]

theorem passed_of_single (made : wrapperOf types R = some wrapper) (single : SingleOut types R)
    (refers : RefersOut types R) {templates : StringRef → Bool} (converts : ConvertsArgs templates types R)
    {A : ArgInfo} (member : A ∈ R.Args) :
    Passed types wrapper.signature (wrapperBody types R wrapper) A (passedText types A) := by
  unfold Passed passedText converted
  by_cases out : OutArg types A
  · rw [if_pos out, if_pos out]
    rcases wrapperBody_cases made with ⟨I, other, position, another, returned, body⟩ |
      ⟨free, -, -⟩ | ⟨free, -, -⟩
    · obtain rfl := eq_of_single single member (List.mem_of_getElem? position) out another
      rw [body]
      refine ⟨⟨_, refersTo_tmpType.mpr (refers A member out), List.mem_singleton.mpr rfl⟩, ?_, returned⟩
      exact List.mem_singleton.mpr rfl
    · exact absurd out (free A member)
    · exact absurd out (free A member)
  · rw [if_neg out, if_neg out]
    by_cases collection : InArg types A
    · rw [if_pos collection, if_pos collection]
      simp
    · rw [if_neg collection, if_neg collection, PlainPassed]
      by_cases conversion : (types.entry A.Ty).ArgConversion = []
      · rw [if_pos conversion, if_neg (not_not.mpr conversion)]
      · obtain ⟨before, behind, placed, -⟩ := converts A member out collection conversion
        rw [if_neg conversion, if_pos conversion, namePlaceholder_subst placed]
        exact ⟨before, behind, placed, rfl⟩

theorem cNames_of_mem {A : ArgInfo} (member : A ∈ R.Args) {parameter : StringRef × StringRef}
    (declared : parameter ∈ cParameters types A) : parameter.2 ∈ cNames types R :=
  List.mem_map_of_mem (List.mem_flatMap.mpr ⟨A, member, declared⟩)

/-- Where the C parameters have names and the conversions make one argument each, every text that
is passed is one argument. -/
theorem passedText_whole {templates : StringRef → Bool} (named : ∀ name ∈ cNames types R, IsName name)
    (converts : ConvertsArgs templates types R) {A : ArgInfo} (member : A ∈ R.Args) :
    Whole templates (passedText types A) := by
  unfold passedText converted
  by_cases out : OutArg types A
  · rw [if_pos out]
    exact whole_name (List.all_eq_true.mp (by decide))
  · rw [if_neg out]
    by_cases collection : InArg types A
    · have parameters : cParameters types A =
          [((types.entry A.Ty).CType, A.Name ++ "_data".toList), ("size_t".toList, A.Name ++ "_size".toList)] := by
        rw [cParameters, if_neg out, if_pos collection]
      have data := named _ (cNames_of_mem member (parameters ▸ List.mem_cons_self))
      have size := named _ (cNames_of_mem member (parameters ▸ List.mem_cons_of_mem _ List.mem_cons_self))
      have plain : ∀ c ∈ ", ".toList ++ " + ".toList, decide (c ∉ marks) = true :=
        List.all_eq_true.mp (by decide)
      have text : "\x7b".toList ++ A.Name ++ "_data, ".toList ++ A.Name ++ "_data + ".toList ++ A.Name ++
          "_size\x7d".toList = '\x7b' :: ((A.Name ++ "_data".toList) ++ ", ".toList ++
            (A.Name ++ "_data".toList) ++ " + ".toList ++ (A.Name ++ "_size".toList) ++ ['\x7d']) := by
        simp
      rw [if_pos collection, text]
      apply whole_braced
      intro c within
      simp only [List.mem_append] at within
      rcases within with (((within | within) | within) | within) | within
      · exact (name_unmarked (data.1 c (List.mem_append.mpr within))).1
      · exact of_decide_eq_true (plain c (List.mem_append_left _ within))
      · exact (name_unmarked (data.1 c (List.mem_append.mpr within))).1
      · exact of_decide_eq_true (plain c (List.mem_append_right _ within))
      · exact (name_unmarked (size.1 c (List.mem_append.mpr within))).1
    · rw [if_neg collection]
      by_cases conversion : (types.entry A.Ty).ArgConversion = []
      · rw [if_neg (not_not.mpr conversion)]
        have parameters : cParameters types A = [((types.entry A.Ty).CType, A.Name)] := by
          rw [cParameters, if_neg out, if_neg collection]
        exact whole_name (named _ (cNames_of_mem member (parameters ▸ List.mem_cons_self))).1
      · obtain ⟨before, behind, placed, whole⟩ := converts A member out collection conversion
        rw [if_pos conversion, namePlaceholder_subst placed]
        exact whole

theorem append_ne_of_getLast (text : StringRef) {suffix other : StringRef} (nonempty : suffix ≠ [])
    (distinct : suffix.getLast? ≠ other.getLast?) : text ++ suffix ≠ other := by
  rintro rfl
  rw [List.getLast?_append_of_ne_nil _ nonempty] at distinct
  exact distinct rfl

theorem collection_name_ne (Name : StringRef) {name : StringRef} (local_name : name ∈ [outName, arrName]) :
    Name ++ "_data".toList ≠ name ∧ Name ++ "_size".toList ≠ name := by
  have suffixes : ∀ suffix ∈ ["_data".toList, "_size".toList], ∀ name ∈ [outName, arrName],
      suffix ≠ [] ∧ suffix.getLast? ≠ name.getLast? := by decide
  obtain ⟨data, data_last⟩ := suffixes _ List.mem_cons_self name local_name
  obtain ⟨size, size_last⟩ := suffixes _ (List.mem_cons_of_mem _ List.mem_cons_self) name local_name
  exact ⟨append_ne_of_getLast Name data data_last, append_ne_of_getLast Name size size_last⟩

theorem namedApart_iff : NamedApart types R ↔ ReturnsArray types R →
    ∀ name ∈ [outName, arrName], name ∉ cNames types R := by
  constructor
  · intro apart returns name local_name named
    obtain ⟨parameter, member, rfl⟩ := List.mem_map.mp named
    obtain ⟨A, present, declared⟩ := List.mem_flatMap.mp member
    unfold cParameters at declared
    by_cases out : OutArg types A
    · rw [if_pos out] at declared
      exact nomatch declared
    · by_cases collection : InArg types A
      · rw [if_neg out, if_pos collection] at declared
        obtain ⟨data, size⟩ := collection_name_ne A.Name local_name
        rcases List.mem_cons.mp declared with rfl | declared
        · exact data rfl
        · rw [List.mem_singleton.mp declared] at size
          exact size rfl
      · rw [if_neg out, if_neg collection, List.mem_singleton] at declared
        obtain ⟨out_name, arr_name⟩ := apart returns A present out collection
        rw [declared] at local_name
        rcases List.mem_cons.mp local_name with same | same
        · exact out_name same
        · exact arr_name (List.mem_singleton.mp same)
  · intro apart returns A present out collection
    have named : A.Name ∈ (R.Args.flatMap (cParameters types)).map Prod.snd := by
      refine List.mem_map.mpr ⟨((types.entry A.Ty).CType, A.Name), ?_, rfl⟩
      refine List.mem_flatMap.mpr ⟨A, present, ?_⟩
      rw [cParameters, if_neg out, if_neg collection]
      exact List.mem_singleton.mpr rfl
    refine ⟨fun same => ?_, fun same => ?_⟩
    · exact apart returns outName List.mem_cons_self (same ▸ named)
    · exact apart returns arrName (List.mem_cons_of_mem _ List.mem_cons_self) (same ▸ named)

/-- The texts that are passed are listed exactly where each of them is one argument. -/
theorem lists_passed {templates : StringRef → Bool} :
    Lists templates (joined (R.Args.map (passedText types))) (R.Args.map (passedText types)) ↔
      ∀ A ∈ R.Args, Whole templates (passedText types A) := by
  unfold Lists
  by_cases empty : R.Args.map (passedText types) = []
  · rw [if_pos empty, empty]
    refine iff_of_true rfl ?_
    rw [List.map_eq_nil_iff.mp empty]
    exact fun A absent => nomatch absent
  · rw [if_neg empty, joined, arguments_intercalate empty]
    exact List.forall_mem_map

/-- The body of a wrapper is right exactly where the C parameters have distinct names, each
conversion has its one place and makes one argument, and there is at most one out-collection, a
reference, and no name clash. -/
theorem rightBody_iff {templates : StringRef → Bool} (made : wrapperOf types R = some wrapper) :
    RightBody templates types R wrapper.signature (wrapperBody types R wrapper) ↔
      (∀ name ∈ cNames types R, IsName name) ∧ (cNames types R).Nodup ∧ ConvertsArgs templates types R ∧
        SingleOut types R ∧ RefersOut types R ∧ NamedApart types R ∧ PlacesResult types R := by
  have analyzed := analyzed_of_wrapperOf made
  constructor
  · intro right
    obtain ⟨text, args, calls, lists, -, all, once⟩ := right.called
    obtain ⟨places, rfl⟩ : PlacesResult types R ∧ text = joined (R.Args.map (passedText types)) := by
      rcases calls_eq made with ⟨places, same⟩ | ⟨-, other⟩
      · rw [same, analyzed.passed] at calls
        exact ⟨places, (congrArg CppCall.CCallArgs (List.singleton_inj.mp calls)).symm⟩
      · exact absurd calls (other text)
    have single := (outArgs_nodup made all).mp once
    obtain rfl : R.Args.map (passedText types) = args := by
      have texts : List.Forall₂ (· = ·) (R.Args.map (passedText types)) args := by
        rw [List.forall₂_map_left_iff]
        exact all.imp fun A arg passed => (passed_text made passed).symm
      rwa [List.forall₂_eq_eq_eq] at texts
    have whole := lists_passed.mp lists
    rw [List.forall₂_map_right_iff, List.forall₂_same] at all
    refine ⟨right.named, right.distinct, ?_, single, ?_, ?_, places⟩
    · intro A member out collection conversion
      have passed := all A member
      rw [Passed, if_neg out, if_neg collection, PlainPassed, if_neg conversion] at passed
      obtain ⟨before, behind, placed, text⟩ := passed
      exact ⟨before, behind, placed, text ▸ whole A member⟩
    · intro A member out
      have passed := all A member
      rw [Passed, if_pos out] at passed
      obtain ⟨⟨TmpType, refers, declared⟩, -⟩ := passed
      rcases wrapperBody_cases made with ⟨I, other, position, another, -, body⟩ | ⟨free, -, -⟩ | ⟨free, -, -⟩
      · obtain rfl := eq_of_single single member (List.mem_of_getElem? position) out another
        rw [body] at declared
        have same : TmpType = getCppTmpType A.Ty := congrArg Prod.fst (List.mem_singleton.mp declared)
        exact refersTo_tmpType.mp (same ▸ refers)
      · exact absurd out (free A member)
      · exact absurd out (free A member)
    · rw [namedApart_iff]
      intro returns name local_name
      rcases locals_eq made with ⟨same, -⟩ | ⟨-, bare⟩
      · exact right.apart name (same ▸ local_name)
      · exact absurd returns bare
  · rintro ⟨named, distinct, converts, single, refers, apart, places⟩
    have all : List.Forall₂ (Passed types wrapper.signature (wrapperBody types R wrapper)) R.Args
        (R.Args.map (passedText types)) := by
      rw [List.forall₂_map_right_iff, List.forall₂_same]
      exact fun A member => passed_of_single made single refers converts member
    have lists := lists_passed.mpr fun A member => passedText_whole named converts member
    refine ⟨analyzed.declared, named, distinct, ⟨_, R.Args.map (passedText types), ?_, lists, ?_, all, ?_⟩, ?_⟩
    · rcases calls_eq made with ⟨-, called⟩ | ⟨missing, -⟩
      · rw [called, analyzed.passed]
      · exact absurd places missing
    · rw [List.length_map]
    · exact (outArgs_nodup made all).mpr single
    · intro name local_name
      rcases locals_eq made with ⟨same, returns⟩ | ⟨none_local, -⟩
      · exact namedApart_iff.mp apart returns name (same ▸ local_name)
      · rw [none_local] at local_name
        exact nomatch local_name

end

section

variable {types : TypeMap} {R : APIRecord}

theorem declPieces_declared : (declPieces types R).filterMap CPiece.declared =
    ((wrapperOf types R).map CWrapper.signature).toList := by
  unfold declPieces
  cases wrapperOf types R <;> rfl

theorem implPieces_defined : (implPieces types R).filterMap CPiece.defined =
    ((wrapperOf types R).map CWrapper.signature).toList := by
  unfold implPieces
  cases wrapperOf types R <;> rfl

theorem definition_mem {signature : CSignature} {body : List CStmt} :
    CPiece.definition signature body ∈ implPieces types R ↔
      ∃ wrapper, wrapperOf types R = some wrapper ∧ signature = wrapper.signature ∧
        body = wrapperBody types R wrapper := by
  unfold implPieces
  cases wrapperOf types R with
  | none => simp
  | some wrapper => simp

/-- A record that is skipped without being marked is warned of in the analysis. -/
theorem warned_of_skipped (unmarked : R.NoCWrapper = false) (skipped : wrapperOf types R = none) :
    ∃ warned ∈ warningsOf types R, warned.CppName = R.CppName := by
  unfold wrapperOf at skipped
  have generated : canGenerateCWrapper types R = ((unmappable types R).isEmpty, unmappable types R) := by
    rw [canGenerateCWrapper, unmarked]
    rfl
  unfold warningsOf
  rw [generated] at skipped ⊢
  by_cases mapped : (unmappable types R).isEmpty = true
  · simp only [mapped, if_true] at skipped ⊢
    unfold analyzeCWrapper at skipped ⊢
    by_cases both : (findOutParam types R.Args 0 none).isSome ∧ R.ReturnType ≠ voidType
    · simp only [if_pos both]
      exact ⟨_, List.mem_append_right _ (List.mem_singleton.mpr rfl), rfl⟩
    · simp only [if_neg both] at skipped
      exact nomatch skipped
  · obtain ⟨warned, rest, shape⟩ := List.exists_cons_of_ne_nil
      (fun empty => mapped (List.isEmpty_iff.mpr empty))
    have member : warned ∈ unmappable types R := shape ▸ List.mem_cons_self
    refine ⟨warned, List.mem_append_left _ member, ?_⟩
    unfold unmappable at member
    rcases List.mem_append.mp member with returned | arg
    · split at returned
      · exact nomatch returned
      · rw [List.mem_singleton.mp returned]
        rfl
    · obtain ⟨A, -, rfl⟩ := Option.map_eq_some_iff.mp (Option.mem_toList.mp arg)
      rfl

end

theorem warningPieces_declared (Warnings : List CWarning) :
    (warningPieces Warnings).filterMap CPiece.declared = [] := by
  rw [List.filterMap_eq_nil_iff]
  intro piece member
  unfold warningPieces at member
  split at member
  · rcases List.mem_cons.mp member with rfl | member
    · rfl
    · obtain ⟨warned, -, rfl⟩ := List.mem_map.mp member
      rfl
  · exact nomatch member

theorem mem_warningPieces {Warnings : List CWarning} {warned : CWarning} (member : warned ∈ Warnings) :
    CPiece.warning warned ∈ warningPieces Warnings := by
  rw [warningPieces, if_pos (List.ne_nil_of_mem member)]
  exact List.mem_cons_of_mem _ (List.mem_map_of_mem member)

section

variable (Records : RecordKeeper)

/-- Whatever the records are, the two outputs have the same functions in the same order. -/
theorem signatures_agree : (declOutput Records).filterMap CPiece.declared =
    (implOutput Records).filterMap CPiece.defined := by
  have wrappers : (Records.CppInterOpAPI.flatMap (declPieces (collectCTypeMaps Records))).filterMap
      CPiece.declared =
      (Records.CppInterOpAPI.flatMap (implPieces (collectCTypeMaps Records))).filterMap CPiece.defined := by
    simp only [List.filterMap_flatMap, declPieces_declared, implPieces_defined]
  simp only [declOutput, implOutput, List.filterMap_append, List.filterMap_cons, CPiece.declared,
    CPiece.defined, wrappers, warningPieces_declared, List.append_nil, disposeDecls, disposeImpls,
    List.filterMap_nil]

theorem warned_in_declOutput {R : APIRecord} (member : R ∈ Records.CppInterOpAPI)
    (unmarked : R.NoCWrapper = false) (skipped : wrapperOf (collectCTypeMaps Records) R = none) :
    Warned (declOutput Records) R := by
  obtain ⟨warned, written, names⟩ := warned_of_skipped unmarked skipped
  refine ⟨warned, ?_, names⟩
  exact List.mem_append_right _ (mem_warningPieces (List.mem_flatMap.mpr ⟨R, member, written⟩))

theorem not_warned_in_implOutput (R : APIRecord) : ¬ Warned (implOutput Records) R := by
  rintro ⟨warned, member, -⟩
  rcases List.mem_append.mp member with member | dispose
  · rcases List.mem_cons.mp member with header | member
    · exact nomatch header
    · obtain ⟨other, -, piece⟩ := List.mem_flatMap.mp member
      unfold implPieces at piece
      cases made : wrapperOf (collectCTypeMaps Records) other with
      | none => simp [made] at piece
      | some wrapper => simp [made] at piece
  · simp [disposeImpls] at dispose

end

/-- `void Both(std::vector<DeclRef>& scopes, std::vector<FuncRef>& funcs)`. -/
def bothOut : APIRecord where
  CppName := "Both".toList
  DispatchName := "Both".toList
  ReturnType := voidType
  Doc := []
  NoCWrapper := false
  Args :=
    [⟨"std::vector<DeclRef>&".toList, "scopes".toList⟩, ⟨"std::vector<FuncRef>&".toList, "funcs".toList⟩]

def outVector : CTypeMapEntry where
  CType := "CppInterOpArray".toList
  CollectionKind := "outparam".toList
  ElementCType := "void*".toList

def bothOutRecords : RecordKeeper where
  CppInterOpAPI := [bothOut]
  CTypeMap :=
    [(voidType, { CType := voidType }), ("std::vector<DeclRef>&".toList, outVector),
      ("std::vector<FuncRef>&".toList, outVector)]

def isCast (name : StringRef) : Bool :=
  name ∈ ["static_cast".toList, "reinterpret_cast".toList, "const_cast".toList]

end CppInterOp
