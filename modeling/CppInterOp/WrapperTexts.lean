import CppInterOp.Library.Counters
import CppInterOp.WrapperArity
import CppInterOp.WrapperTypes

/-!
The code of wrappers with the types in it: its typedefs are in scope where they are used, every
argument is passed as its parameter takes it, and without the types it is the code whose arity is
known.
-/

namespace CppInterOp

open Branching

structure TypedParam where
  type : QualType
  hasDefaultArg : Bool
  deriving DecidableEq, Repr

/-- A function with the types that its wrapper spells. `returned` is `none` for `void`. -/
structure TypedFunction where
  name : String
  kind : FunctionKind
  returned : Option QualType
  explicitObject : Bool
  parameters : List TypedParam
  /-- An overloaded operator other than the call operator. -/
  isOperator : Bool
  isTemplateInstantiation : Bool
  isVariadic : Bool
  object : explicitObject = true → kind = .method ∧
    ∃ PVD ∈ parameters.head?, PVD.hasDefaultArg = false

/-- `((R (&)(T1, ..., Tn))f)`, where `none` returns `void`. -/
structure CastText where
  returned : Option TypeInfo
  parameters : List QualType
  isVariadic : Bool
  deriving DecidableEq, Repr

inductive ResultText
  | nothing
  | intoRet (info : TypeInfo)
  | discarded
  deriving DecidableEq, Repr

inductive TextPiece
  | typedef (name : TypedefName) (QT : QualType)
  | call (result : ResultText) (cast : Option CastText) (args : List ArgText)
  | new (placement array : Bool) (args : List ArgText)
  deriving DecidableEq, Repr

abbrev WrapperText := Script WrapperTest TextPiece

namespace TextPiece

def binds : TextPiece → Typedefs
  | typedef name QT => [(name, QT)]
  | call _ _ _ | new _ _ _ => []

def args : TextPiece → List ArgText
  | typedef _ _ => []
  | call _ _ args | new _ _ args => args

/-- The types that a piece names besides those of its arguments. -/
def infos : TextPiece → List TypeInfo
  | typedef _ _ | new _ _ _ => []
  | call result cast _ =>
      (match result with
        | .intoRet info => [info]
        | .nothing | .discarded => []) ++ (cast.bind CastText.returned).toList

end TextPiece

def PassesFrom (scope : Typedefs) : Nat → List ArgText → List TypedParam → Prop
  | _, [], _ => True
  | _, _ :: _, [] => False
  | i, arg :: args, PVD :: rest =>
      arg.Passes scope PVD.type i ∧ PassesFrom scope (i + 1) args rest

def NamedFrom (scope : Typedefs) : List ArgText → List TypedParam → Prop
  | [], _ => True
  | _ :: _, [] => False
  | arg :: args, PVD :: rest => arg.type_name.Names scope PVD.type ∧ NamedFrom scope args rest

def Typedefs.FoundIn (typedefs scope : Typedefs) : Prop :=
  ∀ entry ∈ typedefs, scope.lookup entry.1 = some entry.2

def withTypedefs (typedefs : Typedefs) (rest : WrapperText) : WrapperText :=
  typedefs.foldr (fun entry text => .seq (.perform (.typedef entry.1 entry.2)) text) rest

def argTexts (FD : String) :
    List TypedParam → Nat → WrapperSerial → (List ArgText × Typedefs) × WrapperSerial
  | [], _, serial => (([], []), serial)
  | PVD :: rest, i, serial =>
      let (first, next) := argText FD PVD.type i serial
      let (others, last) := argTexts FD rest (i + 1) next
      ((first.1 :: others.1, first.2 ++ others.2), last)

namespace TypedFunction

variable (FD : TypedFunction)

def nonObjectParameters : List TypedParam :=
  if FD.explicitObject then FD.parameters.tail else FD.parameters

def eraseParam (PVD : TypedParam) : ParmVarDecl where
  refType := (collect_type_info FD.name PVD.type true 0).1.refType
  isPointer := (collect_type_info FD.name PVD.type true 0).1.isPointer
  copyDeleted := IsCopyConstructorDeleted PVD.type
  hasDefaultArg := PVD.hasDefaultArg

def erase : FunctionDecl where
  kind := FD.kind
  returnsVoid := FD.returned.isNone
  explicitObject := FD.explicitObject
  parameters := FD.parameters.map FD.eraseParam
  object := by
    intro explicit
    obtain ⟨isMethod, PVD, first, required⟩ := FD.object explicit
    refine ⟨isMethod, FD.eraseParam PVD, ?_, required⟩
    rw [List.head?_map]
    exact Option.mem_map_of_mem _ first

def isConstructor : Bool := FD.kind == .constructor

/-- `ShouldCastFunction`: of the declarations only a function is no method. -/
def shouldCastFunction (N : Nat) : Bool :=
  FD.kind == .function && N == FD.parameters.length && !FD.isOperator && !FD.isTemplateInstantiation

def castText (returned : Option TypeInfo) (N : Nat) : Option CastText :=
  if FD.shouldCastFunction N then
    some ⟨returned, (FD.nonObjectParameters.take N).map TypedParam.type, FD.isVariadic⟩
  else none

def make_narg_ctor (N : Nat) (array : Bool) (serial : WrapperSerial) :
    (List ArgText × Typedefs) × WrapperSerial :=
  if N ≠ 0 ∧ array = false then argTexts FD.name (FD.parameters.take N) 0 serial
  else (([], []), serial)

def make_narg_call (N : Nat) (serial : WrapperSerial) :
    (List ArgText × Typedefs) × WrapperSerial :=
  argTexts FD.name (FD.nonObjectParameters.take N) 0 serial

/-- The expressions with and without placement are generated one after the other, with typedefs of
their own. -/
def newExpression (N : Nat) (array : Bool) (serial : WrapperSerial) :
    (WrapperText × Typedefs) × WrapperSerial :=
  let (placed, next) := FD.make_narg_ctor N array serial
  let (free, last) := FD.make_narg_ctor N array next
  ((.branch .is_arena (.perform (.new true array placed.1)) (.perform (.new false array free.1)),
    placed.2 ++ free.2), last)

/-- All typedefs stand in front of the construction. -/
def make_narg_ctor_with_return (N : Nat) (serial : WrapperSerial) : WrapperText × WrapperSerial :=
  if FD.erase.isDefaultConstructor then
    let (array, next) := FD.newExpression N true serial
    let (single, last) := FD.newExpression N false next
    (withTypedefs (array.2 ++ single.2) (.branch .naryAboveOne array.1 single.1), last)
  else
    let (single, last) := FD.newExpression N false serial
    (withTypedefs single.2 single.1, last)

/-- The typedefs of the returned type stand before the test of `ret`, and once more behind it. -/
def make_narg_call_with_return (N : Nat) (serial : WrapperSerial) : WrapperText × WrapperSerial :=
  if FD.isConstructor then FD.make_narg_ctor_with_return N serial
  else
    match FD.returned with
    | none =>
        let (args, last) := FD.make_narg_call N serial
        (withTypedefs args.2
          (.seq (.perform (.call .nothing (FD.castText none N) args.1)) .stop), last)
    | some QT =>
        let (info, next) := collect_type_info FD.name QT false serial
        let (args, between) := FD.make_narg_call N next
        let (others, last) := FD.make_narg_call N between
        (withTypedefs info.typedefs
          (.branch .ret
            (withTypedefs (info.typedefs ++ args.2)
              (.seq (.perform (.call (.intoRet info) (FD.castText (some info) N) args.1)) .stop))
            (withTypedefs others.2
              (.seq (.perform (.call .discarded (FD.castText (some info) N) others.1)) .stop))),
          last)

def clauses : List Nat → WrapperSerial → List (Nat × WrapperText) × WrapperSerial
  | [], serial => ([], serial)
  | N :: rest, serial =>
      let (text, next) := FD.make_narg_call_with_return N serial
      let (others, last) := clauses rest next
      ((N, text) :: others, last)

def get_wrapper_code (serial : WrapperSerial) : WrapperText × WrapperSerial :=
  let min_args := FD.erase.getMinRequiredExplicitArguments
  let num_params := FD.erase.getNumNonObjectParams
  if min_args = num_params then FD.make_narg_call_with_return num_params (serial + 1)
  else
    let (texts, last) := FD.clauses (List.range' min_args (num_params + 1 - min_args)) (serial + 1)
    (.guarded (fun clause => .nargsIs clause.1) Prod.snd texts, last)

end TypedFunction

structure Draws (first : Nat) (typedefs : Typedefs) (next : Nat) : Prop where
  le : first ≤ next
  serials : typedefs.map (fun entry => entry.1.serial) =
    (List.range' first (next - first)).map WrapperSerial.drawn

namespace Draws

variable {first next last : Nat} {typedefs more : Typedefs}

theorem nothing (serial : Nat) : Draws serial [] serial := ⟨Nat.le_refl _, by simp⟩

theorem append (here : Draws first typedefs next) (there : Draws next more last) :
    Draws first (typedefs ++ more) last := by
  refine ⟨Nat.le_trans here.le there.le, ?_⟩
  rw [List.map_append, here.serials, there.serials, Counters.range'_split here.le there.le,
    List.map_append]

theorem nodup (draws : Draws first typedefs next) (few : next - first ≤ UInt64.size) :
    (typedefs.map Prod.fst).Nodup := by
  have distinct : (typedefs.map fun entry => entry.1.serial).Nodup := by
    rw [draws.serials]
    exact (Counters.nodup_drawn_iff (by decide) first (next - first)).mpr few
  rw [show (typedefs.map fun entry => entry.1.serial) =
    (typedefs.map Prod.fst).map TypedefName.serial by rw [List.map_map]; rfl] at distinct
  exact distinct.of_map

/-- Under distinct names a typedef is found in front of whatever else is in scope. -/
theorem found (draws : Draws first typedefs next) (few : next - first ≤ UInt64.size)
    (scope : Typedefs) : typedefs.FoundIn (typedefs.reverse ++ scope) := by
  intro entry member
  refine Counters.lookup_of_mem ?_ (List.mem_reverse.mpr member)
  rw [List.map_reverse, List.nodup_reverse]
  exact draws.nodup few

/-- Typedefs that were made earlier are found behind those made later. -/
theorem found_behind (draws : Draws first (typedefs ++ more) next)
    (few : next - first ≤ UInt64.size) {earlier scope : Typedefs} (sub : earlier ⊆ typedefs)
    (found : earlier.FoundIn scope) : earlier.FoundIn (more.reverse ++ scope) := by
  intro entry member
  have apart := draws.nodup few
  rw [List.map_append, List.nodup_append] at apart
  have absent : more.reverse.lookup entry.1 = none := by
    rw [List.lookup_eq_none_iff]
    intro other made
    have differs := apart.2.2 entry.1 (List.mem_map_of_mem (sub member)) other.1
      (List.mem_map_of_mem (List.mem_reverse.mp made))
    simpa using differs
  rw [List.lookup_append, absent, Option.none_or]
  exact found entry member

end Draws

section Serials

variable {FD : String} {serial : WrapperSerial}

theorem draws_typedefInfo (kind : TypedefKind) (QT : QualType) (refType : EReferenceType)
    (isPointer : Bool) :
    Draws serial (typedefInfo kind QT refType isPointer serial).1.typedefs
      (typedefInfo kind QT refType isPointer serial).2 := by
  refine ⟨Nat.le_succ serial, ?_⟩
  simp [typedefInfo]

theorem draws_arrayOrPrinted (QT : QualType) (refType : EReferenceType) (isPointer : Bool) :
    Draws serial (arrayOrPrinted QT refType isPointer serial).1.typedefs
      (arrayOrPrinted QT refType isPointer serial).2 := by
  rw [arrayOrPrinted]
  split
  · exact draws_typedefInfo ..
  · exact Draws.nothing serial

theorem draws_collect (QT : QualType) (forArgument : Bool) :
    Draws serial (collect_type_info FD QT forArgument serial).1.typedefs
      (collect_type_info FD QT forArgument serial).2 := by
  cases QT with
  | builtin name => exact Draws.nothing serial
  | record name copyDeleted =>
      rw [collect_type_info]
      split
      · exact Draws.nothing serial
      · exact Draws.nothing serial
  | function returned parameters => exact draws_typedefInfo ..
  | memberPointer member className => exact draws_typedefInfo ..
  | array element size => exact draws_arrayOrPrinted (.array element size) .kNotReference false
  | pointer pointee =>
      rw [collect_pointer]
      split
      · exact draws_typedefInfo ..
      · exact draws_arrayOrPrinted ..
  | lvalueReference referee =>
      rw [collect_lvalueReference]
      split
      · exact draws_typedefInfo ..
      · exact draws_arrayOrPrinted ..
  | rvalueReference referee =>
      rw [collect_rvalueReference]
      split
      · exact draws_typedefInfo ..
      · exact draws_arrayOrPrinted ..

theorem draws_argTexts (parameters : List TypedParam) (i : Nat) (serial : WrapperSerial) :
    Draws serial (argTexts FD parameters i serial).1.2 (argTexts FD parameters i serial).2 := by
  induction parameters generalizing i serial with
  | nil => exact Draws.nothing serial
  | cons PVD rest ih => exact (draws_collect PVD.type true).append (ih (i + 1) _)

end Serials

namespace TypedFunction

variable {FD : TypedFunction} {N : Nat} {serial : WrapperSerial}

theorem draws_make_narg_ctor (array : Bool) :
    Draws serial (FD.make_narg_ctor N array serial).1.2 (FD.make_narg_ctor N array serial).2 := by
  rw [make_narg_ctor]
  split
  · exact draws_argTexts _ 0 serial
  · exact Draws.nothing serial

theorem draws_newExpression (array : Bool) :
    Draws serial (FD.newExpression N array serial).1.2 (FD.newExpression N array serial).2 :=
  (draws_make_narg_ctor array).append (draws_make_narg_ctor array)

def Undemanding (needs : Typedefs → TextPiece → Prop) : Prop :=
  ∀ scope name QT, needs scope (.typedef name QT)

theorem bound_withTypedefs (typedefs : Typedefs) (rest : WrapperText) :
    (withTypedefs typedefs rest).bound TextPiece.binds = typedefs ++ rest.bound TextPiece.binds := by
  induction typedefs with
  | nil => rfl
  | cons entry others ih =>
      rw [List.cons_append, ← ih]
      rfl

theorem atEach_withTypedefs {needs : Typedefs → TextPiece → Prop} (free : Undemanding needs)
    (typedefs : Typedefs) (rest : WrapperText) (scope : Typedefs) :
    (withTypedefs typedefs rest).AtEach TextPiece.binds needs scope ↔
      rest.AtEach TextPiece.binds needs (typedefs.reverse ++ scope) := by
  induction typedefs generalizing scope with
  | nil => exact Iff.rfl
  | cons entry others ih =>
      have later := ih (entry :: scope)
      rw [List.reverse_cons, List.append_assoc]
      refine Iff.trans ?_ later
      exact and_iff_right (free scope entry.1 entry.2)

theorem distinctBlocks_withTypedefs {typedefs : Typedefs} {rest : WrapperText}
    (distinct : (typedefs.map Prod.fst).Nodup) (nothing : rest.bound TextPiece.binds = [])
    (inside : rest.DistinctInside TextPiece.binds) :
    (withTypedefs typedefs rest).DistinctBlocks TextPiece.binds := by
  constructor
  · rw [bound_withTypedefs, nothing, List.append_nil]
    exact distinct
  · clear distinct
    induction typedefs with
    | nil => exact inside
    | cons entry others ih => exact ⟨trivial, ih⟩

section Clauses

theorem inside_newExpression (array : Bool) :
    (FD.newExpression N array serial).1.1.DistinctInside TextPiece.binds :=
  ⟨⟨List.nodup_nil, trivial⟩, List.nodup_nil, trivial⟩

theorem draws_make_narg_call :
    Draws serial (FD.make_narg_call N serial).1.2 (FD.make_narg_call N serial).2 :=
  draws_argTexts _ 0 serial

theorem serial_le_clause : serial ≤ (FD.make_narg_call_with_return N serial).2 := by
  rw [make_narg_call_with_return]
  split
  · rw [make_narg_ctor_with_return]
    split
    · exact ((draws_newExpression true).append (@draws_newExpression FD N _ false)).le
    · exact (draws_newExpression false).le
  · split
    · exact draws_make_narg_call.le
    · next QT _ =>
        have used := (@draws_collect FD.name serial QT false).append
          (@draws_make_narg_call FD N _)
        exact (used.append (@draws_make_narg_call FD N _)).le

theorem distinctBlocks_ctor
    (few : (FD.make_narg_ctor_with_return N serial).2 - serial ≤ UInt64.size) :
    (FD.make_narg_ctor_with_return N serial).1.DistinctBlocks TextPiece.binds := by
  rw [make_narg_ctor_with_return] at few ⊢
  cases default : FD.erase.isDefaultConstructor with
  | true =>
      rw [default, if_pos rfl] at few
      rw [if_pos rfl]
      have draws := (@draws_newExpression FD N serial true).append
        (@draws_newExpression FD N _ false)
      refine distinctBlocks_withTypedefs (draws.nodup few) rfl ?_
      exact ⟨⟨List.nodup_nil, inside_newExpression true⟩, List.nodup_nil,
        inside_newExpression false⟩
  | false =>
      rw [default, if_neg Bool.false_ne_true] at few
      rw [if_neg Bool.false_ne_true]
      have draws := @draws_newExpression FD N serial false
      exact distinctBlocks_withTypedefs (draws.nodup few) rfl (inside_newExpression false)

/-- No block of a clause makes a typedef twice. -/
theorem distinctBlocks_clause
    (few : (FD.make_narg_call_with_return N serial).2 - serial ≤ UInt64.size) :
    (FD.make_narg_call_with_return N serial).1.DistinctBlocks TextPiece.binds := by
  rw [make_narg_call_with_return] at few ⊢
  cases constructs : FD.isConstructor with
  | true =>
      rw [constructs, if_pos rfl] at few
      exact distinctBlocks_ctor few
  | false =>
      rw [constructs, if_neg Bool.false_ne_true] at few
      rw [if_neg Bool.false_ne_true]
      cases returned : FD.returned with
      | none =>
          rw [returned] at few
          have draws := @draws_make_narg_call FD N serial
          exact distinctBlocks_withTypedefs (draws.nodup few) rfl ⟨trivial, trivial⟩
      | some QT =>
          rw [returned] at few
          dsimp only at few ⊢
          have result := @draws_collect FD.name serial QT false
          have used := result.append (@draws_make_narg_call FD N _)
          have ignored := @draws_make_narg_call FD N (FD.make_narg_call N
            (collect_type_info FD.name QT false serial).2).2
          have usedFew := Nat.le_trans (Nat.sub_le_sub_right ignored.le serial) few
          have resultFew := Nat.le_trans (Nat.sub_le_sub_right
            (@draws_make_narg_call FD N (collect_type_info FD.name QT false serial).2).le serial)
            usedFew
          have ignoredFew := Nat.le_trans (Nat.sub_le_sub_left used.le _) few
          refine distinctBlocks_withTypedefs (result.nodup resultFew) rfl ⟨?_, ?_⟩
          · exact distinctBlocks_withTypedefs (used.nodup usedFew) rfl ⟨trivial, trivial⟩
          · exact distinctBlocks_withTypedefs (ignored.nodup ignoredFew) rfl ⟨trivial, trivial⟩

theorem infos_castText (returned : Option TypeInfo) :
    ∀ info ∈ (TextPiece.call .discarded (FD.castText returned N) []).infos, info ∈ returned := by
  intro info named
  rw [castText] at named
  split at named
  · exact Option.mem_toList.mp named
  · cases named

def ReturnedIn (FD : TypedFunction) (scope : Typedefs) (info : TypeInfo) : Prop :=
  ∃ QT start, FD.returned = some QT ∧ info = (collect_type_info FD.name QT false start).1 ∧
    info.typedefs.FoundIn scope

/-- The text of a call that has the result of `info` names no other type. -/
theorem infos_call {result : ResultText} {info : TypeInfo}
    (own : ∀ other ∈ (TextPiece.call result none []).infos, other = info) :
    ∀ other ∈ (TextPiece.call result (FD.castText (some info) N) []).infos, other = info := by
  intro other named
  rcases List.mem_append.mp named with kept | casts
  · exact own other (List.mem_append_left _ kept)
  · have given := infos_castText _ other casts
    exact (Option.mem_some_iff.mp given).symm

section Clauses

variable {needs : Typedefs → TextPiece → Prop} {P : Prop}

theorem atEach_constructs (free : Undemanding needs)
    (few : (FD.make_narg_ctor_with_return N serial).2 - serial ≤ UInt64.size)
    (new : ∀ scope placement array start,
      Typedefs.FoundIn (FD.make_narg_ctor N array start).1.2 scope →
        (needs scope (.new placement array (FD.make_narg_ctor N array start).1.1) ↔
          (array = false → P)))
    (scope : Typedefs) :
    (FD.make_narg_ctor_with_return N serial).1.AtEach TextPiece.binds needs scope ↔ P := by
  have expression : ∀ array start scope,
      Typedefs.FoundIn (FD.newExpression N array start).1.2 scope →
        ((FD.newExpression N array start).1.1.AtEach TextPiece.binds needs scope ↔
          (array = false → P)) := by
    intro array start scope found
    have placed := new scope true array start fun entry made =>
      found entry (List.mem_append_left _ made)
    have free := new scope false array (FD.make_narg_ctor N array start).2 fun entry made =>
      found entry (List.mem_append_right _ made)
    exact (and_congr placed free).trans (and_self_iff ..)
  rw [make_narg_ctor_with_return] at few ⊢
  cases default : FD.erase.isDefaultConstructor with
  | true =>
      rw [default, if_pos rfl] at few
      have draws := (@draws_newExpression FD N serial true).append
        (@draws_newExpression FD N _ false)
      have found := draws.found few scope
      rw [if_pos rfl, atEach_withTypedefs free]
      have arrays := expression true serial _ fun entry made =>
        found entry (List.mem_append_left _ made)
      have single := expression false (FD.newExpression N true serial).2 _
        fun entry made => found entry (List.mem_append_right _ made)
      refine (and_congr arrays single).trans ?_
      simp
  | false =>
      rw [default, if_neg Bool.false_ne_true] at few
      rw [if_neg Bool.false_ne_true, atEach_withTypedefs free]
      have single := expression false serial _ ((draws_newExpression false).found few scope)
      refine single.trans ?_
      simp

/-- The returned type has its typedefs in front of the test of `ret`, so that both calls find them. -/
theorem atEach_returns (free : Undemanding needs) (function : FD.isConstructor = false)
    {QT : QualType} (returned : FD.returned = some QT)
    (few : (FD.make_narg_call_with_return N serial).2 - serial ≤ UInt64.size)
    (call : ∀ scope result cast start,
      Typedefs.FoundIn (FD.make_narg_call N start).1.2 scope →
        (∀ info ∈ (TextPiece.call result cast []).infos, FD.ReturnedIn scope info) →
          (needs scope (.call result cast (FD.make_narg_call N start).1.1) ↔ P))
    (scope : Typedefs) :
    (FD.make_narg_call_with_return N serial).1.AtEach TextPiece.binds needs scope ↔ P := by
  rw [make_narg_call_with_return, function, if_neg Bool.false_ne_true, returned] at few ⊢
  dsimp only at few ⊢
  have result := @draws_collect FD.name serial QT false
  have used := result.append (@draws_make_narg_call FD N _)
  have ignored := @draws_make_narg_call FD N (FD.make_narg_call N
    (collect_type_info FD.name QT false serial).2).2
  have whole := used.append ignored
  have usedFew := Nat.le_trans (Nat.sub_le_sub_right ignored.le serial) few
  have resultFew := Nat.le_trans (Nat.sub_le_sub_right
    (@draws_make_narg_call FD N (collect_type_info FD.name QT false serial).2).le serial) usedFew
  have ignoredFew := Nat.le_trans (Nat.sub_le_sub_left used.le _) few
  have intoRet := used.found usedFew
    ((collect_type_info FD.name QT false serial).1.typedefs.reverse ++ scope)
  have discards := ignored.found ignoredFew
    ((collect_type_info FD.name QT false serial).1.typedefs.reverse ++ scope)
  have behind := whole.found_behind few (List.subset_append_left _ _)
    (result.found resultFew scope)
  rw [atEach_withTypedefs free]
  refine Iff.trans (and_congr ((atEach_withTypedefs free ..).trans (and_iff_left trivial))
    ((atEach_withTypedefs free ..).trans (and_iff_left trivial))) ?_
  refine Iff.trans (and_congr (call _ (.intoRet _) _ _ ?_ ?_) (call _ .discarded _ _ ?_ ?_))
    (and_self_iff ..)
  · exact fun entry made => intoRet entry (List.mem_append_right _ made)
  · intro info named
    rw [@infos_call FD N (.intoRet _) _ (fun info own => List.mem_singleton.mp own) info named]
    exact ⟨QT, serial, returned, rfl, fun entry made =>
      intoRet entry (List.mem_append_left _ made)⟩
  · exact discards
  · intro info named
    rw [@infos_call FD N .discarded _ (fun info own => absurd own List.not_mem_nil) info named]
    exact ⟨QT, serial, returned, rfl, behind⟩

/-- What a clause takes, once it is known what each of its calls and constructions takes with the
typedefs in scope that they use. -/
theorem atEach_clause (free : Undemanding needs)
    (few : (FD.make_narg_call_with_return N serial).2 - serial ≤ UInt64.size)
    (new : FD.isConstructor = true → ∀ scope placement array start,
      Typedefs.FoundIn (FD.make_narg_ctor N array start).1.2 scope →
        (needs scope (.new placement array (FD.make_narg_ctor N array start).1.1) ↔
          (array = false → P)))
    (call : ∀ scope result cast start,
      Typedefs.FoundIn (FD.make_narg_call N start).1.2 scope →
        (∀ info ∈ (TextPiece.call result cast []).infos, FD.ReturnedIn scope info) →
          (needs scope (.call result cast (FD.make_narg_call N start).1.1) ↔ P))
    (scope : Typedefs) :
    (FD.make_narg_call_with_return N serial).1.AtEach TextPiece.binds needs scope ↔ P := by
  cases constructs : FD.isConstructor with
  | true =>
      rw [make_narg_call_with_return, constructs, if_pos rfl] at few ⊢
      exact atEach_constructs free few (new constructs) scope
  | false =>
      cases returned : FD.returned with
      | some QT => exact atEach_returns free constructs returned few call scope
      | none =>
          rw [make_narg_call_with_return, constructs, if_neg Bool.false_ne_true, returned] at few ⊢
          rw [atEach_withTypedefs free]
          refine (and_iff_left trivial).trans (call _ .nothing _ serial ?_ ?_)
          · exact draws_make_narg_call.found few scope
          · intro info named
            cases infos_castText none info named

end Clauses

/-- The clauses are made one after the other, each with serials of its own. -/
theorem clauses_made (counts : List Nat) (serial : Nat) :
    serial ≤ (FD.clauses counts serial).2 ∧
      ((FD.clauses counts serial).1.map Prod.fst = counts ∧
        ∀ clause ∈ (FD.clauses counts serial).1, ∃ start,
          clause.2 = (FD.make_narg_call_with_return clause.1 start).1 ∧ serial ≤ start ∧
            (FD.make_narg_call_with_return clause.1 start).2 ≤ (FD.clauses counts serial).2) := by
  induction counts generalizing serial with
  | nil => exact ⟨Nat.le_refl _, rfl, fun clause member => absurd member List.not_mem_nil⟩
  | cons N rest ih =>
      obtain ⟨behind, counted, later⟩ := ih (FD.make_narg_call_with_return N serial).2
      have first := @serial_le_clause FD N serial
      refine ⟨Nat.le_trans first behind, congrArg (N :: ·) counted, ?_⟩
      intro clause member
      rcases List.mem_cons.mp member with rfl | other
      · exact ⟨serial, rfl, Nat.le_refl _, behind⟩
      · obtain ⟨start, made, follows, ends⟩ := later clause other
        exact ⟨start, made, Nat.le_trans first follows, ends⟩

theorem serial_lt_get_wrapper_code : serial < (FD.get_wrapper_code serial).2 := by
  rw [get_wrapper_code]
  dsimp only
  split
  · exact serial_le_clause
  · exact (FD.clauses_made _ (serial + 1)).1

end Clauses

section Wrapper

/-- The wrapper is one clause for all parameters, or the clauses for all counts of arguments. -/
theorem get_wrapper_code_cases {P : WrapperText → Prop}
    (few : (FD.get_wrapper_code serial).2 - serial ≤ UInt64.size)
    (one : FD.erase.getMinRequiredExplicitArguments = FD.erase.getNumNonObjectParams →
      ∀ start, (FD.make_narg_call_with_return FD.erase.getNumNonObjectParams start).2 - start ≤
          UInt64.size →
        P (FD.make_narg_call_with_return FD.erase.getNumNonObjectParams start).1)
    (guarded : ∀ texts : List (Nat × WrapperText),
      texts.map Prod.fst = List.range' FD.erase.getMinRequiredExplicitArguments
        (FD.erase.getNumNonObjectParams + 1 - FD.erase.getMinRequiredExplicitArguments) →
      (∀ clause ∈ texts, ∃ start,
        (FD.make_narg_call_with_return clause.1 start).2 - start ≤ UInt64.size ∧
          clause.2 = (FD.make_narg_call_with_return clause.1 start).1) →
      P (.guarded (fun clause => .nargsIs clause.1) Prod.snd texts)) :
    P (FD.get_wrapper_code serial).1 := by
  rw [get_wrapper_code] at few ⊢
  dsimp only at few ⊢
  split
  · next same =>
      rw [if_pos same] at few
      refine one same _ (Nat.le_trans ?_ few)
      exact Nat.sub_le_sub_left (Nat.le_succ serial) _
  · next differ =>
      rw [if_neg differ] at few
      obtain ⟨_, counted, made⟩ := FD.clauses_made (List.range'
        FD.erase.getMinRequiredExplicitArguments (FD.erase.getNumNonObjectParams + 1 -
          FD.erase.getMinRequiredExplicitArguments)) (serial + 1)
      refine guarded _ counted fun clause member => ?_
      obtain ⟨start, text, follows, ends⟩ := made clause member
      refine ⟨start, Nat.le_trans ?_ few, text⟩
      exact Nat.le_trans (Nat.sub_le_sub_right ends start)
        (Nat.sub_le_sub_left (Nat.le_of_succ_le follows) _)

/-- What the whole wrapper takes, once it is known what its clauses take. -/
theorem atEach_get_wrapper_code {needs : Typedefs → TextPiece → Prop} {P : Nat → Prop}
    (few : (FD.get_wrapper_code serial).2 - serial ≤ UInt64.size)
    (grows : ∀ N ≤ FD.erase.getNumNonObjectParams, P FD.erase.getNumNonObjectParams → P N)
    (clause : ∀ N start, N ≤ FD.erase.getNumNonObjectParams →
      (FD.make_narg_call_with_return N start).2 - start ≤ UInt64.size →
        ((FD.make_narg_call_with_return N start).1.AtEach TextPiece.binds needs [] ↔ P N)) :
    (FD.get_wrapper_code serial).1.AtEach TextPiece.binds needs [] ↔
      P FD.erase.getNumNonObjectParams := by
  refine get_wrapper_code_cases
    (P := fun text => text.AtEach TextPiece.binds needs [] ↔ P FD.erase.getNumNonObjectParams)
    few ?_ ?_
  · intro _ start fewHere
    exact clause _ start (Nat.le_refl _) fewHere
  · intro texts counted made
    have least := FD.erase.min_le_num
    rw [Script.atEach_guarded]
    constructor
    · intro each
      have longest : FD.erase.getNumNonObjectParams ∈ texts.map Prod.fst := by
        rw [counted, List.mem_range'_1]
        omega
      obtain ⟨entry, member, arity⟩ := List.mem_map.mp longest
      obtain ⟨start, fewHere, text⟩ := made entry member
      have holds := each entry member
      rw [text, arity] at holds
      rw [arity] at fewHere
      exact (clause _ start (Nat.le_refl _) fewHere).mp holds
    · intro whole entry member
      obtain ⟨start, fewHere, text⟩ := made entry member
      have arity : entry.1 ∈ texts.map Prod.fst := List.mem_map_of_mem member
      rw [counted, List.mem_range'_1] at arity
      rw [text]
      exact (clause _ start (by omega) fewHere).mpr (grows _ (by omega) whole)

end Wrapper

section Passing

variable {scope : Typedefs}

theorem passes_argTexts {name : String} {parameters : List TypedParam} {i : Nat}
    (found : Typedefs.FoundIn (argTexts name parameters i serial).1.2 scope) :
    PassesFrom scope i (argTexts name parameters i serial).1.1 parameters ↔
      ∀ PVD ∈ parameters, PVD.type.Spellable = true := by
  induction parameters generalizing i serial with
  | nil => exact iff_of_true trivial fun _ member => absurd member List.not_mem_nil
  | cons PVD rest ih =>
      rw [List.forall_mem_cons]
      refine and_congr (argText_passes_iff fun entry made => ?_) (ih fun entry made => ?_)
      · exact found entry (List.mem_append_left _ made)
      · exact found entry (List.mem_append_right _ made)

theorem named_argTexts {name : String} {parameters : List TypedParam} {i : Nat}
    (found : Typedefs.FoundIn (argTexts name parameters i serial).1.2 scope) :
    NamedFrom scope (argTexts name parameters i serial).1.1 parameters := by
  induction parameters generalizing i serial with
  | nil => trivial
  | cons PVD rest ih =>
      refine ⟨collect_names fun entry made => ?_, ih fun entry made => ?_⟩
      · exact found entry (List.mem_append_left _ made)
      · exact found entry (List.mem_append_right _ made)

theorem named_of_take {N : Nat} {args : List ArgText} {parameters : List TypedParam}
    (named : NamedFrom scope args (parameters.take N)) : NamedFrom scope args parameters := by
  induction args generalizing N parameters with
  | nil => trivial
  | cons arg args ih =>
      cases N with
      | zero => exact named.elim
      | succ N =>
          cases parameters with
          | nil => exact named.elim
          | cons PVD rest => exact ⟨named.1, ih named.2⟩

theorem passesFrom_take {i N : Nat} {args : List ArgText} {parameters : List TypedParam}
    (short : args.length ≤ N) :
    PassesFrom scope i args (parameters.take N) ↔ PassesFrom scope i args parameters := by
  induction args generalizing i N parameters with
  | nil =>
      cases N with
      | zero => exact iff_of_true trivial trivial
      | succ N => exact iff_of_true trivial trivial
  | cons arg args ih =>
      cases N with
      | zero => cases short
      | succ N =>
          cases parameters with
          | nil => exact Iff.rfl
          | cons PVD rest => exact and_congr_right fun _ => ih (Nat.le_of_succ_le_succ short)

theorem length_argTexts {name : String} {parameters : List TypedParam} {i : Nat} :
    (argTexts name parameters i serial).1.1.length = parameters.length := by
  induction parameters generalizing i serial with
  | nil => rfl
  | cons PVD rest ih => exact congrArg (· + 1) ih

theorem nonObjectParameters_of_constructs (constructs : FD.isConstructor = true) :
    FD.nonObjectParameters = FD.parameters := by
  rw [nonObjectParameters]
  split
  · next explicit =>
      have method := (FD.object explicit).1
      rw [isConstructor, method] at constructs
      cases constructs
  · rfl

theorem erase_nonObjectParameters :
    FD.erase.nonObjectParameters = FD.nonObjectParameters.map FD.eraseParam := by
  change (if FD.explicitObject = true then (FD.parameters.map FD.eraseParam).tail
    else FD.parameters.map FD.eraseParam) = _
  rw [nonObjectParameters]
  split
  · exact List.map_tail.symm
  · rfl

theorem getNumNonObjectParams_erase :
    FD.erase.getNumNonObjectParams = FD.nonObjectParameters.length := by
  rw [FunctionDecl.getNumNonObjectParams, erase_nonObjectParameters, List.length_map]

end Passing

theorem passes_get_wrapper_code (few : (FD.get_wrapper_code serial).2 - serial ≤ UInt64.size) :
    (FD.get_wrapper_code serial).1.AtEach TextPiece.binds
        (fun scope piece => PassesFrom scope 0 piece.args FD.nonObjectParameters) [] ↔
      ∀ PVD ∈ FD.nonObjectParameters.take FD.erase.getNumNonObjectParams,
        PVD.type.Spellable = true := by
  refine atEach_get_wrapper_code
    (P := fun N => ∀ PVD ∈ FD.nonObjectParameters.take N, PVD.type.Spellable = true) few ?_ ?_
  · intro N _ spellable PVD member
    rw [getNumNonObjectParams_erase, List.take_length] at spellable
    exact spellable PVD (List.mem_of_mem_take member)
  · intro N start _ fewHere
    refine atEach_clause (fun _ _ _ => trivial) fewHere ?_ ?_ []
    · intro constructs scope placement array start found
      rw [make_narg_ctor] at found ⊢
      rw [nonObjectParameters_of_constructs constructs]
      by_cases takes : N ≠ 0 ∧ array = false
      · rw [if_pos takes] at found ⊢
        have short : (argTexts FD.name (FD.parameters.take N) 0 start).1.1.length ≤ N :=
          Nat.le_trans (Nat.le_of_eq length_argTexts) (List.length_take_le ..)
        refine (passesFrom_take short).symm.trans ((passes_argTexts found).trans ?_)
        exact ⟨fun spellable _ => spellable, fun spellable => spellable takes.2⟩
      · rw [if_neg takes]
        refine iff_of_true trivial fun single PVD member => ?_
        have empty : N = 0 := by
          by_contra some_args
          exact takes ⟨some_args, single⟩
        rw [empty] at member
        cases member
    · intro scope result cast start found _
      rw [← passes_argTexts found]
      refine (passesFrom_take ?_).symm
      exact Nat.le_trans (Nat.le_of_eq length_argTexts) (List.length_take_le ..)

/-- `int (*visit(void (*)(int), Node (&)[4], Node &&, int = 0))[2]` -/
def visit : TypedFunction where
  name := "visit"
  kind := .function
  returned := some (.pointer (.array (.builtin "int") "2"))
  explicitObject := false
  parameters :=
    [⟨.pointer (.function (.builtin "void") (.named "int")), false⟩,
      ⟨.lvalueReference (.array (.record (.named "Node") false) "4"), false⟩,
      ⟨.rvalueReference (.record (.named "Node") false), false⟩, ⟨.builtin "int", true⟩]
  isOperator := false
  isTemplateInstantiation := false
  isVariadic := false
  object := by simp

theorem distinctBlocks_get_wrapper_code
    (few : (FD.get_wrapper_code serial).2 - serial ≤ UInt64.size) :
    (FD.get_wrapper_code serial).1.DistinctBlocks TextPiece.binds := by
  refine get_wrapper_code_cases (P := Script.DistinctBlocks TextPiece.binds) few ?_ ?_
  · exact fun _ start fewHere => distinctBlocks_clause fewHere
  · intro texts _ made
    refine Script.distinctBlocks_guarded fun clause member => ?_
    obtain ⟨start, fewHere, text⟩ := made clause member
    rw [text]
    exact distinctBlocks_clause fewHere

/-- The typedefs that the piece is spelled with are in scope: for the arguments of a call or a
construction under the types of their parameters, and for the result under the returned type. -/
def Scoped (FD : TypedFunction) (scope : Typedefs) (piece : TextPiece) : Prop :=
  NamedFrom scope piece.args FD.nonObjectParameters ∧
    ∀ info ∈ piece.infos, ∃ QT, FD.returned = some QT ∧ info.type_name.Names scope QT

theorem scoped_get_wrapper_code (few : (FD.get_wrapper_code serial).2 - serial ≤ UInt64.size) :
    (FD.get_wrapper_code serial).1.AtEach TextPiece.binds FD.Scoped [] := by
  refine (atEach_get_wrapper_code (P := fun _ => True) few (fun _ _ _ => trivial) ?_).mpr trivial
  intro N start _ fewHere
  refine atEach_clause ?_ fewHere ?_ ?_ []
  · exact fun scope name QT => ⟨trivial, fun info named => absurd named List.not_mem_nil⟩
  · intro constructs scope placement array start found
    refine iff_of_true ⟨?_, fun info named => absurd named List.not_mem_nil⟩ fun _ => trivial
    rw [make_narg_ctor] at found
    rw [TextPiece.args, make_narg_ctor, nonObjectParameters_of_constructs constructs]
    split
    · next takes =>
        rw [if_pos takes] at found
        exact named_of_take (named_argTexts found)
    · trivial
  · intro scope result cast start found returned
    refine iff_of_true ⟨named_of_take (named_argTexts found), fun info named => ?_⟩ trivial
    obtain ⟨QT, first, type, rfl, found_result⟩ := returned info named
    exact ⟨QT, type, collect_names found_result⟩

/-- No block of the wrapper makes a typedef twice, and every typedef that an argument or the result is
spelled with is in scope, for the type it spells. -/
theorem get_wrapper_code_scoped (few : (FD.get_wrapper_code serial).2 - serial ≤ UInt64.size) :
    (FD.get_wrapper_code serial).1.DistinctBlocks TextPiece.binds ∧
      (FD.get_wrapper_code serial).1.AtEach TextPiece.binds FD.Scoped [] :=
  ⟨distinctBlocks_get_wrapper_code few, scoped_get_wrapper_code few⟩

/-- Also where the serials start again in between. -/
theorem get_wrapper_code_scoped_visit :
    (visit.get_wrapper_code 18446744073709551613).1.DistinctBlocks TextPiece.binds ∧
      (visit.get_wrapper_code 18446744073709551613).1.AtEach TextPiece.binds visit.Scoped [] :=
  get_wrapper_code_scoped (by decide)

end TypedFunction

end CppInterOp
