import CppInterOp.LookupCore
import CppInterOp.Library.Appending

/-!
The methods, function templates, static members and enumerations of a class: the loop over its
declarations, to which it adds the constructors that the class inherits.
-/

namespace CppInterOp

open Appending Looping

inductive ShadowTarget
  | method (MD : Nat)
  | constructor (CXXCD : Nat) (isDeleted : Bool)
  | functionTemplate (TD : Nat)
  | var (VD : Nat)
  | enum (ED : Nat)
  | other (D : Nat)
  deriving DecidableEq, Repr

inductive ClassMember
  | method (MD : Nat)
  /-- The constructor of the class that stands for one of a base. -/
  | inheritingConstructor (MD BaseCtor : Nat)
  | functionTemplate (TD : Nat)
  | var (VD : Nat)
  | enum (ED : Nat)
  | usingShadow (USD : Nat) (target : ShadowTarget)
  | constructorUsingShadow (CUSD : Nat) (target : ShadowTarget)
  | other (D : Nat)
  deriving DecidableEq, Repr

inductive DeclType
  | CXXMethodDecl
  | FunctionTemplateDecl
  | VarDecl
  | EnumDecl
  deriving DecidableEq, Repr

/-- `dyn_cast<DeclType>`; a constructor is a method. -/
def ClassMember.cast : DeclType → ClassMember → Option Nat
  | .CXXMethodDecl, method MD | .CXXMethodDecl, inheritingConstructor MD _ => some MD
  | .FunctionTemplateDecl, functionTemplate TD => some TD
  | .VarDecl, var VD => some VD
  | .EnumDecl, enum ED => some ED
  | _, _ => none

def ShadowTarget.cast : DeclType → ShadowTarget → Option Nat
  | .CXXMethodDecl, method MD | .CXXMethodDecl, constructor MD _ => some MD
  | .FunctionTemplateDecl, functionTemplate TD => some TD
  | .VarDecl, var VD => some VD
  | .EnumDecl, enum ED => some ED
  | _, _ => none

def ClassMember.inherits : ClassMember → Option Nat
  | inheritingConstructor _ BaseCtor => some BaseCtor
  | _ => none

/-- The compiler's part: which of its declarations defines a class, whether the class is a
specialization of a template, and the constructor of a class that stands for one of a base, which is
appended where there is none. -/
structure ClassSema extends Declarations where
  getDefinition : Nat → Option Nat
  isSpecialization : Nat → Bool
  findInheritingConstructor : List ClassMember → Nat → List ClassMember
  found : ∀ decls BaseCtor, BaseCtor ∈ decls.filterMap ClassMember.inherits →
    findInheritingConstructor decls BaseCtor = decls
  made : ∀ decls BaseCtor, BaseCtor ∉ decls.filterMap ClassMember.inherits →
    ∃ MD, findInheritingConstructor decls BaseCtor = decls ++ [.inheritingConstructor MD BaseCtor]

/-- The declarations of each class, and those that `ForceDeclarationOfImplicitMembers` has to add. -/
structure ClassTable where
  decls : Nat → List ClassMember
  implicit : Nat → List ClassMember

def ClassTable.forced (table : ClassTable) (CXXRD : Nat) : List ClassMember :=
  table.decls CXXRD ++ table.implicit CXXRD

def ClassTable.declare (table : ClassTable) (CXXRD : Nat) (decls : List ClassMember) : ClassTable :=
  ⟨fun other => if other = CXXRD then decls else table.decls other,
    fun other => if other = CXXRD then [] else table.implicit other⟩

namespace ClassSema

variable (S : ClassSema)

def classOf (DRef : Option Nat) : Option Nat :=
  ((DRef.bind fun D =>
    if (S.kind D).isTypedefName then Declarations.GetScopeFromType (S.underlyingType D)
    else some D).filter fun D =>
      S.kind D = .cxxRecord ∧ (S.isSpecialization D = true → S.completes D = true)).map fun CXXRD =>
        (S.getDefinition CXXRD).getD CXXRD

def declTurn (T : DeclType) :
    Nat × List ClassMember × List Nat →
      Turn (Nat × List ClassMember × List Nat) (List ClassMember × List Nat)
  | (position, decls, methods) =>
      match decls[position]? with
      | none => .leave (decls, methods)
      | some DI =>
          match DI.cast T with
          | some MD => .again (position + 1, decls, methods ++ [MD])
          | none =>
              match DI with
              | .usingShadow USD target =>
                  if (target.cast T).isSome then .again (position + 1, decls, methods ++ [USD])
                  else .again (position + 1, decls, methods)
              | .constructorUsingShadow _ target =>
                  match target.cast T with
                  | none => .again (position + 1, decls, methods)
                  | some MD =>
                      match target with
                      | .constructor CXXCD isDeleted =>
                          if isDeleted then .again (position + 1, decls, methods)
                          else
                            -- the constructor is listed once the loop comes to it
                            .again (position + 1, S.findInheritingConstructor decls CXXCD, methods)
                      | _ => .again (position + 1, decls, methods ++ [MD])
              | _ => .again (position + 1, decls, methods)

def GetClassDecls (T : DeclType) (table : ClassTable) (DRef : Option Nat) (methods : List Nat)
    (result : ClassTable × List Nat) : Prop :=
  match S.classOf DRef with
  | none => result = (table, methods)
  | some CXXRD => ∃ decls listed,
      Ends (S.declTurn T) (0, table.forced CXXRD, methods) (decls, listed) ∧
        result = (table.declare CXXRD decls, listed)

def GetClassMethods := S.GetClassDecls .CXXMethodDecl

def GetFunctionTemplatedDecls := S.GetClassDecls .FunctionTemplateDecl

def GetStaticDatamembers := S.GetClassDecls .VarDecl

end ClassSema

def ClassMember.listed (T : DeclType) (DI : ClassMember) : Option Nat :=
  (DI.cast T).or <|
    match DI with
    | usingShadow USD target => if (target.cast T).isSome then some USD else none
    | constructorUsingShadow _ (.constructor _ _) => none
    | constructorUsingShadow _ target => target.cast T
    | _ => none

def ClassMember.asks : DeclType → ClassMember → Option Nat
  | .CXXMethodDecl, constructorUsingShadow _ (.constructor CXXCD false) => some CXXCD
  | _, _ => none

namespace ClassSema

variable (S : ClassSema) {T : DeclType} {table : ClassTable}

def keyed (T : DeclType) : Keyed ClassMember Nat where
  asks := ClassMember.asks T
  answers := ClassMember.inherits
  extend := S.findInheritingConstructor
  known := S.found
  fresh decls BaseCtor absent := by
    obtain ⟨MD, extended⟩ := S.made decls BaseCtor absent
    refine ⟨_, extended, rfl, ?_⟩
    cases T <;> rfl

def settled (table : ClassTable) (CXXRD : Nat) : List ClassMember :=
  (S.keyed .CXXMethodDecl).settle (table.forced CXXRD)

variable {S}

theorem declTurn_eq : S.declTurn T = (S.keyed T).turn (ClassMember.listed T) := by
  funext ⟨position, decls, methods⟩
  rw [declTurn, Keyed.turn]
  cases decls[position]? with
  | none => rfl
  | some DI =>
      cases DI with
      | usingShadow USD target =>
          cases T <;> cases target <;> simp [ClassMember.cast, ShadowTarget.cast, ClassMember.listed,
            ClassMember.asks, keyed, Keyed.visit]
      | constructorUsingShadow CUSD target =>
          cases target with
          | constructor CXXCD isDeleted =>
              cases T <;> cases isDeleted <;> simp [ClassMember.cast, ShadowTarget.cast,
                ClassMember.listed, ClassMember.asks, keyed, Keyed.visit]
          | method _ | functionTemplate _ | var _ | enum _ | other _ =>
              cases T <;> simp [ClassMember.cast, ShadowTarget.cast, ClassMember.listed,
                ClassMember.asks, keyed, Keyed.visit]
      | method _ | inheritingConstructor _ _ | functionTemplate _ | var _ | enum _ | other _ =>
          cases T <;> simp [ClassMember.cast, ClassMember.listed, ClassMember.asks, keyed, Keyed.visit]

/-- The loop ends, and lists the declarations that the class has then. -/
theorem getClassDecls_iff {DRef : Option Nat} {methods : List Nat} {result : ClassTable × List Nat} :
    S.GetClassDecls T table DRef methods result ↔
      result = (S.classOf DRef).elim (table, methods) fun CXXRD =>
        (table.declare CXXRD ((S.keyed T).settle (table.forced CXXRD)),
          methods ++ ((S.keyed T).settle (table.forced CXXRD)).filterMap (ClassMember.listed T)) := by
  rw [GetClassDecls]
  cases S.classOf DRef with
  | none => exact Iff.rfl
  | some CXXRD =>
      have ended := @Keyed.ends_settle _ _ _ (S.keyed T) (ClassMember.listed T) (table.forced CXXRD)
        methods
      rw [← declTurn_eq] at ended
      constructor
      · rintro ⟨decls, listed, also, rfl⟩
        obtain ⟨rfl, rfl⟩ := Prod.mk.inj (also.unique ended)
        rfl
      · rintro rfl
        exact ⟨_, _, ended, rfl⟩

theorem asks_other (other : T ≠ .CXXMethodDecl) (DI : ClassMember) : DI.asks T = none := by
  cases T with
  | CXXMethodDecl => exact absurd rfl other
  | FunctionTemplateDecl | VarDecl | EnumDecl => rfl

theorem listed_inherits (other : T ≠ .CXXMethodDecl) {DI : ClassMember}
    (answers : DI.inherits.isSome = true) : DI.listed T = none := by
  cases DI with
  | inheritingConstructor MD BaseCtor =>
      cases T with
      | CXXMethodDecl => exact absurd rfl other
      | FunctionTemplateDecl | VarDecl | EnumDecl => rfl
  | _ => cases answers

/-- Only the methods have the loop add to the class. -/
theorem settle_other (other : T ≠ .CXXMethodDecl) (decls : List ClassMember) :
    (S.keyed T).settle decls = decls := by
  refine Keyed.settle_of_settled fun key asked => ?_
  have none_asked : decls.filterMap (ClassMember.asks T) = [] :=
    List.filterMap_eq_nil_iff.mpr fun DI _ => asks_other other DI
  rw [show (S.keyed T).asks = ClassMember.asks T from rfl, none_asked] at asked
  cases asked

theorem forced_declare (decls : List ClassMember) (CXXRD other : Nat) :
    (table.declare CXXRD decls).forced other =
      if other = CXXRD then decls else table.forced other := by
  change (if other = CXXRD then decls else _) ++ (if other = CXXRD then [] else _) = _
  split
  · exact List.append_nil decls
  · rfl

/-- No call changes what a class comes to. -/
theorem settled_declare (CXXRD other : Nat) :
    S.settled (table.declare CXXRD ((S.keyed T).settle (table.forced CXXRD))) other =
      S.settled table other := by
  rw [settled, settled, forced_declare]
  split
  · next same =>
      subst same
      by_cases methods : T = .CXXMethodDecl
      · rw [methods]
        exact Keyed.settle_of_settled Keyed.settled_settle
      · rw [settle_other methods]
  · rfl

theorem listed_settle (CXXRD : Nat) :
    ((S.keyed T).settle (table.forced CXXRD)).filterMap (ClassMember.listed T) =
      (S.settled table CXXRD).filterMap (ClassMember.listed T) := by
  by_cases methods : T = .CXXMethodDecl
  · rw [methods]
    rfl
  · obtain ⟨more, grown, made⟩ := @Keyed.foldl_grows _ _ (S.keyed .CXXMethodDecl)
      (table.forced CXXRD) (table.forced CXXRD)
    have unlisted : more.filterMap (ClassMember.listed T) = [] :=
      List.filterMap_eq_nil_iff.mpr fun DI member => listed_inherits methods (made DI member).2
    rw [settle_other methods, settled, Keyed.settle, grown, List.filterMap_append, unlisted,
      List.append_nil]

end ClassSema

structure ClassCall where
  T : DeclType
  DRef : Option Nat
  methods : List Nat
  answer : List Nat
  deriving DecidableEq, Repr

namespace ClassSema

variable {S : ClassSema}

inductive CallsTo (S : ClassSema) : ClassTable → List ClassCall → ClassTable → Prop
  | nil {table} : CallsTo S table [] table
  | cons {table next last call calls} :
      S.GetClassDecls call.T table call.DRef call.methods (next, call.answer) →
      CallsTo S next calls last → CallsTo S table (call :: calls) last

variable {table last : ClassTable} {calls : List ClassCall}

theorem settled_call {T : DeclType} {DRef : Option Nat} {methods answer : List Nat}
    {next : ClassTable} (called : S.GetClassDecls T table DRef methods (next, answer)) (CXXRD : Nat) :
    S.settled next CXXRD = S.settled table CXXRD := by
  have result := congrArg Prod.fst (getClassDecls_iff.mp called)
  cases resolved : S.classOf DRef with
  | none =>
      rw [resolved] at result
      exact congrArg (S.settled · CXXRD) result
  | some other =>
      rw [resolved] at result
      exact (congrArg (S.settled · CXXRD) result).trans (settled_declare other CXXRD)

theorem repeats (made : CallsTo S table calls last) :
    ∀ call ∈ calls, call.answer = call.methods ++
      ((S.classOf call.DRef).elim [] (S.settled table)).filterMap (ClassMember.listed call.T) := by
  induction made with
  | nil => exact fun call member => absurd member List.not_mem_nil
  | @cons table next last call calls called _ ih =>
      intro other member
      rcases List.mem_cons.mp member with rfl | later
      · have result := congrArg Prod.snd (getClassDecls_iff.mp called)
        cases resolved : S.classOf other.DRef with
        | none =>
            rw [resolved] at result
            exact result.trans (List.append_nil _).symm
        | some CXXRD =>
            rw [resolved] at result
            exact result.trans (congrArg _ (listed_settle CXXRD))
      · rw [ih other later]
        cases S.classOf other.DRef with
        | none => rfl
        | some CXXRD =>
            exact congrArg (fun decls => other.methods ++ List.filterMap _ decls)
              (settled_call called CXXRD)

def Complete (S : ClassSema) (table : ClassTable) (CXXRD : Nat) : Prop :=
  table.implicit CXXRD = [] ∧ table.decls CXXRD = S.settled table CXXRD

theorem complete_call {call : ClassCall} {next : ClassTable} {CXXRD : Nat}
    (called : S.GetClassDecls call.T table call.DRef call.methods (next, call.answer))
    (complete : S.Complete table CXXRD ∨
      call.T = .CXXMethodDecl ∧ S.classOf call.DRef = some CXXRD) :
    S.Complete next CXXRD := by
  rw [Complete, settled_call called]
  have result := congrArg Prod.fst (getClassDecls_iff.mp called)
  cases resolved : S.classOf call.DRef with
  | none =>
      rw [resolved] at result complete
      rw [show next = table from result]
      exact complete.resolve_right fun asked => absurd asked.2 (by simp)
  | some other =>
      rw [resolved] at result complete
      rw [show next = table.declare other ((S.keyed call.T).settle (table.forced other)) from result]
      by_cases same : CXXRD = other
      · subst same
        refine ⟨if_pos rfl, (if_pos rfl).trans ?_⟩
        rcases complete with ⟨whole, settled⟩ | ⟨methods, _⟩
        · by_cases methods : call.T = .CXXMethodDecl
          · rw [methods]
            rfl
          · rw [settle_other methods, ClassTable.forced, whole, List.append_nil]
            exact settled
        · rw [methods]
          rfl
      · have kept := complete.resolve_right fun asked => same (Option.some.inj asked.2).symm
        exact ⟨(if_neg same).trans kept.1, (if_neg same).trans kept.2⟩

theorem complete_calls {CXXRD : Nat} (made : CallsTo S table calls last)
    (complete : S.Complete table CXXRD ∨
      ∃ call ∈ calls, call.T = .CXXMethodDecl ∧ S.classOf call.DRef = some CXXRD) :
    S.Complete last CXXRD ∧ S.settled last CXXRD = S.settled table CXXRD := by
  induction made with
  | nil =>
      refine ⟨complete.resolve_right ?_, rfl⟩
      rintro ⟨call, member, _⟩
      cases member
  | @cons table next last call calls called _ ih =>
      rw [← settled_call called]
      refine ih ?_
      rcases complete with already | ⟨other, member, asked⟩
      · exact Or.inl (complete_call called (Or.inl already))
      · rcases List.mem_cons.mp member with rfl | later
        · exact Or.inl (complete_call called (Or.inr asked))
        · exact Or.inr ⟨other, later, asked⟩

/-- Once the methods of a class have been asked for, there is one constructor in it for each that its
using-declarations inherit and that is not deleted, and every such constructor is among the answers. -/
theorem getClassMethods_inherits {CXXRD : Nat} (made : CallsTo S table calls last)
    (once : ((table.forced CXXRD).filterMap ClassMember.inherits).Nodup) {call : ClassCall}
    (member : call ∈ calls) (methods : call.T = .CXXMethodDecl)
    (resolved : S.classOf call.DRef = some CXXRD) :
    ((last.decls CXXRD).filterMap ClassMember.inherits).Nodup ∧
      (∀ MD BaseCtor, .inheritingConstructor MD BaseCtor ∈ last.decls CXXRD → MD ∈ call.answer) ∧
      ∀ BaseCtor, BaseCtor ∈ (last.decls CXXRD).filterMap ClassMember.inherits ↔
        BaseCtor ∈ (table.forced CXXRD).filterMap ClassMember.inherits ∨
          ∃ CUSD, .constructorUsingShadow CUSD (.constructor BaseCtor false) ∈ table.forced CXXRD := by
  obtain ⟨⟨_, decls⟩, same⟩ := complete_calls made (Or.inr ⟨call, member, methods, resolved⟩)
  have answer := repeats made call member
  rw [resolved, methods] at answer
  rw [decls, same, answer]
  have single := @Keyed.nodup_answers_settle _ _ (S.keyed .CXXMethodDecl) _ once
  refine ⟨single, ?_, ?_⟩
  · intro MD BaseCtor inherited
    exact List.mem_append_right _ (List.mem_filterMap.mpr ⟨_, inherited, rfl⟩)
  · intro BaseCtor
    have settles := @Keyed.mem_answers_settle _ _ (S.keyed .CXXMethodDecl) (table.forced CXXRD) BaseCtor
    refine settles.trans (or_congr_right ?_)
    rw [List.mem_filterMap]
    constructor
    · rintro ⟨DI, declared, asked⟩
      change ClassMember.asks .CXXMethodDecl DI = some BaseCtor at asked
      unfold ClassMember.asks at asked
      split at asked
      · cases asked
        exact ⟨_, declared⟩
      · cases asked
    · rintro ⟨CUSD, declared⟩
      exact ⟨_, declared, rfl⟩

/-- Two of the using-declarations name one constructor, and one a deleted one. -/
def members : List ClassMember :=
  [.method 10, .constructorUsingShadow 11 (.constructor 20 false),
    .constructorUsingShadow 12 (.constructor 21 true), .usingShadow 13 (.method 30),
    .functionTemplate 14, .constructorUsingShadow 15 (.constructor 20 false)]

def shapes : ClassSema where
  TranslationUnit := 0
  kind D := if D = 0 then .translationUnit else .cxxRecord
  getParent D := if D = 0 then none else some 0
  underlyingType _ := .builtin
  getTargetDecl _ := none
  bases _ := []
  using_directives _ := []
  hasDefinition _ := true
  completes _ := false
  translationUnit := rfl
  earlier D parent inside := by
    split_ifs at inside with unit
    cases inside
    exact Nat.pos_of_ne_zero unit
  inherits _ _ inherited := by cases inherited
  nominates _ _ nominated := by cases nominated
  getDefinition D := if D = 1 ∨ D = 2 then some 1 else none
  isSpecialization _ := false
  findInheritingConstructor decls BaseCtor :=
    if BaseCtor ∈ decls.filterMap ClassMember.inherits then decls
    else decls ++ [.inheritingConstructor (100 + decls.length) BaseCtor]
  found _ _ inherited := if_pos inherited
  made _ _ absent := ⟨_, if_neg absent⟩

def shapesTable : ClassTable := ⟨fun _ => members, fun _ => [.method 16]⟩

def shapesCalls : List ClassCall :=
  [⟨.CXXMethodDecl, some 2, [], [10, 13, 16, 107]⟩, ⟨.FunctionTemplateDecl, some 1, [], [14]⟩,
    ⟨.CXXMethodDecl, some 1, [9], [9, 10, 13, 16, 107]⟩]

theorem shapesCalls_made : ∃ last, CallsTo shapes shapesTable shapesCalls last :=
  ⟨_, .cons (getClassDecls_iff.mpr rfl) (.cons (getClassDecls_iff.mpr rfl)
    (.cons (getClassDecls_iff.mpr rfl) .nil))⟩

theorem getClassMethods_inherits_shapes :
    ∃ last, CallsTo shapes shapesTable shapesCalls last ∧
      20 ∈ (last.decls 1).filterMap ClassMember.inherits ∧
      21 ∉ (last.decls 1).filterMap ClassMember.inherits := by
  obtain ⟨last, made⟩ := shapesCalls_made
  have law := (@getClassMethods_inherits _ _ _ _ 1 made List.nodup_nil _ List.mem_cons_self rfl rfl).2.2
  refine ⟨last, made, (law 20).mpr (Or.inr ⟨11, by decide⟩), fun inherited => ?_⟩
  rcases (law 21).mp inherited with known | ⟨CUSD, declared⟩
  · cases known
  · revert CUSD
    simp [shapesTable, ClassTable.forced, members]

end ClassSema

end CppInterOp
