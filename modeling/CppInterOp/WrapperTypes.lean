import CppInterOp.WrapperCore
import CppInterOp.Library.BlockScopes

/-!
The types in the code of wrappers: how the generator spells the type of a parameter, and what an
argument expression that uses the spelling denotes.
-/

namespace CppInterOp

open Branching

/-- How classes are printed. A lambda is printed as `(lambda at file:1:2)`, another class without a
name, and one with such a class among its template arguments, in the same way: code cannot name
them so. -/
inductive PrintedName
  | named (text : String)
  | lambda
  | unnamed
  deriving DecidableEq, Repr

def PrintedName.isNamed : PrintedName → Bool
  | named _ => true
  | _ => false

/-- A canonical type. The names of builtin types and records carry their qualifiers; the qualifiers
of pointers are left out. An enumeration is like a record that can be copied. `parameters` are those
of a function in one text. -/
inductive QualType
  | builtin (name : String)
  | record (name : PrintedName) (copyDeleted : Bool)
  | function (returned : QualType) (parameters : PrintedName)
  | array (element : QualType) (size : String)
  | pointer (pointee : QualType)
  | memberPointer (member : QualType) (className : PrintedName)
  | lvalueReference (referee : QualType)
  | rvalueReference (referee : QualType)
  deriving DecidableEq, Repr

namespace QualType

def getNonReferenceType : QualType → QualType
  | lvalueReference referee | rvalueReference referee => referee
  | QT => QT

def isFunctionProtoType : QualType → Bool
  | function _ _ => true
  | _ => false

def isFunctionPointerType : QualType → Bool
  | pointer pointee => pointee.isFunctionProtoType
  | _ => false

def isArrayType : QualType → Bool
  | array _ _ => true
  | _ => false

def isRValueReferenceType : QualType → Bool
  | rvalueReference _ => true
  | _ => false

/-- The spelling of the type ends where a declared name would stand, so that `*` or `&` may follow:
nothing of a function or an array stands behind the name. -/
def endsAtName : QualType → Bool
  | builtin _ | record _ _ => true
  | function _ _ | array _ _ => false
  | pointer inner | memberPointer inner _ | lvalueReference inner | rvalueReference inner =>
      inner.endsAtName

def isNamed : QualType → Bool
  | builtin _ => true
  | record name _ => name.isNamed
  | function returned parameters => returned.isNamed && parameters.isNamed
  | memberPointer member className => member.isNamed && className.isNamed
  | array inner _ | pointer inner | lvalueReference inner | rvalueReference inner => inner.isNamed

end QualType

inductive TypedefKind
  | FP
  | MP
  | AR
  deriving DecidableEq, Repr

structure TypedefName where
  kind : TypedefKind
  serial : Nat
  deriving DecidableEq, Repr

abbrev Typedefs := List (TypedefName × QualType)

/-- `gWrapperSerial` as the number of serials drawn so far. The variable holds its value as an
`unsigned long long`. -/
abbrev WrapperSerial := Nat

def WrapperSerial.drawn (serial : WrapperSerial) : Nat := serial % UInt64.size

inductive TypeText
  | typedefName (name : TypedefName)
  | printed (QT : QualType)
  | resultType (function : String)
  deriving DecidableEq, Repr

structure TypeInfo where
  type_name : TypeText
  refType : EReferenceType := .kNotReference
  isPointer : Bool := false
  typedefs : Typedefs := []
  deriving DecidableEq, Repr

def typedefInfo (kind : TypedefKind) (QT : QualType) (refType : EReferenceType) (isPointer : Bool)
    (serial : WrapperSerial) : TypeInfo × WrapperSerial :=
  let name : TypedefName := ⟨kind, serial.drawn⟩
  ({ type_name := .typedefName name, refType := refType, isPointer := isPointer,
     typedefs := [(name, QT)] }, serial + 1)

def arrayOrPrinted (QT : QualType) (refType : EReferenceType) (isPointer : Bool)
    (serial : WrapperSerial) : TypeInfo × WrapperSerial :=
  if QT.isArrayType then typedefInfo .AR QT refType isPointer serial
  else ({ type_name := .printed QT, refType := refType, isPointer := isPointer }, serial)

/-- `FD` is the function whose name the type of a returned lambda is spelled with. -/
def collect_type_info (FD : String) (QT : QualType) (forArgument : Bool)
    (serial : WrapperSerial) : TypeInfo × WrapperSerial :=
  match QT with
  | .record name _ =>
      if forArgument || name != .lambda then ({ type_name := .printed QT }, serial)
      else ({ type_name := .resultType FD }, serial)
  | _ =>
    if QT.getNonReferenceType.isFunctionPointerType || QT.getNonReferenceType.isFunctionProtoType
    then
      typedefInfo .FP QT.getNonReferenceType
        (if QT.isRValueReferenceType then .kRValueReference else .kLValueReference) false serial
    else
      match QT with
      | .memberPointer _ _ => typedefInfo .MP QT .kNotReference false serial
      | .pointer pointee => arrayOrPrinted pointee .kNotReference true serial
      | .rvalueReference referee => arrayOrPrinted referee .kRValueReference false serial
      | .lvalueReference referee => arrayOrPrinted referee .kLValueReference false serial
      | _ => arrayOrPrinted QT .kNotReference false serial

def IsCopyConstructorDeleted : QualType → Bool
  | .record _ copyDeleted => copyDeleted
  | _ => false

structure ArgText where
  form : ArgForm
  type_name : TypeText
  index : Nat
  deriving DecidableEq, Repr

def ArgText.erase (arg : ArgText) : ArgExpr := ⟨arg.form, arg.index⟩

def TypeInfo.argForm (info : TypeInfo) (QT : QualType) : ArgForm :=
  match info.refType with
  | .kLValueReference => .lvalue
  | .kRValueReference => .rvalue
  | .kNotReference =>
      if info.isPointer then .pointer
      else if IsCopyConstructorDeleted QT then .moved
      else .copied

def argText (FD : String) (QT : QualType) (index : Nat) (serial : WrapperSerial) :
    (ArgText × Typedefs) × WrapperSerial :=
  let (info, next) := collect_type_info FD QT true serial
  ((⟨info.argForm QT, info.type_name, index⟩, info.typedefs), next)

inductive ValueCategory
  | lvalue
  | xvalue
  deriving DecidableEq, Repr

structure ArgValue where
  type : QualType
  category : ValueCategory
  index : Nat
  deriving DecidableEq, Repr

/-- The type that a spelling stands for where `*` or `&` follows it. A typedef of a type that is
printed with something else than names declares nothing. -/
def TypeText.followed (scope : Typedefs) : TypeText → Option QualType
  | typedefName name => (scope.lookup name).filter QualType.isNamed
  | printed QT => if QT.endsAtName && QT.isNamed then some QT else none
  | resultType _ => none

/-- `none` is an expression that is not well formed. A cast to an rvalue reference to a function is
an lvalue. -/
def ArgText.denotes (scope : Typedefs) (arg : ArgText) : Option ArgValue :=
  (arg.type_name.followed scope).map fun T =>
    match arg.form with
    | .lvalue | .copied => ⟨T, .lvalue, arg.index⟩
    | .rvalue => ⟨T, if T.isFunctionProtoType then .lvalue else .xvalue, arg.index⟩
    | .pointer => ⟨.pointer T, .lvalue, arg.index⟩
    | .moved => ⟨T, .xvalue, arg.index⟩

def QualType.Accepts (QT : QualType) (value : ArgValue) : Prop :=
  value.type = QT.getNonReferenceType ∧
    match QT with
    | .lvalueReference _ => value.category = .lvalue
    | .rvalueReference referee => value.category = .xvalue ∨ referee.isFunctionProtoType = true
    | _ => IsCopyConstructorDeleted QT = true → value.category = .xvalue

/-- The argument expression denotes what `args[index]` points to, as the parameter takes it. -/
def ArgText.Passes (scope : Typedefs) (arg : ArgText) (QT : QualType) (index : Nat) : Prop :=
  ∃ value, arg.denotes scope = some value ∧ value.index = index ∧ QT.Accepts value

/-- What a pointer or a reference refers to gets a name of its own, or is spelled with nothing behind
the name. -/
def QualType.endsWell : QualType → Bool
  | .pointer pointee =>
      pointee.isFunctionProtoType || pointee.isArrayType || pointee.endsAtName
  | .lvalueReference referee | .rvalueReference referee =>
      referee.isFunctionPointerType || referee.isFunctionProtoType || referee.isArrayType ||
        referee.endsAtName
  | _ => true

def QualType.Spellable (QT : QualType) : Bool :=
  QT.isNamed && QT.endsWell

def QualType.spelled : QualType → QualType
  | .pointer pointee => if pointee.isFunctionProtoType then .pointer pointee else pointee
  | QT => QT.getNonReferenceType

def QualType.argForm : QualType → ArgForm
  | .function _ _ | .lvalueReference _ => .lvalue
  | .rvalueReference _ => .rvalue
  | .pointer pointee => if pointee.isFunctionProtoType then .lvalue else .pointer
  | QT => if IsCopyConstructorDeleted QT then .moved else .copied

/-- A typedef that the spelling consists of is in scope, for the type that is spelled. -/
def TypeText.Names (scope : Typedefs) (QT : QualType) (text : TypeText) : Prop :=
  ∀ name, text = .typedefName name → scope.lookup name = some QT.spelled

section Spelling

variable {FD : String} {QT : QualType} {index : Nat} {serial : WrapperSerial} {scope : Typedefs}

theorem collect_pointer (pointee : QualType) (forArgument : Bool) :
    collect_type_info FD (.pointer pointee) forArgument serial =
      if pointee.isFunctionProtoType then
        typedefInfo .FP (.pointer pointee) .kLValueReference false serial
      else arrayOrPrinted pointee .kNotReference true serial := by
  change (if (pointee.isFunctionProtoType || false) = true then _ else _) = _
  rw [Bool.or_false]
  rfl

theorem collect_lvalueReference (referee : QualType) (forArgument : Bool) :
    collect_type_info FD (.lvalueReference referee) forArgument serial =
      if referee.isFunctionPointerType || referee.isFunctionProtoType then
        typedefInfo .FP referee .kLValueReference false serial
      else arrayOrPrinted referee .kLValueReference false serial := rfl

theorem collect_rvalueReference (referee : QualType) (forArgument : Bool) :
    collect_type_info FD (.rvalueReference referee) forArgument serial =
      if referee.isFunctionPointerType || referee.isFunctionProtoType then
        typedefInfo .FP referee .kRValueReference false serial
      else arrayOrPrinted referee .kRValueReference false serial := rfl

theorem arrayOrPrinted_argForm (T : QualType) (refType : EReferenceType) (isPointer : Bool) :
    (arrayOrPrinted T refType isPointer serial).1.argForm QT =
      TypeInfo.argForm { type_name := .printed T, refType := refType, isPointer := isPointer } QT := by
  rw [arrayOrPrinted]
  split
  · rfl
  · rfl

theorem argText_form : (argText FD QT index serial).1.1.form = QT.argForm := by
  change (collect_type_info FD QT true serial).1.argForm QT = _
  cases QT with
  | builtin | record | function | array | memberPointer => rfl
  | pointer pointee =>
      rw [collect_pointer, QualType.argForm]
      split
      · rfl
      · exact arrayOrPrinted_argForm ..
  | lvalueReference referee =>
      rw [collect_lvalueReference]
      split
      · rfl
      · exact arrayOrPrinted_argForm ..
  | rvalueReference referee =>
      rw [collect_rvalueReference]
      split
      · rfl
      · exact arrayOrPrinted_argForm ..

/-- What is followed by `*` or `&` stands for itself when it has a name of its own, and else when it
ends at one. -/
theorem followed_arrayOrPrinted {T : QualType} {refType : EReferenceType} {isPointer : Bool}
    (found : ∀ entry ∈ (arrayOrPrinted T refType isPointer serial).1.typedefs,
      scope.lookup entry.1 = some entry.2) :
    (arrayOrPrinted T refType isPointer serial).1.type_name.followed scope =
      if T.isNamed && (T.isArrayType || T.endsAtName) then some T else none := by
  rw [arrayOrPrinted] at found ⊢
  cases array : T.isArrayType with
  | true =>
      rw [array, if_pos rfl] at found
      have known : scope.lookup _ = some T := found _ List.mem_cons_self
      rw [if_pos rfl, typedefInfo, TypeText.followed, known, Option.filter_some, Bool.true_or,
        Bool.and_true]
  | false => simp [TypeText.followed, Bool.and_comm]

theorem followed_typedefInfo {kind : TypedefKind} {T : QualType} {refType : EReferenceType}
    {isPointer : Bool}
    (found : ∀ entry ∈ (typedefInfo kind T refType isPointer serial).1.typedefs,
      scope.lookup entry.1 = some entry.2) :
    (typedefInfo kind T refType isPointer serial).1.type_name.followed scope =
      if T.isNamed then some T else none := by
  have known : scope.lookup _ = some T := found _ List.mem_cons_self
  rw [typedefInfo, TypeText.followed, known, Option.filter_some]

theorem followed_reference {referee : QualType} {refType : EReferenceType}
    (found : ∀ entry ∈ (if referee.isFunctionPointerType || referee.isFunctionProtoType then
        typedefInfo .FP referee refType false serial
      else arrayOrPrinted referee refType false serial).1.typedefs,
      scope.lookup entry.1 = some entry.2) :
    (if referee.isFunctionPointerType || referee.isFunctionProtoType then
        typedefInfo .FP referee refType false serial
      else arrayOrPrinted referee refType false serial).1.type_name.followed scope =
      if referee.isNamed && (referee.isFunctionPointerType || referee.isFunctionProtoType ||
        referee.isArrayType || referee.endsAtName) then some referee else none := by
  by_cases function : (referee.isFunctionPointerType || referee.isFunctionProtoType) = true
  · rw [if_pos function] at found ⊢
    rw [followed_typedefInfo found, function, Bool.true_or, Bool.true_or, Bool.and_true]
  · rw [if_neg function] at found ⊢
    rw [followed_arrayOrPrinted found, Bool.eq_false_iff.mpr function, Bool.false_or]

/-- With its typedefs in scope, the spelling in an argument expression stands for the type that it
spells exactly when the generator has a spelling for the parameter. -/
theorem argText_followed
    (found : ∀ entry ∈ (argText FD QT index serial).1.2, scope.lookup entry.1 = some entry.2) :
    (argText FD QT index serial).1.1.type_name.followed scope =
      if QT.Spellable then some QT.spelled else none := by
  change ∀ entry ∈ (collect_type_info FD QT true serial).1.typedefs, _ at found
  change (collect_type_info FD QT true serial).1.type_name.followed scope = _
  cases QT with
  | builtin => rfl
  | record name copyDeleted =>
      have spellable : (QualType.record name copyDeleted).Spellable = name.isNamed :=
        Bool.and_true _
      rw [spellable]
      rfl
  | function returned parameters =>
      have spellable : (QualType.function returned parameters).Spellable =
          (QualType.function returned parameters).isNamed := Bool.and_true _
      rw [spellable]
      exact followed_typedefInfo found
  | memberPointer member className =>
      have spellable : (QualType.memberPointer member className).Spellable =
          (QualType.memberPointer member className).isNamed := Bool.and_true _
      rw [spellable]
      exact followed_typedefInfo found
  | array element size =>
      exact @followed_arrayOrPrinted _ _ (.array element size) .kNotReference false found
  | lvalueReference referee => exact followed_reference found
  | rvalueReference referee => exact followed_reference found
  | pointer pointee =>
      rw [collect_pointer] at found ⊢
      by_cases function : pointee.isFunctionProtoType = true
      · rw [if_pos function] at found ⊢
        have spellable : (QualType.pointer pointee).Spellable = pointee.isNamed := by
          simp [QualType.Spellable, QualType.endsWell, QualType.isNamed, function]
        rw [spellable, QualType.spelled, if_pos function]
        exact followed_typedefInfo found
      · rw [if_neg function] at found ⊢
        simp only [followed_arrayOrPrinted found, QualType.Spellable, QualType.endsWell,
          QualType.spelled, QualType.isNamed, Bool.eq_false_iff.mpr function, Bool.false_or,
          Bool.false_eq_true, if_false]

theorem names_typedefInfo {kind : TypedefKind} {T : QualType} {refType : EReferenceType}
    {isPointer : Bool} (spells : QT.spelled = T)
    (found : ∀ entry ∈ (typedefInfo kind T refType isPointer serial).1.typedefs,
      scope.lookup entry.1 = some entry.2) :
    (typedefInfo kind T refType isPointer serial).1.type_name.Names scope QT := by
  intro name same
  cases same
  rw [spells]
  exact found _ List.mem_cons_self

theorem names_arrayOrPrinted {T : QualType} {refType : EReferenceType} {isPointer : Bool}
    (spells : QT.spelled = T)
    (found : ∀ entry ∈ (arrayOrPrinted T refType isPointer serial).1.typedefs,
      scope.lookup entry.1 = some entry.2) :
    (arrayOrPrinted T refType isPointer serial).1.type_name.Names scope QT := by
  rw [arrayOrPrinted] at found ⊢
  split
  · next array =>
      rw [if_pos array] at found
      exact names_typedefInfo spells found
  · exact fun name same => nomatch same

theorem names_reference {referee : QualType} {refType : EReferenceType} (spells : QT.spelled = referee)
    (found : ∀ entry ∈ (if referee.isFunctionPointerType || referee.isFunctionProtoType then
        typedefInfo .FP referee refType false serial
      else arrayOrPrinted referee refType false serial).1.typedefs,
      scope.lookup entry.1 = some entry.2) :
    (if referee.isFunctionPointerType || referee.isFunctionProtoType then
        typedefInfo .FP referee refType false serial
      else arrayOrPrinted referee refType false serial).1.type_name.Names scope QT := by
  split
  · next function =>
      rw [if_pos function] at found
      exact names_typedefInfo spells found
  · next data =>
      rw [if_neg data] at found
      exact names_arrayOrPrinted spells found

/-- A type is spelled with no typedef but one for it that was made with it. -/
theorem collect_names {forArgument : Bool}
    (found : ∀ entry ∈ (collect_type_info FD QT forArgument serial).1.typedefs,
      scope.lookup entry.1 = some entry.2) :
    (collect_type_info FD QT forArgument serial).1.type_name.Names scope QT := by
  cases QT with
  | builtin name => exact fun name same => nomatch same
  | record name copyDeleted =>
      rw [collect_type_info]
      split
      · exact fun name same => nomatch same
      · exact fun name same => nomatch same
  | function returned parameters => exact names_typedefInfo rfl found
  | memberPointer member className => exact names_typedefInfo rfl found
  | array element size =>
      exact @names_arrayOrPrinted _ _ _ (.array element size) .kNotReference false rfl found
  | pointer pointee =>
      rw [collect_pointer] at found ⊢
      split
      · next function =>
          rw [if_pos function] at found
          exact names_typedefInfo (if_pos function) found
      · next data =>
          rw [if_neg data] at found
          exact names_arrayOrPrinted (if_neg data) found
  | lvalueReference referee => exact names_reference rfl found
  | rvalueReference referee => exact names_reference rfl found

/-- What an expression of the form denotes for the spelled type is what the parameter takes. -/
theorem accepts_spelled {arg : ArgText} (form : arg.form = QT.argForm)
    (followed : arg.type_name.followed scope = some QT.spelled) :
    ∃ value, arg.denotes scope = some value ∧ value.index = arg.index ∧ QT.Accepts value := by
  rw [ArgText.denotes, followed, form]
  refine ⟨_, rfl, ?_⟩
  cases QT with
  | builtin | function | array | memberPointer =>
      exact ⟨rfl, rfl, fun deleted => absurd deleted Bool.false_ne_true⟩
  | record name copyDeleted =>
      cases copyDeleted with
      | true => exact ⟨rfl, rfl, fun _ => rfl⟩
      | false => exact ⟨rfl, rfl, fun deleted => absurd deleted Bool.false_ne_true⟩
  | pointer pointee =>
      rw [QualType.argForm, QualType.spelled]
      split
      · exact ⟨rfl, rfl, fun deleted => absurd deleted Bool.false_ne_true⟩
      · exact ⟨rfl, rfl, fun deleted => absurd deleted Bool.false_ne_true⟩
  | lvalueReference referee => exact ⟨rfl, rfl, rfl⟩
  | rvalueReference referee =>
      refine ⟨rfl, rfl, ?_⟩
      dsimp only [QualType.argForm, QualType.spelled, QualType.getNonReferenceType]
      cases referee.isFunctionProtoType with
      | true => exact Or.inr rfl
      | false => exact Or.inl rfl

/-- With its typedefs in scope, an argument expression passes the argument exactly when the
generator has a spelling for the type of the parameter. -/
theorem argText_passes_iff
    (found : ∀ entry ∈ (argText FD QT index serial).1.2, scope.lookup entry.1 = some entry.2) :
    (argText FD QT index serial).1.1.Passes scope QT index ↔ QT.Spellable = true := by
  have followed := argText_followed found
  cases spellable : QT.Spellable with
  | true =>
      rw [spellable, if_pos rfl] at followed
      exact iff_of_true (accepts_spelled argText_form followed) rfl
  | false =>
      rw [spellable, if_neg Bool.false_ne_true] at followed
      refine iff_of_false ?_ Bool.false_ne_true
      rintro ⟨value, denotes, _⟩
      rw [ArgText.denotes, followed] at denotes
      cases denotes

end Spelling

end CppInterOp
