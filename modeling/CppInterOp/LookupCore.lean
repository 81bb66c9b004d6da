import Mathlib.Logic.Relation
import CppInterOp.Library.Delimiters

/-!
Looking names up: the scope that a declaration stands for, the lookups that are tried in it one
after the other, and the scopes of a qualified name.
-/

namespace CppInterOp

open Delimiters

inductive DeclKind
  | translationUnit
  | linkageSpec
  | namespaceDecl
  | namespaceAlias
  | cxxRecord
  | enumDecl
  | enumConstant
  | function
  | functionTemplate
  | classTemplate
  | typedefDecl
  | typeAliasDecl
  | typeAliasTemplate
  | usingShadow
  | variable
  | field
  deriving DecidableEq, Repr

namespace DeclKind

def isDeclContext : DeclKind → Bool
  | translationUnit | linkageSpec | namespaceDecl | cxxRecord | enumDecl | function => true
  | _ => false

def isTypedefName (kind : DeclKind) : Bool := kind == typedefDecl || kind == typeAliasDecl

def isTag (kind : DeclKind) : Bool := kind == cxxRecord || kind == enumDecl

def isScope (kind : DeclKind) : Bool :=
  kind == namespaceDecl || kind == cxxRecord || kind == classTemplate || kind.isTypedefName ||
    kind == typeAliasTemplate

end DeclKind

inductive CanonicalType
  | builtin
  | pointer (pointee : CanonicalType)
  | array (element : CanonicalType)
  | reference (referenced : CanonicalType)
  | tag (decl : Nat)
  deriving DecidableEq, Repr

def CanonicalType.getBaseElementTypeUnsafe : CanonicalType → CanonicalType
  | array element => element.getBaseElementTypeUnsafe
  | T => T

def CanonicalType.getPointeeOrArrayElementType : CanonicalType → CanonicalType
  | pointer pointee => pointee
  | array element => element.getBaseElementTypeUnsafe
  | T => T

/-- The declarations of a program, each standing for all its redeclarations. -/
structure Declarations where
  TranslationUnit : Nat
  kind : Nat → DeclKind
  getParent : Nat → Option Nat
  underlyingType : Nat → CanonicalType
  getTargetDecl : Nat → Option Nat
  bases : Nat → List Nat
  /-- The namespaces that the using-directives of a context nominate. -/
  using_directives : Nat → List Nat
  hasDefinition : Nat → Bool
  /-- `isCompleteType` comes to a definition, by instantiating it where that is needed. -/
  completes : Nat → Bool
  translationUnit : kind TranslationUnit = .translationUnit
  earlier : ∀ DC parent, getParent DC = some parent → parent < DC
  inherits : ∀ RD, ∀ base ∈ bases RD, kind RD = .cxxRecord
  nominates : ∀ DC, ∀ NS ∈ using_directives DC,
    (kind DC).isDeclContext = true ∧ kind NS = .namespaceDecl

/-- What a lookup leaves: `several` is the pointer -1 of `LookupResult2Decl`. -/
inductive LookupResult
  | empty
  | single (ND : Nat)
  | several
  deriving DecidableEq, Repr

inductive RedeclarationKind
  | ForVisibleRedeclaration
  | NotForRedeclaration
  deriving DecidableEq, Repr

abbrev Identifier := List Char

namespace Declarations

variable (decls : Declarations)

def GetScopeFromType (QT : CanonicalType) : Option Nat :=
  match QT.getPointeeOrArrayElementType with
  | .tag D => some D
  | _ => none

/-- The class or enumeration behind a typedef, the target of a using-declaration, and every other
declaration itself. -/
def GetUnderlyingScope (D : Nat) : Nat :=
  if (decls.kind D).isTypedefName then (GetScopeFromType (decls.underlyingType D)).getD D
  else if decls.kind D = .usingShadow then (decls.getTargetDecl D).getD D
  else D

def BuildSyntheticScopeChain (DC : Nat) : List Nat :=
  if decls.kind DC = .translationUnit then [decls.TranslationUnit]
  else
    match _above : decls.getParent DC with
    | none => [DC, decls.TranslationUnit]
    | some Parent => DC :: BuildSyntheticScopeChain Parent
termination_by DC
decreasing_by exact decls.earlier DC Parent _above

def HasReachableUsingDirective (DC : Nat) : Bool :=
  if decls.kind DC = .translationUnit then false
  else if decls.kind DC = .namespaceDecl ∧ decls.using_directives DC ≠ [] then true
  else
    match _above : decls.getParent DC with
    | none => false
    | some Parent => HasReachableUsingDirective Parent
termination_by DC
decreasing_by exact decls.earlier DC Parent _above

theorem BuildSyntheticScopeChain_unit {DC : Nat} (unit : decls.kind DC = .translationUnit) :
    decls.BuildSyntheticScopeChain DC = [decls.TranslationUnit] := by
  rw [BuildSyntheticScopeChain, if_pos unit]

theorem BuildSyntheticScopeChain_parent {DC p : Nat} (inside : decls.getParent DC = some p)
    (nested : decls.kind DC ≠ .translationUnit) :
    decls.BuildSyntheticScopeChain DC = DC :: decls.BuildSyntheticScopeChain p := by
  rw [BuildSyntheticScopeChain, if_neg nested]
  split
  · next nowhere =>
      rw [inside] at nowhere
      cases nowhere
  · next Parent here =>
      rw [inside] at here
      rw [Option.some.inj here]

theorem HasReachableUsingDirective_here {DC : Nat} (isNamespace : decls.kind DC = .namespaceDecl)
    (directive : decls.using_directives DC ≠ []) :
    decls.HasReachableUsingDirective DC = true := by
  rw [HasReachableUsingDirective, if_neg (by simp [isNamespace]), if_pos ⟨isNamespace, directive⟩]

def GetOrForceDefinition (RD : Nat) : Option Nat :=
  if decls.hasDefinition RD || decls.completes RD then some RD else none

def Nominates (DC NS : Nat) : Prop := NS ∈ decls.using_directives DC

def HasBase (RD base : Nat) : Prop := base ∈ decls.bases RD

def GoesOn (scope next : Nat) : Prop := decls.HasBase scope next ∨ decls.Nominates scope next

end Declarations

/-- The compiler's lookups of ordinary names. A using-declaration counts as what it names, as
`getFoundDecl` has it. -/
structure Sema extends Declarations where
  /-- What a context declares under a name. -/
  LookupDirect : Nat → Identifier → List Nat
  /-- The namespaces whose members appear, to the scopes of a chain, as members of one of them. -/
  UnqualUsingDirectiveSet : List Nat → Nat → List Nat
  /-- What the bases of a class declare under a name, as far as it is not hidden. -/
  lookupInBases : Nat → Identifier → List Nat
  resolveKind : List Nat → LookupResult
  declares : ∀ DC name, ∀ ND ∈ LookupDirect DC name, (kind DC).isDeclContext = true
  inherited : ∀ RD name, ∀ ND ∈ lookupInBases RD name,
    ∃ base, Relation.ReflTransGen toDeclarations.HasBase RD base ∧ ND ∈ LookupDirect base name
  resolveKind_nil : resolveKind [] = .empty
  resolveKind_single : ∀ found ND, resolveKind found = .single ND → ND ∈ found

namespace Sema

variable (S : Sema)

/-- What shows in one scope of a chain: its own declarations and those of the namespaces that
appear in it. -/
def visibleAt (scopes : List Nat) (name : Identifier) (scope : Nat) : List Nat :=
  S.LookupDirect scope name ++
    (S.UnqualUsingDirectiveSet scopes scope).flatMap fun NS => S.LookupDirect NS name

def LookupName (scopes : List Nat) (name : Identifier) : LookupResult :=
  match scopes.find? fun scope => !(S.visibleAt scopes name scope).isEmpty with
  | none => .empty
  | some scope => S.resolveKind (S.visibleAt scopes name scope)

/-- Redeclarations are looked up in the context alone. Other lookups are made of classes only. -/
def LookupQualifiedName (Redecl : RedeclarationKind) (DC : Nat) (name : Identifier) :
    LookupResult :=
  match S.LookupDirect DC name, Redecl with
  | [], .NotForRedeclaration => S.resolveKind (S.lookupInBases DC name)
  | found, _ => S.resolveKind found

def Named (name : Identifier) : Option Nat → LookupResult
  | none => S.LookupName [S.TranslationUnit] name
  | some Within =>
      if (S.kind Within).isTag && !S.hasDefinition Within then .empty
      else S.LookupQualifiedName .ForVisibleRedeclaration Within name

def LookupUnqualified (name : Identifier) (Within : Nat) : LookupResult :=
  S.LookupName (S.BuildSyntheticScopeChain Within) name

def contextOf (parent : Option Nat) : Option Nat :=
  (parent.map S.GetUnderlyingScope).filter fun D => (S.kind D).isDeclContext

def GetNamed (name : Identifier) (parent : Option Nat) : Option Nat :=
  let Within := S.contextOf parent
  let missed := S.Named name Within
  match missed, Within with
  | .single ND, _ => some ND
  | _, none => none
  | _, some DC =>
      if missed = .empty ∧ S.kind DC = .cxxRecord then
        match S.GetOrForceDefinition DC with
        | none => none
        | some Def =>
            match S.LookupQualifiedName .NotForRedeclaration Def name with
            | .single ND => some ND
            | _ => none
      else if S.kind DC = .namespaceDecl ∧ S.HasReachableUsingDirective DC = true then
        match S.LookupUnqualified name DC with
        | .single ND => some ND
        | _ => none
      else none

def GetScope (name : Identifier) (parent : Option Nat) : Option Nat :=
  if name = [] then some S.TranslationUnit
  else (S.GetNamed name parent).filter fun ND => (S.kind ND).isScope

def scopeFrom (curr_scope : Option Nat) (rest : List Char) : Option Nat :=
  match _found : splitAtFirst "::".toList rest with
  | none => S.GetScope rest curr_scope
  | some (before, behind) => scopeFrom (S.GetScope before curr_scope) behind
termination_by rest.length
decreasing_by
  rw [splitAtFirst_some _found, List.length_append, List.length_append]
  exact Nat.lt_add_left _ (Nat.lt_add_of_pos_left Nat.two_pos)

def GetScopeFromCompleteName (name : List Char) : Option Nat := S.scopeFrom none name

end Sema

end CppInterOp
