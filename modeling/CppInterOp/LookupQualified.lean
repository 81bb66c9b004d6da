import CppInterOp.LookupScopes

/-!
The name of a scope and the way back: the scopes around a declaration, and the lookup of the
qualified name that it has there.
-/

namespace CppInterOp

open Delimiters Walks

def DeclKind.isNamed (kind : DeclKind) : Bool := kind != .translationUnit && kind != .linkageSpec

namespace Declarations

variable (decls : Declarations)

def UnwrapUsingShadowToFunction (D : Nat) : Nat :=
  if decls.kind D = .usingShadow then
    match decls.getTargetDecl D with
    | none => D
    | some Target =>
        if decls.kind Target = .function ∨ decls.kind Target = .functionTemplate then Target else D
  else D

/-- The loop of `GetParentScope`: a linkage specification is no scope. -/
def enclosingScope (ParentDC : Nat) : Option Nat :=
  if decls.kind ParentDC = .linkageSpec then
    match _above : decls.getParent ParentDC with
    | none => none
    | some Parent => enclosingScope Parent
  else some ParentDC
termination_by ParentDC
decreasing_by exact decls.earlier ParentDC Parent _above

def GetParentScope (D : Nat) : Option Nat :=
  if decls.kind D = .translationUnit then none
  else (decls.getParent (decls.UnwrapUsingShadowToFunction D)).bind decls.enclosingScope

variable {decls} {D P : Nat}

theorem enclosingScope_scope (scope : decls.kind P ≠ .linkageSpec) :
    decls.enclosingScope P = some P := by
  rw [enclosingScope, if_neg scope]

theorem enclosingScope_linkage {Parent : Nat} (linkage : decls.kind P = .linkageSpec)
    (above : decls.getParent P = some Parent) :
    decls.enclosingScope P = decls.enclosingScope Parent := by
  rw [enclosingScope, if_pos linkage]
  split
  · next nowhere =>
      rw [above] at nowhere
      cases nowhere
  · next here =>
      rw [above] at here
      cases here
      rfl

theorem GetParentScope_of_named (shadow : decls.kind D ≠ .usingShadow)
    (nested : decls.kind D ≠ .translationUnit) :
    decls.GetParentScope D = (decls.getParent D).bind decls.enclosingScope := by
  rw [GetParentScope, if_neg nested, UnwrapUsingShadowToFunction, if_neg shadow]

end Declarations

/-- How the compiler prints names. A plain scope has a name, and it stands as it is in front of those
of its members: it is no inline namespace and no specialization of a template. -/
structure NamePrinter (decls : Declarations) where
  getNameAsString : Nat → Identifier
  getQualifiedNameAsString : Nat → List Char
  isPlain : Nat → Bool
  top : ∀ D, (decls.kind D).isNamed = true →
    decls.GetParentScope D = some decls.TranslationUnit →
      getQualifiedNameAsString D = getNameAsString D
  nested : ∀ D P, (decls.kind D).isNamed = true → decls.GetParentScope D = some P →
    isPlain P = true →
      getQualifiedNameAsString D = getQualifiedNameAsString P ++ "::".toList ++ getNameAsString D

namespace NamePrinter

variable {decls : Declarations} (printer : NamePrinter decls)

def GetName (D : Nat) : Identifier :=
  if decls.kind D = .translationUnit then []
  else if (decls.kind D).isNamed then printer.getNameAsString D
  else "<unnamed>".toList

def GetQualifiedName (D : Nat) : List Char :=
  if (decls.kind D).isNamed then printer.getQualifiedNameAsString D
  else if decls.kind D = .translationUnit then []
  else "<unnamed>".toList

end NamePrinter

namespace Sema

variable (S : Sema) (printer : NamePrinter S.toDeclarations)

/-- A scope that has an identifier for a name and is all that its context declares under it. -/
structure Declared (D P : Nat) : Prop where
  scope : (S.kind D).isScope = true
  parent : S.GetParentScope D = some P
  named : printer.getNameAsString D ≠ []
  identifier : ':' ∉ printer.getNameAsString D
  only : S.resolveKind (S.LookupDirect P (printer.getNameAsString D)) = .single D

/-- The declaration stands in namespaces and defined classes that are themselves so declared, and at
global scope nothing else shows under its name. The list is that of the names. -/
inductive Placed : Nat → List Identifier → Prop
  | top {D : Nat} : S.Declared printer D S.TranslationUnit →
      (∀ NS ∈ S.UnqualUsingDirectiveSet [S.TranslationUnit] S.TranslationUnit,
        S.LookupDirect NS (printer.getNameAsString D) = []) →
      Placed D [printer.getNameAsString D]
  | nested {D P : Nat} {names : List Identifier} : Placed P names → printer.isPlain P = true →
      (S.kind P = .namespaceDecl ∨ S.kind P = .cxxRecord ∧ S.hasDefinition P = true) →
      S.Declared printer D P → Placed D (names ++ [printer.getNameAsString D])

variable {S printer} {D P : Nat} {names : List Identifier}

theorem isNamed_of_isScope {kind : DeclKind} (scope : kind.isScope = true) :
    kind.isNamed = true := by
  cases kind <;> first | rfl | cases scope

theorem Placed.names_ne_nil (placed : S.Placed printer D names) : names ≠ [] := by
  cases placed with
  | top => exact List.cons_ne_nil _ _
  | nested => exact List.concat_ne_nil _ _

theorem Placed.identifiers (placed : S.Placed printer D names) :
    ∀ name ∈ names, ':' ∉ name := by
  induction placed with
  | top declared =>
      intro name member
      rw [List.mem_singleton.mp member]
      exact declared.identifier
  | nested _ _ _ declared ih =>
      intro name member
      rcases List.mem_append.mp member with outer | last
      · exact ih name outer
      · rw [List.mem_singleton.mp last]
        exact declared.identifier

theorem Placed.scope (placed : S.Placed printer D names) : (S.kind D).isScope = true := by
  cases placed with
  | top declared => exact declared.scope
  | nested _ _ _ declared => exact declared.scope

theorem Placed.getQualifiedName (placed : S.Placed printer D names) :
    printer.GetQualifiedName D = "::".toList.intercalate names := by
  have named := isNamed_of_isScope placed.scope
  rw [NamePrinter.GetQualifiedName, if_pos named]
  induction placed with
  | top declared => rw [printer.top _ named declared.parent, List.intercalate_singleton]
  | nested outer plain _ declared ih =>
      rw [printer.nested _ _ named declared.parent plain,
        ih (isNamed_of_isScope outer.scope), intercalate_concat outer.names_ne_nil]

section Lookups

variable {name : Identifier}

theorem LookupQualifiedName_redeclared (S : Sema) (P : Nat) (name : Identifier) :
    S.LookupQualifiedName .ForVisibleRedeclaration P name =
      S.resolveKind (S.LookupDirect P name) := by
  unfold LookupQualifiedName
  cases S.LookupDirect P name with
  | nil => rfl
  | cons found others => rfl

theorem GetNamed_only (plain : S.GetUnderlyingScope P = P)
    (context : (S.kind P).isDeclContext = true)
    (whole : ((S.kind P).isTag && !S.hasDefinition P) = false)
    (only : S.resolveKind (S.LookupDirect P name) = .single D) :
    S.GetNamed name (some P) = some D := by
  have inside : S.contextOf (some P) = some P := by
    rw [contextOf_some (plain.symm ▸ context), plain]
  have found : S.Named name (some P) = .single D := by
    rw [Named, if_neg (by simp [whole]), LookupQualifiedName_redeclared, only]
  rw [GetNamed, inside]
  simp only [found]

theorem GetNamed_top (found : S.LookupName [S.TranslationUnit] name = .single D) :
    S.GetNamed name none = some D := by
  have nowhere : S.contextOf none = none := rfl
  have named : S.Named name none = .single D := found
  rw [GetNamed, nowhere]
  simp only [named]

theorem GetScope_of_GetNamed {parent : Option Nat} (filled : name ≠ [])
    (found : S.GetNamed name parent = some D) (scope : (S.kind D).isScope = true) :
    S.GetScope name parent = some D := by
  rw [GetScope, if_neg filled, found, Option.filter_some, if_pos scope]

theorem LookupName_only
    (elsewhere : ∀ NS ∈ S.UnqualUsingDirectiveSet [S.TranslationUnit] S.TranslationUnit,
      S.LookupDirect NS name = [])
    (only : S.resolveKind (S.LookupDirect S.TranslationUnit name) = .single D) :
    S.LookupName [S.TranslationUnit] name = .single D := by
  refine LookupName_single_iff.mpr ⟨[], S.TranslationUnit, [], rfl, ?_, ?_⟩
  · exact fun DC member => absurd member List.not_mem_nil
  · rw [visibleAt, List.flatMap_eq_nil_iff.mpr elsewhere, List.append_nil]
    exact only

end Lookups

theorem Declared.getScope_top (declared : S.Declared printer D S.TranslationUnit) :
    S.GetScope (printer.getNameAsString D) (some S.TranslationUnit) = some D := by
  refine GetScope_of_GetNamed declared.named (GetNamed_only ?_ ?_ ?_ declared.only) declared.scope
  · simp [Declarations.GetUnderlyingScope, S.translationUnit, DeclKind.isTypedefName]
  · rw [S.translationUnit]
    rfl
  · rw [S.translationUnit]
    rfl

theorem Declared.getScope_nested (declared : S.Declared printer D P)
    (context : S.kind P = .namespaceDecl ∨ S.kind P = .cxxRecord ∧ S.hasDefinition P = true) :
    S.GetScope (printer.getNameAsString D) (some P) = some D := by
  refine GetScope_of_GetNamed declared.named (GetNamed_only ?_ ?_ ?_ declared.only) declared.scope
  · rcases context with isNamespace | ⟨isRecord, _⟩
    · simp [Declarations.GetUnderlyingScope, isNamespace, DeclKind.isTypedefName]
    · simp [Declarations.GetUnderlyingScope, isRecord, DeclKind.isTypedefName]
  · rcases context with isNamespace | ⟨isRecord, _⟩
    · rw [isNamespace]
      rfl
    · rw [isRecord]
      rfl
  · rcases context with isNamespace | ⟨isRecord, defined⟩
    · rw [isNamespace]
      rfl
    · rw [defined, Bool.not_true, Bool.and_false]

/-- Each name leads from the scope before it to the next one. -/
theorem Placed.scopeAfter (placed : S.Placed printer D names) : S.scopeAfter names = some D := by
  induction placed with
  | top declared elsewhere =>
      exact GetScope_of_GetNamed declared.named
        (GetNamed_top (LookupName_only elsewhere declared.only)) declared.scope
  | nested _ _ context declared ih =>
      rw [Sema.scopeAfter] at ih ⊢
      rw [walk_append, ih]
      exact declared.getScope_nested context

theorem Placed.getScopeFromCompleteName (placed : S.Placed printer D names) :
    S.GetScopeFromCompleteName (printer.GetQualifiedName D) = some D := by
  rw [GetScopeFromCompleteName, scopeFrom_eq, placed.getQualifiedName, components]
  have names_found := @pieces_unstarted _ _ ':' [':'] _ placed.names_ne_nil placed.identifiers
  exact (congrArg S.scopeAfter names_found).trans placed.scopeAfter

theorem Placed.getScope (placed : S.Placed printer D names) :
    S.GetScope (printer.GetName D) (S.GetParentScope D) = some D := by
  have named := isNamed_of_isScope placed.scope
  have nested : S.kind D ≠ .translationUnit := by
    intro unit
    rw [unit] at named
    cases named
  rw [NamePrinter.GetName, if_neg nested, if_pos named]
  cases placed with
  | top declared =>
      rw [declared.parent]
      exact declared.getScope_top
  | nested _ _ context declared =>
      rw [declared.parent]
      exact declared.getScope_nested context

/-- The qualified name of a scope leads back to it, and so does its name in the scope around it; no
other scope has its qualified name. -/
theorem getQualifiedName_resolves (placed : S.Placed printer D names) :
    S.GetScopeFromCompleteName (printer.GetQualifiedName D) = some D ∧
      S.GetScope (printer.GetName D) (S.GetParentScope D) = some D ∧
      ∀ other others, S.Placed printer other others →
        printer.GetQualifiedName other = printer.GetQualifiedName D → other = D := by
  refine ⟨placed.getScopeFromCompleteName, placed.getScope, ?_⟩
  intro other others alsoPlaced same
  have found := alsoPlaced.getScopeFromCompleteName
  rw [same, placed.getScopeFromCompleteName] at found
  exact (Option.some.inj found).symm

/-- `namespace Outer { extern "C++" { class Inner { class Leaf; }; } }` -/
def leafDecls : Declarations where
  TranslationUnit := 0
  kind D := [.translationUnit, .namespaceDecl, .linkageSpec, .cxxRecord, .cxxRecord].getD D .field
  getParent D := [none, some 0, some 1, some 2, some 3].getD D none
  underlyingType _ := .builtin
  getTargetDecl _ := none
  bases _ := []
  using_directives _ := []
  hasDefinition D := D = 3
  completes _ := false
  translationUnit := rfl
  earlier := by
    intro DC parent inside
    match DC with
    | 0 => cases inside
    | 1 | 2 | 3 | 4 =>
        cases inside
        decide
    | n + 5 => cases inside
  inherits _ _ inherited := by cases inherited
  nominates _ _ nominated := by cases nominated

theorem leaf_parents (D : Nat) : leafDecls.GetParentScope D =
    [none, some 0, some 1, some 1, some 3].getD D none := by
  match D with
  | 0 => exact if_pos rfl
  | 1 =>
      rw [Declarations.GetParentScope_of_named (by decide) (by decide)]
      exact Declarations.enclosingScope_scope (by decide)
  | 2 =>
      rw [Declarations.GetParentScope_of_named (by decide) (by decide)]
      exact Declarations.enclosingScope_scope (by decide)
  | 3 =>
      rw [Declarations.GetParentScope_of_named (by decide) (by decide)]
      exact (Declarations.enclosingScope_linkage rfl rfl).trans
        (Declarations.enclosingScope_scope (by decide))
  | 4 =>
      rw [Declarations.GetParentScope_of_named (by decide) (by decide)]
      exact Declarations.enclosingScope_scope (by decide)
  | n + 5 =>
      rw [Declarations.GetParentScope_of_named (by simp [leafDecls]) (by simp [leafDecls])]
      rfl

def leafNames : NamePrinter leafDecls where
  getNameAsString D := [[], "Outer".toList, [], "Inner".toList, "Leaf".toList].getD D []
  getQualifiedNameAsString D :=
    [[], "Outer".toList, [], "Outer::Inner".toList, "Outer::Inner::Leaf".toList].getD D []
  isPlain D := D = 1 || D = 3
  top := by
    intro D named inside
    rw [leaf_parents] at inside
    match D with
    | 1 => rfl
    | 0 | 3 | 4 | n + 5 => cases inside
    | 2 => cases named
  nested := by
    intro D P named inside plain
    rw [leaf_parents] at inside
    match D with
    | 3 | 4 =>
        cases inside
        rfl
    | 0 | n + 5 => cases inside
    | 1 =>
        cases inside
        cases plain
    | 2 => cases named

def leafSema : Sema where
  toDeclarations := leafDecls
  LookupDirect DC name :=
    if DC = 0 ∧ name = "Outer".toList then [1]
    else if DC = 1 ∧ name = "Inner".toList then [3]
    else if DC = 3 ∧ name = "Leaf".toList then [4] else []
  UnqualUsingDirectiveSet _ _ := []
  lookupInBases _ _ := []
  resolveKind := outerSema.resolveKind
  declares := by
    intro DC name ND member
    split_ifs at member with unit outer inner
    · rw [unit.1]
      rfl
    · rw [outer.1]
      rfl
    · rw [inner.1]
      rfl
    · cases member
  inherited _ _ _ member := by cases member
  resolveKind_nil := outerSema.resolveKind_nil
  resolveKind_single := outerSema.resolveKind_single

theorem leaf_placed :
    leafSema.Placed leafNames 4 ["Outer".toList, "Inner".toList, "Leaf".toList] := by
  have outer : leafSema.Placed leafNames 1 ["Outer".toList] :=
    .top ⟨rfl, leaf_parents 1, by decide, by decide, rfl⟩ fun NS member => by cases member
  have inner : leafSema.Placed leafNames 3 ["Outer".toList, "Inner".toList] :=
    .nested outer rfl (Or.inl rfl) ⟨rfl, leaf_parents 3, by decide, by decide, rfl⟩
  exact .nested inner rfl (Or.inr ⟨rfl, rfl⟩) ⟨rfl, leaf_parents 4, by decide, by decide, rfl⟩

theorem getQualifiedName_resolves_leaf :
    leafSema.GetScopeFromCompleteName "Outer::Inner::Leaf".toList = some 4 :=
  (getQualifiedName_resolves leaf_placed).1

end Sema

end CppInterOp
