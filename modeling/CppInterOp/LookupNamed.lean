import CppInterOp.LookupCore

/-!
Named lookup and its parent: when what is found is reachable from the parent by qualified lookup.
-/

namespace CppInterOp

open Relation

namespace Sema

variable {S : Sema} {name : Identifier}

/-- Declared in what the parent stands for, in one of its bases, or in a namespace that a
using-directive leads to from there. -/
def ReachableFrom (S : Sema) (parent : Nat) (name : Identifier) (ND : Nat) : Prop :=
  ∃ DC, ReflTransGen S.GoesOn (S.GetUnderlyingScope parent) DC ∧ ND ∈ S.LookupDirect DC name

section Reach

theorem goesOn_context {DC next : Nat} (goes : S.GoesOn DC next) :
    (S.kind DC).isDeclContext = true := by
  rcases goes with inherited | nominated
  · rw [S.inherits DC next inherited]
    rfl
  · exact (S.nominates DC next nominated).1

theorem not_reachable_of_no_context {parent ND : Nat}
    (other : (S.kind (S.GetUnderlyingScope parent)).isDeclContext = false) :
    ¬S.ReachableFrom parent name ND := by
  rintro ⟨DC, leads, declared⟩
  have context : (S.kind (S.GetUnderlyingScope parent)).isDeclContext = true := by
    rcases leads.cases_head with rfl | ⟨next, goes, _⟩
    · exact S.declares _ name ND declared
    · exact goesOn_context goes
  exact Bool.noConfusion (context.symm.trans other)

theorem goesOn_namespace {DC next : Nat} (isNamespace : S.kind DC = .namespaceDecl)
    (leads : ReflTransGen S.GoesOn DC next) :
    S.kind next = .namespaceDecl ∧ ReflTransGen S.Nominates DC next := by
  induction leads with
  | refl => exact ⟨isNamespace, .refl⟩
  | @tail before last _ goes ih =>
      rcases goes with inherited | nominated
      · have isRecord := S.inherits before last inherited
        rw [ih.1] at isRecord
        cases isRecord
      · exact ⟨(S.nominates before last nominated).2, ih.2.tail nominated⟩

theorem reachable_of_nominated {parent NS ND : Nat}
    (leads : ReflTransGen S.Nominates (S.GetUnderlyingScope parent) NS)
    (declared : ND ∈ S.LookupDirect NS name) : S.ReachableFrom parent name ND :=
  ⟨NS, ReflTransGen.mono (fun _ _ nominated => Or.inr nominated) _ _ leads, declared⟩

end Reach

section Lookups

/-- What unqualified lookup finds is all that shows in the innermost scope in which anything does. -/
theorem LookupName_single_iff {scopes : List Nat} {ND : Nat} :
    S.LookupName scopes name = .single ND ↔
      ∃ inner scope outer, scopes = inner ++ scope :: outer ∧
        (∀ DC ∈ inner, S.visibleAt scopes name DC = []) ∧
        S.resolveKind (S.visibleAt scopes name scope) = .single ND := by
  have shows : ∀ {DC}, S.resolveKind (S.visibleAt scopes name DC) = .single ND →
      (!(S.visibleAt scopes name DC).isEmpty) = true := by
    intro DC found
    cases seen : S.visibleAt scopes name DC with
    | nil =>
        rw [seen, S.resolveKind_nil] at found
        cases found
    | cons _ _ => rfl
  constructor
  · intro found
    rw [LookupName] at found
    split at found
    · cases found
    · next scope first =>
        obtain ⟨_, inner, outer, whole, hidden⟩ := List.find?_eq_some_iff_append.mp first
        refine ⟨inner, scope, outer, whole, ?_, found⟩
        intro DC member
        simpa using hidden DC member
  · rintro ⟨inner, scope, outer, whole, hidden, found⟩
    have first : scopes.find? (fun DC => !(S.visibleAt scopes name DC).isEmpty) = some scope := by
      refine List.find?_eq_some_iff_append.mpr ⟨shows found, inner, outer, whole, ?_⟩
      intro DC member
      simp [hidden DC member]
    rw [LookupName, first]
    exact found

theorem LookupQualifiedName_single {Redecl : RedeclarationKind} {DC ND : Nat}
    (found : S.LookupQualifiedName Redecl DC name = .single ND) :
    ∃ base, ReflTransGen S.HasBase DC base ∧ ND ∈ S.LookupDirect base name := by
  unfold LookupQualifiedName at found
  split at found
  · exact S.inherited DC name ND (S.resolveKind_single _ ND found)
  · exact ⟨DC, .refl, S.resolveKind_single _ ND found⟩

theorem Named_single {DC ND : Nat} (found : S.Named name (some DC) = .single ND) :
    ∃ base, ReflTransGen S.HasBase DC base ∧ ND ∈ S.LookupDirect base name := by
  rw [Named] at found
  split at found
  · cases found
  · exact LookupQualifiedName_single found

theorem reachable_of_base {parent base ND : Nat}
    (leads : ReflTransGen S.HasBase (S.GetUnderlyingScope parent) base)
    (declared : ND ∈ S.LookupDirect base name) : S.ReachableFrom parent name ND :=
  ⟨base, ReflTransGen.mono (fun _ _ inherited => Or.inl inherited) _ _ leads, declared⟩

end Lookups

/-- The name is looked up from inside a namespace once it is not found in it. -/
def AsksOutward (S : Sema) (name : Identifier) (DC : Nat) : Prop :=
  S.kind DC = .namespaceDecl ∧ S.HasReachableUsingDirective DC = true ∧
    ∀ ND, S.Named name (some DC) ≠ .single ND

section Named

variable {parent : Nat}

theorem contextOf_none (other : (S.kind (S.GetUnderlyingScope parent)).isDeclContext = false) :
    S.contextOf (some parent) = none := by
  simp [contextOf, other]

theorem contextOf_some (context : (S.kind (S.GetUnderlyingScope parent)).isDeclContext = true) :
    S.contextOf (some parent) = some (S.GetUnderlyingScope parent) := by
  simp [contextOf, context]

theorem GetNamed_no_context {ND : Nat}
    (other : (S.kind (S.GetUnderlyingScope parent)).isDeclContext = false) :
    S.GetNamed name (some parent) = some ND ↔
      S.LookupName [S.TranslationUnit] name = .single ND := by
  have named : S.Named name none = S.LookupName [S.TranslationUnit] name := rfl
  simp only [GetNamed, contextOf_none other, named]
  cases S.LookupName [S.TranslationUnit] name <;> simp

/-- What a parent that is a context finds: in the context, in the bases of a class, or outward from
a namespace. -/
theorem GetNamed_context {ND : Nat}
    (context : (S.kind (S.GetUnderlyingScope parent)).isDeclContext = true)
    (found : S.GetNamed name (some parent) = some ND) :
    (∃ base, ReflTransGen S.HasBase (S.GetUnderlyingScope parent) base ∧
        ND ∈ S.LookupDirect base name) ∨
      S.AsksOutward name (S.GetUnderlyingScope parent) ∧
        S.LookupUnqualified name (S.GetUnderlyingScope parent) = .single ND := by
  rw [GetNamed, contextOf_some context] at found
  split at found
  · next single =>
      cases found
      exact Or.inl (Named_single single)
  · next absurdity _ => cases absurdity
  · next DC here missed =>
      obtain rfl := Option.some.inj here
      split at found
      · split at found
        · cases found
        · next Def forced =>
            split at found
            · next single =>
                cases found
                rw [Declarations.GetOrForceDefinition] at forced
                split at forced
                · cases forced
                  exact Or.inl (LookupQualifiedName_single single)
                · cases forced
            · cases found
      · split at found
        · next outward =>
            split at found
            · next single =>
                cases found
                exact Or.inr ⟨⟨outward.1, outward.2, missed⟩, single⟩
            · cases found
        · cases found

theorem GetNamed_outward {ND : Nat} (asks : S.AsksOutward name (S.GetUnderlyingScope parent))
    (single : S.LookupUnqualified name (S.GetUnderlyingScope parent) = .single ND) :
    S.GetNamed name (some parent) = some ND := by
  obtain ⟨isNamespace, directive, missed⟩ := asks
  have context : (S.kind (S.GetUnderlyingScope parent)).isDeclContext = true := by
    rw [isNamespace]
    rfl
  rw [GetNamed, contextOf_some context]
  split
  · next found => exact absurd found (missed _)
  · next absurdity _ => cases absurdity
  · next DC here _ =>
      obtain rfl := Option.some.inj here
      rw [if_neg (by simp [isNamespace]), if_pos ⟨isNamespace, directive⟩, single]

end Named

/-- The parent is a context or the name means nothing in particular at global scope, and where it is
looked up from inside a namespace, the innermost scope that shows it shows what the namespace or one
that it nominates declares. -/
structure StaysInside (S : Sema) (name : Identifier) (parent : Nat) : Prop where
  context : (S.kind (S.GetUnderlyingScope parent)).isDeclContext = false →
    ∀ ND, S.resolveKind (S.visibleAt [S.TranslationUnit] name S.TranslationUnit) ≠ .single ND
  outward : S.AsksOutward name (S.GetUnderlyingScope parent) →
    ∀ inner scope outer,
      S.BuildSyntheticScopeChain (S.GetUnderlyingScope parent) = inner ++ scope :: outer →
      (∀ DC ∈ inner, S.visibleAt (inner ++ scope :: outer) name DC = []) →
      ∀ ND, S.resolveKind (S.visibleAt (inner ++ scope :: outer) name scope) = .single ND →
        ∃ NS, ReflTransGen S.Nominates (S.GetUnderlyingScope parent) NS ∧
          ND ∈ S.LookupDirect NS name

/-- Named lookup finds only what is reachable from its parent exactly when the lookup stays inside
it. -/
theorem getNamed_reachable_iff (S : Sema) (name : Identifier) (parent : Nat) :
    (∀ ND, S.GetNamed name (some parent) = some ND → S.ReachableFrom parent name ND) ↔
      S.StaysInside name parent := by
  constructor
  · intro reaches
    constructor
    · intro other ND shown
      have found : S.LookupName [S.TranslationUnit] name = .single ND :=
        LookupName_single_iff.mpr ⟨[], _, [], rfl, by simp, shown⟩
      exact not_reachable_of_no_context other
        (reaches ND ((GetNamed_no_context other).mpr found))
    · intro asks inner scope outer chain hidden ND shown
      have single : S.LookupUnqualified name (S.GetUnderlyingScope parent) = .single ND := by
        rw [LookupUnqualified, chain]
        exact LookupName_single_iff.mpr ⟨inner, scope, outer, rfl, hidden, shown⟩
      obtain ⟨DC, leads, declared⟩ := reaches ND (GetNamed_outward asks single)
      exact ⟨DC, (goesOn_namespace asks.1 leads).2, declared⟩
  · intro inside ND found
    by_cases context : (S.kind (S.GetUnderlyingScope parent)).isDeclContext = true
    · rcases GetNamed_context context found with ⟨base, leads, declared⟩ | ⟨asks, single⟩
      · exact reachable_of_base leads declared
      · obtain ⟨inner, scope, outer, chain, hidden, shown⟩ := LookupName_single_iff.mp single
        rw [chain] at hidden shown
        obtain ⟨NS, leads, declared⟩ :=
          inside.outward asks inner scope outer chain hidden ND shown
        exact reachable_of_nominated leads declared
    · have other := Bool.eq_false_iff.mpr context
      obtain ⟨inner, scope, outer, chain, _, shown⟩ :=
        LookupName_single_iff.mp ((GetNamed_no_context other).mp found)
      have last : scope = S.TranslationUnit := by
        cases inner with
        | nil => exact (List.cons.inj chain).1.symm
        | cons DC inner =>
            have none_left := (List.cons.inj chain).2
            simp at none_left
      rw [last] at shown
      exact absurd shown (inside.context other ND)

/-- `int v; int g; namespace Outer { int x; namespace A {} namespace B { using namespace A; } }` -/
def outerDecls : Declarations where
  TranslationUnit := 0
  kind D := [.translationUnit, .variable, .variable, .namespaceDecl, .variable, .namespaceDecl,
    .namespaceDecl].getD D .field
  getParent D := if D = 5 ∨ D = 6 then some 3 else if D = 3 then some 0 else none
  underlyingType _ := .builtin
  getTargetDecl _ := none
  bases _ := []
  using_directives D := if D = 6 then [5] else []
  hasDefinition _ := false
  completes _ := false
  translationUnit := rfl
  earlier := by
    intro DC parent inside
    split_ifs at inside with nested outer
    · cases inside
      omega
    · cases inside
      omega
  inherits := by simp
  nominates := by
    intro DC NS member
    split_ifs at member with here
    · rw [List.mem_singleton.mp member, here]
      exact ⟨rfl, rfl⟩
    · cases member

def outerSema : Sema where
  toDeclarations := outerDecls
  LookupDirect DC name :=
    if DC = 0 then
      if name = ['v'] then [1] else if name = ['g'] then [2]
      else if name = "Outer".toList then [3] else []
    else if DC = 3 then
      if name = ['x'] then [4] else if name = ['A'] then [5] else if name = ['B'] then [6] else []
    else []
  UnqualUsingDirectiveSet scopes scope := if 6 ∈ scopes ∧ scope = 3 then [5] else []
  lookupInBases _ _ := []
  resolveKind
    | [] => .empty
    | [ND] => .single ND
    | _ => .several
  declares := by
    intro DC name ND member
    by_cases unit : DC = 0
    · rw [unit]
      rfl
    · by_cases outer : DC = 3
      · rw [outer]
        rfl
      · rw [if_neg unit, if_neg outer] at member
        cases member
  inherited _ _ _ member := nomatch member
  resolveKind_nil := rfl
  resolveKind_single := by
    intro found ND single
    split at single
    · cases single
    · cases single
      exact List.mem_singleton_self _
    · cases single

theorem outer_chain : outerDecls.BuildSyntheticScopeChain 6 = [6, 3, 0] := by
  rw [outerDecls.BuildSyntheticScopeChain_parent (p := 3) rfl (by decide),
    outerDecls.BuildSyntheticScopeChain_parent (p := 0) rfl (by decide),
    outerDecls.BuildSyntheticScopeChain_unit rfl]
  rfl

theorem outer_reaches {DC : Nat} (leads : ReflTransGen outerSema.GoesOn 6 DC) :
    DC = 6 ∨ DC = 5 := by
  induction leads with
  | refl => exact Or.inl rfl
  | @tail before last _ goes ih =>
      rcases goes with inherited | nominated
      · cases inherited
      · rcases ih with rfl | rfl
        · exact Or.inr (List.mem_singleton.mp nominated)
        · cases nominated

/-- A variable shows the other declarations of the global scope, and a namespace with a
using-directive those around it. -/
theorem getNamed_leaves_parent :
    (outerSema.GetNamed ['g'] (some 1) = some 2 ∧ ¬outerSema.ReachableFrom 1 ['g'] 2) ∧
      outerSema.GetNamed ['x'] (some 6) = some 4 ∧ ¬outerSema.ReachableFrom 6 ['x'] 4 := by
  refine ⟨⟨rfl, not_reachable_of_no_context rfl⟩, ?_, ?_⟩
  · have asks : outerSema.AsksOutward ['x'] 6 := by
      refine ⟨rfl, outerDecls.HasReachableUsingDirective_here rfl (by decide), ?_⟩
      intro ND found
      cases found
    refine GetNamed_outward asks ?_
    rw [LookupUnqualified]
    exact outer_chain ▸ rfl
  · rintro ⟨DC, leads, declared⟩
    rcases outer_reaches leads with rfl | rfl
    · cases declared
    · cases declared

end Sema

end CppInterOp
