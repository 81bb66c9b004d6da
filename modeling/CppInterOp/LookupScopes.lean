import CppInterOp.LookupNamed
import CppInterOp.Library.Walks

/-!
The scope of a qualified name: when it is found component by component, each one inside the scope
of those before it.
-/

namespace CppInterOp

open Delimiters Walks

theorem delim_ne_nil : "::".toList ≠ [] := by decide

def components (name : List Char) : List Identifier := pieces delim_ne_nil name

theorem components_split (name : List Char) :
    "::".toList.intercalate (components name) = name ∧
      ∀ component ∈ components name, ¬"::".toList <:+: component :=
  ⟨intercalate_pieces delim_ne_nil name, fun _ => pieces_free delim_ne_nil⟩

namespace Sema

variable (S : Sema)

def Inside (scope : Nat) (component : Identifier) (found : Nat) : Prop :=
  component ≠ [] ∧ S.GetScope component (some scope) = some found ∧
    S.ReachableFrom scope component found

/-- The first component is found at global scope, which an empty one denotes, and each of the others
inside the scope that those before it lead to. -/
def Resolves : List Identifier → Nat → Prop
  | [], _ => False
  | first :: rest, last =>
      ∃ scope, S.GetScope first none = some scope ∧ Follows S.Inside scope rest last

def scopeAfter (front : List Identifier) : Option Nat :=
  walk (fun curr_scope component => S.GetScope component curr_scope) none front

/-- A component behind the first one is empty, or comes where nothing has been found, or is found
out of reach of the scope that has been found, and those behind it resolve from what is found. -/
def GoesAstray (names : List Identifier) : Prop :=
  ∃ front component back found last, front ≠ [] ∧ names = front ++ component :: back ∧
    S.GetScope component (S.scopeAfter front) = some found ∧
    (component = [] ∨ S.scopeAfter front = none ∨
      ∃ scope, S.scopeAfter front = some scope ∧ ¬S.ReachableFrom scope component found) ∧
    Follows S.Inside found back last

variable {S}

theorem scopeFrom_eq (curr_scope : Option Nat) (rest : List Char) :
    S.scopeFrom curr_scope rest =
      walk (fun curr_scope component => S.GetScope component curr_scope) curr_scope
        (components rest) := by
  induction curr_scope, rest using scopeFrom.induct S with
  | case1 curr_scope rest absent =>
      rw [components, pieces_last delim_ne_nil absent, scopeFrom]
      split
      · rfl
      · next found =>
          rw [absent] at found
          cases found
  | case2 curr_scope rest before behind found ih =>
      rw [components, pieces_more delim_ne_nil found, walk_cons, scopeFrom]
      split
      · next absent =>
          rw [absent] at found
          cases found
      · next here =>
          rw [found] at here
          cases here
          exact ih

theorem not_inside_iff {curr_scope : Option Nat} {component : Identifier} {found : Nat}
    (looked : S.GetScope component curr_scope = some found) :
    (∀ scope, curr_scope = some scope → ¬S.Inside scope component found) ↔
      component = [] ∨ curr_scope = none ∨
        ∃ scope, curr_scope = some scope ∧ ¬S.ReachableFrom scope component found := by
  constructor
  · intro outside
    cases curr_scope with
    | none => exact Or.inr (Or.inl rfl)
    | some scope =>
        by_cases empty : component = []
        · exact Or.inl empty
        · refine Or.inr (Or.inr ⟨scope, rfl, ?_⟩)
          intro reachable
          exact outside scope rfl ⟨empty, looked, reachable⟩
  · rintro (empty | nowhere | ⟨other, here, unreachable⟩) scope there inside
    · exact inside.1 empty
    · rw [nowhere] at there
      cases there
    · rw [here] at there
      cases there
      exact unreachable inside.2.2

theorem goesAstray_cons_iff {first : Identifier} {rest : List Identifier} :
    S.GoesAstray (first :: rest) ↔
      Strays (fun curr_scope component => S.GetScope component curr_scope) S.Inside
        (S.GetScope first none) rest := by
  constructor
  · rintro ⟨front, component, back, found, last, nonempty, whole, looked, outside, follows⟩
    cases front with
    | nil => exact absurd rfl nonempty
    | cons other front =>
        obtain ⟨rfl, rfl⟩ := List.cons.inj whole
        exact ⟨front, component, back, found, last, rfl, looked, (not_inside_iff looked).mpr outside,
          follows⟩
  · rintro ⟨front, component, back, found, last, rfl, looked, outside, follows⟩
    exact ⟨first :: front, component, back, found, last, List.cons_ne_nil _ _, rfl, looked,
      (not_inside_iff looked).mp outside, follows⟩

/-- A qualified name comes to the scope that its components resolve to, and to none if they do not
resolve, exactly when the lookup of no component behind the first one goes astray. -/
theorem scopeFromCompleteName_iff (S : Sema) (name : List Char) :
    (∀ scope, S.GetScopeFromCompleteName name = some scope ↔
        S.Resolves (components name) scope) ↔
      ¬S.GoesAstray (components name) := by
  have looked : S.GetScopeFromCompleteName name = S.scopeAfter (components name) :=
    scopeFrom_eq none name
  rw [looked]
  cases split : components name with
  | nil => exact absurd split (pieces_ne_nil delim_ne_nil name)
  | cons first rest =>
      rw [goesAstray_cons_iff]
      refine arrives_properly_iff ?_ (S.GetScope first none) rest
      intro scope component found inside
      exact inside.2.1

theorem components_missing :
    components "Missing::Outer".toList = ["Missing".toList, "Outer".toList] := by
  have cut : splitAtFirst "::".toList "Missing::Outer".toList =
      some ("Missing".toList, "Outer".toList) := rfl
  rw [components, pieces_more delim_ne_nil cut, pieces_last delim_ne_nil rfl]

theorem components_ended :
    components "Outer::".toList = ["Outer".toList, []] := by
  have cut : splitAtFirst "::".toList "Outer::".toList = some ("Outer".toList, []) := rfl
  rw [components, pieces_more delim_ne_nil cut, pieces_last delim_ne_nil rfl]

/-- A component that is not found starts the lookup anew at global scope, and so does an empty one. -/
theorem scopeFromCompleteName_restarts :
    (outerSema.GetScopeFromCompleteName "Missing::Outer".toList = some 3 ∧
        ¬outerSema.Resolves (components "Missing::Outer".toList) 3) ∧
      outerSema.GetScopeFromCompleteName "Outer::".toList = some 0 ∧
        ¬outerSema.Resolves (components "Outer::".toList) 0 := by
  rw [GetScopeFromCompleteName, GetScopeFromCompleteName, scopeFrom_eq, scopeFrom_eq,
    components_missing, components_ended]
  refine ⟨⟨rfl, ?_⟩, rfl, ?_⟩
  · rintro ⟨scope, found, _⟩
    cases found
  · rintro ⟨scope, _, follows⟩
    cases follows with
    | cons inside _ => exact inside.1 rfl

end Sema

end CppInterOp
