import Mathlib.Data.Option.Basic

/-!
Walks that follow a list of signs from place to place, where a step that finds nothing leaves the
walker nowhere and the next one may set out from nowhere: when a walk only ends where every one of
its steps was proper.
-/

namespace Walks

universe u v

variable {Place : Type u} {Sign : Type v}

def walk (step : Option Place → Sign → Option Place) (start : Option Place) (signs : List Sign) :
    Option Place :=
  signs.foldl step start

/-- Every sign is followed by a proper step from the place that the ones before it lead to. -/
inductive Follows (Proper : Place → Sign → Place → Prop) : Place → List Sign → Place → Prop
  | nil {place} : Follows Proper place [] place
  | cons {place sign next signs last} : Proper place sign next → Follows Proper next signs last →
      Follows Proper place (sign :: signs) last

/-- A step finds a place improperly, and from there on the walk is a proper one to its end. -/
def Strays (step : Option Place → Sign → Option Place) (Proper : Place → Sign → Place → Prop)
    (start : Option Place) (signs : List Sign) : Prop :=
  ∃ front sign back next last, signs = front ++ sign :: back ∧
    step (walk step start front) sign = some next ∧
    (∀ place, walk step start front = some place → ¬Proper place sign next) ∧
    Follows Proper next back last

section

variable {step : Option Place → Sign → Option Place} {Proper : Place → Sign → Place → Prop}

@[simp] theorem walk_nil (start : Option Place) : walk step start [] = start := rfl

@[simp] theorem walk_cons (start : Option Place) (sign : Sign) (signs : List Sign) :
    walk step start (sign :: signs) = walk step (step start sign) signs := rfl

theorem walk_append (start : Option Place) (front back : List Sign) :
    walk step start (front ++ back) = walk step (walk step start front) back :=
  List.foldl_append

theorem Follows.split {place last : Place} {front back : List Sign}
    (follows : Follows Proper place (front ++ back) last) :
    ∃ middle, Follows Proper place front middle ∧ Follows Proper middle back last := by
  induction front generalizing place with
  | nil => exact ⟨place, .nil, follows⟩
  | cons sign front ih =>
      cases follows with
      | cons proper rest =>
          obtain ⟨middle, before, behind⟩ := ih rest
          exact ⟨middle, .cons proper before, behind⟩

theorem Strays.cons {start : Option Place} {sign : Sign} {signs : List Sign}
    (strays : Strays step Proper (step start sign) signs) :
    Strays step Proper start (sign :: signs) := by
  obtain ⟨front, wrong, back, next, last, rfl, found, improper, rest⟩ := strays
  exact ⟨sign :: front, wrong, back, next, last, rfl, found, improper, rest⟩

/-- A walk that arrives was proper from its start, or from where it last went astray. -/
theorem follows_or_strays {start : Option Place} {signs : List Sign} {last : Place}
    (arrives : walk step start signs = some last) :
    (∃ place, start = some place ∧ Follows Proper place signs last) ∨
      Strays step Proper start signs := by
  induction signs generalizing start with
  | nil => exact Or.inl ⟨last, arrives, .nil⟩
  | cons sign signs ih =>
      rcases ih arrives with ⟨next, found, rest⟩ | later
      · by_cases proper : ∃ place, start = some place ∧ Proper place sign next
        · obtain ⟨place, here, step_proper⟩ := proper
          exact Or.inl ⟨place, here, .cons step_proper rest⟩
        · refine Or.inr ⟨[], sign, signs, next, last, rfl, found, ?_, rest⟩
          intro place here step_proper
          exact proper ⟨place, here, step_proper⟩
      · exact Or.inr later.cons

variable (honest : ∀ place sign next, Proper place sign next →
  step (some place) sign = some next)
include honest

theorem Follows.walk_eq {place last : Place} {signs : List Sign}
    (follows : Follows Proper place signs last) : walk step (some place) signs = some last := by
  induction follows with
  | nil => rfl
  | cons proper _ ih => rw [walk_cons, honest _ _ _ proper, ih]

/-- A walk comes to the places of the proper walks and to no others exactly when it does not go
astray. -/
theorem arrives_properly_iff (start : Option Place) (signs : List Sign) :
    (∀ last, walk step start signs = some last ↔
        ∃ place, start = some place ∧ Follows Proper place signs last) ↔
      ¬Strays step Proper start signs := by
  constructor
  · rintro properly ⟨front, sign, back, next, last, rfl, found, improper, rest⟩
    have arrives : walk step start (front ++ sign :: back) = some last := by
      rw [walk_append, walk_cons, found, rest.walk_eq honest]
    obtain ⟨place, rfl, follows⟩ := (properly last).mp arrives
    obtain ⟨middle, before, behind⟩ := follows.split
    have stands := before.walk_eq honest
    cases behind with
    | @cons _ _ other _ _ proper _ =>
        have same : some other = some next := by
          rw [← honest middle sign other proper, ← stands, found]
        exact improper middle stands (Option.some.inj same ▸ proper)
  · intro kept last
    constructor
    · intro arrives
      exact (follows_or_strays arrives).resolve_right kept
    · rintro ⟨place, rfl, follows⟩
      exact follows.walk_eq honest

end

end Walks
