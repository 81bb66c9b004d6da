import Mathlib.Data.Nat.Basic

/-!
Loops over arbitrary states: what a loop returns, and the rules for proving that it
returns, that what it returns is right, and that it never returns.
-/

namespace Looping

universe u v

/-- One pass through a loop's body either goes round again or leaves with a result. -/
inductive Turn (State : Type u) (Result : Type v) where
  | again (state : State)
  | leave (result : Result)

section

variable {State : Type u} {Result : Type v} (body : State → Turn State Result)

def iterate : Nat → State → Option Result
  | 0, _ => none
  | turns + 1, state =>
      match body state with
      | .again next => iterate turns next
      | .leave result => some result

def Ends (state : State) (result : Result) : Prop :=
  ∃ turns, iterate body turns state = some result

variable {body}

theorem ends_of_leave {state : State} {result : Result} (left : body state = .leave result) :
    Ends body state result := by
  refine ⟨1, ?_⟩
  simp only [iterate, left]

theorem ends_of_again {state next : State} {result : Result} (round : body state = .again next)
    (later : Ends body next result) : Ends body state result := by
  obtain ⟨turns, ended⟩ := later
  refine ⟨turns + 1, ?_⟩
  simp only [iterate, round]
  exact ended

theorem Ends.next {state next : State} {result : Result} (ended : Ends body state result)
    (round : body state = .again next) : Ends body next result := by
  obtain ⟨turns, ended⟩ := ended
  cases turns with
  | zero => cases ended
  | succ turns =>
      simp only [iterate, round] at ended
      exact ⟨turns, ended⟩

theorem ends_again_iff {state next : State} {result : Result} (round : body state = .again next) :
    Ends body state result ↔ Ends body next result :=
  ⟨fun ended => ended.next round, ends_of_again round⟩

theorem Ends.left {state : State} {result other : Result} (ended : Ends body state result)
    (left : body state = .leave other) : result = other := by
  obtain ⟨turns, ended⟩ := ended
  cases turns with
  | zero => cases ended
  | succ turns =>
      simp only [iterate, left, Option.some.injEq] at ended
      exact ended.symm

theorem iterate_unique {first second : Nat} {state : State} {result other : Result}
    (one : iterate body first state = some result)
    (two : iterate body second state = some other) : result = other := by
  induction first generalizing second state with
  | zero => cases one
  | succ first ih =>
      have ended : Ends body state other := ⟨second, two⟩
      simp only [iterate] at one
      split at one
      · next next round =>
          obtain ⟨turns, later⟩ := ended.next round
          exact ih one later
      · next left round =>
          cases one
          exact (ended.left round).symm

/-- A loop has one result. -/
theorem Ends.unique {state : State} {result other : Result} (ended : Ends body state result)
    (also : Ends body state other) : result = other := by
  obtain ⟨first, one⟩ := ended
  obtain ⟨second, two⟩ := also
  exact iterate_unique one two

/-- A loop whose rounds keep an invariant and lower a measure returns, and what it
returns satisfies whatever leaving from the invariant gives. -/
theorem ends_of_measure (inv : State → Prop) (right : Result → Prop) (measure : State → Nat)
    (rounds : ∀ state next, inv state → body state = .again next →
      inv next ∧ measure next < measure state)
    (leaves : ∀ state result, inv state → body state = .leave result → right result)
    {state : State} (start : inv state) : ∃ result, Ends body state result ∧ right result := by
  induction bound : measure state using Nat.strongRecOn generalizing state with
  | ind bound ih =>
      subst bound
      cases round : body state with
      | again next =>
          have kept := rounds state next start round
          obtain ⟨result, ended, good⟩ := ih (measure next) kept.2 kept.1 rfl
          exact ⟨result, ends_of_again round ended, good⟩
      | leave result => exact ⟨result, ends_of_leave round, leaves state result start round⟩

/-- A loop that goes round again from every state of an invariant never returns. -/
theorem never_ends (inv : State → Prop)
    (rounds : ∀ state, inv state → ∃ next, body state = .again next ∧ inv next)
    {state : State} (start : inv state) (result : Result) : ¬Ends body state result := by
  rintro ⟨turns, ended⟩
  induction turns generalizing state with
  | zero => cases ended
  | succ turns ih =>
      obtain ⟨next, round, kept⟩ := rounds state start
      simp only [iterate, round] at ended
      exact ih kept ended

end

end Looping
