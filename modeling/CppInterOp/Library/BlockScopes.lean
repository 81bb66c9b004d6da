import CppInterOp.Library.Branching

/-!
Scripts whose actions bind names, the sides of a branch being blocks of their own: what is in scope
at each action, what a run finds there, and scripts that do the same once some actions are left out.
-/

namespace Branching

universe u v w x

namespace Script

variable {Test : Type u} {Action : Type v}

section Scopes

variable {Name : Type w} {Meaning : Type x} (binds : Action → List (Name × Meaning))

def bound : Script Test Action → List (Name × Meaning)
  | perform action => binds action
  | seq first second => bound first ++ bound second
  | skip | stop | branch _ _ _ => []

/-- Every action meets `needs` under the bindings in scope there, the innermost first. -/
def AtEach (needs : List (Name × Meaning) → Action → Prop) :
    List (Name × Meaning) → Script Test Action → Prop
  | scope, perform action => needs scope action
  | scope, seq first second =>
      AtEach needs scope first ∧ AtEach needs (first.bound binds ++ scope) second
  | scope, branch _ yes no => AtEach needs scope yes ∧ AtEach needs scope no
  | _, skip | _, stop => True

def DistinctInside : Script Test Action → Prop
  | seq first second => DistinctInside first ∧ DistinctInside second
  | branch _ yes no =>
      (((yes.bound binds).map Prod.fst).Nodup ∧ DistinctInside yes) ∧
        ((no.bound binds).map Prod.fst).Nodup ∧ DistinctInside no
  | skip | perform _ | stop => True

/-- No block binds a name twice, the script being one. -/
def DistinctBlocks (code : Script Test Action) : Prop :=
  ((code.bound binds).map Prod.fst).Nodup ∧ code.DistinctInside binds

def scopedRun (holds : Test → Bool) :
    List (Name × Meaning) → Script Test Action → List (List (Name × Meaning) × Action) × Bool
  | scope, perform action => ([(scope, action)], false)
  | scope, seq first second =>
      let done := scopedRun holds scope first
      if done.2 then done
      else
        let rest := scopedRun holds (first.bound binds ++ scope) second
        (done.1 ++ rest.1, rest.2)
  | scope, branch test yes no => if holds test then scopedRun holds scope yes
      else scopedRun holds scope no
  | _, skip => ([], false)
  | _, stop => ([], true)

variable {binds}

theorem scopedRun_run (holds : Test → Bool) (scope : List (Name × Meaning))
    (code : Script Test Action) :
    ((code.scopedRun binds holds scope).1.map Prod.snd, (code.scopedRun binds holds scope).2) =
      code.run holds := by
  induction code generalizing scope with
  | skip => rfl
  | perform action => rfl
  | stop => rfl
  | seq first second first_ih second_ih =>
      have before := first_ih scope
      have after := second_ih (first.bound binds ++ scope)
      rw [run, ← before, ← after, scopedRun]
      dsimp only
      split
      · rfl
      · rw [List.map_append]
  | branch test yes no yes_ih no_ih =>
      rw [run, scopedRun]
      split
      · exact yes_ih scope
      · exact no_ih scope

/-- What holds at each action of a script holds at each action of its runs. -/
theorem AtEach.scopedRun {needs : List (Name × Meaning) → Action → Prop}
    {scope : List (Name × Meaning)} {code : Script Test Action}
    (each : code.AtEach binds needs scope) (holds : Test → Bool) :
    ∀ reached ∈ (code.scopedRun binds holds scope).1, needs reached.1 reached.2 := by
  induction code generalizing scope with
  | skip | stop =>
      intro reached member
      cases member
  | perform action =>
      intro reached member
      rw [List.mem_singleton.mp member]
      exact each
  | seq first second first_ih second_ih =>
      rw [Script.scopedRun]
      dsimp only
      split
      · exact first_ih each.1
      · intro reached member
        rcases List.mem_append.mp member with before | after
        · exact first_ih each.1 reached before
        · exact second_ih each.2 reached after
  | branch test yes no yes_ih no_ih =>
      rw [Script.scopedRun]
      split
      · exact yes_ih each.1
      · exact no_ih each.2

section Guarded

variable {Key : Type*} {test : Key → Test} {piece : Key → Script Test Action} {keys : List Key}

theorem bound_guarded : (guarded test piece keys).bound binds = [] := by
  induction keys with
  | nil => rfl
  | cons key rest ih => rw [guarded, bound, ih, bound, List.append_nil]

theorem atEach_guarded {needs : List (Name × Meaning) → Action → Prop}
    {scope : List (Name × Meaning)} :
    (guarded test piece keys).AtEach binds needs scope ↔
      ∀ key ∈ keys, (piece key).AtEach binds needs scope := by
  induction keys with
  | nil => simp [guarded, AtEach]
  | cons key rest ih =>
      rw [guarded, AtEach, AtEach, bound, List.nil_append, ih, List.forall_mem_cons]
      simp [AtEach]

theorem distinctBlocks_guarded (each : ∀ key ∈ keys, (piece key).DistinctBlocks binds) :
    (guarded test piece keys).DistinctBlocks binds := by
  constructor
  · rw [bound_guarded]
    exact List.nodup_nil
  · induction keys with
    | nil => trivial
    | cons key rest ih =>
        have inner := each key List.mem_cons_self
        refine ⟨⟨inner, List.nodup_nil, trivial⟩, ?_⟩
        exact ih fun other member => each other (List.mem_cons_of_mem _ member)

end Guarded

end Scopes

section Erasure

variable {Other : Type w} (kept : Action → Option Other)

/-- What a run of the one performs, with some actions left out, is what a run of the other does. -/
def Erases (code : Script Test Action) (other : Script Test Other) : Prop :=
  ∀ holds, ((code.run holds).1.filterMap kept, (code.run holds).2) = other.run holds

variable {kept} {first second : Script Test Action} {first' second' : Script Test Other}

theorem erases_perform {action : Action} {other : Other} (keeps : kept action = some other) :
    Erases kept (perform action : Script Test Action) (perform other) := by
  intro holds
  simp [run, keeps]

theorem erases_stop : Erases kept (stop : Script Test Action) stop := fun _ => rfl

theorem Erases.seq (before : Erases kept first first') (after : Erases kept second second') :
    Erases kept (seq first second) (seq first' second') := by
  intro holds
  rw [run, run, ← before holds, ← after holds]
  dsimp only
  split
  · rfl
  · rw [List.filterMap_append]

theorem Erases.branch (test : Test) (yes : Erases kept first first')
    (no : Erases kept second second') :
    Erases kept (branch test first second) (branch test first' second') := by
  intro holds
  rw [run, run]
  split
  · exact yes holds
  · exact no holds

/-- What is left out may stand in front. -/
theorem Erases.after {action : Action} (dropped : kept action = none)
    (rest : Erases kept second second') : Erases kept (Script.seq (perform action) second) second' := by
  intro holds
  rw [← rest holds, run, run]
  simp [dropped]

theorem erases_guarded {Key Key' : Type*} {test : Key → Test} {test' : Key' → Test}
    {piece : Key → Script Test Action} {piece' : Key' → Script Test Other} (rename : Key → Key')
    {keys : List Key} (tests : ∀ key ∈ keys, test' (rename key) = test key)
    (pieces : ∀ key ∈ keys, Erases kept (piece key) (piece' (rename key))) :
    Erases kept (guarded test piece keys) (guarded test' piece' (keys.map rename)) := by
  induction keys with
  | nil => exact fun _ => rfl
  | cons key rest ih =>
      have later := ih (fun other member => tests other (List.mem_cons_of_mem _ member))
        fun other member => pieces other (List.mem_cons_of_mem _ member)
      have here := (pieces key List.mem_cons_self).branch (test key)
        (show Erases kept Script.skip Script.skip from fun _ => rfl)
      rw [List.map_cons, guarded, guarded, tests key List.mem_cons_self]
      exact here.seq later

/-- Where one action is kept of a list of them, it is the only one that is. -/
theorem filter_kept {Entry : Type*} {keeps : Entry → Option Other} {entries : List Entry}
    {other : Other} (alone : entries.filterMap keeps = [other]) :
    ∃ entry, entries.filter (fun entry => (keeps entry).isSome) = [entry] ∧
      keeps entry = some other := by
  obtain ⟨before, entry, after, rfl, left, kept, right⟩ := List.filterMap_eq_cons_iff.mp alone
  rw [List.filterMap_eq_nil_iff] at right
  refine ⟨entry, ?_, kept⟩
  have none_before : before.filter (fun entry => (keeps entry).isSome) = [] := by
    simpa [List.filter_eq_nil_iff] using left
  have none_after : after.filter (fun entry => (keeps entry).isSome) = [] := by
    simpa [List.filter_eq_nil_iff] using right
  simp [List.filter_append, none_before, none_after, kept]

theorem Erases.performed {code : Script Test Action} {other : Script Test Other}
    (erases : Erases kept code other) (holds : Test → Bool) :
    (code.performed holds).filterMap kept = other.performed holds :=
  congrArg Prod.fst (erases holds)

end Erasure

end Script

end Branching
