import Mathlib.Data.List.Nodup

/-!
Code that is made of actions behind tests, over arbitrary tests and actions: what a run performs,
and that of a series of guarded pieces it performs the one whose test holds.
-/

namespace Branching

universe u v w

inductive Script (Test : Type u) (Action : Type v)
  | skip
  | perform (action : Action)
  | stop
  | seq (first second : Script Test Action)
  | branch (test : Test) (yes no : Script Test Action)

namespace Script

variable {Test : Type u} {Action : Type v}

def guarded {Key : Type w} (test : Key → Test) (piece : Key → Script Test Action) :
    List Key → Script Test Action
  | [] => skip
  | key :: rest => seq (branch (test key) (piece key) skip) (guarded test piece rest)

variable (holds : Test → Bool)

def run : Script Test Action → List Action × Bool
  | skip => ([], false)
  | perform action => ([action], false)
  | stop => ([], true)
  | seq first second =>
      if (run first).2 then run first
      else ((run first).1 ++ (run second).1, (run second).2)
  | branch test yes no => if holds test then run yes else run no

def performed (code : Script Test Action) : List Action := (code.run holds).1

variable {holds}

theorem run_branch_true {test : Test} (yes no : Script Test Action) (holding : holds test = true) :
    (branch test yes no).run holds = yes.run holds := by
  rw [run, if_pos holding]

theorem run_branch_false {test : Test} (yes no : Script Test Action) (failing : holds test = false) :
    (branch test yes no).run holds = no.run holds := by
  rw [run, if_neg (Bool.eq_false_iff.mp failing)]

section

variable {Key : Type w} {test : Key → Test} {piece : Key → Script Test Action}

theorem run_guarded_none {keys : List Key} (none_holds : ∀ key ∈ keys, holds (test key) = false) :
    (guarded test piece keys).run holds = ([], false) := by
  induction keys with
  | nil => rfl
  | cons key rest ih =>
      have skipped := run_branch_false (piece key) skip (none_holds key List.mem_cons_self)
      have later := ih fun other member => none_holds other (List.mem_cons_of_mem _ member)
      rw [guarded, run, skipped, later]
      rfl

/-- Where the test of one key alone holds, the run performs its piece, or nothing if it is not
among the keys. -/
theorem performed_guarded [DecidableEq Key] {chosen : Key} {keys : List Key} (once : keys.Nodup)
    (alone : ∀ key, holds (test key) = true ↔ key = chosen) :
    (guarded test piece keys).performed holds =
      if chosen ∈ keys then (piece chosen).performed holds else [] := by
  induction keys with
  | nil => rfl
  | cons key rest ih =>
      obtain ⟨fresh, once_rest⟩ := List.nodup_cons.mp once
      by_cases here : key = chosen
      · subst here
        have taken := run_branch_true (piece key) skip ((alone key).mpr rfl)
        have nothing : (guarded test piece rest).run holds = ([], false) := by
          refine run_guarded_none ?_
          intro other member
          refine Bool.eq_false_iff.mpr fun holding => fresh ?_
          exact (alone other).mp holding ▸ member
        rw [if_pos List.mem_cons_self, performed, guarded, run, taken, nothing]
        split
        · rfl
        · exact List.append_nil _
      · have skipped := run_branch_false (piece key) skip
          (Bool.eq_false_iff.mpr fun holding => here ((alone key).mp holding))
        have elsewhere : chosen ∈ key :: rest ↔ chosen ∈ rest := by
          simp [Ne.symm here]
        rw [performed, guarded, run, skipped, if_congr elsewhere rfl rfl, ← ih once_rest]
        rfl

end

end Script

end Branching
