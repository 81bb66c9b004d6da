import Mathlib.Data.List.Basic

/-! A list in order of most recent use, over arbitrary elements: new elements and the ones
activated go to the end, elements are removed by name or from the end. -/

namespace Recency

universe u

inductive Request (Elem : Type u)
  | append (elem : Elem)
  | activate (elem : Option Elem)
  | delete (elem : Option Elem)
  | idle (success : Bool)

section

variable {Elem : Type u} [DecidableEq Elem]

def touch (elem : Elem) (held : List Elem) : List Elem :=
  if elem ∈ held then held.erase elem ++ [elem] else held

def step (held : List Elem) : Request Elem → List Elem
  | .append elem => held ++ [elem]
  | .activate none => held
  | .activate (some elem) => touch elem held
  | .delete none => held.dropLast
  | .delete (some elem) => held.erase elem
  | .idle _ => held

def succeeds (held : List Elem) : Request Elem → Bool
  | .append _ => true
  | .activate none => false
  | .activate (some elem) => elem ∈ held
  | .delete none => held ≠ []
  | .delete (some elem) => elem ∈ held
  | .idle success => success

theorem erase_split {elem : Elem} {before after : List Elem} (absent : elem ∉ before) :
    (before ++ elem :: after).erase elem = before ++ after := by
  rw [List.erase_append_right _ absent, List.erase_cons_head]

theorem touch_split {elem : Elem} {before after : List Elem} (absent : elem ∉ before) :
    touch elem (before ++ elem :: after) = before ++ (after ++ [elem]) := by
  rw [touch, if_pos (by simp), erase_split absent, List.append_assoc]

theorem touch_absent {elem : Elem} {held : List Elem} (absent : elem ∉ held) :
    touch elem held = held := by
  rw [touch, if_neg absent]

theorem step_of_failure {held : List Elem} {request : Request Elem}
    (failed : succeeds held request = false) : step held request = held := by
  cases request with
  | append elem => simp [succeeds] at failed
  | activate wanted =>
      cases wanted with
      | none => rfl
      | some elem => exact touch_absent (by simpa [succeeds] using failed)
  | delete wanted =>
      cases wanted with
      | none =>
          have empty : held = [] := by simpa [succeeds] using failed
          simp [step, empty]
      | some elem => exact List.erase_of_not_mem (by simpa [succeeds] using failed)
  | idle success => rfl

end

end Recency
