import Mathlib

/-!
Subobjects over arbitrary classes: inheritance paths of plain and virtual steps, the subobjects
that they lead to, and where these lie.
-/

namespace Subobjects

universe u

structure Step (Class : Type u) where
  source : Class
  target : Class
  isVirtual : Bool
  deriving DecidableEq

variable {Class : Type u}

def Step.isPlain (step : Step Class) : Bool := !step.isVirtual

inductive Path (Inherits : Step Class → Prop) : Class → List (Step Class) → Class → Prop
  | nil {c : Class} : Path Inherits c [] c
  | cons {step : Step Class} {rest : List (Step Class)} {last : Class} :
      Inherits step → Path Inherits step.target rest last →
        Path Inherits step.source (step :: rest) last

theorem Path.concat {Inherits : Step Class → Prop} {first : Class} {path : List (Step Class)}
    {step : Step Class} (leads : Path Inherits first path step.source) (inherits : Inherits step) :
    Path Inherits first (path ++ [step]) step.target := by
  generalize middle : step.source = c at leads
  induction leads with
  | nil =>
      subst middle
      exact .cons inherits .nil
  | cons here _ ih => exact .cons here (ih middle)

theorem Path.of_nil {Inherits : Step Class → Prop} {first last : Class}
    {path : List (Step Class)} (leads : Path Inherits first path last) (empty : path = []) :
    first = last := by
  cases leads with
  | nil => rfl
  | cons => cases empty

theorem Path.of_concat {Inherits : Step Class → Prop} {first last : Class}
    {path : List (Step Class)} {step : Step Class}
    (leads : Path Inherits first (path ++ [step]) last) :
    Path Inherits first path step.source ∧ Inherits step ∧ last = step.target := by
  induction path generalizing first with
  | nil =>
      cases leads with
      | cons inherits rest => exact ⟨.nil, inherits, (rest.of_nil rfl).symm⟩
  | cons other path ih =>
      cases leads with
      | cons inherits rest =>
          obtain ⟨before, here, target⟩ := ih rest
          exact ⟨.cons inherits before, here, target⟩

theorem Path.imp {Inherits Other : Step Class → Prop} {first last : Class}
    {path : List (Step Class)} (leads : Path Inherits first path last)
    (implies : ∀ step, Inherits step → Other step) : Path Other first path last := by
  induction leads with
  | nil => exact .nil
  | cons inherits _ ih => exact .cons (implies _ inherits) ih

theorem Path.inherits {Inherits : Step Class → Prop} {first last : Class}
    {path : List (Step Class)} (leads : Path Inherits first path last) :
    ∀ step ∈ path, Inherits step := by
  induction leads with
  | nil => exact nofun
  | cons inherits _ ih => exact List.forall_mem_cons.mpr ⟨inherits, ih⟩

/-- A subobject is known by the virtual base that holds it, if one does, and the plain steps from
there. -/
def subobject (path : List (Step Class)) : Option Class × List (Step Class) :=
  path.foldl
    (fun inside step =>
      if step.isVirtual then (some step.target, []) else (inside.1, inside.2 ++ [step]))
    (none, [])

theorem subobject_concat (path : List (Step Class)) (step : Step Class) :
    subobject (path ++ [step]) =
      if step.isVirtual then (some step.target, [])
      else ((subobject path).1, (subobject path).2 ++ [step]) := by
  rw [subobject, List.foldl_append]
  rfl

/-- What counts is what comes after the last virtual step. -/
theorem subobject_eq (path : List (Step Class)) :
    subobject path = ((path.rdropWhile Step.isPlain).getLast?.map Step.target,
      path.rtakeWhile Step.isPlain) := by
  induction path using List.reverseRecOn with
  | nil => rfl
  | append_singleton path step ih =>
      rw [subobject_concat, List.rdropWhile_concat, List.rtakeWhile_concat, Step.isPlain]
      cases step.isVirtual with
      | true => simp
      | false =>
          rw [ih]
          rfl

theorem subobject_plain {path : List (Step Class)} (plain : ∀ step ∈ path, step.isPlain = true) :
    subobject path = (none, path) := by
  rw [subobject_eq, List.rdropWhile_eq_nil_iff.mpr plain, List.rtakeWhile_eq_self_iff.mpr plain]
  rfl

theorem plain_of_subobject {path steps : List (Step Class)}
    (inside : subobject path = (none, steps)) :
    (∀ step ∈ path, step.isPlain = true) ∧ path = steps := by
  rw [subobject_eq, Prod.mk.injEq, Option.map_eq_none_iff, List.getLast?_eq_none_iff,
    List.rdropWhile_eq_nil_iff] at inside
  obtain ⟨plain, same⟩ := inside
  exact ⟨plain, (List.rtakeWhile_eq_self_iff.mpr plain).symm.trans same⟩

/-- All paths from one class to another lead to the same subobject. -/
def Unambiguous (Inherits : Step Class → Prop) (first last : Class) : Prop :=
  ∀ path other, Path Inherits first path last → Path Inherits first other last →
    subobject path = subobject other

theorem Unambiguous.only {Inherits : Step Class → Prop} {first last : Class}
    (unambiguous : Unambiguous Inherits first last) {path other : List (Step Class)}
    (leads : Path Inherits first path last) (plain : ∀ step ∈ path, step.isPlain = true)
    (leads_other : Path Inherits first other last) : other = path :=
  (plain_of_subobject ((unambiguous other path leads_other leads).trans
    (subobject_plain plain))).2

section Offsets

variable (plainOffset : Class → Class → Nat) (virtualOffset : Class → Nat)

/-- Where a path leads to: a virtual base lies where the whole object has it, and a plain base where
the class before it has it. -/
def offset (path : List (Step Class)) : Nat :=
  path.foldl
    (fun here step =>
      if step.isVirtual then virtualOffset step.target
      else here + plainOffset step.source step.target)
    0

theorem offset_concat (path : List (Step Class)) (step : Step Class) :
    offset plainOffset virtualOffset (path ++ [step]) =
      if step.isVirtual then virtualOffset step.target
      else offset plainOffset virtualOffset path + plainOffset step.source step.target := by
  rw [offset, List.foldl_append]
  rfl

theorem offset_eq (path : List (Step Class)) :
    offset plainOffset virtualOffset path =
      ((subobject path).1.map virtualOffset).getD 0 +
        ((subobject path).2.map fun step => plainOffset step.source step.target).sum := by
  induction path using List.reverseRecOn with
  | nil => rfl
  | append_singleton path step ih =>
      rw [offset_concat, subobject_concat]
      cases step.isVirtual with
      | true => rfl
      | false =>
          simp only [Bool.false_eq_true, if_false, List.map_append, List.map_cons, List.map_nil,
            List.sum_append, List.sum_cons, List.sum_nil]
          omega

theorem offset_plain {path : List (Step Class)} (plain : ∀ step ∈ path, step.isPlain = true) :
    offset plainOffset virtualOffset path =
      (path.map fun step => plainOffset step.source step.target).sum := by
  rw [offset_eq, subobject_plain plain]
  exact Nat.zero_add _

theorem Unambiguous.offset_eq {Inherits : Step Class → Prop} {first last : Class}
    (unambiguous : Unambiguous Inherits first last) {path other : List (Step Class)}
    (leads : Path Inherits first path last) (leads_other : Path Inherits first other last) :
    offset plainOffset virtualOffset path = offset plainOffset virtualOffset other := by
  rw [Subobjects.offset_eq, Subobjects.offset_eq, unambiguous path other leads leads_other]

end Offsets

end Subobjects
