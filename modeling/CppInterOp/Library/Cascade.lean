import Mathlib.Data.List.Basic

/-!
Cascades of pairwise moves along a sequence of slots: every slot in turn takes
over from its right neighbour. Rotation by swaps and closing a gap by move
assignments are both of this shape; the lemmas say which projection of a slot
travels, which one stays, and which side effects the moves have.
-/

namespace Cascade

universe u v w

/-- The two slots after one move of `source` into `target`, and its side effects. -/
structure Moved (Elem : Type u) (Effect : Type v) where
  target : Elem
  source : Elem
  effects : List Effect

section

variable {Elem : Type u} {Effect : Type v} (move : Elem → Elem → Moved Elem Effect)

def cascade (first : Elem) : List Elem → List Elem × List Effect
  | [] => ([first], [])
  | next :: rest =>
      let moved := move first next
      let tail := cascade moved.source rest
      (moved.target :: tail.1, moved.effects ++ tail.2)

/-- Shift everything one place towards the first slot, then destroy the last slot. -/
def closeGap (destroy : Elem → List Effect) (first : Elem) (rest : List Elem) :
    List Elem × List Effect :=
  let shifted := cascade move first rest
  (shifted.1.dropLast, shifted.2 ++ (shifted.1.getLast?.map destroy).getD [])

variable {move}

theorem cascade_nonempty (first : Elem) (rest : List Elem) : (cascade move first rest).1 ≠ [] := by
  cases rest <;> simp [cascade]

@[simp] theorem cascade_length (first : Elem) (rest : List Elem) :
    (cascade move first rest).1.length = rest.length + 1 := by
  induction rest generalizing first with
  | nil => rfl
  | cons next rest ih => simp [cascade, ih]

@[simp] theorem closeGap_length (destroy : Elem → List Effect) (first : Elem) (rest : List Elem) :
    (closeGap move destroy first rest).1.length = rest.length := by
  simp [closeGap]

theorem cascade_kept {View : Type w} (view : Elem → View)
    (target : ∀ first next, view (move first next).target = view first)
    (source : ∀ first next, view (move first next).source = view next)
    (first : Elem) (rest : List Elem) :
    (cascade move first rest).1.map view = (first :: rest).map view := by
  induction rest generalizing first with
  | nil => rfl
  | cons next rest ih =>
      simp only [cascade, List.map_cons, target, ih, source]

theorem cascade_carried {View : Type w} (view : Elem → View)
    (target : ∀ first next, view (move first next).target = view next)
    (first : Elem) (rest : List Elem) :
    ((cascade move first rest).1.map view).dropLast = rest.map view := by
  induction rest generalizing first with
  | nil => rfl
  | cons next rest ih =>
      have nonempty : (cascade move (move first next).source rest).1.map view ≠ [] := by
        simpa using cascade_nonempty _ _
      simp only [cascade, List.map_cons, target]
      rw [List.dropLast_cons_of_ne_nil nonempty, ih]

theorem cascade_exchanged {View : Type w} (view : Elem → View)
    (target : ∀ first next, view (move first next).target = view next)
    (source : ∀ first next, view (move first next).source = view first)
    (first : Elem) (rest : List Elem) :
    (cascade move first rest).1.map view = rest.map view ++ [view first] := by
  induction rest generalizing first with
  | nil => rfl
  | cons next rest ih =>
      simp only [cascade, List.map_cons, target, ih, source, List.cons_append]

theorem cascade_quiet (quiet : ∀ first next, (move first next).effects = [])
    (first : Elem) (rest : List Elem) : (cascade move first rest).2 = [] := by
  induction rest generalizing first with
  | nil => rfl
  | cons next rest ih => simp only [cascade, quiet, ih, List.append_nil]

theorem closeGap_kept {View : Type w} (view : Elem → View)
    (target : ∀ first next, view (move first next).target = view first)
    (source : ∀ first next, view (move first next).source = view next)
    (destroy : Elem → List Effect) (first : Elem) (rest : List Elem) :
    (closeGap move destroy first rest).1.map view = ((first :: rest).map view).dropLast := by
  rw [closeGap, List.map_dropLast, cascade_kept view target source]

theorem closeGap_carried {View : Type w} (view : Elem → View)
    (target : ∀ first next, view (move first next).target = view next)
    (destroy : Elem → List Effect) (first : Elem) (rest : List Elem) :
    (closeGap move destroy first rest).1.map view = rest.map view := by
  rw [closeGap, List.map_dropLast, cascade_carried view target]

/-- When a move releases exactly what its target held and leaves nothing to release in
its source, closing a gap releases what the first slot held, once. -/
theorem closeGap_effects {destroy : Elem → List Effect}
    (released : ∀ first next, (move first next).effects = destroy first)
    (empty : ∀ first next, destroy (move first next).source = [])
    (first : Elem) (rest : List Elem) :
    (closeGap move destroy first rest).2 = destroy first := by
  have total : ∀ first, (cascade move first rest).2 ++
      ((cascade move first rest).1.getLast?.map destroy).getD [] = destroy first := by
    induction rest with
    | nil => intro first; simp [cascade]
    | cons next rest ih =>
        intro first
        have later := ih (move first next).source
        rw [empty] at later
        simp only [cascade, released, List.append_assoc]
        rw [List.getLast?_cons_of_ne_nil (cascade_nonempty _ _), later, List.append_nil]
  exact total first

end

/-! A projection that stays looks as if it travelled only where it is constant. -/

section

variable {View : Type w} {first : View} {rest before after : List View}

theorem shifted_eq_iff {head : View} :
    rest ++ [first] = head :: rest ↔ ∀ view ∈ head :: rest, view = first := by
  induction rest generalizing head with
  | nil => simp [eq_comm]
  | cons next rest ih =>
      simp only [List.cons_append, List.cons.injEq, ih, List.forall_mem_cons]
      constructor
      · rintro ⟨rfl, same⟩
        exact ⟨same.1, same⟩
      · rintro ⟨same, others⟩
        exact ⟨others.1.trans same.symm, others⟩

theorem rotated_eq_iff : rest ++ [first] = first :: rest ↔ ∀ view ∈ rest, view = first := by
  rw [shifted_eq_iff]
  simp

theorem dropLast_eq_iff : (first :: rest).dropLast = rest ↔ ∀ view ∈ rest, view = first := by
  induction rest generalizing first with
  | nil => simp
  | cons next rest ih =>
      simp only [List.dropLast_cons_cons, List.cons.injEq, List.forall_mem_cons]
      constructor
      · rintro ⟨rfl, tail⟩
        exact ⟨rfl, ih.mp tail⟩
      · rintro ⟨rfl, tail⟩
        exact ⟨rfl, ih.mpr tail⟩

theorem tail_eq_iff :
    (before ++ first :: after).tail = before ++ after ↔ ∀ view ∈ before, view = first := by
  cases before with
  | nil => simp
  | cons head before =>
      have regroup : before ++ first :: after = (before ++ [first]) ++ after := by simp
      rw [List.cons_append, List.tail_cons, regroup, List.append_cancel_right_eq, shifted_eq_iff]

end

end Cascade
