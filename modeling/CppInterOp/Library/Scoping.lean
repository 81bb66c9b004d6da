import Mathlib.Data.List.Nodup
import Mathlib.Data.List.Induction

/-!
Sequences of lines that use and declare names, over arbitrary lines and names: when a
sequence stands on its own, and what growing it by a line or rewriting one of its lines
does to that.
-/

namespace Scoping

universe u v

variable {Line : Type u} {Name : Type v} (uses declares : Line → List Name)

def declared (lines : List Line) : List Name := lines.flatMap declares

/-- Every name a line uses is declared by an earlier line, and none is declared twice. -/
structure SelfContained (lines : List Line) : Prop where
  earlier : ∀ index line, lines[index]? = some line →
    ∀ name ∈ uses line, name ∈ declared declares (lines.take index)
  once : (declared declares lines).Nodup

variable {uses declares}

theorem declared_append (first second : List Line) :
    declared declares (first ++ second) =
      declared declares first ++ declared declares second := by
  simp [declared]

theorem declared_concat (lines : List Line) (line : Line) :
    declared declares (lines ++ [line]) = declared declares lines ++ declares line := by
  simp [declared]

theorem mem_declared_of_take {lines : List Line} {index : Nat} {name : Name}
    (found : name ∈ declared declares (lines.take index)) : name ∈ declared declares lines := by
  rw [← List.take_append_drop index lines, declared_append]
  exact List.mem_append_left _ found

theorem SelfContained.nil : SelfContained uses declares [] := by
  constructor
  · intro index line found
    simp at found
  · simp [declared]

/-- A line may be added at the end exactly when what it uses is declared and what it
declares is new. -/
theorem selfContained_concat_iff {lines : List Line} {line : Line} :
    SelfContained uses declares (lines ++ [line]) ↔
      SelfContained uses declares lines ∧
        (∀ name ∈ uses line, name ∈ declared declares lines) ∧
        (declares line).Nodup ∧ ∀ name ∈ declares line, name ∉ declared declares lines := by
  constructor
  · intro closed
    have once := closed.once
    rw [declared_concat, List.nodup_append] at once
    refine ⟨⟨?_, once.1⟩, ?_, once.2.1, ?_⟩
    · intro index other found name used
      have bound : index < lines.length := (List.getElem?_eq_some_iff.mp found).1
      have before := closed.earlier index other
        (by rw [List.getElem?_append_left bound]; exact found) name used
      rwa [List.take_append_of_le_length (by omega)] at before
    · intro name used
      have before := closed.earlier lines.length line (by simp) name used
      rwa [List.take_left' rfl] at before
    · intro name fresh already
      exact once.2.2 name already name fresh rfl
  · rintro ⟨closed, covered, distinct, fresh⟩
    constructor
    · intro index other found name used
      by_cases bound : index < lines.length
      · rw [List.getElem?_append_left bound] at found
        rw [List.take_append_of_le_length (by omega)]
        exact closed.earlier index other found name used
      · have last : index = lines.length := by
          have := (List.getElem?_eq_some_iff.mp found).1
          simp only [List.length_append, List.length_singleton] at this
          omega
        subst last
        have same : line = other := by simpa using found
        subst same
        rw [List.take_left' rfl]
        exact covered name used
    · rw [declared_concat, List.nodup_append]
      refine ⟨closed.once, distinct, ?_⟩
      rintro name already other new rfl
      exact fresh name new already

theorem SelfContained.of_append {first second : List Line}
    (closed : SelfContained uses declares (first ++ second)) :
    SelfContained uses declares first := by
  induction second using List.reverseRecOn with
  | nil => simpa using closed
  | append_singleton rest line ih =>
      rw [← List.append_assoc] at closed
      exact ih (selfContained_concat_iff.mp closed).1

theorem SelfContained.covers_next {lines more : List Line} {line : Line}
    (closed : SelfContained uses declares (lines ++ line :: more)) :
    ∀ name ∈ uses line, name ∈ declared declares lines := by
  rw [List.append_cons] at closed
  exact (selfContained_concat_iff.mp closed.of_append).2.1

theorem SelfContained.append {lines more : List Line} (closed : SelfContained uses declares lines)
    (covered : ∀ line ∈ more, ∀ name ∈ uses line, name ∈ declared declares lines)
    (distinct : (declared declares more).Nodup)
    (fresh : ∀ name ∈ declared declares more, name ∉ declared declares lines) :
    SelfContained uses declares (lines ++ more) := by
  induction more generalizing lines with
  | nil => simpa using closed
  | cons line rest ih =>
      have split : declared declares (line :: rest) = declares line ++ declared declares rest := rfl
      rw [split, List.nodup_append] at distinct
      simp only [split, List.mem_append] at fresh
      have longer : SelfContained uses declares (lines ++ [line]) :=
        selfContained_concat_iff.mpr ⟨closed, covered line List.mem_cons_self, distinct.1,
          fun name here => fresh name (Or.inl here)⟩
      rw [List.append_cons]
      refine ih longer ?_ distinct.2.1 ?_
      · intro other present name used
        rw [declared_concat]
        exact List.mem_append_left _ (covered other (List.mem_cons_of_mem _ present) name used)
      · intro name later already
        rw [declared_concat] at already
        rcases List.mem_append.mp already with before | here
        · exact fresh name (Or.inr later) before
        · exact distinct.2.2 name here name later rfl

section Rewrite

variable {lines : List Line} {slot : Nat} {old new : Line}

theorem declared_set_perm (at_slot : lines[slot]? = some old) (silent : declares old = []) :
    (declared declares (lines.set slot new)).Perm (declares new ++ declared declares lines) := by
  induction lines generalizing slot with
  | nil => simp at at_slot
  | cons line rest ih =>
      cases slot with
      | zero =>
          have same : line = old := by simpa using at_slot
          subst same
          simp [declared, silent]
      | succ slot =>
          have tail := ih (show rest[slot]? = some old by simpa using at_slot)
          simp only [declared, List.set_cons_succ, List.flatMap_cons] at tail ⊢
          have swapped : (declares line ++ (declares new ++ rest.flatMap declares)).Perm
              (declares new ++ (declares line ++ rest.flatMap declares)) := by
            rw [← List.append_assoc, ← List.append_assoc]
            exact List.perm_append_comm.append_right _
          exact (tail.append_left _).trans swapped

theorem mem_declared_set (at_slot : lines[slot]? = some old) (silent : declares old = [])
    {name : Name} :
    name ∈ declared declares (lines.set slot new) ↔
      name ∈ declared declares lines ∨ name ∈ declares new := by
  rw [(declared_set_perm at_slot silent).mem_iff, List.mem_append, or_comm]

theorem SelfContained.set (closed : SelfContained uses declares lines)
    (at_slot : lines[slot]? = some old) (silent : declares old = [])
    (same_uses : ∀ name ∈ uses new, name ∈ uses old) (distinct : (declares new).Nodup)
    (fresh : ∀ name ∈ declares new, name ∉ declared declares lines) :
    SelfContained uses declares (lines.set slot new) := by
  refine ⟨?_, ?_⟩
  swap
  · rw [(declared_set_perm at_slot silent).nodup_iff, List.nodup_append]
    refine ⟨distinct, closed.once, ?_⟩
    rintro name added other before rfl
    exact fresh name added before
  intro index line found name used
  rw [List.take_set]
  have kept : name ∈ declared declares (lines.take index) := by
    by_cases here : slot = index
    · subst here
      have bound : slot < lines.length := (List.getElem?_eq_some_iff.mp at_slot).1
      have line_new : new = line := by simpa [bound] using found
      subst line_new
      exact closed.earlier slot old at_slot name (same_uses name used)
    · rw [List.getElem?_set_ne here] at found
      exact closed.earlier index line found name used
  by_cases before : slot < index
  · have slot_taken : (lines.take index)[slot]? = some old := by
      rw [List.getElem?_take_of_lt before]
      exact at_slot
    exact (mem_declared_set slot_taken silent).mpr (Or.inl kept)
  · rw [List.set_eq_of_length_le (by simp; omega)]
    exact kept

end Rewrite

end Scoping
