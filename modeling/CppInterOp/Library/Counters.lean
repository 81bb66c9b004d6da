import Mathlib.Data.List.Nodup
import Mathlib.Data.List.Perm.Subperm

/-!
Numbers drawn one after the other from a counter of a fixed width, and tables that are keyed by them.
-/

namespace Counters

universe u v

/-- A counter gives no number twice exactly as long as it is asked no more often than it is wide. -/
theorem nodup_drawn_iff {width : Nat} (positive : 0 < width) (first count : Nat) :
    ((List.range' first count).map (· % width)).Nodup ↔ count ≤ width := by
  constructor
  · intro distinct
    have bounded : ∀ number ∈ (List.range' first count).map (· % width), number ∈ List.range width := by
      intro number member
      obtain ⟨draw, _, rfl⟩ := List.mem_map.mp member
      exact List.mem_range.mpr (Nat.mod_lt _ positive)
    have shorter := (List.subperm_of_subset distinct bounded).length_le
    simpa using shorter
  · intro few
    refine List.Nodup.map_on ?_ List.nodup_range'
    intro one one_mem other other_mem same
    rw [List.mem_range'_1] at one_mem other_mem
    rcases Nat.le_total one other with before | after
    · have apart : (other - one) % width = 0 := Nat.sub_mod_eq_zero_of_mod_eq same.symm
      rw [Nat.mod_eq_of_lt (by omega)] at apart
      omega
    · have apart : (one - other) % width = 0 := Nat.sub_mod_eq_zero_of_mod_eq same
      rw [Nat.mod_eq_of_lt (by omega)] at apart
      omega

/-- What is drawn up to some point, and what is drawn from there. -/
theorem range'_split {first next last : Nat} (before : first ≤ next) (after : next ≤ last) :
    List.range' first (last - first) =
      List.range' first (next - first) ++ List.range' next (last - next) := by
  have meets := @List.range'_append_1 first (next - first) (last - next)
  rw [show first + (next - first) = next by omega] at meets
  rw [meets, show next - first + (last - next) = last - first by omega]

theorem range'_starts {next last : Nat} (some_drawn : next < last) :
    ∃ more, List.range' next (last - next) = next :: more := by
  rw [show last - next = last - next - 1 + 1 by omega, List.range'_succ]
  exact ⟨_, rfl⟩

section Tables

variable {Name : Type u} {Meaning : Type v} [DecidableEq Name]

/-- Where no name is entered twice, a lookup finds what is entered. -/
theorem lookup_of_mem {table rest : List (Name × Meaning)}
    (distinct : (table.map Prod.fst).Nodup) {entry : Name × Meaning} (entered : entry ∈ table) :
    (table ++ rest).lookup entry.1 = some entry.2 := by
  induction table with
  | nil => cases entered
  | cons head tail ih =>
      rw [List.map_cons, List.nodup_cons] at distinct
      rcases List.mem_cons.mp entered with rfl | later
      · rw [List.cons_append]
        exact List.lookup_cons_self
      · have other : (entry.1 == head.1) = false := by
          refine beq_false_of_ne fun same => distinct.1 ?_
          rw [← same]
          exact List.mem_map_of_mem later
        rw [List.cons_append, List.lookup_cons, other]
        exact ih distinct.2 later

end Tables

end Counters
