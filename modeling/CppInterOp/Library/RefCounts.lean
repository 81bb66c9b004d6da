import Mathlib
import CppInterOp.Library.Shares

/-!
Intrusive 32-bit reference counts over arbitrary owners: cells that the last release deletes,
and the rules under which every count stays the number of owners of its cell.
-/

namespace RefCounts

open Shares

universe u

/-- A counted object, with how often it was deleted and reached for after that. -/
structure Cell where
  count : UInt32
  deletions : Nat
  lateAccesses : Nat
  deriving DecidableEq

namespace Cell

def fresh : Cell := ⟨1, 0, 0⟩

def touch (cell : Cell) : Cell :=
  if cell.deletions = 0 then cell else { cell with lateAccesses := cell.lateAccesses + 1 }

def retain (cell : Cell) : Cell := { cell.touch with count := cell.count + 1 }

def release (cell : Cell) : Cell :=
  { cell.touch with
    count := cell.count - 1
    deletions := if cell.count = 1 then cell.deletions + 1 else cell.deletions }

/-- A cell with this many owners: deleted once if there is none left, and left alone then. -/
def Counts (cell : Cell) (owners : Nat) : Prop :=
  cell.count.toNat = owners ∧ cell.deletions = (if 0 < owners then 0 else 1) ∧
    cell.lateAccesses = 0

theorem fresh_counts : fresh.Counts 1 := ⟨rfl, rfl, rfl⟩

theorem Counts.touch {cell : Cell} {owners : Nat} (counts : cell.Counts owners)
    (owned : 0 < owners) : cell.touch = cell := by
  have alive := counts.2.1
  rw [if_pos owned] at alive
  rw [Cell.touch, if_pos alive]

theorem Counts.retain {cell : Cell} {owners : Nat} (counts : cell.Counts owners)
    (owned : 0 < owners) (room : owners + 1 < 2 ^ 32) : cell.retain.Counts (owners + 1) := by
  have alive := counts.2.1
  rw [if_pos owned] at alive
  rw [Cell.retain, counts.touch owned]
  refine ⟨?_, ?_, counts.2.2⟩
  · rw [UInt32.toNat_add, counts.1, UInt32.toNat_one, Nat.mod_eq_of_lt room]
  · rw [if_pos (Nat.succ_pos owners)]
    exact alive

/-- The release deletes the object exactly when it takes the last owner away. -/
theorem Counts.release {cell : Cell} {owners : Nat} (counts : cell.Counts (owners + 1)) :
    cell.release.Counts owners := by
  have alive := counts.2.1
  rw [if_pos (Nat.succ_pos owners)] at alive
  have last : cell.count = 1 ↔ owners = 0 := by
    rw [← UInt32.toNat_inj, counts.1, UInt32.toNat_one]
    omega
  rw [Cell.release, counts.touch (Nat.succ_pos owners)]
  refine ⟨?_, ?_, counts.2.2⟩
  · have small := cell.count.toNat_lt
    have total := counts.1
    rw [UInt32.toNat_sub, UInt32.toNat_one]
    omega
  · by_cases none_left : owners = 0
    · simp only [last.mpr none_left, if_true, alive, none_left]
      rfl
    · rw [if_neg (mt last.mp none_left), if_pos (Nat.pos_of_ne_zero none_left)]
      exact alive

end Cell

def retained (key : Option Nat) (cells : List Cell) : List Cell :=
  match key with
  | some k => cells.modify k Cell.retain
  | none => cells

def released (key : Option Nat) (cells : List Cell) : List Cell :=
  match key with
  | some k => cells.modify k Cell.release
  | none => cells

section

variable {Owner : Type u} (held : Owner → Option Nat)

structure Balanced (owners : List Owner) (cells : List Cell) : Prop where
  counts : ∀ (key : Nat) (cell : Cell), cells[key]? = some cell →
    cell.Counts (sharesOf held owners key)
  known : ∀ key, 0 < sharesOf held owners key → key < cells.length

variable {held} {owners next : List Owner} {cells : List Cell}

theorem Balanced.nil : Balanced held [] [] where
  counts := by
    intro key cell present
    cases present
  known := by
    intro key owned
    cases owned

/-- A change of hands. -/
theorem Balanced.moved (balanced : Balanced held owners cells)
    (same : ∀ key, sharesOf held next key = sharesOf held owners key) :
    Balanced held next cells where
  counts := by
    intro key cell present
    rw [same]
    exact balanced.counts key cell present
  known := by
    intro key owned
    rw [same] at owned
    exact balanced.known key owned

/-- A new cell with its first owner. -/
theorem Balanced.adopted (balanced : Balanced held owners cells)
    (one : ∀ key, sharesOf held next key =
      sharesOf held owners key + if key = cells.length then 1 else 0) :
    Balanced held next (cells ++ [Cell.fresh]) where
  counts := by
    intro key cell present
    rw [one]
    by_cases last : key = cells.length
    · subst last
      have unowned : sharesOf held owners cells.length = 0 := by
        by_contra owned
        exact Nat.lt_irrefl _ (balanced.known _ (Nat.pos_of_ne_zero owned))
      rw [List.getElem?_concat_length, Option.some.injEq] at present
      rw [unowned, if_pos rfl, ← present]
      exact Cell.fresh_counts
    · have bound := (List.getElem?_eq_some_iff.mp present).choose
      rw [List.length_append, List.length_singleton] at bound
      rw [List.getElem?_append_left (by omega)] at present
      rw [if_neg last]
      exact balanced.counts key cell present
  known := by
    intro key owned
    rw [List.length_append, List.length_singleton]
    by_cases last : key = cells.length
    · omega
    · rw [one, if_neg last] at owned
      have := balanced.known key owned
      omega

/-- One more owner of a cell that has one. -/
theorem Balanced.retained {key : Option Nat} (balanced : Balanced held owners cells)
    (more : ∀ k, sharesOf held next k = sharesOf held owners k + if key = some k then 1 else 0)
    (owned : ∀ k, key = some k → 0 < sharesOf held owners k)
    (room : ∀ k, sharesOf held next k < 2 ^ 32) :
    Balanced held next (RefCounts.retained key cells) := by
  cases key with
  | none => exact balanced.moved fun k => by simpa using more k
  | some kept =>
      have others : ∀ k, kept ≠ k → sharesOf held next k = sharesOf held owners k := by
        intro k apart
        simpa [apart] using more k
      have here : sharesOf held next kept = sharesOf held owners kept + 1 := by
        simpa using more kept
      refine ⟨?_, ?_⟩
      · intro k cell present
        rw [RefCounts.retained, List.getElem?_modify] at present
        obtain ⟨old, before, rfl⟩ := Option.map_eq_some_iff.mp present
        by_cases same : kept = k
        · subst same
          rw [if_pos rfl, here]
          exact (balanced.counts kept old before).retain (owned kept rfl) (here ▸ room kept)
        · rw [if_neg same, others k same]
          exact balanced.counts k old before
      · intro k owns
        rw [RefCounts.retained, List.length_modify]
        by_cases same : kept = k
        · exact balanced.known k (same ▸ owned kept rfl)
        · exact balanced.known k (others k same ▸ owns)

/-- One owner less. -/
theorem Balanced.released {key : Option Nat} (balanced : Balanced held owners cells)
    (less : ∀ k, sharesOf held next k + (if key = some k then 1 else 0) =
      sharesOf held owners k) :
    Balanced held next (RefCounts.released key cells) := by
  cases key with
  | none => exact balanced.moved fun k => by simpa using less k
  | some lost =>
      have others : ∀ k, lost ≠ k → sharesOf held next k = sharesOf held owners k := by
        intro k apart
        simpa [apart] using less k
      have here : sharesOf held next lost + 1 = sharesOf held owners lost := by
        simpa using less lost
      refine ⟨?_, ?_⟩
      · intro k cell present
        rw [RefCounts.released, List.getElem?_modify] at present
        obtain ⟨old, before, rfl⟩ := Option.map_eq_some_iff.mp present
        by_cases same : lost = k
        · subst same
          rw [if_pos rfl]
          exact Cell.Counts.release (here ▸ balanced.counts lost old before)
        · rw [if_neg same, others k same]
          exact balanced.counts k old before
      · intro k owns
        rw [RefCounts.released, List.length_modify]
        by_cases same : lost = k
        · subst same
          exact balanced.known lost (by omega)
        · exact balanced.known k (others k same ▸ owns)

end

end RefCounts
