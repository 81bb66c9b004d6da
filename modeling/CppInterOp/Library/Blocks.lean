import Mathlib.Data.List.Basic

/-!
Memory as blocks that an allocator hands out. A cell of a new block holds nothing until it is
written, and a write that does not lie in one block fails.
-/

namespace Blocks

universe u

variable {Byte : Type u}

structure Block (Byte : Type u) where
  address : Nat
  cells : List (Option Byte)
  deriving DecidableEq, Repr

def Block.Apart (first second : Block Byte) : Prop :=
  first.address + first.cells.length ≤ second.address ∨
    second.address + second.cells.length ≤ first.address

instance (first second : Block Byte) : Decidable (first.Apart second) :=
  inferInstanceAs (Decidable (_ ∨ _))

def Block.fresh (address size : Nat) : Block Byte :=
  ⟨address, List.replicate size none⟩

def Block.write (block : Block Byte) (offset : Nat) (bytes : List Byte) : Block Byte :=
  { block with
    cells := block.cells.take offset ++ bytes.map some ++ block.cells.drop (offset + bytes.length) }

abbrev Memory (Byte : Type u) := List (Block Byte)

def allocate (memory : Memory Byte) (address size : Nat) : Memory Byte :=
  Block.fresh address size :: memory

def store : Memory Byte → Nat → List Byte → Option (Memory Byte)
  | [], _, _ => none
  | block :: memory, address, bytes =>
      if block.address ≤ address ∧ address + bytes.length ≤ block.address + block.cells.length then
        some (block.write (address - block.address) bytes :: memory)
      else (store memory address bytes).map (block :: ·)

def cellsAt (memory : Memory Byte) (address : Nat) : Option (List (Option Byte)) :=
  (memory.find? fun block => block.address = address).map Block.cells

/-- An address that a new block can have: it is not null and the block overlaps no other. -/
def Free (memory : Memory Byte) (address size : Nat) : Prop :=
  address ≠ 0 ∧ ∀ block ∈ memory, (Block.fresh address size).Apart block

def top (memory : Memory Byte) : Nat :=
  memory.foldr (fun block highest => max (block.address + block.cells.length) highest) 0

theorem free_of_top_le {memory : Memory Byte} {address size : Nat} (nonzero : address ≠ 0)
    (above : top memory ≤ address) : Free memory address size := by
  refine ⟨nonzero, ?_⟩
  induction memory with
  | nil => exact fun block absent => absurd absent List.not_mem_nil
  | cons first memory ih =>
      rw [top, List.foldr_cons, ← top] at above
      intro block present
      rcases List.mem_cons.mp present with rfl | present
      · exact .inr (by simp only [Block.fresh]; omega)
      · exact ih (by omega) block present

theorem cellsAt_cons_self (address : Nat) (cells : List (Option Byte)) (memory : Memory Byte) :
    cellsAt (⟨address, cells⟩ :: memory) address = some cells := by
  simp [cellsAt]

theorem cellsAt_cons_of_ne {block : Block Byte} {memory : Memory Byte} {address : Nat}
    (other : block.address ≠ address) : cellsAt (block :: memory) address = cellsAt memory address := by
  simp [cellsAt, other]

theorem block_of_cellsAt {memory : Memory Byte} {address : Nat} {cells : List (Option Byte)}
    (found : cellsAt memory address = some cells) : (⟨address, cells⟩ : Block Byte) ∈ memory := by
  rw [cellsAt, Option.map_eq_some_iff] at found
  obtain ⟨block, found, rfl⟩ := found
  have same : block.address = address := by simpa using List.find?_some found
  rw [← same]
  exact List.mem_of_find?_eq_some found

/-- Blocks that do not overlap start at different addresses, unless one is empty. -/
theorem Block.Apart.address_ne {first second : Block Byte} (apart : first.Apart second)
    (nonempty : 0 < first.cells.length) (filled : 0 < second.cells.length) :
    first.address ≠ second.address := by
  intro same
  rcases apart with before | after <;> omega

theorem store_newest (address : Nat) (written : List (Option Byte)) {room : List (Option Byte)}
    {bytes : List Byte} (length : room.length = bytes.length) (rest : List (Option Byte))
    (memory : Memory Byte) :
    store (⟨address, written ++ room ++ rest⟩ :: memory) (address + written.length) bytes =
      some (⟨address, written ++ bytes.map some ++ rest⟩ :: memory) := by
  have inside : address ≤ address + written.length ∧
      address + written.length + bytes.length ≤ address + (written ++ room ++ rest).length := by
    simp only [List.length_append, length]
    omega
  have kept : (written ++ room ++ rest).take written.length = written := by
    rw [List.append_assoc, List.take_left]
  have after : (written ++ room ++ rest).drop (written.length + bytes.length) = rest := by
    rw [← length, ← List.length_append, List.drop_left]
  rw [store, if_pos inside, Block.write, Nat.add_sub_cancel_left]
  simp only [kept, after]

end Blocks
