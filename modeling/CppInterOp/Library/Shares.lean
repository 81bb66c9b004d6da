import Mathlib.Data.List.Basic

/-!
Shared ownership over arbitrary owners and keys: how many members of a list hold a key,
and how that number changes when a member is added or replaced.
-/

namespace Shares

universe u v

section

variable {Owner : Type u} {Key : Type v} [DecidableEq Key] (held : Owner → Option Key)

def sharesOf (owners : List Owner) (key : Key) : Nat :=
  owners.countP fun owner => held owner = some key

def share (owner : Owner) (key : Key) : Nat := if held owner = some key then 1 else 0

@[simp] theorem sharesOf_nil (key : Key) : sharesOf held [] key = 0 := rfl

theorem sharesOf_append_one (owners : List Owner) (owner : Owner) (key : Key) :
    sharesOf held (owners ++ [owner]) key = sharesOf held owners key + share held owner key := by
  simp [sharesOf, share, List.countP_cons]

/-- What a replacement takes away and what it adds balance. -/
theorem sharesOf_set {owners : List Owner} {position : Nat} {old : Owner} (new : Owner)
    (present : owners[position]? = some old) (key : Key) :
    sharesOf held (owners.set position new) key + share held old key =
      sharesOf held owners key + share held new key := by
  induction owners generalizing position with
  | nil => simp at present
  | cons head rest ih =>
      cases position with
      | zero =>
          obtain rfl : head = old := by simpa using present
          simp only [sharesOf, share, List.set_cons_zero, List.countP_cons, decide_eq_true_eq]
          omega
      | succ position =>
          have behind : rest[position]? = some old := by simpa using present
          have tail := ih behind
          simp only [sharesOf, List.set_cons_succ, List.countP_cons] at tail ⊢
          omega

theorem sharesOf_pos {owners : List Owner} {owner : Owner} {key : Key} (member : owner ∈ owners)
    (holds : held owner = some key) : 0 < sharesOf held owners key :=
  List.countP_pos_iff.mpr ⟨owner, member, by simpa using holds⟩

variable {held}

theorem share_of_none {owner : Owner} (none : held owner = none) (key : Key) :
    share held owner key = 0 := by
  simp [share, none]

end

end Shares
