import Mathlib.Data.List.Lex
import Mathlib.Data.List.Permutation
import Mathlib.Data.List.Sort

/-!
The arrangements of a list over a linear order, one after another: from the sorted list each
step goes to the next permutation in lexicographic order, and every permutation is met.
-/

namespace Arrangements

universe u

variable {Item : Type u} [LinearOrder Item]

def above (items : List Item) : List (List Item) := items.permutations'.filter (items < ·)

/-- The least greater permutation. -/
def next (items : List Item) : Option (List Item) := (above items).min?

theorem mem_above {items other : List Item} :
    other ∈ above items ↔ other.Perm items ∧ items < other := by
  rw [above, List.mem_filter, List.mem_permutations', decide_eq_true_eq]

theorem next_some {items following : List Item} (found : next items = some following) :
    following.Perm items ∧ items < following ∧
      ∀ other : List Item, other.Perm items → items < other → following ≤ other := by
  obtain ⟨member, least⟩ := List.min?_eq_some_iff.mp found
  obtain ⟨same, greater⟩ := mem_above.mp member
  exact ⟨same, greater, fun other perm further => least other (mem_above.mpr ⟨perm, further⟩)⟩

theorem next_none {items : List Item} (last : next items = none) {other : List Item}
    (perm : other.Perm items) : other ≤ items := by
  have empty : above items = [] := List.min?_eq_none_iff.mp last
  by_contra greater
  have member := mem_above.mpr ⟨perm, not_le.mp greater⟩
  rw [empty] at member
  cases member

theorem above_shorter {items following : List Item} (found : next items = some following) :
    (above following).length < (above items).length := by
  obtain ⟨same, greater, _⟩ := next_some found
  have within : (above following).length = ((above items).filter (following < ·)).length := by
    have perms : following.permutations'.Perm items.permutations' := same.permutations'
    rw [above, above, List.filter_filter, (perms.filter _).length_eq]
    congr 1
    refine List.filter_congr fun other _ => ?_
    rw [Bool.eq_iff_iff, Bool.and_eq_true, decide_eq_true_eq, decide_eq_true_eq]
    exact ⟨fun further => ⟨further, lt_trans greater further⟩, And.left⟩
  rw [within]
  refine List.length_filter_lt_length_iff_exists.mpr ⟨following, ?_, ?_⟩
  · exact mem_above.mpr ⟨same, greater⟩
  · simp

/-- What a loop goes through that leaves when there is no next permutation. -/
def visited (items : List Item) : List (List Item) :=
  match _found : next items with
  | some following => items :: visited following
  | none => [items]
termination_by (above items).length
decreasing_by exact above_shorter _found

theorem visited_some {items following : List Item} (found : next items = some following) :
    visited items = items :: visited following := by
  rw [visited]
  split
  · next other here =>
      rw [found] at here
      cases here
      rfl
  · next last =>
      rw [found] at last
      cases last

theorem visited_none {items : List Item} (last : next items = none) : visited items = [items] := by
  rw [visited]
  split
  · next other here =>
      rw [last] at here
      cases here
  · rfl

/-- The loop goes through all permutations from where it starts on. -/
theorem mem_visited {items other : List Item} :
    other ∈ visited items ↔ other.Perm items ∧ items ≤ other := by
  induction items using visited.induct with
  | case1 items following found ih =>
      obtain ⟨same, greater, least⟩ := next_some found
      rw [visited_some found, List.mem_cons, ih]
      constructor
      · rintro (rfl | ⟨perm, further⟩)
        · exact ⟨List.Perm.refl _, le_refl _⟩
        · exact ⟨perm.trans same, le_trans greater.le further⟩
      · rintro ⟨perm, further⟩
        rcases further.eq_or_lt with rfl | beyond
        · exact Or.inl rfl
        · exact Or.inr ⟨perm.trans same.symm, least other perm beyond⟩
  | case2 items last =>
      rw [visited_none last, List.mem_singleton]
      constructor
      · rintro rfl
        exact ⟨List.Perm.refl _, le_refl _⟩
      · rintro ⟨perm, further⟩
        exact le_antisymm (next_none last perm) further

/-- The sorted list is the least of its permutations. -/
theorem sorted_le {items other : List Item} (sorted : items.Pairwise (· ≤ ·))
    (perm : other.Perm items) : items ≤ other := by
  induction items generalizing other with
  | nil => rw [perm.eq_nil]
  | cons item items ih =>
      obtain ⟨first, rest⟩ := List.pairwise_cons.mp sorted
      cases other with
      | nil => exact absurd perm.symm.eq_nil (List.cons_ne_nil _ _)
      | cons head others =>
          have least : item ≤ head := by
            rcases List.mem_cons.mp (perm.subset List.mem_cons_self) with same | later
            · exact same.ge
            · exact first head later
          rcases least.eq_or_lt with rfl | less
          · have tail := ih rest (List.perm_cons item |>.mp perm)
            rcases tail.eq_or_lt with rfl | smaller
            · exact le_refl _
            · exact (List.cons_lt_cons_iff.mpr (Or.inr ⟨rfl, smaller⟩)).le
          · exact (List.cons_lt_cons_iff.mpr (Or.inl less)).le

/-- From the sorted list on the loop goes through every permutation. -/
theorem mem_visited_sorted {items other : List Item} :
    other ∈ visited (items.insertionSort (· ≤ ·)) ↔ other.Perm items := by
  have arranged := List.perm_insertionSort (· ≤ ·) items
  rw [mem_visited]
  constructor
  · rintro ⟨perm, _⟩
    exact perm.trans arranged
  · intro perm
    have same := perm.trans arranged.symm
    exact ⟨same, sorted_le (List.pairwise_insertionSort (· ≤ ·) items) same⟩

end Arrangements
