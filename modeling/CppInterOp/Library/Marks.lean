import Mathlib.Data.List.Basic

/-!
Tables of words that keys leave marks in, over arbitrary keys and words: a key whose mark
was left is found marked, whatever other keys were marked before or after it.
-/

namespace Marks

universe u v

/-- How marks are joined into a word, and when a word shows a mark. -/
structure Scheme (Word : Type u) where
  join : Word → Word → Word
  shows : Word → Word → Bool
  shows_joined : ∀ word mark, shows (join word mark) mark = true
  shows_kept : ∀ word mark other, shows word mark = true → shows (join word other) mark = true

section

variable {Word : Type u} {Key : Type v} (scheme : Scheme Word)
variable (slot : Key → Nat) (mark : Key → Word)

def add (table : List Word) (key : Key) : List Word :=
  table.modify (slot key) fun word => scheme.join word (mark key)

def test (table : List Word) (key : Key) : Bool :=
  (table[slot key]?).any fun word => scheme.shows word (mark key)

@[simp] theorem add_length (table : List Word) (key : Key) :
    (add scheme slot mark table key).length = table.length := by
  simp [add]

theorem foldl_add_length (keys : List Key) (table : List Word) :
    (keys.foldl (add scheme slot mark) table).length = table.length := by
  induction keys generalizing table with
  | nil => rfl
  | cons key keys ih => rw [List.foldl_cons, ih, add_length]

theorem test_add {table : List Word} {key : Key} (bound : slot key < table.length) :
    test scheme slot mark (add scheme slot mark table key) key = true := by
  simp [test, add, List.getElem?_eq_getElem bound, scheme.shows_joined]

theorem test_kept {table : List Word} {key : Key} (other : Key)
    (marked : test scheme slot mark table key = true) :
    test scheme slot mark (add scheme slot mark table other) key = true := by
  obtain ⟨word, present, shown⟩ := (Option.any_eq_true _ _).mp marked
  by_cases same : slot other = slot key
  · simp [test, add, same, present, scheme.shows_kept _ _ _ shown]
  · simp [test, add, same, present, shown]

theorem test_foldl {keys : List Key} {table : List Word} {key : Key}
    (marked : test scheme slot mark table key = true) :
    test scheme slot mark (keys.foldl (add scheme slot mark) table) key = true := by
  induction keys generalizing table with
  | nil => exact marked
  | cons other keys ih => exact ih (test_kept scheme slot mark other marked)

/-- No false negatives. -/
theorem test_of_mem {keys : List Key} {table : List Word} {key : Key}
    (bound : ∀ key, slot key < table.length) (member : key ∈ keys) :
    test scheme slot mark (keys.foldl (add scheme slot mark) table) key = true := by
  obtain ⟨before, after, rfl⟩ := List.append_of_mem member
  rw [List.foldl_append, List.foldl_cons]
  refine test_foldl scheme slot mark (test_add scheme slot mark ?_)
  rw [foldl_add_length]
  exact bound key

end

end Marks
