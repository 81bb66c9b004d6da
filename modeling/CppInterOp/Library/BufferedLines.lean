import Mathlib.Data.List.Basic

/-!
Text that is read line by line through a buffer, over arbitrary symbols: the reads are the lines of
the text exactly when each line fits in the buffer.
-/

namespace BufferedLines

universe u

variable {Symbol : Type u} [DecidableEq Symbol] (newline : Symbol)

/-- A read stops behind a newline, when there is no more room, or at the end. -/
def readLine : Nat → List Symbol → List Symbol × List Symbol
  | 0, text => ([], text)
  | _ + 1, [] => ([], [])
  | room + 1, symbol :: rest =>
      if symbol = newline then ([symbol], rest)
      else (symbol :: (readLine room rest).1, (readLine room rest).2)

/-- The lines of a text, each with the newline that ends it. -/
def lines : List Symbol → List (List Symbol)
  | [] => []
  | symbol :: rest =>
      if symbol = newline then [symbol] :: lines rest
      else (symbol :: (lines rest).headD []) :: (lines rest).tail

variable {newline}

theorem readLine_append (room : Nat) (text : List Symbol) :
    (readLine newline room text).1 ++ (readLine newline room text).2 = text := by
  induction room generalizing text with
  | zero => rfl
  | succ room ih =>
      cases text with
      | nil => rfl
      | cons symbol rest =>
          rw [readLine]
          split
          · rfl
          · exact congrArg (symbol :: ·) (ih rest)

theorem readLine_ne_nil (room : Nat) {text : List Symbol} (more : text ≠ []) :
    (readLine newline (room + 1) text).1 ≠ [] := by
  cases text with
  | nil => exact absurd rfl more
  | cons symbol rest =>
      rw [readLine]
      split
      · exact List.cons_ne_nil _ _
      · exact List.cons_ne_nil _ _

theorem readLine_shorter (room : Nat) {text : List Symbol} (more : text ≠ []) :
    (readLine newline (room + 1) text).2.length < text.length := by
  have whole := congrArg List.length (@readLine_append _ _ newline (room + 1) text)
  have read := List.length_pos_iff.mpr (@readLine_ne_nil _ _ newline room text more)
  rw [List.length_append] at whole
  omega

theorem lines_ne_nil {text : List Symbol} (more : text ≠ []) : lines newline text ≠ [] := by
  cases text with
  | nil => exact absurd rfl more
  | cons symbol rest =>
      rw [lines]
      split
      · exact List.cons_ne_nil _ _
      · exact List.cons_ne_nil _ _

theorem readLine_nil (room : Nat) : readLine newline room [] = ([], []) := by
  cases room with
  | zero => rfl
  | succ room => rfl

/-- A read is the first line where that fits, and else as much of it as fits, the rest of the line
still to come. -/
theorem readLine_lines (room : Nat) {text first : List Symbol} {others : List (List Symbol)}
    (split : lines newline text = first :: others) :
    (first.length ≤ room → (readLine newline room text).1 = first ∧
        lines newline (readLine newline room text).2 = others) ∧
      (room < first.length →
        ∃ rest, lines newline (readLine newline room text).2 = rest :: others) := by
  induction text generalizing room first others with
  | nil => cases split
  | cons symbol text ih =>
      cases room with
      | zero =>
          refine ⟨fun short => ?_, fun _ => ⟨first, split⟩⟩
          have empty := List.eq_nil_of_length_eq_zero (Nat.le_zero.mp short)
          subst empty
          rw [lines] at split
          split at split
          · cases split
          · cases split
      | succ room =>
          rw [lines] at split
          rw [readLine]
          split at split
          · next ends =>
              cases split
              rw [if_pos ends]
              exact ⟨fun _ => ⟨rfl, rfl⟩, fun long => absurd long (by simp)⟩
          · next inside =>
              obtain ⟨rfl, rfl⟩ := List.cons.inj split
              rw [if_neg inside]
              cases later : lines newline text with
              | nil =>
                  have nothing : text = [] := by
                    by_contra more
                    exact lines_ne_nil more later
                  subst nothing
                  rw [readLine_nil]
                  exact ⟨fun _ => ⟨rfl, rfl⟩, fun long => absurd long (by simp)⟩
              | cons next others =>
                  obtain ⟨fits, exceeds⟩ := ih room later
                  refine ⟨fun short => ?_, fun long => ?_⟩
                  · obtain ⟨read, rest⟩ := fits (Nat.le_of_succ_le_succ short)
                    exact ⟨congrArg (symbol :: ·) read, rest⟩
                  · exact exceeds (Nat.lt_of_succ_lt_succ long)

theorem lines_single {line : List Symbol} (inside : newline ∉ line) :
    lines newline (line ++ [newline]) = [line ++ [newline]] := by
  induction line with
  | nil => simp [lines]
  | cons symbol rest ih =>
      rw [List.mem_cons, not_or] at inside
      rw [List.cons_append, lines, if_neg (Ne.symm inside.1), ih inside.2]
      rfl

/-- What is read of a text one after the other, through a buffer with room for at least one symbol. -/
def reads (room : Nat) (text : List Symbol) : List (List Symbol) :=
  if more : text = [] then []
  else (readLine newline (room + 1) text).1 :: reads room (readLine newline (room + 1) text).2
termination_by text.length
decreasing_by exact readLine_shorter room more

theorem reads_nil (room : Nat) : @reads _ _ newline room [] = [] := by
  rw [reads, dif_pos rfl]

theorem reads_more (room : Nat) {text : List Symbol} (more : text ≠ []) :
    @reads _ _ newline room text =
      (readLine newline (room + 1) text).1 ::
        @reads _ _ newline room (readLine newline (room + 1) text).2 := by
  rw [reads, dif_neg more]

theorem reads_lines (room : Nat) (text : List Symbol) :
    (lines newline text).length ≤ (@reads _ _ newline room text).length ∧
      ((@reads _ _ newline room text).length = (lines newline text).length ↔
        ∀ line ∈ lines newline text, line.length ≤ room + 1) ∧
      ((∀ line ∈ lines newline text, line.length ≤ room + 1) →
        @reads _ _ newline room text = lines newline text) := by
  induction bound : text.length using Nat.strongRecOn generalizing text with
  | ind bound ih =>
      subst bound
      by_cases nothing : text = []
      · subst nothing
        rw [reads_nil]
        exact ⟨Nat.le_refl _, ⟨fun _ line member => absurd member List.not_mem_nil, fun _ => rfl⟩,
          fun _ => rfl⟩
      · obtain ⟨first, others, split⟩ := List.exists_cons_of_ne_nil (@lines_ne_nil _ _ newline _ nothing)
        obtain ⟨fits, exceeds⟩ := readLine_lines (room + 1) split
        obtain ⟨more, exact_iff, same⟩ := ih _ (readLine_shorter room nothing) _ rfl
        rw [reads_more room nothing, split, List.length_cons, List.length_cons, List.forall_mem_cons]
        rcases Nat.lt_or_ge (room + 1) first.length with long | short
        · obtain ⟨rest, continued⟩ := exceeds long
          rw [continued, List.length_cons] at more
          refine ⟨by omega, ⟨fun equal => absurd equal (by omega), fun all => ?_⟩, fun all => ?_⟩
          · exact absurd all.1 (Nat.not_le_of_lt long)
          · exact absurd all.1 (Nat.not_le_of_lt long)
        · obtain ⟨read, rest⟩ := fits short
          rw [rest] at more exact_iff same
          refine ⟨Nat.succ_le_succ more, ?_, fun all => ?_⟩
          · rw [Nat.succ_inj, exact_iff]
            exact (and_iff_right short).symm
          · rw [read, same all.2]

end BufferedLines
