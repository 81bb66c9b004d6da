import Mathlib.Data.List.Basic

/-!
Calls of function-like macros: how the text behind the opening parenthesis is cut into arguments, with
parentheses nested and with character and string literals, and when texts come out as the arguments
that they were written as.
-/

namespace MacroCalls

structure Scan where
  depth : Nat := 0
  /-- The quote that ends the literal around the position. -/
  literal : Option Char := none
  escaped : Bool := false
  deriving DecidableEq, Repr

namespace Scan

/-- None behind the parenthesis that closes the call. -/
def next (scan : Scan) (c : Char) : Option Scan :=
  match scan.literal with
  | some quote =>
      if scan.escaped then some { scan with escaped := false }
      else if c = '\\' then some { scan with escaped := true }
      else if c = quote then some { scan with literal := none }
      else some scan
  | none =>
      if c = '"' ∨ c = '\'' then some { scan with literal := some c }
      else if c = '(' then some { scan with depth := scan.depth + 1 }
      else if c = ')' then
        match scan.depth with
        | 0 => none
        | depth + 1 => some { scan with depth := depth }
      else some scan

def deepen (scan : Scan) (levels : Nat) : Scan := { scan with depth := scan.depth + levels }

end Scan

def arguments (scan : Scan) (current : List Char) : List Char → Option (List (List Char))
  | [] => none
  | c :: rest =>
      if scan = {} ∧ c = ',' then (arguments {} [] rest).map (current :: ·)
      else
        match scan.next c with
        | none => some [current]
        | some next => arguments next (current ++ [c]) rest

def scanned (scan : Scan) : List Char → Option Scan
  | [] => some scan
  | c :: rest => (scan.next c).bind fun next => scanned next rest

def separators (scan : Scan) : List Char → Nat
  | [] => 0
  | c :: rest =>
      (if scan = {} ∧ c = ',' then 1 else 0) + ((scan.next c).elim 0 fun next => separators next rest)

/-- Parentheses and literals that are opened are closed, and no others. -/
def Closed (text : List Char) : Prop := scanned {} text = some {}

instance (text : List Char) : Decidable (Closed text) := inferInstanceAs (Decidable (_ = _))

section

variable {scan last : Scan} {c : Char} {current text rest : List Char} {levels : Nat}

theorem scanned_append :
    scanned scan (text ++ rest) = (scanned scan text).bind fun last => scanned last rest := by
  induction text generalizing scan with
  | nil => rfl
  | cons c text ih =>
      rw [List.cons_append, scanned, scanned]
      cases scan.next c with
      | none => rfl
      | some next => exact ih

theorem next_deepen {next : Scan} (steps : scan.next c = some next) :
    (scan.deepen levels).next c = some (next.deepen levels) := by
  obtain ⟨depth, literal, escaped⟩ := scan
  have deeper : ∀ d, d + 1 + levels = d + levels + 1 := fun d => Nat.add_right_comm d 1 levels
  cases literal with
  | some quote =>
      cases escaped with
      | true =>
          cases steps
          rfl
      | false =>
          simp only [Scan.next, Scan.deepen, Bool.false_eq_true, if_false] at steps ⊢
          by_cases escapes : c = '\\'
          · rw [if_pos escapes] at steps ⊢
            cases steps
            rfl
          · rw [if_neg escapes] at steps ⊢
            by_cases ends : c = quote
            · rw [if_pos ends] at steps ⊢
              cases steps
              rfl
            · rw [if_neg ends] at steps ⊢
              cases steps
              rfl
  | none =>
      simp only [Scan.next, Scan.deepen] at steps ⊢
      by_cases quote : c = '"' ∨ c = '\''
      · rw [if_pos quote] at steps ⊢
        cases steps
        rfl
      · rw [if_neg quote] at steps ⊢
        by_cases opens : c = '('
        · rw [if_pos opens] at steps ⊢
          cases steps
          simp only [deeper]
        · rw [if_neg opens] at steps ⊢
          by_cases closes : c = ')'
          · rw [if_pos closes] at steps ⊢
            cases depth with
            | zero => cases steps
            | succ depth =>
                cases steps
                simp only [deeper]
          · rw [if_neg closes] at steps ⊢
            cases steps
            rfl

theorem scanned_deepen (scans : scanned scan text = some last) :
    scanned (scan.deepen levels) text = some (last.deepen levels) := by
  induction text generalizing scan with
  | nil =>
      cases scans
      rfl
  | cons c text ih =>
      rw [scanned] at scans ⊢
      obtain ⟨next, steps, later⟩ := Option.bind_eq_some_iff.mp scans
      rw [next_deepen steps]
      exact ih later

/-- Inside parentheses no comma separates arguments. -/
theorem separators_deepen (scans : scanned scan text = some last) :
    separators (scan.deepen (levels + 1)) text = 0 := by
  induction text generalizing scan with
  | nil => rfl
  | cons c text ih =>
      rw [scanned] at scans
      obtain ⟨next, steps, later⟩ := Option.bind_eq_some_iff.mp scans
      have nested : scan.deepen (levels + 1) ≠ {} := by
        intro same
        exact absurd (congrArg Scan.depth same) (Nat.succ_ne_zero _)
      rw [separators, if_neg fun separates => nested separates.1, next_deepen steps]
      exact (Nat.zero_add _).trans (ih later)

theorem Closed.append (closed : Closed text) (also : Closed rest) : Closed (text ++ rest) := by
  rw [Closed, scanned_append, closed]
  exact also

theorem closed_intercalate {separator : List Char} {texts : List (List Char)}
    (between : Closed separator) (closed : ∀ part ∈ texts, Closed part) :
    Closed (separator.intercalate texts) := by
  induction texts with
  | nil => rfl
  | cons part texts ih =>
      have here := closed part List.mem_cons_self
      by_cases last : texts = []
      · subst last
        rw [List.intercalate_singleton]
        exact here
      · rw [List.intercalate_cons_of_ne_nil last]
        exact (here.append between).append
          (ih fun other member => closed other (List.mem_cons_of_mem _ member))

theorem closed_parenthesized (closed : Closed text) : Closed ('(' :: (text ++ [')'])) := by
  have inside := @scanned_deepen {} {} text 1 closed
  rw [Closed, scanned, show Scan.next {} '(' = some (Scan.deepen {} 1) from rfl, Option.bind_some,
    scanned_append, inside]
  rfl

theorem separators_append (scans : scanned scan text = some last) :
    separators scan (text ++ rest) = separators scan text + separators last rest := by
  induction text generalizing scan with
  | nil =>
      cases scans
      exact (Nat.zero_add _).symm
  | cons c text ih =>
      rw [scanned] at scans
      obtain ⟨next, steps, later⟩ := Option.bind_eq_some_iff.mp scans
      rw [List.cons_append, separators, separators, steps, Nat.add_assoc]
      exact congrArg _ (ih later)

theorem separators_parenthesized (closed : Closed text) :
    separators {} ('(' :: (text ++ [')'])) = 0 := by
  have inside := @scanned_deepen {} {} text 1 closed
  have quiet := @separators_deepen {} {} text 0 closed
  rw [separators, if_neg (by decide), show Scan.next {} '(' = some (Scan.deepen {} 1) from rfl,
    Option.elim_some, separators_append inside, quiet]
  rfl

/-- A text without separating commas comes through in one piece. -/
theorem arguments_whole (scans : scanned scan text = some last) (whole : separators scan text = 0) :
    arguments scan current (text ++ rest) = arguments last (current ++ text) rest := by
  induction text generalizing scan current with
  | nil =>
      cases scans
      rw [List.append_nil]
      rfl
  | cons c text ih =>
      rw [scanned] at scans
      obtain ⟨next, steps, later⟩ := Option.bind_eq_some_iff.mp scans
      rw [separators, steps, Nat.add_eq_zero_iff] at whole
      have here : ¬(scan = {} ∧ c = ',') := by
        intro separates
        rw [if_pos separates] at whole
        exact absurd whole.1 Nat.one_ne_zero
      rw [List.cons_append, arguments, if_neg here, steps]
      exact (ih later whole.2).trans (by rw [List.append_assoc, List.singleton_append])

theorem arguments_comma : arguments {} current (',' :: rest) = (arguments {} [] rest).map (current :: ·) :=
  if_pos ⟨rfl, rfl⟩

/-- Every separating comma of a text makes one argument more. -/
theorem length_arguments (scans : scanned scan text = some last) {count : Nat}
    (later : ∀ current, (arguments last current rest).map List.length = some count) :
    (arguments scan current (text ++ rest)).map List.length = some (separators scan text + count) := by
  induction text generalizing scan current with
  | nil =>
      cases scans
      rw [separators, Nat.zero_add]
      exact later current
  | cons c text ih =>
      rw [scanned] at scans
      obtain ⟨next, steps, walked⟩ := Option.bind_eq_some_iff.mp scans
      rw [List.cons_append, arguments, separators, steps]
      by_cases here : scan = {} ∧ c = ','
      · obtain ⟨rfl, rfl⟩ := here
        cases steps
        have more := @ih {} [] walked
        rw [if_pos ⟨rfl, rfl⟩, if_pos ⟨rfl, rfl⟩, Option.map_map]
        cases cut : arguments {} [] (text ++ rest) with
        | none =>
            rw [cut] at more
            cases more
        | some args =>
            rw [cut, Option.map_some, Option.some.injEq] at more
            simp [more]
            omega
      · rw [if_neg here, if_neg here, Nat.zero_add]
        exact ih walked

def marks : List Char := [',', '"', '\'', '(', ')']

theorem scanned_unmarked (unmarked : ∀ c ∈ text, c ∉ marks) :
    scanned {} text = some {} ∧ separators {} text = 0 := by
  induction text with
  | nil => exact ⟨rfl, rfl⟩
  | cons c text ih =>
      obtain ⟨closed, whole⟩ := ih fun other member => unmarked other (List.mem_cons_of_mem _ member)
      have here := unmarked c List.mem_cons_self
      simp only [marks, List.mem_cons, List.not_mem_nil, or_false, not_or] at here
      have steps : Scan.next {} c = some {} := by simp [Scan.next, here]
      rw [scanned, separators, steps, if_neg fun separates => here.1 separates.2]
      exact ⟨closed, (Nat.zero_add _).trans whole⟩

end

end MacroCalls
