import Mathlib.Data.List.Basic

/-!
Argument lists of calls: a text cut at the commas that stand outside brackets, literals and lists of
template arguments. Comments and raw literals are not told apart from other text.
-/

namespace CallLists

structure Scan where
  /-- The closing brackets that are awaited, the innermost first. -/
  awaited : List Char := []
  /-- The quote that ends the literal around the position. -/
  literal : Option Char := none
  escaped : Bool := false
  /-- The name in front of the position. -/
  word : List Char := []
  spaced : Bool := false
  deriving DecidableEq, Repr

def isNameChar (c : Char) : Bool := c.isAlphanum || c = '_'

/-- A name, as a variable has one. -/
def IsName (text : List Char) : Prop :=
  (∀ c ∈ text, isNameChar c = true) ∧ ∃ first ∈ text.head?, first.isDigit = false

instance : DecidablePred IsName := fun text =>
  inferInstanceAs (Decidable ((∀ c ∈ text, isNameChar c = true) ∧ ∃ first ∈ text.head?, first.isDigit = false))

def closing : Char → Option Char
  | '(' => some ')'
  | '[' => some ']'
  | '\x7b' => some '\x7d'
  | _ => none

variable (templates : List Char → Bool)

namespace Scan

def Outside (scan : Scan) : Prop := scan.awaited = [] ∧ scan.literal = none

instance (scan : Scan) : Decidable scan.Outside := inferInstanceAs (Decidable (_ ∧ _))

/-- Behind the name of a template or a cast, `<` opens a list; none where a bracket is closed that
is not the innermost one. -/
def next (scan : Scan) (c : Char) : Option Scan :=
  match scan.literal with
  | some quote =>
      if scan.escaped then some { scan with escaped := false }
      else if c = '\\' then some { scan with escaped := true }
      else if c = quote then some { awaited := scan.awaited }
      else some scan
  | none =>
      if c = '"' ∨ c = '\'' then some { awaited := scan.awaited, literal := some c }
      else if isNameChar c then
        some { scan with word := (if scan.spaced then [] else scan.word) ++ [c], spaced := false }
      else if c = ' ' then some { scan with spaced := true }
      else if scan.awaited.head? = some c then some { awaited := scan.awaited.tail }
      else if c = '<' ∧ templates scan.word then some { awaited := '>' :: scan.awaited }
      else
        match closing c with
        | some close => some { awaited := close :: scan.awaited }
        | none => if c ∈ [')', ']', '\x7d'] then none else some { awaited := scan.awaited }

end Scan

def arguments (scan : Scan) (current : List Char) : List Char → Option (List (List Char))
  | [] => if scan.Outside then some [current] else none
  | c :: rest =>
      if scan.Outside ∧ c = ',' then (arguments {} [] rest).map (current :: ·)
      else (scan.next templates c).bind fun next => arguments next (current ++ [c]) rest

def Whole (text : List Char) : Prop := arguments templates {} [] text = some [text]

instance (text : List Char) : Decidable (Whole templates text) := inferInstanceAs (Decidable (_ = _))

def spread : List (List Char) → List (List Char)
  | [] => []
  | first :: later => first :: later.map (' ' :: ·)

section

variable {templates} {scan : Scan} {c : Char} {current text : List Char}

/-- Behind a list of arguments and a comma, the list goes on. -/
theorem arguments_comma {parts : List (List Char)} (rest : List Char)
    (cut : arguments templates scan current text = some parts) :
    arguments templates scan current (text ++ ',' :: rest) =
      (arguments templates {} [] rest).map (parts ++ ·) := by
  induction text generalizing scan current parts with
  | nil =>
      rw [arguments] at cut
      split at cut
      · next outside =>
          cases cut
          rw [List.nil_append, arguments, if_pos ⟨outside, rfl⟩]
          rfl
      · cases cut
  | cons c text ih =>
      rw [arguments] at cut
      rw [List.cons_append, arguments]
      split at cut
      · next separates =>
          obtain ⟨later, inner, rfl⟩ := Option.map_eq_some_iff.mp cut
          rw [if_pos separates, ih inner, Option.map_map]
          rfl
      · next inside =>
          obtain ⟨next, steps, inner⟩ := Option.bind_eq_some_iff.mp cut
          rw [if_neg inside, steps]
          exact ih inner

/-- Each argument of a list is one argument; the first one begins with what was read before. -/
theorem arguments_whole {parts : List (List Char)}
    (cut : arguments templates scan current text = some parts) :
    ∃ first later, parts = (current ++ first) :: later ∧
      arguments templates scan current first = some [current ++ first] ∧
      ∀ part ∈ later, Whole templates part := by
  induction text generalizing scan current parts with
  | nil =>
      rw [arguments] at cut
      split at cut
      · next outside =>
          cases cut
          refine ⟨[], [], by rw [List.append_nil], ?_, fun part absent => nomatch absent⟩
          rw [arguments, if_pos outside, List.append_nil]
      · cases cut
  | cons c text ih =>
      rw [arguments] at cut
      split at cut
      · next separates =>
          obtain ⟨later, inner, rfl⟩ := Option.map_eq_some_iff.mp cut
          obtain ⟨first, others, rfl, whole, rest⟩ := ih inner
          refine ⟨[], _, by rw [List.append_nil], ?_, ?_⟩
          · rw [arguments, if_pos separates.1, List.append_nil]
          · intro part member
            rcases List.mem_cons.mp member with rfl | member
            · exact whole
            · exact rest part member
      · next inside =>
          obtain ⟨next, steps, inner⟩ := Option.bind_eq_some_iff.mp cut
          obtain ⟨first, later, rfl, whole, rest⟩ := ih inner
          refine ⟨c :: first, later, by rw [List.append_assoc, List.singleton_append], ?_, rest⟩
          rw [arguments, if_neg inside, steps, Option.bind_some, whole, List.append_assoc,
            List.singleton_append]

/-- What was read before only stands in front of the first argument. -/
theorem arguments_front (front : List Char) :
    arguments templates scan (front ++ current) text =
      (arguments templates scan current text).map fun parts =>
        (front ++ parts.headD []) :: parts.tail := by
  induction text generalizing scan current with
  | nil =>
      rw [arguments, arguments]
      split
      · rfl
      · rfl
  | cons c text ih =>
      rw [arguments, arguments]
      split
      · rw [Option.map_map]
        rfl
      · cases scan.next templates c with
        | none => rfl
        | some next =>
            rw [Option.bind_some, Option.bind_some, List.append_assoc]
            exact ih

theorem next_spaced : Scan.next templates { spaced := true } c = Scan.next templates {} c := by
  unfold Scan.next
  simp

/-- A blank in front only stands in front of the first argument. -/
theorem arguments_blank : arguments templates {} [] (' ' :: text) =
    (arguments templates {} [] text).map fun parts => (' ' :: parts.headD []) :: parts.tail := by
  have spaced : arguments templates { spaced := true } [] text = arguments templates {} [] text := by
    cases text with
    | nil => rfl
    | cons c text =>
        rw [arguments, arguments, next_spaced]
        rfl
  have read : arguments templates {} [] (' ' :: text) =
      arguments templates { spaced := true } ([' '] ++ []) text := by
    rw [arguments, if_neg (by decide)]
    rfl
  rw [read, arguments_front, spaced]
  rfl

theorem whole_blank : Whole templates (' ' :: text) ↔ Whole templates text := by
  rw [Whole, Whole, arguments_blank]
  constructor
  · intro cut
    obtain ⟨parts, inner, same⟩ := Option.map_eq_some_iff.mp cut
    obtain ⟨first, later, rfl, -, -⟩ := arguments_whole inner
    have head : first = text := by simpa using (List.cons.inj same).1
    have none_later : later = [] := (List.cons.inj same).2
    rw [inner, head, none_later, List.nil_append]
  · intro whole
    rw [whole]
    rfl

/-- A list is read as the arguments it was written with exactly if each of them is one. -/
theorem arguments_intercalate {parts : List (List Char)} (filled : parts ≠ []) :
    arguments templates {} [] ([',', ' '].intercalate parts) = some (spread parts) ↔
      ∀ part ∈ parts, Whole templates part := by
  constructor
  · intro cut part member
    obtain ⟨first, later, same, whole, rest⟩ := arguments_whole cut
    cases parts with
    | nil => cases member
    | cons head parts =>
        obtain ⟨rfl, rfl⟩ := List.cons.inj same
        rcases List.mem_cons.mp member with rfl | member
        · exact whole
        · exact whole_blank.mp (rest _ (List.mem_map_of_mem member))
  · intro whole
    induction parts with
    | nil => exact absurd rfl filled
    | cons head parts ih =>
        have here := whole head List.mem_cons_self
        cases parts with
        | nil =>
            rw [List.intercalate_singleton]
            exact here
        | cons second parts =>
            have later := ih (List.cons_ne_nil second parts)
              fun part member => whole part (List.mem_cons_of_mem _ member)
            rw [List.intercalate_cons_of_ne_nil (List.cons_ne_nil second parts), List.append_assoc]
            refine (arguments_comma (' ' :: [',', ' '].intercalate (second :: parts)) here).trans ?_
            rw [arguments_blank, later]
            rfl

def marks : List Char := ['"', '\'', '<', '>', '(', ')', '[', ']', '\x7b', '\x7d']

theorem name_unmarked (named : isNameChar c = true) : c ∉ marks ∧ c ≠ ',' := by
  have others : ∀ other ∈ ',' :: marks, isNameChar other = false := by
    intro other member
    have all : (',' :: marks).all (fun mark => !isNameChar mark) = true := by decide
    exact (Bool.not_eq_true' _).mp (List.all_eq_true.mp all other member)
  refine ⟨fun member => ?_, ?_⟩
  · exact Bool.false_ne_true ((others c (List.mem_cons_of_mem _ member)).symm.trans named)
  · rintro rfl
    exact Bool.false_ne_true ((others ',' List.mem_cons_self).symm.trans named)

theorem next_unmarked (text_around : scan.literal = none) (closers : ∀ close ∈ scan.awaited, close ∈ marks)
    (unmarked : c ∉ marks) :
    ∃ next, scan.next templates c = some next ∧ next.literal = none ∧ next.awaited = scan.awaited := by
  have other : ∀ mark ∈ marks, c ≠ mark := fun mark member same => unmarked (same ▸ member)
  have open_bracket : scan.awaited.head? ≠ some c := fun head =>
    unmarked (closers c (List.mem_of_mem_head? head))
  have quiet : closing c = none := by
    unfold closing
    split
    · exact absurd rfl (other '(' (by decide))
    · exact absurd rfl (other '[' (by decide))
    · exact absurd rfl (other '\x7b' (by decide))
    · rfl
  have closed : c ∉ [')', ']', '\x7d'] := fun member =>
    unmarked ((by decide : [')', ']', '\x7d'] ⊆ marks) member)
  unfold Scan.next
  rw [text_around]
  simp only
  rw [if_neg (not_or.mpr ⟨other '"' (by decide), other '\'' (by decide)⟩)]
  by_cases named : isNameChar c = true
  · rw [if_pos named]
    exact ⟨_, rfl, rfl, rfl⟩
  · rw [if_neg named]
    by_cases blank : c = ' '
    · rw [if_pos blank]
      exact ⟨_, rfl, rfl, rfl⟩
    · rw [if_neg blank, if_neg open_bracket, if_neg fun opens => other '<' (by decide) opens.1, quiet,
        if_neg closed]
      exact ⟨_, rfl, rfl, rfl⟩

/-- Text without such characters is passed over; inside brackets it may hold commas. -/
theorem arguments_unmarked (text_around : scan.literal = none)
    (closers : ∀ close ∈ scan.awaited, close ∈ marks) (unmarked : ∀ c ∈ text, c ∉ marks)
    (commas : scan.awaited ≠ [] ∨ ',' ∉ text) :
    ∃ next : Scan, next.literal = none ∧ next.awaited = scan.awaited ∧ ∀ rest,
      arguments templates scan current (text ++ rest) =
        arguments templates next (current ++ text) rest := by
  induction text generalizing scan current with
  | nil => exact ⟨scan, text_around, rfl, fun rest => by rw [List.nil_append, List.append_nil]⟩
  | cons c text ih =>
      obtain ⟨next, steps, around, same⟩ :=
        @next_unmarked templates _ _ text_around closers (unmarked c List.mem_cons_self)
      have inside : ¬(scan.Outside ∧ c = ',') := by
        rintro ⟨outside, rfl⟩
        rcases commas with nested | absent
        · exact nested outside.1
        · exact absent List.mem_cons_self
      obtain ⟨last, around, kept, later⟩ := @ih next (current ++ [c]) around (same ▸ closers)
        (fun other member => unmarked other (List.mem_cons_of_mem _ member))
        (commas.imp (fun nested => same ▸ nested) fun absent member => absent (List.mem_cons_of_mem _ member))
      refine ⟨last, around, kept.trans same, fun rest => ?_⟩
      rw [List.cons_append, arguments, if_neg inside, steps, Option.bind_some, later rest,
        List.append_assoc, List.singleton_append]

theorem whole_name (named : ∀ c ∈ text, isNameChar c = true) : Whole templates text := by
  obtain ⟨next, around, kept, read⟩ := @arguments_unmarked templates {} [] text rfl
    (fun close absent => nomatch absent)
    (fun c member => (name_unmarked (named c member)).1)
    (Or.inr fun member => (name_unmarked (named ',' member)).2 rfl)
  have whole := read []
  rw [List.append_nil, List.nil_append, arguments, if_pos ⟨kept, around⟩] at whole
  exact whole

/-- Braces around plain text make one argument, commas and all. -/
theorem whole_braced (unmarked : ∀ c ∈ text, c ∉ marks) :
    Whole templates ('\x7b' :: (text ++ ['\x7d'])) := by
  obtain ⟨next, around, kept, read⟩ := @arguments_unmarked templates
    { awaited := ['\x7d'] } ['\x7b'] text rfl (List.forall_mem_singleton.mpr (by decide)) unmarked
    (Or.inl (List.cons_ne_nil _ _))
  have opened : arguments templates {} [] ('\x7b' :: (text ++ ['\x7d'])) =
      arguments templates { awaited := ['\x7d'] } ['\x7b'] (text ++ ['\x7d']) := by
    rw [arguments, if_neg (by decide)]
    rfl
  have closed : next.next templates '\x7d' = some {} := by
    unfold Scan.next
    rw [around, kept]
    rfl
  have nested : ¬(next.Outside ∧ '\x7d' = ',') := fun separates => absurd separates.2 (by decide)
  rw [Whole, opened, read, arguments, if_neg nested, closed, Option.bind_some, arguments, if_pos ⟨rfl, rfl⟩]
  rfl

end

end CallLists
