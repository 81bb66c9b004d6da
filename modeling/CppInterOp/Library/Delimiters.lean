import Mathlib.Data.List.Infix

/-!
Text that ends at the first occurrence of a terminator, over arbitrary symbols: when a text
followed by its terminator is read back as it was written.
-/

namespace Delimiters

universe u

section

variable {Symbol : Type u}

/-- A terminator whose first symbol does not come again in it starts nowhere in a text with the
terminator behind it, unless it stands in the text. -/
theorem not_prefix_of_absent {first symbol : Symbol} {later text : List Symbol}
    (rest : List Symbol) (once : first ∉ later) (absent : ¬first :: later <:+: symbol :: text) :
    ¬first :: later <+: symbol :: text ++ (first :: later ++ rest) := by
  intro starts
  have whole : symbol :: text <+: symbol :: text ++ (first :: later ++ rest) :=
    List.prefix_append _ _
  rcases Nat.le_total (first :: later).length (symbol :: text).length with short | long
  · exact absent (List.prefix_of_prefix_length_le starts whole short).isInfix
  · obtain ⟨more, split⟩ := List.prefix_of_prefix_length_le whole starts long
    have overlap : more <+: first :: later ++ rest := by
      have moved : symbol :: text ++ more <+: symbol :: text ++ (first :: later ++ rest) := by
        rw [split]
        exact starts
      exact (List.prefix_append_right_inj _).mp moved
    cases more with
    | nil =>
        rw [List.append_nil] at split
        exact absent (split ▸ List.infix_refl _)
    | cons next others =>
        obtain rfl : next = first := (List.cons_prefix_cons.mp overlap).1
        have tail : later = text ++ next :: others := (List.cons.inj split).2.symm
        exact once (tail ▸ List.mem_append_right _ List.mem_cons_self)

end

variable {Symbol : Type u} [DecidableEq Symbol]

def splitAtFirst (terminator : List Symbol) : List Symbol → Option (List Symbol × List Symbol)
  | [] => if terminator = [] then some ([], []) else none
  | symbol :: rest =>
      if terminator <+: symbol :: rest then some ([], (symbol :: rest).drop terminator.length)
      else (splitAtFirst terminator rest).map fun parts => (symbol :: parts.1, parts.2)

theorem splitAtFirst_some {terminator text before behind : List Symbol}
    (found : splitAtFirst terminator text = some (before, behind)) :
    text = before ++ (terminator ++ behind) := by
  induction text generalizing before with
  | nil =>
      rw [splitAtFirst] at found
      split at found
      · next empty =>
          cases found
          simp [empty]
      · cases found
  | cons symbol text ih =>
      rw [splitAtFirst] at found
      split at found
      · next starts =>
          obtain ⟨rest, whole⟩ := starts
          cases found
          simp [← whole]
      · obtain ⟨⟨front, back⟩, inner, same⟩ := Option.map_eq_some_iff.mp found
        cases same
        exact congrArg (symbol :: ·) (ih inner)

theorem splitAtFirst_absent {first : Symbol} {later text : List Symbol} (rest : List Symbol)
    (once : first ∉ later) (absent : ¬first :: later <:+: text) :
    splitAtFirst (first :: later) (text ++ (first :: later ++ rest)) = some (text, rest) := by
  induction text with
  | nil => simp [splitAtFirst]
  | cons symbol text ih =>
      have elsewhere := not_prefix_of_absent rest once absent
      have inner : ¬first :: later <:+: text :=
        fun within => absent (List.infix_cons_iff.mpr (Or.inr within))
      rw [List.cons_append] at elsewhere ⊢
      rw [splitAtFirst, if_neg elsewhere, ih inner, Option.map_some]

/-- A text that holds the terminator is cut off before its end. -/
theorem splitAtFirst_present {terminator text : List Symbol} (more : List Symbol)
    (nonempty : terminator ≠ []) (present : terminator <:+: text) :
    ∃ before behind, splitAtFirst terminator (text ++ more) = some (before, behind) ∧
      before.length < text.length := by
  induction text with
  | nil => exact absurd (List.infix_nil.mp present) nonempty
  | cons symbol text ih =>
      rw [List.cons_append, splitAtFirst]
      by_cases here : terminator <+: symbol :: (text ++ more)
      · rw [if_pos here]
        exact ⟨[], _, rfl, Nat.succ_pos _⟩
      · have inner : terminator <:+: text := by
          rcases List.infix_cons_iff.mp present with starts | within
          · exact absurd (List.prefix_append_of_prefix starts) here
          · exact within
        obtain ⟨before, behind, found, shorter⟩ := ih inner
        rw [if_neg here, found, Option.map_some]
        exact ⟨symbol :: before, behind, rfl, Nat.succ_lt_succ shorter⟩

/-- The parts of a text between the occurrences of a terminator, taken from the left. -/
def pieces {terminator : List Symbol} (nonempty : terminator ≠ []) (text : List Symbol) :
    List (List Symbol) :=
  match _found : splitAtFirst terminator text with
  | none => [text]
  | some (before, behind) => before :: pieces nonempty behind
termination_by text.length
decreasing_by
  rw [splitAtFirst_some _found, List.length_append, List.length_append]
  exact Nat.lt_add_left _ (Nat.lt_add_of_pos_left (List.length_pos_iff.mpr nonempty))

section

variable {terminator : List Symbol} (nonempty : terminator ≠ [])
include nonempty

theorem pieces_last {text : List Symbol} (absent : splitAtFirst terminator text = none) :
    pieces nonempty text = [text] := by
  rw [pieces]
  split
  · rfl
  · next before behind found =>
      rw [absent] at found
      cases found

theorem pieces_more {text before behind : List Symbol}
    (found : splitAtFirst terminator text = some (before, behind)) :
    pieces nonempty text = before :: pieces nonempty behind := by
  rw [pieces]
  split
  · next absent =>
      rw [absent] at found
      cases found
  · next front back here =>
      rw [found] at here
      cases here
      rfl

theorem pieces_ne_nil (text : List Symbol) : pieces nonempty text ≠ [] := by
  rw [pieces]
  split
  · exact List.cons_ne_nil _ _
  · exact List.cons_ne_nil _ _

theorem splitAtFirst_none {text : List Symbol} (absent : splitAtFirst terminator text = none) :
    ¬terminator <:+: text := by
  induction text with
  | nil =>
      intro present
      exact nonempty (List.infix_nil.mp present)
  | cons symbol text ih =>
      rw [splitAtFirst] at absent
      split at absent
      · cases absent
      · next elsewhere =>
          intro present
          rcases List.infix_cons_iff.mp present with starts | within
          · exact elsewhere starts
          · exact ih (Option.map_eq_none_iff.mp absent) within

/-- What stands before the first occurrence holds none. -/
theorem splitAtFirst_before {text before behind : List Symbol}
    (found : splitAtFirst terminator text = some (before, behind)) :
    ¬terminator <:+: before := by
  induction text generalizing before with
  | nil =>
      rw [splitAtFirst, if_neg nonempty] at found
      cases found
  | cons symbol text ih =>
      rw [splitAtFirst] at found
      split at found
      · cases found
        intro present
        exact nonempty (List.infix_nil.mp present)
      · next elsewhere =>
          obtain ⟨⟨front, back⟩, inner, same⟩ := Option.map_eq_some_iff.mp found
          cases same
          intro present
          rcases List.infix_cons_iff.mp present with starts | within
          · have whole := splitAtFirst_some inner
            rw [whole] at elsewhere
            exact elsewhere (List.prefix_append_of_prefix starts)
          · exact ih inner within

theorem intercalate_pieces (text : List Symbol) :
    terminator.intercalate (pieces nonempty text) = text := by
  induction text using pieces.induct nonempty with
  | case1 text absent => rw [pieces_last nonempty absent, List.intercalate_singleton]
  | case2 text before behind found ih =>
      rw [pieces_more nonempty found,
        List.intercalate_cons_of_ne_nil (pieces_ne_nil nonempty behind), ih,
        splitAtFirst_some found, List.append_assoc]

theorem pieces_free {text piece : List Symbol} (member : piece ∈ pieces nonempty text) :
    ¬terminator <:+: piece := by
  induction text using pieces.induct nonempty with
  | case1 text absent =>
      rw [pieces_last nonempty absent] at member
      rw [List.mem_singleton.mp member]
      exact splitAtFirst_none nonempty absent
  | case2 text before behind found ih =>
      rw [pieces_more nonempty found] at member
      rcases List.mem_cons.mp member with rfl | later
      · exact splitAtFirst_before nonempty found
      · exact ih later

theorem splitAtFirst_shorter {text before behind : List Symbol}
    (found : splitAtFirst terminator text = some (before, behind)) :
    behind.length < text.length := by
  have delimited := List.length_pos_iff.mpr nonempty
  rw [splitAtFirst_some found, List.length_append, List.length_append]
  omega

theorem pieces_nil : pieces nonempty ([] : List Symbol) = [[]] := by
  apply pieces_last
  rw [splitAtFirst, if_neg nonempty]

theorem pieces_eq_singleton_nil {text : List Symbol} :
    pieces nonempty text = [[]] ↔ text = [] := by
  constructor
  · intro alone
    have joined := intercalate_pieces nonempty text
    rw [alone, List.intercalate_singleton] at joined
    exact joined.symm
  · rintro rfl
    exact pieces_nil nonempty

def filledPieces (text : List Symbol) : List (List Symbol) :=
  (pieces nonempty text).filter (· ≠ [])

theorem filledPieces_more {text before behind : List Symbol}
    (found : splitAtFirst terminator text = some (before, behind)) :
    filledPieces nonempty text = [before].filter (· ≠ []) ++ filledPieces nonempty behind := by
  rw [filledPieces, pieces_more nonempty found, ← List.singleton_append, List.filter_append,
    filledPieces]

theorem filledPieces_nil : filledPieces nonempty ([] : List Symbol) = [] := by
  rw [filledPieces, pieces_nil]
  rfl

end

/-- Parts that do not hold the terminator are found again in the text they make up. -/
theorem pieces_intercalate {first : Symbol} {later : List Symbol} (once : first ∉ later)
    {parts : List (List Symbol)} (some : parts ≠ [])
    (free : ∀ part ∈ parts, ¬first :: later <:+: part) :
    pieces (List.cons_ne_nil first later) ((first :: later).intercalate parts) = parts := by
  induction parts with
  | nil => exact absurd rfl some
  | cons part parts ih =>
      have apart := free part List.mem_cons_self
      by_cases last : parts = []
      · subst last
        rw [List.intercalate_singleton]
        apply pieces_last
        cases found : splitAtFirst (first :: later) part with
        | none => rfl
        | some sides =>
            have whole := splitAtFirst_some found
            exact absurd ⟨sides.1, sides.2, by rw [List.append_assoc, ← whole]⟩ apart
      · rw [List.intercalate_cons_of_ne_nil last, List.append_assoc,
          pieces_more _ (splitAtFirst_absent _ once apart),
          ih last fun other member => free other (List.mem_cons_of_mem _ member)]

omit [DecidableEq Symbol] in
theorem intercalate_concat {separator : List Symbol} {parts : List (List Symbol)}
    (some : parts ≠ []) (last : List Symbol) :
    separator.intercalate (parts ++ [last]) = separator.intercalate parts ++ separator ++ last := by
  induction parts with
  | nil => exact absurd rfl some
  | cons part parts ih =>
      by_cases empty : parts = []
      · subst empty
        rw [List.singleton_append, List.intercalate_cons_of_ne_nil (List.cons_ne_nil _ _),
          List.intercalate_singleton, List.intercalate_singleton]
      · rw [List.cons_append,
          List.intercalate_cons_of_ne_nil (List.append_ne_nil_of_left_ne_nil empty _),
          List.intercalate_cons_of_ne_nil empty, ih empty]
        simp only [List.append_assoc]

omit [DecidableEq Symbol] in
theorem infix_intercalate {separator part : List Symbol} {parts : List (List Symbol)}
    (member : part ∈ parts) : part <:+: separator.intercalate parts := by
  induction parts with
  | nil => cases member
  | cons head parts ih =>
      by_cases last : parts = []
      · subst last
        rw [List.mem_singleton] at member
        rw [member, List.intercalate_singleton]
      · rw [List.intercalate_cons_of_ne_nil last]
        rcases List.mem_cons.mp member with rfl | later
        · rw [List.append_assoc]
          exact (List.prefix_append _ _).isInfix
        · exact (ih later).trans (List.suffix_append _ _).isInfix

/-- A text without the first symbol of the terminator is cut off there, whatever the terminator is. -/
theorem splitAtFirst_unstarted {first : Symbol} {later text : List Symbol} (rest : List Symbol)
    (absent : first ∉ text) :
    splitAtFirst (first :: later) (text ++ (first :: later ++ rest)) = some (text, rest) := by
  induction text with
  | nil => simp [splitAtFirst]
  | cons symbol text ih =>
      have elsewhere : ¬first :: later <+: symbol :: text ++ (first :: later ++ rest) := fun starts =>
        absent ((List.cons_prefix_cons.mp starts).1 ▸ List.mem_cons_self)
      rw [List.cons_append] at elsewhere ⊢
      rw [splitAtFirst, if_neg elsewhere, ih fun inside => absent (List.mem_cons_of_mem _ inside),
        Option.map_some]

theorem splitAtFirst_missing {first : Symbol} {later text : List Symbol} (absent : first ∉ text) :
    splitAtFirst (first :: later) text = none := by
  cases found : splitAtFirst (first :: later) text with
  | none => rfl
  | some sides =>
      refine absurd ?_ absent
      rw [splitAtFirst_some found]
      exact List.mem_append_right _ List.mem_cons_self

theorem pieces_unstarted {first : Symbol} {later : List Symbol} {parts : List (List Symbol)}
    (some : parts ≠ []) (absent : ∀ part ∈ parts, first ∉ part) :
    pieces (List.cons_ne_nil first later) ((first :: later).intercalate parts) = parts := by
  induction parts with
  | nil => exact absurd rfl some
  | cons part parts ih =>
      have apart := absent part List.mem_cons_self
      by_cases last : parts = []
      · subst last
        rw [List.intercalate_singleton]
        exact pieces_last _ (splitAtFirst_missing apart)
      · rw [List.intercalate_cons_of_ne_nil last, List.append_assoc,
          pieces_more _ (splitAtFirst_unstarted _ apart),
          ih last fun other member => absent other (List.mem_cons_of_mem _ member)]

end Delimiters
