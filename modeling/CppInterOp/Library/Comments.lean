import Mathlib.Data.List.TakeWhile
import CppInterOp.Library.Delimiters

/-!
What a compiler sees of a text in C or C++: lines that end in a backslash are joined to the next one,
and comments are left out.
-/

namespace Comments

open Delimiters

/-- What the reader is in the middle of. A slash is held back until it is clear what it starts, and a
star in a comment until it is clear whether the comment ends. -/
inductive Mode
  | code
  | slash
  | line
  | block
  | star
  | literal (quote : Char)
  | escape (quote : Char)
  deriving DecidableEq, Repr

namespace Mode

def step : Mode → Char → List Char × Mode
  | code, c =>
      if c = '/' then ([], slash)
      else if c = '"' ∨ c = '\'' then ([c], literal c)
      else ([c], code)
  | slash, c =>
      if c = '/' then ([], line)
      else if c = '*' then ([' '], block)
      else if c = '"' ∨ c = '\'' then (['/', c], literal c)
      else (['/', c], code)
  | line, _ => ([], line)
  | block, c => if c = '*' then ([], star) else ([], block)
  | star, c => if c = '/' then ([], code) else if c = '*' then ([], star) else ([], block)
  | literal quote, c =>
      if c = '\\' then ([c], escape quote)
      else if c = quote then ([c], code)
      else ([c], literal quote)
  | escape quote, c => ([c], literal quote)

def left : Mode → List Char
  | slash => ['/']
  | _ => []

/-- The mode in which the next line starts: only a comment between `/*` and `*/` goes on. -/
def newline : Mode → Mode
  | block | star => block
  | _ => code

def InBlock (mode : Mode) : Prop := mode = block ∨ mode = star

end Mode

def scan (mode : Mode) : List Char → List Char × Mode
  | [] => ([], mode)
  | c :: rest => ((mode.step c).1 ++ (scan (mode.step c).2 rest).1, (scan (mode.step c).2 rest).2)

def isBlank (c : Char) : Bool := c ∈ [' ', '\t', '\n', '\x0b', '\x0c', '\r']

/-- The line without its backslash, if there is one at its end. Blanks behind it do not count. -/
def continued (text : List Char) : Option (List Char) :=
  match text.reverse.dropWhile isBlank with
  | '\\' :: before => some before.reverse
  | _ => none

def readLines (mode : Mode) (seen : List Char) : List (List Char) → List (List Char)
  | [] => if seen.all isBlank then [] else [seen]
  | text :: rest =>
      match continued text with
      | some joined => readLines (scan mode joined).2 (seen ++ (scan mode joined).1) rest
      | none =>
          let whole := seen ++ (scan mode text).1 ++ (scan mode text).2.left
          if whole.all isBlank then readLines (scan mode text).2.newline [] rest
          else whole :: readLines (scan mode text).2.newline [] rest

section Scanning

variable {mode : Mode} {text rest : List Char}

theorem scan_append (mode : Mode) (text rest : List Char) :
    scan mode (text ++ rest) = ((scan mode text).1 ++ (scan (scan mode text).2 rest).1,
      (scan (scan mode text).2 rest).2) := by
  induction text generalizing mode with
  | nil => rfl
  | cons c text ih =>
      rw [List.cons_append, scan, ih]
      simp only [scan, List.append_assoc]

/-- Read as code, the text is seen as it is. -/
def Visible (text : List Char) : Prop := scan .code text = (text, .code)

instance (text : List Char) : Decidable (Visible text) := inferInstanceAs (Decidable (_ = _))

theorem Visible.append (visible : Visible text) (also : Visible rest) : Visible (text ++ rest) := by
  have first : scan .code text = (text, .code) := visible
  have second : scan .code rest = (rest, .code) := also
  rw [Visible, scan_append, first, second]

theorem Visible.intercalate {separator : List Char} {texts : List (List Char)}
    (between : Visible separator) (visible : ∀ text ∈ texts, Visible text) :
    Visible (separator.intercalate texts) := by
  induction texts with
  | nil => rfl
  | cons text texts ih =>
      rw [List.forall_mem_cons] at visible
      by_cases last : texts = []
      · rw [last, List.intercalate_singleton]
        exact visible.1
      · rw [List.intercalate_cons_of_ne_nil last]
        exact (visible.1.append between).append (ih visible.2)

theorem scan_literal (free : ∀ c ∈ text, c ≠ '"' ∧ c ≠ '\\') :
    scan (.literal '"') (text ++ ['"']) = (text ++ ['"'], .code) := by
  induction text with
  | nil => rfl
  | cons c text ih =>
      rw [List.forall_mem_cons] at free
      obtain ⟨⟨quote, backslash⟩, later⟩ := free
      have step : (Mode.literal '"').step c = ([c], .literal '"') := by
        rw [Mode.step, if_neg backslash, if_neg quote]
      rw [List.cons_append, scan, step, ih later]
      rfl

theorem visible_literal (free : ∀ c ∈ text, c ≠ '"' ∧ c ≠ '\\') :
    Visible ('"' :: (text ++ ['"'])) := by
  rw [Visible, scan, show Mode.code.step '"' = (['"'], .literal '"') from rfl, scan_literal free]
  rfl

theorem scan_line (text : List Char) : scan .line text = ([], .line) := by
  induction text with
  | nil => rfl
  | cons c text ih =>
      rw [scan, show Mode.line.step c = ([], .line) from rfl, ih]
      rfl

theorem scan_slashes (text : List Char) : scan .code ('/' :: '/' :: text) = ([], .line) := by
  rw [scan, show Mode.code.step '/' = ([], .slash) from rfl, scan,
    show Mode.slash.step '/' = ([], .line) from rfl, scan_line]
  rfl

/-- Inside a comment nothing is seen as long as nothing ends it. -/
theorem scan_block (inside : mode.InBlock) (unclosed : ¬['*', '/'] <:+: text)
    (start : mode = .star → text.head? ≠ some '/') :
    (scan mode text).1 = [] ∧ (scan mode text).2.InBlock := by
  induction text generalizing mode with
  | nil => exact ⟨rfl, inside⟩
  | cons c text ih =>
      have later : ¬['*', '/'] <:+: text := fun closes =>
        unclosed (closes.trans (List.suffix_cons c text).isInfix)
      have follows : c = '*' → text.head? ≠ some '/' := by
        rintro rfl slash
        cases text with
        | nil => cases slash
        | cons d text =>
            cases slash
            exact unclosed ⟨[], text, rfl⟩
      have step : ∃ next : Mode, mode.step c = ([], next) ∧ next.InBlock ∧ (next = .star → c = '*') := by
        rcases inside with rfl | rfl
        · by_cases star : c = '*'
          · exact ⟨.star, if_pos star, Or.inr rfl, fun _ => star⟩
          · exact ⟨.block, if_neg star, Or.inl rfl, nofun⟩
        · have open_still : c ≠ '/' := fun slash => start rfl (congrArg some slash)
          by_cases star : c = '*'
          · exact ⟨.star, (if_neg open_still).trans (if_pos star), Or.inr rfl, fun _ => star⟩
          · exact ⟨.block, (if_neg open_still).trans (if_neg star), Or.inl rfl, nofun⟩
      obtain ⟨next, stepped, still, starred⟩ := step
      rw [scan, stepped]
      exact ih still later fun star => follows (starred star)

end Scanning

section Lines

variable {text seen : List Char} {mode : Mode} {lines rest : List (List Char)}

theorem continued_none_iff :
    continued text = none ↔ (text.reverse.dropWhile isBlank).head? ≠ some '\\' := by
  rw [continued]
  cases text.reverse.dropWhile isBlank with
  | nil => simp
  | cons c before =>
      by_cases backslash : c = '\\'
      · subst backslash
        simp
      · simp [backslash]

/-- A line that ends in some other character than a blank or a backslash stands alone. -/
theorem continued_concat {c : Char} (blank : isBlank c = false) (other : c ≠ '\\') :
    continued (text ++ [c]) = none := by
  rw [continued_none_iff, List.reverse_append, List.reverse_singleton, List.singleton_append,
    List.dropWhile_cons_of_neg (by rw [blank]; exact Bool.false_ne_true)]
  exact fun same => other (Option.some.inj same)

theorem continued_prefix {joined : List Char} (goes_on : continued text = some joined) :
    joined <+: text := by
  have suffix := @List.dropWhile_suffix _ text.reverse isBlank
  rw [continued] at goes_on
  split at goes_on
  · next before split =>
      cases goes_on
      rw [split] at suffix
      have whole := List.reverse_prefix.mpr suffix
      rw [List.reverse_reverse, List.reverse_cons] at whole
      exact (List.prefix_append _ _).trans whole
  · cases goes_on

theorem continued_blank (before : List Char) (blank : ∀ c ∈ text, isBlank c = true) :
    continued (before ++ text) = continued before := by
  rw [continued, continued, List.reverse_append, List.dropWhile_append_of_pos]
  intro c member
  exact blank c (List.mem_reverse.mp member)

/-- Whether a line goes on is decided by its last character that is not blank. -/
theorem continued_append (before : List Char) (visible : text.all isBlank = false) :
    continued (before ++ text) = (continued text).map (before ++ ·) := by
  have some_left : text.reverse.dropWhile isBlank ≠ [] := by
    rw [Ne, List.dropWhile_eq_nil_iff]
    intro blanks
    rw [List.all_eq_true.mpr fun c member => blanks c (List.mem_reverse.mpr member)] at visible
    cases visible
  rw [continued, continued, List.reverse_append, List.dropWhile_append]
  cases split : text.reverse.dropWhile isBlank with
  | nil => exact absurd split some_left
  | cons c later =>
      by_cases backslash : c = '\\'
      · subst backslash
        simp
      · simp [backslash]

/-- Joined to the next line, a comment keeps the slashes that it starts with. -/
theorem continued_keeps {joined : List Char} (goes_on : continued (['/', '/'] ++ text) = some joined) :
    ['/', '/'] <+: joined := by
  cases visible : text.all isBlank with
  | true =>
      rw [continued_blank _ (List.all_eq_true.mp visible)] at goes_on
      cases goes_on
  | false =>
      rw [continued_append _ visible] at goes_on
      obtain ⟨later, _, rfl⟩ := Option.map_eq_some_iff.mp goes_on
      exact List.prefix_append _ _

theorem readLines_joined {joined : List Char} (goes_on : continued text = some joined) :
    readLines mode seen (text :: rest) =
      readLines (scan mode joined).2 (seen ++ (scan mode joined).1) rest := by
  rw [readLines, goes_on]

theorem readLines_blank (alone : continued text = none)
    (blank : (seen ++ (scan mode text).1 ++ (scan mode text).2.left).all isBlank = true) :
    readLines mode seen (text :: rest) = readLines (scan mode text).2.newline [] rest := by
  rw [readLines, alone]
  exact if_pos blank

theorem readLines_seen (alone : continued text = none) (visible : Visible text)
    (filled : text.all isBlank = false) :
    readLines .code [] (text :: rest) = text :: readLines .code [] rest := by
  have scanned : scan .code text = (text, .code) := visible
  rw [readLines, alone, scanned]
  simp only [List.nil_append, Mode.left, List.append_nil, filled, Bool.false_eq_true, if_false,
    Mode.newline]

/-- Lines of comments that start with `//`: behind them the reader is in the code, unless the last one
goes on. -/
theorem readLines_slashes (marked : ∀ text ∈ lines, ['/', '/'] <+: text)
    (mode_cases : mode = .code ∨ mode = .line) (some_line : lines ≠ []) :
    readLines mode [] (lines ++ rest) = readLines
      (if (continued (lines.getLast some_line)).isSome then .line else .code) [] rest := by
  induction lines generalizing mode with
  | nil => exact absurd rfl some_line
  | cons text lines ih =>
      rw [List.forall_mem_cons] at marked
      have hidden : ∀ part, ['/', '/'] <+: part → scan mode part = ([], .line) := by
        rintro part ⟨later, rfl⟩
        rcases mode_cases with rfl | rfl
        · exact scan_slashes later
        · exact scan_line _
      have first : readLines mode [] (text :: (lines ++ rest)) = readLines
          (if (continued text).isSome then .line else .code) [] (lines ++ rest) := by
        cases goes_on : continued text with
        | none =>
            rw [readLines_blank goes_on (by rw [hidden text marked.1]; rfl), hidden text marked.1]
            rfl
        | some joined =>
            have kept : scan mode joined = ([], .line) := by
              rcases mode_cases with rfl | rfl
              · obtain ⟨later, whole⟩ := marked.1
                have both : ['/', '/'] <+: joined := by
                  rw [← whole] at goes_on
                  exact continued_keeps goes_on
                exact hidden joined both
              · exact scan_line _
            rw [readLines_joined goes_on, kept]
            rfl
      rw [List.cons_append, first]
      cases lines with
      | nil => rfl
      | cons next lines =>
          rw [List.getLast_cons (List.cons_ne_nil _ _)]
          refine ih marked.2 ?_ (List.cons_ne_nil _ _)
          split
          · exact Or.inr rfl
          · exact Or.inl rfl

/-- Lines inside a comment none of which ends it. -/
theorem readLines_block (inside : mode.InBlock)
    (unclosed : ∀ text ∈ lines, ¬['*', '/'] <:+: text ∧ text.head? ≠ some '/') :
    ∃ last : Mode, last.InBlock ∧ readLines mode [] (lines ++ rest) = readLines last [] rest := by
  induction lines generalizing mode with
  | nil => exact ⟨mode, inside, rfl⟩
  | cons text lines ih =>
      rw [List.forall_mem_cons] at unclosed
      obtain ⟨⟨whole, start⟩, later⟩ := unclosed
      rw [List.cons_append]
      cases goes_on : continued text with
      | none =>
          obtain ⟨unseen, still⟩ := scan_block inside whole fun _ => start
          have ends : (scan mode text).2.left = [] ∧ (scan mode text).2.newline = .block := by
            rcases still with block | star
            · rw [block]
              exact ⟨rfl, rfl⟩
            · rw [star]
              exact ⟨rfl, rfl⟩
          rw [readLines_blank goes_on (by rw [unseen, ends.1]; rfl), ends.2]
          exact ih (Or.inl rfl) later
      | some joined =>
          obtain ⟨more, rfl⟩ := continued_prefix goes_on
          have part : ¬['*', '/'] <:+: joined := fun closes =>
            whole (closes.trans (List.prefix_append joined more).isInfix)
          have part_start : joined.head? ≠ some '/' := by
            cases joined with
            | nil => exact nofun
            | cons c joined => exact start
          obtain ⟨unseen, still⟩ := scan_block inside part fun _ => part_start
          rw [readLines_joined goes_on, unseen]
          exact ih still later

end Lines

section Texts

theorem newline_ne_nil : ['\n'] ≠ ([] : List Char) := List.cons_ne_nil _ _

def textLines (text : List Char) : List (List Char) := pieces newline_ne_nil text

def compiledLines (text : List Char) : List (List Char) := readLines .code [] (textLines text)

def unlines (lines : List (List Char)) : List Char := lines.flatMap (· ++ ['\n'])

variable {text line rest : List Char} {lines seen more : List (List Char)}

theorem textLines_cons (single : '\n' ∉ line) :
    textLines (line ++ '\n' :: rest) = line :: textLines rest :=
  pieces_more newline_ne_nil (splitAtFirst_unstarted rest single)

theorem textLines_unlines (single : ∀ line ∈ lines, '\n' ∉ line) :
    textLines (unlines lines ++ rest) = lines ++ textLines rest := by
  induction lines with
  | nil => rfl
  | cons line lines ih =>
      rw [List.forall_mem_cons] at single
      have whole : unlines (line :: lines) ++ rest = line ++ '\n' :: (unlines lines ++ rest) := by
        simp [unlines]
      rw [whole, textLines_cons single.1, ih single.2]
      rfl

/-- Wherever the text stands in the code, these are the lines that are seen of it. -/
def Reads (text : List Char) (seen : List (List Char)) : Prop :=
  ∀ rest, compiledLines (text ++ rest) = seen ++ compiledLines rest

theorem Reads.append (reads : Reads text seen) {later : List Char} (also : Reads later more) :
    Reads (text ++ later) (seen ++ more) := by
  intro rest
  rw [List.append_assoc, reads, also, List.append_assoc]

theorem Reads.nil : Reads [] [] := fun _ => rfl

theorem Reads.compiledLines (reads : Reads text seen) : compiledLines text = seen := by
  have whole := reads []
  rw [List.append_nil] at whole
  rw [whole, show Comments.compiledLines [] = [] from by
    rw [Comments.compiledLines, textLines, pieces_nil]; rfl, List.append_nil]

theorem Reads.flatMap {Source : Type} {sources : List Source} {emit : Source → List Char}
    {shown : Source → List (List Char)} (reads : ∀ source ∈ sources, Reads (emit source) (shown source)) :
    Reads (sources.flatMap emit) (sources.flatMap shown) := by
  induction sources with
  | nil => exact .nil
  | cons source sources ih =>
      rw [List.forall_mem_cons] at reads
      exact reads.1.append (ih reads.2)

theorem reads_line (single : '\n' ∉ line) (visible : Visible line) (alone : continued line = none)
    (filled : line.all isBlank = false) : Reads (line ++ ['\n']) [line] := by
  intro rest
  rw [List.append_assoc, List.singleton_append, compiledLines, textLines_cons single,
    readLines_seen alone visible filled]
  rfl

theorem reads_newline : Reads ['\n'] [] := by
  intro rest
  have blank := @textLines_cons [] rest List.not_mem_nil
  rw [List.nil_append] at blank
  rw [List.singleton_append, compiledLines, blank, readLines_blank rfl rfl]
  rfl

theorem reads_slashes (single : ∀ line ∈ lines, '\n' ∉ line)
    (marked : ∀ line ∈ lines, ['/', '/'] <+: line)
    (ends : ∀ last ∈ lines.getLast?, continued last = none) : Reads (unlines lines) [] := by
  intro rest
  rw [compiledLines, textLines_unlines single]
  by_cases none_left : lines = []
  · rw [none_left]
    rfl
  · have last := ends _ (List.getLast?_eq_some_getLast none_left)
    rw [readLines_slashes marked (Or.inl rfl) none_left, last]
    rfl

theorem reads_comment (single : '\n' ∉ line) (marked : ['/', '/'] <+: line)
    (alone : continued line = none) : Reads (line ++ ['\n']) [] := by
  have read := @reads_slashes [line] (List.forall_mem_singleton.mpr single)
    (List.forall_mem_singleton.mpr marked) (fun last member => Option.some.inj member ▸ alone)
  rw [unlines, List.flatMap_singleton] at read
  exact read

/-- A comment that goes on takes the line behind it away. -/
theorem reads_slashes_line (single : ∀ line ∈ lines, '\n' ∉ line)
    (marked : ∀ line ∈ lines, ['/', '/'] <+: line) (some_line : lines ≠ [])
    (goes_on : continued (lines.getLast some_line) ≠ none) (also : '\n' ∉ line)
    (alone : continued line = none) : Reads (unlines lines ++ (line ++ ['\n'])) [] := by
  intro rest
  rw [List.append_assoc, List.append_assoc, List.singleton_append, compiledLines,
    textLines_unlines single, textLines_cons also, readLines_slashes marked (Or.inl rfl) some_line,
    if_pos (Option.isSome_iff_ne_none.mpr goes_on),
    readLines_blank alone (by rw [scan_line]; rfl), scan_line]
  rfl

theorem reads_block (single : ∀ line ∈ lines, '\n' ∉ line)
    (unclosed : ∀ line ∈ lines, ¬['*', '/'] <:+: line ∧ line.head? ≠ some '/') :
    Reads ("/**\n".toList ++ unlines lines ++ " */\n".toList) [] := by
  intro rest
  obtain ⟨last, inside, read⟩ := @readLines_block .block lines (" */".toList :: textLines rest)
    (Or.inl rfl) unclosed
  have whole : "/**\n".toList ++ unlines lines ++ " */\n".toList ++ rest =
      "/**".toList ++ '\n' :: (unlines lines ++ (" */".toList ++ '\n' :: rest)) := by
    simp
  rw [compiledLines, whole, textLines_cons (by decide), textLines_unlines single,
    textLines_cons (by decide), readLines_blank (by decide) (by decide)]
  refine read.trans ?_
  rcases inside with rfl | rfl
  · exact readLines_blank (by decide) (by decide)
  · exact readLines_blank (by decide) (by decide)

end Texts

end Comments
