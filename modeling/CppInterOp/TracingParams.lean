import CppInterOp.Library.Nesting
import CppInterOp.PathsCore
import Mathlib.Data.Char
import Mathlib.Data.List.TakeWhile

/-!
`TraceRegion::countParams`: how many parameters a function signature has that is given as text.
-/

namespace CppInterOp

open Nesting

/-- The loop over the parameter list.  `depth` is an `int` that never falls below zero; above the
greatest `int` the behaviour is undefined. -/
def countLoop : StringRef → UInt32 → Nat → Option UInt32
  | [], count, _ => some count
  | letter :: rest, count, depth =>
      if letter = '<' ∨ letter = '(' ∨ letter = '[' then
        if depth + 1 < 2 ^ 31 then countLoop rest count (depth + 1) else none
      else if letter = '>' ∨ letter = ')' ∨ letter = ']' then
        if 0 < depth then countLoop rest count (depth - 1) else some count
      else if letter = ',' then
        if depth = 0 then countLoop rest (count + 1) depth else countLoop rest count depth
      else countLoop rest count depth

/-- `sig` is the text up to its terminating zero. -/
def countParams (sig : StringRef) : Option UInt32 :=
  match sig.dropWhile (· ≠ '(') with
  | [] => some 0
  | _ :: list =>
      let p := list.dropWhile (· = ' ')
      if p.head? = some ')' then some 0
      else if "void)".toList <+: p ∨ "void )".toList <+: p then some 0
      else countLoop p 1 0

/-! ### Signatures -/

inductive BracketKind where
  | angle | round | square
  deriving DecidableEq

instance : Fintype BracketKind where
  elems := {.angle, .round, .square}
  complete := fun kind => by cases kind <;> decide

def brackets : Brackets Char BracketKind where
  opening := fun letter =>
    if letter = '<' then some .angle
    else if letter = '(' then some .round
    else if letter = '[' then some .square
    else none
  closing := fun letter =>
    if letter = '>' then some .angle
    else if letter = ')' then some .round
    else if letter = ']' then some .square
    else none
  apart := by
    intro letter
    split
    · next same => exact Or.inr (by rw [same]; rfl)
    split
    · next same => exact Or.inr (by rw [same]; rfl)
    split
    · next same => exact Or.inr (by rw [same]; rfl)
    · exact Or.inl rfl

structure ParamText where
  text : StringRef
  balanced : brackets.Balanced text
  unseparated : brackets.Unseparated ',' text

def paramList (params : List ParamText) : StringRef :=
  [','].intercalate (params.map ParamText.text)

def signature (before : StringRef) (params : List ParamText) (suffix : StringRef) : StringRef :=
  before ++ '(' :: (paramList params ++ ')' :: suffix)

/-- The number of parameters: none for an empty list or a lone `void`. -/
def paramCount : List ParamText → Nat
  | [param] => if param.text.trim = [] ∨ param.text.trim = "void".toList then 0 else 1
  | params => params.length

/-- A list that is empty or a lone `void` has no whitespace but spaces, and at most one of them
behind the `void`. -/
def PlainlySpaced (params : List ParamText) : Prop :=
  ∀ param, params = [param] →
    (param.text.trim = [] → param.text.dropWhile (· = ' ') = []) ∧
      (param.text.trim = "void".toList → param.text.dropWhile (· = ' ') = "void".toList ∨
        param.text.dropWhile (· = ' ') = "void ".toList)

section

theorem opening_isSome {letter : Char} : (brackets.opening letter).isSome = true ↔
    letter = '<' ∨ letter = '(' ∨ letter = '[' := by
  simp only [brackets]
  split
  · simp [*]
  split
  · simp [*]
  split <;> simp [*]

theorem closing_isSome {letter : Char} : (brackets.closing letter).isSome = true ↔
    letter = '>' ∨ letter = ')' ∨ letter = ']' := by
  simp only [brackets]
  split
  · simp [*]
  split
  · simp [*]
  split <;> simp [*]

theorem opening_eq_none {letter : Char} : brackets.opening letter = none ↔
    ¬(letter = '<' ∨ letter = '(' ∨ letter = '[') := by
  rw [← opening_isSome, Bool.not_eq_true, Option.isSome_eq_false_iff, Option.isNone_iff_eq_none]

theorem closing_eq_none {letter : Char} : brackets.closing letter = none ↔
    ¬(letter = '>' ∨ letter = ')' ∨ letter = ']') := by
  rw [← closing_isSome, Bool.not_eq_true, Option.isSome_eq_false_iff, Option.isNone_iff_eq_none]

/-- The loop gets through a parameter without counting anything. -/
theorem countLoop_param (param : ParamText) (shallow : brackets.Shallow (2 ^ 31) param.text)
    (rest : StringRef) (count : UInt32) :
    countLoop (param.text ++ rest) count 0 = countLoop rest count 0 := by
  refine param.balanced.scanned param.unseparated shallow
    (fun text depth => countLoop text count depth) ?_ ?_ ?_ ?_ rest
  · intro letter rest depth opening below
    rw [opening_isSome] at opening
    simp only [countLoop, if_pos opening, if_pos below]
  · intro letter rest depth closing
    have not_opening : brackets.opening letter = none := by
      refine (brackets.apart letter).resolve_right fun none_left => ?_
      rw [none_left] at closing
      cases closing
    rw [closing_isSome] at closing
    rw [opening_eq_none] at not_opening
    simp only [countLoop, if_neg not_opening, if_pos closing, if_pos (Nat.succ_pos depth),
      Nat.add_sub_cancel]
  · intro rest depth inside
    simp only [countLoop, Char.reduceEq, or_self, if_false, if_true,
      if_neg (Nat.ne_of_gt inside)]
  · intro letter rest depth opening closing other
    rw [opening_eq_none] at opening
    rw [closing_eq_none] at closing
    simp only [countLoop, if_neg opening, if_neg closing, if_neg other]

theorem countLoop_close (suffix : StringRef) (count : UInt32) :
    countLoop (')' :: suffix) count 0 = some count := by
  simp [countLoop]

theorem countLoop_comma (rest : StringRef) (count : UInt32) :
    countLoop (',' :: rest) count 0 = countLoop rest (count + 1) 0 := by
  simp [countLoop]

theorem countLoop_spaces (text : StringRef) (count : UInt32) :
    countLoop (text.dropWhile (· = ' ')) count 0 = countLoop text count 0 := by
  induction text with
  | nil => rfl
  | cons letter rest ih =>
      by_cases space : letter = ' '
      · subst space
        rw [List.dropWhile_cons_of_pos (by rfl), ih]
        simp [countLoop]
      · rw [List.dropWhile_cons_of_neg (by simpa using space)]

theorem paramList_cons (param next : ParamText) (params : List ParamText) :
    paramList (param :: next :: params) = param.text ++ ',' :: paramList (next :: params) := by
  simp [paramList, List.intercalate]

/-- Each further parameter adds one, modulo the width of the counter. -/
theorem countLoop_list (param : ParamText) (params : List ParamText)
    (shallow : ∀ param' ∈ param :: params, brackets.Shallow (2 ^ 31) param'.text)
    (suffix : StringRef) (count : UInt32) :
    countLoop (paramList (param :: params) ++ ')' :: suffix) count 0 =
      some (count + UInt32.ofNat params.length) := by
  induction params generalizing param count with
  | nil =>
      have single : paramList [param] = param.text := by simp [paramList, List.intercalate]
      rw [single, countLoop_param param (shallow param List.mem_cons_self), countLoop_close]
      simp
  | cons next params ih =>
      rw [paramList_cons, List.append_assoc, List.cons_append,
        countLoop_param param (shallow param List.mem_cons_self), countLoop_comma,
        ih next (fun other member => shallow other (List.mem_cons_of_mem _ member))]
      rw [List.length_cons, UInt32.ofNat_add, UInt32.add_assoc, UInt32.add_comm 1]
      rfl

/-! ### The beginning of the list -/

def ParamText.skipped (param : ParamText) : StringRef := param.text.dropWhile (· = ' ')

def PlainWord (word : StringRef) : Prop :=
  ∀ letter ∈ word, brackets.opening letter = none ∧ letter ≠ ')' ∧ letter ≠ ','

instance (word : StringRef) : Decidable (PlainWord word) := List.decidableBAll _ word

theorem skipped_not_closed (param : ParamText) {word : StringRef} (plain : PlainWord word) :
    ¬word ++ [')'] <+: param.skipped := by
  rintro ⟨rest, whole⟩
  let spaces := param.text.takeWhile (· = ' ')
  have split : param.text = spaces ++ param.skipped := (List.takeWhile_append_dropWhile ..).symm
  have front : spaces ++ (word ++ [')']) <+: param.text := by
    rw [split, ← whole]
    exact ⟨rest, by rw [List.append_assoc]⟩
  have bound := (param.balanced .round).1 _ front
  have none_opened : brackets.opened .round (spaces ++ (word ++ [')'])) = 0 := by
    refine List.countP_eq_zero.mpr fun letter member => ?_
    have not_opening : brackets.opening letter = none := by
      rcases List.mem_append.mp member with space | other
      · have same : letter = ' ' := by simpa using List.mem_takeWhile_imp space
        rw [same]
        rfl
      rcases List.mem_append.mp other with inside | last
      · exact (plain letter inside).1
      · rw [List.mem_singleton.mp last]
        rfl
    simp [not_opening]
  have one_closed : 1 ≤ brackets.closed .round (spaces ++ (word ++ [')'])) :=
    List.countP_pos_iff.mpr ⟨')', by simp, by decide⟩
  omega

/-- A closing parenthesis behind a plain word is the one behind the parameter. -/
theorem word_closed_iff (param : ParamText) {word more : StringRef} {last : Char}
    (plain : PlainWord word) (ends : last = ')' ∨ last = ',') :
    word ++ [')'] <+: param.skipped ++ last :: more ↔ param.skipped = word ∧ last = ')' := by
  constructor
  · intro starts
    have word_starts : word <+: param.skipped ++ last :: more :=
      (List.prefix_append word [')']).trans starts
    have param_starts : param.skipped <+: param.skipped ++ last :: more := List.prefix_append _ _
    rcases Nat.lt_or_ge word.length param.skipped.length with shorter | longer
    · refine absurd (List.prefix_of_prefix_length_le starts param_starts ?_)
        (skipped_not_closed param plain)
      rw [List.length_append, List.length_singleton]
      exact shorter
    · obtain ⟨rest, whole⟩ := List.prefix_of_prefix_length_le param_starts word_starts longer
      rw [← whole, List.append_assoc, List.prefix_append_right_inj] at starts
      cases rest with
      | nil =>
          rw [List.append_nil] at whole
          exact ⟨whole, (List.cons_prefix_cons.mp starts).1.symm⟩
      | cons letter rest =>
          have same : letter = last := (List.cons_prefix_cons.mp starts).1
          have other := (plain letter (whole ▸ List.mem_append_right _ List.mem_cons_self)).2
          rw [same] at other
          exact (ends.elim other.1 other.2).elim
  · rintro ⟨same, rfl⟩
    rw [same]
    exact ⟨more, by rw [List.append_assoc]; rfl⟩

def emptyLists : List StringRef := [[], "void".toList, "void ".toList]

theorem emptyLists_plain : ∀ word ∈ emptyLists, PlainWord word := by
  rw [emptyLists]
  simp only [List.forall_mem_cons]
  exact ⟨by decide, by decide, by decide, fun _ absent => absurd absent List.not_mem_nil⟩

theorem paramList_behind (param : ParamText) (params : List ParamText) (suffix : StringRef) :
    ∃ last more, paramList (param :: params) ++ ')' :: suffix = param.text ++ last :: more ∧
      (last = ')' ∨ last = ',') ∧ (last = ')' ↔ params = []) := by
  cases params with
  | nil => exact ⟨')', suffix, by simp [paramList, List.intercalate], Or.inl rfl, by simp⟩
  | cons next params =>
      exact ⟨',', paramList (next :: params) ++ ')' :: suffix, by
        rw [paramList_cons, List.append_assoc, List.cons_append], Or.inr rfl, by simp⟩

theorem dropWhile_behind (param : ParamText) {last : Char} (more : StringRef)
    (ends : last = ')' ∨ last = ',') :
    (param.text ++ last :: more).dropWhile (· = ' ') = param.skipped ++ last :: more := by
  have not_space : ¬decide (last = ' ') = true := by
    rcases ends with rfl | rfl <;> decide
  have kept : (last :: more).dropWhile (· = ' ') = last :: more :=
    List.dropWhile_cons_of_neg not_space
  rw [List.dropWhile_append, kept, ParamText.skipped]
  cases param.text.dropWhile (· = ' ') with
  | nil => rfl
  | cons letter rest => rfl

theorem signature_list (before : StringRef) (params : List ParamText) (suffix : StringRef)
    (first : '(' ∉ before) :
    (signature before params suffix).dropWhile (· ≠ '(') =
      '(' :: (paramList params ++ ')' :: suffix) := by
  have skipped : before.dropWhile (· ≠ '(') = [] := by
    refine List.dropWhile_eq_nil_iff.mpr fun letter member => ?_
    exact decide_eq_true fun same => first (same ▸ member)
  rw [signature, List.dropWhile_append, skipped, List.isEmpty_nil, if_pos rfl,
    List.dropWhile_cons_of_neg (by simp)]

theorem countParams_nil {before : StringRef} (suffix : StringRef) (first : '(' ∉ before) :
    countParams (signature before [] suffix) = some 0 := by
  rw [countParams, signature_list before [] suffix first]
  rfl

/-- Only a first parameter that is alone can end the count before the loop. -/
theorem countParams_cons {before : StringRef} (param : ParamText) (params : List ParamText)
    (suffix : StringRef) (first : '(' ∉ before)
    (shallow : ∀ other ∈ param :: params, brackets.Shallow (2 ^ 31) other.text) :
    countParams (signature before (param :: params) suffix) =
      if params = [] ∧ param.skipped ∈ emptyLists then some 0
      else some (UInt32.ofNat (params.length + 1)) := by
  obtain ⟨last, more, whole, ends, closes⟩ := paramList_behind param params suffix
  have word : ∀ word ∈ emptyLists, word ++ [')'] <+: param.skipped ++ last :: more ↔
      params = [] ∧ param.skipped = word := by
    intro word member
    rw [word_closed_iff param (emptyLists_plain word member) ends, closes, and_comm]
  have empty := word [] (by decide)
  have void : "void)".toList <+: param.skipped ++ last :: more ↔
      params = [] ∧ param.skipped = "void".toList := word "void".toList (by decide)
  have spaced : "void )".toList <+: param.skipped ++ last :: more ↔
      params = [] ∧ param.skipped = "void ".toList := word "void ".toList (by decide)
  have head : (param.skipped ++ last :: more).head? = some ')' ↔
      [] ++ [')'] <+: param.skipped ++ last :: more := by
    cases param.skipped ++ last :: more with
    | nil => simp
    | cons letter rest => simp [List.cons_prefix_cons, eq_comm]
  have counted := countLoop_list param params shallow suffix 1
  rw [← countLoop_spaces, whole, dropWhile_behind param more ends] at counted
  rw [countParams, signature_list before _ suffix first]
  simp only [whole, dropWhile_behind param more ends]
  by_cases early : params = [] ∧ param.skipped ∈ emptyLists
  · rw [if_pos early]
    obtain ⟨alone, listed⟩ := early
    simp only [emptyLists, List.mem_cons, List.not_mem_nil, or_false] at listed
    rcases listed with same | same | same
    · rw [if_pos (head.mpr (empty.mpr ⟨alone, same⟩))]
    · rw [if_pos (Or.inl (void.mpr ⟨alone, same⟩)), ite_self]
    · rw [if_pos (Or.inr (spaced.mpr ⟨alone, same⟩)), ite_self]
  · rw [if_neg early]
    have listed : ∀ word ∈ emptyLists, ¬(params = [] ∧ param.skipped = word) := by
      rintro word member ⟨alone, same⟩
      exact early ⟨alone, same ▸ member⟩
    have not_empty : ¬(param.skipped ++ last :: more).head? = some ')' :=
      fun closed => listed [] (by decide) (empty.mp (head.mp closed))
    have not_void : ¬("void)".toList <+: param.skipped ++ last :: more ∨
        "void )".toList <+: param.skipped ++ last :: more) := by
      rintro (closed | closed)
      · exact listed "void".toList (by decide) (void.mp closed)
      · exact listed "void ".toList (by decide) (spaced.mp closed)
    rw [if_neg not_empty, if_neg not_void, counted, UInt32.add_comm, UInt32.ofNat_add]
    rfl

/-! ### The count -/

theorem trim_skipped (param : ParamText) : param.skipped.trim = param.text.trim := by
  have same : ∀ text : StringRef, (text.dropWhile (· = ' ')).dropWhile
      (fun c : Char => c ∈ [' ', '\t', '\n', '\x0b', '\x0c', '\r']) =
        text.dropWhile (fun c : Char => c ∈ [' ', '\t', '\n', '\x0b', '\x0c', '\r']) := by
    intro text
    induction text with
    | nil => rfl
    | cons letter rest ih =>
        by_cases space : letter = ' '
        · subst space
          rw [List.dropWhile_cons_of_pos (by rfl), List.dropWhile_cons_of_pos (by decide)]
          exact ih
        · rw [List.dropWhile_cons_of_neg (by simpa using space)]
  simp only [StringRef.trim, ParamText.skipped, same]

theorem mem_emptyLists_iff (param : ParamText) (spaced : PlainlySpaced [param]) :
    param.skipped ∈ emptyLists ↔ param.text.trim = [] ∨ param.text.trim = "void".toList := by
  obtain ⟨blank, void⟩ := spaced param rfl
  simp only [emptyLists, List.mem_cons, List.not_mem_nil, or_false]
  constructor
  · rintro (same | same | same)
    · exact Or.inl (by rw [← trim_skipped, same]; decide)
    · exact Or.inr (by rw [← trim_skipped, same]; decide)
    · exact Or.inr (by rw [← trim_skipped, same]; decide)
  · rintro (trimmed | trimmed)
    · exact Or.inl (blank trimmed)
    · exact Or.inr (void trimmed)

def Counted (before : StringRef) (params : List ParamText) (suffix : StringRef) : Prop :=
  (countParams (signature before params suffix)).map UInt32.toNat = some (paramCount params)

instance (before : StringRef) (params : List ParamText) (suffix : StringRef) :
    Decidable (Counted before params suffix) :=
  inferInstanceAs (Decidable (_ = _))

/-- Whatever is nested in the parameters and follows the list, `countParams` returns their
number, as long as its two integers hold what they count. -/
theorem countParams_counted (before : StringRef) (params : List ParamText) (suffix : StringRef)
    (first : '(' ∉ before) (few : params.length < 2 ^ 32)
    (shallow : ∀ param ∈ params, brackets.Shallow (2 ^ 31) param.text)
    (spaced : PlainlySpaced params) : Counted before params suffix := by
  cases params with
  | nil =>
      rw [Counted, countParams_nil suffix first]
      rfl
  | cons param params =>
      rw [Counted, countParams_cons param params suffix first shallow]
      have whole : (UInt32.ofNat (params.length + 1)).toNat = params.length + 1 :=
        UInt32.toNat_ofNat_of_lt' few
      cases params with
      | nil =>
          have listed := mem_emptyLists_iff param spaced
          by_cases empty : param.text.trim = [] ∨ param.text.trim = "void".toList
          · rw [if_pos ⟨rfl, listed.mpr empty⟩, paramCount, if_pos empty]
            rfl
          · rw [if_neg fun both => empty (listed.mp both.2), paramCount, if_neg empty]
            rfl
      | cons next params =>
          rw [if_neg fun both => List.cons_ne_nil next params both.1, Option.map_some, whole]
          rfl

end

/-- A map, a pointer to a function that takes an array, and a suffix with brackets. -/
theorem countParams_counted_nested :
    Counted "void f".toList
      [⟨"std::map<int, int>&".toList, by decide, by decide⟩,
        ⟨" void (*)(int, int [2])".toList, by decide, by decide⟩]
      " [with T = A<int, (B)0>]".toList :=
  countParams_counted _ _ _ (by decide) (by decide) (by decide)
    (fun _ alone => nomatch alone)

def nestedText (levels : Nat) : StringRef :=
  List.replicate levels '(' ++ List.replicate levels ')'

theorem nestedText_balanced (levels : Nat) : brackets.Balanced (nestedText levels) := by
  induction levels with
  | zero => exact Brackets.Balanced.nil
  | succ levels ih =>
      have wrapped := ih.wrapped (show brackets.opening '(' = some .round from rfl)
        (show brackets.closing ')' = some .round from rfl)
      rw [nestedText, List.replicate_succ, List.replicate_succ', ← List.append_assoc]
      exact wrapped

def nestedParam (levels : Nat) : ParamText where
  text := nestedText levels
  balanced := nestedText_balanced levels
  unseparated := by
    intro front within
    have member : ',' ∈ nestedText levels := within.subset (by simp)
    simp [nestedText] at member

theorem countLoop_overflow (levels : Nat) (rest : StringRef) (count : UInt32) (depth : Nat)
    (inside : depth < 2 ^ 31) (deep : 2 ^ 31 ≤ depth + levels) :
    countLoop (List.replicate levels '(' ++ rest) count depth = none := by
  induction levels generalizing depth with
  | zero => omega
  | succ levels ih =>
      rw [List.replicate_succ, List.cons_append, countLoop, if_pos (Or.inr (Or.inl rfl))]
      by_cases below : depth + 1 < 2 ^ 31
      · rw [if_pos below]
        exact ih (depth + 1) below (by omega)
      · rw [if_neg below]

/-- Brackets nested deeper than an `int` counts. -/
theorem not_counted_deep (levels : Nat) (deep : 2 ^ 31 ≤ levels) :
    ¬Counted [] [nestedParam levels] [] := by
  have overflow := countLoop_overflow levels (List.replicate levels ')' ++ [')']) 1 0 (by decide)
    (by rw [Nat.zero_add]; exact deep)
  obtain ⟨inner, rfl⟩ : ∃ inner, levels = inner + 1 := ⟨levels - 1, by omega⟩
  have undefined : countParams (signature [] [nestedParam (inner + 1)] []) = none := by
    rw [countParams, signature_list [] _ [] List.not_mem_nil]
    simp only [paramList, List.map_cons, List.map_nil, List.intercalate_singleton, nestedParam,
      nestedText, List.append_assoc]
    rw [List.replicate_succ, List.cons_append] at overflow ⊢
    rw [List.dropWhile_cons_of_neg (by decide), if_neg (by simp), if_neg]
    · exact overflow
    · rintro (starts | starts)
      · exact absurd (List.cons_prefix_cons.mp starts).1 (by decide)
      · exact absurd (List.cons_prefix_cons.mp starts).1 (by decide)
  rw [Counted, undefined]
  exact nofun

def typeParam : ParamText := ⟨['T'], by decide, by decide⟩

/-- More parameters than an `unsigned` counts. -/
theorem not_counted_many (number : Nat) (many : 2 ^ 32 ≤ number) :
    ¬Counted [] (List.replicate number typeParam) [] := by
  obtain ⟨rest, rfl⟩ : ∃ rest, number = rest + 2 := ⟨number - 2, by omega⟩
  have shallow : ∀ other ∈ List.replicate (rest + 2) typeParam,
      brackets.Shallow (2 ^ 31) other.text := by
    intro other member
    rw [(List.mem_replicate.mp member).2]
    decide
  have counted : countParams (signature [] (List.replicate (rest + 2) typeParam) []) =
      some (UInt32.ofNat (rest + 2)) := by
    rw [List.replicate_succ] at shallow ⊢
    rw [countParams_cons _ _ _ List.not_mem_nil shallow, List.length_replicate, if_neg]
    rintro ⟨none_left, -⟩
    cases none_left
  have number : paramCount (List.replicate (rest + 2) typeParam) = rest + 2 := by
    rw [List.replicate_succ, List.replicate_succ, paramCount, List.length_cons, List.length_cons,
      List.length_replicate]
    intro param alone
    cases alone
  rw [Counted, counted, number, Option.map_some]
  intro same
  have small := (UInt32.ofNat (rest + 2)).toNat_lt
  rw [Option.some.inj same] at small
  omega

/-- A `void` with two spaces behind it, too many parameters and brackets nested too deep. -/
theorem countParams_miscounted :
    ¬Counted "void f".toList [⟨"void  ".toList, by decide, by decide⟩] [] ∧
      ¬Counted [] (List.replicate (2 ^ 32) typeParam) [] ∧
      ¬Counted [] [nestedParam (2 ^ 31)] [] :=
  ⟨by decide, not_counted_many _ (Nat.le_refl _), not_counted_deep _ (Nat.le_refl _)⟩

end CppInterOp
