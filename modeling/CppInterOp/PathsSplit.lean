import CppInterOp.PathsCore

/-!
What `SplitPaths` yields against the components of the path list, and for which calls it
ends.
-/

namespace CppInterOp

open Delimiters Looping

section

variable {Delim : StringRef}

variable (nonempty : Delim ≠ [])
include nonempty

/-- Nothing stands behind the first delimiter when at most an empty piece does. -/
theorem split_ended {text : StringRef} : (text.split Delim).2 = [] ↔
    (pieces nonempty text).tail = [] ∨ (pieces nonempty text).tail = [[]] := by
  cases found : splitAtFirst Delim text with
  | none =>
      rw [split_none found, pieces_last nonempty found]
      simp
  | some parts =>
      rw [split_some found, pieces_more nonempty found, List.tail_cons,
        pieces_eq_singleton_nil]
      constructor
      · exact Or.inr
      · rintro (none | empty)
        · exact absurd none (pieces_ne_nil nonempty _)
        · exact empty

/-- Behind the outer loop one component is left, the string without a trailing delimiter. -/
theorem last_component {PathStr : StringRef} (ended : (PathStr.split Delim).2 = []) :
    filledPieces nonempty PathStr =
      [if PathStr ≠ [] ∧ Delim <:+ PathStr then PathStr.take (PathStr.length - Delim.length)
        else PathStr].filter (· ≠ []) := by
  cases found : splitAtFirst Delim PathStr with
  | none =>
      have absent := splitAtFirst_none nonempty found
      rw [if_neg fun trailing => absent trailing.2.isInfix, filledPieces,
        pieces_last nonempty found]
  | some parts =>
      obtain ⟨before, behind⟩ := parts
      rw [split_some found] at ended
      obtain rfl : behind = [] := ended
      have whole := splitAtFirst_some found
      rw [List.append_nil] at whole
      have trailing : PathStr ≠ [] ∧ Delim <:+ PathStr := by
        rw [whole]
        exact ⟨fun empty => nonempty (List.append_eq_nil_iff.mp empty).2, List.suffix_append _ _⟩
      have cut : PathStr.take (PathStr.length - Delim.length) = before := by
        rw [whole, List.length_append, Nat.add_sub_cancel, List.take_left]
      rw [if_pos trailing, cut, filledPieces_more nonempty found, filledPieces_nil, List.append_nil]

end

section

variable (is_directory : StringRef → Bool) (Mode : SplitMode) (Verbose : Bool)

def SplitMode.kept (parts : List StringRef) : List StringRef :=
  if Mode = .kAllowNonExistent then parts else parts.filter is_directory

def SplitMode.missing (parts : List StringRef) : List LogLine :=
  if Mode ≠ .kAllowNonExistent ∧ Verbose then
    (parts.filter fun part => !is_directory part).map .nonexistent
  else []

/-- What a call yields for these components when it does not stop at a missing one. -/
def splitOutcome (parts Paths : List StringRef) (AllExisted : Bool) (logged : List LogLine) :
    SplitResult :=
  ⟨Paths ++ Mode.kept is_directory parts, AllExisted && parts.all is_directory,
    logged ++ Mode.missing is_directory Verbose parts⟩

@[simp] theorem splitOutcome_nil (Paths : List StringRef) (AllExisted : Bool)
    (logged : List LogLine) :
    splitOutcome is_directory Mode Verbose [] Paths AllExisted logged =
      ⟨Paths, AllExisted, logged⟩ := by
  simp [splitOutcome, SplitMode.kept, SplitMode.missing]

theorem splitOutcome_append (front back Paths : List StringRef) (AllExisted : Bool)
    (logged : List LogLine) :
    splitOutcome is_directory Mode Verbose (front ++ back) Paths AllExisted logged =
      splitOutcome is_directory Mode Verbose back (Paths ++ Mode.kept is_directory front)
        (AllExisted && front.all is_directory)
        (logged ++ Mode.missing is_directory Verbose front) := by
  simp only [splitOutcome, SplitMode.kept, SplitMode.missing, List.all_append, Bool.and_assoc,
    List.append_assoc, List.filter_append, List.map_append]
  split <;> split <;> rfl

variable {Delim : StringRef} (nonempty : Delim ≠ [])
include nonempty

theorem splitLast_outcome {PathStr : StringRef} (ended : (PathStr.split Delim).2 = [])
    (Paths : List StringRef) (AllExisted : Bool) (logged : List LogLine) :
    splitLast is_directory Mode Delim Verbose PathStr Paths AllExisted logged =
      splitOutcome is_directory Mode Verbose (filledPieces nonempty PathStr) Paths AllExisted
        logged := by
  rw [last_component nonempty ended, splitLast]
  generalize (if PathStr ≠ [] ∧ Delim <:+ PathStr then
    PathStr.take (PathStr.length - Delim.length) else PathStr) = last
  by_cases empty : last = []
  · simp [empty]
  · by_cases present : is_directory last
    · simp [empty, present, splitOutcome, SplitMode.kept, SplitMode.missing]
    · by_cases allow : Mode = .kAllowNonExistent
      · simp [empty, present, allow, splitOutcome, SplitMode.kept, SplitMode.missing]
      · cases Verbose <;>
          simp [empty, present, allow, splitOutcome, SplitMode.kept, SplitMode.missing]

omit nonempty in
theorem splitTurn_ended {PathStr : StringRef} (ended : (PathStr.split Delim).2 = [])
    (Paths : List StringRef) (AllExisted : Bool) (logged : List LogLine) :
    splitTurn is_directory Mode Delim Verbose (.outer PathStr Paths AllExisted logged) =
      .leave (splitLast is_directory Mode Delim Verbose PathStr Paths AllExisted logged) := by
  simp only [splitTurn, if_pos ended]

omit nonempty in
theorem splitTurn_component (tolerant : Mode ≠ .kFailNonExistent)
    {PathStr before behind : StringRef}
    (found : splitAtFirst Delim PathStr = some (before, behind)) (more : behind ≠ [])
    (Paths : List StringRef) (AllExisted : Bool) (logged : List LogLine) :
    splitTurn is_directory Mode Delim Verbose (.outer PathStr Paths AllExisted logged) =
      .again (.outer behind (Paths ++ Mode.kept is_directory ([before].filter (· ≠ [])))
        (AllExisted && ([before].filter (· ≠ [])).all is_directory)
        (logged ++ Mode.missing is_directory Verbose ([before].filter (· ≠ [])))) := by
  simp only [splitTurn, split_some found, if_neg more]
  by_cases empty : before = []
  · simp [empty, SplitMode.kept, SplitMode.missing]
  · by_cases present : is_directory before
    · simp [empty, present, SplitMode.kept, SplitMode.missing]
    · cases Mode with
      | kFailNonExistent => exact absurd rfl tolerant
      | kAllowNonExistent => simp [empty, present, SplitMode.kept, SplitMode.missing]
      | kPruneNonExistent =>
          cases Verbose <;> simp [empty, present, SplitMode.kept, SplitMode.missing]

theorem iterate_splitTurn (tolerant : Mode ≠ .kFailNonExistent) (PathStr : StringRef)
    {turns : Nat} (enough : PathStr.length < turns) (Paths : List StringRef) (AllExisted : Bool)
    (logged : List LogLine) :
    iterate (splitTurn is_directory Mode Delim Verbose) turns
        (.outer PathStr Paths AllExisted logged) =
      some (splitOutcome is_directory Mode Verbose (filledPieces nonempty PathStr) Paths AllExisted
        logged) := by
  induction turns generalizing PathStr Paths AllExisted logged with
  | zero => cases enough
  | succ turns ih =>
      by_cases ended : (PathStr.split Delim).2 = []
      · have left := splitTurn_ended is_directory Mode Verbose ended Paths AllExisted logged
        simp only [iterate, left]
        rw [splitLast_outcome is_directory Mode Verbose nonempty ended]
      · cases found : splitAtFirst Delim PathStr with
        | none => exact absurd (by rw [split_none found]) ended
        | some parts =>
            obtain ⟨before, behind⟩ := parts
            rw [split_some found] at ended
            have shorter := splitAtFirst_shorter nonempty found
            have round := splitTurn_component is_directory Mode Verbose tolerant found
              ended Paths AllExisted logged
            simp only [iterate, round]
            rw [ih behind (by omega), filledPieces_more nonempty found, splitOutcome_append]

theorem SplitPaths_outcome (tolerant : Mode ≠ .kFailNonExistent) (PathStr : StringRef)
    (Paths : List StringRef) :
    SplitPaths is_directory Mode Delim Verbose PathStr Paths
      (splitOutcome is_directory Mode Verbose (filledPieces nonempty PathStr) Paths true []) :=
  ⟨PathStr.length + 1,
    iterate_splitTurn is_directory Mode Verbose nonempty tolerant PathStr (by omega) Paths true []⟩

end

/-- `kAllowNonExistent` adds the components of the path list, `kPruneNonExistent` those that
are directories, and both return whether all of them are. -/
theorem SplitPaths_content (is_directory : StringRef → Bool) {Delim : StringRef}
    (nonempty : Delim ≠ []) (Verbose : Bool) (PathStr : StringRef) (Paths : List StringRef) :
    (∃ result, (∀ other, SplitPaths is_directory .kAllowNonExistent Delim Verbose PathStr Paths
        other ↔ other = result) ∧
      result.Paths = Paths ++ filledPieces nonempty PathStr ∧
      (result.AllExisted = true ↔
        ∀ part ∈ filledPieces nonempty PathStr, is_directory part = true)) ∧
    (∃ result, (∀ other, SplitPaths is_directory .kPruneNonExistent Delim Verbose PathStr Paths
        other ↔ other = result) ∧
      result.Paths = Paths ++ (filledPieces nonempty PathStr).filter is_directory ∧
      (result.AllExisted = true ↔
        ∀ part ∈ filledPieces nonempty PathStr, is_directory part = true)) := by
  have only : ∀ Mode : SplitMode, Mode ≠ .kFailNonExistent → ∀ other,
      SplitPaths is_directory Mode Delim Verbose PathStr Paths other ↔
        other = splitOutcome is_directory Mode Verbose (filledPieces nonempty PathStr) Paths true
          [] := by
    intro Mode tolerant other
    have ended := SplitPaths_outcome is_directory Mode Verbose nonempty tolerant PathStr Paths
    constructor
    · intro also
      exact Ends.unique also ended
    · rintro rfl
      exact ended
  refine ⟨⟨_, only .kAllowNonExistent (by simp), ?_, ?_⟩,
    ⟨_, only .kPruneNonExistent (by simp), ?_, ?_⟩⟩
  · simp [splitOutcome, SplitMode.kept]
  · simp [splitOutcome]
  · simp [splitOutcome, SplitMode.kept]
  · simp [splitOutcome]

theorem SplitPaths_content_overlapping :
    (∃ result, (∀ other, SplitPaths (· == ['x']) .kAllowNonExistent ['a', 'a'] false
        ['a', 'a', 'x', 'a', 'a', 'a'] [] other ↔ other = result) ∧
      result.Paths = [['x'], ['a']] ∧ result.AllExisted = false) := by
  have content := (SplitPaths_content (· == ['x']) (List.cons_ne_nil 'a' ['a']) false
    ['a', 'a', 'x', 'a', 'a', 'a'] []).1
  have parts : filledPieces (List.cons_ne_nil 'a' ['a']) ['a', 'a', 'x', 'a', 'a', 'a'] =
      [['x'], ['a']] := by
    have first : splitAtFirst ['a', 'a'] ['a', 'a', 'x', 'a', 'a', 'a'] =
        some ([], ['x', 'a', 'a', 'a']) := by decide
    have second : splitAtFirst ['a', 'a'] ['x', 'a', 'a', 'a'] = some (['x'], ['a']) := by decide
    rw [filledPieces_more _ first, filledPieces_more _ second, filledPieces, pieces_last _ (by decide)]
    decide
  rw [parts] at content
  obtain ⟨result, only, added, flag⟩ := content
  exact ⟨result, only, added, by simpa using flag⟩

/-- The first component that is missing has behind it a component with more text following,
so that the loop which logs the rest has work left after its first round. -/
def logsForever (is_directory : StringRef → Bool) : List StringRef → Bool
  | [] => false
  | part :: rest =>
      if part = [] ∨ is_directory part then logsForever is_directory rest
      else decide (rest.tail ≠ [] ∧ rest.tail ≠ [[]])

section

variable (is_directory : StringRef → Bool) (Mode : SplitMode) (Delim : StringRef)
  (Verbose : Bool)

/-- The loop that logs the rest always comes back to what follows the first component. -/
theorem splitTurn_inner (PathStr : StringRef) (Paths : List StringRef)
    {Split : StringRef × StringRef} (more : Split.2 ≠ []) (logged : List LogLine) :
    ∃ later, splitTurn is_directory Mode Delim Verbose (.inner PathStr Paths Split logged) =
      .again (.inner PathStr Paths ((PathStr.split Delim).2.split Delim) later) := by
  simp only [splitTurn, if_neg more]
  exact ⟨_, rfl⟩

variable {Delim}

theorem inner_ends_iff {PathStr : StringRef} (more : (PathStr.split Delim).2 ≠ [])
    (Paths : List StringRef) (logged : List LogLine) :
    (∃ result, Ends (splitTurn is_directory Mode Delim Verbose)
        (.inner PathStr Paths (PathStr.split Delim) logged) result) ↔
      ((PathStr.split Delim).2.split Delim).2 = [] := by
  obtain ⟨later, round⟩ :=
    splitTurn_inner is_directory Mode Delim Verbose PathStr Paths more logged
  simp only [ends_again_iff round]
  constructor
  · rintro ⟨result, ended⟩
    by_contra stuck
    refine never_ends (fun place => ∃ lines, place =
      SplitAt.inner PathStr Paths ((PathStr.split Delim).2.split Delim) lines) ?_ ⟨later, rfl⟩ result ended
    rintro place ⟨lines, rfl⟩
    obtain ⟨others, again⟩ :=
      splitTurn_inner is_directory Mode Delim Verbose PathStr Paths stuck lines
    exact ⟨_, again, others, rfl⟩
  · intro ended
    have left : ∃ result, splitTurn is_directory Mode Delim Verbose
        (.inner PathStr Paths ((PathStr.split Delim).2.split Delim) later) = .leave result := by
      simp only [splitTurn, if_pos ended]
      exact ⟨_, rfl⟩
    obtain ⟨result, left⟩ := left
    exact ⟨result, ends_of_leave left⟩

variable (nonempty : Delim ≠ [])
include nonempty

theorem logsForever_ended {PathStr : StringRef} (ended : (PathStr.split Delim).2 = []) :
    logsForever is_directory (pieces nonempty PathStr) = false := by
  have tails := (split_ended nonempty).mp ended
  cases listed : pieces nonempty PathStr with
  | nil => rfl
  | cons part rest =>
      rw [listed, List.tail_cons] at tails
      rcases tails with rfl | rfl
      · simp [logsForever]
      · simp [logsForever]

/-- In the failing mode a call does not end exactly when it has to log and logs forever. -/
theorem failing_ends_iff (PathStr : StringRef) (Paths : List StringRef) (AllExisted : Bool)
    (logged : List LogLine) :
    (∃ result, Ends (splitTurn is_directory .kFailNonExistent Delim Verbose)
        (.outer PathStr Paths AllExisted logged) result) ↔
      ¬(Verbose = true ∧ logsForever is_directory (pieces nonempty PathStr) = true) := by
  induction PathStr using pieces.induct nonempty generalizing Paths AllExisted logged with
  | case1 PathStr absent =>
      have ended : (StringRef.split PathStr Delim).2 = [] := by rw [split_none absent]
      rw [logsForever_ended is_directory nonempty ended]
      have left := splitTurn_ended is_directory .kFailNonExistent Verbose ended Paths AllExisted
        logged
      exact iff_of_true ⟨_, ends_of_leave left⟩ (by simp)
  | case2 PathStr before behind found ih =>
      by_cases ended : (StringRef.split PathStr Delim).2 = []
      · rw [logsForever_ended is_directory nonempty ended]
        have left := splitTurn_ended is_directory .kFailNonExistent Verbose ended Paths
          AllExisted logged
        exact iff_of_true ⟨_, ends_of_leave left⟩ (by simp)
      · have parts := split_some found
        have more : behind ≠ [] := by
          rw [parts] at ended
          exact ended
        rw [pieces_more nonempty found, logsForever]
        by_cases passed : before = [] ∨ is_directory before = true
        · rw [if_pos passed]
          have round : ∃ kept, splitTurn is_directory .kFailNonExistent Delim Verbose
              (.outer PathStr Paths AllExisted logged) =
                .again (.outer behind kept AllExisted logged) := by
            simp only [splitTurn, parts, if_neg more]
            rcases passed with empty | present
            · exact ⟨_, by rw [if_pos empty]⟩
            · by_cases empty : before = []
              · exact ⟨_, by rw [if_pos empty]⟩
              · exact ⟨_, by rw [if_neg empty, if_pos present]⟩
          obtain ⟨kept, round⟩ := round
          simp only [ends_again_iff round]
          exact ih kept AllExisted logged
        · rw [if_neg passed]
          obtain ⟨text, missing⟩ := not_or.mp passed
          cases Verbose with
          | false =>
              have left : splitTurn is_directory .kFailNonExistent Delim false
                  (.outer PathStr Paths AllExisted logged) = .leave ⟨Paths, false, logged⟩ := by
                simp [splitTurn, parts, more, text, missing]
              exact iff_of_true ⟨_, ends_of_leave left⟩ (by simp)
          | true =>
              have round : splitTurn is_directory .kFailNonExistent Delim true
                  (.outer PathStr Paths AllExisted logged) =
                    .again (.inner PathStr Paths (StringRef.split PathStr Delim)
                      (logged ++ [.nonexistent before])) := by
                simp [splitTurn, parts, more, text, missing]
              simp only [ends_again_iff round]
              rw [inner_ends_iff is_directory _ _ ended, parts, split_ended nonempty]
              simp only [true_and, decide_eq_true_eq]
              tauto

end

/-- A call ends unless it is to fail verbosely and the first missing component has behind it
another component and then more text. -/
theorem SplitPaths_ends_iff (is_directory : StringRef → Bool) (Mode : SplitMode)
    {Delim : StringRef} (nonempty : Delim ≠ []) (Verbose : Bool) (PathStr : StringRef)
    (Paths : List StringRef) :
    (∃ result, SplitPaths is_directory Mode Delim Verbose PathStr Paths result) ↔
      ¬(Mode = .kFailNonExistent ∧ Verbose = true ∧
        logsForever is_directory (pieces nonempty PathStr) = true) := by
  by_cases failing : Mode = .kFailNonExistent
  · subst failing
    rw [show (∃ result, SplitPaths is_directory .kFailNonExistent Delim Verbose PathStr Paths
      result) ↔ _ from failing_ends_iff is_directory Verbose nonempty PathStr Paths true []]
    simp
  · exact iff_of_true
      ⟨_, SplitPaths_outcome is_directory Mode Verbose nonempty failing PathStr Paths⟩
      (fun stuck => failing stuck.1)

theorem SplitPaths_ends_trailing :
    ∃ result, SplitPaths (fun _ => false) .kFailNonExistent [':'] true ['a', ':', 'b', ':'] []
      result := by
  have first : splitAtFirst [':'] ['a', ':', 'b', ':'] = some (['a'], ['b', ':']) := by decide
  have second : splitAtFirst [':'] ['b', ':'] = some (['b'], []) := by decide
  refine (SplitPaths_ends_iff (fun _ => false) .kFailNonExistent (List.cons_ne_nil ':' []) true
    ['a', ':', 'b', ':'] []).mpr ?_
  rw [pieces_more _ first, pieces_more _ second, pieces_nil]
  decide

/-- Three missing directories, to be logged before the call fails. -/
theorem SplitPaths_logs_forever :
    ¬∀ (is_directory : StringRef → Bool) (Mode : SplitMode) (Delim : StringRef) (Verbose : Bool)
      (PathStr : StringRef) (Paths : List StringRef), Delim ≠ [] →
      ∃ result, SplitPaths is_directory Mode Delim Verbose PathStr Paths result := by
  intro always
  obtain ⟨result, ended⟩ := always (fun _ => false) .kFailNonExistent [':'] true
    ['a', ':', 'b', ':', 'c'] [] (List.cons_ne_nil ':' [])
  have nonempty := List.cons_ne_nil ':' []
  have first : splitAtFirst [':'] ['a', ':', 'b', ':', 'c'] = some (['a'], ['b', ':', 'c']) := by
    decide
  have second : splitAtFirst [':'] ['b', ':', 'c'] = some (['b'], ['c']) := by decide
  refine (failing_ends_iff (fun _ => false) true nonempty ['a', ':', 'b', ':', 'c'] [] true
    []).mp ⟨result, ended⟩ ?_
  rw [pieces_more _ first, pieces_more _ second, pieces_last _ (by decide)]
  decide

end CppInterOp
