import Mathlib
import CppInterOp.Basic
import CppInterOp.Library.Runs
import CppInterOp.PathsSplit

/-!
The header search list under `AddIncludePaths` and `AddIncludePath`: what a call adds, and
when the list stays free of duplicates.
-/

namespace CppInterOp

open Delimiters Looping Runs

section

variable (is_directory : StringRef → Bool)

/-- The paths of a request; `SplitPaths` ends here within a turn for each character. -/
def requestedPaths (PathStr : StringRef) (Verbose : Bool) : Option StringRef → List StringRef
  | some (first :: rest) =>
      let ended := iterate (splitTurn is_directory .kAllowNonExistent (first :: rest) Verbose)
        (PathStr.length + 1) (.outer PathStr [] true [])
      (ended.map (·.Paths)).getD []
  | _ => [PathStr]

def AddIncludePaths (PathStr : StringRef) (HOpts : HeaderSearchOptions)
    (Delim : Option StringRef) : HeaderSearchOptions :=
  let Paths := requestedPaths is_directory PathStr HOpts.Verbose Delim
  -- what is checked against is the list as it was before the call
  let PathsChecked := Paths.filter fun Path => !HOpts.UserEntries.any fun E => E.Path = Path
  PathsChecked.foldl (fun HOpts Path => HOpts.AddPath Path .Angled false true) HOpts

end

/-- `clang::DirectoryLookup` with the flag it is given to `HeaderSearch::AddSearchPath` with. -/
structure DirectoryLookup where
  directory : Address
  isFramework : Bool
  isAngled : Bool
  deriving DecidableEq

structure CompilerIncludes where
  HOpts : HeaderSearchOptions
  HSearch : List DirectoryLookup
  deriving DecidableEq

inductive IncludeCall where
  | AddIncludePaths (PathsStr : StringRef) (Delim : Option StringRef)
  | AddIncludePath (PathsStr : StringRef)
  deriving DecidableEq

namespace IncludeCall

def PathsStr : IncludeCall → StringRef
  | AddIncludePaths PathsStr _ => PathsStr
  | AddIncludePath PathsStr => PathsStr

def Delim : IncludeCall → Option StringRef
  | AddIncludePaths _ Delim => Delim
  | AddIncludePath _ => none

def asked : IncludeCall → List StringRef
  | AddIncludePaths PathsStr (some (first :: rest)) =>
      filledPieces (List.cons_ne_nil first rest) PathsStr
  | AddIncludePaths PathsStr _ => [PathsStr]
  | AddIncludePath PathsStr => [PathsStr]

end IncludeCall

section

variable (is_directory : StringRef → Bool)
  (getOptionalDirectoryRef : StringRef → Option Address)

/-- `Interpreter::AddIncludePaths`; `AddIncludePath` calls it with no delimiter. -/
def CompilerIncludes.step (CI : CompilerIncludes) (call : IncludeCall) : CompilerIncludes :=
  let HOpts := AddIncludePaths is_directory call.PathsStr CI.HOpts call.Delim
  let added := HOpts.UserEntries.drop CI.HOpts.UserEntries.length
  { HOpts, HSearch := CI.HSearch ++ added.filterMap fun E =>
      (getOptionalDirectoryRef E.Path).map fun DE => ⟨DE, false, decide (E.Group = .Angled)⟩ }

end

def CompilerIncludes.fresh (CI : CompilerIncludes) (call : IncludeCall) : List StringRef :=
  call.asked.filter fun Path => Path ∉ CI.HOpts.paths

/-- No path that the list does not hold is asked for twice. -/
def CompilerIncludes.AsksOnce (CI : CompilerIncludes) (call : IncludeCall) : Prop :=
  ∀ Path ∈ call.asked, Path ∉ CI.HOpts.paths → call.asked.count Path = 1

instance (CI : CompilerIncludes) (call : IncludeCall) : Decidable (CI.AsksOnce call) :=
  inferInstanceAs (Decidable (∀ Path ∈ call.asked, _))

/-- What a call is to do to the list: it keeps the entries in front, ends with every path that
was asked for and with no path twice. -/
def CompilerIncludes.KeepsDistinct (call : IncludeCall) (before after : CompilerIncludes) :
    Prop :=
  before.HOpts.UserEntries <+: after.HOpts.UserEntries ∧
    (∀ Path ∈ call.asked, Path ≠ [] → Path ∈ after.HOpts.paths) ∧ after.HOpts.paths.Nodup

section

variable (is_directory : StringRef → Bool)

theorem requestedPaths_asked (call : IncludeCall) (Verbose : Bool) :
    requestedPaths is_directory call.PathsStr Verbose call.Delim = call.asked := by
  have split : ∀ (PathsStr : StringRef) (first : Char) (rest : StringRef),
      requestedPaths is_directory PathsStr Verbose (some (first :: rest)) =
        filledPieces (List.cons_ne_nil first rest) PathsStr := by
    intro PathsStr first rest
    have ended := iterate_splitTurn is_directory .kAllowNonExistent Verbose
      (List.cons_ne_nil first rest) (by simp) PathsStr (Nat.lt_succ_self _) [] true []
    simp only [requestedPaths, ended, Option.map_some, Option.getD_some]
    simp [splitOutcome, SplitMode.kept]
  cases call with
  | AddIncludePath PathsStr => rfl
  | AddIncludePaths PathsStr Delim =>
      cases Delim with
      | none => rfl
      | some Delim =>
          cases Delim with
          | nil => rfl
          | cons first rest => exact split PathsStr first rest

theorem foldl_AddPath (Paths : List StringRef) (HOpts : HeaderSearchOptions) :
    Paths.foldl (fun HOpts Path => HOpts.AddPath Path .Angled false true) HOpts =
      { HOpts with
        UserEntries := HOpts.UserEntries ++ Paths.map fun Path => ⟨Path, .Angled, false, true⟩ } := by
  induction Paths generalizing HOpts with
  | nil => simp
  | cons Path Paths ih =>
      rw [List.foldl_cons, ih]
      simp [HeaderSearchOptions.AddPath]

theorem AddIncludePaths_entries (CI : CompilerIncludes) (call : IncludeCall) :
    (AddIncludePaths is_directory call.PathsStr CI.HOpts call.Delim).UserEntries =
      CI.HOpts.UserEntries ++
        (CI.fresh call).map fun Path => ⟨Path, .Angled, false, true⟩ := by
  simp only [AddIncludePaths, requestedPaths_asked, foldl_AddPath]
  congr 2
  refine List.filter_congr fun Path _ => ?_
  rw [Bool.eq_iff_iff]
  simp [HeaderSearchOptions.paths]

variable (getOptionalDirectoryRef : StringRef → Option Address) (CI : CompilerIncludes)
  (call : IncludeCall)

theorem step_entries :
    (CI.step is_directory getOptionalDirectoryRef call).HOpts.UserEntries =
      CI.HOpts.UserEntries ++
        (CI.fresh call).map fun Path => ⟨Path, .Angled, false, true⟩ :=
  AddIncludePaths_entries is_directory CI call

theorem step_paths :
    (CI.step is_directory getOptionalDirectoryRef call).HOpts.paths =
      CI.HOpts.paths ++ CI.fresh call := by
  rw [HeaderSearchOptions.paths, step_entries, List.map_append, List.map_map]
  simp [HeaderSearchOptions.paths, Function.comp_def]

/-- The directories the preprocessor is told of are those of the new entries that exist. -/
theorem step_searched :
    (CI.step is_directory getOptionalDirectoryRef call).HSearch =
      CI.HSearch ++ (CI.fresh call).filterMap fun Path =>
        (getOptionalDirectoryRef Path).map fun DE => ⟨DE, false, true⟩ := by
  simp only [CompilerIncludes.step, AddIncludePaths_entries, List.drop_left, List.filterMap_map]
  congr 1

theorem fresh_nodup_iff : (CI.fresh call).Nodup ↔ CI.AsksOnce call := by
  rw [List.nodup_iff_count]
  constructor
  · intro once Path member unheld
    have bound := once Path
    rw [CompilerIncludes.fresh, List.count_filter (by simpa using unheld)] at bound
    have positive := List.count_pos_iff.mpr member
    omega
  · intro once Path
    by_cases new : Path ∈ CI.fresh call
    · obtain ⟨member, unheld⟩ := List.mem_filter.mp new
      rw [CompilerIncludes.fresh, List.count_filter (by exact unheld)]
      exact (once Path member (of_decide_eq_true unheld)).le
    · rw [List.count_eq_zero_of_not_mem new]
      exact Nat.zero_le 1

/-- A call on a list without duplicates leaves one without duplicates exactly when it asks for
no new path twice. -/
theorem step_keepsDistinct_iff (distinct : CI.HOpts.paths.Nodup) :
    CompilerIncludes.KeepsDistinct call CI (CI.step is_directory getOptionalDirectoryRef call) ↔
      CI.AsksOnce call := by
  have apart : ∀ Path ∈ CI.HOpts.paths, Path ∉ CI.fresh call := by
    intro Path held again
    have unheld := (List.mem_filter.mp again).2
    exact of_decide_eq_true unheld held
  rw [CompilerIncludes.KeepsDistinct, step_entries, step_paths, List.nodup_append,
    ← fresh_nodup_iff]
  constructor
  · intro kept
    exact kept.2.2.2.1
  · intro once
    refine ⟨List.prefix_append _ _, ?_, distinct, once, ?_⟩
    · intro Path member _
      by_cases held : Path ∈ CI.HOpts.paths
      · exact List.mem_append_left _ held
      · exact List.mem_append_right _ (List.mem_filter.mpr ⟨member, decide_eq_true held⟩)
    · rintro Path held other again rfl
      exact apart Path held again

end

/-- Along any sequence of calls the list stays free of duplicates exactly when no call asks
twice for a path that the list does not hold yet. -/
theorem includePaths_distinct_iff (is_directory : StringRef → Bool)
    (getOptionalDirectoryRef : StringRef → Option Address) (CI : CompilerIncludes)
    (distinct : CI.HOpts.paths.Nodup) (calls : List IncludeCall) :
    EveryStep (CompilerIncludes.step is_directory getOptionalDirectoryRef)
        (fun CI call => CompilerIncludes.KeepsDistinct call CI
          (CI.step is_directory getOptionalDirectoryRef call)) CI calls ↔
      EveryStep (CompilerIncludes.step is_directory getOptionalDirectoryRef)
        (fun CI call => CI.AsksOnce call) CI calls := by
  refine everyStep_iff_everyStep (fun CI => CI.HOpts.paths.Nodup) distinct ?_ ?_
  · intro CI call distinct
    exact step_keepsDistinct_iff is_directory getOptionalDirectoryRef CI call distinct
  · intro CI call distinct once
    exact ((step_keepsDistinct_iff is_directory getOptionalDirectoryRef CI call
      distinct).mpr once).2.2

def noIncludes : CompilerIncludes :=
  ⟨⟨['/'], [], [], [], true, true, false, false⟩, []⟩

theorem includePaths_distinct_twoCalls :
    EveryStep (CompilerIncludes.step (fun _ => true) (fun _ => some 0))
      (fun CI call => CompilerIncludes.KeepsDistinct call CI
        (CI.step (fun _ => true) (fun _ => some 0) call)) noIncludes
      [.AddIncludePath ['a'], .AddIncludePath ['a']] :=
  (includePaths_distinct_iff (fun _ => true) (fun _ => some 0) noIncludes (by decide)
    [.AddIncludePath ['a'], .AddIncludePath ['a']]).mpr (by decide)

theorem includePaths_repeated :
    ¬∀ (is_directory : StringRef → Bool) (getOptionalDirectoryRef : StringRef → Option Address)
      (CI : CompilerIncludes) (call : IncludeCall), CI.HOpts.paths.Nodup →
      CompilerIncludes.KeepsDistinct call CI
        (CI.step is_directory getOptionalDirectoryRef call) := by
  intro always
  have kept := always (fun _ => true) (fun _ => none) noIncludes
    (.AddIncludePaths ['a', ':', 'a'] (some [':'])) (by decide)
  exact absurd kept.2.2 (by decide)

end CppInterOp
