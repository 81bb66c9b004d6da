import Mathlib
import CppInterOp.PathsCore

/-!
The arguments `CreateInterpreter` hands to clang and the resource directory it takes its
library search paths from: when the two agree.
-/

namespace CppInterOp

open Delimiters

theorem split_space_shorter {text : StringRef} (more : text ≠ []) :
    (text.split [' ']).2.length < text.length := by
  cases found : splitAtFirst [' '] text with
  | none =>
      rw [split_none found]
      exact List.length_pos_iff.mpr more
  | some parts =>
      rw [split_some found]
      exact splitAtFirst_shorter space_ne_nil found

def splitArguments (text : StringRef) : List StringRef :=
  if _more : text = [] then []
  else (text.split [' ']).1 :: splitArguments (text.split [' ']).2
termination_by text.length
decreasing_by exact split_space_shorter _more

/-- The first value of an option, nothing when the option is not there or comes last. -/
def ExtractArgument (Arg : StringRef) : List StringRef → StringRef
  | option :: value :: rest => if option = Arg then value else ExtractArgument Arg (value :: rest)
  | _ => []

/-- `A.trim().ltrim('-')`. -/
def StringRef.stripped (A : StringRef) : StringRef := A.trim.dropWhile (· = '-')

/-- Everything the argument vector is assembled from, on a system that is not Windows and with
clang-repl; the printed directories are those of `clang -print-resource-dir`, the SDK paths
those of `xcrun`. -/
structure ArgumentSources where
  Args : List StringRef
  GpuArgs : List StringRef
  Baked : StringRef
  Env : Option StringRef
  mainExecutable : StringRef
  isOSDarwin : Bool
  isOSLinux : Bool
  is_directory : StringRef → Bool
  clangResourceDir : Option StringRef
  binaryResources : StringRef
  printedResourceDirs : List StringRef
  filename : StringRef → StringRef
  clangVersionMajor : StringRef
  validSDKRoot : Bool
  sdkPaths : List StringRef

structure EffectiveArguments where
  ResourceDir : StringRef
  CompilerArgs : List StringRef
  deriving DecidableEq

def keepsArgument (A : StringRef) : Bool :=
  A.stripped ≠ "cuda".toList && !("--offload-arch=".toList.isPrefixOf A) &&
    !("--cuda-path=".toList.isPrefixOf A)

namespace ArgumentSources

variable (S : ArgumentSources)

def bakedArgs : List StringRef := (splitArguments S.Baked).filter (· ≠ [])

def AllArgs : List StringRef := S.bakedArgs ++ S.Args

def MakeResourcesPath : StringRef :=
  match S.clangResourceDir with
  | some dir => if S.is_directory dir then dir else S.binaryResources
  | none => S.binaryResources

def DetectResourceDir : StringRef :=
  match S.printedResourceDirs with
  | [dir] => if S.filename dir = S.clangVersionMajor then dir else []
  | _ => []

def preferredResourceDir : StringRef :=
  if ExtractArgument "-resource-dir".toList S.Args ≠ [] then
    ExtractArgument "-resource-dir".toList S.Args
  else if ExtractArgument "-resource-dir".toList S.AllArgs ≠ [] then
    ExtractArgument "-resource-dir".toList S.AllArgs
  else S.MakeResourcesPath

def ResourceDir : StringRef :=
  if !S.is_directory S.preferredResourceDir && (S.isOSDarwin || S.isOSLinux) then
    S.DetectResourceDir
  else S.preferredResourceDir

def envArgs : List StringRef :=
  match S.Env with
  | some Env => splitArguments Env
  | none => []

def ArgvStorage : List StringRef :=
  [S.mainExecutable] ++
    (if S.ResourceDir ≠ [] then ["-resource-dir".toList, S.ResourceDir] else []) ++
    ["-std=c++14".toList] ++ S.AllArgs ++ S.GpuArgs ++ S.envArgs

def sdkArgs : List StringRef :=
  if S.isOSDarwin ∧ "-isysroot".toList ∉ S.ArgvStorage ∧ !S.validSDKRoot then
    match S.sdkPaths.getLast? with
    | some MacOSSDK =>
        if MacOSSDK ≠ [] ∧ S.is_directory MacOSSDK then ["-isysroot".toList, MacOSSDK] else []
    | none => []
  else []

def ClingArgv : List StringRef := S.ArgvStorage ++ S.sdkArgs

def refusesGpuArgs : Bool :=
  match S.GpuArgs with
  | Arg0 :: _ => Arg0.stripped ≠ "cuda".toList
  | [] => false

/-- `CreateInterpreter` up to the creation of the interpreter, with what
`createClangInterpreter` leaves of the vector. -/
def CreateInterpreter : Option EffectiveArguments :=
  if S.refusesGpuArgs then none
  else some ⟨S.ResourceDir, (S.ClingArgv.drop 1).filter keepsArgument⟩

end ArgumentSources

/-- The arguments have a first `-resource-dir` with an argument behind it, and this is its value. -/
def FirstValue (Args : List StringRef) (value : StringRef) : Prop :=
  ∃ before rest, Args = before ++ "-resource-dir".toList :: value :: rest ∧
    "-resource-dir".toList ∉ before

def GivesNone (Args : List StringRef) : Prop := ∀ value, FirstValue Args value → value = []

namespace ArgumentSources

variable (S : ArgumentSources)

/-- The directory that is tried first: the embedder's, else one that is baked in, else clang's own. -/
inductive Tries : StringRef → Prop
  | embedder {dir : StringRef} : FirstValue S.Args dir → dir ≠ [] → Tries dir
  | baked {dir : StringRef} : GivesNone S.Args →
      FirstValue (filledPieces space_ne_nil S.Baked ++ S.Args) dir → dir ≠ [] → Tries dir
  | clang {dir : StringRef} : GivesNone S.Args →
      GivesNone (filledPieces space_ne_nil S.Baked ++ S.Args) →
      S.clangResourceDir = some dir → S.is_directory dir = true → Tries dir
  | binary : GivesNone S.Args → GivesNone (filledPieces space_ne_nil S.Baked ++ S.Args) →
      (∀ dir, S.clangResourceDir = some dir → S.is_directory dir = false) → Tries S.binaryResources

/-- The one directory that `clang -print-resource-dir` prints, if it is of the right version. -/
def Detects (dir : StringRef) : Prop :=
  S.printedResourceDirs = [dir] ∧ S.filename dir = S.clangVersionMajor ∨
    dir = [] ∧ ∀ printed, S.printedResourceDirs = [printed] → S.filename printed ≠ S.clangVersionMajor

/-- The directory that is settled on: on Darwin and Linux one that is tried first has to exist. -/
def Settles (dir : StringRef) : Prop :=
  ∃ tried, S.Tries tried ∧
    if S.is_directory tried = false ∧ (S.isOSDarwin = true ∨ S.isOSLinux = true) then S.Detects dir
    else dir = tried

end ArgumentSources

/-- How clang reads the values of `-resource-dir` in an argument vector: from the left, the
option takes the argument behind it, and `-std=c++14` stands alone. -/
structure ReadsResourceDirs (reads : List StringRef → List StringRef) : Prop where
  separate : ∀ value rest, reads ("-resource-dir".toList :: value :: rest) = value :: reads rest
  standard : ∀ rest, reads ("-std=c++14".toList :: rest) = reads rest

namespace ArgumentSources

variable (reads : List StringRef → List StringRef) (S : ArgumentSources)

/-- The last `-resource-dir` clang reads names the directory of the search paths, and the two
strings are split into exactly their words. -/
def ArgumentsAgree (E : EffectiveArguments) : Prop :=
  (reads E.CompilerArgs).getLast?.getD [] = E.ResourceDir ∧
    S.bakedArgs = filledPieces space_ne_nil S.Baked ∧
    S.envArgs = (S.Env.map (filledPieces space_ne_nil)).getD []

def laterArgs : List StringRef :=
  (S.AllArgs ++ S.GpuArgs ++ S.envArgs ++ S.sdkArgs).filter keepsArgument

/-- The last `-resource-dir` given by any source names this directory; if none is given, the
directory is no argument that `createClangInterpreter` takes out. -/
def LastNames (dir : StringRef) : Prop :=
  (∀ value ∈ (reads S.laterArgs).getLast?, value = dir) ∧
    (reads S.laterArgs = [] → keepsArgument dir = true)

/-- The last one named is the one that is settled on. -/
def LastIsSettled : Prop := ∃ dir, S.Settles dir ∧ S.LastNames reads dir

/-- The environment string neither begins with a space nor has two in a row. -/
def SingleSpaced : Prop :=
  ∀ Env ∈ S.Env, ¬[' '] <+: Env ∧ ¬[' ', ' '] <:+: Env

end ArgumentSources

theorem splitArguments_nil : splitArguments [] = [] := by rw [splitArguments, dif_pos rfl]

theorem splitArguments_filled (text : StringRef) :
    (splitArguments text).filter (· ≠ []) = filledPieces space_ne_nil text := by
  induction text using splitArguments.induct with
  | case1 => rw [splitArguments_nil, filledPieces_nil, List.filter_nil]
  | case2 text more ih =>
      rw [splitArguments, dif_neg more, ← List.singleton_append, List.filter_append, ih]
      cases found : splitAtFirst [' '] text with
      | none =>
          rw [split_none found, filledPieces_nil, List.append_nil, filledPieces,
            pieces_last space_ne_nil found]
      | some parts => rw [split_some found, filledPieces_more space_ne_nil found]

section

variable {before behind : StringRef}

theorem spaces_behind (apart : ' ' ∉ before) :
    [' ', ' '] <:+: before ++ ' ' :: behind ↔ [' '] <+: behind ∨ [' ', ' '] <:+: behind := by
  induction before with
  | nil =>
      rw [List.nil_append, List.infix_cons_iff, List.cons_prefix_cons]
      simp only [true_and]
  | cons symbol before ih =>
      obtain ⟨other, later⟩ := not_or.mp (mt List.mem_cons.mpr apart)
      rw [List.cons_append, List.infix_cons_iff, List.cons_prefix_cons, ih later]
      simp only [other, false_and, false_or]

theorem space_first (apart : ' ' ∉ before) :
    [' '] <+: before ++ ' ' :: behind ↔ before = [] := by
  cases before with
  | nil => simp
  | cons symbol before =>
      have other : ' ' ≠ symbol := fun same => apart (same ▸ List.mem_cons_self)
      simp [other]

end

/-- The loop yields an empty part for a space in front and for one behind another. -/
theorem splitArguments_tidy (text : StringRef) :
    [] ∉ splitArguments text ↔ ¬[' '] <+: text ∧ ¬[' ', ' '] <:+: text := by
  induction text using splitArguments.induct with
  | case1 => simp [splitArguments_nil]
  | case2 text more ih =>
      rw [splitArguments, dif_neg more]
      cases found : splitAtFirst [' '] text with
      | none =>
          have absent := splitAtFirst_none space_ne_nil found
          rw [split_none found, splitArguments_nil, List.mem_singleton]
          refine iff_of_true (fun empty => more empty.symm) ⟨?_, ?_⟩
          · exact fun starts => absent starts.isInfix
          · intro within
            exact absent ((List.prefix_append [' '] [' ']).isInfix.trans within)
      | some parts =>
          obtain ⟨before, behind⟩ := parts
          have apart : ' ' ∉ before := by
            intro member
            exact splitAtFirst_before space_ne_nil found ((List.singleton_infix_iff _ _).mpr member)
          rw [split_some found] at ih ⊢
          rw [List.mem_cons, not_or, ih, splitAtFirst_some found, List.singleton_append,
            space_first apart, spaces_behind apart, not_or, eq_comm]

namespace ArgumentSources

variable (S : ArgumentSources)

theorem bakedArgs_words : S.bakedArgs = filledPieces space_ne_nil S.Baked :=
  splitArguments_filled S.Baked

theorem envArgs_words :
    S.envArgs = (S.Env.map (filledPieces space_ne_nil)).getD [] ↔ S.SingleSpaced := by
  cases given : S.Env with
  | none => simp [envArgs, SingleSpaced, given]
  | some Env =>
      have tidy : splitArguments Env = filledPieces space_ne_nil Env ↔
          [] ∉ splitArguments Env := by
        rw [← splitArguments_filled, eq_comm, List.filter_eq_self]
        constructor
        · intro filled empty
          exact of_decide_eq_true (filled [] empty) rfl
        · intro filled word member
          exact decide_eq_true fun empty => filled (empty ▸ member)
      rw [envArgs, given, Option.map_some, Option.getD_some, tidy, splitArguments_tidy]
      simp [SingleSpaced, given]

/-- What clang is handed: the directory, unless it is taken out, and the later arguments. -/
theorem handed_eq : (S.ClingArgv.drop 1).filter keepsArgument =
    (if S.ResourceDir ≠ [] then
        "-resource-dir".toList :: [S.ResourceDir].filter keepsArgument else []) ++
      "-std=c++14".toList :: S.laterArgs := by
  have option : keepsArgument "-resource-dir".toList = true := by decide
  have standard : keepsArgument "-std=c++14".toList = true := by decide
  have vector : S.ClingArgv.drop 1 =
      (if S.ResourceDir ≠ [] then ["-resource-dir".toList, S.ResourceDir] else []) ++
        "-std=c++14".toList :: (S.AllArgs ++ S.GpuArgs ++ S.envArgs ++ S.sdkArgs) := by
    rw [ClingArgv, ArgvStorage]
    simp only [List.append_assoc]
    rfl
  rw [vector, List.filter_append, List.filter_cons_of_pos standard, laterArgs]
  split
  · rw [List.filter_cons_of_pos option]
  · rw [List.filter_nil]

variable {reads : List StringRef → List StringRef} (clang : ReadsResourceDirs reads)
include clang

/-- Whatever the later arguments say last counts, and else the directory in front, unless it is
taken out. -/
theorem last_read : (reads ((S.ClingArgv.drop 1).filter keepsArgument)).getLast?.getD [] =
      S.ResourceDir ↔ S.LastNames reads S.ResourceDir := by
  rw [S.handed_eq, LastNames]
  have empty : keepsArgument [] = true := by decide
  have standard : keepsArgument "-std=c++14".toList = true := by decide
  by_cases none : S.ResourceDir = []
  · rw [if_neg (not_not.mpr none), List.nil_append, clang.standard, none]
    cases read : reads S.laterArgs with
    | nil => simp [empty]
    | cons value values => simp [List.getLast?_cons]
  · rw [if_pos none]
    cases kept : keepsArgument S.ResourceDir with
    | true =>
        rw [List.filter_cons_of_pos kept, List.filter_nil, List.cons_append, List.cons_append,
          List.nil_append, clang.separate, clang.standard, List.getLast?_cons, Option.getD_some]
        cases read : reads S.laterArgs with
        | nil => simp
        | cons value values => simp [List.getLast?_cons]
    | false =>
        rw [List.filter_cons_of_neg (by simp [kept]), List.filter_nil, List.cons_append,
          List.nil_append, clang.separate, List.getLast?_cons, Option.getD_some]
        cases read : reads S.laterArgs with
        | nil =>
            have other : "-std=c++14".toList ≠ S.ResourceDir := by
              intro same
              rw [← same, standard] at kept
              cases kept
            simpa using other
        | cons value values => simp [List.getLast?_cons]

end ArgumentSources

section FirstValues

variable {Args : List StringRef} {value : StringRef}

theorem extract_first (first : FirstValue Args value) :
    ExtractArgument "-resource-dir".toList Args = value := by
  obtain ⟨before, rest, rfl, absent⟩ := first
  induction before with
  | nil => exact if_pos rfl
  | cons Arg before ih =>
      obtain ⟨other, later⟩ := not_or.mp (mt List.mem_cons.mpr absent)
      have skipped : ExtractArgument "-resource-dir".toList
          (Arg :: (before ++ "-resource-dir".toList :: value :: rest)) =
            ExtractArgument "-resource-dir".toList
              (before ++ "-resource-dir".toList :: value :: rest) := by
        cases before with
        | nil => exact if_neg fun same => other same.symm
        | cons next before => exact if_neg fun same => other same.symm
      exact skipped.trans (ih later)

theorem first_extract (given : ExtractArgument "-resource-dir".toList Args ≠ []) :
    FirstValue Args (ExtractArgument "-resource-dir".toList Args) := by
  fun_induction ExtractArgument "-resource-dir".toList Args with
  | case1 value rest => exact ⟨[], rest, rfl, List.not_mem_nil⟩
  | case2 option value rest other ih =>
      obtain ⟨before, later, split, absent⟩ := ih given
      refine ⟨option :: before, later, congrArg (option :: ·) split, ?_⟩
      rw [List.mem_cons, not_or]
      exact ⟨fun same => other same.symm, absent⟩
  | case3 => exact absurd rfl given

theorem givesNone_iff : GivesNone Args ↔ ExtractArgument "-resource-dir".toList Args = [] := by
  constructor
  · intro none
    by_contra given
    exact given (none _ (first_extract given))
  · intro none value first
    exact (extract_first first).symm.trans none

end FirstValues

namespace ArgumentSources

variable (S : ArgumentSources)

/-- The directory next to clang is taken where there is one, and the binary's otherwise. -/
theorem makeResourcesPath_cases :
    (∃ dir, S.clangResourceDir = some dir ∧ S.is_directory dir = true ∧ S.MakeResourcesPath = dir) ∨
      (∀ dir, S.clangResourceDir = some dir → S.is_directory dir = false) ∧
        S.MakeResourcesPath = S.binaryResources := by
  rw [MakeResourcesPath]
  cases clang : S.clangResourceDir with
  | none => exact Or.inr ⟨(fun _ found => nomatch found), rfl⟩
  | some dir =>
      cases exists_dir : S.is_directory dir with
      | true => exact Or.inl ⟨dir, rfl, exists_dir, if_pos exists_dir⟩
      | false =>
          refine Or.inr ⟨fun other found => ?_, if_neg (ne_true_of_eq_false exists_dir)⟩
          rw [← Option.some.inj found]
          exact exists_dir

/-- What is tried first is what the code tries. -/
theorem tries_iff {dir : StringRef} : S.Tries dir ↔ dir = S.preferredResourceDir := by
  have all : S.AllArgs = filledPieces space_ne_nil S.Baked ++ S.Args := by
    rw [AllArgs, bakedArgs_words]
  rw [preferredResourceDir, all]
  constructor
  · rintro (⟨first, filled⟩ | ⟨none, first, filled⟩ | ⟨none, both, clang, exists_dir⟩ |
      ⟨none, both, missing⟩)
    · rw [extract_first first, if_pos filled]
    · rw [if_neg (not_not.mpr (givesNone_iff.mp none)), extract_first first, if_pos filled]
    · rw [if_neg (not_not.mpr (givesNone_iff.mp none)), if_neg (not_not.mpr (givesNone_iff.mp both))]
      rcases S.makeResourcesPath_cases with ⟨other, also, -, made⟩ | ⟨missing, -⟩
      · rw [made]
        exact Option.some.inj (clang.symm.trans also)
      · exact absurd (missing _ clang) (ne_false_of_eq_true exists_dir)
    · rw [if_neg (not_not.mpr (givesNone_iff.mp none)), if_neg (not_not.mpr (givesNone_iff.mp both))]
      rcases S.makeResourcesPath_cases with ⟨other, also, exists_dir, -⟩ | ⟨-, made⟩
      · exact absurd (missing _ also) (ne_false_of_eq_true exists_dir)
      · exact made.symm
  · rintro rfl
    split
    case isTrue given => exact .embedder (first_extract given) given
    case isFalse none =>
      have none := givesNone_iff.mpr (not_not.mp none)
      split
      case isTrue given => exact .baked none (first_extract given) given
      case isFalse both =>
        have both := givesNone_iff.mpr (not_not.mp both)
        rcases S.makeResourcesPath_cases with ⟨dir, clang, exists_dir, made⟩ | ⟨missing, made⟩
        · rw [made]
          exact .clang none both clang exists_dir
        · rw [made]
          exact .binary none both missing

theorem detects_iff {dir : StringRef} : S.Detects dir ↔ dir = S.DetectResourceDir := by
  rw [Detects, DetectResourceDir]
  split
  case h_1 printed only =>
    by_cases right : S.filename printed = S.clangVersionMajor
    · rw [if_pos right, only]
      constructor
      · rintro (⟨same, _⟩ | ⟨_, wrong⟩)
        · exact (List.singleton_inj.mp same).symm
        · exact absurd right (wrong printed rfl)
      · rintro rfl
        exact Or.inl ⟨rfl, right⟩
    · rw [if_neg right, only]
      constructor
      · rintro (⟨same, also⟩ | ⟨empty, _⟩)
        · exact absurd (List.singleton_inj.mp same ▸ also) right
        · exact empty
      · intro empty
        exact Or.inr ⟨empty, fun other same => List.singleton_inj.mp same ▸ right⟩
  case h_2 several =>
    constructor
    · rintro (⟨only, _⟩ | ⟨empty, _⟩)
      · exact absurd only (several dir)
      · exact empty
    · intro empty
      exact Or.inr ⟨empty, fun printed only => absurd only (several printed)⟩

/-- The directory the call takes the search paths from is the one that is settled on. -/
theorem settles_iff {dir : StringRef} : S.Settles dir ↔ dir = S.ResourceDir := by
  have code : (!S.is_directory S.preferredResourceDir && (S.isOSDarwin || S.isOSLinux)) = true ↔
      S.is_directory S.preferredResourceDir = false ∧ (S.isOSDarwin = true ∨ S.isOSLinux = true) := by
    simp
  rw [Settles, ResourceDir]
  simp only [tries_iff, exists_eq_left]
  by_cases detects : S.is_directory S.preferredResourceDir = false ∧
      (S.isOSDarwin = true ∨ S.isOSLinux = true)
  · rw [if_pos detects, if_pos (code.mpr detects), detects_iff]
  · rw [if_neg detects, if_neg (mt code.mp detects)]

theorem lastNames_iff {reads : List StringRef → List StringRef} :
    S.LastNames reads S.ResourceDir ↔ S.LastIsSettled reads := by
  rw [LastIsSettled]
  simp only [settles_iff, exists_eq_left]

end ArgumentSources

/-- The resource directories agree and the strings are split into their words exactly when the
last `-resource-dir` of all sources is the one `CreateInterpreter` settles on and the environment
string is single spaced. -/
theorem arguments_agree_iff (reads : List StringRef → List StringRef)
    (clang : ReadsResourceDirs reads) (S : ArgumentSources) :
    (∀ E, S.CreateInterpreter = some E → ∀ dir, S.Settles dir ↔ dir = E.ResourceDir) ∧
      ((∀ E, S.CreateInterpreter = some E → S.ArgumentsAgree reads E) ↔
        S.refusesGpuArgs = true ∨ (S.LastIsSettled reads ∧ S.SingleSpaced)) := by
  rw [ArgumentSources.CreateInterpreter]
  cases refused : S.refusesGpuArgs with
  | true => simp
  | false =>
      simp only [Bool.false_eq_true, if_false, false_or, Option.some.injEq, forall_eq']
      refine ⟨fun dir => S.settles_iff, ?_⟩
      rw [ArgumentSources.ArgumentsAgree, S.last_read clang, S.envArgs_words,
        S.lastNames_iff]
      constructor
      · rintro ⟨last, _, spaced⟩
        exact ⟨last, spaced⟩
      · rintro ⟨last, spaced⟩
        exact ⟨last, S.bakedArgs_words, spaced⟩

/-- A reading that knows `-resource-dir` and takes every other argument to stand alone. -/
def resourceDirs : List StringRef → List StringRef
  | option :: value :: rest =>
      if option = "-resource-dir".toList then value :: resourceDirs rest
      else resourceDirs (value :: rest)
  | _ => []

theorem resourceDirs_reads : ReadsResourceDirs resourceDirs where
  separate := by
    intro value rest
    rw [resourceDirs, if_pos rfl]
  standard := by
    intro rest
    cases rest with
    | nil => rfl
    | cons value rest => rw [resourceDirs, if_neg (by decide)]

def linuxSources (Args : List StringRef) : ArgumentSources where
  Args := Args
  GpuArgs := []
  Baked := []
  Env := none
  mainExecutable := "/bin/host".toList
  isOSDarwin := false
  isOSLinux := true
  is_directory := fun _ => true
  clangResourceDir := none
  binaryResources := "/lib/clang".toList
  printedResourceDirs := []
  filename := id
  clangVersionMajor := "21".toList
  validSDKRoot := false
  sdkPaths := []

theorem linuxSources_later (Args : List StringRef) :
    (linuxSources Args).laterArgs = Args.filter keepsArgument := by
  have baked : (linuxSources Args).bakedArgs = [] := by
    rw [ArgumentSources.bakedArgs]
    exact congrArg (List.filter _) splitArguments_nil
  have sdk : (linuxSources Args).sdkArgs = [] := if_neg fun darwin => Bool.noConfusion darwin.1
  rw [ArgumentSources.laterArgs, ArgumentSources.AllArgs, baked, sdk, List.append_nil]
  simp [linuxSources, ArgumentSources.envArgs]

theorem linuxSources_agree (Args : List StringRef) :
    (linuxSources Args).LastIsSettled resourceDirs ↔
      (∀ value ∈ (resourceDirs (Args.filter keepsArgument)).getLast?,
          value = (linuxSources Args).preferredResourceDir) ∧
        (resourceDirs (Args.filter keepsArgument) = [] →
          keepsArgument (linuxSources Args).preferredResourceDir = true) := by
  have settled : (linuxSources Args).ResourceDir = (linuxSources Args).preferredResourceDir := rfl
  rw [← ArgumentSources.lastNames_iff, settled, ArgumentSources.LastNames, linuxSources_later]

theorem arguments_agree_single :
    ∃ E, (linuxSources ["-resource-dir".toList, "/r".toList]).CreateInterpreter = some E ∧
      (linuxSources ["-resource-dir".toList, "/r".toList]).Settles E.ResourceDir ∧
      (linuxSources ["-resource-dir".toList, "/r".toList]).ArgumentsAgree resourceDirs E := by
  have both := arguments_agree_iff resourceDirs resourceDirs_reads
    (linuxSources ["-resource-dir".toList, "/r".toList])
  refine ⟨_, rfl, (both.1 _ rfl _).mpr rfl, both.2.mpr (Or.inr ⟨?_, fun Env given => nomatch given⟩) _ rfl⟩
  exact (linuxSources_agree _).mpr (by decide)

/-- Two directories given by the embedder. -/
theorem arguments_disagree :
    ¬∀ (reads : List StringRef → List StringRef) (S : ArgumentSources) (E : EffectiveArguments),
      ReadsResourceDirs reads → S.CreateInterpreter = some E → S.ArgumentsAgree reads E := by
  intro always
  have agreed := (always resourceDirs
    (linuxSources ["-resource-dir".toList, "/a".toList, "-resource-dir".toList, "/b".toList]) _
    resourceDirs_reads rfl).1
  have names := (ArgumentSources.lastNames_iff _).mp
    ((ArgumentSources.last_read _ resourceDirs_reads).mp agreed)
  exact absurd ((linuxSources_agree _).mp names).1 (by decide)

end CppInterOp
