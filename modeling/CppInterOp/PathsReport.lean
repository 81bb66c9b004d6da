import Mathlib
import CppInterOp.PathsCore

/-!
The include paths and flags that `GetIncludePaths` reports, and how they are read back.
-/

namespace CppInterOp

open frontend (IncludeDirGroup)

namespace frontend.IncludeDirGroup

def isSystem : IncludeDirGroup → Bool
  | .System | .CSystem | .ExternCSystem | .CXXSystem | .ObjCSystem | .ObjCXXSystem => true
  | .After | .Quoted | .Angled => false

def token (IsFramework : Bool) : IncludeDirGroup → StringRef
  | .After => "-idirafter".toList
  | .Quoted => "-iquote".toList
  | .System => "-isystem".toList
  | .CSystem => "-c-isystem".toList
  | .ExternCSystem => "-extern-c-isystem".toList
  | .CXXSystem => "-cxx-isystem".toList
  | .ObjCSystem => "-objc-isystem".toList
  | .ObjCXXSystem => "-objcxx-isystem".toList
  | .Angled => if IsFramework then "-F".toList else "-I".toList

end frontend.IncludeDirGroup

section

variable (Opts : HeaderSearchOptions) (withSystem withFlags : Bool)

/-- One entry of the loop over `UserEntries`; none is `report_fatal_error`. -/
def copyEntry (incpaths : List StringRef) (E : HeaderSearchEntry) : Option (List StringRef) :=
  if E.IsFramework ∧ E.Group ≠ .Angled ∧ E.Group ≠ .System then none
  else if E.Group.isSystem ∧ !withSystem then some incpaths
  else if withFlags then some (incpaths ++ [E.Group.token E.IsFramework, E.Path])
  else some (incpaths ++ [E.Path])

def copySysroot (incpaths : List StringRef) : List StringRef :=
  if withFlags ∧ Opts.Sysroot ≠ ['/'] then incpaths ++ ["-isysroot".toList, Opts.Sysroot]
  else incpaths

def copyResourceDir (incpaths : List StringRef) : List StringRef :=
  if withSystem ∧ Opts.ResourceDir ≠ [] then
    if withFlags then incpaths ++ ["-resource-dir".toList, Opts.ResourceDir]
    else incpaths ++ [Opts.ResourceDir]
  else incpaths

def searchFlags : List StringRef :=
  (if Opts.ModuleCachePath ≠ [] then ["-fmodule-cache-path".toList, Opts.ModuleCachePath]
    else []) ++
  (if !Opts.UseStandardSystemIncludes then ["-nostdinc".toList] else []) ++
  (if !Opts.UseStandardCXXIncludes then ["-nostdinc++".toList] else []) ++
  (if Opts.UseLibcxx then ["-stdlib=libc++".toList] else []) ++
  (if Opts.Verbose then ["-v".toList] else [])

def CopyIncludePaths (incpaths : List StringRef) : Option (List StringRef) :=
  (Opts.UserEntries.foldlM (copyEntry withSystem withFlags)
    (copySysroot Opts withFlags incpaths)).map fun incpaths =>
      let incpaths := copyResourceDir Opts withSystem withFlags incpaths
      if withSystem ∧ withFlags then incpaths ++ searchFlags Opts else incpaths

/-- `Cpp::GetIncludePaths`, whose vector of paths begins with one empty string. -/
def GetIncludePaths (IncludePaths : List StringRef) : Option (List StringRef) :=
  (CopyIncludePaths Opts withSystem withFlags [[]]).map (IncludePaths ++ ·)

end

def HeaderSearchOptions.Valid (Opts : HeaderSearchOptions) : Prop :=
  ∀ E ∈ Opts.UserEntries, E.IsFramework = true → E.Group = .Angled ∨ E.Group = .System

instance (Opts : HeaderSearchOptions) : Decidable Opts.Valid :=
  inferInstanceAs (Decidable (∀ E ∈ Opts.UserEntries, _))

section

variable (Opts : HeaderSearchOptions) (withSystem : Bool)

def HeaderSearchOptions.selected : List HeaderSearchEntry :=
  Opts.UserEntries.filter fun E => !E.Group.isSystem || withSystem

def HeaderSearchOptions.searched : List StringRef :=
  (Opts.selected withSystem).map (·.Path) ++
    if withSystem ∧ Opts.ResourceDir ≠ [] then [Opts.ResourceDir] else []

end

def groupTokens : List (StringRef × IncludeDirGroup) :=
  [("-idirafter".toList, .After), ("-iquote".toList, .Quoted), ("-isystem".toList, .System),
    ("-c-isystem".toList, .CSystem), ("-extern-c-isystem".toList, .ExternCSystem),
    ("-cxx-isystem".toList, .CXXSystem), ("-objc-isystem".toList, .ObjCSystem),
    ("-objcxx-isystem".toList, .ObjCXXSystem), ("-F".toList, .Angled), ("-I".toList, .Angled)]

def lonelyTokens : List StringRef :=
  ["-nostdinc".toList, "-nostdinc++".toList, "-stdlib=libc++".toList, "-v".toList]

def optionTokens : List StringRef :=
  ["-isysroot".toList, "-resource-dir".toList, "-fmodule-cache-path".toList]

/-- Reads the reported tokens from the left: a flag that stands alone, or a flag and its value,
whatever the value looks like. Anything else is refused. -/
def readTokens : List StringRef → Option (List (IncludeDirGroup × StringRef))
  | [] => some []
  | [token] => if token ∈ lonelyTokens then some [] else none
  | token :: value :: rest =>
      if token ∈ lonelyTokens then readTokens (value :: rest)
      else if token ∈ optionTokens then readTokens rest
      else
        match groupTokens.lookup token with
        | none => none
        | some group => (readTokens rest).map fun entries => (group, value) :: entries

/-- The strings added to the caller's list report the search state, no more and no less. -/
def ReportsSearch (Opts : HeaderSearchOptions) (withSystem withFlags : Bool)
    (added : List StringRef) : Prop :=
  if withFlags then
    readTokens added = some ((Opts.selected withSystem).map fun E => (E.Group, E.Path))
  else added = Opts.searched withSystem

instance (Opts : HeaderSearchOptions) (withSystem withFlags : Bool) (added : List StringRef) :
    Decidable (ReportsSearch Opts withSystem withFlags added) :=
  inferInstanceAs (Decidable (if withFlags then _ else _))

section

variable (Opts : HeaderSearchOptions) (withSystem withFlags : Bool)

def entryTokens (E : HeaderSearchEntry) : List StringRef :=
  if withFlags then [E.Group.token E.IsFramework, E.Path] else [E.Path]

theorem copyEntries {entries : List HeaderSearchEntry}
    (valid : ∀ E ∈ entries, E.IsFramework = true → E.Group = .Angled ∨ E.Group = .System)
    (incpaths : List StringRef) :
    entries.foldlM (copyEntry withSystem withFlags) incpaths =
      some (incpaths ++ (entries.filter fun E => !E.Group.isSystem || withSystem).flatMap
        (entryTokens withFlags)) := by
  induction entries generalizing incpaths with
  | nil => simp
  | cons E entries ih =>
      have allowed : ¬(E.IsFramework = true ∧ E.Group ≠ .Angled ∧ E.Group ≠ .System) := by
        rintro ⟨framework, notAngled, notSystem⟩
        exact (valid E List.mem_cons_self framework).elim notAngled notSystem
      have later := ih fun other member => valid other (List.mem_cons_of_mem _ member)
      rw [List.foldlM_cons, copyEntry, if_neg allowed]
      by_cases skipped : E.Group.isSystem ∧ !withSystem
      · have dropped : (!E.Group.isSystem || withSystem) = false := by
          simpa using skipped
        rw [if_pos skipped, List.filter_cons_of_neg (by simp [dropped])]
        exact later incpaths
      · have kept : (!E.Group.isSystem || withSystem) = true := by
          cases system : E.Group.isSystem <;> cases asked : withSystem <;> simp_all
        rw [if_neg skipped, List.filter_cons_of_pos (by simpa using kept), List.flatMap_cons,
          ← List.append_assoc]
        cases withFlags with
        | false => exact later (incpaths ++ [E.Path])
        | true => exact later (incpaths ++ [E.Group.token E.IsFramework, E.Path])

def searchTokens : List StringRef :=
  copySysroot Opts withFlags [] ++ (Opts.selected withSystem).flatMap (entryTokens withFlags) ++
    copyResourceDir Opts withSystem withFlags [] ++
    if withSystem ∧ withFlags then searchFlags Opts else []

theorem copySysroot_eq (incpaths : List StringRef) :
    copySysroot Opts withFlags incpaths = incpaths ++ copySysroot Opts withFlags [] := by
  rw [copySysroot, copySysroot]
  split
  · rfl
  · rw [List.append_nil]

theorem copyResourceDir_eq (incpaths : List StringRef) :
    copyResourceDir Opts withSystem withFlags incpaths =
      incpaths ++ copyResourceDir Opts withSystem withFlags [] := by
  rw [copyResourceDir, copyResourceDir]
  split
  · split <;> rfl
  · rw [List.append_nil]

theorem CopyIncludePaths_tokens (valid : Opts.Valid) (incpaths : List StringRef) :
    CopyIncludePaths Opts withSystem withFlags incpaths =
      some (incpaths ++ searchTokens Opts withSystem withFlags) := by
  rw [CopyIncludePaths, copyEntries withSystem withFlags valid, Option.map_some]
  rw [copySysroot_eq, copyResourceDir_eq]
  simp only [searchTokens, HeaderSearchOptions.selected, List.append_assoc]
  split
  · rfl
  · simp only [List.append_nil]

theorem readTokens_lonely {token : StringRef} (lonely : token ∈ lonelyTokens)
    (rest : List StringRef) : readTokens (token :: rest) = readTokens rest := by
  cases rest with
  | nil => simp only [readTokens, if_pos lonely]
  | cons value rest => simp only [readTokens, if_pos lonely]

theorem readTokens_option {token : StringRef} (option : token ∈ optionTokens)
    (value : StringRef) (rest : List StringRef) :
    readTokens (token :: value :: rest) = readTokens rest := by
  have apart : token ∉ lonelyTokens := by
    intro lonely
    revert token
    decide
  simp only [readTokens, if_neg apart, if_pos option]

theorem readTokens_entry (E : HeaderSearchEntry) (rest : List StringRef) :
    readTokens (E.Group.token E.IsFramework :: E.Path :: rest) =
      (readTokens rest).map fun entries => (E.Group, E.Path) :: entries := by
  obtain ⟨Path, Group, IsFramework, IgnoreSysRoot⟩ := E
  have apart : Group.token IsFramework ∉ lonelyTokens ∧ Group.token IsFramework ∉ optionTokens ∧
      groupTokens.lookup (Group.token IsFramework) = some Group := by
    cases Group <;> cases IsFramework <;> decide
  simp only [readTokens, if_neg apart.1, if_neg apart.2.1, apart.2.2]

theorem readTokens_entries (entries : List HeaderSearchEntry) (rest : List StringRef) :
    readTokens (entries.flatMap (entryTokens true) ++ rest) =
      (readTokens rest).map fun behind =>
        (entries.map fun E => (E.Group, E.Path)) ++ behind := by
  induction entries with
  | nil => simp
  | cons E entries ih =>
      have here : entryTokens true E = [E.Group.token E.IsFramework, E.Path] := rfl
      rw [List.flatMap_cons, here, List.append_assoc, List.cons_append, List.cons_append,
        List.nil_append, readTokens_entry, ih, Option.map_map]
      rfl

theorem readTokens_searchFlags : readTokens (searchFlags Opts) = some [] := by
  have lonely : ∀ (shown : Bool) {token : StringRef}, token ∈ lonelyTokens →
      ∀ rest, readTokens ((if shown then [token] else []) ++ rest) = readTokens rest := by
    intro shown token member rest
    cases shown with
    | false => rfl
    | true => exact readTokens_lonely member rest
  have cached : ∀ rest, readTokens
      ((if Opts.ModuleCachePath ≠ [] then ["-fmodule-cache-path".toList, Opts.ModuleCachePath]
        else []) ++ rest) = readTokens rest := by
    intro rest
    split
    · exact readTokens_option (by decide) _ rest
    · rfl
  have last := lonely Opts.Verbose (show "-v".toList ∈ lonelyTokens by decide) []
  rw [List.append_nil] at last
  rw [searchFlags]
  simp only [List.append_assoc]
  rw [cached, lonely _ (by decide), lonely _ (by decide), lonely _ (by decide), last]
  rfl

theorem searchTokens_report :
    ReportsSearch Opts withSystem withFlags (searchTokens Opts withSystem withFlags) := by
  cases withFlags with
  | false =>
      rw [ReportsSearch, if_neg Bool.false_ne_true, HeaderSearchOptions.searched]
      have plain : (Opts.selected withSystem).flatMap (entryTokens false) =
          (Opts.selected withSystem).map (·.Path) := by
        rw [List.map_eq_flatMap]
        rfl
      simp [searchTokens, copySysroot, copyResourceDir, plain]
  | true =>
      have behind : readTokens (copyResourceDir Opts withSystem true [] ++
          if withSystem ∧ true then searchFlags Opts else []) = some [] := by
        have flags : readTokens (if withSystem = true ∧ true = true then searchFlags Opts else [])
            = some [] := by
          split
          · exact readTokens_searchFlags Opts
          · rfl
        rw [copyResourceDir]
        split
        · exact (readTokens_option (by decide) _ _).trans flags
        · exact flags
      have sysroot : ∀ rest, readTokens (copySysroot Opts true [] ++ rest) = readTokens rest := by
        intro rest
        rw [copySysroot]
        split
        · exact readTokens_option (by decide) _ rest
        · rfl
      rw [ReportsSearch, if_pos rfl, searchTokens, List.append_assoc, List.append_assoc, sysroot,
        readTokens_entries, behind, Option.map_some, List.append_nil]

theorem not_report_of_empty {tokens : List StringRef}
    (report : ReportsSearch Opts withSystem withFlags tokens) :
    ¬ReportsSearch Opts withSystem withFlags ([] :: tokens) := by
  intro other
  cases withFlags with
  | false =>
      rw [ReportsSearch, if_neg Bool.false_ne_true] at report other
      have lengths := congrArg List.length (other.trans report.symm)
      simp at lengths
  | true =>
      rw [ReportsSearch, if_pos rfl] at other
      cases tokens with
      | nil => exact absurd other (by simp [readTokens, lonelyTokens])
      | cons value rest =>
          have refused : readTokens ([] :: value :: rest) = none := by
            have lone : ([] : StringRef) ∉ lonelyTokens := by decide
            have plain : ([] : StringRef) ∉ optionTokens := by decide
            have unknown : groupTokens.lookup [] = none := by decide
            simp only [readTokens, if_neg lone, if_neg plain, unknown]
          rw [refused] at other
          cases other

end

/-- What is added is always an empty string and then the report: no call adds the report
itself. -/
theorem GetIncludePaths_never (Opts : HeaderSearchOptions) (valid : Opts.Valid)
    (withSystem withFlags : Bool) (IncludePaths : List StringRef) :
    ∃ report, GetIncludePaths Opts withSystem withFlags IncludePaths =
        some (IncludePaths ++ [] :: report) ∧
      ReportsSearch Opts withSystem withFlags report ∧
      ¬ReportsSearch Opts withSystem withFlags ([] :: report) := by
  have report := searchTokens_report Opts withSystem withFlags
  refine ⟨searchTokens Opts withSystem withFlags, ?_, report,
    not_report_of_empty Opts withSystem withFlags report⟩
  rw [GetIncludePaths, CopyIncludePaths_tokens Opts withSystem withFlags valid]
  rfl

def oneFramework : HeaderSearchOptions :=
  ⟨['/'], [⟨['/', 'L'], .Angled, true, false⟩], [], [], true, true, false, false⟩

theorem GetIncludePaths_never_framework :
    ∃ report, GetIncludePaths oneFramework true true [] = some ([] ++ [] :: report) ∧
      ReportsSearch oneFramework true true report ∧
      ¬ReportsSearch oneFramework true true ([] :: report) :=
  GetIncludePaths_never oneFramework (by decide) true true []

theorem GetIncludePaths_empty_element :
    ¬∀ (Opts : HeaderSearchOptions) (withSystem withFlags : Bool)
      (IncludePaths added : List StringRef), Opts.Valid →
      GetIncludePaths Opts withSystem withFlags IncludePaths = some (IncludePaths ++ added) →
      ReportsSearch Opts withSystem withFlags added := by
  intro always
  have reported := always oneFramework false false [] [[], ['/', 'L']] (by decide) (by decide)
  exact absurd reported (by decide)

end CppInterOp
