import CppInterOp.Basic
import CppInterOp.Library.Delimiters
import CppInterOp.Library.Looping

/-!
The splitting of a path list at a delimiter, and the header search list that the paths it
yields are added to.
-/

namespace CppInterOp

open Delimiters Looping

abbrev StringRef := List Char

/-- `llvm::StringRef::split`: everything and nothing when the delimiter does not occur. -/
def StringRef.split (text Delim : StringRef) : StringRef × StringRef :=
  (splitAtFirst Delim text).getD (text, [])

def StringRef.trim (text : StringRef) : StringRef :=
  let blank := fun c : Char => c ∈ [' ', '\t', '\n', '\x0b', '\x0c', '\r']
  ((text.dropWhile blank).reverse.dropWhile blank).reverse

theorem space_ne_nil : [' '] ≠ ([] : StringRef) := List.cons_ne_nil _ _

theorem split_none {Delim text : StringRef} (absent : splitAtFirst Delim text = none) :
    text.split Delim = (text, []) := by
  rw [StringRef.split, absent, Option.getD_none]

theorem split_some {Delim text before behind : StringRef}
    (found : splitAtFirst Delim text = some (before, behind)) :
    text.split Delim = (before, behind) := by
  rw [StringRef.split, found, Option.getD_some]

inductive SplitMode where
  | kPruneNonExistent
  | kFailNonExistent
  | kAllowNonExistent
  deriving DecidableEq

inductive LogLine where
  | nonexistent (Path : StringRef)
  | existing (Path : StringRef)
  deriving DecidableEq

structure SplitResult where
  Paths : List StringRef
  AllExisted : Bool
  logged : List LogLine
  deriving DecidableEq

/-- Where a call is: at the head of its outer loop, or of the loop that logs the rest. -/
inductive SplitAt where
  | outer (PathStr : StringRef) (Paths : List StringRef) (AllExisted : Bool)
      (logged : List LogLine)
  | inner (PathStr : StringRef) (Paths : List StringRef) (Split : StringRef × StringRef)
      (logged : List LogLine)

section

variable (is_directory : StringRef → Bool) (Mode : SplitMode) (Delim : StringRef)
  (Verbose : Bool)

/-- What follows the outer loop: a trailing delimiter is cut off, the last component added. -/
def splitLast (PathStr : StringRef) (Paths : List StringRef) (AllExisted : Bool)
    (logged : List LogLine) : SplitResult :=
  let PathStr :=
    if PathStr ≠ [] ∧ Delim <:+ PathStr then PathStr.take (PathStr.length - Delim.length)
    else PathStr
  if PathStr = [] then ⟨Paths, AllExisted, logged⟩
  else if is_directory PathStr then ⟨Paths ++ [PathStr], AllExisted, logged⟩
  else if Mode = .kAllowNonExistent then ⟨Paths ++ [PathStr], false, logged⟩
  else ⟨Paths, false, if Verbose then logged ++ [.nonexistent PathStr] else logged⟩

def splitTurn : SplitAt → Turn SplitAt SplitResult
  | .outer PathStr Paths AllExisted logged =>
      let Split := PathStr.split Delim
      if Split.2 = [] then
        .leave (splitLast is_directory Mode Delim Verbose PathStr Paths AllExisted logged)
      else if Split.1 = [] then .again (.outer Split.2 Paths AllExisted logged)
      else if is_directory Split.1 then
        .again (.outer Split.2 (Paths ++ [Split.1]) AllExisted logged)
      else
        match Mode with
        | .kFailNonExistent =>
            if Verbose then
              .again (.inner PathStr Paths Split (logged ++ [.nonexistent Split.1]))
            else .leave ⟨Paths, false, logged⟩
        | .kAllowNonExistent => .again (.outer Split.2 (Paths ++ [Split.1]) false logged)
        | .kPruneNonExistent =>
            .again (.outer Split.2 Paths false
              (if Verbose then logged ++ [.nonexistent Split.1] else logged))
  | .inner PathStr Paths Split logged =>
      if Split.2 = [] then
        .leave ⟨Paths, false,
          if is_directory Split.1 then logged else logged ++ [.nonexistent Split.1]⟩
      else
        -- the string split here is still the one the outer loop stopped at
        let Split := PathStr.split Delim
        let line := if is_directory Split.1 then LogLine.existing Split.1 else .nonexistent Split.1
        .again (.inner PathStr Paths (Split.2.split Delim) (logged ++ [line]))

/-- A call that ends does so with this result. -/
def SplitPaths (PathStr : StringRef) (Paths : List StringRef) (result : SplitResult) : Prop :=
  Ends (splitTurn is_directory Mode Delim Verbose) (.outer PathStr Paths true []) result

end

namespace frontend

inductive IncludeDirGroup where
  | Quoted | Angled | System | ExternCSystem | CSystem | CXXSystem | ObjCSystem
  | ObjCXXSystem | After
  deriving DecidableEq

end frontend

open frontend (IncludeDirGroup)

structure HeaderSearchEntry where
  Path : StringRef
  Group : IncludeDirGroup
  IsFramework : Bool
  IgnoreSysRoot : Bool
  deriving DecidableEq

structure HeaderSearchOptions where
  Sysroot : StringRef
  UserEntries : List HeaderSearchEntry
  ResourceDir : StringRef
  ModuleCachePath : StringRef
  UseStandardSystemIncludes : Bool
  UseStandardCXXIncludes : Bool
  UseLibcxx : Bool
  Verbose : Bool
  deriving DecidableEq

namespace HeaderSearchOptions

variable (HOpts : HeaderSearchOptions)

def paths : List StringRef := HOpts.UserEntries.map (·.Path)

def AddPath (Path : StringRef) (Group : IncludeDirGroup) (IsFramework IgnoreSysRoot : Bool) :
    HeaderSearchOptions :=
  { HOpts with UserEntries := HOpts.UserEntries ++ [⟨Path, Group, IsFramework, IgnoreSysRoot⟩] }

end HeaderSearchOptions

end CppInterOp
