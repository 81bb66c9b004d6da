import Mathlib.Data.List.DropRight
import CppInterOp.LibraryCore
import CppInterOp.PathsSplit
import CppInterOp.Library.BufferedLines

/-!
What commands print, and what is made of it: lines read through a buffer, whole outputs read in
chunks, the resource directory of a compiler and the search paths of the loader.
-/

namespace CppInterOp

open BufferedLines Delimiters Looping

def untilNul (buffer : StringRef) : StringRef := buffer.takeWhile (· ≠ '\x00')

def lineRoom : Nat := 255

def execTurn : StringRef × List StringRef → Turn (StringRef × List StringRef) (List StringRef)
  | (pipe, outputs) =>
      let (buffer, rest) := readLine '\n' lineRoom pipe
      if buffer = [] then .leave outputs
      else .again (rest, outputs ++ [(untilNul buffer).trim])

/-- `pipe` is what the command prints, if it can be run. -/
def exec (pipe : Option StringRef) (outputs : List StringRef) (result : Bool × List StringRef) :
    Prop :=
  match pipe with
  | none => result = (false, outputs)
  | some printed => result.1 = true ∧ Ends execTurn (printed, outputs) result.2

def DetectResourceDir (version : StringRef) (pipe : Option StringRef) (result : StringRef) : Prop :=
  ∃ outs, (∃ success, exec pipe [] (success, outs)) ∧
    result =
      match outs with
      | [detected_resource_dir] =>
          if pathFilename detected_resource_dir = version then detected_resource_dir else []
      | _ => []

def popenTurn (Chunk : Nat) :
    StringRef × StringRef → Turn (StringRef × StringRef) StringRef
  | (stream, Buf) =>
      let R := stream.take Chunk
      if R.length < Chunk then .leave (Buf ++ R) else .again (stream.drop Chunk, Buf ++ R)

def Popen (Chunk : Nat) (pipe : Option StringRef) (result : Bool × StringRef) : Prop :=
  match pipe with
  | none => result = (false, [])
  | some printed => Ends (popenTurn Chunk) (printed, []) result.2 ∧ result.1 = !result.2.isEmpty

def isspace (c : Char) : Bool := c ∈ [' ', '\t', '\n', '\x0b', '\x0c', '\r']

def systemSearchPath (Result : StringRef) : Option StringRef :=
  let LD := "(LD_LIBRARY_PATH)".toList
  let search := "search path=".toList
  let afterLD := ((splitAtFirst LD Result).map fun parts => LD ++ parts.2).getD Result
  (splitAtFirst search afterLD).bind fun parts =>
    (splitAtFirst "(system search path)".toList (search ++ parts.2)).map fun region =>
      let SysPath := (region.1.drop search.length).rdropWhile isspace
      SysPath.filter fun c => !isspace c

def GetSystemLibraryPaths (is_directory : StringRef → Bool) (Chunk : Nat)
    (pipe : Option StringRef) (Paths result : List StringRef) : Prop :=
  ∃ opened Result, Popen Chunk pipe (opened, Result) ∧
    match systemSearchPath Result with
    | none => result = Paths
    | some SysPath => ∃ split,
        SplitPaths is_directory .kPruneNonExistent [':'] false SysPath [] split ∧
          result = Paths ++ split.Paths

def Spaceless (word : StringRef) : Prop := ∀ c ∈ word, isspace c = false

instance (word : StringRef) : Decidable (Spaceless word) := List.decidableBAll _ word

def Trimmed (text : StringRef) : Prop :=
  Spaceless text.head?.toList ∧ Spaceless text.getLast?.toList

instance (text : StringRef) : Decidable (Trimmed text) := inferInstanceAs (Decidable (_ ∧ _))

section Lines

/-- What the loop appends for a text. -/
theorem exec_ends (printed : StringRef) (outputs : List StringRef) :
    Ends execTurn (printed, outputs)
      (outputs ++ (@reads _ _ '\n' 254 printed).map fun line => (untilNul line).trim) := by
  induction bound : printed.length using Nat.strongRecOn generalizing printed outputs with
  | ind bound ih =>
      subst bound
      by_cases nothing : printed = []
      · subst nothing
        rw [reads_nil, List.map_nil, List.append_nil]
        exact ends_of_leave rfl
      · have again : execTurn (printed, outputs) =
            .again ((readLine '\n' 255 printed).2,
              outputs ++ [(untilNul (readLine '\n' 255 printed).1).trim]) :=
          if_neg (readLine_ne_nil 254 nothing)
        have later := ih _ (@readLine_shorter _ _ '\n' 254 _ nothing) (readLine '\n' 255 printed).2
          (outputs ++ [(untilNul (readLine '\n' 255 printed).1).trim]) rfl
        refine ends_of_again again ?_
        rw [reads_more 254 nothing, List.map_cons]
        rw [List.append_assoc, List.singleton_append] at later
        exact later

theorem exec_eq (printed : StringRef) (outputs more : List StringRef) :
    exec (some printed) outputs (true, outputs ++ more) ↔
      more = (@reads _ _ '\n' 254 printed).map fun line => (untilNul line).trim := by
  have ended := exec_ends printed outputs
  constructor
  · rintro ⟨_, also⟩
    exact (List.append_cancel_left (ended.unique also)).symm
  · intro same
    rw [same]
    exact ⟨rfl, ended⟩

/-- The outputs are the trimmed lines exactly when every line fits in the buffer. -/
theorem exec_lines_iff (printed : StringRef) (outputs : List StringRef) :
    exec (some printed) outputs
        (true, outputs ++ (lines '\n' printed).map fun line => (untilNul line).trim) ↔
      ∀ line ∈ lines '\n' printed, line.length ≤ 255 := by
  obtain ⟨_, fit_iff, same⟩ := @reads_lines _ _ '\n' 254 printed
  rw [exec_eq]
  constructor
  · intro equal
    have lengths := congrArg List.length equal
    rw [List.length_map, List.length_map] at lengths
    exact fit_iff.mp lengths.symm
  · intro fit
    rw [same fit]

theorem Trimmed.trim_newline {text : StringRef} (trimmed : Trimmed text) :
    (text ++ ['\n']).trim = text := by
  have front : ∀ more : StringRef, text ≠ [] →
      (text ++ more).dropWhile isspace = text ++ more := by
    intro more filled
    cases text with
    | nil => exact absurd rfl filled
    | cons c rest =>
        rw [List.cons_append, List.dropWhile_cons_of_neg]
        rw [trimmed.1 c List.mem_cons_self]
        exact Bool.false_ne_true
  have back : (text ++ ['\n']).reverse.dropWhile isspace = text.reverse := by
    rw [List.reverse_append, List.reverse_singleton, List.singleton_append,
      List.dropWhile_cons_of_pos (by decide)]
    cases reversed : text.reverse with
    | nil => rfl
    | cons c rest =>
        rw [List.dropWhile_cons_of_neg]
        have ends : text.getLast? = some c := by
          rw [← List.head?_reverse, reversed]
          rfl
        rw [trimmed.2 c (Option.mem_toList.mpr ends)]
        exact Bool.false_ne_true
  change (((text ++ ['\n']).dropWhile isspace).reverse.dropWhile isspace).reverse = text
  by_cases filled : text = []
  · subst filled
    decide
  · rw [front _ filled, back, List.reverse_reverse]

theorem untilNul_of_absent {text : StringRef} (absent : '\x00' ∉ text) : untilNul text = text := by
  rw [untilNul, List.takeWhile_eq_self_iff]
  intro c member
  exact decide_eq_true fun same => absent (same ▸ member)

/-- The directory that a compiler prints is detected exactly when it is short enough for one read and
ends in the version of the compiler that is linked in. -/
theorem detectResourceDir_iff {dir version : StringRef} (filled : dir ≠ [])
    (line : '\n' ∉ dir) (text : '\x00' ∉ dir) (trimmed : Trimmed dir) :
    DetectResourceDir version (some (dir ++ ['\n'])) dir ↔
      dir.length < 255 ∧ pathFilename dir = version := by
  have printed := lines_single line
  obtain ⟨_, fit_iff, same⟩ := @reads_lines _ _ '\n' 254 (dir ++ ['\n'])
  have shown : (untilNul (dir ++ ['\n'])).trim = dir := by
    have absent : '\x00' ∉ dir ++ ['\n'] :=
      List.not_mem_append text fun last => absurd (List.mem_singleton.mp last) (by decide)
    rw [untilNul_of_absent absent, trimmed.trim_newline]
  have fits : (∀ line ∈ [dir ++ ['\n']], line.length ≤ 255) ↔ dir.length < 255 := by
    rw [List.forall_mem_singleton, List.length_append]
    exact Nat.add_one_le_iff
  rw [printed, fits] at fit_iff same
  have fit : exec (some (dir ++ ['\n'])) [] (true, [dir]) ↔ dir.length < 255 := by
    refine (exec_eq (dir ++ ['\n']) [] [dir]).trans ⟨fun equal => ?_, fun short => ?_⟩
    · have lengths := congrArg List.length equal
      rw [List.length_map] at lengths
      exact fit_iff.mp lengths.symm
    · rw [same short, List.map_singleton, shown]
  constructor
  · rintro ⟨outs, ⟨success, ran⟩, detected⟩
    split at detected
    · next detected_resource_dir =>
        split at detected
        · next same =>
            subst detected
            obtain ⟨opened, ended⟩ := ran
            dsimp only at opened
            subst opened
            exact ⟨fit.mp ⟨rfl, ended⟩, same⟩
        · exact absurd detected filled
    · exact absurd detected filled
  · rintro ⟨short, same⟩
    exact ⟨[dir], ⟨true, fit.mpr short⟩, (if_pos same).symm⟩

theorem detectResourceDir_18 :
    DetectResourceDir "18".toList (some ("/usr/lib/clang/18".toList ++ ['\n']))
      "/usr/lib/clang/18".toList :=
  (detectResourceDir_iff (by decide) (by decide) (by decide) (by decide)).mpr (by decide)

end Lines

section Chunks

/-- Whatever the size of the chunks, the buffer ends up with all that the command prints. -/
theorem popen_ends {Chunk : Nat} (positive : 0 < Chunk) (stream Buf : StringRef) :
    Ends (popenTurn Chunk) (stream, Buf) (Buf ++ stream) := by
  induction bound : stream.length using Nat.strongRecOn generalizing stream Buf with
  | ind bound ih =>
      subst bound
      by_cases last : (stream.take Chunk).length < Chunk
      · have whole : stream.take Chunk = stream := by
          rw [List.length_take] at last
          exact List.take_of_length_le (by omega)
        have leaves : popenTurn Chunk (stream, Buf) = .leave (Buf ++ stream.take Chunk) :=
          if_pos last
        rw [whole] at leaves
        exact ends_of_leave leaves
      · have again : popenTurn Chunk (stream, Buf) =
            .again (stream.drop Chunk, Buf ++ stream.take Chunk) := if_neg last
        have shorter : (stream.drop Chunk).length < stream.length := by
          rw [List.length_take] at last
          rw [List.length_drop]
          omega
        have later := ih _ shorter (stream.drop Chunk) (Buf ++ stream.take Chunk) rfl
        rw [List.append_assoc, List.take_append_drop] at later
        exact ends_of_again again later

end Chunks

section Loader

variable {before head body tail : StringRef}

/-- What the loader prints, with the path list in it behind the last of the other searches. -/
structure LoaderOutput (before head body tail Result : StringRef) : Prop where
  whole : Result = before ++ (head ++ ("search path=".toList ++
    (body ++ ("(system search path)".toList ++ tail))))
  reached : before = [] ∧ splitAtFirst "(LD_LIBRARY_PATH)".toList Result = none ∨
    ¬"(LD_LIBRARY_PATH)".toList <:+: before ∧ "(LD_LIBRARY_PATH)".toList <+: head
  quiet : ¬"search path=".toList <:+: head
  plain : '(' ∉ body

theorem not_infix_of_absent {first : Char} {later text : StringRef} (absent : first ∉ text) :
    ¬first :: later <:+: text := fun within =>
  absent (within.subset List.mem_cons_self)

theorem filter_rdropWhile (text : StringRef) :
    (text.rdropWhile isspace).filter (fun c => !isspace c) = text.filter fun c => !isspace c := by
  induction text using List.reverseRecOn with
  | nil => rfl
  | append_singleton text c ih =>
      cases blank : isspace c with
      | true => rw [List.rdropWhile_concat_pos _ _ _ blank, ih, List.filter_append]; simp [blank]
      | false => rw [List.rdropWhile_concat_neg _ _ _ (by simp [blank])]

/-- The path list is found, without its blanks. -/
theorem LoaderOutput.systemSearchPath {Result : StringRef}
    (output : LoaderOutput before head body tail Result) :
    systemSearchPath Result = some (body.filter fun c => !isspace c) := by
  have afterLD : ((splitAtFirst "(LD_LIBRARY_PATH)".toList Result).map fun parts =>
      "(LD_LIBRARY_PATH)".toList ++ parts.2).getD Result =
        head ++ ("search path=".toList ++ (body ++ ("(system search path)".toList ++ tail))) := by
    rcases output.reached with ⟨none_before, absent⟩ | ⟨quiet, rest, starts⟩
    · rw [absent, output.whole, none_before]
      rfl
    · have found := @splitAtFirst_absent _ _ '(' "LD_LIBRARY_PATH)".toList before
        (rest ++ ("search path=".toList ++ (body ++ ("(system search path)".toList ++ tail))))
        (by decide) quiet
      have split : splitAtFirst "(LD_LIBRARY_PATH)".toList Result = some (before,
          rest ++ ("search path=".toList ++
            (body ++ ("(system search path)".toList ++ tail)))) := by
        rw [output.whole, ← starts, List.append_assoc]
        exact found
      rw [split, Option.map_some, Option.getD_some, ← starts, List.append_assoc]
  have search : splitAtFirst "search path=".toList (head ++ ("search path=".toList ++
      (body ++ ("(system search path)".toList ++ tail)))) =
        some (head, body ++ ("(system search path)".toList ++ tail)) :=
    @splitAtFirst_absent _ _ 's' "earch path=".toList head
      (body ++ ("(system search path)".toList ++ tail)) (by decide) output.quiet
  have region : splitAtFirst "(system search path)".toList ("search path=".toList ++
      (body ++ ("(system search path)".toList ++ tail))) =
        some ("search path=".toList ++ body, tail) := by
    have absent : '(' ∉ "search path=".toList ++ body := by
      rw [List.mem_append, not_or]
      exact ⟨by decide, output.plain⟩
    have found := @splitAtFirst_absent _ _ '(' "system search path)".toList
      ("search path=".toList ++ body) tail (by decide) (not_infix_of_absent absent)
    rw [List.append_assoc] at found
    exact found
  rw [CppInterOp.systemSearchPath]
  dsimp only
  rw [afterLD, search, Option.bind_some, region, Option.map_some, List.drop_left,
    filter_rdropWhile]

theorem filter_intercalate {dirs : List StringRef}
    (filled : ∀ dir ∈ dirs, Spaceless dir) :
    ([':'].intercalate dirs).filter (fun c => !isspace c) = [':'].intercalate dirs := by
  induction dirs with
  | nil => rfl
  | cons dir rest ih =>
      have here : dir.filter (fun c => !isspace c) = dir := by
        rw [List.filter_eq_self]
        intro c member
        rw [filled dir List.mem_cons_self c member]
        rfl
      have later := ih fun other member => filled other (List.mem_cons_of_mem _ member)
      by_cases last : rest = []
      · subst last
        rw [List.intercalate_singleton, here]
      · rw [List.intercalate_cons_of_ne_nil last, List.filter_append, List.filter_append, here, later]
        rfl

theorem popen_iff {Chunk : Nat} (positive : 0 < Chunk) (Result : StringRef)
    (result : Bool × StringRef) :
    Popen Chunk (some Result) result ↔ result = (!Result.isEmpty, Result) := by
  have ended := popen_ends positive Result []
  rw [List.nil_append] at ended
  constructor
  · rintro ⟨also, opened⟩
    have same := also.unique ended
    rw [same] at opened
    exact Prod.ext opened same
  · rintro rfl
    exact ⟨ended, rfl⟩

/-- The directories that the loader prints between colons are added, where they exist. -/
theorem getSystemLibraryPaths_iff {is_directory : StringRef → Bool} {Chunk : Nat}
    (positive : 0 < Chunk) {dirs : List StringRef} {blanks Result : StringRef} (some_dir : dirs ≠ [])
    (names : ∀ dir ∈ dirs, dir ≠ [] ∧ ':' ∉ dir ∧ Spaceless dir)
    (spaces : blanks.all isspace = true)
    (output : LoaderOutput before head ([':'].intercalate dirs ++ blanks) tail Result)
    (Paths result : List StringRef) :
    GetSystemLibraryPaths is_directory Chunk (some Result) Paths result ↔
      result = Paths ++ dirs.filter is_directory := by
  have blank : blanks.filter (fun c => !isspace c) = [] := by
    rw [List.filter_eq_nil_iff]
    intro c member
    rw [List.all_eq_true.mp spaces c member]
    exact Bool.false_ne_true
  have list : systemSearchPath Result = some ([':'].intercalate dirs) := by
    rw [output.systemSearchPath, List.filter_append, blank, List.append_nil,
      filter_intercalate fun dir member => (names dir member).2.2]
  have parts : filledPieces (List.cons_ne_nil ':' []) ([':'].intercalate dirs) = dirs := by
    rw [filledPieces, pieces_intercalate List.not_mem_nil some_dir
      fun dir member => not_infix_of_absent (names dir member).2.1, List.filter_eq_self]
    intro dir member
    exact decide_eq_true (names dir member).1
  have split := SplitPaths_outcome is_directory .kPruneNonExistent false
    (List.cons_ne_nil ':' []) (by decide) ([':'].intercalate dirs) []
  rw [parts] at split
  constructor
  · rintro ⟨opened, printed, ran, added⟩
    cases (popen_iff positive Result _).mp ran
    rw [list] at added
    obtain ⟨outcome, also, same⟩ := added
    rw [same, also.unique split]
    rfl
  · rintro rfl
    refine ⟨_, Result, (popen_iff positive Result _).mpr rfl, ?_⟩
    rw [list]
    exact ⟨_, split, rfl⟩

/-- `ls` fails to preload a library: the paths of the environment are searched, then the others. -/
theorem getSystemLibraryPaths_preload :
    GetSystemLibraryPaths (fun path => path == "/lib".toList) 1024
      (some ("search path=/a (LD_LIBRARY_PATH)\n search path=/lib:/none\t\t(system search path)\n".toList))
      [] ["/lib".toList] := by
  have law := @getSystemLibraryPaths_iff "search path=/a ".toList
    "(LD_LIBRARY_PATH)\n ".toList "\n".toList (fun path => path == "/lib".toList) 1024 (by decide)
    ["/lib".toList, "/none".toList] "\t\t".toList _ (by decide) (by decide) (by decide)
    ⟨rfl, Or.inr ⟨by decide, by decide⟩, by decide, by decide⟩ [] ["/lib".toList]
  exact law.mpr rfl

end Loader

end CppInterOp
