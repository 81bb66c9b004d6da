import CppInterOp.AutoloadCore

/-!
The search paths of libraries: how they come together, and which file a lookup finds in them.
-/

namespace CppInterOp

abbrev SearchPathInfos := List SearchPathInfo

structure SearchPathRequest where
  dir : PathName
  isUser : Bool := true
  prepend : Bool := false
  deriving DecidableEq, Repr

def SearchPathRequest.info (request : SearchPathRequest) : SearchPathInfo :=
  ⟨request.dir, request.isUser⟩

namespace SearchPathInfos

variable (paths : SearchPathInfos)

def dirs : List PathName := paths.map SearchPathInfo.Path

def addSearchPath (request : SearchPathRequest) : SearchPathInfos :=
  if request.dir.isEmpty || paths.dirs.contains request.dir then paths
  else if request.prepend then request.info :: paths
  else paths ++ [request.info]

/-- What a manager starts with: what the environment names, the current directory, and the paths of
the system. -/
def construct (env sysPaths : List PathName) : SearchPathInfos :=
  (env.map (fun Path => SearchPathRequest.mk Path true false) ++ SearchPathRequest.mk ['.'] true false ::
    sysPaths.map fun P => SearchPathRequest.mk P false false).foldl addSearchPath []

def adding (known : List PathName) : List SearchPathRequest → List SearchPathRequest
  | [] => []
  | request :: rest =>
      if request.dir.isEmpty || known.contains request.dir then adding known rest
      else request :: adding (request.dir :: known) rest

structure Listed : Prop where
  distinct : paths.dirs.Nodup
  nonempty : [] ∉ paths.dirs

variable {paths}

theorem addSearchPath_skips {request : SearchPathRequest}
    (skips : request.dir.isEmpty || paths.dirs.contains request.dir) :
    addSearchPath paths request = paths := by
  rw [addSearchPath, if_pos skips]

theorem addSearchPath_adds {request : SearchPathRequest}
    (adds : ¬(request.dir.isEmpty || paths.dirs.contains request.dir)) :
    addSearchPath paths request =
      if request.prepend then request.info :: paths else paths ++ [request.info] := by
  rw [addSearchPath, if_neg adds]

theorem Listed.addSearchPath (listed : paths.Listed) (request : SearchPathRequest) :
    (addSearchPath paths request).Listed := by
  by_cases skips : (request.dir.isEmpty || paths.dirs.contains request.dir) = true
  · rw [addSearchPath_skips skips]
    exact listed
  · have fresh : ¬request.dir = [] ∧ request.dir ∉ paths.dirs := by simpa using skips
    rw [addSearchPath_adds skips]
    split
    · exact ⟨List.nodup_cons.mpr ⟨fresh.2, listed.distinct⟩, by
        simpa [dirs, SearchPathRequest.info, eq_comm, fresh.1] using listed.nonempty⟩
    · refine ⟨?_, ?_⟩
      · rw [dirs, List.map_append, List.nodup_append]
        refine ⟨listed.distinct, by simp, ?_⟩
        intro dir known other added
        rw [List.map_singleton, List.mem_singleton] at added
        rintro rfl
        rw [added] at known
        exact fresh.2 known
      · simpa [dirs, SearchPathRequest.info, eq_comm, fresh.1] using listed.nonempty

/-- Whatever is added, every path is there once. -/
theorem Listed.foldl (listed : paths.Listed) (requests : List SearchPathRequest) :
    (requests.foldl SearchPathInfos.addSearchPath paths).Listed := by
  induction requests generalizing paths with
  | nil => exact listed
  | cons request rest ih => exact ih (listed.addSearchPath request)

theorem adding_congr {known other : List PathName} (same : ∀ dir, dir ∈ known ↔ dir ∈ other)
    (requests : List SearchPathRequest) : adding known requests = adding other requests := by
  induction requests generalizing known other with
  | nil => rfl
  | cons request rest ih =>
      have contains : known.contains request.dir = other.contains request.dir := by
        rw [Bool.eq_iff_iff, List.contains_iff_mem, List.contains_iff_mem]
        exact same request.dir
      rw [adding, adding, contains, ih same, @ih (request.dir :: known) (request.dir :: other)]
      intro dir
      rw [List.mem_cons, List.mem_cons, same]

/-- What is prepended stands in front, the latest first; what is appended stands behind, the latest
last; and the first request for a directory decides. -/
theorem foldl_addSearchPath (requests : List SearchPathRequest) :
    requests.foldl SearchPathInfos.addSearchPath paths =
      ((adding paths.dirs requests).filter SearchPathRequest.prepend).reverse.map
          SearchPathRequest.info ++ paths ++
        ((adding paths.dirs requests).filter fun request => !request.prepend).map
          SearchPathRequest.info := by
  induction requests generalizing paths with
  | nil => simp [adding]
  | cons request rest ih =>
      rw [List.foldl_cons, ih, adding]
      by_cases skips : (request.dir.isEmpty || paths.dirs.contains request.dir) = true
      · rw [addSearchPath_skips skips, if_pos skips]
      · rw [addSearchPath_adds skips, if_neg skips]
        cases front : request.prepend with
        | true =>
            rw [if_pos rfl, List.filter_cons_of_pos front, List.filter_cons_of_neg (by simp [front])]
            rw [List.reverse_cons, List.map_append, List.append_assoc, List.append_assoc,
              List.append_assoc]
            rfl
        | false =>
            have known : adding (SearchPathInfos.dirs (paths ++ [request.info])) rest =
                adding (request.dir :: paths.dirs) rest := by
              refine adding_congr (fun dir => ?_) rest
              simp [dirs, SearchPathRequest.info, or_comm]
            rw [if_neg Bool.false_ne_true, known, List.filter_cons_of_neg (by simp [front]),
              List.filter_cons_of_pos (by simp [front])]
            simp

end SearchPathInfos

section Lookup

variable {File : Type} (files : LibraryFiles File)

def LibraryFiles.searching (paths : SearchPathInfos) : LibraryFiles File :=
  { files with m_SearchPaths := paths.dirs }

def libraryVariants (libStem : PathName) : List PathName :=
  let libStemName := pathFilename libStem
  let position := libStem.length - libStemName.length
  let prefixed := libStem.take position ++ "lib".toList ++ libStem.drop position
  [libStem, libStem ++ ".so".toList] ++
    if "lib".toList.isPrefixOf libStemName then [] else [prefixed, prefixed ++ ".so".toList]

/-- The files that are tried for the names: a name is tried in all directories before the next. -/
def libraryCandidates (dirs names : List PathName) : List PathName :=
  names.flatMap fun name => dirs.map fun dir => pathAppend dir name

variable {files}

theorem pathAppend_ne_nil {path : PathName} (nonempty : path ≠ []) (component : PathName) :
    pathAppend path component ≠ [] := by
  rw [pathAppend]
  split
  · simp [nonempty]
  · split
    · simp [nonempty]
    · simp

theorem libraryCandidates_ne_nil {dirs names : List PathName} (nonempty : [] ∉ dirs) :
    [] ∉ libraryCandidates dirs names := by
  intro member
  obtain ⟨name, _, inDirs⟩ := List.mem_flatMap.mp member
  obtain ⟨dir, listed, empty⟩ := List.mem_map.mp inDirs
  exact pathAppend_ne_nil (fun none => nonempty (none ▸ listed)) name empty

theorem lookupLibInPaths_eq (libStem : PathName) :
    lookupLibInPaths files libStem [] [] [] =
      ((libraryCandidates files.m_SearchPaths [libStem]).find? files.isSharedLibrary).getD [] := by
  simp [lookupLibInPaths, libraryCandidates]

def foundName (files : LibraryFiles File) (path : PathName) : PathName :=
  if (files.NormalizePath path).isEmpty then path else files.NormalizePath path

theorem foundName_ne_nil {path : PathName} (nonempty : path ≠ []) : foundName files path ≠ [] := by
  rw [foundName]
  split
  · exact nonempty
  · next canonical =>
      rw [List.isEmpty_iff] at canonical
      exact canonical

theorem found_ne_nil {dirs names : List PathName} (nonempty : [] ∉ dirs) {path : PathName}
    (found : (libraryCandidates dirs names).find? files.isSharedLibrary = some path) : path ≠ [] := by
  rintro rfl
  exact libraryCandidates_ne_nil nonempty (List.mem_of_find?_eq_some found)

theorem lookupLibMaybeAddExt_eq (nonempty : [] ∉ files.m_SearchPaths) (libStem : PathName) :
    lookupLibMaybeAddExt files libStem [] [] [] =
      (((libraryCandidates files.m_SearchPaths [libStem, libStem ++ ".so".toList]).find?
        files.isSharedLibrary).map (foundName files)).getD [] := by
  have both : libraryCandidates files.m_SearchPaths [libStem, libStem ++ ".so".toList] =
      libraryCandidates files.m_SearchPaths [libStem] ++
        libraryCandidates files.m_SearchPaths [libStem ++ ".so".toList] := by
    simp [libraryCandidates]
  rw [lookupLibMaybeAddExt, lookupLibInPaths_eq, lookupLibInPaths_eq, both, List.find?_append]
  cases plain : (libraryCandidates files.m_SearchPaths [libStem]).find? files.isSharedLibrary with
  | some path =>
      have named : path.isEmpty = false := by simpa using found_ne_nil nonempty plain
      simp only [Option.getD_some, named, Bool.false_eq_true, if_false]
      rfl
  | none =>
      simp only [Option.getD_none, List.isEmpty_nil, if_true, Option.none_or]
      cases extended : (libraryCandidates files.m_SearchPaths
          [libStem ++ ".so".toList]).find? files.isSharedLibrary with
      | some path =>
          have named : path.isEmpty = false := by simpa using found_ne_nil nonempty extended
          simp only [Option.getD_some, named, Bool.false_eq_true, if_false, Option.map_some,
            foundName]
      | none => rfl

theorem libraryVariants_split (libStem : PathName) :
    ∃ prefixed, libraryVariants libStem = [libStem, libStem ++ ".so".toList] ++
        (if "lib".toList.isPrefixOf (pathFilename libStem) then []
          else [prefixed, prefixed ++ ".so".toList]) ∧
      prefixed = libStem.take (libStem.length - (pathFilename libStem).length) ++ "lib".toList ++
        libStem.drop (libStem.length - (pathFilename libStem).length) :=
  ⟨_, rfl, rfl⟩

theorem lookupVariants_eq (nonempty : [] ∉ files.m_SearchPaths) (libStem : PathName) :
    lookupVariants files libStem [] [] [] true =
      (((libraryCandidates files.m_SearchPaths (libraryVariants libStem)).find?
        files.isSharedLibrary).map (foundName files)).getD [] := by
  obtain ⟨prefixed, variants, made⟩ := libraryVariants_split libStem
  have split : ∀ names others, libraryCandidates files.m_SearchPaths (names ++ others) =
      libraryCandidates files.m_SearchPaths names ++
        libraryCandidates files.m_SearchPaths others := by
    intro names others
    exact List.flatMap_append
  rw [lookupVariants, if_pos rfl]
  dsimp only
  rw [← made, lookupLibMaybeAddExt_eq nonempty, lookupLibMaybeAddExt_eq nonempty, variants, split,
    List.find?_append]
  cases plain : (libraryCandidates files.m_SearchPaths
      [libStem, libStem ++ ".so".toList]).find? files.isSharedLibrary with
  | some path =>
      have named : (foundName files path).isEmpty = false := by
        simpa using @foundName_ne_nil _ files _ (found_ne_nil nonempty plain)
      simp only [Option.map_some, Option.getD_some, named, Bool.false_and, Bool.false_eq_true,
        if_false]
      rfl
  | none =>
      cases starts : "lib".toList.isPrefixOf (pathFilename libStem) with
      | true => rfl
      | false => rfl

/-- A library that is no file as it is named is looked for under each of its names in turn, in all
directories in turn, and the first file that is a shared library is the one. -/
theorem lookupLibrary_eq (nonempty : [] ∉ files.m_SearchPaths) {libStem : PathName}
    (relative : isAbsolute libStem = false)
    (unnamed : files.isSharedLibrary (substAll files libStem []) = false) :
    lookupLibrary' files libStem =
      (((libraryCandidates files.m_SearchPaths (libraryVariants libStem)).find?
        files.isSharedLibrary).map files.NormalizePath).getD [] := by
  rw [lookupLibrary', lookupLibrary, if_neg (by simp [relative])]
  dsimp only
  rw [if_neg (by simp [unnamed]), lookupVariants_eq nonempty]
  cases found : (libraryCandidates files.m_SearchPaths (libraryVariants libStem)).find?
      files.isSharedLibrary with
  | none => rfl
  | some path =>
      have named := @foundName_ne_nil _ files _ (found_ne_nil nonempty found)
      rw [Option.map_some, Option.getD_some, Option.map_some, Option.getD_some,
        if_neg (by simpa using named), foundName]
      split
      · rfl
      · next canonical =>
          rw [List.isEmpty_iff] at canonical
          exact (files.canonical path canonical).2

/-- After any additions to the paths of a manager, a lookup finds the first file under the names of
the library: what was prepended comes first, the latest before the others, then the old paths, and
then what was appended. -/
theorem lookupLibrary_added {paths : SearchPathInfos} (listed : paths.Listed)
    (requests : List SearchPathRequest) {libStem : PathName} (relative : isAbsolute libStem = false)
    (unnamed : files.isSharedLibrary (substAll files libStem []) = false) :
    lookupLibrary' (files.searching (requests.foldl SearchPathInfos.addSearchPath paths)) libStem =
      let added := SearchPathInfos.adding paths.dirs requests
      (((libraryCandidates
        (((added.filter SearchPathRequest.prepend).map SearchPathRequest.dir).reverse ++ paths.dirs ++
          (added.filter fun request => !request.prepend).map SearchPathRequest.dir)
        (libraryVariants libStem)).find? files.isSharedLibrary).map files.NormalizePath).getD [] := by
  have dirs := congrArg SearchPathInfos.dirs
    (@SearchPathInfos.foldl_addSearchPath paths requests)
  have law := @lookupLibrary_eq _
    (files.searching (requests.foldl SearchPathInfos.addSearchPath paths))
    (listed.foldl requests).nonempty libStem relative unnamed
  rw [law]
  change (((libraryCandidates (SearchPathInfos.dirs
    (requests.foldl SearchPathInfos.addSearchPath paths)) _).find? files.isSharedLibrary).map
      files.NormalizePath).getD [] = _
  rw [dirs, SearchPathInfos.dirs, List.map_append, List.map_append, List.map_map, List.map_map,
    List.map_reverse]
  rfl

theorem construct_listed (env sysPaths : List PathName) :
    (SearchPathInfos.construct env sysPaths).Listed := by
  have start : SearchPathInfos.Listed [] := ⟨List.nodup_nil, List.not_mem_nil⟩
  exact start.foldl _

/-- `/new/libA.so` is prepended, and `/old` has `A` itself. -/
def twoDirectories : LibraryFiles Nat where
  stat path := if path = [] then none else some path.length
  NormalizePath path := path
  isSharedLibrary path := path = "/new/libA.so".toList || path = "/old/A".toList
  dlopen _ := none
  getMainExecutable := "/bin/main".toList
  m_SearchPaths := []
  stat_empty := rfl
  canonical path nonempty := by simp [nonempty]

/-- The name comes before the directory. -/
theorem lookupLibrary_added_name :
    lookupLibrary' (twoDirectories.searching
      ([SearchPathRequest.mk "/new".toList true true].foldl SearchPathInfos.addSearchPath
        (SearchPathInfos.construct [] ["/old".toList]))) "A".toList = "/old/A".toList :=
  (lookupLibrary_added (construct_listed [] ["/old".toList]) _ (by decide) (by decide)).trans
    (by decide)

end Lookup

end CppInterOp
