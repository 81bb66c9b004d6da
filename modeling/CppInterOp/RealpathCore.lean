import CppInterOp.LibraryCore

/-!
Canonical names of paths, as `cached_realpath` works them out with its three caches, over a
file system that does not change.
-/

namespace CppInterOp

/-- What `lstat` tells: nothing there, a symbolic link, or anything else. -/
inductive Mode
  | absent
  | link
  | other
  deriving DecidableEq, Repr

structure StaticFiles where
  lstat : PathName → Mode
  readlink : PathName → Option PathName
  home_directory : PathName
  current_path : PathName

def splitPath (path : PathName) : List PathName :=
  (path.splitOn '/').filter fun part => !part.isEmpty

structure RealpathCaches where
  lstat_cache : List (PathName × Mode) := []
  readlink_cache : List (PathName × PathName) := []
  cache : List (PathName × PathName) := []
  deriving DecidableEq

section Caches

variable {Value : Type}

def findCached (entries : List (PathName × Value)) (key : PathName) : Option Value :=
  (entries.find? fun entry => entry.1 == key).map Prod.snd

def insertCached (entries : List (PathName × Value)) (key : PathName) (value : Value) :
    List (PathName × Value) :=
  if (findCached entries key).isSome then entries else entries ++ [(key, value)]

theorem findCached_insert (entries : List (PathName × Value)) (key other : PathName)
    (value : Value) : findCached (insertCached entries key value) other =
      (findCached entries other).or (if other = key then some value else none) := by
  by_cases here : (findCached entries key).isSome
  · rw [insertCached, if_pos here]
    by_cases same : other = key
    · subst same
      obtain ⟨found, at_key⟩ := Option.isSome_iff_exists.mp here
      simp [at_key]
    · simp [same]
  · rw [insertCached, if_neg here, findCached, List.find?_append, findCached]
    cases at_other : entries.find? fun entry => entry.1 == other with
    | some entry => simp
    | none =>
        by_cases same : other = key
        · simp [same]
        · simp [same, Ne.symm same]

end Caches

section Realpath

variable (files : StaticFiles)

def cached_lstat (path : PathName) (caches : RealpathCaches) : Mode × RealpathCaches :=
  match findCached caches.lstat_cache path with
  | some st_mode => (st_mode, caches)
  | none =>
      let st_mode := files.lstat path
      (st_mode, { caches with lstat_cache := insertCached caches.lstat_cache path st_mode })

def cached_readlink (pathname : PathName) (caches : RealpathCaches) :
    PathName × RealpathCaches :=
  match findCached caches.readlink_cache pathname with
  | some target => (target, caches)
  | none =>
      match files.readlink pathname with
      | some target =>
          (target,
            { caches with readlink_cache := insertCached caches.readlink_cache pathname target })
      | none => ([], caches)

/-- `..` cuts the result at its last separator; a result that has none stays. -/
def popComponent (result : PathName) : PathName :=
  let cut :=
    if result.contains '/' then ((result.reverse.dropWhile (· != '/')).drop 1).reverse
    else result
  if cut.isEmpty then ['/'] else cut

/-- The base of a relative link is what is resolved so far; an absolute link has none. -/
def linkBase (symlink result : PathName) : PathName :=
  if isAbsolute symlink then [] else result

/-- The loop over the items of a path; `none` is the early return on a missing one, and
`follow` resolves the target of a link. -/
def handleItems
    (follow : PathName → PathName → RealpathCaches → PathName × RealpathCaches) :
    List PathName → PathName → RealpathCaches → Option PathName × RealpathCaches
  | [], result, caches => (some result, caches)
  | item :: p, result, caches =>
      if item = ['.'] then handleItems follow p result caches
      else if item = ['.', '.'] then handleItems follow p (popComponent result) caches
      else
        let appended := pathAppend result item
        let looked := cached_lstat files appended caches
        match looked.1 with
        | .link =>
            let read := cached_readlink files appended looked.2
            let followed := follow read.1 (linkBase read.1 result) read.2
            handleItems follow p followed.1 followed.2
        | .absent => (none, looked.2)
        | .other => handleItems follow p appended looked.2

def startingPoint (path base_path : PathName) (is_base_path_real : Bool) :
    PathName × List PathName :=
  if isAbsolute path then (['/'], [])
  else if is_base_path_real then (base_path, [])
  else if path.head? == some '~' && (path.length == 1 || path[1]? == some '/') then
    (['/'], splitPath files.home_directory)
  else if base_path.isEmpty then (['/'], splitPath files.current_path)
  else (['/'], splitPath base_path)

def cached_realpath : Nat → PathName → PathName → Bool → RealpathCaches →
    PathName × RealpathCaches
  | 0, _, _, _, caches => ([], caches)
  | symlooplevel + 1, path, base_path, is_base_path_real, caches =>
      if path.isEmpty then ([], caches)
      else
        let known := if isAbsolute path then findCached caches.cache path else none
        match known with
        | some result => (result, caches)
        | none =>
            let start := startingPoint files path base_path is_base_path_real
            let handled := handleItems files
              (fun symlink base caches => cached_realpath symlooplevel symlink base true caches)
              (start.2 ++ splitPath path) start.1 caches
            let result := handled.1.getD []
            (result, { handled.2 with cache := insertCached handled.2.cache path result })

def realpathCall (path : PathName) (caches : RealpathCaches) : PathName × RealpathCaches :=
  cached_realpath files 40 path [] false caches

end Realpath

end CppInterOp
