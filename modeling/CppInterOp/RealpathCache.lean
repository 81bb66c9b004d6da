import CppInterOp.RealpathCore

/-!
History independence of `cached_realpath`: the caches change no answer as long as no call
runs out of levels while it follows links.
-/

namespace CppInterOp

section Resolve

variable (files : StaticFiles)

def resolveItems (follow : PathName → PathName → PathName) :
    List PathName → PathName → Option PathName
  | [], result => some result
  | item :: p, result =>
      if item = ['.'] then resolveItems follow p result
      else if item = ['.', '.'] then resolveItems follow p (popComponent result)
      else
        let appended := pathAppend result item
        match files.lstat appended with
        | .link =>
            let symlink := (files.readlink appended).getD []
            resolveItems follow p (follow symlink (linkBase symlink result))
        | .absent => none
        | .other => resolveItems follow p appended

def resolve : Nat → PathName → PathName → Bool → PathName
  | 0, _, _, _ => []
  | level + 1, path, base_path, real =>
      if path.isEmpty then []
      else
        let start := startingPoint files path base_path real
        (resolveItems files (fun symlink base => resolve level symlink base true)
          (start.2 ++ splitPath path) start.1).getD []

/-- Every link that the loop comes to is resolved within its levels. -/
def itemsWithin (follow : PathName → PathName → PathName)
    (within : PathName → PathName → Bool) : List PathName → PathName → Bool
  | [], _ => true
  | item :: p, result =>
      if item = ['.'] then itemsWithin follow within p result
      else if item = ['.', '.'] then itemsWithin follow within p (popComponent result)
      else
        let appended := pathAppend result item
        match files.lstat appended with
        | .link =>
            let symlink := (files.readlink appended).getD []
            within symlink (linkBase symlink result) &&
              itemsWithin follow within p (follow symlink (linkBase symlink result))
        | .absent => true
        | .other => itemsWithin follow within p appended

/-- No link is met when no level is left; an empty target is refused before that. -/
def within : Nat → PathName → PathName → Bool → Bool
  | 0, path, _, _ => path.isEmpty
  | level + 1, path, base_path, real =>
      path.isEmpty ||
        let start := startingPoint files path base_path real
        itemsWithin files (fun symlink base => resolve files level symlink base true)
          (fun symlink base => within level symlink base true) (start.2 ++ splitPath path) start.1

def Shallow (path : PathName) : Prop := within files 40 path [] false = true

instance : DecidablePred (Shallow files) :=
  fun path => inferInstanceAs (Decidable (within files 40 path [] false = true))

variable {files}

theorem resolveItems_congr {follow other : PathName → PathName → PathName}
    {levels : PathName → PathName → Bool}
    (same : ∀ symlink base, levels symlink base = true → follow symlink base = other symlink base)
    {items : List PathName} {result : PathName}
    (inside : itemsWithin files follow levels items result = true) :
    resolveItems files follow items result = resolveItems files other items result := by
  induction items generalizing result with
  | nil => rfl
  | cons item p ih =>
      rw [resolveItems, resolveItems]
      rw [itemsWithin] at inside
      by_cases dot : item = ['.']
      · simp only [dot, if_true] at inside ⊢
        exact ih inside
      · by_cases dots : item = ['.', '.']
        · simp only [dots, if_true] at inside ⊢
          exact ih inside
        · simp only [dot, dots, if_false] at inside ⊢
          cases mode : files.lstat (pathAppend result item) with
          | absent => rfl
          | other =>
              simp only [mode] at inside ⊢
              exact ih inside
          | link =>
              simp only [mode, Bool.and_eq_true] at inside ⊢
              rw [← same _ _ inside.1]
              exact ih inside.2

theorem itemsWithin_mono {follow other : PathName → PathName → PathName}
    {levels more : PathName → PathName → Bool}
    (same : ∀ symlink base, levels symlink base = true → follow symlink base = other symlink base)
    (weaker : ∀ symlink base, levels symlink base = true → more symlink base = true)
    {items : List PathName} {result : PathName}
    (inside : itemsWithin files follow levels items result = true) :
    itemsWithin files other more items result = true := by
  induction items generalizing result with
  | nil => rfl
  | cons item p ih =>
      rw [itemsWithin] at inside ⊢
      by_cases dot : item = ['.']
      · simp only [dot, if_true] at inside ⊢
        exact ih inside
      · by_cases dots : item = ['.', '.']
        · simp only [dots, if_true] at inside ⊢
          exact ih inside
        · simp only [dot, dots, if_false] at inside ⊢
          cases mode : files.lstat (pathAppend result item) with
          | absent => rfl
          | other =>
              simp only [mode] at inside ⊢
              exact ih inside
          | link =>
              simp only [mode, Bool.and_eq_true] at inside ⊢
              rw [← same _ _ inside.1]
              exact ⟨weaker _ _ inside.1, ih inside.2⟩

theorem within_items {level : Nat} {path base_path : PathName} {real : Bool}
    (inside : within files (level + 1) path base_path real = true) (nonempty : path ≠ []) :
    itemsWithin files (fun symlink base => resolve files level symlink base true)
      (fun symlink base => within files level symlink base true)
      ((startingPoint files path base_path real).2 ++ splitPath path)
      (startingPoint files path base_path real).1 = true := by
  simpa [within, nonempty] using inside

theorem within_succ {level : Nat} {path base_path : PathName} {real : Bool}
    (inside : within files level path base_path real = true) :
    resolve files level path base_path real = resolve files (level + 1) path base_path real ∧
      within files (level + 1) path base_path real = true := by
  induction level generalizing path base_path real with
  | zero =>
      obtain rfl : path = [] := by simpa [within] using inside
      exact ⟨rfl, rfl⟩
  | succ level ih =>
      by_cases empty : path = []
      · subst empty
        exact ⟨rfl, rfl⟩
      · have items := within_items inside empty
        constructor
        · rw [resolve, resolve]
          simp only [List.isEmpty_iff, empty, if_false]
          rw [resolveItems_congr (fun symlink base here => (ih here).1) items]
        · have more := itemsWithin_mono (fun symlink base here => (ih here).1)
            (fun symlink base here => (ih here).2) items
          rw [within, Bool.or_eq_true]
          exact Or.inr more

theorem within_le {level more : Nat} {path base_path : PathName} {real : Bool}
    (inside : within files level path base_path real = true) (le : level ≤ more) :
    resolve files level path base_path real = resolve files more path base_path real ∧
      within files more path base_path real = true := by
  induction le with
  | refl => exact ⟨rfl, inside⟩
  | step _ ih =>
      have next := within_succ ih.2
      exact ⟨ih.1.trans next.1, next.2⟩

theorem resolve_absolute {path : PathName} (absolute : isAbsolute path = true) (level : Nat)
    (base other : PathName) (real also : Bool) :
    resolve files level path base real = resolve files level path other also := by
  cases level with
  | zero => rfl
  | succ level => simp only [resolve, startingPoint, absolute, if_true]

end Resolve

section Cached

variable (files : StaticFiles)

/-- The two system caches hold what the file system says. -/
structure Consistent (caches : RealpathCaches) : Prop where
  lstat : ∀ path mode, findCached caches.lstat_cache path = some mode → files.lstat path = mode
  readlink : ∀ path target, findCached caches.readlink_cache path = some target →
    files.readlink path = some target

variable {files}

theorem Consistent.remember {caches : RealpathCaches} (consistent : Consistent files caches)
    (cache : List (PathName × PathName)) : Consistent files { caches with cache := cache } :=
  ⟨consistent.lstat, consistent.readlink⟩

theorem cached_lstat_spec {caches : RealpathCaches} (consistent : Consistent files caches)
    (path : PathName) : (cached_lstat files path caches).1 = files.lstat path ∧
      (cached_lstat files path caches).2.cache = caches.cache ∧
      Consistent files (cached_lstat files path caches).2 := by
  rw [cached_lstat]
  cases known : findCached caches.lstat_cache path with
  | some mode => exact ⟨(consistent.lstat path mode known).symm, rfl, consistent⟩
  | none =>
      refine ⟨rfl, rfl, ?_, consistent.readlink⟩
      intro other mode found
      rw [findCached_insert] at found
      cases old : findCached caches.lstat_cache other with
      | some mode' =>
          obtain rfl : mode' = mode := by simpa [old] using found
          exact consistent.lstat other _ old
      | none =>
          by_cases same : other = path
          · subst same
            simpa [old] using found
          · simp [old, same] at found

theorem cached_readlink_spec {caches : RealpathCaches} (consistent : Consistent files caches)
    (path : PathName) : (cached_readlink files path caches).1 = (files.readlink path).getD [] ∧
      (cached_readlink files path caches).2.cache = caches.cache ∧
      Consistent files (cached_readlink files path caches).2 := by
  rw [cached_readlink]
  cases known : findCached caches.readlink_cache path with
  | some target =>
      refine ⟨?_, rfl, consistent⟩
      rw [consistent.readlink path target known]
      rfl
  | none =>
      cases target_eq : files.readlink path with
      | none => exact ⟨rfl, rfl, consistent⟩
      | some target =>
          refine ⟨rfl, rfl, consistent.lstat, ?_⟩
          intro other found_target found
          simp only [findCached_insert] at found
          cases old : findCached caches.readlink_cache other with
          | some target' =>
              obtain rfl : target' = found_target := by simpa [old] using found
              exact consistent.readlink other _ old
          | none =>
              by_cases same : other = path
              · subst same
                obtain rfl : target = found_target := by simpa [old] using found
                exact target_eq
              · simp [old, same] at found

end Cached

section Transparent

/-- A cached answer for an absolute path is the one that all the levels give. -/
structure Truthful (files : StaticFiles) (caches : RealpathCaches) : Prop where
  consistent : Consistent files caches
  answers : ∀ path result, isAbsolute path = true → findCached caches.cache path = some result →
    result = resolve files 40 path [] false

variable {files : StaticFiles}

theorem Truthful.of_system {caches next : RealpathCaches} (truthful : Truthful files caches)
    (consistent : Consistent files next) (same : next.cache = caches.cache) :
    Truthful files next :=
  ⟨consistent, by rw [same]; exact truthful.answers⟩

theorem handleItems_truthful
    {follow : PathName → PathName → RealpathCaches → PathName × RealpathCaches}
    {plain : PathName → PathName → PathName} {levels : PathName → PathName → Bool}
    (followed : ∀ symlink base caches, levels symlink base = true → Truthful files caches →
      (follow symlink base caches).1 = plain symlink base ∧
        Truthful files (follow symlink base caches).2)
    {items : List PathName} {result : PathName} {caches : RealpathCaches}
    (inside : itemsWithin files plain levels items result = true) (truthful : Truthful files caches) :
    (handleItems files follow items result caches).1 = resolveItems files plain items result ∧
      Truthful files (handleItems files follow items result caches).2 := by
  induction items generalizing result caches with
  | nil => exact ⟨rfl, truthful⟩
  | cons item p ih =>
      rw [handleItems, resolveItems]
      rw [itemsWithin] at inside
      by_cases dot : item = ['.']
      · simp only [dot, if_true] at inside ⊢
        exact ih inside truthful
      · by_cases dots : item = ['.', '.']
        · simp only [dots, if_true] at inside ⊢
          exact ih inside truthful
        · simp only [dot, dots, if_false] at inside ⊢
          obtain ⟨looked, looked_cache, looked_ok⟩ :=
            cached_lstat_spec truthful.consistent (pathAppend result item)
          have seen := truthful.of_system looked_ok looked_cache
          rw [looked]
          cases mode : files.lstat (pathAppend result item) with
          | absent => exact ⟨rfl, seen⟩
          | other =>
              simp only [mode] at inside
              exact ih inside seen
          | link =>
              simp only [mode, Bool.and_eq_true] at inside ⊢
              obtain ⟨read, read_cache, read_ok⟩ :=
                cached_readlink_spec seen.consistent (pathAppend result item)
              have known := seen.of_system read_ok read_cache
              rw [read]
              obtain ⟨target, after⟩ := followed _ _ _ inside.1 known
              rw [target]
              exact ih inside.2 after

theorem cached_realpath_truthful {level : Nat} (few : level ≤ 40) {path base_path : PathName}
    {real : Bool} {caches : RealpathCaches}
    (inside : within files level path base_path real = true) (truthful : Truthful files caches) :
    (cached_realpath files level path base_path real caches).1 =
        resolve files level path base_path real ∧
      Truthful files (cached_realpath files level path base_path real caches).2 := by
  induction level generalizing path base_path real caches with
  | zero => exact ⟨rfl, truthful⟩
  | succ level ih =>
      by_cases empty : path = []
      · subst empty
        exact ⟨rfl, truthful⟩
      · -- what all the levels give is what these levels give
        have all : isAbsolute path = true →
            resolve files (level + 1) path base_path real = resolve files 40 path [] false :=
          fun absolute => (within_le inside few).1.trans (resolve_absolute absolute 40 _ _ _ _)
        have followed : ∀ symlink base caches, within files level symlink base true = true →
            Truthful files caches →
            (cached_realpath files level symlink base true caches).1 =
                resolve files level symlink base true ∧
              Truthful files (cached_realpath files level symlink base true caches).2 :=
          fun _ _ _ here known => ih (by omega) here known
        have handled := handleItems_truthful followed (within_items inside empty) truthful
        have computed : resolve files (level + 1) path base_path real =
            (handleItems files
              (fun symlink base caches => cached_realpath files level symlink base true caches)
              ((startingPoint files path base_path real).2 ++ splitPath path)
              (startingPoint files path base_path real).1 caches).1.getD [] := by
          rw [handled.1, resolve]
          simp only [List.isEmpty_iff, empty, if_false]
        rw [cached_realpath]
        simp only [List.isEmpty_iff, empty, if_false]
        cases known : (if isAbsolute path = true then findCached caches.cache path else none) with
        | some result =>
            by_cases absolute : isAbsolute path = true
            · rw [if_pos absolute] at known
              exact ⟨(truthful.answers path result absolute known).trans (all absolute).symm,
                truthful⟩
            · rw [if_neg absolute] at known
              cases known
        | none =>
            refine ⟨computed.symm, handled.2.consistent.remember _, ?_⟩
            intro other result absolute found
            rw [findCached_insert] at found
            rcases Option.or_eq_some_iff.mp found with old | ⟨_, new⟩
            · exact handled.2.answers other result absolute old
            · by_cases same : other = path
              · subst same
                rw [if_pos rfl] at new
                rw [← Option.some.inj new, ← computed, all absolute]
              · rw [if_neg same] at new
                cases new

end Transparent

def answerAfter (files : StaticFiles) (history : List PathName) (path : PathName) : PathName :=
  (realpathCall files path
    (Runs.run (fun caches path => (realpathCall files path caches).2) {} history)).1

theorem truthful_after {files : StaticFiles} {history : List PathName}
    (shallow : ∀ path ∈ history, Shallow files path) {caches : RealpathCaches}
    (truthful : Truthful files caches) :
    Truthful files (Runs.run (fun caches path => (realpathCall files path caches).2) caches
      history) := by
  induction history generalizing caches with
  | nil => exact truthful
  | cons path history ih =>
      have next := (cached_realpath_truthful (Nat.le_refl 40) (shallow path List.mem_cons_self)
        truthful).2
      exact ih (fun other member => shallow other (List.mem_cons_of_mem _ member)) next

theorem start_truthful (files : StaticFiles) : Truthful files {} where
  consistent := ⟨fun path mode found => by simp [findCached] at found,
    fun path target found => by simp [findCached] at found⟩
  answers := fun path result _ found => by simp [findCached] at found

theorem answerAfter_eq {files : StaticFiles} {history : List PathName} {path : PathName}
    (shallow : ∀ path ∈ history, Shallow files path) (here : Shallow files path) :
    answerAfter files history path = resolve files 40 path [] false :=
  (cached_realpath_truthful (Nat.le_refl 40) here
    (truthful_after shallow (start_truthful files))).1

theorem realpath_history_free (files : StaticFiles) (path : PathName)
    (history other : List PathName)
    (shallow : ∀ called ∈ path :: (history ++ other), Shallow files called) :
    answerAfter files history path = answerAfter files other path ∧
      answerAfter files history path = answerAfter files [] path := by
  have here := shallow path List.mem_cons_self
  have left := answerAfter_eq (fun called member => shallow called
    (List.mem_cons_of_mem _ (List.mem_append_left _ member))) here
  have right := answerAfter_eq (fun called member => shallow called
    (List.mem_cons_of_mem _ (List.mem_append_right _ member))) here
  have none_before : ∀ called ∈ ([] : List PathName), Shallow files called :=
    fun called member => nomatch member
  rw [left, right, answerAfter_eq none_before here]
  exact ⟨rfl, rfl⟩

/-- Forty links in a row, `/A` to `/h`, each to the next, and the file `/i`. -/
def linkChain : StaticFiles where
  lstat := fun path => match path with
    | ['/', name] =>
        if 65 ≤ name.toNat ∧ name.toNat < 105 then .link
        else if name.toNat = 105 then .other
        else .absent
    | _ => .absent
  readlink := fun path => match path with
    | ['/', name] => some ['/', Char.ofNat (name.toNat + 1)]
    | _ => none
  home_directory := ['/']
  current_path := ['/']

theorem realpath_history_free_chain :
    answerAfter linkChain [['/', 'B'], ['/', 'i']] ['/', 'h'] =
        answerAfter linkChain [['/', 'g', '/', '.', '.']] ['/', 'h'] ∧
      answerAfter linkChain [['/', 'B'], ['/', 'i']] ['/', 'h'] =
        answerAfter linkChain [] ['/', 'h'] :=
  realpath_history_free linkChain ['/', 'h'] [['/', 'B'], ['/', 'i']]
    [['/', 'g', '/', '.', '.']] (by decide)

set_option maxRecDepth 10000 in
/-- The call for `/A` runs out of levels and leaves a failure for `/h`. -/
theorem realpath_after_deep_call :
    answerAfter linkChain [['/', 'A']] ['/', 'h'] ≠ answerAfter linkChain [] ['/', 'h'] := by
  decide

end CppInterOp
