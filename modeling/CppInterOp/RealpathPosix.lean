import CppInterOp.RealpathCache
import CppInterOp.RealpathTree

/-!
`cached_realpath` on an empty cache against POSIX path resolution: the answers agree as long
as nothing but `.` comes after a link that cannot be resolved.
-/

namespace CppInterOp

namespace FileTree

variable (tree : FileTree)

section Walks

/-- The loop over the items in the tree itself, on the names of the directory it is in. -/
def walkItems (follow : PathName → List PathName → Option (List PathName)) :
    List PathName → List PathName → Option (List PathName)
  | [], cur => some cur
  | item :: p, cur =>
      if item = ['.'] then walkItems follow p cur
      else if item = ['.', '.'] then walkItems follow p cur.dropLast
      else
        match tree.root.descend (cur ++ [item]) with
        | none => none
        | some (.link text) => (follow text cur).bind (walkItems follow p)
        | some _ => walkItems follow p (cur ++ [item])

def walk : Nat → PathName → List PathName → Option (List PathName)
  | 0, _, _ => none
  | level + 1, path, cur =>
      if path.isEmpty then none
      else walkItems tree (walk level) (splitPath path) (origin path cur)

/-- No link that cannot be resolved is followed by a component other than `.`, and no target
of a link is taken for the name of a host. -/
def tidyItems (follow : PathName → List PathName → Option (List PathName))
    (tidy : PathName → List PathName → Bool) : List PathName → List PathName → Bool
  | [], _ => true
  | item :: p, cur =>
      if item = ['.'] then tidyItems follow tidy p cur
      else if item = ['.', '.'] then tidyItems follow tidy p cur.dropLast
      else
        match tree.root.descend (cur ++ [item]) with
        | none => true
        | some (.link text) =>
            !isNetName text && tidy text cur &&
              match follow text cur with
              | none => p.all (· == ['.'])
              | some names => tidyItems follow tidy p names
        | some _ => tidyItems follow tidy p (cur ++ [item])

def tidy : Nat → PathName → List PathName → Bool
  | 0, _, _ => true
  | level + 1, path, cur =>
      path.isEmpty ||
        tidyItems tree (walk tree level) (tidy level) (splitPath path) (origin path cur)

/-- The condition on a path: it is tidy within the forty levels, and is itself not taken for
the name of a host. -/
def Tidy (path : PathName) : Prop := isNetName path = false ∧ tidy tree 40 path [] = true

instance : DecidablePred (Tidy tree) :=
  fun path => inferInstanceAs (Decidable (isNetName path = false ∧ tidy tree 40 path [] = true))

variable {tree}

theorem walkItems_mono {follow more : PathName → List PathName → Option (List PathName)}
    (extends_to : ∀ text cur names, follow text cur = some names → more text cur = some names)
    {items cur names : List PathName} (done : walkItems tree follow items cur = some names) :
    walkItems tree more items cur = some names := by
  induction items generalizing cur with
  | nil => exact done
  | cons item p ih =>
      rw [walkItems] at done ⊢
      by_cases dot : item = ['.']
      · simp only [dot, if_true] at done ⊢
        exact ih done
      · by_cases dots : item = ['.', '.']
        · simp only [dots, if_true] at done ⊢
          exact ih done
        · simp only [dot, dots, if_false] at done ⊢
          cases found : tree.root.descend (cur ++ [item]) with
          | none =>
              rw [found] at done
              cases done
          | some node =>
              rw [found] at done
              cases node with
              | dir entries => exact ih done
              | file => exact ih done
              | link text =>
                  obtain ⟨middle, followed, rest⟩ := Option.bind_eq_some_iff.mp done
                  exact Option.bind_eq_some_iff.mpr
                    ⟨middle, extends_to text cur middle followed, ih rest⟩

theorem walk_succ {level : Nat} {path : PathName} {cur names : List PathName}
    (done : walk tree level path cur = some names) : walk tree (level + 1) path cur = some names := by
  induction level generalizing path cur names with
  | zero => cases done
  | succ level ih =>
      rw [walk] at done ⊢
      by_cases empty : path.isEmpty
      · simp only [empty, if_true] at done
        cases done
      · simp only [empty, Bool.false_eq_true, if_false] at done ⊢
        exact walkItems_mono (fun text cur names followed => ih followed) done

theorem walk_le {level more : Nat} {path : PathName} {cur names : List PathName}
    (done : walk tree level path cur = some names) (le : level ≤ more) :
    walk tree more path cur = some names := by
  induction le with
  | refl => exact done
  | step _ ih => exact walk_succ ih

theorem walkItems_le {level more : Nat} {items cur names : List PathName}
    (done : walkItems tree (walk tree level) items cur = some names) (le : level ≤ more) :
    walkItems tree (walk tree more) items cur = some names :=
  walkItems_mono (fun _ _ _ followed => walk_le followed le) done

theorem walk_unique {level more : Nat} {path : PathName} {cur names others : List PathName}
    (done : walk tree level path cur = some names) (also : walk tree more path cur = some others) :
    names = others := by
  have left := walk_le done (Nat.le_max_left level more)
  have right := walk_le also (Nat.le_max_right level more)
  exact Option.some.inj (left.symm.trans right)

theorem walkItems_append {follow : PathName → List PathName → Option (List PathName)}
    (items more cur : List PathName) : walkItems tree follow (items ++ more) cur =
      (walkItems tree follow items cur).bind (walkItems tree follow more) := by
  induction items generalizing cur with
  | nil => rfl
  | cons item p ih =>
      rw [List.cons_append, walkItems, walkItems]
      by_cases dot : item = ['.']
      · simp only [dot, if_true]
        exact ih cur
      · by_cases dots : item = ['.', '.']
        · simp only [dots, if_true]
          exact ih cur.dropLast
        · simp only [dot, dots, if_false]
          cases found : tree.root.descend (cur ++ [item]) with
          | none => rfl
          | some node =>
              cases node with
              | dir entries => exact ih _
              | file => exact ih _
              | link text =>
                  simp only [Option.bind_assoc]
                  exact Option.bind_congr (fun names _ => ih names)

theorem walkItems_itemsOf {follow : PathName → List PathName → Option (List PathName)}
    (path : PathName) (cur : List PathName) :
    walkItems tree follow (itemsOf path) cur = walkItems tree follow (splitPath path) cur := by
  rw [itemsOf, walkItems_append]
  cases walked : walkItems tree follow (splitPath path) cur with
  | none => rfl
  | some names =>
      by_cases slash : (path.getLast? == some '/') = true
      · simp [slash, walkItems]
      · simp [slash, walkItems]

theorem walkItems_still {follow : PathName → List PathName → Option (List PathName)}
    {items : List PathName} (still : items.all (· == ['.']) = true) (cur : List PathName) :
    walkItems tree follow items cur = some cur := by
  induction items with
  | nil => rfl
  | cons item p ih =>
      rw [List.all_cons, Bool.and_eq_true, beq_iff_eq] at still
      rw [walkItems, if_pos still.1]
      exact ih still.2

end Walks

section Journeys

variable {tree : FileTree} {strict : Bool}

theorem Step.weaken {journey next : Journey} (step : Step tree strict journey next) :
    Step tree false journey next := by
  cases step with
  | dot _ => exact .dot nofun
  | dots _ => exact .dots nofun
  | enter dot dots found plain => exact .enter dot dots found plain
  | follow dot dots found nonempty => exact .follow dot dots found nonempty

theorem Step.unique : Relator.RightUnique (Step tree strict) := by
  intro journey next other step also
  cases step with
  | dot _ =>
      cases also with
      | dot _ => rfl
      | enter dot _ _ _ => exact absurd rfl dot
      | follow dot _ _ _ => exact absurd rfl dot
  | dots _ =>
      cases also with
      | dots _ => rfl
      | enter _ dots _ _ => exact absurd rfl dots
      | follow _ dots _ _ => exact absurd rfl dots
  | enter dot dots found plain =>
      cases also with
      | dot _ => exact absurd rfl dot
      | dots _ => exact absurd rfl dots
      | enter _ _ _ _ => rfl
      | follow _ _ also_found _ =>
          rw [found] at also_found
          cases also_found
          cases plain
  | follow dot dots found nonempty =>
      cases also with
      | dot _ => exact absurd rfl dot
      | dots _ => exact absurd rfl dots
      | enter _ _ also_found plain =>
          rw [found] at also_found
          cases also_found
          cases plain
      | follow _ _ also_found _ =>
          rw [found] at also_found
          cases also_found
          rfl

theorem Step.followed_le {journey next : Journey} (step : Step tree strict journey next) :
    journey.followed ≤ next.followed := by
  cases step with
  | dot _ => exact Nat.le_refl _
  | dots _ => exact Nat.le_refl _
  | enter _ _ _ _ => exact Nat.le_refl _
  | follow _ _ _ _ => exact Nat.le_succ _

theorem followed_le {journey last : Journey}
    (steps : Relation.ReflTransGen (Step tree strict) journey last) :
    journey.followed ≤ last.followed := by
  induction steps with
  | refl => exact Nat.le_refl _
  | tail _ step ih => exact Nat.le_trans ih step.followed_le

theorem no_step_at_end {followed : Nat} {cur : List PathName} {next : Journey} :
    ¬ Step tree strict ⟨followed, cur, []⟩ next := fun step => nomatch step

theorem Stuck.no_step {journey next : Journey} (stuck : Stuck tree journey) :
    ¬ Step tree strict journey next := by
  obtain ⟨name, items, here, dot, dots, nowhere⟩ := stuck
  intro step
  cases step with
  | dot _ =>
      obtain ⟨rfl, _⟩ := List.cons.inj here
      exact dot rfl
  | dots _ =>
      obtain ⟨rfl, _⟩ := List.cons.inj here
      exact dots rfl
  | enter _ _ found plain =>
      obtain ⟨rfl, _⟩ := List.cons.inj here
      rcases nowhere with absent | empty
      · rw [found] at absent
        cases absent
      · rw [found] at empty
        cases empty
        cases plain
  | follow _ _ found nonempty =>
      obtain ⟨rfl, _⟩ := List.cons.inj here
      rcases nowhere with absent | empty
      · rw [found] at absent
        cases absent
      · rw [found] at empty
        cases empty
        exact nonempty rfl

/-- A journey that ends is met by the walk, with a level for each link it still follows. -/
theorem walkItems_of_journey {journey last : Journey}
    (steps : Relation.ReflTransGen (Step tree strict) journey last) (ended : last.items = [])
    {level : Nat} (few : last.followed ≤ journey.followed + level) :
    walkItems tree (walk tree level) journey.items journey.cur = some last.cur := by
  induction steps using Relation.ReflTransGen.head_induction_on generalizing level with
  | refl => rw [ended, walkItems]
  | head step rest ih =>
      cases step with
      | dot _ =>
          rw [walkItems, if_pos rfl]
          exact ih few
      | dots _ =>
          rw [walkItems, if_neg (by decide), if_pos rfl]
          exact ih few
      | enter dot dots found plain =>
          rw [walkItems, if_neg dot, if_neg dots, found]
          rename_i node
          cases node with
          | dir entries => exact ih few
          | file => exact ih few
          | link text => cases plain
      | follow dot dots found nonempty =>
          rename_i followed cur name items text
          have later := followed_le rest
          dsimp only at few later ih ⊢
          obtain ⟨fewer, rfl⟩ : ∃ fewer, level = fewer + 1 := ⟨level - 1, by omega⟩
          have both : walkItems tree (walk tree fewer) (itemsOf text ++ items) (origin text cur) =
              some last.cur := ih (by omega)
          rw [walkItems_append, walkItems_itemsOf] at both
          obtain ⟨names, target, onward⟩ := Option.bind_eq_some_iff.mp both
          rw [walkItems, if_neg dot, if_neg dots, found]
          refine Option.bind_eq_some_iff.mpr
            ⟨names, ?_, walkItems_le onward (Nat.le_succ fewer)⟩
          rw [walk, if_neg (by simpa using nonempty)]
          exact target

def Leads (tree : FileTree) (items cur names : List PathName) : Prop :=
  ∀ followed rest, ∃ more, Relation.ReflTransGen (Step tree false)
    ⟨followed, cur, items ++ rest⟩ ⟨followed + more, names, rest⟩

theorem Leads.final_separator {path : PathName} {cur names : List PathName}
    (leads : Leads tree (splitPath path) cur names) : Leads tree (itemsOf path) cur names := by
  intro followed rest
  by_cases slash : (path.getLast? == some '/') = true
  · obtain ⟨more, steps⟩ := leads followed (['.'] :: rest)
    refine ⟨more, .tail ?_ (.dot nofun)⟩
    simpa [itemsOf, slash] using steps
  · simpa [itemsOf, slash] using leads followed rest

theorem leads_of_items {follow : PathName → List PathName → Option (List PathName)}
    (nested : ∀ text cur names, follow text cur = some names →
      text ≠ [] ∧ Leads tree (itemsOf text) (origin text cur) names)
    {items cur names : List PathName} (done : walkItems tree follow items cur = some names) :
    Leads tree items cur names := by
  induction items generalizing cur with
  | nil =>
      cases done
      exact fun followed rest => ⟨0, .refl⟩
  | cons item p ih =>
      intro followed rest
      rw [walkItems] at done
      by_cases dot : item = ['.']
      · subst dot
        obtain ⟨more, steps⟩ := ih done followed rest
        exact ⟨more, .head (.dot nofun) steps⟩
      · by_cases dots : item = ['.', '.']
        · subst dots
          obtain ⟨more, steps⟩ := ih done followed rest
          exact ⟨more, .head (.dots nofun) steps⟩
        · simp only [dot, dots, if_false] at done
          cases found : tree.root.descend (cur ++ [item]) with
          | none =>
              rw [found] at done
              cases done
          | some node =>
              rw [found] at done
              cases node with
              | dir entries =>
                  obtain ⟨more, steps⟩ := ih done followed rest
                  exact ⟨more, .head (.enter dot dots found rfl) steps⟩
              | file =>
                  obtain ⟨more, steps⟩ := ih done followed rest
                  exact ⟨more, .head (.enter dot dots found rfl) steps⟩
              | link text =>
                  obtain ⟨middle, target, onward⟩ := Option.bind_eq_some_iff.mp done
                  obtain ⟨nonempty, leads⟩ := nested text cur middle target
                  obtain ⟨inside, within_link⟩ := leads (followed + 1) (p ++ rest)
                  obtain ⟨more, steps⟩ := ih onward (followed + 1 + inside) rest
                  refine ⟨1 + inside + more, .head (.follow dot dots found nonempty) ?_⟩
                  rw [← Nat.add_assoc, ← Nat.add_assoc]
                  exact within_link.trans steps

theorem leads_of_walk {level : Nat} {path : PathName} {cur names : List PathName}
    (done : walk tree level path cur = some names) :
    path ≠ [] ∧ Leads tree (itemsOf path) (origin path cur) names := by
  induction level generalizing path cur names with
  | zero => cases done
  | succ level ih =>
      rw [walk] at done
      by_cases empty : path = []
      · simp [empty] at done
      · simp only [List.isEmpty_iff, empty, if_false] at done
        exact ⟨empty, (leads_of_items (fun _ _ _ target => ih target) done).final_separator⟩

/-- A path that resolves at any depth has all its components, and its links end. -/
theorem not_broken_of_walk {level : Nat} {path : PathName} {names : List PathName}
    (done : walk tree level path [] = some names) : ¬ (Missing tree path ∨ Cyclic tree path) := by
  obtain ⟨more, steps⟩ := (leads_of_walk done).2 0 []
  have at_root : origin path [] = [] := by
    rw [origin, ite_self]
  rw [at_root, List.append_nil] at steps
  rintro (⟨journey, reached, stuck⟩ | cyclic)
  · rcases Relation.ReflTransGen.total_of_right_unique Step.unique steps reached with on | on
    · rcases Relation.ReflTransGen.cases_head on with same | ⟨next, step, _⟩
      · obtain ⟨name, items, here, _⟩ := stuck
        rw [← same] at here
        cases here
      · exact no_step_at_end step
    · rcases Relation.ReflTransGen.cases_head on with same | ⟨next, step, _⟩
      · obtain ⟨name, items, here, _⟩ := stuck
        rw [same] at here
        cases here
      · exact stuck.no_step step
  · obtain ⟨journey, reached, count⟩ := cyclic (more + 1)
    rcases Relation.ReflTransGen.total_of_right_unique Step.unique steps reached with on | on
    · rcases Relation.ReflTransGen.cases_head on with same | ⟨next, step, _⟩
      · rw [← same] at count
        dsimp only at count
        omega
      · exact no_step_at_end step
    · have fewer := followed_le on
      dsimp only at fewer
      omega

theorem walk_of_resolves {path : PathName} {links : Nat} {names : List PathName}
    (resolves : Resolves tree path links names) {level : Nat} (nonempty : path ≠ [])
    (few : links < level) : walk tree level path [] = some names := by
  obtain ⟨fewer, rfl⟩ : ∃ fewer, level = fewer + 1 := ⟨level - 1, by omega⟩
  have done : walkItems tree (walk tree fewer) (start path).items (start path).cur = some names :=
    walkItems_of_journey resolves rfl (by simp only [start]; omega)
  rw [start, walkItems_itemsOf] at done
  rw [walk, if_neg (by simpa using nonempty)]
  simpa [origin] using done

end Journeys

section Answers

variable {tree : FileTree}

theorem canonical_root : Canonical tree [] where
  left := fun name member => nomatch member
  right := by
    intro before prefixed
    rw [List.prefix_nil.mp prefixed]
    exact ⟨tree.root, rfl, rfl⟩

theorem Canonical.parent {names : List PathName} (canonical : Canonical tree names) :
    Canonical tree names.dropLast where
  left := fun name member => canonical.1 name (List.dropLast_subset names member)
  right := fun before prefixed => canonical.2 before (prefixed.trans (List.dropLast_prefix names))

theorem Canonical.child {names : List PathName} (canonical : Canonical tree names)
    {name : PathName} (valid : IsName name) (dot : name ≠ ['.']) (dots : name ≠ ['.', '.'])
    {node : Node} (found : tree.root.descend (names ++ [name]) = some node)
    (plain : node.isLink = false) : Canonical tree (names ++ [name]) where
  left := by
    intro other member
    rcases List.mem_append.mp member with old | new
    · exact canonical.1 other old
    · obtain rfl := List.mem_singleton.mp new
      exact ⟨valid, dot, dots⟩
  right := by
    intro before prefixed
    rcases List.prefix_concat_iff.mp prefixed with rfl | shorter
    · exact ⟨node, found, plain⟩
    · exact canonical.2 before shorter

theorem Canonical.names_valid {names : List PathName} (canonical : Canonical tree names) :
    ∀ name ∈ names, IsName name := fun name member => (canonical.1 name member).1

theorem Canonical.lstat {names : List PathName} (canonical : Canonical tree names)
    {name : PathName} (valid : IsName name) : tree.files.lstat (pathAppend (render names) name) =
      Node.mode (tree.root.descend (names ++ [name])) := by
  obtain ⟨node, at_names, plain⟩ := canonical.2 names (List.prefix_refl names)
  rw [pathAppend_render canonical.names_valid valid, Node.descend_append, at_names]
  exact tree.lstat_eq names name node canonical.names_valid valid at_names plain

theorem Canonical.readlink {names : List PathName} (canonical : Canonical tree names)
    {name : PathName} (valid : IsName name) :
    tree.files.readlink (pathAppend (render names) name) =
      Node.target (tree.root.descend (names ++ [name])) := by
  obtain ⟨node, at_names, plain⟩ := canonical.2 names (List.prefix_refl names)
  rw [pathAppend_render canonical.names_valid valid, Node.descend_append, at_names]
  exact tree.readlink_eq names name node canonical.names_valid valid at_names plain

structure Remembered (tree : FileTree) (caches : RealpathCaches) : Prop where
  consistent : Consistent tree.files caches
  answers : ∀ path result, isAbsolute path = true → findCached caches.cache path = some result →
    ∃ names level, result = render names ∧ Canonical tree names ∧
      walk tree level path [] = some names

theorem Remembered.of_system {caches next : RealpathCaches} (remembered : Remembered tree caches)
    (consistent : Consistent tree.files next) (same : next.cache = caches.cache) :
    Remembered tree next :=
  ⟨consistent, by rw [same]; exact remembered.answers⟩

def Answered (tree : FileTree) (reached : Nat → Option (List PathName)) (level : Nat)
    (answer : PathName × RealpathCaches) : Prop :=
  (answer.1 = [] ∧ reached level = none) ∨
    ∃ names more, answer.1 = render names ∧ Canonical tree names ∧ reached more = some names ∧
      Remembered tree answer.2

theorem handleItems_still {files : StaticFiles}
    {follow : PathName → PathName → RealpathCaches → PathName × RealpathCaches}
    {items : List PathName} (still : items.all (· == ['.']) = true) (result : PathName)
    (caches : RealpathCaches) :
    handleItems files follow items result caches = (some result, caches) := by
  induction items with
  | nil => rfl
  | cons item p ih =>
      rw [List.all_cons, Bool.and_eq_true, beq_iff_eq] at still
      rw [handleItems, if_pos still.1]
      exact ih still.2

theorem handleItems_answered {level : Nat}
    {follow : PathName → PathName → RealpathCaches → PathName × RealpathCaches}
    (nested : ∀ text cur caches, isNetName text = false → tidy tree level text cur = true →
      Canonical tree cur → Remembered tree caches →
        Answered tree (fun more => walk tree more text cur) level
          (follow text (linkBase text (render cur)) caches))
    {items cur : List PathName} {caches : RealpathCaches}
    (valid : ∀ item ∈ items, IsName item)
    (is_tidy : tidyItems tree (walk tree level) (tidy tree level) items cur = true)
    (canonical : Canonical tree cur) (remembered : Remembered tree caches) :
    Answered tree (fun more => walkItems tree (walk tree more) items cur) level
      ((handleItems tree.files follow items (render cur) caches).1.getD [],
        (handleItems tree.files follow items (render cur) caches).2) := by
  induction items generalizing cur caches with
  | nil => exact Or.inr ⟨cur, level, rfl, canonical, rfl, remembered⟩
  | cons item p ih =>
      have later := fun other member => valid other (List.mem_cons_of_mem item member)
      have here := valid item List.mem_cons_self
      simp only [walkItems]
      rw [handleItems]
      rw [tidyItems] at is_tidy
      by_cases dot : item = ['.']
      · simp only [dot, if_true] at is_tidy ⊢
        exact ih later is_tidy canonical remembered
      · by_cases dots : item = ['.', '.']
        · simp only [dots, if_true] at is_tidy ⊢
          rw [if_neg (by decide)] at is_tidy ⊢
          rw [popComponent_render canonical.names_valid]
          exact ih later is_tidy canonical.parent remembered
        · simp only [dot, dots, if_false] at is_tidy ⊢
          obtain ⟨looked, looked_cache, looked_ok⟩ :=
            cached_lstat_spec remembered.consistent (pathAppend (render cur) item)
          have seen := remembered.of_system looked_ok looked_cache
          rw [looked, canonical.lstat here]
          cases found : tree.root.descend (cur ++ [item]) with
          | none => exact Or.inl ⟨rfl, rfl⟩
          | some node =>
              cases node with
              | dir entries =>
                  rw [pathAppend_render canonical.names_valid here] at seen ⊢
                  rw [found] at is_tidy
                  exact ih later is_tidy (canonical.child here dot dots found rfl) seen
              | file =>
                  rw [pathAppend_render canonical.names_valid here] at seen ⊢
                  rw [found] at is_tidy
                  exact ih later is_tidy (canonical.child here dot dots found rfl) seen
              | link text =>
                  obtain ⟨read, read_cache, read_ok⟩ :=
                    cached_readlink_spec seen.consistent (pathAppend (render cur) item)
                  have known := seen.of_system read_ok read_cache
                  rw [found] at is_tidy
                  simp only [Bool.and_eq_true, Bool.not_eq_true'] at is_tidy
                  obtain ⟨⟨no_host, inner⟩, onward⟩ := is_tidy
                  simp only [Node.mode]
                  rw [read, canonical.readlink here, found]
                  simp only [Node.target, Option.getD_some]
                  rcases nested text cur _ no_host inner canonical known with
                    ⟨nothing, unreached⟩ | ⟨names, more, same, good, reached, after⟩
                  · dsimp only at unreached
                    rw [unreached] at onward
                    rw [nothing, handleItems_still onward]
                    refine Or.inl ⟨rfl, ?_⟩
                    dsimp only
                    rw [unreached, Option.bind_none]
                  · rw [same]
                    cases at_level : walk tree level text cur with
                    | none =>
                        -- the answer was remembered from a call with more levels
                        rw [at_level] at onward
                        rw [handleItems_still onward]
                        refine Or.inr ⟨names, more, rfl, good, ?_, after⟩
                        exact Option.bind_eq_some_iff.mpr
                          ⟨names, reached, walkItems_still onward names⟩
                    | some others =>
                        obtain rfl := walk_unique at_level reached
                        rw [at_level] at onward
                        rcases ih later onward good after with
                          ⟨nothing, stops⟩ | ⟨last, most, ends, fine, arrived, remembers⟩
                        · refine Or.inl ⟨nothing, ?_⟩
                          dsimp only
                          rw [at_level]
                          exact stops
                        · refine Or.inr ⟨last, max more most, ends, fine, ?_, remembers⟩
                          exact Option.bind_eq_some_iff.mpr ⟨others,
                            walk_le reached (Nat.le_max_left more most),
                            walkItems_le arrived (Nat.le_max_right more most)⟩

theorem isAbsolute_local {path : PathName} (no_host : isNetName path = false) :
    isAbsolute path = (path.head? == some '/') := by
  rw [isAbsolute, no_host, Bool.not_false, Bool.and_true]

theorem startingPoint_link {files : StaticFiles} {text : PathName}
    (no_host : isNetName text = false) (cur : List PathName) :
    startingPoint files text (linkBase text (render cur)) true = (render (origin text cur), []) := by
  by_cases absolute : (text.head? == some '/') = true
  · simp [startingPoint, isAbsolute_local no_host, absolute, origin, render]
  · simp [startingPoint, linkBase, isAbsolute_local no_host, absolute, origin]

theorem Canonical.origin {cur : List PathName} (canonical : Canonical tree cur) (text : PathName) :
    Canonical tree (origin text cur) := by
  by_cases absolute : (text.head? == some '/') = true
  · rw [FileTree.origin, if_pos absolute]
    exact canonical_root
  · rw [FileTree.origin, if_neg absolute]
    exact canonical

theorem walk_absolute {path : PathName} (absolute : (path.head? == some '/') = true) (level : Nat)
    (cur : List PathName) : walk tree level path cur = walk tree level path [] := by
  cases level with
  | zero => rfl
  | succ level => simp only [walk, origin, absolute, if_true]

theorem cached_realpath_answered {level : Nat} {path base_path : PathName} {real : Bool}
    {cur : List PathName} {caches : RealpathCaches} (no_host : isNetName path = false)
    (starts : startingPoint tree.files path base_path real = (render (origin path cur), []))
    (is_tidy : tidy tree level path cur = true) (canonical : Canonical tree cur)
    (remembered : Remembered tree caches) :
    Answered tree (fun more => walk tree more path cur) level
      (cached_realpath tree.files level path base_path real caches) := by
  induction level generalizing path base_path real cur caches with
  | zero => exact Or.inl ⟨rfl, rfl⟩
  | succ level ih =>
      by_cases empty : path = []
      · subst empty
        exact Or.inl ⟨rfl, rfl⟩
      · have items_tidy : tidyItems tree (walk tree level) (tidy tree level) (splitPath path)
            (origin path cur) = true := by
          simpa [tidy, empty] using is_tidy
        have nested : ∀ text base caches, isNetName text = false →
            tidy tree level text base = true → Canonical tree base → Remembered tree caches →
              Answered tree (fun more => walk tree more text base) level
                (cached_realpath tree.files level text (linkBase text (render base)) true caches) :=
          fun _ base _ no_host inner good known =>
            ih no_host (startingPoint_link no_host base) inner good known
        have handled := @handleItems_answered tree level
          (fun text base caches => cached_realpath tree.files level text base true caches)
          nested _ _ _ (splitPath_names path) items_tidy (canonical.origin path) remembered
        rw [cached_realpath]
        simp only [List.isEmpty_iff, empty, if_false]
        cases known : (if isAbsolute path = true then findCached caches.cache path else none) with
        | some result =>
            by_cases absolute : isAbsolute path = true
            · rw [if_pos absolute] at known
              obtain ⟨names, more, same, good, reached⟩ :=
                remembered.answers path result absolute known
              rw [isAbsolute_local no_host] at absolute
              exact Or.inr ⟨names, more, same, good,
                (walk_absolute absolute more cur).trans reached, remembered⟩
            · rw [if_neg absolute] at known
              cases known
        | none =>
            simp only [starts, List.nil_append]
            rcases handled with
              ⟨nothing, stops⟩ | ⟨names, more, same, good, reached, after⟩
            · refine Or.inl ⟨nothing, ?_⟩
              simpa [walk, empty] using stops
            · have walked : walk tree (more + 1) path cur = some names := by
                simpa [walk, empty] using reached
              refine Or.inr ⟨names, more + 1, same, good, walked, after.consistent.remember _, ?_⟩
              intro other result absolute found
              rw [findCached_insert] at found
              rcases Option.or_eq_some_iff.mp found with old | ⟨_, new⟩
              · exact after.answers other result absolute old
              · by_cases here : other = path
                · subst here
                  rw [if_pos rfl] at new
                  rw [isAbsolute_local no_host] at absolute
                  exact ⟨names, more + 1, (Option.some.inj new).symm.trans same, good,
                    (walk_absolute absolute (more + 1) cur).symm.trans walked⟩
                · rw [if_neg here] at new
                  cases new

theorem start_remembered : Remembered tree {} where
  consistent := (start_truthful tree.files).consistent
  answers := fun path result _ found => by simp [findCached] at found

theorem first_call_answered {path : PathName} (absolute : path.head? = some '/')
    (is_tidy : Tidy tree path) : Answered tree (fun more => walk tree more path []) 40
      (realpathCall tree.files path {}) := by
  have starts : startingPoint tree.files path [] false = (render (origin path []), []) := by
    simp [startingPoint, isAbsolute_local is_tidy.1, absolute, origin, render]
  exact cached_realpath_answered is_tidy.1 starts is_tidy.2 canonical_root start_remembered

theorem realpath_posix (tree : FileTree) (path : PathName) (absolute : path.head? = some '/')
    (is_tidy : Tidy tree path) :
    (∀ links names, Resolves tree path links names → links < 40 →
      (realpathCall tree.files path {}).1 = render names ∧ Canonical tree names) ∧
    (Missing tree path ∨ Cyclic tree path → (realpathCall tree.files path {}).1 = []) := by
  have nonempty : path ≠ [] := by
    rintro rfl
    cases absolute
  constructor
  · intro links names resolves few
    have walked := walk_of_resolves resolves nonempty few
    rcases first_call_answered absolute is_tidy with
      ⟨_, unreached⟩ | ⟨others, more, same, good, reached, _⟩
    · exact absurd (walked.symm.trans unreached) nofun
    · obtain rfl := walk_unique walked reached
      exact ⟨same, good⟩
  · intro broken
    rcases first_call_answered absolute is_tidy with
      ⟨nothing, _⟩ | ⟨others, more, _, _, reached, _⟩
    · exact nothing
    · exact absurd broken (not_broken_of_walk reached)

end Answers

/-- A link that leads nowhere, a file beside it, and a directory with a link to its parent. -/
def brokenLink : FileTree :=
  ofEntries
    [("d".toList, .link "/nowhere".toList), ("x".toList, .file),
      ("w".toList, .dir [("up".toList, .link "..".toList)])]
    "/".toList "/w".toList

theorem realpath_posix_up :
    (∀ links names, Resolves brokenLink "/w/up/x".toList links names → links < 40 →
      (realpathCall brokenLink.files "/w/up/x".toList {}).1 = render names ∧
        Canonical brokenLink names) ∧
    (Missing brokenLink "/w/up/x".toList ∨ Cyclic brokenLink "/w/up/x".toList →
      (realpathCall brokenLink.files "/w/up/x".toList {}).1 = []) :=
  realpath_posix brokenLink "/w/up/x".toList rfl (by decide)

/-- After `/d`, which leads nowhere, `..` starts again at the root; and `//x` is looked up in
the current directory. -/
theorem realpath_past_missing :
    Missing brokenLink "/d/../x".toList ∧
      (realpathCall brokenLink.files "/d/../x".toList {}).1 = "/x".toList ∧
      Resolves brokenLink "//x".toList 0 ["x".toList] ∧
      (realpathCall brokenLink.files "//x".toList {}).1 = [] := by
  have at_d : brokenLink.root.descend ["d".toList] = some (.link "/nowhere".toList) := rfl
  have at_x : brokenLink.root.descend ["x".toList] = some .file := rfl
  have dot : "d".toList ≠ ['.'] ∧ "d".toList ≠ ['.', '.'] := by decide
  have leads : Step brokenLink false (start "/d/../x".toList)
      ⟨1, [], ["nowhere".toList, "..".toList, "x".toList]⟩ :=
    .follow dot.1 dot.2 at_d (List.cons_ne_nil '/' "nowhere".toList)
  have plain : "x".toList ≠ ['.'] ∧ "x".toList ≠ ['.', '.'] := by decide
  have arrives : Step brokenLink true (start "//x".toList) ⟨0, ["x".toList], []⟩ :=
    .enter plain.1 plain.2 at_x rfl
  refine ⟨⟨_, .single leads, ?_⟩, by decide, .single arrives, by decide⟩
  exact ⟨"nowhere".toList, _, rfl, by decide, by decide, Or.inl rfl⟩

end FileTree

end CppInterOp
