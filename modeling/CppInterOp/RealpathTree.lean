import Mathlib.Logic.Relation
import CppInterOp.RealpathCore

/-!
Trees of directories, files and symbolic links, the POSIX resolution of a path in such a
tree, and the texts of the paths that name its nodes.
-/

namespace CppInterOp

inductive Node
  | dir (entries : List (PathName × Node))
  | file
  | link (target : PathName)

namespace Node

def isLink : Node → Bool
  | link _ => true
  | _ => false

def isDir : Node → Bool
  | dir _ => true
  | _ => false

def mode : Option Node → Mode
  | none => .absent
  | some (link _) => .link
  | some _ => .other

def target : Option Node → Option PathName
  | some (link text) => some text
  | _ => none

def entry : Node → PathName → Option Node
  | dir entries, name => (entries.find? fun entry => entry.1 == name).map Prod.snd
  | _, _ => none

def descend (root : Node) (names : List PathName) : Option Node := names.foldlM entry root

theorem descend_append (root : Node) (names : List PathName) (name : PathName) :
    root.descend (names ++ [name]) = (root.descend names).bind (entry · name) := by
  rw [descend, List.foldlM_append]
  cases at_names : names.foldlM entry root with
  | none => simp [descend, at_names]
  | some node => simp [descend, at_names]

end Node

def IsName (name : PathName) : Prop := name ≠ [] ∧ '/' ∉ name

def render : List PathName → PathName
  | [] => ['/']
  | names => names.flatMap ('/' :: ·)

section Texts

theorem splitOn_clean (text : PathName) : ∀ part ∈ text.splitOn '/', '/' ∉ part := by
  induction text with
  | nil =>
      intro part member
      rw [List.splitOn_nil, List.mem_singleton] at member
      simp [member]
  | cons letter text ih =>
      rw [List.splitOn_cons_eq_if_modifyHead]
      by_cases separator : letter = '/'
      · simp only [separator, BEq.rfl, if_true, List.mem_cons, forall_eq_or_imp]
        exact ⟨List.not_mem_nil, ih⟩
      · have other : (letter == '/') = false := by simpa using separator
        simp only [other, Bool.false_eq_true, if_false]
        cases parts : text.splitOn '/' with
        | nil => exact absurd parts (List.splitOn_ne_nil _ _)
        | cons first rest =>
            rw [parts] at ih
            intro part member
            rcases List.mem_cons.mp member with rfl | later
            · have clean := ih first List.mem_cons_self
              simp [clean, Ne.symm separator]
            · exact ih part (List.mem_cons_of_mem _ later)

theorem splitPath_names (path : PathName) : ∀ name ∈ splitPath path, IsName name := by
  intro name member
  rw [splitPath, List.mem_filter] at member
  exact ⟨by simpa using member.2, splitOn_clean path name member.1⟩

theorem splitPath_append {name : PathName} (valid : IsName name) (rest : PathName) :
    splitPath (name ++ '/' :: rest) = name :: splitPath rest := by
  simp [splitPath, List.splitOn_append_cons_self_of_not_mem valid.2, valid.1]

theorem splitPath_separator (rest : PathName) : splitPath ('/' :: rest) = splitPath rest := by
  rw [splitPath, List.splitOn_cons_eq_if_modifyHead]
  simp [splitPath]

theorem splitPath_name {name : PathName} (valid : IsName name) : splitPath name = [name] := by
  simp [splitPath, List.splitOn_eq_singleton valid.2, valid.1]

theorem splitPath_flat {names : List PathName} (valid : ∀ name ∈ names, IsName name) :
    splitPath (names.flatMap ('/' :: ·)) = names := by
  induction names with
  | nil => rfl
  | cons name names ih =>
      have rest := ih (fun other member => valid other (List.mem_cons_of_mem _ member))
      have here := valid name List.mem_cons_self
      rw [List.flatMap_cons, List.cons_append, splitPath_separator]
      cases names with
      | nil => simpa using splitPath_name here
      | cons next names =>
          rw [List.flatMap_cons, List.cons_append, splitPath_separator] at rest
          rw [List.flatMap_cons, List.cons_append, splitPath_append here, rest]

theorem render_of_ne {names : List PathName} (nonempty : names ≠ []) :
    render names = names.flatMap ('/' :: ·) := by
  cases names with
  | nil => exact absurd rfl nonempty
  | cons name names => rfl

theorem splitPath_render {names : List PathName} (valid : ∀ name ∈ names, IsName name) :
    splitPath (render names) = names := by
  cases names with
  | nil => decide
  | cons name names =>
      rw [render_of_ne (List.cons_ne_nil _ _)]
      exact splitPath_flat valid

theorem render_append (names : List PathName) (name : PathName) :
    render (names ++ [name]) = names.flatMap ('/' :: ·) ++ '/' :: name := by
  rw [render_of_ne (by simp), List.flatMap_append, List.flatMap_singleton]

theorem render_ne_nil (names : List PathName) : render names ≠ [] := by
  cases names with
  | nil => simp [render]
  | cons name names => simp [render]

theorem pathAppend_render {names : List PathName} (valid : ∀ name ∈ names, IsName name)
    {name : PathName} (here : IsName name) :
    pathAppend (render names) name = render (names ++ [name]) := by
  obtain ⟨first, letters, rfl⟩ := List.exists_cons_of_ne_nil here.1
  have no_separator : first ≠ '/' := fun same => here.2 (same ▸ List.mem_cons_self)
  rw [render_append]
  rcases List.eq_nil_or_concat names with rfl | ⟨before, last, rfl⟩
  · simp [pathAppend, render, no_separator]
  · have ending := valid last (by simp)
    have last_letter : (render (before.concat last)).getLast? = last.getLast? := by
      rw [List.concat_eq_append, render_append, List.getLast?_append, List.getLast?_cons]
      cases last_eq : last.getLast? with
      | none => exact absurd (List.getLast?_eq_none_iff.mp last_eq) ending.1
      | some letter => rfl
    have no_slash : (last.getLast? == some '/') = false := by
      rw [beq_eq_false_iff_ne]
      intro slash
      exact ending.2 (List.mem_of_getLast? slash)
    have head : ((first :: letters).head? == some '/') = false := by simpa using no_separator
    rw [pathAppend, last_letter, no_slash]
    simp only [Bool.false_eq_true, if_false, head, Bool.or_false, List.isEmpty_iff,
      render_ne_nil]
    rw [render_of_ne (by simp)]

theorem popComponent_render {names : List PathName} (valid : ∀ name ∈ names, IsName name) :
    popComponent (render names) = render names.dropLast := by
  rcases List.eq_nil_or_concat names with rfl | ⟨before, last, rfl⟩
  · decide
  · have ending := valid last (by simp)
    have letters : ∀ letter ∈ last.reverse, (letter != '/') = true := by
      intro letter member
      rw [bne_iff_ne]
      intro slash
      exact ending.2 (slash ▸ List.mem_reverse.mp member)
    have cut : (render (before ++ [last])).reverse.dropWhile (· != '/') =
        '/' :: (before.flatMap ('/' :: ·)).reverse := by
      rw [render_append, List.reverse_append, List.reverse_cons, List.append_assoc,
        List.dropWhile_append_of_pos letters]
      simp
    have has : (render (before ++ [last])).contains '/' = true := by
      rw [render_append]
      simp
    rw [List.concat_eq_append, List.dropLast_concat, popComponent]
    simp only [has, if_true, cut, List.drop_succ_cons, List.drop_zero, List.reverse_reverse]
    cases before with
    | nil => rfl
    | cons first rest => rfl

end Texts

/-- A tree, and the system calls on it as far as they matter: on an absolute path that goes
through no link on its way. -/
structure FileTree where
  entries : List (PathName × Node)
  files : StaticFiles
  lstat_eq : ∀ names name node, (∀ part ∈ names, IsName part) → IsName name →
    (Node.dir entries).descend names = some node → node.isLink = false →
      files.lstat (render (names ++ [name])) = Node.mode (node.entry name)
  readlink_eq : ∀ names name node, (∀ part ∈ names, IsName part) → IsName name →
    (Node.dir entries).descend names = some node → node.isLink = false →
      files.readlink (render (names ++ [name])) = Node.target (node.entry name)

namespace FileTree

def root (tree : FileTree) : Node := .dir tree.entries

def ofEntries (entries : List (PathName × Node)) (home_directory current_path : PathName) :
    FileTree where
  entries := entries
  files :=
    { lstat := fun path => Node.mode ((Node.dir entries).descend (splitPath path))
      readlink := fun path => Node.target ((Node.dir entries).descend (splitPath path))
      home_directory := home_directory
      current_path := current_path }
  lstat_eq := by
    intro names name node valid here at_names _
    have all : ∀ part ∈ names ++ [name], IsName part := by simpa [or_imp, forall_and] using
      ⟨valid, here⟩
    simp only [splitPath_render all, Node.descend_append, at_names, Option.bind_some]
  readlink_eq := by
    intro names name node valid here at_names _
    have all : ∀ part ∈ names ++ [name], IsName part := by simpa [or_imp, forall_and] using
      ⟨valid, here⟩
    simp only [splitPath_render all, Node.descend_append, at_names, Option.bind_some]

/-- A resolution on its way: the directory it is in, what remains of the path, and how many
links it has followed. -/
structure Journey where
  followed : Nat
  cur : List PathName
  items : List PathName

/-- The items of a path; one that ends in a separator asks for a directory. -/
def itemsOf (path : PathName) : List PathName :=
  splitPath path ++ if path.getLast? == some '/' then [['.']] else []

def origin (text : PathName) (cur : List PathName) : List PathName :=
  if text.head? == some '/' then [] else cur

/-- One step of POSIX path resolution. With `strict`, `.` and `..` need a directory. -/
inductive Step (tree : FileTree) (strict : Bool) : Journey → Journey → Prop
  | dot {followed cur items} :
      (strict = true → (tree.root.descend cur).any Node.isDir = true) →
      Step tree strict ⟨followed, cur, ['.'] :: items⟩ ⟨followed, cur, items⟩
  | dots {followed cur items} :
      (strict = true → (tree.root.descend cur).any Node.isDir = true) →
      Step tree strict ⟨followed, cur, ['.', '.'] :: items⟩ ⟨followed, cur.dropLast, items⟩
  | enter {followed cur name items node} : name ≠ ['.'] → name ≠ ['.', '.'] →
      tree.root.descend (cur ++ [name]) = some node → node.isLink = false →
      Step tree strict ⟨followed, cur, name :: items⟩ ⟨followed, cur ++ [name], items⟩
  | follow {followed cur name items text} : name ≠ ['.'] → name ≠ ['.', '.'] →
      tree.root.descend (cur ++ [name]) = some (.link text) → text ≠ [] →
      Step tree strict ⟨followed, cur, name :: items⟩
        ⟨followed + 1, origin text cur, itemsOf text ++ items⟩

def start (path : PathName) : Journey := ⟨0, [], itemsOf path⟩

/-- POSIX `realpath` succeeds after following some links. -/
def Resolves (tree : FileTree) (path : PathName) (links : Nat) (names : List PathName) : Prop :=
  Relation.ReflTransGen (Step tree true) (start path) ⟨links, names, []⟩

/-- The next component is not there, or it is a link without a target. -/
def Stuck (tree : FileTree) (journey : Journey) : Prop :=
  ∃ name items, journey.items = name :: items ∧ name ≠ ['.'] ∧ name ≠ ['.', '.'] ∧
    (tree.root.descend (journey.cur ++ [name]) = none ∨
      tree.root.descend (journey.cur ++ [name]) = some (.link []))

/-- Some component, of the path or of a link on the way, does not exist. -/
def Missing (tree : FileTree) (path : PathName) : Prop :=
  ∃ journey, Relation.ReflTransGen (Step tree false) (start path) journey ∧ Stuck tree journey

/-- The links on the way lead on without end. -/
def Cyclic (tree : FileTree) (path : PathName) : Prop :=
  ∀ links, ∃ journey, Relation.ReflTransGen (Step tree false) (start path) journey ∧
    journey.followed = links

/-- An absolute path without `.`, `..`, empty or symbolic-link components. -/
def Canonical (tree : FileTree) (names : List PathName) : Prop :=
  (∀ name ∈ names, IsName name ∧ name ≠ ['.'] ∧ name ≠ ['.', '.']) ∧
    ∀ before, before <+: names →
      ∃ node, tree.root.descend before = some node ∧ node.isLink = false

end FileTree

end CppInterOp
