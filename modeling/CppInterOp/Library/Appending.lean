import Mathlib.Data.List.Nodup
import CppInterOp.Library.Looping

/-!
Walks over a list that grows under them: an item may ask for a key, and a new item is appended for a
key that no item of the list answers.
-/

namespace Appending

open Looping

universe u v w

/-- What items ask for and answer, and how the list is extended for a key. -/
structure Keyed (Item : Type u) (Key : Type v) where
  asks : Item → Option Key
  answers : Item → Option Key
  extend : List Item → Key → List Item
  known : ∀ items key, key ∈ items.filterMap answers → extend items key = items
  fresh : ∀ items key, key ∉ items.filterMap answers →
    ∃ made, extend items key = items ++ [made] ∧ answers made = some key ∧ asks made = none

variable {Item : Type u} {Key : Type v} {Entry : Type w} (keyed : Keyed Item Key)

namespace Keyed

def visit (items : List Item) (item : Item) : List Item :=
  (keyed.asks item).elim items (keyed.extend items)

def settle (items : List Item) : List Item := items.foldl keyed.visit items

/-- The state is the position in the list, the list, and what has been listed. -/
def turn (listed : Item → Option Entry) :
    Nat × List Item × List Entry → Turn (Nat × List Item × List Entry) (List Item × List Entry)
  | (position, items, entries) =>
      match items[position]? with
      | none => .leave (items, entries)
      | some item =>
          .again (position + 1, keyed.visit items item, entries ++ (listed item).toList)

def Made (items : List Item) : Prop :=
  ∀ item ∈ items, keyed.asks item = none ∧ (keyed.answers item).isSome = true

def Settled (items : List Item) : Prop :=
  ∀ key ∈ items.filterMap keyed.asks, key ∈ items.filterMap keyed.answers

variable {keyed} {items : List Item}

theorem made_nil : keyed.Made [] := fun _ member => absurd member List.not_mem_nil

theorem visit_quiet {item : Item} (quiet : keyed.asks item = none) :
    keyed.visit items item = items := by
  rw [visit, quiet]
  rfl

theorem visit_asking {item : Item} {key : Key} (asked : keyed.asks item = some key) :
    keyed.visit items item = keyed.extend items key := by
  rw [visit, asked]
  rfl

theorem visit_known {item : Item}
    (answered : ∀ key, keyed.asks item = some key → key ∈ items.filterMap keyed.answers) :
    keyed.visit items item = items := by
  cases asked : keyed.asks item with
  | none => exact visit_quiet asked
  | some key => rw [visit_asking asked, keyed.known _ _ (answered key asked)]

theorem visit_grows (items : List Item) (item : Item) :
    ∃ more, keyed.visit items item = items ++ more ∧ keyed.Made more := by
  cases asked : keyed.asks item with
  | none => exact ⟨[], by rw [visit_quiet asked, List.append_nil], made_nil⟩
  | some key =>
      by_cases answered : key ∈ items.filterMap keyed.answers
      · refine ⟨[], ?_, made_nil⟩
        rw [visit_asking asked, keyed.known _ _ answered, List.append_nil]
      · obtain ⟨made, extended, answers, quiet⟩ := keyed.fresh _ _ answered
        refine ⟨[made], (visit_asking asked).trans extended, ?_⟩
        intro other member
        rw [List.mem_singleton.mp member, answers]
        exact ⟨quiet, rfl⟩

theorem mem_answers_visit {item : Item} {key : Key} :
    key ∈ (keyed.visit items item).filterMap keyed.answers ↔
      key ∈ items.filterMap keyed.answers ∨ keyed.asks item = some key := by
  cases asked : keyed.asks item with
  | none => simp [visit_quiet asked]
  | some wanted =>
      rw [visit_asking asked]
      by_cases answered : wanted ∈ items.filterMap keyed.answers
      · rw [keyed.known _ _ answered]
        refine ⟨Or.inl, ?_⟩
        rintro (already | same)
        · exact already
        · exact Option.some.inj same ▸ answered
      · obtain ⟨made, extended, answers, _⟩ := keyed.fresh _ _ answered
        rw [extended, List.filterMap_append, List.mem_append, List.filterMap_cons_some answers,
          List.filterMap_nil, List.mem_singleton, Option.some.injEq, eq_comm (a := wanted)]

theorem nodup_answers_visit {item : Item} (once : (items.filterMap keyed.answers).Nodup) :
    ((keyed.visit items item).filterMap keyed.answers).Nodup := by
  cases asked : keyed.asks item with
  | none =>
      rw [visit_quiet asked]
      exact once
  | some wanted =>
      rw [visit_asking asked]
      by_cases answered : wanted ∈ items.filterMap keyed.answers
      · rw [keyed.known _ _ answered]
        exact once
      · obtain ⟨made, extended, answers, _⟩ := keyed.fresh _ _ answered
        rw [extended, List.filterMap_append, List.filterMap_cons_some answers, List.filterMap_nil,
          ← List.concat_eq_append]
        exact once.concat answered

section Visits

variable {pending : List Item}

theorem foldl_grows (pending items : List Item) :
    ∃ more, pending.foldl keyed.visit items = items ++ more ∧ keyed.Made more := by
  induction pending generalizing items with
  | nil => exact ⟨[], (List.append_nil items).symm, made_nil⟩
  | cons item pending ih =>
      obtain ⟨first, visited, made⟩ := @visit_grows _ _ keyed items item
      obtain ⟨rest, walked, alsoMade⟩ := ih (keyed.visit items item)
      refine ⟨first ++ rest, ?_, ?_⟩
      · rw [List.foldl_cons, walked, visited, List.append_assoc]
      · exact fun other member => (List.mem_append.mp member).elim (made other) (alsoMade other)

theorem mem_answers_foldl {key : Key} :
    key ∈ (pending.foldl keyed.visit items).filterMap keyed.answers ↔
      key ∈ items.filterMap keyed.answers ∨ key ∈ pending.filterMap keyed.asks := by
  induction pending generalizing items with
  | nil => simp
  | cons item pending ih =>
      rw [List.foldl_cons, ih, mem_answers_visit, or_assoc]
      refine or_congr_right ?_
      cases asked : keyed.asks item with
      | none => simp [List.filterMap_cons_none asked]
      | some wanted =>
          rw [List.filterMap_cons_some asked, List.mem_cons, Option.some.injEq, eq_comm]

theorem nodup_answers_foldl (once : (items.filterMap keyed.answers).Nodup) :
    ((pending.foldl keyed.visit items).filterMap keyed.answers).Nodup := by
  induction pending generalizing items with
  | nil => exact once
  | cons item pending ih => exact ih (nodup_answers_visit once)

theorem foldl_known
    (answered : ∀ key ∈ pending.filterMap keyed.asks, key ∈ items.filterMap keyed.answers) :
    pending.foldl keyed.visit items = items := by
  induction pending with
  | nil => rfl
  | cons item pending ih =>
      have here : keyed.visit items item = items := by
        refine visit_known fun key asked => answered key ?_
        rw [List.filterMap_cons_some asked]
        exact List.mem_cons_self
      rw [List.foldl_cons, here]
      refine ih fun key member => answered key ?_
      cases asked : keyed.asks item with
      | none => rwa [List.filterMap_cons_none asked]
      | some wanted =>
          rw [List.filterMap_cons_some asked]
          exact List.mem_cons_of_mem _ member

end Visits

theorem settle_of_settled (settled : keyed.Settled items) : keyed.settle items = items :=
  foldl_known settled

theorem mem_answers_settle {key : Key} :
    key ∈ (keyed.settle items).filterMap keyed.answers ↔
      key ∈ items.filterMap keyed.answers ∨ key ∈ items.filterMap keyed.asks :=
  mem_answers_foldl

theorem asks_settle : (keyed.settle items).filterMap keyed.asks = items.filterMap keyed.asks := by
  obtain ⟨more, settled, made⟩ := @foldl_grows _ _ keyed items items
  have quiet : more.filterMap keyed.asks = [] :=
    List.filterMap_eq_nil_iff.mpr fun item member => (made item member).1
  rw [settle, settled, List.filterMap_append, quiet, List.append_nil]

theorem settled_settle : keyed.Settled (keyed.settle items) := by
  intro key asked
  rw [asks_settle] at asked
  exact mem_answers_settle.mpr (Or.inr asked)

theorem nodup_answers_settle (once : (items.filterMap keyed.answers).Nodup) :
    ((keyed.settle items).filterMap keyed.answers).Nodup :=
  nodup_answers_foldl once

section Walks

variable {listed : Item → Option Entry}

theorem turn_item {visited rest : List Item} {item : Item} {entries : List Entry} :
    keyed.turn listed (visited.length, visited ++ item :: rest, entries) =
      .again (visited.length + 1, keyed.visit (visited ++ item :: rest) item,
        entries ++ (listed item).toList) := by
  rw [turn, List.getElem?_append_right (Nat.le_refl _), Nat.sub_self]
  rfl

theorem filterMap_item {item : Item} {rest : List Item} {entries : List Entry} :
    entries ++ (item :: rest).filterMap listed =
      entries ++ (listed item).toList ++ rest.filterMap listed := by
  rw [List.filterMap_cons, List.append_assoc]
  cases listed item with
  | none => rfl
  | some entry => rfl

theorem ends_made (visited : List Item) {rest : List Item} (made : keyed.Made rest)
    (entries : List Entry) :
    Ends (keyed.turn listed) (visited.length, visited ++ rest, entries)
      (visited ++ rest, entries ++ rest.filterMap listed) := by
  induction rest generalizing visited entries with
  | nil =>
      refine ends_of_leave ?_
      rw [turn, List.append_nil, List.getElem?_eq_none (Nat.le_refl _), List.filterMap_nil,
        List.append_nil]
  | cons item rest ih =>
      have later := ih (visited ++ [item])
        (fun other member => made other (List.mem_cons_of_mem _ member))
        (entries ++ (listed item).toList)
      rw [List.append_assoc, List.singleton_append, List.length_append] at later
      refine ends_of_again turn_item ?_
      rw [visit_quiet (made item List.mem_cons_self).1, filterMap_item]
      exact later

/-- What is still to visit are items that were there at the start, and behind them appended ones. -/
theorem ends_pending (visited pending : List Item) {rest : List Item} (made : keyed.Made rest)
    (entries : List Entry) :
    ∃ more, pending.foldl keyed.visit (visited ++ (pending ++ rest)) =
        visited ++ (pending ++ (rest ++ more)) ∧
      Ends (keyed.turn listed) (visited.length, visited ++ (pending ++ rest), entries)
        (visited ++ (pending ++ (rest ++ more)),
          entries ++ (pending ++ (rest ++ more)).filterMap listed) := by
  induction pending generalizing visited rest entries with
  | nil =>
      refine ⟨[], ?_, ?_⟩
      · rw [List.append_nil]
        rfl
      · rw [List.append_nil]
        exact ends_made visited made entries
  | cons item pending ih =>
      obtain ⟨here, grown, alsoMade⟩ :=
        @visit_grows _ _ keyed (visited ++ (item :: pending ++ rest)) item
      have still : keyed.Made (rest ++ here) := fun other member =>
        (List.mem_append.mp member).elim (made other) (alsoMade other)
      obtain ⟨more, walked, ended⟩ := ih (visited ++ [item]) still (entries ++ (listed item).toList)
      have whole : visited ++ (item :: pending ++ rest) ++ here =
          visited ++ [item] ++ (pending ++ (rest ++ here)) := by simp
      refine ⟨here ++ more, ?_, ?_⟩
      · rw [List.foldl_cons, grown, whole, walked]
        simp
      · have round := @turn_item _ _ _ keyed listed visited (pending ++ rest) item entries
        rw [← List.cons_append, grown, whole] at round
        refine ends_of_again round ?_
        rw [List.cons_append, filterMap_item]
        rw [List.length_append] at ended
        simpa using ended

/-- The walk goes over what the list grows to, in its order. -/
theorem ends_settle (items : List Item) (entries : List Entry) :
    Ends (keyed.turn listed) (0, items, entries)
      (keyed.settle items, entries ++ (keyed.settle items).filterMap listed) := by
  obtain ⟨more, walked, ended⟩ := @ends_pending _ _ _ keyed listed [] items [] made_nil entries
  rw [List.nil_append, List.append_nil] at walked
  rw [settle, walked]
  simpa using ended

end Walks

end Keyed

end Appending
