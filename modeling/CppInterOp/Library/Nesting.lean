import Mathlib.Algebra.BigOperators.Group.Finset.Piecewise
import Mathlib.Algebra.Order.BigOperators.Group.Finset
import Mathlib.Data.Fintype.Basic

/-!
Text with brackets of several kinds, over arbitrary symbols: text that is balanced in every kind,
and what a scanner with one depth for all kinds makes of it.
-/

namespace Nesting

universe u v w

structure Brackets (Symbol : Type u) (Kind : Type v) where
  opening : Symbol → Option Kind
  closing : Symbol → Option Kind
  apart : ∀ symbol, opening symbol = none ∨ closing symbol = none

namespace Brackets

variable {Symbol : Type u} {Kind : Type v} (brackets : Brackets Symbol Kind)

def openings (text : List Symbol) : Nat :=
  text.countP fun symbol => (brackets.opening symbol).isSome

def closings (text : List Symbol) : Nat :=
  text.countP fun symbol => (brackets.closing symbol).isSome

def depth (text : List Symbol) : Nat := brackets.openings text - brackets.closings text

def Shallow (bound : Nat) (text : List Symbol) : Prop :=
  ∀ front, front <+: text → brackets.depth front < bound

section

variable {brackets} {front : List Symbol} {symbol : Symbol} {kind : Kind}

theorem depth_opening (opening : brackets.opening symbol = some kind)
    (enough : brackets.closings front ≤ brackets.openings front) :
    brackets.depth (front ++ [symbol]) = brackets.depth front + 1 := by
  have not_closing : brackets.closing symbol = none :=
    (brackets.apart symbol).resolve_left (by simp [opening])
  have up : brackets.openings (front ++ [symbol]) = brackets.openings front + 1 := by
    simp [openings, opening]
  have same : brackets.closings (front ++ [symbol]) = brackets.closings front := by
    simp [closings, not_closing]
  rw [depth, depth, up, same]
  omega

theorem depth_closing (closing : brackets.closing symbol = some kind)
    (enough : brackets.closings (front ++ [symbol]) ≤ brackets.openings (front ++ [symbol])) :
    brackets.depth front = brackets.depth (front ++ [symbol]) + 1 := by
  have not_opening : brackets.opening symbol = none :=
    (brackets.apart symbol).resolve_right (by simp [closing])
  have same : brackets.openings (front ++ [symbol]) = brackets.openings front := by
    simp [openings, not_opening]
  have up : brackets.closings (front ++ [symbol]) = brackets.closings front + 1 := by
    simp [closings, closing]
  rw [same, up] at enough
  rw [depth, depth, same, up]
  omega

theorem depth_other (not_opening : brackets.opening symbol = none)
    (not_closing : brackets.closing symbol = none) :
    brackets.depth (front ++ [symbol]) = brackets.depth front := by
  simp [depth, openings, closings, not_opening, not_closing]

end

variable [DecidableEq Kind]

def opened (kind : Kind) (text : List Symbol) : Nat :=
  text.countP fun symbol => brackets.opening symbol = some kind

def closed (kind : Kind) (text : List Symbol) : Nat :=
  text.countP fun symbol => brackets.closing symbol = some kind

/-- No bracket is closed before it is opened, and all are closed in the end. -/
def Balanced (text : List Symbol) : Prop :=
  ∀ kind, (∀ front, front <+: text → brackets.closed kind front ≤ brackets.opened kind front) ∧
    brackets.closed kind text = brackets.opened kind text

def Inside (text : List Symbol) : Prop :=
  ∃ kind, brackets.closed kind text < brackets.opened kind text

/-- The separator occurs between brackets only. -/
def Unseparated (separator : Symbol) (text : List Symbol) : Prop :=
  ∀ front, front ++ [separator] <+: text → brackets.Inside front

section

variable [Fintype Kind] {brackets}

/-- Every bracket counts for one kind. -/
theorem countP_eq_sum (kindOf : Symbol → Option Kind) (text : List Symbol) :
    text.countP (fun symbol => (kindOf symbol).isSome) =
      ∑ kind, text.countP fun symbol => kindOf symbol = some kind := by
  induction text with
  | nil => simp
  | cons symbol text ih =>
      simp only [List.countP_cons, Finset.sum_add_distrib, ih]
      congr 1
      cases found : kindOf symbol with
      | none => simp
      | some kind =>
          simp only [Option.isSome_some, if_true, Option.some.injEq, decide_eq_true_eq,
            Finset.sum_ite_eq, Finset.mem_univ]

variable {text : List Symbol} (balanced : brackets.Balanced text)
include balanced

theorem Balanced.closings_le {front : List Symbol} (within : front <+: text) :
    brackets.closings front ≤ brackets.openings front := by
  rw [closings, openings, countP_eq_sum, countP_eq_sum]
  exact Finset.sum_le_sum fun kind _ => (balanced kind).1 front within

theorem Balanced.closings_eq : brackets.closings text = brackets.openings text := by
  rw [closings, openings, countP_eq_sum, countP_eq_sum]
  exact Finset.sum_congr rfl fun kind _ => (balanced kind).2

theorem Balanced.depth_eq_zero : brackets.depth text = 0 := by
  rw [depth, balanced.closings_eq, Nat.sub_self]

theorem Balanced.depth_pos {front : List Symbol} (within : front <+: text)
    (inside : brackets.Inside front) : 0 < brackets.depth front := by
  obtain ⟨kind, deeper⟩ := inside
  refine Nat.sub_pos_of_lt ?_
  rw [closings, openings, countP_eq_sum, countP_eq_sum]
  exact Finset.sum_lt_sum (fun other _ => (balanced other).1 front within)
    ⟨kind, Finset.mem_univ kind, deeper⟩

/-- A scanner that goes down and up with the brackets, stays where it is at other symbols, and at
the separator between brackets, gets through a balanced text at the depth it started at. -/
theorem Balanced.scanned {Result : Type w} {separator : Symbol} {bound : Nat}
    (unseparated : brackets.Unseparated separator text) (shallow : brackets.Shallow bound text)
    (loop : List Symbol → Nat → Result)
    (opens : ∀ symbol rest depth, (brackets.opening symbol).isSome = true → depth + 1 < bound →
      loop (symbol :: rest) depth = loop rest (depth + 1))
    (closes : ∀ symbol rest depth, (brackets.closing symbol).isSome = true →
      loop (symbol :: rest) (depth + 1) = loop rest depth)
    (separates : ∀ rest depth, 0 < depth → loop (separator :: rest) depth = loop rest depth)
    (passes : ∀ symbol rest depth, brackets.opening symbol = none →
      brackets.closing symbol = none → symbol ≠ separator →
      loop (symbol :: rest) depth = loop rest depth)
    (rest : List Symbol) : loop (text ++ rest) 0 = loop rest 0 := by
  have along : ∀ back front, front ++ back = text →
      loop (back ++ rest) (brackets.depth front) = loop rest 0 := by
    intro back
    induction back with
    | nil =>
        intro front whole
        rw [List.append_nil] at whole
        rw [whole, balanced.depth_eq_zero, List.nil_append]
    | cons symbol back ih =>
        intro front whole
        have next := ih (front ++ [symbol]) (by rw [← whole, List.append_assoc]; rfl)
        have further : front ++ [symbol] <+: text := ⟨back, by rw [← whole, List.append_assoc]; rfl⟩
        have here : front <+: text := ⟨symbol :: back, whole⟩
        have enough := balanced.closings_le here
        have deeper := balanced.closings_le further
        have below := shallow (front ++ [symbol]) further
        rw [List.cons_append]
        cases opening : brackets.opening symbol with
        | some kind =>
            rw [depth_opening opening enough] at next below
            rw [opens symbol _ _ (by rw [opening]; rfl) below]
            exact next
        | none =>
            cases closing : brackets.closing symbol with
            | some kind =>
                rw [depth_closing closing deeper, closes symbol _ _ (by rw [closing]; rfl)]
                exact next
            | none =>
                rw [depth_other opening closing] at next
                by_cases same : symbol = separator
                · subst same
                  rw [separates _ _ (balanced.depth_pos here (unseparated front further))]
                  exact next
                · rw [passes symbol _ _ opening closing same]
                  exact next
  exact along text [] rfl

end

section

variable {brackets}

theorem Balanced.nil : brackets.Balanced [] := by
  intro kind
  refine ⟨fun front within => ?_, rfl⟩
  rw [List.prefix_nil.mp within]
  exact Nat.le_refl _

/-- Brackets of one kind around a balanced text. -/
theorem Balanced.wrapped {text : List Symbol} {first last : Symbol} {kind : Kind}
    (balanced : brackets.Balanced text) (opening : brackets.opening first = some kind)
    (closing : brackets.closing last = some kind) :
    brackets.Balanced (first :: text ++ [last]) := by
  have not_closing : brackets.closing first = none :=
    (brackets.apart first).resolve_left (by simp [opening])
  have not_opening : brackets.opening last = none :=
    (brackets.apart last).resolve_right (by simp [closing])
  intro other
  have up : ∀ front, brackets.opened other (first :: front) =
      brackets.opened other front + if kind = other then 1 else 0 := by
    intro front
    simp [opened, List.countP_cons, opening]
  have same : ∀ front, brackets.closed other (first :: front) = brackets.closed other front := by
    intro front
    simp [closed, not_closing]
  have down : brackets.closed other (text ++ [last]) =
      brackets.closed other text + if kind = other then 1 else 0 := by
    simp [closed, List.countP_append, List.countP_singleton, closing]
  have kept : brackets.opened other (text ++ [last]) = brackets.opened other text := by
    simp [opened, List.countP_append, not_opening]
  have whole := (balanced other).2
  refine ⟨fun front within => ?_, ?_⟩
  · cases front with
    | nil => exact Nat.le_refl _
    | cons symbol front =>
        obtain ⟨rfl, inner⟩ := List.cons_prefix_cons.mp within
        rw [up, same]
        rcases List.prefix_concat_iff.mp inner with rfl | shorter
        · rw [down, kept]
          omega
        · exact Nat.le_trans ((balanced other).1 front shorter) (Nat.le_add_right _ _)
  · rw [List.cons_append, up, same, down, kept, whole]

end

instance [Fintype Kind] (text : List Symbol) : Decidable (brackets.Balanced text) :=
  decidable_of_iff (∀ kind, (∀ front ∈ text.inits,
      brackets.closed kind front ≤ brackets.opened kind front) ∧
    brackets.closed kind text = brackets.opened kind text)
    (by simp only [Balanced, List.mem_inits])

instance [Fintype Kind] (text : List Symbol) : Decidable (brackets.Inside text) :=
  inferInstanceAs (Decidable (∃ kind, brackets.closed kind text < brackets.opened kind text))

instance [Fintype Kind] [DecidableEq Symbol] (separator : Symbol) (text : List Symbol) :
    Decidable (brackets.Unseparated separator text) :=
  decidable_of_iff (∀ front ∈ text.inits, front ++ [separator] <+: text → brackets.Inside front)
    ⟨fun every front within =>
        every front ((List.mem_inits front text).mpr
          ((List.prefix_append front [separator]).trans within)) within,
      fun every front _ within => every front within⟩

instance (bound : Nat) (text : List Symbol) : Decidable (brackets.Shallow bound text) :=
  decidable_of_iff (∀ front ∈ text.inits, brackets.depth front < bound)
    (by simp only [Shallow, List.mem_inits])

end Brackets

end Nesting
