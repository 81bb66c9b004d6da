import Mathlib.Data.Finset.Basic
import CppInterOp.Library.PointerPrograms

/-!
Where the pointers of one kind can be: variables and expressions that never hold or give one,
whatever way an execution takes.
-/

namespace PointerPrograms

universe u v

/-- The pointers that are followed: the allocated ones, or those passed to the function the
execution starts with. -/
inductive Kind
  | made
  | given
  deriving DecidableEq

section Kinds

variable {Made : Type u}

def Value.Is (kind : Kind) : Value Made → Prop
  | made _ => kind = .made
  | given _ => kind = .given
  | _ => False

theorem Value.own_iff {value : Value Made} : value.Own ↔ ¬ value.Is .given := by
  cases value with
  | null => exact ⟨fun _ => id, fun _ => nofun⟩
  | other => exact ⟨fun _ => id, fun _ => nofun⟩
  | made form => exact ⟨fun _ => nofun, fun _ => nofun⟩
  | given index => exact ⟨fun own => absurd rfl (own index), fun not_given => absurd rfl not_given⟩

def Env.Avoids (kind : Kind) (held : Finset Var) (env : Env Made) : Prop :=
  ∀ v, v ∉ held → ¬ (env v).Is kind

theorem Env.Avoids.set {kind : Kind} {held : Finset Var} {env : Env Made}
    (avoids : env.Avoids kind held) {v : Var} {value : Value Made}
    (new : v ∈ held ∨ ¬ value.Is kind) : (env.set v value).Avoids kind held := by
  intro w outside
  by_cases same : w = v
  · rw [same, Env.set_same]
    exact new.resolve_left fun inside => outside (same ▸ inside)
  · rw [Env.set_other _ same]
    exact avoids w outside

end Kinds

section Risk

variable (held : Finset Var)

def atRisk (touched : List Var) : Finset Var := touched.toFinset ∩ held

variable {held}

theorem not_at_risk {stale : Finset Var} {touched : List Var} {v : Var}
    (fresh : v ∉ stale ∪ atRisk held touched) : v ∉ stale ∧ (v ∉ touched ∨ v ∉ held) := by
  rw [Finset.mem_union, not_or, atRisk, Finset.mem_inter, List.mem_toFinset] at fresh
  exact ⟨fresh.1, not_and_or.mp fresh.2⟩

end Risk

section Expressions

variable {Made : Type u} {Freed : Type v} (program : Program Made Freed) (kind : Kind)
  (held : Finset Var)

mutual

/-- The expression gives no such pointer as long as no variable but those `held` has one. -/
def Expr.avoids : Expr Made → Bool
  | .var v => decide (v ∉ held)
  | .null => true
  | .other => true
  | .allocate _ => decide (kind = .given)
  | .cast e => e.avoids
  | .assign _ e => e.avoids
  | .shift v _ => decide (v ∉ held)
  | .comma _ b => b.avoids
  | .cond _ a b => a.avoids && b.avoids
  | .call f args =>
      match (program.function f).promise with
      | some none => true
      | some (some _) => decide (kind = .given)
      | none =>
          !(program.function f).returnsPointer || (decide (kind = .given) && Expr.avoidsArgs args)
  | .filled e => e.avoids

def Expr.avoidsArgs : List (Expr Made) → Bool
  | [] => true
  | e :: es => e.avoids && Expr.avoidsArgs es

end

mutual

def Expr.closed : Expr Made → Bool
  | .var _ => true
  | .null => true
  | .other => true
  | .allocate _ => true
  | .cast e => e.closed
  | .assign v e => (decide (v ∈ held) || e.avoids program kind held) && e.closed
  | .shift _ e => e.closed
  | .comma a b => a.closed && b.closed
  | .cond c a b => c.closed && a.closed && b.closed
  | .call _ args => Expr.closedArgs args
  | .filled e => e.closed

def Expr.closedArgs : List (Expr Made) → Bool
  | [] => true
  | e :: es => e.closed && Expr.closedArgs es

end

def Stmt.closed : Stmt Made Freed → Bool
  | .absent => true
  | .expr e => e.closed program kind held
  | .decl _ none => true
  | .decl name (some e) =>
      (decide (.own name ∈ held) || e.avoids program kind held) && e.closed program kind held
  | .seq s t => s.closed && t.closed
  | .dealloc _ e => e.closed program kind held
  | .ite init test s t => init.closed && test.closed && s.closed && t.closed
  | .loop c inc body =>
      c.closed program kind held && inc.closed program kind held && body.closed
  | .doWhile body c => body.closed && c.closed program kind held
  | .switch c body => c.closed program kind held && body.closed
  | .labelled s => s.closed
  | .brk => true
  | .cont => true
  | .ret e => e.closed program kind held

def Task.closed : Task Made Freed → Bool
  | .expr e => e.closed program kind held
  | .args es => Expr.closedArgs program kind held es
  | .stmt s => s.closed program kind held

def Task.Avoids : Task Made Freed → Outcome Made → Prop
  | .expr e, .value value => e.avoids program kind held = true → ¬ value.Is kind
  | .args es, .values values =>
      List.Forall₂ (fun e value => e.avoids program kind held = true → ¬ value.Is kind) es values
  | _, _ => True

variable {program kind held}

theorem Stmt.entries_closed {body entry : Stmt Made Freed} (member : entry ∈ body.entries)
    (closed : body.closed program kind held = true) : entry.closed program kind held = true := by
  fun_induction Stmt.entries body with
  | case1 s t ih =>
      rcases List.mem_cons.mp member with rfl | later
      · exact closed
      · exact ih later (Bool.and_eq_true_iff.mp closed).2
  | case2 s t _ ih => exact ih member (Bool.and_eq_true_iff.mp closed).2
  | case3 s =>
      obtain rfl := List.mem_singleton.mp member
      exact closed
  | case4 s _ _ _ => exact absurd member List.not_mem_nil

/-- The arguments of a call that avoid the pointers passed to the starting function pass none. -/
theorem args_own {es : List (Expr Made)} {values : List (Value Made)}
    (avoided : List.Forall₂
      (fun e value => e.avoids program .given held = true → ¬ value.Is .given) es values)
    (avoids : Expr.avoidsArgs program .given held es = true) : ∀ value ∈ values, value.Own := by
  induction avoided with
  | nil => exact fun _ member => absurd member List.not_mem_nil
  | cons first _ ih =>
      obtain ⟨here, rest⟩ := Bool.and_eq_true_iff.mp avoids
      exact List.forall_mem_cons.mpr ⟨Value.own_iff.mpr (first here), ih rest⟩

/-- A call gives no such pointer when its declaration rules it out, or when none is passed to it
and none can be got otherwise. -/
theorem call_avoids {f : Nat} {args : List (Expr Made)} {got given : Value Made}
    (gives : (program.function f).Gives got given)
    (avoids : (Expr.call f args).avoids program kind held = true)
    (from_args : kind = .given → Expr.avoidsArgs program kind held args = true → got.Own) :
    ¬ given.Is kind := by
  rw [Expr.avoids] at avoids
  rw [Function.Gives] at gives
  cases promise : (program.function f).promise with
  | none =>
      simp only [promise] at avoids gives
      rw [gives]
      cases returns : (program.function f).returnsPointer with
      | false => rintro ⟨⟩
      | true =>
          rw [returns] at avoids
          simp only [Bool.not_true, Bool.false_or, Bool.and_eq_true, decide_eq_true_eq] at avoids
          obtain ⟨rfl, passed⟩ := avoids
          rw [if_pos rfl]
          exact Value.own_iff.mp (from_args rfl passed)
  | some promised =>
      cases promised with
      | none =>
          simp only [promise] at gives
          rcases gives with rfl | rfl
          · rintro ⟨⟩
          · rintro ⟨⟩
      | some form =>
          simp only [promise, decide_eq_true_eq] at avoids gives
          rw [avoids]
          rcases gives with rfl | rfl
          · rintro ⟨⟩
          · rintro ⟨⟩

/-- An execution gives such a pointer only to the variables that are `held`. -/
theorem Run.avoids {task : Task Made Freed} {env next : Env Made}
    {events : List (Value Made × Freed)} {outcome : Outcome Made}
    (run : Run program task env events outcome next)
    (closed : task.closed program kind held = true) (avoids : env.Avoids kind held) :
    task.Avoids program kind held outcome ∧ next.Avoids kind held := by
  induction run with
  | var => exact ⟨fun plain => avoids _ (of_decide_eq_true plain), avoids⟩
  | null => exact ⟨fun _ => id, avoids⟩
  | other => exact ⟨fun _ => id, avoids⟩
  | allocate =>
      refine ⟨fun plain is_made => ?_, avoids⟩
      cases is_made.symm.trans (of_decide_eq_true plain)
  | cast _ ih => exact ih closed avoids
  | assign _ ih =>
      obtain ⟨may_hold, inner⟩ := Bool.and_eq_true_iff.mp closed
      obtain ⟨value, after⟩ := ih inner avoids
      refine ⟨value, after.set ?_⟩
      exact (Bool.or_eq_true_iff.mp may_hold).imp of_decide_eq_true value
  | @shift _ v _ _ _ next moved _ moves ih =>
      have after := (ih closed avoids).2
      have moved_avoids : v ∉ held → ¬ moved.Is kind := by
        intro outside
        rcases moves with rfl | rfl
        · exact after v outside
        · exact id
      refine ⟨fun plain => moved_avoids (of_decide_eq_true plain), after.set ?_⟩
      exact (em (v ∈ held)).imp_right moved_avoids
  | comma _ _ iha ihb =>
      obtain ⟨first, second⟩ := Bool.and_eq_true_iff.mp closed
      exact ihb second (iha first avoids).2
  | condLeft _ _ ihc iha =>
      simp only [Task.closed, Expr.closed, Bool.and_eq_true] at closed
      obtain ⟨value, after⟩ := iha closed.1.2 (ihc closed.1.1 avoids).2
      exact ⟨fun plain => value (Bool.and_eq_true_iff.mp plain).1, after⟩
  | condRight _ _ ihc ihb =>
      simp only [Task.closed, Expr.closed, Bool.and_eq_true] at closed
      obtain ⟨value, after⟩ := ihb closed.2 (ihc closed.1.1 avoids).2
      exact ⟨fun plain => value (Bool.and_eq_true_iff.mp plain).2, after⟩
  | call _ _ body gives iha _ =>
      obtain ⟨passed, after⟩ := iha closed avoids
      refine ⟨fun plain => call_avoids gives plain fun same none_passed => ?_, after⟩
      subst same
      exact (body.within (Function.entry_within (args_own passed none_passed))).1.result
  | callOpaque _ _ _ from_args gives iha =>
      obtain ⟨passed, after⟩ := iha closed avoids
      refine ⟨fun plain => call_avoids gives plain fun same none_passed => ?_, after⟩
      subst same
      rcases from_args with new | among
      · exact fun index given => new index given
      · exact args_own passed none_passed _ among
  | filled _ ih => exact ⟨(ih closed fun _ _ => id).1, avoids⟩
  | argsNil => exact ⟨.nil, avoids⟩
  | argsCons _ _ ihe ihes =>
      obtain ⟨first, rest⟩ := Bool.and_eq_true_iff.mp closed
      obtain ⟨value, middle⟩ := ihe first avoids
      obtain ⟨values, after⟩ := ihes rest middle
      exact ⟨.cons value values, after⟩
  | absent => exact ⟨trivial, avoids⟩
  | expr _ ih => exact ⟨trivial, (ih closed avoids).2⟩
  | declare => exact ⟨trivial, avoids.set (Or.inr id)⟩
  | decl _ ih =>
      obtain ⟨may_hold, inner⟩ := Bool.and_eq_true_iff.mp closed
      obtain ⟨value, after⟩ := ih inner avoids
      refine ⟨trivial, after.set ?_⟩
      exact (Bool.or_eq_true_iff.mp may_hold).imp of_decide_eq_true value
  | seq _ _ ihs iht =>
      obtain ⟨first, rest⟩ := Bool.and_eq_true_iff.mp closed
      exact ⟨trivial, (iht rest (ihs first avoids).2).2⟩
  | seqStop _ _ ihs => exact ⟨trivial, (ihs (Bool.and_eq_true_iff.mp closed).1 avoids).2⟩
  | dealloc _ ih => exact ⟨trivial, (ih closed avoids).2⟩
  | iteThen _ _ _ ihi ihc ihs =>
      simp only [Task.closed, Stmt.closed, Bool.and_eq_true] at closed
      obtain ⟨⟨⟨init, test⟩, s⟩, _⟩ := closed
      exact ⟨trivial, (ihs s (ihc test (ihi init avoids).2).2).2⟩
  | iteElse _ _ _ ihi ihc iht =>
      simp only [Task.closed, Stmt.closed, Bool.and_eq_true] at closed
      obtain ⟨⟨⟨init, test⟩, _⟩, t⟩ := closed
      exact ⟨trivial, (iht t (ihc test (ihi init avoids).2).2).2⟩
  | loopDone _ ihc =>
      simp only [Task.closed, Stmt.closed, Bool.and_eq_true] at closed
      exact ⟨trivial, (ihc closed.1.1 avoids).2⟩
  | loopNext _ _ _ _ _ ihc ihb ihi ihl =>
      have parts := closed
      simp only [Task.closed, Stmt.closed, Bool.and_eq_true] at parts
      obtain ⟨⟨c, inc⟩, body⟩ := parts
      exact ⟨trivial, (ihl closed (ihi inc (ihb body (ihc c avoids).2).2).2).2⟩
  | loopLeft _ _ _ _ ihc ihb =>
      simp only [Task.closed, Stmt.closed, Bool.and_eq_true] at closed
      exact ⟨trivial, (ihb closed.2 (ihc closed.1.1 avoids).2).2⟩
  | doDone _ _ _ ihb ihc =>
      obtain ⟨body, c⟩ := Bool.and_eq_true_iff.mp closed
      exact ⟨trivial, (ihc c (ihb body avoids).2).2⟩
  | doNext _ _ _ _ ihb ihc ihl =>
      obtain ⟨body, c⟩ := Bool.and_eq_true_iff.mp closed
      exact ⟨trivial, (ihl closed (ihc c (ihb body avoids).2).2).2⟩
  | doLeft _ _ _ ihb => exact ⟨trivial, (ihb (Bool.and_eq_true_iff.mp closed).1 avoids).2⟩
  | switchNone _ ihc => exact ⟨trivial, (ihc (Bool.and_eq_true_iff.mp closed).1 avoids).2⟩
  | switch _ member _ ihc ihb =>
      obtain ⟨c, body⟩ := Bool.and_eq_true_iff.mp closed
      exact ⟨trivial, (ihb (Stmt.entries_closed member body) (ihc c avoids).2).2⟩
  | labelled _ ih => exact ⟨trivial, (ih closed avoids).2⟩
  | brk => exact ⟨trivial, avoids⟩
  | cont => exact ⟨trivial, avoids⟩
  | ret _ ih => exact ⟨trivial, (ih closed avoids).2⟩

end Expressions

end PointerPrograms
