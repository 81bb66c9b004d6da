import Mathlib.Data.List.Basic

/-!
A small language of functions that pass pointers around, allocate and deallocate: its syntax,
its executions, and what an execution leaves alone. `Made` are the ways to allocate and
`Freed` the ways to deallocate. A number stands for one declaration: a function that is declared
several times has as many numbers, and its declarations share the body of the one that defines
it.
-/

namespace PointerPrograms

universe u v

inductive Var
  | param (index : Nat)
  | own (name : Nat)
  deriving DecidableEq, Repr

/-- `other` stands for every pointer that is neither null, nor allocated, nor read from a
variable; `allocate` for new-expressions and calls of allocation functions; `shift` for compound
assignments; `comma` for every operator that gives the value of its last operand, placement new
among them; `filled` for a default argument that a call leaves to the declaration. -/
inductive Expr (Made : Type u)
  | var (v : Var)
  | null
  | other
  | allocate (form : Made)
  | cast (e : Expr Made)
  | assign (v : Var) (e : Expr Made)
  | shift (v : Var) (e : Expr Made)
  | comma (a b : Expr Made)
  | cond (c a b : Expr Made)
  | call (f : Nat) (args : List (Expr Made))
  | filled (e : Expr Made)

/-- `absent` is the part of a statement that is left out; `test` is the condition of an if
statement, with the variable it declares; `labelled` carries a `case` or `default` label of the
switch around it. -/
inductive Stmt (Made : Type u) (Freed : Type v)
  | absent
  | expr (e : Expr Made)
  | decl (name : Nat) (init : Option (Expr Made))
  | seq (s t : Stmt Made Freed)
  | dealloc (form : Freed) (e : Expr Made)
  | ite (init test s t : Stmt Made Freed)
  | loop (c inc : Expr Made) (body : Stmt Made Freed)
  | doWhile (body : Stmt Made Freed) (c : Expr Made)
  | switch (c : Expr Made) (body : Stmt Made Freed)
  | labelled (s : Stmt Made Freed)
  | brk
  | cont
  | ret (e : Expr Made)

/-- `promise` is what the declaration says about the result: nothing, no allocation, or one
form of it. A function without `body` may do anything to the pointers it is passed. `defaults`
are the default arguments, parameter by parameter; `definedBy` is the declaration that defines
the function where that is another one. -/
structure Function (Made : Type u) (Freed : Type v) where
  numParams : Nat
  body : Option (Stmt Made Freed)
  returnsPointer : Bool
  promise : Option (Option Made)
  defaults : List (Option (Expr Made)) := []
  definedBy : Option Nat := none

/-- The declarations, by their numbers. -/
abbrev Program (Made : Type u) (Freed : Type v) := List (Function Made Freed)

/-- A pointer: null, allocated, passed to the function the execution starts with, or any
other. -/
inductive Value (Made : Type u)
  | null
  | other
  | made (form : Made)
  | given (index : Nat)
  deriving DecidableEq

abbrev Env (Made : Type u) := Var → Value Made

section Syntax

variable {Made : Type u} {Freed : Type v}

namespace Program

def declaration (program : Program Made Freed) (f : Nat) : Function Made Freed :=
  program.getD f { numParams := 0, body := none, returnsPointer := true, promise := none }

/-- The declaration that defines the function that `f` declares. -/
def definition (program : Program Made Freed) (f : Nat) : Nat :=
  (program.declaration f).definedBy.getD f

/-- A declaration, with the body that its function is defined with. -/
def function (program : Program Made Freed) (f : Nat) : Function Made Freed :=
  { program.declaration f with body := (program.declaration (program.definition f)).body }

/-- The declarations of the function that `d` defines. -/
def declarations (program : Program Made Freed) (d : Nat) : List Nat :=
  (List.range program.length).filter fun f => program.definition f = d

theorem declaration_beyond {program : Program Made Freed} {f : Nat} (beyond : program.length ≤ f) :
    program.declaration f =
      { numParams := 0, body := none, returnsPointer := true, promise := none } := by
  rw [declaration, List.getD_eq_getElem?_getD, List.getElem?_eq_none beyond]
  rfl

theorem function_beyond {program : Program Made Freed} {f : Nat} (beyond : program.length ≤ f) :
    (program.function f).returnsPointer = true ∧ (program.function f).body = none := by
  have no_definition : program.definition f = f := by
    rw [definition, declaration_beyond beyond]
    rfl
  rw [function, no_definition, declaration_beyond beyond]
  exact ⟨rfl, rfl⟩

/-- A body is defined by a declaration of the program, and so are the others of its function. -/
theorem mem_declarations {program : Program Made Freed} {f d : Nat}
    (defines : (program.declaration d).body.isSome = true) (same : program.definition f = d) :
    f ∈ program.declarations d := by
  refine List.mem_filter.mpr ⟨List.mem_range.mpr ?_, decide_eq_true same⟩
  by_contra inside
  have beyond : program.length ≤ f := Nat.le_of_not_lt inside
  have no_definition : program.definition f = f := by
    rw [definition, declaration_beyond beyond]
    rfl
  rw [← same, no_definition, declaration_beyond beyond] at defines
  cases defines

end Program

def Function.default (function : Function Made Freed) (index : Nat) : Option (Expr Made) :=
  function.defaults.getD index none

namespace Expr

mutual

def touched : Expr Made → List Var
  | var _ => []
  | null => []
  | other => []
  | allocate _ => []
  | cast e => e.touched
  | assign v e => v :: e.touched
  | shift v e => v :: e.touched
  | comma a b => a.touched ++ b.touched
  | cond c a b => c.touched ++ a.touched ++ b.touched
  | call _ args => touchedArgs args
  | filled _ => []

def touchedArgs : List (Expr Made) → List Var
  | [] => []
  | e :: es => e.touched ++ touchedArgs es

end

end Expr

namespace Stmt

def touched : Stmt Made Freed → List Var
  | absent => []
  | expr e => e.touched
  | decl name init => .own name :: (init.map Expr.touched).getD []
  | seq s t => s.touched ++ t.touched
  | dealloc _ e => e.touched
  | ite init test s t => init.touched ++ test.touched ++ s.touched ++ t.touched
  | loop c inc body => c.touched ++ inc.touched ++ body.touched
  | doWhile body c => body.touched ++ c.touched
  | switch c body => c.touched ++ body.touched
  | labelled s => s.touched
  | brk => []
  | cont => []
  | ret e => e.touched

def isAbsent : Stmt Made Freed → Bool
  | absent => true
  | _ => false

/-- Where a switch may enter its body: at each labelled statement, with all that follows. -/
def entries : Stmt Made Freed → List (Stmt Made Freed)
  | seq (labelled s) t => seq (labelled s) t :: t.entries
  | seq _ t => t.entries
  | labelled s => [labelled s]
  | _ => []

end Stmt

end Syntax

section Semantics

variable {Made : Type u} {Freed : Type v}

inductive Task (Made : Type u) (Freed : Type v)
  | expr (e : Expr Made)
  | args (es : List (Expr Made))
  | stmt (s : Stmt Made Freed)

inductive Outcome (Made : Type u)
  | value (v : Value Made)
  | values (vs : List (Value Made))
  | fall
  | broke
  | continued
  | returned (v : Value Made)

def Outcome.result : Outcome Made → Value Made
  | returned v => v
  | _ => .other

def Outcome.leave : Outcome Made → Outcome Made
  | broke => .fall
  | outcome => outcome

def Function.entry (function : Function Made Freed) (values : List (Value Made)) : Env Made
  | .param index => if index < function.numParams then values.getD index .other else .other
  | .own _ => .other

/-- What a call may give: what the body returned, or what the declaration promises. -/
def Function.Gives (function : Function Made Freed) (got given : Value Made) : Prop :=
  match function.promise with
  | none => given = if function.returnsPointer then got else .other
  | some none => given = .null ∨ given = .other
  | some (some form) => given = .null ∨ given = .made form

def Env.set (env : Env Made) (v : Var) (value : Value Made) : Env Made :=
  fun w => if w = v then value else env w

/-- Executions, with the deallocations on the way in order. Conditions go either way. A default
argument names no variable of the function that makes the call. -/
inductive Run (program : Program Made Freed) :
    Task Made Freed → Env Made → List (Value Made × Freed) → Outcome Made → Env Made → Prop
  | var {env v} : Run program (.expr (.var v)) env [] (.value (env v)) env
  | null {env} : Run program (.expr .null) env [] (.value .null) env
  | other {env} : Run program (.expr .other) env [] (.value .other) env
  | allocate {env form} :
      Run program (.expr (.allocate form)) env [] (.value (.made form)) env
  | cast {env e events value next} : Run program (.expr e) env events (.value value) next →
      Run program (.expr (.cast e)) env events (.value value) next
  | assign {env v e events value next} : Run program (.expr e) env events (.value value) next →
      Run program (.expr (.assign v e)) env events (.value value) (next.set v value)
  | shift {env v e events seen next moved} : Run program (.expr e) env events (.value seen) next →
      moved = next v ∨ moved = .other →
      Run program (.expr (.shift v e)) env events (.value moved) (next.set v moved)
  | comma {env a b before middle events seen value next} :
      Run program (.expr a) env before (.value seen) middle →
      Run program (.expr b) middle events (.value value) next →
      Run program (.expr (.comma a b)) env (before ++ events) (.value value) next
  | condLeft {env c a b before middle events seen value next} :
      Run program (.expr c) env before (.value seen) middle →
      Run program (.expr a) middle events (.value value) next →
      Run program (.expr (.cond c a b)) env (before ++ events) (.value value) next
  | condRight {env c a b before middle events seen value next} :
      Run program (.expr c) env before (.value seen) middle →
      Run program (.expr b) middle events (.value value) next →
      Run program (.expr (.cond c a b)) env (before ++ events) (.value value) next
  | call {env f args before values next body events outcome last given} :
      Run program (.args args) env before (.values values) next →
      (program.function f).body = some body →
      Run program (.stmt body) ((program.function f).entry values) events outcome last →
      (program.function f).Gives outcome.result given →
      Run program (.expr (.call f args)) env (before ++ events) (.value given) next
  | callOpaque {env f args before values next events got given} :
      Run program (.args args) env before (.values values) next →
      (program.function f).body = none →
      (∀ event ∈ events, ∃ index, (program.function f).entry values (.param index) = event.1) →
      ((∀ index, got ≠ .given index) ∨ got ∈ values) →
      (program.function f).Gives got given →
      Run program (.expr (.call f args)) env (before ++ events) (.value given) next
  | filled {env e events value last} :
      Run program (.expr e) (fun _ => .other) events (.value value) last →
      Run program (.expr (.filled e)) env events (.value value) env
  | argsNil {env} : Run program (.args []) env [] (.values []) env
  | argsCons {env e es first value middle events values next} :
      Run program (.expr e) env first (.value value) middle →
      Run program (.args es) middle events (.values values) next →
      Run program (.args (e :: es)) env (first ++ events) (.values (value :: values)) next
  | absent {env} : Run program (.stmt .absent) env [] .fall env
  | expr {env e events value next} : Run program (.expr e) env events (.value value) next →
      Run program (.stmt (.expr e)) env events .fall next
  | declare {env name} :
      Run program (.stmt (.decl name none)) env [] .fall (env.set (.own name) .other)
  | decl {env name e events value next} : Run program (.expr e) env events (.value value) next →
      Run program (.stmt (.decl name (some e))) env events .fall (next.set (.own name) value)
  | seq {env s t before middle events outcome next} :
      Run program (.stmt s) env before .fall middle →
      Run program (.stmt t) middle events outcome next →
      Run program (.stmt (.seq s t)) env (before ++ events) outcome next
  | seqStop {env s t events outcome next} : Run program (.stmt s) env events outcome next →
      outcome ≠ .fall → Run program (.stmt (.seq s t)) env events outcome next
  | dealloc {env form e events value next} : Run program (.expr e) env events (.value value) next →
      Run program (.stmt (.dealloc form e)) env (events ++ [(value, form)]) .fall next
  | iteThen {env init test s t first declared second chosen events outcome next} :
      Run program (.stmt init) env first .fall declared →
      Run program (.stmt test) declared second .fall chosen →
      Run program (.stmt s) chosen events outcome next →
      Run program (.stmt (.ite init test s t)) env (first ++ second ++ events) outcome next
  | iteElse {env init test s t first declared second chosen events outcome next} :
      Run program (.stmt init) env first .fall declared →
      Run program (.stmt test) declared second .fall chosen →
      Run program (.stmt t) chosen events outcome next →
      Run program (.stmt (.ite init test s t)) env (first ++ second ++ events) outcome next
  | loopDone {env c inc body events seen next} : Run program (.expr c) env events (.value seen) next →
      Run program (.stmt (.loop c inc body)) env events .fall next
  | loopNext {env c inc body first seen tested second outcome middle third value again events last
        next} :
      Run program (.expr c) env first (.value seen) tested →
      Run program (.stmt body) tested second outcome middle →
      outcome = .fall ∨ outcome = .continued →
      Run program (.expr inc) middle third (.value value) again →
      Run program (.stmt (.loop c inc body)) again events last next →
      Run program (.stmt (.loop c inc body)) env (first ++ second ++ third ++ events) last next
  | loopLeft {env c inc body first seen tested events outcome next} :
      Run program (.expr c) env first (.value seen) tested →
      Run program (.stmt body) tested events outcome next →
      outcome ≠ .fall → outcome ≠ .continued →
      Run program (.stmt (.loop c inc body)) env (first ++ events) outcome.leave next
  | doDone {env body c first outcome middle events seen next} :
      Run program (.stmt body) env first outcome middle →
      outcome = .fall ∨ outcome = .continued →
      Run program (.expr c) middle events (.value seen) next →
      Run program (.stmt (.doWhile body c)) env (first ++ events) .fall next
  | doNext {env body c first outcome middle second seen again events last next} :
      Run program (.stmt body) env first outcome middle →
      outcome = .fall ∨ outcome = .continued →
      Run program (.expr c) middle second (.value seen) again →
      Run program (.stmt (.doWhile body c)) again events last next →
      Run program (.stmt (.doWhile body c)) env (first ++ second ++ events) last next
  | doLeft {env body c events outcome next} : Run program (.stmt body) env events outcome next →
      outcome ≠ .fall → outcome ≠ .continued →
      Run program (.stmt (.doWhile body c)) env events outcome.leave next
  | switchNone {env c body events seen next} : Run program (.expr c) env events (.value seen) next →
      Run program (.stmt (.switch c body)) env events .fall next
  | switch {env c body first seen chosen entry events outcome next} :
      Run program (.expr c) env first (.value seen) chosen →
      entry ∈ body.entries →
      Run program (.stmt entry) chosen events outcome next →
      Run program (.stmt (.switch c body)) env (first ++ events) outcome.leave next
  | labelled {env s events outcome next} : Run program (.stmt s) env events outcome next →
      Run program (.stmt (.labelled s)) env events outcome next
  | brk {env} : Run program (.stmt .brk) env [] .broke env
  | cont {env} : Run program (.stmt .cont) env [] .continued env
  | ret {env e events value next} : Run program (.expr e) env events (.value value) next →
      Run program (.stmt (.ret e)) env events (.returned value) next

end Semantics

section Frame

variable {Made : Type u} {Freed : Type v} {program : Program Made Freed}

def Task.touched : Task Made Freed → List Var
  | expr e => e.touched
  | args es => Expr.touchedArgs es
  | stmt s => s.touched

theorem Stmt.entries_touched {body entry : Stmt Made Freed} (member : entry ∈ body.entries)
    {v : Var} (untouched : v ∉ body.touched) : v ∉ entry.touched := by
  fun_induction Stmt.entries body with
  | case1 s t ih =>
      rcases List.mem_cons.mp member with rfl | later
      · exact untouched
      · exact ih later fun inside => untouched (List.mem_append_right _ inside)
  | case2 s t _ ih => exact ih member fun inside => untouched (List.mem_append_right _ inside)
  | case3 s =>
      obtain rfl := List.mem_singleton.mp member
      exact untouched
  | case4 s _ _ _ => exact absurd member List.not_mem_nil

@[simp] theorem Env.set_same (env : Env Made) (v : Var) (value : Value Made) :
    env.set v value v = value := if_pos rfl

theorem Env.set_other (env : Env Made) {v w : Var} (other : w ≠ v) (value : Value Made) :
    env.set v value w = env w := if_neg other

/-- An execution changes only the variables that its text assigns or declares. -/
theorem Run.frame {task : Task Made Freed} {env next : Env Made}
    {events : List (Value Made × Freed)} {outcome : Outcome Made}
    (run : Run program task env events outcome next) {v : Var} (untouched : v ∉ task.touched) :
    next v = env v := by
  induction run with
  | var => rfl
  | null => rfl
  | other => rfl
  | allocate => rfl
  | cast _ ih => exact ih untouched
  | assign _ ih =>
      rw [Task.touched, Expr.touched, List.mem_cons, not_or] at untouched
      rw [Env.set_other _ untouched.1]
      exact ih untouched.2
  | shift _ _ ih =>
      rw [Task.touched, Expr.touched, List.mem_cons, not_or] at untouched
      rw [Env.set_other _ untouched.1]
      exact ih untouched.2
  | comma _ _ iha ihb =>
      simp only [Task.touched, Expr.touched, List.mem_append, not_or] at untouched
      exact (ihb untouched.2).trans (iha untouched.1)
  | condLeft _ _ ihc iha =>
      simp only [Task.touched, Expr.touched, List.mem_append, not_or] at untouched
      exact (iha untouched.1.2).trans (ihc untouched.1.1)
  | condRight _ _ ihc ihb =>
      simp only [Task.touched, Expr.touched, List.mem_append, not_or] at untouched
      exact (ihb untouched.2).trans (ihc untouched.1.1)
  | call _ _ _ _ ih _ => exact ih untouched
  | callOpaque _ _ _ _ _ ih => exact ih untouched
  | filled _ _ => rfl
  | argsNil => rfl
  | argsCons _ _ ihe ihes =>
      simp only [Task.touched, Expr.touchedArgs, List.mem_append, not_or] at untouched
      exact (ihes untouched.2).trans (ihe untouched.1)
  | absent => rfl
  | expr _ ih => exact ih untouched
  | declare =>
      rw [Task.touched, Stmt.touched, List.mem_cons, not_or] at untouched
      exact Env.set_other _ untouched.1 _
  | decl _ ih =>
      rw [Task.touched, Stmt.touched, List.mem_cons, not_or] at untouched
      rw [Env.set_other _ untouched.1]
      exact ih untouched.2
  | seq _ _ ihs iht =>
      simp only [Task.touched, Stmt.touched, List.mem_append, not_or] at untouched
      exact (iht untouched.2).trans (ihs untouched.1)
  | seqStop _ _ ihs =>
      simp only [Task.touched, Stmt.touched, List.mem_append, not_or] at untouched
      exact ihs untouched.1
  | dealloc _ ih => exact ih untouched
  | iteThen _ _ _ ihi ihc ihs =>
      simp only [Task.touched, Stmt.touched, List.mem_append, not_or] at untouched
      obtain ⟨⟨⟨init, test⟩, s⟩, _⟩ := untouched
      exact ((ihs s).trans (ihc test)).trans (ihi init)
  | iteElse _ _ _ ihi ihc iht =>
      simp only [Task.touched, Stmt.touched, List.mem_append, not_or] at untouched
      obtain ⟨⟨⟨init, test⟩, _⟩, t⟩ := untouched
      exact ((iht t).trans (ihc test)).trans (ihi init)
  | loopDone _ ihc =>
      simp only [Task.touched, Stmt.touched, List.mem_append, not_or] at untouched
      exact ihc untouched.1.1
  | loopNext _ _ _ _ _ ihc ihb ihi ihl =>
      have again := ihl untouched
      simp only [Task.touched, Stmt.touched, List.mem_append, not_or] at untouched
      obtain ⟨⟨c, inc⟩, body⟩ := untouched
      exact ((again.trans (ihi inc)).trans (ihb body)).trans (ihc c)
  | loopLeft _ _ _ _ ihc ihb =>
      simp only [Task.touched, Stmt.touched, List.mem_append, not_or] at untouched
      exact (ihb untouched.2).trans (ihc untouched.1.1)
  | doDone _ _ _ ihb ihc =>
      simp only [Task.touched, Stmt.touched, List.mem_append, not_or] at untouched
      exact (ihc untouched.2).trans (ihb untouched.1)
  | doNext _ _ _ _ ihb ihc ihl =>
      have again := ihl untouched
      simp only [Task.touched, Stmt.touched, List.mem_append, not_or] at untouched
      exact (again.trans (ihc untouched.2)).trans (ihb untouched.1)
  | doLeft _ _ _ ihb =>
      simp only [Task.touched, Stmt.touched, List.mem_append, not_or] at untouched
      exact ihb untouched.1
  | switchNone _ ihc =>
      simp only [Task.touched, Stmt.touched, List.mem_append, not_or] at untouched
      exact ihc untouched.1
  | switch _ member _ ihc ihb =>
      simp only [Task.touched, Stmt.touched, List.mem_append, not_or] at untouched
      exact (ihb (Stmt.entries_touched member untouched.2)).trans (ihc untouched.1)
  | labelled _ ih => exact ih untouched
  | brk => rfl
  | cont => rfl
  | ret _ ih => exact ih untouched

end Frame

section Origin

variable {Made : Type u} {Freed : Type v} {program : Program Made Freed} {held : Nat → Prop}

def Value.Within (held : Nat → Prop) (value : Value Made) : Prop :=
  ∀ index, value = .given index → held index

abbrev Value.Own (value : Value Made) : Prop := value.Within fun _ => False

def Outcome.Within (held : Nat → Prop) : Outcome Made → Prop
  | value v => v.Within held
  | values vs => ∀ v ∈ vs, v.Within held
  | returned v => v.Within held
  | _ => True

theorem Outcome.Within.result {outcome : Outcome Made} (within : outcome.Within held) :
    outcome.result.Within held := by
  cases outcome with
  | returned v => exact within
  | value v => exact nofun
  | values vs => exact nofun
  | fall => exact nofun
  | broke => exact nofun
  | continued => exact nofun

theorem Outcome.Within.leave {outcome : Outcome Made} (within : outcome.Within held) :
    outcome.leave.Within held := by
  cases outcome with
  | broke => exact trivial
  | returned v => exact within
  | value v => exact within
  | values vs => exact within
  | fall => exact trivial
  | continued => exact trivial

theorem Function.Gives.within {function : Function Made Freed} {got given : Value Made}
    (gives : function.Gives got given) (within : got.Within held) : given.Within held := by
  rw [Function.Gives] at gives
  split at gives
  · rw [gives]
    split
    · exact within
    · exact nofun
  · rcases gives with rfl | rfl
    · exact nofun
    · exact nofun
  · rcases gives with rfl | rfl
    · exact nofun
    · exact nofun

theorem Function.entry_within {function : Function Made Freed} {values : List (Value Made)}
    (within : ∀ value ∈ values, value.Within held) (v : Var) :
    (function.entry values v).Within held := by
  cases v with
  | own name => exact nofun
  | param index =>
      rw [Function.entry]
      split
      · rw [List.getD_eq_getElem?_getD]
        cases at_index : values[index]? with
        | none => exact nofun
        | some value => exact within value (List.mem_of_getElem? at_index)
      · exact nofun

theorem Env.set_within {env : Env Made} {value : Value Made} (within : ∀ v, (env v).Within held)
    (new : value.Within held) (v w : Var) : (env.set v value w).Within held := by
  rw [Env.set]
  split
  · exact new
  · exact within w

theorem Value.Within.moved {value moved : Value Made} (within : value.Within held)
    (moves : moved = value ∨ moved = .other) : moved.Within held := by
  rcases moves with rfl | rfl
  · exact within
  · exact nofun

/-- An execution only ever gets hold of such pointers as it starts with. -/
theorem Run.within {task : Task Made Freed} {env next : Env Made}
    {events : List (Value Made × Freed)} {outcome : Outcome Made}
    (run : Run program task env events outcome next) (within : ∀ v, (env v).Within held) :
    outcome.Within held ∧ ∀ v, (next v).Within held := by
  induction run with
  | var => exact ⟨within _, within⟩
  | null => exact ⟨nofun, within⟩
  | other => exact ⟨nofun, within⟩
  | allocate => exact ⟨nofun, within⟩
  | cast _ ih => exact ih within
  | assign _ ih => exact ⟨(ih within).1, Env.set_within (ih within).2 (ih within).1 _⟩
  | shift _ moves ih =>
      have moved := Value.Within.moved ((ih within).2 _) moves
      exact ⟨moved, Env.set_within (ih within).2 moved _⟩
  | comma _ _ iha ihb => exact ihb (iha within).2
  | condLeft _ _ ihc iha => exact iha (ihc within).2
  | condRight _ _ ihc ihb => exact ihb (ihc within).2
  | call _ _ _ gives iha ihb =>
      have inside := ihb (Function.entry_within (iha within).1)
      exact ⟨gives.within inside.1.result, (iha within).2⟩
  | callOpaque _ _ _ from_args gives iha =>
      refine ⟨gives.within ?_, (iha within).2⟩
      rcases from_args with new | passed
      · exact fun index same => absurd same (new index)
      · exact (iha within).1 _ passed
  | filled _ ih => exact ⟨(ih fun _ => nofun).1, within⟩
  | argsNil => exact ⟨fun _ member => absurd member List.not_mem_nil, within⟩
  | argsCons _ _ ihe ihes =>
      have first := ihe within
      have rest := ihes first.2
      exact ⟨List.forall_mem_cons.mpr ⟨first.1, rest.1⟩, rest.2⟩
  | absent => exact ⟨trivial, within⟩
  | expr _ ih => exact ⟨trivial, (ih within).2⟩
  | declare =>
      have unset : (Value.other : Value Made).Within held := nofun
      exact ⟨trivial, Env.set_within within unset _⟩
  | decl _ ih => exact ⟨trivial, Env.set_within (ih within).2 (ih within).1 _⟩
  | seq _ _ ihs iht => exact iht (ihs within).2
  | seqStop _ _ ihs => exact ihs within
  | dealloc _ ih => exact ⟨trivial, (ih within).2⟩
  | iteThen _ _ _ ihi ihc ihs => exact ihs (ihc (ihi within).2).2
  | iteElse _ _ _ ihi ihc iht => exact iht (ihc (ihi within).2).2
  | loopDone _ ihc => exact ⟨trivial, (ihc within).2⟩
  | loopNext _ _ _ _ _ ihc ihb ihi ihl => exact ihl (ihi (ihb (ihc within).2).2).2
  | loopLeft _ _ _ _ ihc ihb =>
      have body := ihb (ihc within).2
      exact ⟨body.1.leave, body.2⟩
  | doDone _ _ _ ihb ihc => exact ⟨trivial, (ihc (ihb within).2).2⟩
  | doNext _ _ _ _ ihb ihc ihl => exact ihl (ihc (ihb within).2).2
  | doLeft _ _ _ ihb => exact ⟨(ihb within).1.leave, (ihb within).2⟩
  | switchNone _ ihc => exact ⟨trivial, (ihc within).2⟩
  | switch _ _ _ ihc ihb =>
      have body := ihb (ihc within).2
      exact ⟨body.1.leave, body.2⟩
  | labelled _ ih => exact ih within
  | brk => exact ⟨trivial, within⟩
  | cont => exact ⟨trivial, within⟩
  | ret _ ih => exact ih within

theorem Run.events_within {task : Task Made Freed} {env next : Env Made}
    {events : List (Value Made × Freed)} {outcome : Outcome Made}
    (run : Run program task env events outcome next) (within : ∀ v, (env v).Within held) :
    ∀ event ∈ events, event.1.Within held := by
  induction run with
  | cast _ ih => exact ih within
  | assign _ ih => exact ih within
  | shift _ _ ih => exact ih within
  | comma a _ iha ihb => exact List.forall_mem_append.mpr ⟨iha within, ihb (a.within within).2⟩
  | condLeft c _ ihc iha =>
      exact List.forall_mem_append.mpr ⟨ihc within, iha (c.within within).2⟩
  | condRight c _ ihc ihb =>
      exact List.forall_mem_append.mpr ⟨ihc within, ihb (c.within within).2⟩
  | call args _ _ _ iha ihb =>
      exact List.forall_mem_append.mpr
        ⟨iha within, ihb (Function.entry_within (args.within within).1)⟩
  | callOpaque args _ on_params _ _ iha =>
      refine List.forall_mem_append.mpr ⟨iha within, fun event member => ?_⟩
      obtain ⟨index, same⟩ := on_params event member
      exact same ▸ Function.entry_within (args.within within).1 _
  | filled _ ih => exact ih fun _ => nofun
  | argsCons e _ ihe ihes =>
      exact List.forall_mem_append.mpr ⟨ihe within, ihes (e.within within).2⟩
  | expr _ ih => exact ih within
  | decl _ ih => exact ih within
  | seq s _ ihs iht => exact List.forall_mem_append.mpr ⟨ihs within, iht (s.within within).2⟩
  | seqStop _ _ ihs => exact ihs within
  | dealloc e ih =>
      refine List.forall_mem_append.mpr ⟨ih within, fun event member => ?_⟩
      rw [List.mem_singleton.mp member]
      exact (e.within within).1
  | iteThen init test _ ihi ihc ihs =>
      have declared := (init.within within).2
      exact List.forall_mem_append.mpr ⟨List.forall_mem_append.mpr ⟨ihi within, ihc declared⟩,
        ihs (test.within declared).2⟩
  | iteElse init test _ ihi ihc iht =>
      have declared := (init.within within).2
      exact List.forall_mem_append.mpr ⟨List.forall_mem_append.mpr ⟨ihi within, ihc declared⟩,
        iht (test.within declared).2⟩
  | loopDone _ ihc => exact ihc within
  | loopNext c body _ inc _ ihc ihb ihi ihl =>
      have tested := (c.within within).2
      have again := (inc.within (body.within tested).2).2
      exact List.forall_mem_append.mpr ⟨List.forall_mem_append.mpr
        ⟨List.forall_mem_append.mpr ⟨ihc within, ihb tested⟩, ihi (body.within tested).2⟩, ihl again⟩
  | loopLeft c _ _ _ ihc ihb =>
      exact List.forall_mem_append.mpr ⟨ihc within, ihb (c.within within).2⟩
  | doDone body _ _ ihb ihc =>
      exact List.forall_mem_append.mpr ⟨ihb within, ihc (body.within within).2⟩
  | doNext body _ c _ ihb ihc ihl =>
      have tested := (body.within within).2
      exact List.forall_mem_append.mpr ⟨List.forall_mem_append.mpr ⟨ihb within, ihc tested⟩,
        ihl (c.within tested).2⟩
  | doLeft _ _ _ ihb => exact ihb within
  | switchNone _ ihc => exact ihc within
  | switch c _ _ ihc ihb =>
      exact List.forall_mem_append.mpr ⟨ihc within, ihb (c.within within).2⟩
  | labelled _ ih => exact ih within
  | ret _ ih => exact ih within
  | _ => exact fun _ member => absurd member List.not_mem_nil

end Origin

end PointerPrograms
