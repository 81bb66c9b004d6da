import Mathlib.Data.List.Basic

/-!
Runs of a deterministic transition system over arbitrary states and operations:
the properties of every state and of every step along a run, the rules that
carry an invariant or an exact step condition along it, and simulation.
-/

namespace Runs

universe u v w x

section

variable {State : Type u} {Op : Type v} (step : State → Op → State)

def run (state : State) : List Op → State
  | [] => state
  | op :: ops => run (step state op) ops

/-- `holds` is true of the first state and of every state the run reaches. -/
def EveryState (holds : State → Prop) : State → List Op → Prop
  | state, [] => holds state
  | state, op :: ops => holds state ∧ EveryState holds (step state op) ops

/-- `meets` is true of every operation at the state it is performed in. -/
def EveryStep (meets : State → Op → Prop) : State → List Op → Prop
  | _, [] => True
  | state, op :: ops => meets state op ∧ EveryStep meets (step state op) ops

def outputs {Output : Type w} (output : State → Op → Output) : State → List Op → List Output
  | _, [] => []
  | state, op :: ops => output state op :: outputs output (step state op) ops

instance decidableEveryState (holds : State → Prop) [DecidablePred holds] :
    ∀ state ops, Decidable (EveryState step holds state ops)
  | state, [] => inferInstanceAs (Decidable (holds state))
  | state, op :: ops =>
      have : Decidable (EveryState step holds (step state op) ops) :=
        decidableEveryState holds (step state op) ops
      inferInstanceAs (Decidable (holds state ∧ EveryState step holds (step state op) ops))

instance decidableEveryStep (meets : State → Op → Prop) [∀ state op, Decidable (meets state op)] :
    ∀ state ops, Decidable (EveryStep step meets state ops)
  | _, [] => inferInstanceAs (Decidable True)
  | state, op :: ops =>
      have : Decidable (EveryStep step meets (step state op) ops) :=
        decidableEveryStep meets (step state op) ops
      inferInstanceAs (Decidable (meets state op ∧ EveryStep step meets (step state op) ops))

variable {step}

theorem run_append (state : State) (ops more : List Op) :
    run step state (ops ++ more) = run step (run step state ops) more := by
  induction ops generalizing state with
  | nil => rfl
  | cons op ops ih => exact ih (step state op)

/-- What every operation of a run preserves holds at its end. -/
theorem run_preserves (inv : State → Prop) {ops : List Op}
    (preserved : ∀ state, ∀ op ∈ ops, inv state → inv (step state op)) {state : State}
    (start : inv state) : inv (run step state ops) := by
  induction ops generalizing state with
  | nil => exact start
  | cons op ops ih =>
      exact ih (fun state other member => preserved state other (List.mem_cons_of_mem _ member))
        (preserved state op List.mem_cons_self start)

theorem EveryState.first {holds : State → Prop} {state : State} {ops : List Op}
    (every : EveryState step holds state ops) : holds state := by
  cases ops with
  | nil => exact every
  | cons op ops => exact every.1

theorem EveryState.last {holds : State → Prop} {state : State} {ops : List Op}
    (every : EveryState step holds state ops) : holds (run step state ops) := by
  induction ops generalizing state with
  | nil => exact every
  | cons op ops ih => exact ih every.2

theorem EveryState.imp {holds other : State → Prop} {state : State} {ops : List Op}
    (weaken : ∀ state, holds state → other state) (every : EveryState step holds state ops) :
    EveryState step other state ops := by
  induction ops generalizing state with
  | nil => exact weaken _ every
  | cons op ops ih => exact ⟨weaken _ every.1, ih every.2⟩

theorem EveryStep.and {meets other : State → Op → Prop} {state : State} {ops : List Op}
    (every : EveryStep step meets state ops) (others : EveryStep step other state ops) :
    EveryStep step (fun state op => meets state op ∧ other state op) state ops := by
  induction ops generalizing state with
  | nil => trivial
  | cons op ops ih => exact ⟨⟨every.1, others.1⟩, ih every.2 others.2⟩

theorem everyStep_of_forall {meets : State → Op → Prop} (always : ∀ state op, meets state op)
    {state : State} {ops : List Op} : EveryStep step meets state ops := by
  induction ops generalizing state with
  | nil => trivial
  | cons op ops ih => exact ⟨always state op, ih⟩

theorem everyStep_append {meets : State → Op → Prop} {state : State} {ops more : List Op}
    (every : EveryStep step meets state ops)
    (later : EveryStep step meets (run step state ops) more) :
    EveryStep step meets state (ops ++ more) := by
  induction ops generalizing state with
  | nil => exact later
  | cons op ops ih => exact ⟨every.1, ih every.2 later⟩

theorem everyStep_of_mem {meets : State → Op → Prop} {state : State} {ops : List Op}
    (always : ∀ state, ∀ op ∈ ops, meets state op) : EveryStep step meets state ops := by
  induction ops generalizing state with
  | nil => trivial
  | cons op ops ih =>
      exact ⟨always state op List.mem_cons_self,
        ih fun state op member => always state op (List.mem_cons_of_mem _ member)⟩

theorem everyStep_next {holds : State → Prop} {state : State} {ops : List Op}
    (every : EveryState step holds state ops) :
    EveryStep step (fun state op => holds (step state op)) state ops := by
  induction ops generalizing state with
  | nil => trivial
  | cons op ops ih => exact ⟨every.2.first, ih every.2⟩

theorem everyState_of_invariant (inv : State → Prop) {allowed : State → Op → Prop}
    {state : State} {ops : List Op} (start : inv state)
    (preserved : ∀ state op, inv state → allowed state op → inv (step state op))
    (permitted : EveryStep step allowed state ops) : EveryState step inv state ops := by
  induction ops generalizing state with
  | nil => exact start
  | cons op ops ih =>
      exact ⟨start, ih (preserved state op start permitted.1) permitted.2⟩

theorem everyStep_of_invariant (inv : State → Prop) {allowed meets : State → Op → Prop}
    {state : State} {ops : List Op} (start : inv state)
    (preserved : ∀ state op, inv state → allowed state op → inv (step state op))
    (established : ∀ state op, inv state → allowed state op → meets state op)
    (permitted : EveryStep step allowed state ops) : EveryStep step meets state ops := by
  induction ops generalizing state with
  | nil => trivial
  | cons op ops ih =>
      exact ⟨established state op start permitted.1,
        ih (preserved state op start permitted.1) permitted.2⟩

/-- If, from a good state, a permitted step keeps `holds` exactly when it meets the
condition, then `holds` is true along a whole run exactly when every step meets it. -/
theorem everyState_iff_everyStep (inv holds : State → Prop) {allowed meets : State → Op → Prop}
    {state : State} {ops : List Op} (start : inv state)
    (good : ∀ state, inv state → holds state)
    (exact_step : ∀ state op, inv state → allowed state op → (holds (step state op) ↔ meets state op))
    (preserved : ∀ state op, inv state → allowed state op → meets state op → inv (step state op))
    (permitted : EveryStep step allowed state ops) :
    EveryState step holds state ops ↔ EveryStep step meets state ops := by
  induction ops generalizing state with
  | nil => exact ⟨fun _ => trivial, fun _ => good state start⟩
  | cons op ops ih =>
      have here := exact_step state op start permitted.1
      constructor
      · intro every
        have met := here.mp every.2.first
        exact ⟨met, (ih (preserved state op start permitted.1 met) permitted.2).mp every.2⟩
      · intro every
        have next := preserved state op start permitted.1 every.1
        exact ⟨good state start, (ih next permitted.2).mpr every.2⟩

/-- If, from a good state, a step is right exactly when it meets the condition, then every
step of a run is right exactly when every step meets it. -/
theorem everyStep_iff_everyStep (inv : State → Prop) {right meets : State → Op → Prop}
    {state : State} {ops : List Op} (start : inv state)
    (exact_step : ∀ state op, inv state → (right state op ↔ meets state op))
    (preserved : ∀ state op, inv state → meets state op → inv (step state op)) :
    EveryStep step right state ops ↔ EveryStep step meets state ops := by
  induction ops generalizing state with
  | nil => exact Iff.rfl
  | cons op ops ih =>
      have here := exact_step state op start
      constructor
      · intro every
        have met := here.mp every.1
        exact ⟨met, (ih (preserved state op start met)).mp every.2⟩
      · intro every
        exact ⟨here.mpr every.1, (ih (preserved state op start every.1)).mpr every.2⟩

end

section

variable {State : Type u} {Op : Type v} {Model : Type w}
variable {step : State → Op → State} (modelStep : Model → Op → Model)
variable (abstraction : State → Model) (inv : State → Prop) {allowed : State → Op → Prop}

theorem run_simulates {state : State} {ops : List Op} (start : inv state)
    (preserved : ∀ state op, inv state → allowed state op → inv (step state op))
    (simulates : ∀ state op, inv state → allowed state op →
      abstraction (step state op) = modelStep (abstraction state) op)
    (permitted : EveryStep step allowed state ops) :
    abstraction (run step state ops) = run modelStep (abstraction state) ops := by
  induction ops generalizing state with
  | nil => rfl
  | cons op ops ih =>
      simp only [run]
      rw [ih (preserved state op start permitted.1) permitted.2,
        simulates state op start permitted.1]

theorem outputs_simulate {Output : Type x} {output : State → Op → Output}
    {modelOutput : Model → Op → Output} {state : State} {ops : List Op} (start : inv state)
    (preserved : ∀ state op, inv state → allowed state op → inv (step state op))
    (simulates : ∀ state op, inv state → allowed state op →
      abstraction (step state op) = modelStep (abstraction state) op)
    (agrees : ∀ state op, inv state → allowed state op →
      output state op = modelOutput (abstraction state) op)
    (permitted : EveryStep step allowed state ops) :
    outputs step output state ops = outputs modelStep modelOutput (abstraction state) ops := by
  induction ops generalizing state with
  | nil => rfl
  | cons op ops ih =>
      simp only [outputs]
      rw [agrees state op start permitted.1,
        ih (preserved state op start permitted.1) permitted.2,
        simulates state op start permitted.1]

end

end Runs
