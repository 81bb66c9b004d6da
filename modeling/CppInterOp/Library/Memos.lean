import CppInterOp.Library.Runs

/-!
Tables of what has been made on request, over arbitrary worlds, requests, keys and values: a request
is answered from the table, or something is made for it and entered, and a failure is not entered.
-/

namespace Memos

universe u v w x

structure Maker (World : Type u) (Request : Type v) (Key : Type w) (Value : Type x) where
  key : Request → Key
  make : World → Request → Option Value × World

structure Memo (World : Type u) (Key : Type w) (Value : Type x) where
  world : World
  table : List (Key × Value)

inductive Event (World : Type u) (Request : Type v)
  | request (request : Request)
  | outside (change : World → World)

variable {World : Type u} {Request : Type v} {Key : Type w} {Value : Type x} [DecidableEq Key]

namespace Maker

variable (maker : Maker World Request Key Value)

def serve (memo : Memo World Key Value) (request : Request) : Option Value × Memo World Key Value :=
  match memo.table.lookup (maker.key request) with
  | some value => (some value, memo)
  | none =>
      match maker.make memo.world request with
      | (some value, world) => (some value, ⟨world, (maker.key request, value) :: memo.table⟩)
      | (none, world) => (none, { memo with world := world })

def step (memo : Memo World Key Value) : Event World Request → Memo World Key Value
  | .request request => (maker.serve memo request).2
  | .outside change => { memo with world := change memo.world }

variable {maker} {memo : Memo World Key Value} {events : List (Event World Request)}

theorem serve_answer (request : Request) :
    (maker.serve memo request).1 =
      (maker.serve memo request).2.table.lookup (maker.key request) := by
  rw [serve]
  cases found : memo.table.lookup (maker.key request) with
  | some value => exact found.symm
  | none =>
      dsimp only
      split
      · exact List.lookup_cons_self.symm
      · exact found.symm

theorem step_keeps {key : Key} {value : Value} (entered : memo.table.lookup key = some value)
    (event : Event World Request) : (maker.step memo event).table.lookup key = some value := by
  cases event with
  | outside change => exact entered
  | request request =>
      rw [step, serve]
      cases found : memo.table.lookup (maker.key request) with
      | some other => exact entered
      | none =>
          dsimp only
          split
          · have differs : key ≠ maker.key request := by
              rintro rfl
              rw [found] at entered
              cases entered
            rw [List.lookup_cons, beq_false_of_ne differs]
            exact entered
          · exact entered

/-- What is entered once stays. -/
theorem run_keeps {key : Key} {value : Value} (entered : memo.table.lookup key = some value) :
    (Runs.run maker.step memo events).table.lookup key = some value :=
  Runs.run_preserves (fun memo : Memo World Key Value => memo.table.lookup key = some value)
    (fun _ event _ entered => step_keeps entered event) entered

/-- The same is answered to all later requests of the key. -/
theorem answer_keeps {request other : Request} {value : Value}
    (same : maker.key other = maker.key request)
    (answered : (maker.serve memo request).1 = some value) :
    (maker.serve (Runs.run maker.step (maker.serve memo request).2 events) other).1 =
      some value := by
  rw [serve_answer] at answered
  have entered : (Runs.run maker.step (maker.serve memo request).2 events).table.lookup
      (maker.key other) = some value := by
    rw [same]
    exact run_keeps answered
  rw [serve, entered]

/-- A property of the world that making keeps, and whatever else happens, holds at the end. -/
theorem run_world (holds : World → Prop)
    (made : ∀ world request, holds world → holds (maker.make world request).2)
    (outside : ∀ change, .outside change ∈ events → ∀ world, holds world → holds (change world))
    (start : holds memo.world) : holds (Runs.run maker.step memo events).world := by
  refine Runs.run_preserves (fun memo : Memo World Key Value => holds memo.world) ?_ start
  intro memo event member here
  cases event with
  | outside change => exact outside change member _ here
  | request request =>
      rw [step, serve]
      split
      · exact here
      · split
        · next made_here =>
            have after := made memo.world request here
            rw [made_here] at after
            exact after
        · next failed_here =>
            have after := made memo.world request here
            rw [failed_here] at after
            exact after

section Succeeding

variable {succeeds : Request → Bool}

/-- Where it depends on the request alone whether something can be made for it, a key is entered once
one of its requests could be met. -/
theorem entered_iff
    (decided : ∀ world request, (maker.make world request).1.isSome = succeeds request)
    (key : Key) :
    ((Runs.run maker.step memo events).table.lookup key).isSome = true ↔
      (memo.table.lookup key).isSome = true ∨
        ∃ request, .request request ∈ events ∧ maker.key request = key ∧
          succeeds request = true := by
  induction events generalizing memo with
  | nil =>
      refine (or_iff_left ?_).symm
      rintro ⟨request, member, _⟩
      cases member
  | cons event later ih =>
      rw [Runs.run, ih]
      cases event with
      | outside change => simp [step]
      | request request =>
          have here : ((maker.serve memo request).2.table.lookup key).isSome = true ↔
              (memo.table.lookup key).isSome = true ∨
                maker.key request = key ∧ succeeds request = true := by
            have verdict := decided memo.world request
            rw [serve]
            cases found : memo.table.lookup (maker.key request) with
            | some value =>
                refine (or_iff_left_of_imp ?_).symm
                rintro ⟨rfl, _⟩
                rw [found]
                rfl
            | none =>
                dsimp only
                split
                · next value world made =>
                    rw [made] at verdict
                    rw [List.lookup_cons, ← verdict]
                    by_cases same : key = maker.key request
                    · subst same
                      simp
                    · rw [beq_false_of_ne same]
                      simp [Ne.symm same]
                · next world failed =>
                    rw [failed] at verdict
                    rw [← verdict]
                    simp
          rw [step, here]
          simp only [List.mem_cons, Event.request.injEq]
          constructor
          · rintro ((before | now) | ⟨other, member, met⟩)
            · exact Or.inl before
            · exact Or.inr ⟨request, Or.inl rfl, now⟩
            · exact Or.inr ⟨other, Or.inr member, met⟩
          · rintro (before | ⟨other, rfl | member, met⟩)
            · exact Or.inl (Or.inl before)
            · exact Or.inl (Or.inr met)
            · exact Or.inr ⟨other, member, met⟩

/-- A request is met exactly when one of its key could be met so far, itself included. -/
theorem answered_iff
    (decided : ∀ world request, (maker.make world request).1.isSome = succeeds request)
    (start : memo.table = []) (request : Request) :
    (maker.serve (Runs.run maker.step memo events) request).1.isSome = true ↔
      ∃ earlier, .request earlier ∈ events ++ [.request request] ∧
        maker.key earlier = maker.key request ∧ succeeds earlier = true := by
  have whole := @entered_iff _ _ _ _ _ maker memo (events ++ [.request request]) succeeds decided
    (maker.key request)
  rw [Runs.run_append, start] at whole
  rw [serve_answer]
  refine whole.trans ?_
  simp

end Succeeding

end Maker

end Memos
