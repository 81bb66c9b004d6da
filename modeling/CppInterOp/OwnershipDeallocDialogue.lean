import CppInterOp.OwnershipAllocDialogue
import CppInterOp.OwnershipDeallocSteps

/-!
The deallocation analysis without a bound on how deep it nests, and the end of every query of
either analysis.
-/

namespace CppInterOp

open PointerPrograms Dialogues

abbrev DeallocDialogue (Result : Type) :=
  Dialogue (Nat × VisitedFuncs) (List DeallocType × VisitedFuncs) Result

namespace DeallocationTraverser

section Asking

def askCall (traverser : DeallocationTraverser) (f : Nat) (args : List CodeExpr) :
    DeallocDialogue DeallocationTraverser :=
  match traverser.visitedFuncs f with
  | some none => .done traverser
  | some (some known) => .done (traverser.joinVectors known args)
  | none =>
      .ask (f, traverser.visitedFuncs.insert f none) fun calleeVec =>
        .done ({ traverser with visitedFuncs := calleeVec.2 }.joinVectors calleeVec.1 args)

def askVisit (traverser : DeallocationTraverser) : Visit → DeallocDialogue DeallocationTraverser
  | .assign v e => .done (traverser.updateMap v e)
  | .dealloc form e => .done (traverser.record e form.type)
  | .call f args => traverser.askCall f args

def askVisits : List Visit → DeallocationTraverser → DeallocDialogue DeallocationTraverser
  | [], traverser => .done traverser
  | node :: nodes, traverser => (traverser.askVisit node).bind (askVisits nodes)

end Asking

end DeallocationTraverser

def askDeallocType (base : CodeBase) (question : Nat × VisitedFuncs) :
    DeallocDialogue (List DeallocType × VisitedFuncs) :=
  let fn := base.function question.1
  match fn.body with
  | none =>
      let valPerParam := List.replicate fn.numParams .opaqueBody
      .done (valPerParam, question.2.insert question.1 (some valPerParam))
  | some body =>
      let start : DeallocationTraverser :=
        { valPerParam := List.replicate fn.numParams .none, visitedFuncs := question.2 }
      (start.askVisits (stmtVisits body)).map fun traverser =>
        (traverser.valPerParam,
          traverser.visitedFuncs.insert question.1 (some traverser.valPerParam))

section Answered

variable {base : CodeBase} {analyze : Nat → VisitedFuncs → List DeallocType × VisitedFuncs}

namespace DeallocationTraverser

theorem run_askVisit (traverser : DeallocationTraverser) (node : Visit) :
    (traverser.askVisit node).run (fun question => analyze question.1 question.2) =
      traverser.visit analyze node := by
  cases node with
  | assign v e => rfl
  | dealloc form e => rfl
  | call f args =>
      rw [askVisit, askCall, visit, visitCall]
      cases traverser.visitedFuncs f with
      | none => rfl
      | some known =>
          cases known with
          | none => rfl
          | some known => rfl

theorem run_askVisits (nodes : List Visit) (traverser : DeallocationTraverser) :
    (traverser.askVisits nodes).run (fun question => analyze question.1 question.2) =
      Runs.run (visit analyze) traverser nodes := by
  induction nodes generalizing traverser with
  | nil => rfl
  | cons node nodes ih =>
      rw [askVisits, Dialogue.run_bind, run_askVisit, ih]
      rfl

end DeallocationTraverser

theorem run_askDeallocType (fuel : Nat) (question : Nat × VisitedFuncs) :
    AnalyzeDeallocType base (fuel + 1) question.1 question.2 =
      (askDeallocType base question).run
        fun inner => AnalyzeDeallocType base fuel inner.1 inner.2 := by
  rw [AnalyzeDeallocType, askDeallocType]
  simp only
  cases (base.function question.1).body with
  | none => rfl
  | some body => simp only [Dialogue.run_map, DeallocationTraverser.run_askVisits]

end Answered

section Care

namespace DeallocationTraverser

theorem done_careful {traverser after : DeallocationTraverser}
    (same : after.visitedFuncs = traverser.visitedFuncs) :
    Careful visitedFuncs traverser.visitedFuncs
      (.done after : DeallocDialogue DeallocationTraverser) :=
  show Visited.Grows traverser.visitedFuncs after.visitedFuncs from same ▸ .refl _

theorem askVisit_careful (traverser : DeallocationTraverser) (node : Visit) :
    Careful visitedFuncs traverser.visitedFuncs (traverser.askVisit node) := by
  cases node with
  | assign v e =>
      cases v with
      | param index => exact done_careful rfl
      | own name => exact done_careful rfl
  | dealloc form e => exact done_careful (record_visited traverser e form.type)
  | call f args =>
      rw [askVisit, askCall]
      split
      next _ => exact done_careful rfl
      next known _ => exact done_careful (joinVectors_same traverser known args).2
      next missing =>
          refine ⟨⟨missing, by simp, (Visited.Grows.refl _).insert _ _⟩, fun answer _ => ?_⟩
          have joined := (joinVectors_same { traverser with visitedFuncs := answer.2 } answer.1 args).2
          exact done_careful joined

theorem askVisits_careful (nodes : List Visit) (traverser : DeallocationTraverser) :
    Careful visitedFuncs traverser.visitedFuncs (traverser.askVisits nodes) := by
  induction nodes generalizing traverser with
  | nil => exact .refl _
  | cons node nodes ih => exact (askVisit_careful traverser node).bind ih

end DeallocationTraverser

theorem askDeallocType_careful (base : CodeBase) (question : Nat × VisitedFuncs) :
    Careful Prod.snd question.2 (askDeallocType base question) := by
  rw [askDeallocType]
  simp only
  cases (base.function question.1).body with
  | none => exact (Visited.Grows.refl _).insert _ _
  | some body =>
      have visits := DeallocationTraverser.askVisits_careful (stmtVisits body)
        { valPerParam := List.replicate (base.function question.1).numParams .none
          visitedFuncs := question.2 }
      exact visits.map fun traverser => (Visited.Grows.refl traverser.visitedFuncs).insert _ _

theorem askDeallocType_beyond (base : CodeBase) (question : Nat × VisitedFuncs)
    (beyond : base.length ≤ question.1) :
    ∃ answer, askDeallocType base question = .done answer := by
  have no_body := (Program.function_beyond beyond).2
  rw [askDeallocType]
  simp only [no_body]
  exact ⟨_, rfl⟩

theorem GetDeallocType_ends (base : CodeBase) (f : Nat) :
    ∃ answer asked,
      EndsOnce (askDeallocType base) (f, Visited.Table.insert (fun _ => none) f none) answer asked ∧
        answer.1 = (GetDeallocType base f).2 := by
  let question : Nat × VisitedFuncs := (f, Visited.Table.insert (fun _ => none) f none)
  have entered : question.2 question.1 ≠ none := by simp [question]
  obtain ⟨answer, asked, ends⟩ := Careful.endsOnce (askDeallocType_careful base)
    (askDeallocType_beyond base) entered
  obtain ⟨enough, same⟩ := ends.fueled
    (fun fuel question => AnalyzeDeallocType base fuel question.1 question.2) run_askDeallocType
  refine ⟨answer, asked, ends, ?_⟩
  rw [← GetDeallocType_fuel f enough, ← same (base.length + enough) (Nat.le_add_left _ _)]

end Care

section Result

/-- How often the body that `d` defines is analysed when these declarations are. -/
def timesAnalysed (base : CodeBase) (d : Nat) (analysed : List Nat) : Nat :=
  (analysed.filter fun f => base.definition f = d).length

def BodiesOnce (base : CodeBase) (analysed : List Nat) : Prop :=
  ∀ d, (base.declaration d).body.isSome = true → timesAnalysed base d analysed ≤ 1

def BodiesBounded (base : CodeBase) (analysed : List Nat) : Prop :=
  ∀ d, (base.declaration d).body.isSome = true →
    timesAnalysed base d analysed ≤ (base.declarations d).length

theorem bodies_bounded (base : CodeBase) {analysed : List Nat} (once : analysed.Nodup) :
    BodiesBounded base analysed := by
  intro d defines
  refine (once.filter _).length_le_of_subset fun f member => ?_
  exact Program.mem_declarations defines (of_decide_eq_true (List.mem_filter.mp member).2)

/-- Either query about a declaration ends, analyses no declaration twice, and no body more often
than its function is declared. -/
theorem ownership_queries_end (base : CodeBase) (f : Nat) :
    (∃ answer asked,
      EndsOnce (askAllocType base) (f, Visited.Table.insert (fun _ => none) f none) answer asked ∧
        BodiesBounded base (f :: asked.map Prod.fst) ∧
        answer.1.getD .none = GetAllocType base f) ∧
    ∃ answer asked,
      EndsOnce (askDeallocType base) (f, Visited.Table.insert (fun _ => none) f none) answer asked ∧
        BodiesBounded base (f :: asked.map Prod.fst) ∧
        answer.1 = (GetDeallocType base f).2 := by
  obtain ⟨known, asked, ends, same⟩ := GetAllocType_ends base f
  obtain ⟨types, others, ends_too, same_too⟩ := GetDeallocType_ends base f
  exact ⟨⟨known, asked, ends, bodies_bounded base ends.2.1, same⟩,
    types, others, ends_too, bodies_bounded base ends_too.2.1, same_too⟩

/-- `int* F(int n);` and `int* F(int n) { if (n > 0) return F(n - 1); return new int; }`. The call
names the second declaration. -/
def redeclaredF : CodeBase :=
  [{ numParams := 1, body := none, returnsPointer := true, promise := none, definedBy := some 1 },
   { numParams := 1,
     body := some (.seq (.ite .absent (.expr .other) (.ret (.call 1 [.other])) .absent)
       (.ret (.allocate .new))),
     returnsPointer := true, promise := none }]

/-- A query about the first declaration analyses the body for either of them. -/
theorem redeclaredF_twice :
    (∃ answer asked, Ends (askAllocType redeclaredF)
      (askAllocType redeclaredF (0, Visited.Table.insert (fun _ => none) 0 none)) answer asked ∧
        ¬BodiesOnce redeclaredF (0 :: asked.map Prod.fst)) ∧
    ∃ answer asked, Ends (askDeallocType redeclaredF)
      (askDeallocType redeclaredF (0, Visited.Table.insert (fun _ => none) 0 none)) answer asked ∧
        ¬BodiesOnce redeclaredF (0 :: asked.map Prod.fst) := by
  refine ⟨⟨_, _, .ask .done .done, fun once => ?_⟩, _, _, .ask .done .done, fun once => ?_⟩
  · exact absurd (once 1 rfl) (by decide)
  · exact absurd (once 1 rfl) (by decide)

end Result

end CppInterOp
