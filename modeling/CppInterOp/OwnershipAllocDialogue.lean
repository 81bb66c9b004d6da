import CppInterOp.Library.Dialogues
import CppInterOp.OwnershipAllocSteps

/-!
The allocation analysis without a bound on how deep it nests: a traversal asks for the analysis of
each function that it calls for the first time, and goes on with the answer.
-/

namespace CppInterOp

open PointerPrograms Dialogues

abbrev AllocDialogue (Result : Type) := Dialogue (Nat × AllocFuncs) (Known × AllocFuncs) Result

namespace AllocationTraverser

section Asking

variable (base : CodeBase)

def askCall (f : Nat) (visitedFuncs : AllocFuncs) : AllocDialogue (Known × AllocFuncs) :=
  match visitedFuncs f with
  | some known => .done (known, visitedFuncs)
  | none =>
      let storedResult := IsAllocator base f
      let visitedFuncs := visitedFuncs.insert f (some storedResult)
      if storedResult ≠ .unknown then .done (some storedResult, visitedFuncs)
      else .ask (f, visitedFuncs) .done

def askExpr (varMap : VarMap) (visitedFuncs : AllocFuncs) :
    CodeExpr → AllocDialogue (Known × AllocFuncs)
  | .cast e => askExpr varMap visitedFuncs e
  | .allocate form => .done (some form.type, visitedFuncs)
  | .var v => .done ((varMap v).getD (some .none), visitedFuncs)
  | .call f _ => askCall base f visitedFuncs
  | .null => .done (some .null, visitedFuncs)
  | _ => .done (some .none, visitedFuncs)

def askStore (traverser : AllocationTraverser) (v : Var) (e : CodeExpr) :
    AllocDialogue AllocationTraverser :=
  (askExpr base traverser.varMap traverser.visitedFuncs e).map fun handled =>
    { traverser with varMap := traverser.varMap.set v handled.1, visitedFuncs := handled.2 }

def askVarDecl (traverser : AllocationTraverser) (v : Var) :
    Option CodeExpr → AllocDialogue AllocationTraverser
  | some e => traverser.askStore base v e
  | none => .done { traverser with varMap := traverser.varMap.set v (some .none) }

def askParameter (fn : CodeFunction) (traverser : AllocationTraverser) (index : Nat) :
    AllocDialogue AllocationTraverser :=
  (traverser.askVarDecl base (.param index) (fn.default index)).map fun visited =>
    match fn.definedBy with
    | none => visited
    | some _ => { visited with varMap := traverser.varMap }

def askParameters (fn : CodeFunction) :
    List Nat → AllocationTraverser → AllocDialogue AllocationTraverser
  | [], traverser => .done traverser
  | index :: rest, traverser => (traverser.askParameter base fn index).bind (askParameters fn rest)

mutual

def askTraverseExpr : CodeExpr → AllocationTraverser → AllocDialogue AllocationTraverser
  | .var _, traverser => .done traverser
  | .null, traverser => .done traverser
  | .other, traverser => .done traverser
  | .allocate _, traverser => .done traverser
  | .cast e, traverser => askTraverseExpr e traverser
  | .assign v e, traverser => ((traverser.log v).askStore base v e).bind (askTraverseExpr e)
  | .shift v e, traverser =>
      let logged := traverser.log v
      askTraverseExpr e { logged with varMap := logged.varMap.set v (some .unknown) }
  | .comma a b, traverser => (askTraverseExpr a traverser).bind (askTraverseExpr b)
  | .cond c a b, traverser =>
      ((askTraverseExpr c traverser).bind (askTraverseExpr a)).bind (askTraverseExpr b)
  | .call _ args, traverser => askTraverseArgs args traverser
  | .filled _, traverser => .done traverser

def askTraverseArgs : List CodeExpr → AllocationTraverser → AllocDialogue AllocationTraverser
  | [], traverser => .done traverser
  | e :: es, traverser => (askTraverseExpr e traverser).bind (askTraverseArgs es)

end

def askReturn (traverser : AllocationTraverser) (e : CodeExpr) :
    AllocDialogue (AllocationTraverser × Bool) :=
  (askExpr base traverser.varMap traverser.visitedFuncs e).map fun tmp =>
    let traverser := { traverser with visitedFuncs := tmp.2 }
    if tmp.1 = none then (traverser, true)
    else if traverser.result = none then ({ traverser with result := tmp.1 }, true)
    else
      let result := join traverser.result tmp.1
      ({ traverser with result := result }, decide (result ≠ some .unknown))

def askTraverseStmt : Code → AllocationTraverser → AllocDialogue (AllocationTraverser × Bool)
  | .absent, traverser => .done (traverser, true)
  | .expr e, traverser => (askTraverseExpr base e traverser).map fun after => (after, true)
  | .decl name none, traverser =>
      (traverser.askVarDecl base (.own name) none).map fun after => (after, true)
  | .decl name (some e), traverser =>
      ((traverser.askStore base (.own name) e).bind (askTraverseExpr base e)).map
        fun after => (after, true)
  | .seq s t, traverser =>
      (askTraverseStmt s traverser).bind fun first =>
        if first.2 then askTraverseStmt t first.1 else .done first
  | .dealloc _ e, traverser => (askTraverseExpr base e traverser).map fun after => (after, true)
  | .ite _ test s t, traverser =>
      (askTraverseStmt test traverser).bind fun tested =>
        (askTraverseStmt s tested.1.enter).bind fun thenBranch =>
          if t.isAbsent then .done (joinThen tested.1 thenBranch.1, true)
          else (askTraverseStmt t thenBranch.1.undoOnVarMap.enter).map fun elseBranch =>
            (joinElse tested.1 thenBranch.1 elseBranch.1, true)
  | .loop c inc body, traverser =>
      ((askTraverseExpr base c traverser).bind (askTraverseExpr base inc)).bind
        (askTraverseStmt body)
  | .doWhile body c, traverser =>
      (askTraverseStmt body traverser).bind fun first =>
        if first.2 then (askTraverseExpr base c first.1).map fun after => (after, true)
        else .done first
  | .switch c body, traverser => (askTraverseExpr base c traverser).bind (askTraverseStmt body)
  | .labelled s, traverser => askTraverseStmt s traverser
  | .brk, traverser => .done (traverser, true)
  | .cont, traverser => .done (traverser, true)
  | .ret e, traverser =>
      (traverser.askReturn base e).bind fun visited =>
        if visited.2 then (askTraverseExpr base e visited.1).map fun after => (after, true)
        else .done visited

end Asking

end AllocationTraverser

def askAllocType (base : CodeBase) (question : Nat × AllocFuncs) :
    AllocDialogue (Known × AllocFuncs) :=
  let fn := base.function question.1
  if fn.returnsPointer then
    match fn.body with
    | none => .done (some .unknown, question.2)
    | some body =>
        let start : AllocationTraverser := { visitedFuncs := question.2 }
        let parameters := start.askParameters base fn (List.range fn.numParams)
        (parameters.bind (AllocationTraverser.askTraverseStmt base body)).map fun traversed =>
          (traversed.1.result, traversed.1.visitedFuncs.insert question.1 traversed.1.result)
  else .done (some .none, question.2)

section Answered

variable {base : CodeBase} {analyze : Nat → AllocFuncs → Known × AllocFuncs}

namespace AllocationTraverser

theorem run_askCall (f : Nat) (visitedFuncs : AllocFuncs) :
    (askCall base f visitedFuncs).run (fun question => analyze question.1 question.2) =
      handleCall base analyze f visitedFuncs := by
  rw [askCall, handleCall]
  cases visitedFuncs f with
  | some known => rfl
  | none =>
      simp only
      split
      · rfl
      · rfl

theorem run_askExpr (varMap : VarMap) (visitedFuncs : AllocFuncs) :
    ∀ e : CodeExpr,
      (askExpr base varMap visitedFuncs e).run (fun question => analyze question.1 question.2) =
        handleExpr base analyze varMap visitedFuncs e
  | .cast e => run_askExpr varMap visitedFuncs e
  | .call f _ => run_askCall f visitedFuncs
  | .allocate _ => rfl
  | .var _ => rfl
  | .null => rfl
  | .other => rfl
  | .assign _ _ => rfl
  | .shift _ _ => rfl
  | .comma _ _ => rfl
  | .cond _ _ _ => rfl
  | .filled _ => rfl

theorem run_askStore (traverser : AllocationTraverser) (v : Var) (e : CodeExpr) :
    (traverser.askStore base v e).run (fun question => analyze question.1 question.2) =
      traverser.store base analyze v e := by
  rw [askStore, Dialogue.run_map, run_askExpr, store]

theorem run_askVarDecl (traverser : AllocationTraverser) (v : Var) (init : Option CodeExpr) :
    (traverser.askVarDecl base v init).run (fun question => analyze question.1 question.2) =
      traverser.visitVarDecl base analyze v init := by
  cases init with
  | none => rfl
  | some e => exact run_askStore traverser v e

theorem run_askParameter (fn : CodeFunction) (traverser : AllocationTraverser) (index : Nat) :
    (traverser.askParameter base fn index).run (fun question => analyze question.1 question.2) =
      traverser.visitParameter base analyze fn index := by
  rw [askParameter, Dialogue.run_map, run_askVarDecl]
  rfl

theorem run_askParameters (fn : CodeFunction) (indices : List Nat)
    (traverser : AllocationTraverser) :
    (traverser.askParameters base fn indices).run (fun question => analyze question.1 question.2) =
      indices.foldl (visitParameter base analyze fn) traverser := by
  induction indices generalizing traverser with
  | nil => rfl
  | cons index rest ih =>
      rw [askParameters, Dialogue.run_bind, run_askParameter, ih]
      rfl

mutual

theorem run_askTraverseExpr :
    ∀ (e : CodeExpr) (traverser : AllocationTraverser),
      (traverser.askTraverseExpr base e).run (fun question => analyze question.1 question.2) =
        traverser.traverseExpr base analyze e
  | .var _, _ => rfl
  | .null, _ => rfl
  | .other, _ => rfl
  | .allocate _, _ => rfl
  | .cast e, traverser => run_askTraverseExpr e traverser
  | .assign v e, traverser => by
      rw [askTraverseExpr, Dialogue.run_bind, run_askStore, run_askTraverseExpr e]
      rfl
  | .shift v e, traverser => run_askTraverseExpr e _
  | .comma a b, traverser => by
      rw [askTraverseExpr, Dialogue.run_bind, run_askTraverseExpr a, run_askTraverseExpr b]
      rfl
  | .cond c a b, traverser => by
      rw [askTraverseExpr, Dialogue.run_bind, Dialogue.run_bind, run_askTraverseExpr c,
        run_askTraverseExpr a, run_askTraverseExpr b]
      rfl
  | .call _ args, traverser => run_askTraverseArgs args traverser
  | .filled _, _ => rfl

theorem run_askTraverseArgs :
    ∀ (es : List CodeExpr) (traverser : AllocationTraverser),
      (traverser.askTraverseArgs base es).run (fun question => analyze question.1 question.2) =
        traverser.traverseArgs base analyze es
  | [], _ => rfl
  | e :: es, traverser => by
      rw [askTraverseArgs, Dialogue.run_bind, run_askTraverseExpr e, run_askTraverseArgs es]
      rfl

end

theorem run_askReturn (traverser : AllocationTraverser) (e : CodeExpr) :
    (traverser.askReturn base e).run (fun question => analyze question.1 question.2) =
      traverser.visitReturnStmt base analyze e := by
  rw [askReturn, Dialogue.run_map, run_askExpr, visitReturnStmt]

theorem run_askTraverseStmt (s : Code) (traverser : AllocationTraverser) :
    (traverser.askTraverseStmt base s).run (fun question => analyze question.1 question.2) =
      traverser.traverseStmt base analyze s := by
  induction s generalizing traverser with
  | absent => rfl
  | expr e => rw [askTraverseStmt, Dialogue.run_map, run_askTraverseExpr, traverseStmt]
  | decl name init =>
      cases init with
      | none => rfl
      | some e =>
          rw [askTraverseStmt, Dialogue.run_map, Dialogue.run_bind, run_askStore,
            run_askTraverseExpr]
          rfl
  | seq s t ihs iht =>
      rw [askTraverseStmt, Dialogue.run_bind, ihs, traverseStmt]
      split
      · exact iht _
      · rfl
  | dealloc form e => rw [askTraverseStmt, Dialogue.run_map, run_askTraverseExpr, traverseStmt]
  | ite init test s t _ ihc ihs iht =>
      rw [askTraverseStmt, Dialogue.run_bind, ihc, Dialogue.run_bind, ihs, traverseStmt]
      simp only
      split
      · rfl
      · rw [Dialogue.run_map, iht]
  | loop c inc body ihb =>
      rw [askTraverseStmt, Dialogue.run_bind, Dialogue.run_bind, run_askTraverseExpr,
        run_askTraverseExpr, ihb]
      rfl
  | doWhile body c ihb =>
      rw [askTraverseStmt, Dialogue.run_bind, ihb, traverseStmt]
      split
      · rw [Dialogue.run_map, run_askTraverseExpr]
      · rfl
  | switch c body ihb =>
      rw [askTraverseStmt, Dialogue.run_bind, run_askTraverseExpr, ihb]
      rfl
  | labelled s ihs => exact ihs traverser
  | brk => rfl
  | cont => rfl
  | ret e =>
      rw [askTraverseStmt, Dialogue.run_bind, run_askReturn, traverseStmt]
      split
      · rw [Dialogue.run_map, run_askTraverseExpr]
      · rfl

end AllocationTraverser

theorem run_askAllocType (fuel : Nat) (question : Nat × AllocFuncs) :
    AnalyzeAllocType base (fuel + 1) question.1 question.2 =
      (askAllocType base question).run
        fun inner => AnalyzeAllocType base fuel inner.1 inner.2 := by
  rw [AnalyzeAllocType, askAllocType]
  simp only
  split
  · cases (base.function question.1).body with
    | none => rfl
    | some body =>
        simp only [Dialogue.run_map, Dialogue.run_bind, AllocationTraverser.run_askTraverseStmt,
          AllocationTraverser.run_askParameters]
        rfl
  · rfl

end Answered

section Care

variable {base : CodeBase}

namespace AllocationTraverser

theorem askCall_careful (f : Nat) (visitedFuncs : AllocFuncs) :
    Careful Prod.snd visitedFuncs (askCall base f visitedFuncs) := by
  rw [askCall]
  split
  next known _ => exact .refl visitedFuncs
  next missing =>
      simp only
      split
      · exact (Visited.Grows.refl visitedFuncs).insert _ _
      · refine ⟨⟨missing, ?_, (Visited.Grows.refl visitedFuncs).insert _ _⟩, fun answer _ => .refl _⟩
        simp

theorem askExpr_careful (varMap : VarMap) (visitedFuncs : AllocFuncs) :
    ∀ e : CodeExpr, Careful Prod.snd visitedFuncs (askExpr base varMap visitedFuncs e)
  | .cast e => askExpr_careful varMap visitedFuncs e
  | .call f _ => askCall_careful f visitedFuncs
  | .allocate _ => .refl visitedFuncs
  | .var _ => .refl visitedFuncs
  | .null => .refl visitedFuncs
  | .other => .refl visitedFuncs
  | .assign _ _ => .refl visitedFuncs
  | .shift _ _ => .refl visitedFuncs
  | .comma _ _ => .refl visitedFuncs
  | .cond _ _ _ => .refl visitedFuncs
  | .filled _ => .refl visitedFuncs

theorem askStore_careful (traverser : AllocationTraverser) (v : Var) (e : CodeExpr) :
    Careful visitedFuncs traverser.visitedFuncs (traverser.askStore base v e) :=
  (askExpr_careful traverser.varMap traverser.visitedFuncs e).map fun _ => .refl _

theorem askVarDecl_careful (traverser : AllocationTraverser) (v : Var) (init : Option CodeExpr) :
    Careful visitedFuncs traverser.visitedFuncs (traverser.askVarDecl base v init) := by
  cases init with
  | none => exact .refl _
  | some e => exact askStore_careful traverser v e

theorem askParameters_careful (fn : CodeFunction) (indices : List Nat)
    (traverser : AllocationTraverser) :
    Careful visitedFuncs traverser.visitedFuncs (traverser.askParameters base fn indices) := by
  induction indices generalizing traverser with
  | nil => exact .refl _
  | cons index rest ih =>
      have visited : Careful visitedFuncs traverser.visitedFuncs
          (traverser.askVarDecl base (.param index) (fn.default index)) :=
        askVarDecl_careful traverser _ _
      refine Careful.bind (visited.map fun after => ?_) ih
      split
      · exact .refl _
      · exact .refl _

mutual

theorem askTraverseExpr_careful :
    ∀ (e : CodeExpr) (traverser : AllocationTraverser),
      Careful visitedFuncs traverser.visitedFuncs (traverser.askTraverseExpr base e)
  | .var _, _ => .refl _
  | .null, _ => .refl _
  | .other, _ => .refl _
  | .allocate _, _ => .refl _
  | .cast e, traverser => askTraverseExpr_careful e traverser
  | .assign v e, traverser => by
      have stored : Careful visitedFuncs (traverser.log v).visitedFuncs
          ((traverser.log v).askStore base v e) := askStore_careful _ v e
      rw [log_visited] at stored
      exact stored.bind (askTraverseExpr_careful e)
  | .shift v e, traverser => by
      have moved := askTraverseExpr_careful e { traverser.log v with
        varMap := (traverser.log v).varMap.set v (some .unknown) }
      rwa [log_visited] at moved
  | .comma a b, traverser =>
      (askTraverseExpr_careful a traverser).bind (askTraverseExpr_careful b)
  | .cond c a b, traverser =>
      ((askTraverseExpr_careful c traverser).bind (askTraverseExpr_careful a)).bind
        (askTraverseExpr_careful b)
  | .call _ args, traverser => askTraverseArgs_careful args traverser
  | .filled _, _ => .refl _

theorem askTraverseArgs_careful :
    ∀ (es : List CodeExpr) (traverser : AllocationTraverser),
      Careful visitedFuncs traverser.visitedFuncs (traverser.askTraverseArgs base es)
  | [], _ => .refl _
  | e :: es, traverser =>
      (askTraverseExpr_careful e traverser).bind (askTraverseArgs_careful es)

end

theorem askReturn_careful (traverser : AllocationTraverser) (e : CodeExpr) :
    Careful (fun visited : AllocationTraverser × Bool => visited.1.visitedFuncs)
      traverser.visitedFuncs (traverser.askReturn base e) := by
  refine (askExpr_careful traverser.varMap traverser.visitedFuncs e).map fun tmp => ?_
  simp only
  split
  · exact .refl _
  · split
    · exact .refl _
    · exact .refl _

theorem askTraverseStmt_careful (s : Code) (traverser : AllocationTraverser) :
    Careful (fun after : AllocationTraverser × Bool => after.1.visitedFuncs)
      traverser.visitedFuncs (traverser.askTraverseStmt base s) := by
  induction s generalizing traverser with
  | absent => exact .refl _
  | expr e => exact (askTraverseExpr_careful e traverser).map fun _ => .refl _
  | decl name init =>
      cases init with
      | none => exact .refl _
      | some e =>
          exact ((askStore_careful traverser _ e).bind (askTraverseExpr_careful e)).map
            fun _ => .refl _
  | seq s t ihs iht =>
      refine (ihs traverser).bind fun first => ?_
      split
      · exact iht first.1
      · exact .refl _
  | dealloc form e => exact (askTraverseExpr_careful e traverser).map fun _ => .refl _
  | ite init test s t _ ihc ihs iht =>
      refine (ihc traverser).bind fun tested => ?_
      refine (ihs tested.1.enter).bind fun thenBranch => ?_
      split
      · exact .refl _
      · exact (iht thenBranch.1.undoOnVarMap.enter).map fun _ => .refl _
  | loop c inc body ihb =>
      exact ((askTraverseExpr_careful c traverser).bind (askTraverseExpr_careful inc)).bind ihb
  | doWhile body c ihb =>
      refine (ihb traverser).bind fun first => ?_
      split
      · exact (askTraverseExpr_careful c first.1).map fun _ => .refl _
      · exact .refl _
  | switch c body ihb => exact (askTraverseExpr_careful c traverser).bind ihb
  | labelled s ihs => exact ihs traverser
  | brk => exact .refl _
  | cont => exact .refl _
  | ret e =>
      refine (askReturn_careful traverser e).bind fun visited => ?_
      split
      · exact (askTraverseExpr_careful e visited.1).map fun _ => .refl _
      · exact .refl _

end AllocationTraverser

theorem askAllocType_careful (base : CodeBase) (question : Nat × AllocFuncs) :
    Careful Prod.snd question.2 (askAllocType base question) := by
  rw [askAllocType]
  simp only
  split
  · cases (base.function question.1).body with
    | none => exact .refl _
    | some body =>
        have start := @AllocationTraverser.askParameters_careful base (base.function question.1)
          (List.range (base.function question.1).numParams) { visitedFuncs := question.2 }
        exact (start.bind (AllocationTraverser.askTraverseStmt_careful body)).map
          fun traversed => (Visited.Grows.refl _).insert _ _
  · exact .refl _

theorem askAllocType_beyond (base : CodeBase) (question : Nat × AllocFuncs)
    (beyond : base.length ≤ question.1) : ∃ answer, askAllocType base question = .done answer := by
  obtain ⟨returns, no_body⟩ := Program.function_beyond beyond
  refine ⟨(some .unknown, question.2), ?_⟩
  rw [askAllocType]
  simp only [returns, if_true, no_body]

/-- A query about a function, which is in the table from the start: its dialogue ends, with the
result of the query. -/
theorem GetAllocType_ends (base : CodeBase) (f : Nat) :
    ∃ answer asked,
      EndsOnce (askAllocType base) (f, Visited.Table.insert (fun _ => none) f none) answer asked ∧
        answer.1.getD .none = GetAllocType base f := by
  let question : Nat × AllocFuncs := (f, Visited.Table.insert (fun _ => none) f none)
  have entered : question.2 question.1 ≠ none := by simp [question]
  obtain ⟨answer, asked, ends⟩ := Careful.endsOnce (askAllocType_careful base)
    (askAllocType_beyond base) entered
  obtain ⟨enough, same⟩ := ends.fueled
    (fun fuel question => AnalyzeAllocType base fuel question.1 question.2) run_askAllocType
  refine ⟨answer, asked, ends, ?_⟩
  rw [← GetAllocType_fuel f enough, ← same (base.length + enough) (Nat.le_add_left _ _)]

end Care

end CppInterOp
