import CppInterOp.ErrorProducers
import CppInterOp.Library.Runs

/-!
Diagnostics over whole runs: each one that an interpreter emits waits until a slice of the interpreter
takes it or it is cleared.
-/

namespace CppInterOp

structure DiagnosticState where
  infos : Address → InterpreterInfo
  heap : SliceHeap

inductive DiagnosticOp
  | HandleDiagnostic (II : Address) (diag : Diagnostic)
  | produce (II : Address) (source : ErrorSource) (Producer ProducerSig : Option String)
  | ClearPending (II : Address)
  deriving DecidableEq

namespace DiagnosticState

def StoredDiags (state : DiagnosticState) (II : Address) : List StoredDiagView :=
  (state.infos II).storedDiags

def withInfo (state : DiagnosticState) (II : Address) (info : InterpreterInfo) : DiagnosticState :=
  { state with infos := fun other => if other = II then info else state.infos other }

def step (state : DiagnosticState) : DiagnosticOp → DiagnosticState
  | .HandleDiagnostic II diag =>
      let info := state.infos II
      state.withInfo II { info with storedDiags := info.storedDiags ++ [diag.view] }
  | .produce II source Producer ProducerSig =>
      let produced := source.produce ⟨II, state.infos II, Producer, ProducerSig⟩ state.heap
      { state.withInfo II produced.info with heap := produced.heap }
  | .ClearPending II => state.withInfo II { state.infos II with storedDiags := [] }

end DiagnosticState

def DiagnosticOp.emits (II : Address) : DiagnosticOp → List StoredDiagView
  | HandleDiagnostic other diag => if other = II then [diag.view] else []
  | produce _ _ _ _ | ClearPending _ => []

inductive DiagnosticFate
  | taken
  | cleared
  deriving DecidableEq, Repr

abbrev DiagnosticBatch := DiagnosticFate × List StoredDiagView

def ProducedSlice.Carries (slice : ProducedSlice) (batch : DiagnosticBatch) : Prop :=
  ∃ Message, slice.Diagnostics = messageDiagnostics Message ++ batch.2

/-- The batches are what an interpreter emitted, in order and with the pending diagnostics at the end;
the slices made for it carry the batches that were taken, one each and in order, and the others were
cleared. -/
structure BatchedAs (II : Address) (emitted pending : List StoredDiagView)
    (slices : List ProducedSlice) (ops : List DiagnosticOp) (batches : List DiagnosticBatch) :
    Prop where
  whole : emitted = (batches.map Prod.snd).flatten ++ pending
  carried : List.Forall₂ ProducedSlice.Carries (slices.filter fun slice => slice.Owner == II)
    (batches.filter fun batch => batch.1 == .taken)
  cleared : (batches.filter fun batch => batch.1 == .cleared).length = ops.count (.ClearPending II)

namespace DiagnosticState

variable {state : DiagnosticState} {II : Address}

theorem withInfo_self (state : DiagnosticState) (II : Address) :
    state.withInfo II (state.infos II) = state := by
  rw [withInfo]
  congr 1
  funext other
  split
  · next same => rw [same]
  · rfl

/-- A slice that is made for an interpreter takes all that waits there, and nothing else. -/
theorem produceSlice_batched (other : Address) (Producer ProducerSig : Option String)
    (Code : Status) (Message : String) :
    let context : ErrorContext := ⟨other, state.infos other, Producer, ProducerSig⟩
    let produced := produceSlice context state.heap Code Message
    ∃ slice, produced.heap = state.heap ++ [slice] ∧ slice.Owner = other ∧
      slice.Diagnostics = messageDiagnostics Message ++ state.StoredDiags other ∧
      (state.withInfo other produced.info).StoredDiags II =
        if II = other then [] else state.StoredDiags II := by
  refine ⟨_, rfl, rfl, rfl, ?_⟩
  rw [StoredDiags, withInfo]
  dsimp only
  split
  · rfl
  · rfl

/-- What one operation does for an interpreter: its diagnostic waits, or a slice takes all that wait,
or they are cleared, or nothing happens to them. -/
theorem step_batched (op : DiagnosticOp) :
    ∃ made batches, (state.step op).heap = state.heap ++ made ∧
      BatchedAs II (state.StoredDiags II ++ op.emits II) ((state.step op).StoredDiags II) made [op]
        batches := by
  cases op with
  | HandleDiagnostic other diag =>
      refine ⟨[], [], (List.append_nil _).symm, ?_, List.Forall₂.nil, rfl⟩
      by_cases here : other = II
      · subst here
        simp [step, StoredDiags, withInfo, DiagnosticOp.emits]
      · simp [step, StoredDiags, withInfo, DiagnosticOp.emits, here, Ne.symm here]
  | ClearPending other =>
      by_cases here : other = II
      · subst here
        refine ⟨[], [(.cleared, state.StoredDiags other)], (List.append_nil _).symm, ?_,
          List.Forall₂.nil, ?_⟩
        · simp [step, StoredDiags, withInfo, DiagnosticOp.emits]
        · simp
      · refine ⟨[], [], (List.append_nil _).symm, ?_, List.Forall₂.nil, ?_⟩
        · simp [step, StoredDiags, withInfo, DiagnosticOp.emits, Ne.symm here]
        · simp [here]
  | produce other source Producer ProducerSig =>
      have sliced : ∀ Code Message,
          let context : ErrorContext := ⟨other, state.infos other, Producer, ProducerSig⟩
          let produced := produceSlice context state.heap Code Message
          ∃ made batches, produced.heap = state.heap ++ made ∧
            BatchedAs II (state.StoredDiags II ++ [])
              ((state.withInfo other produced.info).StoredDiags II) made
              [.produce other source Producer ProducerSig] batches := by
        intro Code Message context produced
        obtain ⟨slice, made, owner, carries, waits⟩ :=
          @produceSlice_batched state II other Producer ProducerSig Code Message
        by_cases here : other = II
        · subst here
          rw [if_pos rfl] at waits
          refine ⟨[slice], [(.taken, state.StoredDiags other)], made, ?_, ?_, rfl⟩
          · rw [waits]
            simp
          · rw [List.filter_cons_of_pos (by simp [owner]), List.filter_cons_of_pos (by simp)]
            exact List.Forall₂.cons ⟨Message, carries⟩ List.Forall₂.nil
        · rw [if_neg (Ne.symm here)] at waits
          refine ⟨[slice], [], made, ?_, ?_, rfl⟩
          · rw [waits]
            simp
          · rw [List.filter_cons_of_neg (by simp [owner, here])]
            exact List.Forall₂.nil
      cases source with
      | inlineStatus S =>
          refine ⟨[], [], (List.append_nil _).symm, ?_, List.Forall₂.nil, rfl⟩
          have unchanged : (state.step (.produce other (.inlineStatus S) Producer ProducerSig)) =
              state := withInfo_self state other
          rw [unchanged]
          simp [DiagnosticOp.emits]
      | message S Message => exact sliced S Message
      | drained E => exact sliced _ _

theorem BatchedAs.append {before after pending waiting : List StoredDiagView}
    {made more : List ProducedSlice} {ops later : List DiagnosticOp}
    {batches others : List DiagnosticBatch} (first : BatchedAs II before pending made ops batches)
    (second : BatchedAs II (pending ++ after) waiting more later others) :
    BatchedAs II (before ++ after) waiting (made ++ more) (ops ++ later) (batches ++ others) where
  whole := by
    rw [first.whole, List.append_assoc, second.whole, List.map_append, List.flatten_append,
      List.append_assoc]
  carried := by
    rw [List.filter_append, List.filter_append]
    exact List.rel_append first.carried second.carried
  cleared := by
    rw [List.filter_append, List.length_append, first.cleared, second.cleared, List.count_append]

theorem run_batched (ops : List DiagnosticOp) :
    ∃ made batches, (Runs.run step state ops).heap = state.heap ++ made ∧
      BatchedAs II (state.StoredDiags II ++ ops.flatMap (DiagnosticOp.emits II))
        ((Runs.run step state ops).StoredDiags II) made ops batches := by
  induction ops generalizing state with
  | nil =>
      refine ⟨[], [], (List.append_nil _).symm, ?_, List.Forall₂.nil, rfl⟩
      exact List.append_nil _
  | cons op ops ih =>
      obtain ⟨made, batches, grown, first⟩ := @step_batched state II op
      obtain ⟨more, others, grows, second⟩ := @ih (state.step op)
      refine ⟨made ++ more, batches ++ others, ?_, ?_⟩
      · rw [Runs.run, grows, grown, List.append_assoc]
      · rw [List.flatMap_cons, ← List.append_assoc]
        exact BatchedAs.append first second

/-- Whatever an interpreter emits is taken by one slice of its own, cleared, or pending, each of it
once, and in the order in which it was emitted. -/
theorem diagnostics_conserved (infos : Address → InterpreterInfo)
    (none_pending : (infos II).storedDiags = []) (ops : List DiagnosticOp) :
    ∃ batches, BatchedAs II (ops.flatMap (DiagnosticOp.emits II))
      ((Runs.run step ⟨infos, []⟩ ops).StoredDiags II) (Runs.run step ⟨infos, []⟩ ops).heap ops
      batches := by
  obtain ⟨made, batches, grown, batched⟩ := @run_batched ⟨infos, []⟩ II ops
  rw [show (DiagnosticState.mk infos []).StoredDiags II = [] from none_pending,
    List.nil_append] at batched
  rw [grown]
  exact ⟨batches, batched⟩

def emitted (message : String) : Diagnostic := ⟨.error, message, none⟩

def twoInterpreters : List DiagnosticOp :=
  [.HandleDiagnostic 1 (emitted "a"), .HandleDiagnostic 2 (emitted "b"),
    .produce 2 (.message .CompileError "m") none none, .HandleDiagnostic 1 (emitted "c"),
    .produce 1 (.drained []) none none, .HandleDiagnostic 1 (emitted "d")]

/-- One interpreter loses nothing to the slices of another, and one diagnostic of its own waits. -/
theorem diagnostics_conserved_two :
    ∃ batches, BatchedAs 1 [(emitted "a").view, (emitted "c").view, (emitted "d").view]
      [(emitted "d").view] (Runs.run step ⟨fun _ => {}, []⟩ twoInterpreters).heap twoInterpreters
      batches :=
  diagnostics_conserved (fun _ => {}) rfl twoInterpreters

end DiagnosticState

end CppInterOp
