import CppInterOp.ErrorCore
import CppInterOp.RegistryCore

/-!
The producers of an `ErrorRef`: an inline status, a slice built from a message, and a slice
drained from a chain of `llvm::Error` payloads.
-/

namespace CppInterOp

structure ProducedSlice extends ErrorSlice where
  Owner : Address
  Diagnostics : List StoredDiagView := []
  Producer : Option String := none
  ProducerSignature : Option String := none
  deriving DecidableEq

abbrev SliceHeap := List ProducedSlice

def SliceHeap.slices (heap : SliceHeap) : List ErrorSlice := heap.map ProducedSlice.toErrorSlice

inductive ErrorPayload
  | statusError (Code : Status) (Message : String)
  | other (logged : String)
  deriving DecidableEq, Repr

structure ErrorContext where
  II : Address
  info : InterpreterInfo
  Producer : Option String := none
  ProducerSig : Option String := none
  deriving DecidableEq

structure Produced where
  error : ErrorRef
  info : InterpreterInfo
  heap : SliceHeap
  deriving DecidableEq

def messageDiagnostics (Message : String) : List StoredDiagView :=
  if Message = "" then [] else [{ message := Message, sev := .error }]

def produceSlice (context : ErrorContext) (heap : SliceHeap) (Code : Status)
    (Message : String) : Produced where
  error := ErrorRef.makeSlice heap.length
  info := { context.info with storedDiags := [] }
  heap := heap ++
    [{ Owner := context.II
       Code := Code
       Producer := context.Producer
       ProducerSignature := context.ProducerSig
       Diagnostics := messageDiagnostics Message ++ context.info.storedDiags }]

def makeErrorMessage (context : ErrorContext) (heap : SliceHeap) (S : Status)
    (Message : String) : Produced :=
  produceSlice context heap S Message

/-- What the two handlers of `handleAllErrors` leave in `Code` and `Msg`. -/
def handlePayload : Status × String → ErrorPayload → Status × String
  | (_, Msg), .statusError Code Message => (Code, if Msg = "" then Message else Msg)
  | (Code, Msg), .other logged => (Code, if Msg = "" then logged else Msg)

def drainError (context : ErrorContext) (heap : SliceHeap) (E : List ErrorPayload) : Produced :=
  let handled := E.foldl handlePayload (.CompileError, "")
  produceSlice context heap handled.1 handled.2

inductive ErrorSource
  | inlineStatus (S : Status)
  | message (S : Status) (Message : String)
  | drained (E : List ErrorPayload)
  deriving DecidableEq, Repr

def ErrorSource.produce (context : ErrorContext) (heap : SliceHeap) : ErrorSource → Produced
  | inlineStatus S => { error := ErrorRef.makeInline S, info := context.info, heap := heap }
  | message S Message => makeErrorMessage context heap S Message
  | drained E => drainError context heap E

namespace ErrorOwner

def ok : ErrorOwner → Bool
  | captured Ref => Ref.isOk
  | result m_HasError _ _ => !m_HasError
  | resultVoid m_ErrState _ => m_ErrState.isOk

def status (slices : List ErrorSlice) : ErrorOwner → Option Status
  | captured Ref => GetStatus Ref slices
  | result m_HasError m_ErrState _ => if m_HasError then GetStatus m_ErrState slices else some .Ok
  | resultVoid m_ErrState _ => GetStatus m_ErrState slices

end ErrorOwner

/-- What is built from the produced error reports success as `ok()` exactly when it reports
it as `status()`. -/
def SuccessConsistent (context : ErrorContext) (heap : SliceHeap) (source : ErrorSource)
    (kind : OwnerKind) : Prop :=
  let produced := source.produce context heap
  let built := ErrorOwner.construct produced.error produced.heap.slices kind
  built.1.ok = true ↔ built.1.status built.2 = some .Ok

def ErrorPayload.code : ErrorPayload → Option Status
  | statusError Code _ => some Code
  | other _ => none

/-- No slice is asked to carry `Status::Ok`: not by name, nor by the last `StatusError` of a
chain. -/
def ErrorSource.CarriesFailure : ErrorSource → Prop
  | inlineStatus _ => True
  | message S _ => S ≠ .Ok
  | drained E => (E.filterMap ErrorPayload.code).getLast? ≠ some .Ok

section Slices

variable (context : ErrorContext) (heap : SliceHeap)

/-- The diagnostics of a slice are its message and what was pending, and nothing stays
pending. -/
theorem produceSlice_diagnostics (Code : Status) (Message : String) :
    ((produceSlice context heap Code Message).heap[heap.length]?.map
        ProducedSlice.Diagnostics) =
        some (messageDiagnostics Message ++ context.info.storedDiags) ∧
      (produceSlice context heap Code Message).info.storedDiags = [] := by
  simp [produceSlice]

theorem makeSlice_isOk (n : Nat) : (ErrorRef.makeSlice n).isOk = false := by
  have nonzero : sliceAddress n ≠ 0 := by
    rw [sliceAddress]
    omega
  simpa [ErrorRef.isOk, ErrorRef.makeSlice] using nonzero

theorem makeSlice_isInline (n : Nat) : (ErrorRef.makeSlice n).isInline = false := by
  have even : sliceAddress n % 2 = 0 := by
    rw [sliceAddress]
    omega
  simp [ErrorRef.isInline, ErrorRef.makeSlice, Nat.and_one_is_mod, even]

theorem makeInline_isOk (S : Status) : (ErrorRef.makeInline S).isOk = true ↔ S = .Ok := by
  cases S with
  | Ok => exact ⟨fun _ => rfl, fun _ => rfl⟩
  | NotFound | InvalidArgument | Ambiguous | ParseError | CompileError =>
      exact ⟨(nomatch ·), (nomatch ·)⟩

theorem GetStatus_makeSlice (slices : List ErrorSlice) (n : Nat) :
    GetStatus (ErrorRef.makeSlice n) slices = slices[n]?.map ErrorSlice.Code := by
  simp [GetStatus, makeSlice_isOk, makeSlice_isInline, ErrorRef.slice_makeSlice]

theorem Code_retain (S : ErrorSlice) : S.retain.Code = S.Code := by
  rw [ErrorSlice.retain, ErrorSlice.touch]
  split
  · rfl
  · rfl

theorem GetStatus_retain (E D : ErrorRef) (slices : List ErrorSlice) :
    GetStatus E (RetainErrorRef D slices) = GetStatus E slices := by
  cases retained : D.slice with
  | none => simp only [RetainErrorRef, retained]
  | some k =>
      have codes (n : Nat) : (slices.modify k ErrorSlice.retain)[n]?.map ErrorSlice.Code =
          slices[n]?.map ErrorSlice.Code := by
        rw [List.getElem?_modify]
        by_cases here : k = n
        · simp [here, Function.comp_def, Code_retain]
        · simp [here]
      simp only [RetainErrorRef, retained, GetStatus, codes]

theorem GetStatus_of_isOk {E : ErrorRef} (ok : E.isOk = true) (slices : List ErrorSlice) :
    GetStatus E slices = some .Ok := by
  simp [GetStatus, ok]

/-- Whatever is built from an error asks its encoding for `ok()` and `GetStatus` for
`status()`. -/
theorem construct_reports (E : ErrorRef) (slices : List ErrorSlice) (kind : OwnerKind) :
    (ErrorOwner.construct E slices kind).1.ok = E.isOk ∧
      (ErrorOwner.construct E slices kind).1.status (ErrorOwner.construct E slices kind).2 =
        GetStatus E slices := by
  cases kind with
  | captured => exact ⟨rfl, GetStatus_retain E E slices⟩
  | result =>
      cases ok : E.isOk with
      | true => simp [ErrorOwner.construct, ErrorOwner.ok, ErrorOwner.status, ok,
          GetStatus_of_isOk ok]
      | false => simp [ErrorOwner.construct, ErrorOwner.ok, ErrorOwner.status, ok,
          GetStatus_retain]
  | resultVoid =>
      cases ok : E.isOk with
      | true => simp [ErrorOwner.construct, ErrorOwner.ok, ErrorOwner.status, ok]
      | false => simp [ErrorOwner.construct, ErrorOwner.ok, ErrorOwner.status, ok,
          GetStatus_retain]

theorem produceSlice_reports (Code : Status) (Message : String) :
    let produced := produceSlice context heap Code Message
    produced.error.isOk = false ∧ GetStatus produced.error produced.heap.slices = some Code := by
  refine ⟨makeSlice_isOk heap.length, ?_⟩
  rw [produceSlice, GetStatus_makeSlice]
  simp [SliceHeap.slices]

theorem handlePayload_code (state : Status × String) (payload : ErrorPayload) :
    (handlePayload state payload).1 = payload.code.getD state.1 := by
  cases payload with
  | statusError Code Message => rfl
  | other logged => rfl

/-- The last `StatusError` decides, and `CompileError` where there is none. -/
theorem handled_code (E : List ErrorPayload) (state : Status × String) :
    (E.foldl handlePayload state).1 =
      ((E.filterMap ErrorPayload.code).getLast?).getD state.1 := by
  induction E generalizing state with
  | nil => rfl
  | cons payload E ih =>
      rw [List.foldl_cons, ih, handlePayload_code]
      cases code : payload.code with
      | none => simp [code]
      | some Code =>
          simp only [List.filterMap_cons, code, Option.getD_some, List.getLast?_cons]

theorem drained_code (E : List ErrorPayload) :
    (E.foldl handlePayload (.CompileError, "")).1 = .Ok ↔
      (E.filterMap ErrorPayload.code).getLast? = some .Ok := by
  rw [handled_code]
  cases last : (E.filterMap ErrorPayload.code).getLast? with
  | none => exact ⟨(nomatch ·), (nomatch ·)⟩
  | some Code => simp

end Slices

theorem success_consistent_iff (context : ErrorContext) (heap : SliceHeap)
    (source : ErrorSource) (kind : OwnerKind) :
    SuccessConsistent context heap source kind ↔ source.CarriesFailure := by
  have reads := construct_reports (source.produce context heap).error
    (source.produce context heap).heap.slices kind
  rw [SuccessConsistent, reads.1, reads.2]
  cases source with
  | inlineStatus S =>
      have agree := makeInline_isOk S
      simp [ErrorSource.produce, ErrorSource.CarriesFailure, GetStatus_makeInline, agree]
  | message S Message =>
      have sliced := produceSlice_reports context heap S Message
      simp [ErrorSource.produce, makeErrorMessage, ErrorSource.CarriesFailure, sliced.1, sliced.2]
  | drained E =>
      have sliced := produceSlice_reports context heap
        (E.foldl handlePayload (.CompileError, "")).1 (E.foldl handlePayload (.CompileError, "")).2
      simp [ErrorSource.produce, drainError, ErrorSource.CarriesFailure, sliced.1, sliced.2,
        drained_code]

/-- A message with the status Ok is encoded as a slice: the result is an error by its bits. -/
theorem success_inconsistent :
    ¬SuccessConsistent { II := 1, info := {} } [] (.message .Ok "nothing found") .result := by
  unfold SuccessConsistent
  decide

section Chains

namespace ErrorPayload

def Message : ErrorPayload → String
  | statusError _ Message => Message
  | other logged => logged

/-- A payload of another class counts as an error of the compiler. -/
def counted (payload : ErrorPayload) : Status := payload.code.getD .CompileError

end ErrorPayload

/-- The slice takes its code and its first diagnostic from one payload, what was pending follows,
and nothing stays pending. -/
def DrainsOnePayload (context : ErrorContext) (heap : SliceHeap) (E : List ErrorPayload) : Prop :=
  let produced := drainError context heap E
  ∃ S, produced.heap = heap ++ [S] ∧ produced.error = ErrorRef.makeSlice heap.length ∧
    (∃ payload ∈ E, S.Code = payload.counted ∧
      S.Diagnostics =
        { message := payload.Message, sev := .error } :: context.info.storedDiags) ∧
    produced.info.storedDiags = []

/-- The last `StatusError` after the first payload, if there is one, has the code of a payload
with the first one's message. -/
def LastCodeAgrees : List ErrorPayload → Prop
  | [] => True
  | first :: rest => ∀ Code, (rest.filterMap ErrorPayload.code).getLast? = some Code →
      ∃ payload ∈ first :: rest, payload.Message = first.Message ∧ payload.counted = Code

theorem handlePayload_message (state : Status × String) (payload : ErrorPayload) :
    (handlePayload state payload).2 = if state.2 = "" then payload.Message else state.2 := by
  cases payload with
  | statusError Code Message => rfl
  | other logged => rfl

theorem handled_message (E : List ErrorPayload) {state : Status × String} (named : state.2 ≠ "") :
    (E.foldl handlePayload state).2 = state.2 := by
  induction E generalizing state with
  | nil => rfl
  | cons payload E ih =>
      have kept : (handlePayload state payload).2 = state.2 := by
        rw [handlePayload_message, if_neg named]
      rw [List.foldl_cons, ih (kept ▸ named), kept]

theorem handled_first {first : ErrorPayload} (named : first.Message ≠ "")
    (rest : List ErrorPayload) :
    (first :: rest).foldl handlePayload (.CompileError, "") =
      ((rest.filterMap ErrorPayload.code).getLast?.getD first.counted, first.Message) := by
  have message : (handlePayload (.CompileError, "") first).2 = first.Message := by
    rw [handlePayload_message, if_pos rfl]
  have code : (handlePayload (.CompileError, "") first).1 = first.counted :=
    handlePayload_code _ first
  rw [List.foldl_cons]
  refine Prod.ext ?_ ?_
  · rw [handled_code, code]
  · rw [handled_message rest (message ▸ named), message]

theorem drained_iff (context : ErrorContext) (heap : SliceHeap) {first : ErrorPayload}
    (named : first.Message ≠ "") (rest : List ErrorPayload) :
    DrainsOnePayload context heap (first :: rest) ↔
      ∃ payload ∈ first :: rest, payload.Message = first.Message ∧
        payload.counted = (rest.filterMap ErrorPayload.code).getLast?.getD first.counted := by
  rw [DrainsOnePayload, drainError, handled_first named, produceSlice]
  simp only [messageDiagnostics, if_neg named]
  constructor
  · rintro ⟨S, same, _, ⟨payload, member, code, diagnostics⟩, _⟩
    obtain rfl := List.singleton_inj.mp (List.append_cancel_left same)
    have heads := (List.cons.inj diagnostics).1
    exact ⟨payload, member, (congrArg StoredDiagView.message heads).symm, code.symm⟩
  · rintro ⟨payload, member, message, code⟩
    refine ⟨_, rfl, trivial, ⟨payload, member, code.symm, ?_⟩, trivial⟩
    rw [message]
    rfl

theorem drains_one_payload_iff (context : ErrorContext) (heap : SliceHeap)
    (E : List ErrorPayload) (failure : E ≠ []) (named : ∀ payload ∈ E, payload.Message ≠ "") :
    DrainsOnePayload context heap E ↔ LastCodeAgrees E := by
  cases E with
  | nil => exact absurd rfl failure
  | cons first rest =>
      rw [drained_iff context heap (named first List.mem_cons_self), LastCodeAgrees]
      cases (rest.filterMap ErrorPayload.code).getLast? with
      | none => exact ⟨fun _ => nofun, fun _ => ⟨first, List.mem_cons_self, rfl, rfl⟩⟩
      | some Code => simp

/-- A `StatusError`, with a warning pending. -/
theorem drains_statusError :
    DrainsOnePayload { II := 1, info := { storedDiags := [{ message := "w", sev := .warning }] } }
      [] [.statusError .NotFound "missing"] := by
  refine (drains_one_payload_iff _ _ _ (by decide) (by decide)).mpr ?_
  exact nofun

/-- The code of the second payload under the message of the first. -/
theorem drains_two_payloads :
    ¬DrainsOnePayload { II := 1, info := {} } []
      [.other "broken", .statusError .NotFound "missing"] := by
  rintro ⟨S, same, _, ⟨payload, member, code, diagnostics⟩, _⟩
  obtain rfl := List.singleton_inj.mp (List.append_cancel_left same)
  rcases List.mem_cons.mp member with rfl | later
  · cases code
  · obtain rfl := List.mem_singleton.mp later
    have heads := (List.cons.inj diagnostics).1
    exact absurd (congrArg StoredDiagView.message heads) (by decide)

end Chains

end CppInterOp
