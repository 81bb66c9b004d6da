import CppInterOp.TracingFormat

/-!
What the operations of the tracer do to its state: each is brought to the lines it adds,
the slot it rewrites and the handles it registers.
-/

namespace CppInterOp

namespace TraceInfo

def withLog (TI : TraceInfo) (log errs : List Line) : TraceInfo :=
  { TI with log := log, errs := errs }

def appendLines (TI : TraceInfo) (lines : List Line) : TraceInfo :=
  { TI with
    log := TI.log ++ lines
    errs := if TI.inRegion && TI.writeOnStdErr then TI.errs ++ lines else TI.errs }

@[simp] theorem appendLines_nil (TI : TraceInfo) : TI.appendLines [] = TI := by
  simp [appendLines]

theorem appendLines_append (TI : TraceInfo) (first second : List Line) :
    (TI.appendLines first).appendLines second = TI.appendLines (first ++ second) := by
  simp only [appendLines, List.append_assoc]
  by_cases streams : (TI.inRegion && TI.writeOnStdErr) = true
  · simp only [streams, if_true, List.append_assoc]
  · simp only [streams, if_false, Bool.false_eq_true]

theorem appendToLog_eq (TI : TraceInfo) (line : Line) (recording : TI.dumping = false) :
    TI.appendToLog line = (TI.appendLines [line], TI.log.length) := by
  simp [appendToLog, appendLines, recording]

theorem setLogEntry_eq (TI : TraceInfo) (idx : Nat) (line : Line)
    (recording : TI.dumping = false) :
    TI.setLogEntry idx line = TI.withLog (TI.log.set idx line) TI.errs := by
  simp [setLogEntry, withLog, recording]

theorem lookupHandle_isEmpty (TI : TraceInfo) (p : Address) :
    (TI.lookupHandle (some p)).isEmpty = (TI.handleMap p).isNone := by
  cases found : TI.handleMap p with
  | none => simp [lookupHandle, found]
  | some handle => simp [lookupHandle, found]

def bind (TI : TraceInfo) (p : Address) : TraceInfo :=
  { TI with
    varCount := TI.varCount + 1
    handleMap := fun q => if q = p then some (TI.varCount + 1) else TI.handleMap q }

theorem getOrRegisterHandle_unseen {TI : TraceInfo} {p : Address} (unseen : TI.handleMap p = none) :
    TI.getOrRegisterHandle (some p) = (TI.bind p, some (TI.varCount + 1)) := by
  simp [getOrRegisterHandle, bind, unseen]

theorem getOrRegisterHandle_seen {TI : TraceInfo} {p : Address} {handle : Nat}
    (seen : TI.handleMap p = some handle) :
    TI.getOrRegisterHandle (some p) = (TI, some handle) := by
  simp [getOrRegisterHandle, seen]

structure Names (earlier later : TraceInfo) : Prop where
  rest : later = { earlier with handleMap := later.handleMap, varCount := later.varCount }
  kept : ∀ p handle, earlier.handleMap p = some handle → later.handleMap p = some handle
  grown : earlier.varCount ≤ later.varCount
  fresh : ∀ p handle, later.handleMap p = some handle → earlier.handleMap p = none →
    earlier.varCount < handle ∧ handle ≤ later.varCount

namespace Names

theorem refl (TI : TraceInfo) : Names TI TI where
  rest := rfl
  kept _ _ found := found
  grown := Nat.le_refl _
  fresh p handle found unseen := by simp [unseen] at found

theorem trans {first second third : TraceInfo} (early : Names first second)
    (late : Names second third) : Names first third where
  rest := by rw [late.rest, early.rest]
  kept p handle found := late.kept p handle (early.kept p handle found)
  grown := Nat.le_trans early.grown late.grown
  fresh p handle found unseen := by
    have grownEarly := early.grown
    have grownLate := late.grown
    cases between : second.handleMap p with
    | none =>
        have new := late.fresh p handle found between
        omega
    | some other =>
        have same : other = handle := by
          have := late.kept p other between
          rw [found] at this
          exact (Option.some.inj this).symm
        subst same
        have new := early.fresh p other between unseen
        omega

theorem bind {TI : TraceInfo} {p : Address} (unseen : TI.handleMap p = none) :
    Names TI (TI.bind p) where
  rest := rfl
  kept q handle found := by
    have other : q ≠ p := by
      rintro rfl
      simp [unseen] at found
    simp only [TraceInfo.bind, other, if_false]
    exact found
  grown := Nat.le_succ _
  fresh q handle found unseenQ := by
    simp only [TraceInfo.bind] at found ⊢
    by_cases same : q = p
    · simp only [same, if_true, Option.some.injEq] at found
      omega
    · simp only [same, if_false, unseenQ] at found
      cases found

variable {earlier later : TraceInfo}

theorem log (names : Names earlier later) : later.log = earlier.log := by rw [names.rest]

theorem errs (names : Names earlier later) : later.errs = earlier.errs := by rw [names.rest]

theorem dumping (names : Names earlier later) : later.dumping = earlier.dumping := by
  rw [names.rest]

theorem retCount (names : Names earlier later) : later.retCount = earlier.retCount := by
  rw [names.rest]

end Names

end TraceInfo

open TraceInfo

namespace TraceRegion

theorem registerRetVec_null (TI : TraceInfo) (index : Nat) (rest : List (Option Address)) :
    registerRetVec TI index (none :: rest) = registerRetVec TI (index + 1) rest := rfl

theorem registerRetVec_seen {TI : TraceInfo} {index handle : Nat} {p : Address}
    {rest : List (Option Address)} (seen : TI.handleMap p = some handle) :
    registerRetVec TI index (some p :: rest) = registerRetVec TI (index + 1) rest := by
  simp only [registerRetVec, lookupHandle_isEmpty, seen, getOrRegisterHandle_seen seen,
    Option.isNone_some, Bool.false_eq_true, if_false]

theorem registerRetVec_unseen {TI : TraceInfo} {index : Nat} {p : Address}
    {rest : List (Option Address)} (unseen : TI.handleMap p = none) :
    registerRetVec TI index (some p :: rest) =
      ((registerRetVec (TI.bind p) (index + 1) rest).1,
        (index, TI.varCount + 1) :: (registerRetVec (TI.bind p) (index + 1) rest).2) := by
  simp only [registerRetVec, lookupHandle_isEmpty, unseen, getOrRegisterHandle_unseen unseen,
    Option.isNone_none, if_true]

theorem registerRetVec_names (TI : TraceInfo) (index : Nat) (ptrs : List (Option Address)) :
    Names TI (registerRetVec TI index ptrs).1 := by
  induction ptrs generalizing TI index with
  | nil => exact Names.refl TI
  | cons elem rest ih =>
      cases elem with
      | none => exact ih TI (index + 1)
      | some p =>
          cases seen : TI.handleMap p with
          | none =>
              rw [registerRetVec_unseen seen]
              exact (Names.bind seen).trans (ih (TI.bind p) (index + 1))
          | some handle =>
              rw [registerRetVec_seen seen]
              exact ih TI (index + 1)

theorem registerRetVec_handles (TI : TraceInfo) (index : Nat) (ptrs : List (Option Address)) :
    (registerRetVec TI index ptrs).2.map Prod.snd =
        List.range' (TI.varCount + 1) (registerRetVec TI index ptrs).2.length ∧
      (registerRetVec TI index ptrs).1.varCount =
        TI.varCount + (registerRetVec TI index ptrs).2.length := by
  induction ptrs generalizing TI index with
  | nil => simp [registerRetVec]
  | cons elem rest ih =>
      cases elem with
      | none => exact ih TI (index + 1)
      | some p =>
          cases seen : TI.handleMap p with
          | none =>
              rw [registerRetVec_unseen seen]
              obtain ⟨handles, count⟩ := ih (TI.bind p) (index + 1)
              have next : (TI.bind p).varCount = TI.varCount + 1 := rfl
              constructor
              · simp only [List.map_cons, List.length_cons, List.range'_succ, handles, next]
              · simp only [List.length_cons, count, next]
                omega
          | some handle =>
              rw [registerRetVec_seen seen]
              exact ih TI (index + 1)

theorem registerRetVec_registers (TI : TraceInfo) (index : Nat) (ptrs : List (Option Address))
    (p : Address) (present : some p ∈ ptrs) :
    ((registerRetVec TI index ptrs).1.handleMap p).isSome := by
  induction ptrs generalizing TI index with
  | nil => simp at present
  | cons elem rest ih =>
      rcases List.mem_cons.mp present with here | later
      · subst here
        cases seen : TI.handleMap p with
        | none =>
            rw [registerRetVec_unseen seen]
            have kept := (registerRetVec_names (TI.bind p) (index + 1) rest).kept p
              (TI.varCount + 1) (by simp [TraceInfo.bind])
            simp [kept]
        | some handle =>
            rw [registerRetVec_seen seen]
            have kept := (registerRetVec_names TI (index + 1) rest).kept p handle seen
            simp [kept]
      · cases elem with
        | none => exact ih TI (index + 1) later
        | some q =>
            cases seen : TI.handleMap q with
            | none =>
                rw [registerRetVec_unseen seen]
                exact ih (TI.bind q) (index + 1) later
            | some handle =>
                rw [registerRetVec_seen seen]
                exact ih TI (index + 1) later

theorem registerRetVec_withLog (TI : TraceInfo) (log errs : List Line) (index : Nat)
    (ptrs : List (Option Address)) :
    registerRetVec (TI.withLog log errs) index ptrs =
      ((registerRetVec TI index ptrs).1.withLog log errs, (registerRetVec TI index ptrs).2) := by
  induction ptrs generalizing TI index with
  | nil => rfl
  | cons elem rest ih =>
      cases elem with
      | none => exact ih TI (index + 1)
      | some p =>
          cases seen : TI.handleMap p with
          | none =>
              rw [registerRetVec_unseen seen, registerRetVec_unseen (show
                (TI.withLog log errs).handleMap p = none from seen), show
                (TI.withLog log errs).bind p = (TI.bind p).withLog log errs from rfl,
                ih (TI.bind p) (index + 1)]
              rfl
          | some handle =>
              rw [registerRetVec_seen seen, registerRetVec_seen (show
                (TI.withLog log errs).handleMap p = some handle from seen)]
              exact ih TI (index + 1)

theorem registerRetVec_appendLines (TI : TraceInfo) (lines : List Line) (index : Nat)
    (ptrs : List (Option Address)) :
    registerRetVec (TI.appendLines lines) index ptrs =
      ((registerRetVec TI index ptrs).1.appendLines lines, (registerRetVec TI index ptrs).2) := by
  have names := registerRetVec_names TI index ptrs
  have commutes := registerRetVec_withLog TI (TI.appendLines lines).log
    (TI.appendLines lines).errs index ptrs
  have later : (registerRetVec TI index ptrs).1.appendLines lines =
      (registerRetVec TI index ptrs).1.withLog (TI.appendLines lines).log
        (TI.appendLines lines).errs := by
    rw [names.rest]
    rfl
  rw [later]
  exact commutes

/-- The registration of an OUT container is that of a returned vector, each new handle with
its line. -/
theorem registerElements_eq (TI : TraceInfo) (outIdx index : Nat) (ptrs : List (Option Address))
    (recording : TI.dumping = false) :
    registerElements TI outIdx index ptrs =
      (registerRetVec TI index ptrs).1.appendLines
        ((registerRetVec TI index ptrs).2.map fun decl => .outElement decl.2 outIdx decl.1) := by
  induction ptrs generalizing TI index with
  | nil => simp [registerElements, registerRetVec]
  | cons elem rest ih =>
      cases elem with
      | none =>
          rw [registerRetVec_null, ← ih TI (index + 1) recording]
          simp [registerElements, getOrRegisterHandle]
      | some p =>
          cases seen : TI.handleMap p with
          | none =>
              have step : registerElements TI outIdx index (some p :: rest) =
                  registerElements
                    ((TI.bind p).appendLines [.outElement (TI.varCount + 1) outIdx index])
                    outIdx (index + 1) rest := by
                simp [registerElements, lookupHandle_isEmpty, seen,
                  getOrRegisterHandle_unseen seen,
                  appendToLog_eq (TI.bind p) _ (show (TI.bind p).dumping = false from recording)]
              rw [step, ih ((TI.bind p).appendLines _) (index + 1) recording,
                registerRetVec_appendLines, appendLines_append, registerRetVec_unseen seen]
              rfl
          | some handle =>
              rw [registerRetVec_seen seen, ← ih TI (index + 1) recording]
              simp [registerElements, lookupHandle_isEmpty, seen, getOrRegisterHandle_seen seen]

def registerOuts (TI : TraceInfo) (live : Address → List (Option Address)) :
    List (Address × Nat) → TraceInfo × List Line
  | [] => (TI, [])
  | (container, outIdx) :: rest =>
      let registered := registerRetVec TI 0 (live container)
      let others := registerOuts registered.1 live rest
      (others.1, (registered.2.map fun decl => .outElement decl.2 outIdx decl.1) ++ others.2)

variable {live : Address → List (Option Address)}

theorem registerOuts_names (TI : TraceInfo) (live : Address → List (Option Address))
    (outs : List (Address × Nat)) :
    Names TI (registerOuts TI live outs).1 := by
  induction outs generalizing TI with
  | nil => exact Names.refl TI
  | cons out rest ih =>
      obtain ⟨container, outIdx⟩ := out
      exact (registerRetVec_names TI 0 (live container)).trans
        (ih (registerRetVec TI 0 (live container)).1)

theorem registerOuts_withLog (TI : TraceInfo) (log errs : List Line)
    (outs : List (Address × Nat)) :
    registerOuts (TI.withLog log errs) live outs =
      ((registerOuts TI live outs).1.withLog log errs, (registerOuts TI live outs).2) := by
  induction outs generalizing TI with
  | nil => rfl
  | cons out rest ih =>
      obtain ⟨container, outIdx⟩ := out
      simp only [registerOuts, registerRetVec_withLog, ih]

theorem registerOuts_appendLines (TI : TraceInfo) (lines : List Line)
    (outs : List (Address × Nat)) :
    registerOuts (TI.appendLines lines) live outs =
      ((registerOuts TI live outs).1.appendLines lines, (registerOuts TI live outs).2) := by
  induction outs generalizing TI with
  | nil => rfl
  | cons out rest ih =>
      obtain ⟨container, outIdx⟩ := out
      simp only [registerOuts, registerRetVec_appendLines, ih]

theorem runCallbacks_eq (TI : TraceInfo) (outs : List (Address × Nat))
    (recording : TI.dumping = false) :
    runCallbacks TI live outs =
      (registerOuts TI live outs).1.appendLines (registerOuts TI live outs).2 := by
  induction outs generalizing TI with
  | nil => simp [runCallbacks, registerOuts]
  | cons out rest ih =>
      obtain ⟨container, outIdx⟩ := out
      have still : (registerRetVec TI 0 (live container)).1.dumping = false := by
        rw [(registerRetVec_names TI 0 (live container)).dumping]
        exact recording
      simp only [runCallbacks, registerElements_eq TI outIdx 0 (live container) recording]
      rw [ih (TraceInfo.appendLines _ _) still, registerOuts_appendLines, appendLines_append]
      rfl

theorem appendRetDecls_eq (TI : TraceInfo) (retIdx : Nat) (decls : List (Nat × Nat))
    (recording : TI.dumping = false) :
    appendRetDecls TI retIdx decls =
      TI.appendLines (decls.map fun decl => .retElement decl.2 retIdx decl.1) := by
  induction decls generalizing TI with
  | nil => simp [appendRetDecls]
  | cons decl rest ih =>
      obtain ⟨index, handle⟩ := decl
      simp only [appendRetDecls, appendToLog_eq TI _ recording, List.map_cons]
      rw [ih (TI.appendLines _) recording, appendLines_append]
      rfl

def registerResults (TI : TraceInfo) (data : TraceData)
    (live : Address → List (Option Address)) : TraceInfo × VarPart × List Line :=
  let (TI, retIdx, retDecls) := allocateRet TI.popTimer data
  let (TI, varPart) := bindResult TI data retIdx
  let (TI, outLines) := registerOuts TI live (data.outCallbacks.zip data.outIndices)
  (TI, varPart, outLines ++ retDecls.map fun decl => .retElement decl.2 (retIdx.getD 0) decl.1)

theorem allocateRet_frame (TI : TraceInfo) (data : TraceData) :
    (allocateRet TI data).1.log = TI.log ∧ (allocateRet TI data).1.errs = TI.errs ∧
      (allocateRet TI data).1.dumping = TI.dumping := by
  unfold allocateRet
  by_cases vector : data.hasRetVec = true
  · have names := registerRetVec_names TI.nextRetIndex.1 0 data.retVecPtrs
    simp only [vector, if_true]
    exact ⟨names.log, names.errs, names.dumping⟩
  · simp only [vector, if_false, Bool.false_eq_true, and_self]

theorem bindResult_names (TI : TraceInfo) (data : TraceData) (retIdx : Option Nat) :
    Names TI (bindResult TI data retIdx).1 := by
  unfold bindResult
  cases data.result with
  | none =>
      by_cases pointer : data.hasPtrResult = true
      · simp only [pointer, if_true]
        exact Names.refl TI
      · simp only [pointer, if_false, Bool.false_eq_true]
        cases retIdx <;> exact Names.refl TI
  | some p =>
      cases seen : TI.handleMap p with
      | none =>
          simp only [getOrRegisterHandle_unseen seen]
          exact Names.bind seen
      | some handle =>
          simp only [getOrRegisterHandle_seen seen]
          exact Names.refl TI

/-- The destructor of a top-level region rewrites the line of its slot and adds the lines
of the elements it has not seen. -/
theorem leave_top (TI : TraceInfo) (data : TraceData) (live : Address → List (Option Address))
    (recording : TI.dumping = false) (top : data.nested = false) :
    leave TI data live =
      ((registerResults TI data live).1.withLog
        (TI.log.set data.logIndex
          (.completed (registerResults TI data live).2.1 data.name data.argStr))
        TI.errs).appendLines (registerResults TI data live).2.2 := by
  have allocated := allocateRet_frame TI.popTimer data
  simp only [leave, registerResults, top, if_false, Bool.false_eq_true]
  generalize allocateRet TI.popTimer data = allocation at allocated ⊢
  obtain ⟨TI₁, retIdx, retDecls⟩ := allocation
  have bound := bindResult_names TI₁ data retIdx
  simp only at allocated bound ⊢
  generalize bindResult TI₁ data retIdx = result at bound ⊢
  obtain ⟨TI₂, varPart⟩ := result
  simp only at bound ⊢
  have registered := registerOuts_names TI₂ live (data.outCallbacks.zip data.outIndices)
  have still : TI₂.dumping = false := by
    rw [bound.dumping, allocated.2.2]
    exact recording
  have log : TI₂.log = TI.log := bound.log.trans allocated.1
  have errs : TI₂.errs = TI.errs := bound.errs.trans allocated.2.1
  have written : ∀ log errs, (TI₂.withLog log errs).dumping = false := fun _ _ => still
  have added : ∀ log errs lines, (((registerOuts TI₂ live
      (data.outCallbacks.zip data.outIndices)).1.withLog log errs).appendLines lines).dumping =
      false := fun _ _ _ => registered.dumping.trans still
  rw [setLogEntry_eq TI₂ _ _ still, log, errs, runCallbacks_eq _ _ (written _ _),
    registerOuts_withLog, appendRetDecls_eq _ _ _ (added _ _ _), appendLines_append]

theorem registerResults_names (TI : TraceInfo) (data : TraceData)
    (live : Address → List (Option Address)) :
    Names { TI.popTimer with
      retCount := if data.hasRetVec then TI.retCount + 1 else TI.retCount }
      (registerResults TI data live).1 := by
  have allocated : Names { TI.popTimer with
      retCount := if data.hasRetVec then TI.retCount + 1 else TI.retCount }
      (allocateRet TI.popTimer data).1 := by
    unfold allocateRet
    by_cases vector : data.hasRetVec = true
    · simp only [vector, if_true]
      exact registerRetVec_names TI.popTimer.nextRetIndex.1 0 data.retVecPtrs
    · simp only [vector, if_false, Bool.false_eq_true]
      exact Names.refl _
  exact (allocated.trans (bindResult_names _ data _)).trans (registerOuts_names _ live _)

theorem leave_nested (TI : TraceInfo) (data : TraceData)
    (live : Address → List (Option Address)) (nested : data.nested = true) :
    leave TI data live = TI.popTimer := by
  simp only [leave, nested, if_true]

def outSlots (TI : TraceInfo) : List Address → TraceInfo × List (Nat × Bool)
  | [] => (TI, [])
  | addr :: rest =>
      let slot := TI.outIndexFor addr
      let others := outSlots slot.1 rest
      (others.1, slot.2 :: others.2)

theorem outSlots_frame (TI : TraceInfo) (addrs : List Address) :
    (outSlots TI addrs).1 =
      { TI with
        outCount := (outSlots TI addrs).1.outCount
        outAliases := (outSlots TI addrs).1.outAliases } := by
  induction addrs generalizing TI with
  | nil => rfl
  | cons addr rest ih =>
      have here : (TI.outIndexFor addr).1 =
          { TI with
            outCount := (TI.outIndexFor addr).1.outCount
            outAliases := (TI.outIndexFor addr).1.outAliases } := by
        unfold outIndexFor
        cases TI.outAliases addr <;> rfl
      have tail := ih (TI.outIndexFor addr).1
      simp only [outSlots]
      rw [tail]
      simp only
      rw [here]

structure Slots (TI : TraceInfo) (addrs : List Address) (later : TraceInfo)
    (slots : List (Nat × Bool)) : Prop where
  kept : ∀ addr outIdx, TI.outAliases addr = some outIdx → later.outAliases addr = some outIdx
  known : ∀ addr ∈ addrs, ∀ outIdx, TI.outAliases addr = some outIdx →
    outIdx ∈ slots.map Prod.fst
  source : ∀ outIdx ∈ slots.map Prod.fst, (outIdx, true) ∈ slots ∨
    ∃ addr ∈ addrs, TI.outAliases addr = some outIdx
  fresh : ((slots.filter Prod.snd).map Prod.fst) =
    List.range' TI.outCount (later.outCount - TI.outCount)
  grown : TI.outCount ≤ later.outCount
  added : ∀ addr outIdx, later.outAliases addr = some outIdx →
    TI.outAliases addr = some outIdx ∨ (outIdx, true) ∈ slots
  aligned : slots.length = addrs.length

theorem outIndexFor_known {TI : TraceInfo} {addr : Address} {outIdx : Nat}
    (known : TI.outAliases addr = some outIdx) : TI.outIndexFor addr = (TI, outIdx, false) := by
  simp [outIndexFor, known]

def addSlot (TI : TraceInfo) (addr : Address) : TraceInfo :=
  { TI with
    outCount := TI.outCount + 1
    outAliases := fun other => if other = addr then some TI.outCount else TI.outAliases other }

theorem outIndexFor_unknown {TI : TraceInfo} {addr : Address}
    (unknown : TI.outAliases addr = none) :
    TI.outIndexFor addr = (addSlot TI addr, TI.outCount, true) := by
  simp [outIndexFor, addSlot, unknown]

theorem addSlot_kept {TI : TraceInfo} {addr other : Address} {outIdx : Nat}
    (unknown : TI.outAliases addr = none) (found : TI.outAliases other = some outIdx) :
    (addSlot TI addr).outAliases other = some outIdx := by
  have apart : other ≠ addr := by
    rintro rfl
    rw [unknown] at found
    cases found
  simp only [addSlot, apart, if_false]
  exact found

theorem addSlot_origin {TI : TraceInfo} {addr other : Address} {outIdx : Nat}
    (found : (addSlot TI addr).outAliases other = some outIdx) :
    TI.outAliases other = some outIdx ∨ outIdx = TI.outCount := by
  simp only [addSlot] at found
  by_cases same : other = addr
  · rw [if_pos same, Option.some.injEq] at found
    exact Or.inr found.symm
  · rw [if_neg same] at found
    exact Or.inl found

theorem Slots.reuse {TI later : TraceInfo} {addr : Address} {rest : List Address} {outIdx : Nat}
    {slots : List (Nat × Bool)} (known : TI.outAliases addr = some outIdx)
    (tail : Slots TI rest later slots) :
    Slots TI (addr :: rest) later ((outIdx, false) :: slots) := by
  refine ⟨tail.kept, ?_, ?_, ?_, tail.grown, ?_, congrArg (· + 1) tail.aligned⟩
  · intro other present idx found
    rcases List.mem_cons.mp present with rfl | later
    · rw [known] at found
      cases found
      exact List.mem_cons_self
    · exact List.mem_cons_of_mem _ (tail.known other later idx found)
  · intro idx present
    rcases List.mem_cons.mp present with rfl | later
    · exact Or.inr ⟨addr, List.mem_cons_self, known⟩
    · rcases tail.source idx later with new | ⟨other, listed, found⟩
      · exact Or.inl (List.mem_cons_of_mem _ new)
      · exact Or.inr ⟨other, List.mem_cons_of_mem _ listed, found⟩
  · simpa using tail.fresh
  · intro other idx found
    exact (tail.added other idx found).imp_right (List.mem_cons_of_mem _)

theorem Slots.allocate {TI later : TraceInfo} {addr : Address} {rest : List Address}
    {slots : List (Nat × Bool)} (unknown : TI.outAliases addr = none)
    (tail : Slots (addSlot TI addr) rest later slots) :
    Slots TI (addr :: rest) later ((TI.outCount, true) :: slots) := by
  have next : (addSlot TI addr).outCount = TI.outCount + 1 := rfl
  have grown := tail.grown
  rw [next] at grown
  refine ⟨fun other idx found => tail.kept other idx (addSlot_kept unknown found), ?_, ?_, ?_,
    by omega, ?_, congrArg (· + 1) tail.aligned⟩
  · intro other present idx found
    rcases List.mem_cons.mp present with rfl | later
    · rw [unknown] at found
      cases found
    · have kept := addSlot_kept unknown found
      exact List.mem_cons_of_mem _ (tail.known other later idx kept)
  · intro idx present
    rcases List.mem_cons.mp present with rfl | later
    · exact Or.inl List.mem_cons_self
    · rcases tail.source idx later with new | ⟨other, listed, found⟩
      · exact Or.inl (List.mem_cons_of_mem _ new)
      · -- the container itself may be passed again further on
        rcases addSlot_origin found with before | rfl
        · exact Or.inr ⟨other, List.mem_cons_of_mem _ listed, before⟩
        · exact Or.inl List.mem_cons_self
  · have count : later.outCount - TI.outCount = later.outCount - (TI.outCount + 1) + 1 := by
      omega
    have fresh := tail.fresh
    rw [next] at fresh
    rw [count, List.range'_succ, ← fresh]
    simp
  · intro other idx found
    rcases tail.added other idx found with before | new
    · rcases addSlot_origin before with old | rfl
      · exact Or.inl old
      · exact Or.inr List.mem_cons_self
    · exact Or.inr (List.mem_cons_of_mem _ new)

theorem outSlots_slots (TI : TraceInfo) (addrs : List Address) :
    Slots TI addrs (outSlots TI addrs).1 (outSlots TI addrs).2 := by
  induction addrs generalizing TI with
  | nil =>
      exact ⟨fun _ _ found => found, by simp, by simp [outSlots], by simp [outSlots],
        Nat.le_refl _, fun _ _ found => Or.inl found, rfl⟩
  | cons addr rest ih =>
      cases known : TI.outAliases addr with
      | some outIdx =>
          simp only [outSlots, outIndexFor_known known]
          exact (ih TI).reuse known
      | none =>
          simp only [outSlots, outIndexFor_unknown known]
          exact (ih (addSlot TI addr)).allocate known

end TraceRegion

structure TraceInfo.Aliased (TI : TraceInfo) : Prop where
  bounded : ∀ addr outIdx, TI.outAliases addr = some outIdx → outIdx < TI.outCount
  apart : ∀ addr other outIdx, TI.outAliases addr = some outIdx →
    TI.outAliases other = some outIdx → addr = other

namespace TraceRegion

theorem addSlot_aliased {TI : TraceInfo} (aliased : TI.Aliased) (addr : Address) :
    (addSlot TI addr).Aliased := by
  constructor
  · intro other outIdx found
    have next : (addSlot TI addr).outCount = TI.outCount + 1 := rfl
    rcases addSlot_origin found with before | rfl
    · have := aliased.bounded other outIdx before
      omega
    · omega
  · intro first second outIdx foundFirst foundSecond
    simp only [addSlot] at foundFirst foundSecond
    by_cases sameFirst : first = addr
    · by_cases sameSecond : second = addr
      · rw [sameFirst, sameSecond]
      · rw [if_pos sameFirst, Option.some.injEq] at foundFirst
        rw [if_neg sameSecond] at foundSecond
        have := aliased.bounded second outIdx foundSecond
        omega
    · rw [if_neg sameFirst] at foundFirst
      by_cases sameSecond : second = addr
      · rw [if_pos sameSecond, Option.some.injEq] at foundSecond
        have := aliased.bounded first outIdx foundFirst
        omega
      · rw [if_neg sameSecond] at foundSecond
        exact aliased.apart first second outIdx foundFirst foundSecond

theorem outSlots_aliased {TI : TraceInfo} (aliased : TI.Aliased) (addrs : List Address) :
    (outSlots TI addrs).1.Aliased := by
  induction addrs generalizing TI with
  | nil => exact aliased
  | cons addr rest ih =>
      cases known : TI.outAliases addr with
      | some outIdx =>
          simp only [outSlots, outIndexFor_known known]
          exact ih aliased
      | none =>
          simp only [outSlots, outIndexFor_unknown known]
          exact ih (addSlot_aliased aliased addr)

theorem Slots.mem_fresh {TI later : TraceInfo} {addrs : List Address} {slots : List (Nat × Bool)}
    (assigned : Slots TI addrs later slots) {outIdx : Nat} :
    (outIdx, true) ∈ slots ↔ TI.outCount ≤ outIdx ∧ outIdx < later.outCount := by
  have grown := assigned.grown
  have listed : (outIdx, true) ∈ slots ↔ outIdx ∈ (slots.filter Prod.snd).map Prod.fst := by
    simp
  rw [listed, assigned.fresh, List.mem_range'_1]
  omega

theorem captureArgs_nested (TI : TraceInfo) (data : TraceData) (args : List Arg)
    (nested : data.nested = true) :
    captureArgs TI data args =
      (TI, { data with outCallbacks := data.outCallbacks ++ pointerContainers args }) := by
  induction args generalizing data with
  | nil => simp [captureArgs, pointerContainers]
  | cons arg rest ih =>
      cases arg with
      | input value => exact ih data nested
      | outScalar => exact ih data nested
      | outContainer elem addr =>
          by_cases pointer : elem.any HandleType.isPointer = true
          · have tail := ih { data with outCallbacks := data.outCallbacks ++ [addr] } nested
            rw [pointerContainers_pointer addr rest pointer]
            simpa [captureArgs, Arg.outParam, captureArg, makeOutParam, pointer, nested] using tail
          · rw [pointerContainers_skipped addr rest pointer]
            simpa [captureArgs, Arg.outParam, captureArg, makeOutParam, pointer, nested] using
              ih data nested

theorem captureArgs_top (TI : TraceInfo) (data : TraceData) (args : List Arg)
    (top : data.nested = false) :
    captureArgs TI data args =
      ((outSlots TI (pointerContainers args)).1,
        { data with
          outIndices := data.outIndices ++ (outSlots TI (pointerContainers args)).2.map Prod.fst
          outFirstUse := data.outFirstUse ++ (outSlots TI (pointerContainers args)).2.map Prod.snd
          outCallbacks := data.outCallbacks ++ pointerContainers args }) := by
  induction args generalizing TI data with
  | nil => simp [captureArgs, pointerContainers, outSlots]
  | cons arg rest ih =>
      cases arg with
      | input value => exact ih TI data top
      | outScalar => exact ih TI data top
      | outContainer elem addr =>
          by_cases pointer : elem.any HandleType.isPointer = true
          · have tail := ih (TI.outIndexFor addr).1
              { data with
                outIndices := data.outIndices ++ [(TI.outIndexFor addr).2.1]
                outFirstUse := data.outFirstUse ++ [(TI.outIndexFor addr).2.2]
                outCallbacks := data.outCallbacks ++ [addr] } top
            rw [pointerContainers_pointer addr rest pointer]
            simpa [captureArgs, Arg.outParam, captureArg, makeOutParam, pointer, top, outSlots]
              using tail
          · rw [pointerContainers_skipped addr rest pointer]
            simpa [captureArgs, Arg.outParam, captureArg, makeOutParam, pointer, top] using
              ih TI data top

def preamble (slots : List (Nat × Bool)) : List Line :=
  (slots.filter Prod.snd).map fun slot => .outDecl slot.1

theorem appendPreamble_eq (TI : TraceInfo) (slots : List (Nat × Bool))
    (recording : TI.dumping = false) :
    appendPreamble TI slots = TI.appendLines (preamble slots) := by
  induction slots generalizing TI with
  | nil => simp [appendPreamble, preamble]
  | cons slot rest ih =>
      obtain ⟨idx, firstUse⟩ := slot
      cases firstUse with
      | false => simpa [appendPreamble, preamble] using ih TI recording
      | true =>
          simp only [appendPreamble, if_true, appendToLog_eq TI _ recording]
          rw [ih (TI.appendLines [.outDecl idx]) recording, appendLines_append]
          simp [preamble]

theorem enter_nested (TI : TraceInfo) (name : String) (args : List Arg)
    (inside : TI.insideTracedRegion = true) :
    enter TI name args =
      (TI.pushTimer name,
        { name := name, nested := true, outCallbacks := pointerContainers args }) := by
  simp only [enter, inside]
  rw [captureArgs_nested _ _ _ rfl]
  simp

theorem enter_top (TI : TraceInfo) (name : String) (args : List Arg)
    (recording : TI.dumping = false) (outside : TI.insideTracedRegion = false) :
    enter TI name args =
      let slots := outSlots TI (pointerContainers args)
      let argStr := ReproBuffer.format slots.1 (slots.2.map Prod.fst) args
      ((slots.1.appendLines (preamble slots.2 ++ [.aborted name argStr])).pushTimer name,
        { name := name
          argStr := argStr
          outCallbacks := pointerContainers args
          outIndices := slots.2.map Prod.fst
          outFirstUse := slots.2.map Prod.snd
          logIndex := TI.log.length + (preamble slots.2).length }) := by
  have frame := outSlots_frame TI (pointerContainers args)
  have still : (outSlots TI (pointerContainers args)).1.dumping = false := by
    rw [frame]
    exact recording
  have log : (outSlots TI (pointerContainers args)).1.log = TI.log := by rw [frame]
  simp only [enter, outside]
  rw [captureArgs_top _ _ _ rfl]
  have zipped : ((outSlots TI (pointerContainers args)).2.map Prod.fst).zip
      ((outSlots TI (pointerContainers args)).2.map Prod.snd) =
      (outSlots TI (pointerContainers args)).2 := (List.zip_of_prod rfl rfl).symm
  simp only [List.nil_append, Bool.false_eq_true, if_false]
  rw [zipped, appendPreamble_eq _ _ still]
  have added : ∀ lines, ((outSlots TI (pointerContainers args)).1.appendLines lines).dumping =
      false := fun _ => still
  rw [appendToLog_eq _ _ (added _), appendLines_append]
  simp [TraceInfo.appendLines, log]

end TraceRegion

namespace TraceInfo

theorem dumperCall_eq (TI : TraceInfo) (name : String) (dumping : TI.dumping = true) :
    TI.dumperCall name = TI := by
  have popped : (TI.pushTimer name).popTimer = TI := rfl
  cases inside : TI.insideTracedRegion with
  | true =>
      simp only [dumperCall, TraceRegion.enter_nested TI name [] inside, TraceData.record]
      rw [TraceRegion.leave_nested _ _ _ rfl, popped]
  | false =>
      simp [dumperCall, TraceRegion.enter, TraceRegion.captureArgs, inside,
        TraceRegion.appendPreamble, appendToLog, dumping, TraceRegion.leave, TraceData.record,
        popped, TraceRegion.allocateRet, TraceRegion.bindResult, setLogEntry,
        TraceRegion.runCallbacks, TraceRegion.appendRetDecls]

theorem writePrologue_eq (TI : TraceInfo) (version : String) (dumping : TI.dumping = true) :
    TI.writePrologue version = TI := by
  unfold writePrologue
  by_cases unset : version = ""
  · simp only [unset, if_true, dumperCall_eq TI _ dumping]
  · simp only [unset, if_false, dumperCall_eq TI _ dumping]

theorem writeToFile_eq (TI : TraceInfo) (version : String) (opened : Bool)
    (recording : TI.dumping = false) :
    TI.writeToFile version opened = (TI, if opened then some TI.log else none) := by
  cases opened with
  | false => rfl
  | true =>
      simp only [writeToFile, writePrologue_eq (TI.setDumping true) version rfl, Bool.not_true,
        Bool.false_eq_true, if_false, if_true]
      simp only [setDumping, Prod.mk.injEq, and_true]
      rw [← recording]

theorem stopRegion_fst (TI : TraceInfo) (version : String) (opened : Bool)
    (recording : TI.dumping = false) :
    (TI.stopRegion version opened).1 = { TI with inRegion := false } := by
  unfold stopRegion
  by_cases inside : TI.inRegion = true
  · by_cases silent : (TI.writeOnStdErr || !opened) = true
    · simp only [inside, silent, if_true, Bool.not_true, if_false, Bool.false_eq_true]
    · simp only [inside, silent, Bool.not_true, if_false, Bool.false_eq_true]
      rw [writePrologue_eq _ _ rfl]
      simp only [setDumping]
      rw [← recording]
  · simp only [inside, Bool.not_false, if_true]
    simp only [Bool.not_eq_true] at inside
    rw [← inside]

theorem stopRegion_snd (TI : TraceInfo) (version : String) (opened : Bool) :
    (TI.stopRegion version opened).2 =
      if TI.inRegion && !TI.writeOnStdErr && opened then some (TI.log.drop TI.regionStart)
      else none := by
  unfold stopRegion
  by_cases inside : TI.inRegion = true
  · by_cases silent : (TI.writeOnStdErr || !opened) = true
    · simp only [inside, silent, if_true, Bool.not_true, if_false, Bool.false_eq_true]
      cases stderr : TI.writeOnStdErr <;> cases opened <;> simp_all
    · simp only [inside, silent, Bool.not_true, if_false, Bool.false_eq_true]
      rw [writePrologue_eq _ _ rfl]
      cases stderr : TI.writeOnStdErr <;> cases opened <;> simp_all [setDumping]
  · simp [inside]

end TraceInfo

structure TraceData.Unrecorded (data : TraceData) : Prop where
  result : data.result = none
  hasPtrResult : data.hasPtrResult = false
  hasRetVec : data.hasRetVec = false
  retVecPtrs : data.retVecPtrs = []

theorem TraceData.record_frame (data : TraceData) (val : Returned) :
    data.record val =
      { data with
        returned := true
        result := (data.record val).result
        hasPtrResult := (data.record val).hasPtrResult
        hasRetVec := (data.record val).hasRetVec
        retVecPtrs := (data.record val).retVecPtrs } := by
  cases val with
  | nothing => rfl
  | nullptr => rfl
  | handle type p =>
      unfold record
      by_cases kept : (type.isHandle || type.isPointer) = true <;> simp [kept]
  | vector elem ptrs =>
      unfold record
      by_cases kept : (elem.isHandleVector || elem.isPointerVector) = true <;> simp [kept]

theorem TraceData.record_nested (data : TraceData) (val : Returned) :
    (data.record val).nested = data.nested := by rw [data.record_frame val]

namespace Tracer

/-- Between operations nothing is dumped, and of the open regions only the outermost is not
nested. -/
structure Nesting (tracer : Tracer) : Prop where
  recording : tracer.info.dumping = false
  depth : tracer.info.timerStack.length = tracer.regions.length
  stack : tracer.regions = [] ∨ ∃ inner top, tracer.regions = inner ++ [top] ∧
    top.nested = false ∧ ∀ data ∈ inner, data.nested = true
  unrecorded : ∀ data ∈ tracer.regions, data.Unrecorded

variable {tracer : Tracer}

theorem Nesting.inside_iff (nesting : tracer.Nesting) :
    tracer.info.insideTracedRegion = true ↔ tracer.regions ≠ [] := by
  unfold insideTracedRegion
  rw [Bool.not_eq_true', ← Bool.not_eq_true, List.isEmpty_iff, ← List.length_eq_zero_iff,
    nesting.depth, List.length_eq_zero_iff]

theorem Nesting.only {data : TraceData} {regions : List TraceData} (nesting : tracer.Nesting)
    (innermost : tracer.regions = data :: regions) (top : data.nested = false) : regions = [] := by
  rcases nesting.stack with idle | ⟨inner, outer, split, _, nested⟩
  · rw [idle] at innermost
    cases innermost
  · rw [split] at innermost
    cases inner with
    | nil =>
        simp only [List.nil_append, List.cons.injEq] at innermost
        exact innermost.2.symm
    | cons first rest =>
        simp only [List.cons_append, List.cons.injEq] at innermost
        have := nested first List.mem_cons_self
        rw [innermost.1, top] at this
        cases this

theorem Nesting.enter (nesting : tracer.Nesting) (name : String) (args : List Arg) :
    (tracer.step (.enter name args)).Nesting := by
  cases inside : tracer.info.insideTracedRegion with
  | true =>
      simp only [step, TraceRegion.enter_nested _ _ _ inside]
      refine ⟨nesting.recording, congrArg (· + 1) nesting.depth, ?_, ?_⟩
      · rcases nesting.stack with idle | ⟨inner, top, split, outermost, nested⟩
        · exact absurd idle (nesting.inside_iff.mp inside)
        · refine Or.inr ⟨_ :: inner, top, by rw [split]; rfl, outermost, ?_⟩
          intro data present
          rcases List.mem_cons.mp present with rfl | later
          · rfl
          · exact nested data later
      · intro data present
        rcases List.mem_cons.mp present with rfl | later
        · exact ⟨rfl, rfl, rfl, rfl⟩
        · exact nesting.unrecorded data later
  | false =>
      have idle : tracer.regions = [] := by
        by_contra busy
        have := nesting.inside_iff.mpr busy
        rw [inside] at this
        cases this
      simp only [step, TraceRegion.enter_top _ _ _ nesting.recording inside]
      have frame := TraceRegion.outSlots_frame tracer.info (pointerContainers args)
      have depth := nesting.depth
      refine ⟨?_, ?_, ?_, ?_⟩
      · simp only [TraceInfo.pushTimer, TraceInfo.appendLines]
        rw [frame]
        exact nesting.recording
      · simp only [TraceInfo.pushTimer, TraceInfo.appendLines, List.length_cons]
        rw [frame]
        exact congrArg (· + 1) depth
      · exact Or.inr ⟨[], _, by rw [idle]; rfl, rfl, by simp⟩
      · intro data present
        rw [idle, List.mem_singleton] at present
        subst present
        exact ⟨rfl, rfl, rfl, rfl⟩

theorem leave_frame (TI : TraceInfo) (data : TraceData) (live : Address → List (Option Address))
    (recording : TI.dumping = false) :
    (TraceRegion.leave TI data live).dumping = false ∧
      (TraceRegion.leave TI data live).timerStack = TI.timerStack.tail := by
  cases top : data.nested with
  | true =>
      rw [TraceRegion.leave_nested TI data live top]
      exact ⟨recording, rfl⟩
  | false =>
      rw [TraceRegion.leave_top TI data live recording top]
      have names := TraceRegion.registerResults_names TI data live
      constructor
      · simp only [TraceInfo.appendLines, TraceInfo.withLog]
        rw [names.rest]
        exact recording
      · simp only [TraceInfo.appendLines, TraceInfo.withLog]
        rw [names.rest]
        rfl

theorem Nesting.leave (nesting : tracer.Nesting) (val : Returned)
    (live : Address → List (Option Address)) : (tracer.step (.leave val live)).Nesting := by
  cases open_regions : tracer.regions with
  | nil =>
      simp only [step, open_regions]
      exact nesting
  | cons data regions =>
      simp only [step, open_regions]
      obtain ⟨recording, timers⟩ :=
        leave_frame tracer.info (data.record val) live nesting.recording
      refine ⟨recording, ?_, ?_, ?_⟩
      · rw [timers, List.length_tail, nesting.depth, open_regions]
        rfl
      · rcases nesting.stack with idle | ⟨inner, top, split, outermost, nested⟩
        · rw [idle] at open_regions
          cases open_regions
        · rw [split] at open_regions
          cases inner with
          | nil =>
              simp only [List.nil_append, List.cons.injEq] at open_regions
              exact Or.inl open_regions.2.symm
          | cons first rest =>
              simp only [List.cons_append, List.cons.injEq] at open_regions
              exact Or.inr ⟨rest, top, open_regions.2.symm, outermost,
                fun data present => nested data (List.mem_cons_of_mem _ present)⟩
      · intro other present
        exact nesting.unrecorded other (by rw [open_regions]; exact List.mem_cons_of_mem _ present)

theorem Nesting.keep {TI : TraceInfo} (nesting : tracer.Nesting)
    (recording : TI.dumping = tracer.info.dumping)
    (timers : TI.timerStack = tracer.info.timerStack) :
    (⟨TI, tracer.regions⟩ : Tracer).Nesting where
  recording := recording.trans nesting.recording
  depth := by
    rw [timers]
    exact nesting.depth
  stack := nesting.stack
  unrecorded := nesting.unrecorded

theorem traceInvokeReturn_names (TI : TraceInfo) (registerPtr : Bool) (result : Option Address) :
    Names TI (TI.traceInvokeReturn registerPtr result) := by
  unfold traceInvokeReturn
  cases registerPtr with
  | false => exact Names.refl TI
  | true =>
      cases result with
      | none => exact Names.refl TI
      | some p =>
          cases seen : TI.handleMap p with
          | none =>
              simp only [getOrRegisterHandle_unseen seen]
              exact Names.bind seen
          | some handle =>
              simp only [getOrRegisterHandle_seen seen]
              exact Names.refl TI

theorem Nesting.step (nesting : tracer.Nesting) (op : TraceOp) : (tracer.step op).Nesting := by
  have appended : ∀ line, (tracer.info.appendToLog line).1 = tracer.info.appendLines [line] :=
    fun line => congrArg Prod.fst (appendToLog_eq tracer.info line nesting.recording)
  cases op with
  | enter name args => exact nesting.enter name args
  | leave val live => exact nesting.leave val live
  | wrapperLine content =>
      simp only [Tracer.step, appended]
      exact nesting.keep rfl rfl
  | invoke name nargs self =>
      simp only [Tracer.step, traceInvoke, appended]
      exact nesting.keep rfl rfl
  | invokeDestructor name object nary withFree =>
      simp only [Tracer.step, traceInvokeDestructor, appended]
      exact nesting.keep rfl rfl
  | invokeReturn registerPtr result =>
      have names := traceInvokeReturn_names tracer.info registerPtr result
      exact nesting.keep names.dumping (by rw [names.rest])
  | writeToFile version opened =>
      simp only [Tracer.step, writeToFile_eq _ version opened nesting.recording]
      exact nesting.keep rfl rfl
  | startRegion writeOnStdErr => exact nesting.keep rfl rfl
  | stopRegion version opened =>
      simp only [Tracer.step, stopRegion_fst _ version opened nesting.recording]
      exact nesting.keep rfl rfl

def slots (tracer : Tracer) (args : List Arg) : TraceInfo × List (Nat × Bool) :=
  TraceRegion.outSlots tracer.info (pointerContainers args)

def argStr (tracer : Tracer) (args : List Arg) : List Token :=
  ReproBuffer.format (tracer.slots args).1 ((tracer.slots args).2.map Prod.fst) args

theorem Nesting.enter_eq (nesting : tracer.Nesting) (args : List Arg) (name : String)
    (outside : tracer.info.insideTracedRegion = false) :
    tracer.step (.enter name args) =
      ⟨((tracer.slots args).1.appendLines (TraceRegion.preamble (tracer.slots args).2 ++
          [.aborted name (tracer.argStr args)])).pushTimer name,
        [{ name := name
           argStr := tracer.argStr args
           outCallbacks := pointerContainers args
           outIndices := (tracer.slots args).2.map Prod.fst
           outFirstUse := (tracer.slots args).2.map Prod.snd
           logIndex := tracer.info.log.length +
            (TraceRegion.preamble (tracer.slots args).2).length }]⟩ := by
  have idle : tracer.regions = [] := by
    by_contra busy
    have := nesting.inside_iff.mpr busy
    rw [outside] at this
    cases this
  simp only [Tracer.step, TraceRegion.enter_top _ name args nesting.recording outside, idle]
  rfl

theorem Nesting.leave_eq {data : TraceData} (nesting : tracer.Nesting)
    (opened : tracer.regions.head? = some data) (top : data.nested = false) (val : Returned)
    (live : Address → List (Option Address)) :
    tracer.step (.leave val live) =
      ⟨((TraceRegion.registerResults tracer.info (data.record val) live).1.withLog
          (tracer.info.log.set data.logIndex (.completed
            (TraceRegion.registerResults tracer.info (data.record val) live).2.1 data.name
            data.argStr))
          tracer.info.errs).appendLines
        (TraceRegion.registerResults tracer.info (data.record val) live).2.2, []⟩ := by
  obtain ⟨regions, split⟩ : ∃ regions, tracer.regions = data :: regions := by
    cases found : tracer.regions with
    | nil =>
        rw [found] at opened
        cases opened
    | cons first rest =>
        rw [found] at opened
        cases opened
        exact ⟨rest, rfl⟩
  have only := nesting.only split top
  subst only
  have frame := data.record_frame val
  simp only [Tracer.step, split]
  rw [TraceRegion.leave_top _ _ _ nesting.recording ((data.record_nested val).trans top)]
  have same : (data.record val).logIndex = data.logIndex ∧ (data.record val).name = data.name ∧
      (data.record val).argStr = data.argStr := by
    rw [frame]
    exact ⟨rfl, rfl, rfl⟩
  rw [same.1, same.2.1, same.2.2]

def TopLevel (tracer : Tracer) : TraceOp → Prop
  | .enter _ _ => tracer.info.insideTracedRegion = false
  | .leave _ _ => ∃ data, tracer.regions.head? = some data ∧ data.nested = false
  | _ => False

/-- What the other steps do: they add comments at most, and a pointer they register is one
that a `JitCall` returned. -/
structure Quiet (tracer : Tracer) (op : TraceOp) (lines : List Line) : Prop where
  comments : ∀ line ∈ lines, line.uses = [] ∧ line.declares = []
  log : (tracer.step op).info.log = tracer.info.log ++ lines
  kept : ∀ p handle, tracer.info.handleMap p = some handle →
    (tracer.step op).info.handleMap p = some handle
  fresh : ∀ p handle, (tracer.step op).info.handleMap p = some handle →
    tracer.info.handleMap p = none → handle ≤ (tracer.step op).info.varCount
  grown : tracer.info.varCount ≤ (tracer.step op).info.varCount
  jitCall : (tracer.step op).info.varCount = tracer.info.varCount ∨
    ∃ registerPtr result, op = .invokeReturn registerPtr result
  outAliases : (tracer.step op).info.outAliases = tracer.info.outAliases
  outCount : (tracer.step op).info.outCount = tracer.info.outCount
  retCount : (tracer.step op).info.retCount = tracer.info.retCount
  regions : ∀ data ∈ (tracer.step op).regions, data.nested = false → data ∈ tracer.regions

theorem Quiet.of_frame {op : TraceOp} {lines : List Line}
    (comments : ∀ line ∈ lines, line.uses = [] ∧ line.declares = [])
    (frame : ∃ timers errs start inside stderr, (tracer.step op).info =
      { tracer.info with
        log := tracer.info.log ++ lines
        timerStack := timers
        errs := errs
        regionStart := start
        inRegion := inside
        writeOnStdErr := stderr })
    (regions : ∀ data ∈ (tracer.step op).regions, data.nested = false →
      data ∈ tracer.regions) : tracer.Quiet op lines := by
  obtain ⟨timers, errs, start, inside, stderr, next⟩ := frame
  refine ⟨comments, ?_, ?_, ?_, ?_, Or.inl ?_, ?_, ?_, ?_, regions⟩
  · rw [next]
  · rw [next]
    exact fun p handle found => found
  · rw [next]
    intro p handle found unseen
    rw [show tracer.info.handleMap p = some handle from found] at unseen
    cases unseen
  · exact Nat.le_of_eq (by rw [next])
  · rw [next]
  · rw [next]
  · rw [next]
  · rw [next]

theorem Nesting.quiet_comment {op : TraceOp} (nesting : tracer.Nesting) {content : String}
    (next : tracer.step op =
      { tracer with info := (tracer.info.appendToLog (.comment content)).1 }) :
    tracer.Quiet op [.comment content] := by
  rw [appendToLog_eq _ _ nesting.recording] at next
  refine .of_frame ?_ ?_ ?_
  · intro line present
    rw [List.mem_singleton.mp present]
    exact ⟨rfl, rfl⟩
  · rw [next]
    exact ⟨_, _, _, _, _, rfl⟩
  · rw [next]
    exact fun data present _ => present

theorem Nesting.quiet {op : TraceOp} (nesting : tracer.Nesting) (lower : ¬tracer.TopLevel op) :
    ∃ lines, tracer.Quiet op lines := by
  have recording := nesting.recording
  cases op with
  | enter name args =>
      have inside : tracer.info.insideTracedRegion = true := by simpa [TopLevel] using lower
      refine ⟨[], .of_frame (by simp) ?_ ?_⟩
      · simp only [Tracer.step, TraceRegion.enter_nested _ _ _ inside, List.append_nil]
        exact ⟨_, _, _, _, _, rfl⟩
      · simp only [Tracer.step, TraceRegion.enter_nested _ _ _ inside]
        intro data present top
        rcases List.mem_cons.mp present with rfl | later
        · cases top
        · exact later
  | leave val live =>
      cases opened : tracer.regions with
      | nil =>
          refine ⟨[], .of_frame (by simp) ?_ ?_⟩
          · simp only [Tracer.step, opened, List.append_nil]
            exact ⟨_, _, _, _, _, rfl⟩
          · simp only [Tracer.step, opened]
            exact fun data present _ => present
      | cons data regions =>
          have nested : data.nested = true := by
            cases nested : data.nested with
            | true => rfl
            | false => exact absurd ⟨data, by rw [opened]; rfl, nested⟩ lower
          have recorded : (data.record val).nested = true := (data.record_nested val).trans nested
          refine ⟨[], .of_frame (by simp) ?_ ?_⟩
          · simp only [Tracer.step, opened, TraceRegion.leave_nested _ _ _ recorded,
              List.append_nil]
            exact ⟨_, _, _, _, _, rfl⟩
          · simp only [Tracer.step, opened]
            exact fun other present _ => List.mem_cons_of_mem _ present
  | wrapperLine content => exact ⟨_, nesting.quiet_comment rfl⟩
  | invoke name nargs self => exact ⟨_, nesting.quiet_comment rfl⟩
  | invokeDestructor name object nary withFree => exact ⟨_, nesting.quiet_comment rfl⟩
  | invokeReturn registerPtr result =>
      have names : Names tracer.info (tracer.step (.invokeReturn registerPtr result)).info :=
        traceInvokeReturn_names tracer.info registerPtr result
      refine ⟨[], by simp, ?_, names.kept, ?_, names.grown, Or.inr ⟨_, _, rfl⟩, ?_, ?_,
        names.retCount, fun data present _ => present⟩
      · rw [names.log, List.append_nil]
      · exact fun p handle found unseen => (names.fresh p handle found unseen).2
      · rw [names.rest]
      · rw [names.rest]
  | writeToFile version opened =>
      refine ⟨[], .of_frame (by simp) ?_ fun data present _ => present⟩
      simp only [Tracer.step, writeToFile_eq _ _ _ recording, List.append_nil]
      exact ⟨_, _, _, _, _, rfl⟩
  | startRegion writeOnStdErr =>
      refine ⟨[], .of_frame (by simp) ?_ fun data present _ => present⟩
      simp only [Tracer.step, startRegion, List.append_nil]
      exact ⟨_, _, _, _, _, rfl⟩
  | stopRegion version opened =>
      refine ⟨[], .of_frame (by simp) ?_ fun data present _ => present⟩
      simp only [Tracer.step, stopRegion_fst _ _ _ recording, List.append_nil]
      exact ⟨_, _, _, _, _, rfl⟩

theorem Nesting.step_cases (nesting : tracer.Nesting) (op : TraceOp) :
    (∃ name args, op = .enter name args ∧ tracer.info.insideTracedRegion = false) ∨
      (∃ val live data, op = .leave val live ∧ tracer.regions.head? = some data ∧
        data.nested = false) ∨
      (¬tracer.TopLevel op ∧ ∃ lines, tracer.Quiet op lines) := by
  by_cases top : tracer.TopLevel op
  · cases op with
    | enter name args => exact Or.inl ⟨name, args, rfl, top⟩
    | leave val live =>
        obtain ⟨data, opened, outermost⟩ := top
        exact Or.inr (Or.inl ⟨val, live, data, rfl, opened, outermost⟩)
    | _ => exact top.elim
  · exact Or.inr (Or.inr ⟨top, nesting.quiet top⟩)

theorem Nesting.start : (⟨{}, []⟩ : Tracer).Nesting where
  recording := rfl
  depth := rfl
  stack := Or.inl rfl
  unrecorded := by simp

end Tracer

end CppInterOp
