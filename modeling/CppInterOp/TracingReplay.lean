import CppInterOp.TracingHandles
import CppInterOp.TracingScope
import CppInterOp.Library.Runs

/-!
The reproducer run again: what its lines do when the API returns and appends what it did in
the recorded run, and when the variables read from containers get the recorded pointers.
-/

namespace CppInterOp

open TraceInfo TraceRegion

/-- A completed top-level call: what its OUT containers held when it was made, what it
returned, and what it appended to which of its OUT containers of pointers. -/
structure TracedCall where
  name : String
  args : List Arg
  held : Address → List (Option Address)
  val : Returned
  appends : List (Nat × Option Address)

namespace TracedCall

def appendedTo (call : TracedCall) (addr : Address) : List (Option Address) :=
  call.appends.filterMap fun entry =>
    if (pointerContainers call.args)[entry.1]? = some addr then some entry.2 else none

def live (call : TracedCall) (addr : Address) : List (Option Address) :=
  call.held addr ++ call.appendedTo addr

end TracedCall

structure ReplayState where
  vars : Nat → Option Address := fun _ => none
  outs : Nat → List (Option Address) := fun _ => []
  rets : Nat → List (Option Address) := fun _ => []

namespace ReplayState

def setVar (state : ReplayState) (handle : Nat) (p : Option Address) : ReplayState :=
  { state with vars := fun other => if other = handle then p else state.vars other }

def setOut (state : ReplayState) (outIdx : Nat) (elems : List (Option Address)) : ReplayState :=
  { state with outs := fun other => if other = outIdx then elems else state.outs other }

def setRet (state : ReplayState) (retIdx : Nat) (elems : List (Option Address)) : ReplayState :=
  { state with rets := fun other => if other = retIdx then elems else state.rets other }

/-- The API appends what it did in the recorded run, to the vectors it is given now. -/
def appendAll (state : ReplayState) (given : List Nat) :
    List (Nat × Option Address) → ReplayState
  | [] => state
  | (position, elem) :: rest =>
      match given[position]? with
      | some outIdx => (state.setOut outIdx (state.outs outIdx ++ [elem])).appendAll given rest
      | none => state.appendAll given rest

def bindCall (state : ReplayState) (val : Returned) : VarPart → ReplayState
  | .fresh handle =>
      match val with
      | .handle _ p => state.setVar handle p
      | _ => state
  | .vector retIdx =>
      match val with
      | .vector _ ptrs => state.setRet retIdx ptrs
      | _ => state
  | _ => state

def call (state : ReplayState) (recorded : TracedCall) (varPart : VarPart)
    (argStr : List Token) : ReplayState :=
  (state.appendAll (outNumbers argStr) recorded.appends).bindCall recorded.val varPart

def line (state : ReplayState) : Line → ReplayState
  | .outDecl outIdx => state.setOut outIdx []
  | .outElement handle outIdx index => state.setVar handle ((state.outs outIdx).getD index none)
  | .retElement handle retIdx index => state.setVar handle ((state.rets retIdx).getD index none)
  | _ => state

end ReplayState

def Line.callParts : Line → Option (VarPart × List Token)
  | .aborted _ argStr => some (.nothing, argStr)
  | .completed varPart _ argStr => some (varPart, argStr)
  | _ => none

namespace ReplayState

/-- The lines in order; the calls behave as the recorded ones did, one after the other. -/
def replay (state : ReplayState) (recorded : List TracedCall) : List Line → ReplayState
  | [] => state
  | next :: rest =>
      match next.callParts with
      | some (varPart, argStr) =>
          match recorded with
          | [] => state.replay [] rest
          | first :: others => (state.call first varPart argStr).replay others rest
      | none => (state.line next).replay recorded rest

end ReplayState

structure Recording where
  tracer : Tracer := ⟨{}, []⟩
  calls : List TracedCall := []

namespace Recording

def info (recording : Recording) : TraceInfo := recording.tracer.info

def step (recording : Recording) (call : TracedCall) : Recording where
  tracer := (recording.tracer.step (.enter call.name call.args)).step (.leave call.val call.live)
  calls := recording.calls ++ [call]

def replayed (recording : Recording) : ReplayState :=
  ReplayState.replay {} recording.calls recording.info.log

def elementHandle : Line → Option Nat
  | .outElement handle _ _ => some handle
  | .retElement handle _ _ => some handle
  | _ => none

/-- A variable read from a container has the pointer that the tracer gave its name. -/
def Faithful (recording : Recording) : Prop :=
  ∀ line ∈ recording.info.log, ∀ handle, elementHandle line = some handle →
    ∃ p, recording.info.handleMap p = some handle ∧ recording.replayed.vars handle = some p

def appendedTo (recording : Recording) (addr : Address) : List (Option Address) :=
  recording.calls.flatMap fun call => call.appendedTo addr

def returns (call : TracedCall) (p : Address) : Prop :=
  match call.val with
  | .handle _ q => q = some p
  | .vector elem ptrs =>
      (elem.isHandleVector || elem.isPointerVector) = true ∧ some p ∈ ptrs
  | _ => False

structure NewElement (recording : Recording) (call : TracedCall) (before : List Address)
    (container : Address) (index : Nat) (p : Address) : Prop where
  there : (call.live container)[index]? = some (some p)
  unseen : recording.info.handleMap p = none
  notReturned : ¬returns call p
  apart : ∀ earlier ∈ before, some p ∉ call.live earlier
  first : some p ∉ (call.live container).take index

/-- Each element the tracer sees first in an OUT container stands where it stands among the
elements that traced calls have appended there. -/
def InPlace (recording : Recording) (call : TracedCall) : Prop :=
  ∀ before container after, pointerContainers call.args = before ++ container :: after →
    ∀ index p, NewElement recording call before container index p →
      (recording.appendedTo container ++ call.appendedTo container)[index]? = some (some p)

end Recording

namespace ReplayState

variable (state : ReplayState)

def callCount (lines : List Line) : Nat := (lines.filterMap Line.callParts).length

theorem callCount_append (first second : List Line) :
    callCount (first ++ second) = callCount first + callCount second := by
  simp [callCount]

theorem replay_append (recorded more : List TracedCall) (lines added : List Line)
    (counted : callCount lines = recorded.length) :
    state.replay (recorded ++ more) (lines ++ added) =
      (state.replay recorded lines).replay more added := by
  induction lines generalizing state recorded with
  | nil =>
      have none_left : recorded = [] := List.length_eq_zero_iff.mp counted.symm
      rw [none_left]
      rfl
  | cons next rest ih =>
      cases parts : next.callParts with
      | none =>
          simp only [List.cons_append, replay, parts]
          exact ih _ recorded (by simpa [callCount, parts] using counted)
      | some call =>
          obtain ⟨varPart, argStr⟩ := call
          cases recorded with
          | nil => simp [callCount, parts] at counted
          | cons first others =>
              simp only [List.cons_append, replay, parts]
              exact ih _ others (by simpa [callCount, parts] using counted)

theorem appendAll_frame (given : List Nat) (appends : List (Nat × Option Address)) :
    (state.appendAll given appends).vars = state.vars ∧
      (state.appendAll given appends).rets = state.rets := by
  induction appends generalizing state with
  | nil => exact ⟨rfl, rfl⟩
  | cons entry rest ih =>
      obtain ⟨position, elem⟩ := entry
      simp only [appendAll]
      cases given[position]? with
      | none => exact ih state
      | some outIdx => exact ih _

theorem appendAll_outs (given : List Nat) (appends : List (Nat × Option Address))
    (outIdx : Nat) :
    (state.appendAll given appends).outs outIdx = state.outs outIdx ++
      appends.filterMap fun entry =>
        if given[entry.1]? = some outIdx then some entry.2 else none := by
  induction appends generalizing state with
  | nil => simp [appendAll]
  | cons entry rest ih =>
      obtain ⟨position, elem⟩ := entry
      simp only [appendAll]
      cases there : given[position]? with
      | none =>
          simp only [List.filterMap_cons, there, reduceCtorEq, if_false]
          exact ih state
      | some other =>
          simp only [List.filterMap_cons, there, Option.some.injEq]
          by_cases same : other = outIdx
          · subst same
            rw [ih]
            simp [setOut]
          · rw [ih]
            simp [setOut, same, Ne.symm same]

def elementValue : Line → Option Address
  | .outElement _ outIdx index => (state.outs outIdx).getD index none
  | .retElement _ retIdx index => (state.rets retIdx).getD index none
  | _ => none

theorem line_element {next : Line} {handle : Nat} (element : Recording.elementHandle next = some handle) :
    state.line next = state.setVar handle (state.elementValue next) ∧ next.callParts = none := by
  cases next with
  | outElement _ _ _ =>
      cases element
      exact ⟨rfl, rfl⟩
  | retElement _ _ _ =>
      cases element
      exact ⟨rfl, rfl⟩
  | _ => cases element

theorem replay_elements (recorded : List TracedCall) (lines : List Line)
    (elements : ∀ line ∈ lines, (Recording.elementHandle line).isSome = true)
    (once : (lines.filterMap Recording.elementHandle).Nodup) :
    (state.replay recorded lines).outs = state.outs ∧
      (state.replay recorded lines).rets = state.rets ∧
      (∀ handle ∉ lines.filterMap Recording.elementHandle,
        (state.replay recorded lines).vars handle = state.vars handle) ∧
      ∀ line ∈ lines, ∀ handle, Recording.elementHandle line = some handle →
        (state.replay recorded lines).vars handle = state.elementValue line := by
  induction lines generalizing state with
  | nil => exact ⟨rfl, rfl, fun _ _ => rfl, by simp⟩
  | cons next rest ih =>
      obtain ⟨handle, element⟩ := Option.isSome_iff_exists.mp (elements next List.mem_cons_self)
      obtain ⟨set, noCall⟩ := state.line_element element
      rw [List.filterMap_cons_some element, List.nodup_cons] at once
      have tail := ih (state.setVar handle (state.elementValue next))
        (fun line present => elements line (List.mem_cons_of_mem _ present)) once.2
      have unfolded : state.replay recorded (next :: rest) =
          (state.setVar handle (state.elementValue next)).replay recorded rest := by
        simp only [replay, noCall, set]
      have value : ∀ line, (state.setVar handle (state.elementValue next)).elementValue line =
          state.elementValue line := by
        intro line
        cases line <;> rfl
      rw [unfolded, List.filterMap_cons_some element]
      refine ⟨tail.1, tail.2.1, ?_, ?_⟩
      · intro other absent
        rw [List.mem_cons, not_or] at absent
        rw [tail.2.2.1 other absent.2]
        simp [setVar, absent.1]
      · intro line present other binds
        rcases List.mem_cons.mp present with rfl | later
        · rw [element, Option.some.injEq] at binds
          subst binds
          rw [tail.2.2.1 handle once.1]
          simp [setVar]
        · rw [tail.2.2.2 line later other binds, value]

def clear (slots : List (Nat × Bool)) : ReplayState :=
  { state with outs := fun outIdx => if (outIdx, true) ∈ slots then [] else state.outs outIdx }

theorem replay_preamble (recorded : List TracedCall) (slots : List (Nat × Bool))
    (rest : List Line) :
    state.replay recorded (preamble slots ++ rest) = (state.clear slots).replay recorded rest := by
  induction slots generalizing state with
  | nil =>
      have same : state.clear [] = state := by simp [clear]
      rw [same]
      rfl
  | cons slot others ih =>
      obtain ⟨outIdx, firstUse⟩ := slot
      cases firstUse with
      | false =>
          have same : state.clear ((outIdx, false) :: others) = state.clear others := by
            simp [clear]
          rw [same]
          exact ih state
      | true =>
          have step : state.replay recorded (preamble ((outIdx, true) :: others) ++ rest) =
              (state.setOut outIdx []).replay recorded (preamble others ++ rest) := rfl
          have same : (state.setOut outIdx []).clear others =
              state.clear ((outIdx, true) :: others) := by
            simp only [clear, setOut, List.mem_cons, Prod.mk.injEq, and_true]
            congr 1
            funext other
            by_cases here : other = outIdx
            · simp [here]
            · simp [here]
          rw [step, ih, same]

theorem bindCall_outs (val : Returned) (varPart : VarPart) :
    (state.bindCall val varPart).outs = state.outs := by
  cases varPart <;> cases val <;> rfl

theorem bindCall_vars (val : Returned) (varPart : VarPart) (handle : Nat)
    (other : .v handle ∉ declaredIn varPart.tokens) :
    (state.bindCall val varPart).vars handle = state.vars handle := by
  cases varPart with
  | fresh bound =>
      have apart : handle ≠ bound := by
        rintro rfl
        exact other List.mem_cons_self
      cases val with
      | handle type p => simp [bindCall, setVar, apart]
      | _ => rfl
  | vector retIdx => cases val <;> rfl
  | _ => rfl

end ReplayState

namespace Recording

/-- Between calls: no region is open, names are distinct, and the buffers of the reproducer
hold what was appended through the address they stand for. -/
structure Sound (recording : Recording) : Prop where
  nesting : recording.tracer.Nesting
  idle : recording.tracer.regions = []
  distinct : recording.info.Distinct
  aliased : recording.info.Aliased
  counted : ReplayState.callCount recording.info.log = recording.calls.length
  handles : ∀ line ∈ recording.info.log, ∀ handle, elementHandle line = some handle →
    handle ≤ recording.info.varCount
  buffers : ∀ addr outIdx, recording.info.outAliases addr = some outIdx →
    recording.replayed.outs outIdx = recording.appendedTo addr
  untouched : ∀ addr, recording.info.outAliases addr = none → recording.appendedTo addr = []

variable (recording : Recording) (call : TracedCall)

def opened : Tracer := recording.tracer.step (.enter call.name call.args)

def region : TraceData where
  name := call.name
  argStr := recording.tracer.argStr call.args
  outCallbacks := pointerContainers call.args
  outIndices := (recording.tracer.slots call.args).2.map Prod.fst
  outFirstUse := (recording.tracer.slots call.args).2.map Prod.snd
  logIndex := recording.info.log.length + (preamble (recording.tracer.slots call.args).2).length

def results : TraceInfo × VarPart × List Line :=
  registerResults (recording.opened call).info ((recording.region call).record call.val) call.live

variable {recording} {call}

theorem region_recorded : ((recording.region call).record call.val).Recorded :=
  TraceData.Unrecorded.record ⟨rfl, rfl, rfl, rfl⟩ call.val

theorem assigned : Slots recording.info (pointerContainers call.args)
    (recording.tracer.slots call.args).1 (recording.tracer.slots call.args).2 :=
  outSlots_slots recording.info (pointerContainers call.args)

theorem Sound.opened_eq (sound : recording.Sound) :
    recording.opened call =
      ⟨((recording.tracer.slots call.args).1.appendLines
          (preamble (recording.tracer.slots call.args).2 ++
            [.aborted call.name (recording.tracer.argStr call.args)])).pushTimer call.name,
        [recording.region call]⟩ := by
  refine sound.nesting.enter_eq call.args call.name ?_
  cases inside : recording.tracer.info.insideTracedRegion with
  | false => rfl
  | true => exact absurd sound.idle (sound.nesting.inside_iff.mp inside)

theorem Sound.opened_info (sound : recording.Sound) :
    (recording.opened call).info =
      { recording.info with
        timerStack := (recording.opened call).info.timerStack
        errs := (recording.opened call).info.errs
        log := recording.info.log ++ (preamble (recording.tracer.slots call.args).2 ++
          [.aborted call.name (recording.tracer.argStr call.args)])
        outCount := (recording.tracer.slots call.args).1.outCount
        outAliases := (recording.tracer.slots call.args).1.outAliases } := by
  have frame : (recording.tracer.slots call.args).1 = _ :=
    outSlots_frame recording.tracer.info (pointerContainers call.args)
  rw [sound.opened_eq]
  simp only [TraceInfo.pushTimer, TraceInfo.appendLines]
  rw [frame]
  rfl

theorem Sound.step_tracer (sound : recording.Sound) :
    (recording.step call).tracer =
      ⟨((recording.results call).1.withLog
          ((recording.opened call).info.log.set (recording.region call).logIndex
            (.completed (recording.results call).2.1 call.name
              (recording.tracer.argStr call.args)))
          (recording.opened call).info.errs).appendLines (recording.results call).2.2, []⟩ := by
  have nesting : (recording.opened call).Nesting := sound.nesting.step _
  have first : (recording.opened call).regions.head? = some (recording.region call) := by
    rw [sound.opened_eq]
    rfl
  exact nesting.leave_eq first rfl call.val call.live

def callLines (recording : Recording) (call : TracedCall) : List Line :=
  preamble (recording.tracer.slots call.args).2 ++
    .completed (recording.results call).2.1 call.name (recording.tracer.argStr call.args) ::
      (recording.results call).2.2

theorem Sound.step_log (sound : recording.Sound) :
    (recording.step call).info.log = recording.info.log ++ recording.callLines call := by
  have log : (recording.opened call).info.log = recording.info.log ++
      (preamble (recording.tracer.slots call.args).2 ++
        [.aborted call.name (recording.tracer.argStr call.args)]) := by
    rw [sound.opened_info]
  rw [info, sound.step_tracer]
  simp only [TraceInfo.appendLines, TraceInfo.withLog, log, callLines, region]
  rw [← List.append_assoc, ← List.length_append, List.set_append_right _ _ (Nat.le_refl _)]
  simp

theorem Sound.step_info (sound : recording.Sound) (call : TracedCall) :
    (recording.step call).info.handleMap = (recording.results call).1.handleMap ∧
      (recording.step call).info.varCount = (recording.results call).1.varCount ∧
      (recording.step call).info.outAliases = (recording.tracer.slots call.args).1.outAliases ∧
      (recording.step call).info.outCount = (recording.tracer.slots call.args).1.outCount := by
  have names : Names _ (recording.results call).1 :=
    registerResults_names (recording.opened call).info _ call.live
  rw [info, sound.step_tracer]
  refine ⟨rfl, rfl, ?_, ?_⟩
  · simp only [TraceInfo.appendLines, TraceInfo.withLog]
    rw [names.rest]
    simp only [TraceInfo.popTimer]
    rw [sound.opened_info]
  · simp only [TraceInfo.appendLines, TraceInfo.withLog]
    rw [names.rest]
    simp only [TraceInfo.popTimer]
    rw [sound.opened_info]

theorem numbers_argStr :
    outNumbers (recording.tracer.argStr call.args) =
      (recording.tracer.slots call.args).2.map Prod.fst :=
  outNumbers_format _ _ _ (by rw [List.length_map, assigned.aligned])

theorem number_at {position outIdx : Nat} :
    ((recording.tracer.slots call.args).2.map Prod.fst)[position]? = some outIdx ↔
      ∃ addr, (pointerContainers call.args)[position]? = some addr ∧
        (recording.tracer.slots call.args).1.outAliases addr = some outIdx := by
  have aliases : ((recording.tracer.slots call.args).2.map Prod.fst).map some =
      (pointerContainers call.args).map (recording.tracer.slots call.args).1.outAliases :=
    outSlots_aliases recording.tracer.info (pointerContainers call.args)
  have there := congrArg (fun list : List (Option Nat) => list[position]?) aliases
  simp only [List.getElem?_map] at there ⊢
  constructor
  · intro found
    rw [found] at there
    obtain ⟨addr, listed, same⟩ := Option.map_eq_some_iff.mp there.symm
    exact ⟨addr, listed, same⟩
  · rintro ⟨addr, listed, same⟩
    rw [listed, Option.map_some, same] at there
    obtain ⟨number, found, equal⟩ := Option.map_eq_some_iff.mp there
    rw [found, Option.some.inj equal]

theorem slot_of_listed (recording : Recording) {position : Nat} {addr : Address}
    (listed : (pointerContainers call.args)[position]? = some addr) :
    ∃ outIdx, (recording.tracer.slots call.args).1.outAliases addr = some outIdx := by
  have bound : position < ((recording.tracer.slots call.args).2.map Prod.fst).length := by
    rw [List.length_map, assigned.aligned]
    exact (List.getElem?_eq_some_iff.mp listed).1
  obtain ⟨other, found, slot⟩ := number_at.mp (List.getElem?_eq_getElem bound)
  rw [listed, Option.some.injEq] at found
  exact ⟨_, by rw [found]; exact slot⟩

theorem Sound.aliased_after (sound : recording.Sound) :
    (recording.tracer.slots call.args).1.Aliased :=
  outSlots_aliased sound.aliased (pointerContainers call.args)

theorem appendedTo_step (addr : Address) :
    (recording.step call).appendedTo addr =
      recording.appendedTo addr ++ call.appendedTo addr := by
  simp [appendedTo, step]

theorem Sound.buffer_after (sound : recording.Sound) {addr : Address} {outIdx : Nat}
    (slot : (recording.tracer.slots call.args).1.outAliases addr = some outIdx)
    (varPart : VarPart) :
    ((recording.replayed.clear (recording.tracer.slots call.args).2).call call varPart
        (recording.tracer.argStr call.args)).outs outIdx =
      recording.appendedTo addr ++ call.appendedTo addr := by
  have appended : (call.appends.filterMap fun entry =>
      if ((recording.tracer.slots call.args).2.map Prod.fst)[entry.1]? = some outIdx then
        some entry.2 else none) = call.appendedTo addr := by
    unfold TracedCall.appendedTo
    congr 1
    funext entry
    refine if_congr ?_ rfl rfl
    rw [number_at]
    constructor
    · rintro ⟨other, listed, same⟩
      rw [sound.aliased_after.apart addr other outIdx slot same]
      exact listed
    · exact fun listed => ⟨addr, listed, slot⟩
  have before : (recording.replayed.clear (recording.tracer.slots call.args).2).outs outIdx =
      recording.appendedTo addr := by
    simp only [ReplayState.clear]
    cases known : recording.info.outAliases addr with
    | none =>
        have first := (assigned.added addr outIdx slot).resolve_left (by rw [known]; simp)
        rw [if_pos first, sound.untouched addr known]
    | some old =>
        have same : old = outIdx :=
          Option.some.inj ((assigned.kept addr old known).symm.trans slot)
        subst same
        have notFirst : (old, true) ∉ (recording.tracer.slots call.args).2 := by
          intro first
          have fresh := (assigned.mem_fresh.mp first).1
          have bound := sound.aliased.bounded addr old known
          omega
        rw [if_neg notFirst, sound.buffers addr old known]
  rw [ReplayState.call, ReplayState.bindCall_outs, numbers_argStr, ReplayState.appendAll_outs,
    appended, before]

theorem declares_handles {lines : List Line}
    (elements : ∀ line ∈ lines, (elementHandle line).isSome = true) :
    declaredBy lines = (lines.filterMap elementHandle).map Ident.v := by
  induction lines with
  | nil => rfl
  | cons next rest ih =>
      obtain ⟨handle, element⟩ := Option.isSome_iff_exists.mp (elements next List.mem_cons_self)
      have tail := ih fun line present => elements line (List.mem_cons_of_mem _ present)
      have here : next.declares = [.v handle] := by
        cases next with
        | outElement _ _ _ =>
            cases element
            rfl
        | retElement _ _ _ =>
            cases element
            rfl
        | _ => cases element
      have split : declaredBy (next :: rest) = next.declares ++ declaredBy rest := rfl
      rw [split, here, tail, List.filterMap_cons_some element]
      rfl

theorem results_elements :
    ∀ line ∈ (recording.results call).2.2, (elementHandle line).isSome = true := by
  intro line present
  rcases registerResults_elements region_recorded present with
    ⟨handle, outIdx, index, rfl⟩ | ⟨handle, retIdx, index, rfl⟩
  · rfl
  · rfl

theorem results_declares :
    Declares (recording.opened call).info (recording.results call).1
      ((recording.region call).record call.val)
      (declaredIn (recording.results call).2.1.tokens ++
        ((recording.results call).2.2.filterMap elementHandle).map Ident.v) := by
  have declares := registerResults_declares (recording.opened call).info
    ((recording.region call).record call.val) call.live region_recorded
  rw [← declares_handles results_elements]
  exact declares

theorem Sound.new_handles (sound : recording.Sound) (call : TracedCall) :
    ((recording.results call).2.2.filterMap elementHandle).Nodup ∧
      (∀ handle ∈ (recording.results call).2.2.filterMap elementHandle,
        recording.info.varCount < handle ∧ handle ≤ (recording.results call).1.varCount) ∧
      ∀ handle, .v handle ∈ declaredIn (recording.results call).2.1.tokens →
        recording.info.varCount < handle := by
  have declares : Declares (recording.opened call).info (recording.results call).1 _ _ :=
    results_declares
  have start : (recording.opened call).info.varCount = recording.info.varCount := by
    rw [sound.opened_info]
  refine ⟨?_, ?_, ?_⟩
  · exact (List.nodup_append.mp declares.once).2.1.of_map _
  · intro handle new
    rw [← start]
    exact (declares.handles handle).mp
      (List.mem_append_right _ (List.mem_map.mpr ⟨handle, new, rfl⟩))
  · intro handle new
    rw [← start]
    exact ((declares.handles handle).mp (List.mem_append_left _ new)).1

def afterCall (recording : Recording) (call : TracedCall) : ReplayState :=
  (recording.replayed.clear (recording.tracer.slots call.args).2).call call
    (recording.results call).2.1 (recording.tracer.argStr call.args)

theorem Sound.replayed_step (sound : recording.Sound) :
    (recording.step call).replayed =
      (recording.afterCall call).replay [] (recording.results call).2.2 := by
  have calls : (recording.step call).calls = recording.calls ++ [call] := rfl
  rw [replayed, sound.step_log, calls, ReplayState.replay_append _ _ _ _ _ sound.counted, callLines,
    ReplayState.replay_preamble]
  rfl

theorem Sound.vars_step (sound : recording.Sound) (call : TracedCall) :
    (∀ handle ≤ recording.info.varCount,
      (recording.step call).replayed.vars handle = recording.replayed.vars handle) ∧
    ∀ line ∈ (recording.results call).2.2, ∀ handle, elementHandle line = some handle →
      (recording.step call).replayed.vars handle =
        (recording.afterCall call).elementValue line := by
  obtain ⟨once, range, bound⟩ := sound.new_handles call
  obtain ⟨_, _, others, values⟩ := (recording.afterCall call).replay_elements []
    (recording.results call).2.2 results_elements once
  rw [sound.replayed_step]
  refine ⟨?_, values⟩
  intro handle old
  have notNew : handle ∉ (recording.results call).2.2.filterMap elementHandle := by
    intro new
    have := (range handle new).1
    omega
  rw [others handle notNew, afterCall, ReplayState.call, ReplayState.bindCall_vars]
  · rw [(ReplayState.appendAll_frame _ _ _).1]
    rfl
  · intro declared
    have := bound handle declared
    omega

theorem Sound.outs_step (sound : recording.Sound) :
    (recording.step call).replayed.outs = (recording.afterCall call).outs := by
  rw [sound.replayed_step]
  exact ((recording.afterCall call).replay_elements [] (recording.results call).2.2
    results_elements (sound.new_handles call).1).1

theorem returns_iff (recording : Recording) (p : Address) :
    returns call p ↔ ((recording.region call).record call.val).result = some p ∨
      some p ∈ ((recording.region call).record call.val).retVecPtrs := by
  unfold returns
  cases call.val with
  | nothing => simp [TraceData.record, region]
  | nullptr => simp [TraceData.record, region]
  | handle type q => cases type <;> simp [TraceData.record, region, HandleType.isHandle,
      HandleType.isPointer]
  | vector elem ptrs =>
      by_cases kind : (elem.isHandleVector || elem.isPointerVector) = true
      · simp [TraceData.record, region, kind]
      · simp [TraceData.record, region, kind]

theorem Sound.unseen_iff (sound : recording.Sound) (p : Address) :
    (recording.opened call).info.handleMap p = none ↔ recording.info.handleMap p = none := by
  rw [sound.opened_info]

theorem Sound.firstOut_iff (sound : recording.Sound) {before : List (Address × Nat)}
    {container : Address} {index handle : Nat} {p : Address} :
    ((((recording.region call).record call.val).result ≠ some p ∧
        some p ∉ ((recording.region call).record call.val).retVecPtrs) ∧
      FirstOut (recording.opened call).info (recording.results call).1 call.live before container
        index handle p) ↔
      NewElement recording call (before.map Prod.fst) container index p ∧
        (recording.results call).1.handleMap p = some handle := by
  constructor
  · rintro ⟨⟨notResult, notElement⟩, ⟨there, unseen, first, named⟩, apart⟩
    refine ⟨⟨there, (sound.unseen_iff p).mp unseen, ?_, ?_, first⟩, named⟩
    · rw [returns_iff recording]
      rintro (result | element)
      · exact notResult result
      · exact notElement element
    · intro earlier listed
      obtain ⟨out, present, rfl⟩ := List.mem_map.mp listed
      exact apart out present
  · rintro ⟨⟨there, unseen, notReturned, apart, first⟩, named⟩
    rw [returns_iff recording, not_or] at notReturned
    refine ⟨notReturned, ⟨there, (sound.unseen_iff p).mpr unseen, first, named⟩, ?_⟩
    exact fun out present => apart out.1 (List.mem_map.mpr ⟨out, present, rfl⟩)

theorem region_outs :
    ((recording.region call).record call.val).outCallbacks.zip
        ((recording.region call).record call.val).outIndices =
      (pointerContainers call.args).zip ((recording.tracer.slots call.args).2.map Prod.fst) := by
  rw [TraceData.record_frame]
  rfl

theorem zip_length : (pointerContainers call.args).length =
    ((recording.tracer.slots call.args).2.map Prod.fst).length := by
  rw [List.length_map, assigned.aligned]

theorem Sound.out_line_iff (sound : recording.Sound) {handle outIdx index : Nat} :
    .outElement handle outIdx index ∈ (recording.results call).2.2 ↔
      ∃ before container after p, pointerContainers call.args = before ++ container :: after ∧
        (recording.tracer.slots call.args).1.outAliases container = some outIdx ∧
        NewElement recording call before container index p ∧
        (recording.results call).1.handleMap p = some handle := by
  have lines : .outElement handle outIdx index ∈ (recording.results call).2.2 ↔ _ :=
    mem_registerResults_out region_recorded
  rw [region_outs] at lines
  refine lines.trans ?_
  constructor
  · rintro ⟨before, container, after, p, split, new⟩
    have containers := congrArg (List.map Prod.fst) split
    have numbers := congrArg (List.map Prod.snd) split
    rw [List.map_fst_zip (Nat.le_of_eq zip_length), List.map_append, List.map_cons] at containers
    rw [List.map_snd_zip (Nat.le_of_eq zip_length.symm), List.map_append, List.map_cons] at numbers
    have number : ((recording.tracer.slots call.args).2.map Prod.fst)[before.length]? =
        some outIdx := by
      rw [numbers, List.getElem?_append_right (by simp)]
      simp
    obtain ⟨addr, listed, slot⟩ := number_at.mp number
    have same : container = addr := by
      rw [containers, List.getElem?_append_right (by simp)] at listed
      simpa using listed
    subst same
    exact ⟨before.map Prod.fst, container, after.map Prod.fst, p, containers, slot,
      sound.firstOut_iff.mp new⟩
  · rintro ⟨before, container, after, p, containers, slot, new⟩
    have listed : (pointerContainers call.args)[before.length]? = some container := by
      rw [containers, List.getElem?_append_right (Nat.le_refl _)]
      simp
    have number := number_at.mpr ⟨container, listed, slot⟩
    have paired : ((pointerContainers call.args).zip
        ((recording.tracer.slots call.args).2.map Prod.fst))[before.length]? =
        some (container, outIdx) :=
      List.getElem?_zip_eq_some.mpr ⟨listed, number⟩
    obtain ⟨bound, there⟩ := List.getElem?_eq_some_iff.mp paired
    have split := (List.take_append_drop before.length ((pointerContainers call.args).zip
      ((recording.tracer.slots call.args).2.map Prod.fst))).symm
    rw [List.drop_eq_getElem_cons bound, there] at split
    have earlier : (((pointerContainers call.args).zip
        ((recording.tracer.slots call.args).2.map Prod.fst)).take before.length).map Prod.fst =
        before := by
      rw [List.map_take, List.map_fst_zip (Nat.le_of_eq zip_length), containers,
        List.take_left' rfl]
    refine ⟨_, container, _, p, split, ?_⟩
    exact sound.firstOut_iff.mpr (by rw [earlier]; exact new)

theorem Sound.names_step (sound : recording.Sound) (call : TracedCall) :
    (∀ p handle, recording.info.handleMap p = some handle →
      (recording.results call).1.handleMap p = some handle) ∧
    recording.info.varCount ≤ (recording.results call).1.varCount ∧
    (recording.results call).1.Distinct := by
  have names : Names _ (recording.results call).1 :=
    registerResults_names (recording.opened call).info _ call.live
  have handleMap : (recording.opened call).info.handleMap = recording.info.handleMap := by
    rw [sound.opened_info]
  have varCount : (recording.opened call).info.varCount = recording.info.varCount := by
    rw [sound.opened_info]
  refine ⟨?_, ?_, ?_⟩
  · rw [← handleMap]
    exact names.kept
  · rw [← varCount]
    exact names.grown
  · refine registerResults_distinct ⟨?_, ?_⟩ _ _
    · rw [handleMap, varCount]
      exact sound.distinct.bounded
    · rw [handleMap]
      exact sound.distinct.apart

theorem ret_line {handle retIdx index : Nat}
    (added : .retElement handle retIdx index ∈ (recording.results call).2.2) :
    ∃ p, (recording.results call).1.handleMap p = some handle ∧
      (recording.afterCall call).elementValue (.retElement handle retIdx index) = some p := by
  obtain ⟨varPart, p, there, named⟩ := mem_registerResults_ret region_recorded added
  have bound : (recording.results call).2.1 = .vector retIdx := varPart
  refine ⟨p, named, ?_⟩
  simp only [ReplayState.elementValue, afterCall, ReplayState.call, bound]
  cases returned : call.val with
  | nothing => simp [TraceData.record, region, returned] at there
  | nullptr => simp [TraceData.record, region, returned] at there
  | handle type q => cases type <;> simp [TraceData.record, region, returned,
      HandleType.isHandle, HandleType.isPointer] at there
  | vector elem ptrs =>
      by_cases kind : (elem.isHandleVector || elem.isPointerVector) = true
      · simp only [TraceData.record, region, returned, kind, if_true, List.nil_append] at there
        simp [ReplayState.bindCall, ReplayState.setRet, List.getD, there]
      · simp [TraceData.record, region, returned, kind] at there

theorem Sound.out_value (sound : recording.Sound) {container : Address}
    {handle outIdx index : Nat} {p : Address}
    (slot : (recording.tracer.slots call.args).1.outAliases container = some outIdx) :
    (recording.afterCall call).elementValue (.outElement handle outIdx index) = some p ↔
      (recording.appendedTo container ++ call.appendedTo container)[index]? = some (some p) := by
  simp only [ReplayState.elementValue, afterCall, sound.buffer_after slot, List.getD]
  cases (recording.appendedTo container ++ call.appendedTo container)[index]? with
  | none => simp
  | some elem => simp

theorem Sound.faithful_step_iff (sound : recording.Sound) (faithful : recording.Faithful) :
    (recording.step call).Faithful ↔ recording.InPlace call := by
  obtain ⟨handleMap, _, _, _⟩ := sound.step_info call
  obtain ⟨kept, _, distinct⟩ := sound.names_step call
  obtain ⟨oldVars, newVars⟩ := sound.vars_step call
  unfold Faithful
  rw [sound.step_log, handleMap]
  constructor
  · intro every before container after containers index p new
    have present : some p ∈ call.live container := List.mem_of_getElem? new.there
    have callback : container ∈ pointerContainers call.args := by
      rw [containers]
      simp
    have registered : ((recording.results call).1.handleMap p).isSome = true := by
      refine (registerResults_isSome _ _ _ region_recorded ?_ p).mpr
        (Or.inr (Or.inr (Or.inr ⟨container, ?_, present⟩)))
      · rw [TraceData.record_frame]
        exact zip_length
      · rw [TraceData.record_frame]
        exact callback
    obtain ⟨handle, named⟩ := Option.isSome_iff_exists.mp registered
    have listed : (pointerContainers call.args)[before.length]? = some container := by
      rw [containers, List.getElem?_append_right (Nat.le_refl _)]
      simp
    obtain ⟨outIdx, slot⟩ := slot_of_listed recording listed
    have line := sound.out_line_iff.mpr ⟨before, container, after, p, containers, slot, new, named⟩
    obtain ⟨q, namedQ, value⟩ := every _ (List.mem_append_right _ (List.mem_append_right _
      (List.mem_cons_of_mem _ line))) handle rfl
    -- the variable is faithful to some pointer, which can only be the element
    have same : q = p := distinct.apart q p handle namedQ named
    rw [same, newVars _ line handle rfl] at value
    exact (sound.out_value slot).mp value
  · intro inPlace line present handle element
    rcases List.mem_append.mp present with old | new
    · obtain ⟨p, named, value⟩ := faithful line old handle element
      refine ⟨p, kept p handle named, ?_⟩
      rw [oldVars handle (sound.handles line old handle element)]
      exact value
    · rcases List.mem_append.mp new with declaration | rest
      · obtain ⟨slot, _, rfl⟩ := List.mem_map.mp declaration
        cases element
      · rcases List.mem_cons.mp rest with rfl | added
        · cases element
        · rw [newVars line added handle element]
          rcases registerResults_elements region_recorded added with
            ⟨number, outIdx, index, rfl⟩ | ⟨number, retIdx, index, rfl⟩
          · cases element
            obtain ⟨before, container, after, p, containers, slot, newElement, named⟩ :=
              sound.out_line_iff.mp added
            exact ⟨p, named, (sound.out_value slot).mpr
              (inPlace before container after containers index p newElement)⟩
          · cases element
            exact ret_line added

theorem callCount_preamble (slots : List (Nat × Bool)) :
    ReplayState.callCount (preamble slots) = 0 := by
  rw [ReplayState.callCount, List.length_eq_zero_iff, List.filterMap_eq_nil_iff]
  intro line present
  obtain ⟨slot, _, rfl⟩ := List.mem_map.mp present
  rfl

theorem callCount_elements {lines : List Line}
    (elements : ∀ line ∈ lines, (elementHandle line).isSome = true) :
    ReplayState.callCount lines = 0 := by
  rw [ReplayState.callCount, List.length_eq_zero_iff, List.filterMap_eq_nil_iff]
  intro line present
  obtain ⟨handle, element⟩ := Option.isSome_iff_exists.mp (elements line present)
  exact (ReplayState.line_element {} element).2

theorem Sound.step (sound : recording.Sound) : (recording.step call).Sound := by
  obtain ⟨handleMap, varCount, outAliases, outCount⟩ := sound.step_info call
  obtain ⟨kept, grown, distinct⟩ := sound.names_step call
  have nesting := (sound.nesting.step (.enter call.name call.args)).step
    (.leave call.val call.live)
  refine ⟨nesting, ?_, ⟨?_, ?_⟩, ⟨?_, ?_⟩, ?_, ?_, ?_, ?_⟩
  · rw [sound.step_tracer]
  · rw [handleMap, varCount]
    exact distinct.bounded
  · rw [handleMap]
    exact distinct.apart
  · rw [outAliases, outCount]
    exact sound.aliased_after.bounded
  · rw [outAliases]
    exact sound.aliased_after.apart
  · -- a completed call adds one call line, between its preamble and its elements
    have one : ∀ rest, ReplayState.callCount (.completed (recording.results call).2.1 call.name
        (recording.tracer.argStr call.args) :: rest) = ReplayState.callCount rest + 1 :=
      fun _ => rfl
    rw [sound.step_log, ReplayState.callCount_append, sound.counted, callLines,
      ReplayState.callCount_append, callCount_preamble, one, callCount_elements results_elements]
    simp [Recording.step]
  · rw [sound.step_log, varCount]
    intro line present handle element
    rcases List.mem_append.mp present with old | new
    · exact Nat.le_trans (sound.handles line old handle element) grown
    · rcases List.mem_append.mp new with declaration | rest
      · obtain ⟨slot, _, rfl⟩ := List.mem_map.mp declaration
        cases element
      · rcases List.mem_cons.mp rest with rfl | added
        · cases element
        · exact ((sound.new_handles call).2.1 handle
            (List.mem_filterMap.mpr ⟨line, added, element⟩)).2
  · rw [outAliases, sound.outs_step]
    intro addr outIdx slot
    rw [appendedTo_step]
    exact sound.buffer_after slot _
  · rw [outAliases]
    intro addr unknown
    have before : recording.info.outAliases addr = none := by
      cases known : recording.info.outAliases addr with
      | none => rfl
      | some outIdx =>
          have still : (recording.tracer.slots call.args).1.outAliases addr = some outIdx :=
            assigned.kept addr outIdx known
          rw [unknown] at still
          cases still
    -- a container without a slot was not passed, so nothing was appended to it
    have untouched : call.appendedTo addr = [] := by
      unfold TracedCall.appendedTo
      rw [List.filterMap_eq_nil_iff]
      intro entry _
      rw [if_neg]
      intro listed
      obtain ⟨outIdx, slot⟩ := slot_of_listed recording listed
      rw [unknown] at slot
      cases slot
    rw [appendedTo_step, sound.untouched addr before, untouched, List.append_nil]

theorem Sound.start : ({} : Recording).Sound where
  nesting := Tracer.Nesting.start
  idle := rfl
  distinct := ⟨by simp [info], by simp [info]⟩
  aliased := ⟨by simp [info], by simp [info]⟩
  counted := rfl
  handles line present := nomatch present
  buffers addr outIdx found := nomatch found
  untouched _ _ := rfl

/-- In particular where the containers hold what was appended to them and nothing else. -/
theorem inPlace_of_accumulated
    (accumulated : ∀ addr ∈ pointerContainers call.args, call.held addr = recording.appendedTo addr) :
    recording.InPlace call := by
  intro before container after containers index p new
  have listed : container ∈ pointerContainers call.args := by
    rw [containers]
    simp
  have there := new.there
  rw [TracedCall.live, accumulated container listed] at there
  exact there

end Recording

/-- Replaying a run gives every variable read from a container the recorded pointer exactly
when each call finds its new OUT elements in place. -/
theorem replay_faithful_iff (calls : List TracedCall) :
    Runs.EveryState Recording.step Recording.Faithful {} calls ↔
      Runs.EveryStep Recording.step Recording.InPlace {} calls :=
  Runs.everyState_iff_everyStep (fun recording => recording.Sound ∧ recording.Faithful)
    Recording.Faithful ⟨Recording.Sound.start, fun _ present => nomatch present⟩
    (fun _ inv => inv.2) (fun _ _ inv _ => inv.1.faithful_step_iff inv.2)
    (fun _ _ inv _ inPlace => ⟨inv.1.step, (inv.1.faithful_step_iff inv.2).mpr inPlace⟩)
    (Runs.everyStep_of_forall fun _ _ => trivial)

def clearedRun : List TracedCall :=
  [⟨"FillHandles", [.outContainer (some .pointer) 64], fun _ => [], .nothing, [(0, some 16)]⟩,
    ⟨"FillHandles", [.outContainer (some .pointer) 64], fun _ => [], .nothing, [(0, some 24)]⟩]

theorem replay_shifted : ¬∀ calls, Runs.EveryState Recording.step Recording.Faithful {} calls := by
  intro every
  obtain ⟨p, named, value⟩ := (every clearedRun).last (.outElement 2 0 0) (by decide) 2 rfl
  have bound : (Runs.run Recording.step {} clearedRun).replayed.vars 2 = some 16 := by decide
  have other : (Runs.run Recording.step {} clearedRun).info.handleMap 16 = some 1 := by decide
  rw [bound, Option.some.injEq] at value
  rw [← value, other] at named
  cases named

end CppInterOp
