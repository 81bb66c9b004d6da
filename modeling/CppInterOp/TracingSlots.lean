import CppInterOp.TracingRuns
import CppInterOp.Library.Runs

/-!
The slots of the log: a top-level region reserves one entry when it opens and rewrites that
entry when it closes, whatever is appended to the log or written to a file in between.
-/

namespace CppInterOp

open TraceInfo

namespace Line

def isOutDecl : Line → Bool
  | .outDecl _ => true
  | _ => false

def isElement : Line → Bool
  | .outElement _ _ _ | .retElement _ _ _ => true
  | _ => false

def isComment : Line → Bool
  | .comment _ => true
  | _ => false

end Line

/-- A tracer with the observer's own account of it: how many regions are open, and the last
entry of the log when the outermost one had opened. -/
structure WatchedTracer where
  tracer : Tracer := {}
  depth : Nat := 0
  slot : Nat := 0

namespace WatchedTracer

def step (watched : WatchedTracer) (op : TraceOp) : WatchedTracer :=
  let next := watched.tracer.step op
  match op with
  | .enter _ _ =>
      { tracer := next
        depth := watched.depth + 1
        slot := if watched.depth = 0 then next.info.log.length - 1 else watched.slot }
  | .leave _ _ => { watched with tracer := next, depth := watched.depth - 1 }
  | _ => { watched with tracer := next }

theorem step_tracer (watched : WatchedTracer) (op : TraceOp) :
    (watched.step op).tracer = watched.tracer.step op := by
  cases op <;> rfl

def log (watched : WatchedTracer) : List Line := watched.tracer.info.log

/-- The entries a top-level region adds when it opens: its new OUT variables and one call. -/
structure Reserves (watched : WatchedTracer) (op : TraceOp) : Prop where
  entry : ∃ decls name argStr, (∀ line ∈ decls, line.isOutDecl = true) ∧
    (watched.step op).log = watched.log ++ decls ++ [.aborted name argStr] ∧
    (watched.step op).slot = (watched.log ++ decls).length

/-- The entry of the region, still as reserved, becomes its completed call; only
declarations of the elements it returned follow. -/
structure Rewrites (watched : WatchedTracer) (op : TraceOp) : Prop where
  index : watched.tracer.regions.head?.map TraceData.logIndex = some watched.slot
  within : watched.slot < watched.log.length
  entry : ∃ elements varPart name argStr, (∀ line ∈ elements, line.isElement = true) ∧
    watched.log[watched.slot]? = some (.aborted name argStr) ∧
    (watched.step op).log =
      watched.log.set watched.slot (.completed varPart name argStr) ++ elements

def SlotDiscipline (watched : WatchedTracer) (op : TraceOp) : Prop :=
  match op with
  | .enter _ _ =>
      if watched.depth = 0 then watched.Reserves op
      else (watched.step op).log = watched.log
  | .leave _ _ =>
      if watched.depth = 1 then watched.Rewrites op
      else (watched.step op).log = watched.log
  | .writeToFile _ _ | .startRegion _ | .stopRegion _ _ =>
      (watched.step op).log = watched.log
  | .wrapperLine _ | .invoke _ _ _ | .invokeDestructor _ _ _ _ | .invokeReturn _ _ =>
      ∃ comments, (∀ line ∈ comments, line.isComment = true) ∧
        (watched.step op).log = watched.log ++ comments

end WatchedTracer

namespace TraceRegion

theorem preamble_isOutDecl {slots : List (Nat × Bool)} {line : Line}
    (present : line ∈ preamble slots) : line.isOutDecl = true := by
  obtain ⟨slot, _, rfl⟩ := List.mem_map.mp present
  rfl

theorem registerOuts_isElement {TI : TraceInfo} {live : Address → List (Option Address)}
    {outs : List (Address × Nat)} {line : Line} (present : line ∈ (registerOuts TI live outs).2) :
    line.isElement = true := by
  induction outs generalizing TI with
  | nil => cases present
  | cons out rest ih =>
      obtain ⟨container, outIdx⟩ := out
      rcases List.mem_append.mp present with here | later
      · obtain ⟨decl, _, rfl⟩ := List.mem_map.mp here
        rfl
      · exact ih later

theorem registerResults_isElement {TI : TraceInfo} {data : TraceData}
    {live : Address → List (Option Address)} {line : Line}
    (present : line ∈ (registerResults TI data live).2.2) : line.isElement = true := by
  rcases List.mem_append.mp present with outs | rets
  · exact registerOuts_isElement outs
  · obtain ⟨decl, _, rfl⟩ := List.mem_map.mp rets
    rfl

end TraceRegion

namespace WatchedTracer

structure Kept (watched : WatchedTracer) : Prop where
  nesting : watched.tracer.Nesting
  depth : watched.depth = watched.tracer.regions.length
  reserved : ∀ data ∈ watched.tracer.regions, data.nested = false →
    data.logIndex = watched.slot ∧
      watched.log[watched.slot]? = some (.aborted data.name data.argStr)

theorem Kept.start : (({} : WatchedTracer)).Kept where
  nesting := Tracer.Nesting.start
  depth := rfl
  reserved _ present := nomatch present

variable {watched : WatchedTracer} {op : TraceOp}

theorem Kept.step_nesting (kept : watched.Kept) (op : TraceOp) :
    (watched.step op).tracer.Nesting := by
  rw [step_tracer]
  exact kept.nesting.step op

theorem Kept.outside_iff (kept : watched.Kept) :
    watched.tracer.info.insideTracedRegion = false ↔ watched.depth = 0 := by
  rw [← Bool.not_eq_true, kept.nesting.inside_iff, kept.depth, List.length_eq_zero_iff,
    Classical.not_not]

theorem Kept.nested_iff (kept : watched.Kept) {data : TraceData} {regions : List TraceData}
    (innermost : watched.tracer.regions = data :: regions) :
    data.nested = false ↔ watched.depth = 1 := by
  rw [kept.depth, innermost, List.length_cons]
  constructor
  · intro top
    rw [kept.nesting.only innermost top]
    rfl
  · intro single
    have alone : regions = [] := List.eq_nil_of_length_eq_zero (by omega)
    subst alone
    rcases kept.nesting.stack with idle | ⟨inner, top, split, outermost, _⟩
    · rw [idle] at innermost
      cases innermost
    · have lengths := congrArg List.length (split.symm.trans innermost)
      simp only [List.length_append, List.length_singleton] at lengths
      have none : inner = [] := List.eq_nil_of_length_eq_zero (by omega)
      subst none
      rw [split] at innermost
      cases innermost
      exact outermost

/-- Lines added behind the reserved entry leave it where it is. -/
theorem Kept.append (kept : watched.Kept) {later : WatchedTracer} {lines : List Line}
    (nesting : later.tracer.Nesting) (depth : later.depth = later.tracer.regions.length)
    (slot : later.slot = watched.slot) (log : later.log = watched.log ++ lines)
    (regions : ∀ data ∈ later.tracer.regions, data.nested = false →
      data ∈ watched.tracer.regions) : later.Kept where
  nesting := nesting
  depth := depth
  reserved data present top := by
    obtain ⟨index, entry⟩ := kept.reserved data (regions data present top) top
    have within : watched.slot < watched.log.length := (List.getElem?_eq_some_iff.mp entry).1
    rw [slot, log, List.getElem?_append_left within]
    exact ⟨index, entry⟩

theorem Kept.enter_nested (kept : watched.Kept) (inside : watched.depth ≠ 0) (name : String)
    (args : List Arg) :
    (watched.step (.enter name args)).log = watched.log ∧
      (watched.step (.enter name args)).Kept := by
  have traced : watched.tracer.info.insideTracedRegion = true := by
    rw [← Bool.not_eq_false, kept.outside_iff]
    exact inside
  have next : (watched.tracer.step (.enter name args)) =
      ⟨watched.tracer.info.pushTimer name,
        { name := name, nested := true, outCallbacks := pointerContainers args } ::
          watched.tracer.regions⟩ := by
    simp only [Tracer.step, TraceRegion.enter_nested _ _ _ traced]
  have log : (watched.step (.enter name args)).log = watched.log := by
    simp only [step, WatchedTracer.log, next]
    rfl
  refine ⟨log, kept.append (kept.step_nesting _) ?_ ?_ (by rw [log, List.append_nil]) ?_⟩
  · simp only [step, next, List.length_cons, kept.depth]
  · simp only [step, if_neg inside]
  · simp only [step, next]
    intro data present top
    rcases List.mem_cons.mp present with rfl | later
    · cases top
    · exact later

theorem Kept.enter_top (kept : watched.Kept) (outside : watched.depth = 0) (name : String)
    (args : List Arg) :
    watched.Reserves (.enter name args) ∧ (watched.step (.enter name args)).Kept := by
  have next := kept.nesting.enter_eq args name (kept.outside_iff.mpr outside)
  have slots : (watched.tracer.slots args).1.log = watched.log := by
    have frame := TraceRegion.outSlots_frame watched.tracer.info (pointerContainers args)
    unfold Tracer.slots
    rw [frame]
    rfl
  have log : (watched.step (.enter name args)).log = watched.log ++
      TraceRegion.preamble (watched.tracer.slots args).2 ++
        [.aborted name (watched.tracer.argStr args)] := by
    simp only [step, WatchedTracer.log, next, List.append_assoc]
    simp only [pushTimer, appendLines, slots]
    rfl
  have slot : (watched.step (.enter name args)).slot = (watched.log ++
      TraceRegion.preamble (watched.tracer.slots args).2).length := by
    have length := congrArg List.length log
    rw [List.length_append, List.length_singleton] at length
    simp only [step, if_pos outside]
    change (watched.step (.enter name args)).log.length - 1 = _
    omega
  refine ⟨⟨_, name, _, fun line => TraceRegion.preamble_isOutDecl, log, slot⟩, ?_⟩
  refine ⟨kept.step_nesting _, ?_, ?_⟩
  · simp only [step, next, outside, List.length_singleton]
  · intro data present top
    simp only [step, next, List.mem_singleton] at present
    subst present
    rw [slot, log]
    refine ⟨?_, ?_⟩
    · rw [List.length_append]
      rfl
    · rw [List.getElem?_append_right (Nat.le_refl _), Nat.sub_self]
      rfl

theorem Kept.leave_nested (kept : watched.Kept) (deep : watched.depth ≠ 1) (val : Returned)
    (live : Address → List (Option Address)) :
    (watched.step (.leave val live)).log = watched.log ∧
      (watched.step (.leave val live)).Kept := by
  cases opened : watched.tracer.regions with
  | nil =>
      have next : watched.tracer.step (.leave val live) = watched.tracer := by
        simp only [Tracer.step, opened]
      have log : (watched.step (.leave val live)).log = watched.log := by
        simp only [step, WatchedTracer.log, next]
      refine ⟨log, kept.append (kept.step_nesting _) ?_ rfl (by rw [log, List.append_nil]) ?_⟩
      · simp only [step, next, kept.depth, opened, List.length_nil]
      · simp only [step, next]
        exact fun data present _ => present
  | cons data regions =>
      have nested : data.nested = true := by
        rw [← Bool.not_eq_false, kept.nested_iff opened]
        exact deep
      have next : watched.tracer.step (.leave val live) =
          ⟨watched.tracer.info.popTimer, regions⟩ := by
        simp only [Tracer.step, opened]
        rw [TraceRegion.leave_nested _ _ _ ((data.record_nested val).trans nested)]
      have log : (watched.step (.leave val live)).log = watched.log := by
        simp only [step, WatchedTracer.log, next]
        rfl
      refine ⟨log, kept.append (kept.step_nesting _) ?_ rfl (by rw [log, List.append_nil]) ?_⟩
      · simp only [step, next, kept.depth, opened, List.length_cons, Nat.add_sub_cancel]
      · simp only [step, next, opened]
        exact fun other present _ => List.mem_cons_of_mem _ present

theorem Kept.leave_top (kept : watched.Kept) (single : watched.depth = 1) (val : Returned)
    (live : Address → List (Option Address)) :
    watched.Rewrites (.leave val live) ∧ (watched.step (.leave val live)).Kept := by
  cases opened : watched.tracer.regions with
  | nil =>
      have empty := kept.depth
      rw [opened, single] at empty
      cases empty
  | cons data regions =>
      have top := (kept.nested_iff opened).mpr single
      obtain ⟨index, entry⟩ := kept.reserved data (by rw [opened]; exact List.mem_cons_self) top
      have next := kept.nesting.leave_eq (by rw [opened]; rfl) top val live
      have log : (watched.step (.leave val live)).log =
          watched.log.set watched.slot (.completed (TraceRegion.registerResults
            watched.tracer.info (data.record val) live).2.1 data.name data.argStr) ++
          (TraceRegion.registerResults watched.tracer.info (data.record val) live).2.2 := by
        rw [← index]
        simp only [step, WatchedTracer.log, next]
        rfl
      refine ⟨⟨?_, (List.getElem?_eq_some_iff.mp entry).1, _, _, data.name, data.argStr,
        fun line => TraceRegion.registerResults_isElement, entry, log⟩, ?_⟩
      · rw [opened]
        exact congrArg some index
      · refine ⟨kept.step_nesting _, ?_, ?_⟩
        · simp only [step, next, single, List.length_nil, Nat.sub_self]
        · simp only [step, next]
          exact fun other present => nomatch present

/-- Every other operation keeps the regions and adds lines at most. -/
theorem Kept.other (kept : watched.Kept) {lines : List Line}
    (moved : watched.step op = { watched with tracer := watched.tracer.step op })
    (regions : (watched.tracer.step op).regions = watched.tracer.regions)
    (log : (watched.tracer.step op).info.log = watched.log ++ lines) :
    (watched.step op).Kept := by
  have extended : (watched.step op).log = watched.log ++ lines := by
    rw [moved]
    exact log
  refine kept.append ?_ ?_ ?_ extended ?_
  · rw [moved]
    exact kept.nesting.step op
  · rw [moved, regions]
    exact kept.depth
  · rw [moved]
  · rw [moved, regions]
    exact fun data present _ => present

theorem Kept.step (kept : watched.Kept) (op : TraceOp) :
    watched.SlotDiscipline op ∧ (watched.step op).Kept := by
  have recording := kept.nesting.recording
  have comment : ∀ content, (watched.tracer.info.appendToLog (.comment content)).1.log =
      watched.log ++ [.comment content] := fun content =>
    congrArg (fun out => out.1.log) (appendToLog_eq _ (.comment content) recording)
  have single : ∀ content, ∀ line ∈ [Line.comment content], line.isComment = true :=
    fun content line present => by rw [List.mem_singleton.mp present]; rfl
  cases op with
  | enter name args =>
      by_cases outside : watched.depth = 0
      · obtain ⟨reserves, next⟩ := kept.enter_top outside name args
        exact ⟨by simpa only [SlotDiscipline, if_pos outside] using reserves, next⟩
      · obtain ⟨same, next⟩ := kept.enter_nested outside name args
        exact ⟨by simpa only [SlotDiscipline, if_neg outside] using same, next⟩
  | leave val live =>
      by_cases outermost : watched.depth = 1
      · obtain ⟨rewrites, next⟩ := kept.leave_top outermost val live
        exact ⟨by simpa only [SlotDiscipline, if_pos outermost] using rewrites, next⟩
      · obtain ⟨same, next⟩ := kept.leave_nested outermost val live
        exact ⟨by simpa only [SlotDiscipline, if_neg outermost] using same, next⟩
  | wrapperLine content =>
      exact ⟨⟨_, single _, comment _⟩, kept.other rfl rfl (comment _)⟩
  | invoke name nargs self =>
      exact ⟨⟨_, single _, comment _⟩, kept.other rfl rfl (comment _)⟩
  | invokeDestructor name object nary withFree =>
      exact ⟨⟨_, single _, comment _⟩, kept.other rfl rfl (comment _)⟩
  | invokeReturn registerPtr result =>
      have log : (watched.tracer.step (.invokeReturn registerPtr result)).info.log =
          watched.log ++ [] := by
        rw [List.append_nil]
        exact (Tracer.traceInvokeReturn_names watched.tracer.info registerPtr result).log
      exact ⟨⟨[], fun line present => (nomatch present), log⟩, kept.other rfl rfl log⟩
  | writeToFile version opened =>
      have log : (watched.tracer.step (.writeToFile version opened)).info.log = watched.log := by
        simp only [Tracer.step, writeToFile_eq _ version opened recording]
        rfl
      exact ⟨log, kept.other  rfl rfl (by rw [log, List.append_nil])⟩
  | startRegion writeOnStdErr =>
      exact ⟨rfl, kept.other  rfl rfl (List.append_nil _).symm⟩
  | stopRegion version opened =>
      have log : (watched.tracer.step (.stopRegion version opened)).info.log = watched.log := by
        simp only [Tracer.step, stopRegion_fst _ version opened recording]
        rfl
      exact ⟨log, kept.other  rfl rfl (by rw [log, List.append_nil])⟩

/-- Every run of nested regions keeps to its slots. -/
theorem slot_discipline (ops : List TraceOp) :
    Runs.EveryStep WatchedTracer.step SlotDiscipline {} ops :=
  Runs.everyStep_of_invariant Kept Kept.start
    (fun _ op kept _ => (kept.step op).2) (fun _ op kept _ => (kept.step op).1)
    (Runs.everyStep_of_forall fun _ _ => trivial)

end WatchedTracer

end CppInterOp
