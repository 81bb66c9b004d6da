import CppInterOp.TracingScope

/-!
When the files of the tracer are self-contained: runs annotated with the traced call that
first handed out each handle and first passed each OUT container.
-/

namespace CppInterOp

open TraceInfo TraceRegion

/-- A tracer with where each name comes from: the slot of the traced call that handed a
handle out, or nothing if a `JitCall` returned it, and the length of the log when an OUT
container was first passed. -/
structure TraceSession where
  tracer : Tracer := ⟨{}, []⟩
  handedOut : Nat → Option Nat := fun _ => none
  passed : Nat → Nat := fun _ => 0

/-- The lines `StopRegion` would write are those from `regionStart` on. -/
def TraceInfo.FileRegion (TI : TraceInfo) : Prop := TI.inRegion = true ∧ TI.writeOnStdErr = false

namespace TraceSession

def info (session : TraceSession) : TraceInfo := session.tracer.info

def origin (session : TraceSession) : TraceOp → Option Nat
  | .leave _ _ => session.tracer.regions.head?.map TraceData.logIndex
  | _ => none

def step (session : TraceSession) (op : TraceOp) : TraceSession where
  tracer := session.tracer.step op
  handedOut handle :=
    if handle ≤ session.info.varCount then session.handedOut handle else session.origin op
  passed outIdx :=
    if outIdx < session.info.outCount then session.passed outIdx else session.info.log.length

/-- The pointers and OUT containers among the arguments that the tracer has names for were
first seen by a traced call from line `since` on, and no string among them ends its own literal. -/
structure SeenSince (session : TraceSession) (since : Nat) (args : List Arg) : Prop where
  pointers : ∀ p ∈ argPointers args, ∀ handle, session.info.handleMap p = some handle →
    ∃ slot, session.handedOut handle = some slot ∧ since ≤ slot
  containers : ∀ addr ∈ pointerContainers args, ∀ outIdx,
    session.info.outAliases addr = some outIdx → since ≤ session.passed outIdx
  literals : ∀ s ∈ argStrings args, ¬ReproBuffer.rawEnd <:+: s.toList

def ReplayableSince (since : Nat) (session : TraceSession) : TraceOp → Prop
  | .enter _ args =>
      session.info.insideTracedRegion = false → session.SeenSince since args
  | .leave val live =>
      ∀ data, session.tracer.regions.head? = some data → data.nested = false →
        since ≤ data.logIndex ∨ NothingNew session.info (data.record val) live
  | _ => True

/-- A top-level call uses nothing that a `JitCall` returned, no string with `)CPPI"` in it and, in
a region with a file, nothing first seen before the region; a call open when that region began
hands out nothing new in a container. -/
def Replayable (session : TraceSession) (op : TraceOp) : Prop :=
  ReplayableSince 0 session op ∧
    (session.info.FileRegion → ReplayableSince session.info.regionStart session op)

def FilesSelfContained (session : TraceSession) : Prop :=
  ∀ op lines, session.tracer.file op = some lines → SelfContained lines

structure Reserved (session : TraceSession) (data : TraceData) : Prop where
  line : session.info.log[data.logIndex]? = some (.aborted data.name data.argStr)
  silent : declaredIn data.argStr = []
  aligned : data.outCallbacks.length = data.outIndices.length
  outs : ∀ outIdx ∈ data.outIndices, outIdx < session.info.outCount ∧
    .out outIdx ∈ usedIn data.argStr ∧ session.passed outIdx ≤ data.logIndex

structure Counted (session : TraceSession) : Prop where
  nesting : session.tracer.Nesting
  handles : ∀ p handle, session.info.handleMap p = some handle → handle ≤ session.info.varCount
  aliases : ∀ addr outIdx, session.info.outAliases addr = some outIdx →
    outIdx < session.info.outCount
  handedOut : ∀ handle ≤ session.info.varCount, ∀ slot,
    session.handedOut handle = some slot → slot < session.info.log.length
  passed : ∀ outIdx < session.info.outCount, session.passed outIdx < session.info.log.length
  v : ∀ handle, .v handle ∈ declaredBy session.info.log → handle ≤ session.info.varCount
  out : ∀ outIdx, .out outIdx ∈ declaredBy session.info.log → outIdx < session.info.outCount
  ret : ∀ retIdx, .ret retIdx ∈ declaredBy session.info.log → retIdx < session.info.retCount
  stray : ∀ code, .stray code ∉ declaredBy session.info.log
  reserved : ∀ data ∈ session.tracer.regions, data.nested = false → session.Reserved data

structure Scoped (since : Nat) (session : TraceSession) : Prop where
  inside : since ≤ session.info.log.length
  closed : SelfContained (session.info.log.drop since)
  handles : ∀ handle ≤ session.info.varCount,
    (.v handle ∈ declaredBy (session.info.log.drop since) ↔
      ∃ slot, session.handedOut handle = some slot ∧ since ≤ slot)
  outs : ∀ outIdx < session.info.outCount,
    (.out outIdx ∈ declaredBy (session.info.log.drop since) ↔ since ≤ session.passed outIdx)

theorem declaredBy_append (first second : List Line) :
    declaredBy (first ++ second) = declaredBy first ++ declaredBy second :=
  Scoping.declared_append first second

theorem mem_declaredBy_of_drop {lines : List Line} {since : Nat} {ident : Ident}
    (found : ident ∈ declaredBy (lines.drop since)) : ident ∈ declaredBy lines := by
  rw [← List.take_append_drop since lines]
  rw [declaredBy_append]
  exact List.mem_append_right _ found

variable {session : TraceSession} {since : Nat} {op : TraceOp}

theorem Scoped.extend (scope : session.Scoped since)
    (longer : session.info.log.length ≤ (session.step op).info.log.length)
    (closed : SelfContained ((session.step op).info.log.drop since))
    (oldHandles : ∀ handle ≤ session.info.varCount,
      (.v handle ∈ declaredBy ((session.step op).info.log.drop since) ↔
        .v handle ∈ declaredBy (session.info.log.drop since)))
    (newHandles : ∀ handle, session.info.varCount < handle →
      handle ≤ (session.step op).info.varCount →
      (.v handle ∈ declaredBy ((session.step op).info.log.drop since) ↔
        ∃ slot, session.origin op = some slot ∧ since ≤ slot))
    (oldOuts : ∀ outIdx < session.info.outCount,
      (.out outIdx ∈ declaredBy ((session.step op).info.log.drop since) ↔
        .out outIdx ∈ declaredBy (session.info.log.drop since)))
    (newOuts : ∀ outIdx, session.info.outCount ≤ outIdx →
      outIdx < (session.step op).info.outCount →
      .out outIdx ∈ declaredBy ((session.step op).info.log.drop since)) :
    (session.step op).Scoped since where
  inside := Nat.le_trans scope.inside longer
  closed := closed
  handles handle bound := by
    by_cases old : handle ≤ session.info.varCount
    · simp only [step, old, if_true]
      exact (oldHandles handle old).trans (scope.handles handle old)
    · simp only [step, old, if_false]
      exact newHandles handle (by omega) bound
  outs outIdx bound := by
    by_cases old : outIdx < session.info.outCount
    · simp only [step, old, if_true]
      exact (oldOuts outIdx old).trans (scope.outs outIdx old)
    · simp only [step, old, if_false]
      exact iff_of_true (newOuts outIdx (by omega) bound) scope.inside

section Quiet

variable {lines : List Line}

theorem declaredBy_quiet (quiet : session.tracer.Quiet op lines) : declaredBy lines = [] := by
  simp only [declaredBy, Scoping.declared, List.flatMap_eq_nil_iff]
  exact fun line present => (quiet.comments line present).2

theorem Scoped.quiet (scope : session.Scoped since) (counted : session.Counted)
    (quiet : session.tracer.Quiet op lines) : (session.step op).Scoped since := by
  have log : (session.step op).info.log = session.info.log ++ lines := quiet.log
  have nothing : Scoping.declared Line.declares lines = [] := declaredBy_quiet quiet
  have extended : (session.step op).info.log.drop since = session.info.log.drop since ++ lines := by
    rw [log, List.drop_append_of_le_length scope.inside]
  have declares : declaredBy ((session.step op).info.log.drop since) =
      declaredBy (session.info.log.drop since) := by
    rw [extended, declaredBy_append, declaredBy_quiet quiet, List.append_nil]
  refine scope.extend ?_ ?_ ?_ ?_ ?_ ?_
  · rw [log, List.length_append]
    omega
  · rw [extended]
    refine scope.closed.append ?_ (by rw [nothing]; exact List.nodup_nil) (by simp [nothing])
    intro line present name used
    rw [(quiet.comments line present).1] at used
    cases used
  · intro handle _
    rw [declares]
  · intro handle new bound
    rw [declares]
    rcases quiet.jitCall with same | ⟨registerPtr, result, rfl⟩
    · have same : (session.step op).info.varCount = session.info.varCount := same
      omega
    · -- a `JitCall` names its result, and no line declares the name
      have undeclared : .v handle ∉ declaredBy (session.info.log.drop since) := by
        intro found
        have := counted.v handle (mem_declaredBy_of_drop found)
        omega
      simp [undeclared, origin]
  · intro outIdx _
    rw [declares]
  · intro outIdx new bound
    have same : (session.step op).info.outCount = session.info.outCount := quiet.outCount
    omega

theorem Counted.quiet (counted : session.Counted) (quiet : session.tracer.Quiet op lines) :
    (session.step op).Counted := by
  have log : (session.step op).info.log = session.info.log ++ lines := quiet.log
  have declares : declaredBy (session.step op).info.log = declaredBy session.info.log := by
    rw [log, declaredBy_append, declaredBy_quiet quiet, List.append_nil]
  have grown : session.info.varCount ≤ (session.step op).info.varCount := quiet.grown
  have outAliases : (session.step op).info.outAliases = session.info.outAliases := quiet.outAliases
  have outCount : (session.step op).info.outCount = session.info.outCount := quiet.outCount
  have retCount : (session.step op).info.retCount = session.info.retCount := quiet.retCount
  refine ⟨counted.nesting.step op, ?_, ?_, ?_, ?_, ?_, ?_, ?_, ?_, ?_⟩
  · intro p handle found
    cases before : session.info.handleMap p with
    | none => exact quiet.fresh p handle found before
    | some old =>
        have same : handle = old := Option.some.inj (found.symm.trans (quiet.kept p old before))
        rw [same]
        exact Nat.le_trans (counted.handles p old before) grown
  · rw [outAliases, outCount]
    exact counted.aliases
  · intro handle bound slot found
    rw [log, List.length_append]
    by_cases old : handle ≤ session.info.varCount
    · simp only [step, old, if_true] at found
      have := counted.handedOut handle old slot found
      omega
    · simp only [step, old, if_false] at found
      rcases quiet.jitCall with same | ⟨registerPtr, result, rfl⟩
      · have same : (session.step op).info.varCount = session.info.varCount := same
        omega
      · cases found
  · intro outIdx bound
    rw [outCount] at bound
    rw [log, List.length_append]
    simp only [step, bound, if_true]
    have := counted.passed outIdx bound
    omega
  · intro handle declared
    rw [declares] at declared
    exact Nat.le_trans (counted.v handle declared) grown
  · intro outIdx declared
    rw [declares] at declared
    rw [outCount]
    exact counted.out outIdx declared
  · intro retIdx declared
    rw [declares] at declared
    rw [retCount]
    exact counted.ret retIdx declared
  · rw [declares]
    exact counted.stray
  · intro data present top
    have before := counted.reserved data (quiet.regions data present top) top
    refine ⟨?_, before.silent, before.aligned, ?_⟩
    · rw [log, List.getElem?_append_left (List.getElem?_eq_some_iff.mp before.line).1]
      exact before.line
    · intro outIdx listed
      obtain ⟨bound, used, early⟩ := before.outs outIdx listed
      refine ⟨by rw [outCount]; exact bound, used, ?_⟩
      simp only [step, bound, if_true]
      exact early

end Quiet

section Enter

variable (session) (args : List Arg)

def slots : TraceInfo × List (Nat × Bool) := session.tracer.slots args

def argStr : List Token := session.tracer.argStr args

variable {session} {args}

theorem assigned (session : TraceSession) (args : List Arg) :
    Slots session.info (pointerContainers args) (session.slots args).1 (session.slots args).2 :=
  outSlots_slots session.info (pointerContainers args)

theorem mem_usedIn_argStr {ident : Ident} :
    ident ∈ usedIn (session.argStr args) ↔
      ident ∈ namesOf session.info (argPointers args) ∨ ident ∈ straysOf (argStrings args) ∨
        ∃ outIdx ∈ (session.slots args).2.map Prod.fst, ident = .out outIdx := by
  have frame : (session.slots args).1 = _ := outSlots_frame session.info (pointerContainers args)
  have names : namesOf (session.slots args).1 (argPointers args) =
      namesOf session.info (argPointers args) := by
    unfold namesOf
    rw [frame]
  have formatted := mem_usedIn_format (session.slots args).1
    ((session.slots args).2.map Prod.fst) args ident
    (by rw [List.length_map, (assigned session args).aligned])
  rw [names] at formatted
  exact formatted

theorem declaredBy_preamble (slots : List (Nat × Bool)) :
    declaredBy (preamble slots) = ((slots.filter Prod.snd).map Prod.fst).map Ident.out := by
  simp only [preamble]
  induction slots.filter Prod.snd with
  | nil => rfl
  | cons slot rest ih =>
      have split : declaredBy (Line.outDecl slot.1 :: rest.map fun slot => Line.outDecl slot.1) =
          Ident.out slot.1 :: declaredBy (rest.map fun slot => Line.outDecl slot.1) := rfl
      rw [List.map_cons, split, ih]
      rfl

theorem mem_preamble {outIdx : Nat} :
    .out outIdx ∈ declaredBy (preamble (session.slots args).2) ↔
      session.info.outCount ≤ outIdx ∧ outIdx < (session.slots args).1.outCount := by
  rw [declaredBy_preamble, ← (assigned session args).mem_fresh]
  simp

theorem enter_tracer (counted : session.Counted) (args : List Arg) (name : String)
    (outside : session.info.insideTracedRegion = false) :
    (session.step (.enter name args)).tracer =
      ⟨((session.slots args).1.appendLines (preamble (session.slots args).2 ++
          [.aborted name (session.argStr args)])).pushTimer name,
        [{ name := name
           argStr := session.argStr args
           outCallbacks := pointerContainers args
           outIndices := (session.slots args).2.map Prod.fst
           outFirstUse := (session.slots args).2.map Prod.snd
           logIndex := session.info.log.length + (preamble (session.slots args).2).length }]⟩ :=
  counted.nesting.enter_eq args name outside

theorem enter_log (counted : session.Counted) (args : List Arg) (name : String)
    (outside : session.info.insideTracedRegion = false) :
    (session.step (.enter name args)).info.log = session.info.log ++
      (preamble (session.slots args).2 ++ [.aborted name (session.argStr args)]) := by
  have frame : (session.slots args).1 = _ := outSlots_frame session.info (pointerContainers args)
  rw [info, enter_tracer counted args name outside]
  simp only [TraceInfo.pushTimer, TraceInfo.appendLines]
  rw [frame]

theorem enter_info (counted : session.Counted) (args : List Arg) (name : String)
    (outside : session.info.insideTracedRegion = false) :
    (session.step (.enter name args)).info =
      { session.info with
        timerStack := (session.step (.enter name args)).info.timerStack
        log := (session.step (.enter name args)).info.log
        errs := (session.step (.enter name args)).info.errs
        outCount := (session.slots args).1.outCount
        outAliases := (session.slots args).1.outAliases } := by
  have frame : (session.slots args).1 = _ := outSlots_frame session.info (pointerContainers args)
  rw [info, enter_tracer counted args name outside]
  simp only [TraceInfo.pushTimer, TraceInfo.appendLines]
  rw [frame]

theorem silent_argStr : declaredIn (session.argStr args) = [] :=
  declaredIn_formatFrom _ _ _ _ _

theorem enter_declares (counted : session.Counted) (args : List Arg) (name : String)
    (outside : session.info.insideTracedRegion = false)
    (inside : since ≤ session.info.log.length) :
    declaredBy ((session.step (.enter name args)).info.log.drop since) =
      declaredBy (session.info.log.drop since) ++
        declaredBy (preamble (session.slots args).2) := by
  have last : declaredBy [Line.aborted name (session.argStr args)] = [] := by
    simp [declaredBy, Scoping.declared, silent_argStr]
  rw [enter_log counted args name outside, List.drop_append_of_le_length inside, declaredBy_append,
    declaredBy_append, last, List.append_nil]

theorem Scoped.enter_iff (scope : session.Scoped since) (counted : session.Counted)
    (name : String) (outside : session.info.insideTracedRegion = false) :
    SelfContained ((session.step (.enter name args)).info.log.drop since) ↔
      session.SeenSince since args := by
  have declared : ∀ ident, ident ∈ Scoping.declared Line.declares
      (session.info.log.drop since ++ preamble (session.slots args).2) ↔
      ident ∈ declaredBy (session.info.log.drop since) ∨
        ident ∈ declaredBy (preamble (session.slots args).2) := by
    intro ident
    rw [← List.mem_append, ← declaredBy_append]
  have opened : SelfContained
      (session.info.log.drop since ++ preamble (session.slots args).2) := by
    refine scope.closed.append ?_ ?_ ?_
    · intro line present name used
      obtain ⟨slot, _, rfl⟩ := List.mem_map.mp present
      cases used
    · rw [show Scoping.declared Line.declares (preamble (session.slots args).2) = _ from
        declaredBy_preamble _, (assigned session args).fresh]
      exact List.Nodup.map (fun _ _ same => Ident.out.inj same) List.nodup_range'
    · intro ident new already
      rw [show Scoping.declared Line.declares (preamble (session.slots args).2) = _ from
        declaredBy_preamble _, (assigned session args).fresh] at new
      obtain ⟨outIdx, listed, rfl⟩ := List.mem_map.mp new
      have bound := counted.out outIdx (mem_declaredBy_of_drop already)
      rw [List.mem_range'_1] at listed
      omega
  rw [enter_log counted args name outside, List.drop_append_of_le_length scope.inside,
    ← List.append_assoc, SelfContained, Scoping.selfContained_concat_iff]
  simp only [Line.uses_aborted, Line.declares_aborted, silent_argStr, List.nodup_nil,
    List.not_mem_nil, false_imp_iff, implies_true, and_true, opened, true_and]
  constructor
  · intro covered
    constructor
    · intro p argument handle named
      have used : .v handle ∈ usedIn (session.argStr args) :=
        mem_usedIn_argStr.mpr (Or.inl (List.mem_filterMap.mpr ⟨p, argument, by simp [named]⟩))
      rcases (declared _).mp (covered _ used) with before | new
      · exact (scope.handles handle (counted.handles p handle named)).mp before
      · rw [declaredBy_preamble] at new
        simp at new
    · intro addr argument outIdx aliased
      have used : .out outIdx ∈ usedIn (session.argStr args) :=
        mem_usedIn_argStr.mpr
          (Or.inr (Or.inr ⟨outIdx, (assigned session args).known addr argument outIdx aliased, rfl⟩))
      have bound := counted.aliases addr outIdx aliased
      rcases (declared _).mp (covered _ used) with before | new
      · exact (scope.outs outIdx bound).mp before
      · have := (mem_preamble.mp new).1
        omega
    · intro s member ends
      obtain ⟨code, present⟩ := straysOf_of_ends member ends
      have used : .stray code ∈ usedIn (session.argStr args) :=
        mem_usedIn_argStr.mpr (Or.inr (Or.inl present))
      rcases (declared _).mp (covered _ used) with before | new
      · exact counted.stray code (mem_declaredBy_of_drop before)
      · rw [declaredBy_preamble] at new
        simp at new
  · intro seen ident used
    rw [declared]
    rcases mem_usedIn_argStr.mp used with named | stray | ⟨outIdx, listed, rfl⟩
    · obtain ⟨p, argument, found⟩ := List.mem_filterMap.mp named
      obtain ⟨handle, known, rfl⟩ := Option.map_eq_some_iff.mp found
      exact Or.inl ((scope.handles handle (counted.handles p handle known)).mpr
        (seen.pointers p argument handle known))
    · obtain ⟨_, _, s, member, ends⟩ := mem_straysOf stray
      exact absurd ends (seen.literals s member)
    · rcases (assigned session args).source outIdx listed with first | ⟨addr, argument, aliased⟩
      · exact Or.inr (mem_preamble.mpr ((assigned session args).mem_fresh.mp first))
      · exact Or.inl ((scope.outs outIdx (counted.aliases addr outIdx aliased)).mpr
          (seen.containers addr argument outIdx aliased))

theorem Scoped.enter (scope : session.Scoped since) (counted : session.Counted)
    (name : String) (outside : session.info.insideTracedRegion = false)
    (seen : session.SeenSince since args) : (session.step (.enter name args)).Scoped since := by
  have declares := enter_declares counted args name outside scope.inside
  have noHandle : ∀ handle, .v handle ∉ declaredBy (preamble (session.slots args).2) := by
    intro handle
    rw [declaredBy_preamble]
    simp
  refine scope.extend ?_ ((scope.enter_iff counted name outside).mpr seen) ?_ ?_ ?_ ?_
  · rw [enter_log counted args name outside, List.length_append]
    omega
  · intro handle _
    rw [declares, List.mem_append]
    exact or_iff_left (noHandle handle)
  · intro handle new bound
    rw [enter_info counted args name outside] at bound
    exact absurd bound (by simpa using new)
  · intro outIdx old
    rw [declares, List.mem_append, mem_preamble]
    exact or_iff_left (by omega)
  · intro outIdx new bound
    rw [enter_info counted args name outside] at bound
    rw [declares, List.mem_append, mem_preamble]
    exact Or.inr ⟨new, bound⟩

theorem Counted.enter (counted : session.Counted) (name : String)
    (outside : session.info.insideTracedRegion = false) :
    (session.step (.enter name args)).Counted := by
  have frame := enter_info counted args name outside
  have log := enter_log counted args name outside
  have declares := enter_declares counted args name outside (Nat.zero_le _)
  rw [List.drop_zero, List.drop_zero] at declares
  have grown := (assigned session args).grown
  have bound : ∀ outIdx ∈ (session.slots args).2.map Prod.fst,
      outIdx < (session.slots args).1.outCount := by
    intro outIdx listed
    rcases (assigned session args).source outIdx listed with first | ⟨addr, _, aliased⟩
    · exact ((assigned session args).mem_fresh.mp first).2
    · exact Nat.lt_of_lt_of_le (counted.aliases addr outIdx aliased) grown
  have length : (session.step (.enter name args)).info.log.length =
      session.info.log.length + ((preamble (session.slots args).2).length + 1) := by
    rw [log]
    simp
  refine ⟨counted.nesting.step (.enter name args), ?_, ?_, ?_, ?_, ?_, ?_, ?_, ?_, ?_⟩
  · rw [frame]
    exact counted.handles
  · rw [frame]
    intro addr outIdx aliased
    rcases (assigned session args).added addr outIdx aliased with before | first
    · exact Nat.lt_of_lt_of_le (counted.aliases addr outIdx before) grown
    · exact ((assigned session args).mem_fresh.mp first).2
  · intro handle old slot found
    rw [frame] at old
    simp only [step, if_pos (show handle ≤ session.info.varCount from old)] at found
    have := counted.handedOut handle old slot found
    omega
  · intro outIdx _
    by_cases old : outIdx < session.info.outCount
    · simp only [step, old, if_true]
      have := counted.passed outIdx old
      simp only [step] at length
      omega
    · simp only [step, old, if_false]
      simp only [step] at length
      omega
  · intro handle declared
    rw [declares, List.mem_append, declaredBy_preamble] at declared
    rw [frame]
    exact counted.v handle (declared.resolve_right (by simp))
  · intro outIdx declared
    rw [declares, List.mem_append, mem_preamble] at declared
    rw [frame]
    rcases declared with before | first
    · exact Nat.lt_of_lt_of_le (counted.out outIdx before) grown
    · exact first.2
  · intro retIdx declared
    rw [declares, List.mem_append, declaredBy_preamble] at declared
    rw [frame]
    exact counted.ret retIdx (declared.resolve_right (by simp))
  · intro code declared
    rw [declares, List.mem_append, declaredBy_preamble] at declared
    exact counted.stray code (declared.resolve_right (by simp))
  · intro data present _
    rw [enter_tracer counted args name outside, List.mem_singleton] at present
    subst present
    refine ⟨?_, silent_argStr, ?_, ?_⟩
    · rw [log]
      simp
    · rw [List.length_map, (assigned session args).aligned]
    · intro outIdx listed
      refine ⟨?_, mem_usedIn_argStr.mpr (Or.inr (Or.inr ⟨outIdx, listed, rfl⟩)), ?_⟩
      · rw [frame]
        exact bound outIdx listed
      · by_cases old : outIdx < session.info.outCount
        · simp only [step, old, if_true]
          have := counted.passed outIdx old
          omega
        · simp only [step, old, if_false]
          omega

end Enter

section Leave

variable {data : TraceData} {val : Returned} {live : Address → List (Option Address)}

def added (session : TraceSession) (data : TraceData) (val : Returned)
    (live : Address → List (Option Address)) : List Line :=
  (registerResults session.info (data.record val) live).2.2

def rewritten (session : TraceSession) (data : TraceData) (val : Returned)
    (live : Address → List (Option Address)) : Line :=
  .completed (registerResults session.info (data.record val) live).2.1 data.name data.argStr

theorem leave_tracer (counted : session.Counted)
    (opened : session.tracer.regions.head? = some data) (top : data.nested = false) :
    (session.step (.leave val live)).tracer =
      ⟨((registerResults session.info (data.record val) live).1.withLog
          (session.info.log.set data.logIndex (session.rewritten data val live))
          session.info.errs).appendLines (session.added data val live), []⟩ :=
  counted.nesting.leave_eq opened top val live

theorem leave_log (counted : session.Counted)
    (opened : session.tracer.regions.head? = some data) (top : data.nested = false) :
    (session.step (.leave val live)).info.log =
      session.info.log.set data.logIndex (session.rewritten data val live) ++
        session.added data val live := by
  rw [info, leave_tracer counted opened top]
  rfl

theorem leave_info (counted : session.Counted)
    (opened : session.tracer.regions.head? = some data) (top : data.nested = false)
    (val : Returned) (live : Address → List (Option Address)) :
    (session.step (.leave val live)).info =
      { session.info with
        timerStack := (session.step (.leave val live)).info.timerStack
        log := (session.step (.leave val live)).info.log
        errs := (session.step (.leave val live)).info.errs
        retCount := if (data.record val).hasRetVec then session.info.retCount + 1
          else session.info.retCount
        handleMap := (registerResults session.info (data.record val) live).1.handleMap
        varCount := (registerResults session.info (data.record val) live).1.varCount } := by
  have names := registerResults_names session.info (data.record val) live
  rw [info, leave_tracer counted opened top]
  simp only [TraceInfo.appendLines, TraceInfo.withLog]
  rw [names.rest]
  rfl

def declaring (session : TraceSession) (data : TraceData) (val : Returned)
    (live : Address → List (Option Address)) : List Ident :=
  (session.rewritten data val live).declares ++ declaredBy (session.added data val live)

theorem Counted.leaving (counted : session.Counted)
    (opened : session.tracer.regions.head? = some data) (top : data.nested = false) :
    data.Unrecorded ∧ session.Reserved data := by
  have member : data ∈ session.tracer.regions := List.mem_of_head? opened
  exact ⟨counted.nesting.unrecorded data member, counted.reserved data member top⟩

theorem declaring_declares (unrecorded : data.Unrecorded) (reserved : session.Reserved data)
    (val : Returned) (live : Address → List (Option Address)) :
    Declares session.info (registerResults session.info (data.record val) live).1
      (data.record val) (session.declaring data val live) := by
  have declares := registerResults_declares session.info (data.record val) live
    (unrecorded.record val)
  have line : (session.rewritten data val live).declares =
      declaredIn (registerResults session.info (data.record val) live).2.1.tokens := by
    simp [rewritten, reserved.silent]
  rw [declaring, line]
  exact declares

theorem Counted.declaring_fresh (counted : session.Counted) (unrecorded : data.Unrecorded)
    (reserved : session.Reserved data) {ident : Ident}
    (new : ident ∈ session.declaring data val live) : ident ∉ declaredBy session.info.log := by
  have declares := declaring_declares unrecorded reserved val live
  intro already
  cases ident with
  | v handle =>
      have bound := counted.v handle already
      have range := (declares.handles handle).mp new
      omega
  | out outIdx => exact declares.outs outIdx new
  | ret retIdx =>
      have bound := counted.ret retIdx already
      have same := (declares.rets retIdx new).1
      omega
  | stray code => exact declares.strays code new

theorem leave_drop_from (counted : session.Counted)
    (opened : session.tracer.regions.head? = some data) (top : data.nested = false)
    (inside : since ≤ session.info.log.length) (slot : since ≤ data.logIndex) :
    (session.step (.leave val live)).info.log.drop since =
      (session.info.log.drop since).set (data.logIndex - since)
        (session.rewritten data val live) ++ session.added data val live := by
  rw [leave_log counted opened top, List.drop_append_of_le_length (by simpa using inside),
    List.drop_set, if_neg (by omega)]

theorem leave_drop_after (counted : session.Counted)
    (opened : session.tracer.regions.head? = some data) (top : data.nested = false)
    (inside : since ≤ session.info.log.length) (slot : data.logIndex < since) :
    (session.step (.leave val live)).info.log.drop since =
      session.info.log.drop since ++ session.added data val live := by
  rw [leave_log counted opened top, List.drop_append_of_le_length (by simpa using inside),
    List.drop_set, if_pos slot]

theorem Scoped.leave_from (scope : session.Scoped since) (counted : session.Counted)
    (opened : session.tracer.regions.head? = some data) (top : data.nested = false)
    (slot : since ≤ data.logIndex) (val : Returned) (live : Address → List (Option Address)) :
    SelfContained ((session.step (.leave val live)).info.log.drop since) ∧
      ∀ ident, ident ∈ declaredBy ((session.step (.leave val live)).info.log.drop since) ↔
        ident ∈ declaredBy (session.info.log.drop since) ∨
          ident ∈ session.declaring data val live := by
  obtain ⟨unrecorded, reserved⟩ := counted.leaving opened top
  have declares := declaring_declares unrecorded reserved val live
  have fresh : ∀ ident ∈ session.declaring data val live, ident ∉ declaredBy session.info.log :=
    fun _ => counted.declaring_fresh unrecorded reserved
  -- the placeholder is rewritten in place
  have at_slot : (session.info.log.drop since)[data.logIndex - since]? =
      some (.aborted data.name data.argStr) := by
    rw [List.getElem?_drop, show since + (data.logIndex - since) = data.logIndex by omega]
    exact reserved.line
  have silent : (Line.aborted data.name data.argStr).declares = [] := by
    rw [Line.declares_aborted, reserved.silent]
  have split : ∀ ident, ident ∈ session.declaring data val live ↔
      ident ∈ (session.rewritten data val live).declares ∨
        ident ∈ declaredBy (session.added data val live) := fun ident => List.mem_append
  have once := List.nodup_append.mp declares.once
  have inSlot : ∀ ident, ident ∈ Scoping.declared Line.declares ((session.info.log.drop since).set
      (data.logIndex - since) (session.rewritten data val live)) ↔
      ident ∈ declaredBy (session.info.log.drop since) ∨
        ident ∈ (session.rewritten data val live).declares := fun ident =>
    Scoping.mem_declared_set at_slot silent
  rw [leave_drop_from counted opened top scope.inside slot]
  constructor
  · have placed : SelfContained ((session.info.log.drop since).set (data.logIndex - since)
        (session.rewritten data val live)) := by
      refine scope.closed.set at_slot silent ?_ once.1 ?_
      · intro ident used
        simpa [rewritten] using used
      · intro ident new already
        exact fresh ident ((split ident).mpr (Or.inl new)) (mem_declaredBy_of_drop already)
    -- element lines read what the rewritten line or its preamble declares
    refine placed.append ?_ once.2.1 ?_
    · intro line present ident used
      rw [inSlot]
      rcases registerResults_uses session.info (data.record val) live (unrecorded.record val) line
        present with ⟨outIdx, listed, uses⟩ | ⟨uses, declared⟩
      · have same : ident = .out outIdx := by simpa [uses] using used
        subst same
        rw [data.record_frame val] at listed
        have before := scope.closed.earlier _ _ at_slot (.out outIdx)
          (by simpa using (reserved.outs outIdx listed).2.1)
        exact Or.inl (Scoping.mem_declared_of_take before)
      · have same : ident = .ret session.info.retCount := by simpa [uses] using used
        subst same
        exact Or.inr (by simpa [rewritten] using Or.inl declared)
    · intro ident new already
      rcases (inSlot ident).mp already with before | here
      · exact fresh ident ((split ident).mpr (Or.inr new)) (mem_declaredBy_of_drop before)
      · exact once.2.2 ident here ident new rfl
  · intro ident
    rw [declaredBy_append, List.mem_append, split, ← or_assoc]
    exact or_congr_left (inSlot ident)

theorem Scoped.leave_after (scope : session.Scoped since) (counted : session.Counted)
    (opened : session.tracer.regions.head? = some data) (top : data.nested = false)
    (slot : data.logIndex < since) :
    SelfContained ((session.step (.leave val live)).info.log.drop since) ↔
      session.added data val live = [] := by
  obtain ⟨unrecorded, reserved⟩ := counted.leaving opened top
  rw [leave_drop_after counted opened top scope.inside slot]
  constructor
  · intro closed
    cases lines : session.added data val live with
    | nil => rfl
    | cons line rest =>
        exfalso
        have first : line ∈ session.added data val live := by
          rw [lines]
          exact List.mem_cons_self
        rw [lines] at closed
        have covered := Scoping.SelfContained.covers_next closed
        rcases registerResults_uses session.info (data.record val) live (unrecorded.record val)
          line first with ⟨outIdx, listed, uses⟩ | ⟨uses, _⟩
        · rw [data.record_frame val] at listed
          obtain ⟨bound, _, early⟩ := reserved.outs outIdx listed
          have declared := covered (.out outIdx) (by rw [uses]; exact List.mem_cons_self)
          -- the slot was declared before the region, so the file lacks it
          have late := (scope.outs outIdx bound).mp declared
          omega
        · have declared := covered (.ret session.info.retCount)
            (by rw [uses]; exact List.mem_cons_self)
          have bound := counted.ret _ (mem_declaredBy_of_drop declared)
          omega
  · intro nothing
    rw [nothing, List.append_nil]
    exact scope.closed

theorem added_nil_iff (unrecorded : data.Unrecorded) (reserved : session.Reserved data) :
    session.added data val live = [] ↔ NothingNew session.info (data.record val) live := by
  refine registerResults_nil_iff session.info (data.record val) live (unrecorded.record val) ?_
  rw [data.record_frame val]
  exact reserved.aligned

theorem Scoped.leave_iff (scope : session.Scoped since) (counted : session.Counted)
    (opened : session.tracer.regions.head? = some data) (top : data.nested = false) :
    SelfContained ((session.step (.leave val live)).info.log.drop since) ↔
      since ≤ data.logIndex ∨ NothingNew session.info (data.record val) live := by
  obtain ⟨unrecorded, reserved⟩ := counted.leaving opened top
  by_cases slot : since ≤ data.logIndex
  · exact iff_of_true (scope.leave_from counted opened top slot val live).1 (Or.inl slot)
  · rw [scope.leave_after counted opened top (by omega), added_nil_iff unrecorded reserved]
    exact (or_iff_right slot).symm

theorem Scoped.leave (scope : session.Scoped since) (counted : session.Counted)
    (opened : session.tracer.regions.head? = some data) (top : data.nested = false)
    (allowed : since ≤ data.logIndex ∨ NothingNew session.info (data.record val) live) :
    (session.step (.leave val live)).Scoped since := by
  obtain ⟨unrecorded, reserved⟩ := counted.leaving opened top
  have declares := declaring_declares unrecorded reserved val live
  have frame := leave_info counted opened top val live
  have origin : session.origin (.leave val live) = some data.logIndex := by
    simp [TraceSession.origin, opened]
  have closed := (scope.leave_iff counted opened top).mpr allowed
  have longer : session.info.log.length ≤
      (session.step (.leave val live)).info.log.length := by
    rw [leave_log counted opened top, List.length_append, List.length_set]
    omega
  by_cases slot : since ≤ data.logIndex
  · have declared := (scope.leave_from counted opened top slot val live).2
    refine scope.extend longer closed ?_ ?_ ?_ ?_
    · intro handle old
      rw [declared]
      refine or_iff_left fun new => ?_
      have := (declares.handles handle).mp new
      omega
    · intro handle new bound
      rw [frame] at bound
      rw [declared, origin]
      exact iff_of_true (Or.inr ((declares.handles handle).mpr ⟨new, bound⟩)) ⟨_, rfl, slot⟩
    · intro outIdx _
      rw [declared]
      exact or_iff_left (declares.outs outIdx)
    · intro outIdx new bound
      rw [frame] at bound
      exact absurd bound (by simpa using new)
  · -- the call line itself lies before `since`
    have nothing := (scope.leave_after counted opened top (by omega)).mp closed
    have same : (session.step (.leave val live)).info.log.drop since =
        session.info.log.drop since := by
      rw [leave_drop_after counted opened top scope.inside (by omega), nothing, List.append_nil]
    refine scope.extend longer closed ?_ ?_ ?_ ?_
    · intro handle _
      rw [same]
    · intro handle new _
      rw [same, origin]
      refine iff_of_false ?_ ?_
      · intro found
        have := counted.v handle (mem_declaredBy_of_drop found)
        omega
      · rintro ⟨slot', found, late⟩
        cases found
        exact slot late
    · intro outIdx _
      rw [same]
    · intro outIdx new bound
      rw [frame] at bound
      exact absurd bound (by simpa using new)

theorem Counted.leave (counted : session.Counted) (whole : session.Scoped 0)
    (opened : session.tracer.regions.head? = some data) (top : data.nested = false) :
    (session.step (.leave val live)).Counted := by
  obtain ⟨unrecorded, reserved⟩ := counted.leaving opened top
  have declares := declaring_declares unrecorded reserved val live
  have names := registerResults_names session.info (data.record val) live
  have grown : session.info.varCount ≤
      (registerResults session.info (data.record val) live).1.varCount := names.grown
  have frame := leave_info counted opened top val live
  have declared := (whole.leave_from counted opened top (Nat.zero_le _) val live).2
  simp only [List.drop_zero] at declared
  have slot : data.logIndex < session.info.log.length :=
    (List.getElem?_eq_some_iff.mp reserved.line).1
  have longer : session.info.log.length ≤
      (session.step (.leave val live)).info.log.length := by
    rw [leave_log counted opened top, List.length_append, List.length_set]
    omega
  refine ⟨counted.nesting.step (.leave val live), ?_, ?_, ?_, ?_, ?_, ?_, ?_, ?_, ?_⟩
  · rw [frame]
    intro p handle found
    cases before : session.info.handleMap p with
    | none => exact (names.fresh p handle found before).2
    | some old =>
        have kept := names.kept p old before
        have same : handle = old := by
          have := found.symm.trans kept
          exact Option.some.inj this
        rw [same]
        exact Nat.le_trans (counted.handles p old before) grown
  · rw [frame]
    exact counted.aliases
  · intro handle _ slot' found
    by_cases old : handle ≤ session.info.varCount
    · simp only [step, old, if_true] at found
      have := counted.handedOut handle old slot' found
      omega
    · simp only [step, old, if_false, TraceSession.origin, opened, Option.map_some,
        Option.some.injEq] at found
      omega
  · rw [frame]
    intro outIdx bound
    have old : outIdx < session.info.outCount := bound
    have := counted.passed outIdx old
    simp only [step, old, if_true] at longer ⊢
    omega
  · intro handle found
    rw [frame]
    rcases (declared _).mp found with before | new
    · exact Nat.le_trans (counted.v handle before) grown
    · exact ((declares.handles handle).mp new).2
  · intro outIdx found
    rw [frame]
    exact counted.out outIdx (((declared _).mp found).resolve_right (declares.outs outIdx))
  · intro retIdx found
    rw [frame]
    rcases (declared _).mp found with before | new
    · have := counted.ret retIdx before
      by_cases vector : (data.record val).hasRetVec = true
      · simp only [vector, if_true]
        omega
      · simp only [vector, if_false, Bool.false_eq_true]
        omega
    · obtain ⟨same, vector⟩ := declares.rets retIdx new
      simp only [vector, if_true]
      omega
  · intro code found
    exact counted.stray code (((declared _).mp found).resolve_right (declares.strays code))
  · rw [leave_tracer counted opened top]
    intro other present
    cases present

end Leave

theorem replayable_of_lower (lower : ¬session.tracer.TopLevel op) : ReplayableSince since session op := by
  cases op with
  | enter name args => exact fun outside => absurd outside lower
  | leave val live => exact fun data opened top => absurd ⟨data, opened, top⟩ lower
  | _ => trivial

theorem Scoped.step_iff (scope : session.Scoped since) (counted : session.Counted) :
    SelfContained ((session.step op).info.log.drop since) ↔ ReplayableSince since session op := by
  obtain ⟨name, args, rfl, outside⟩ | ⟨val, live, data, rfl, opened, top⟩ |
    ⟨lower, lines, quiet⟩ := counted.nesting.step_cases op
  · rw [scope.enter_iff counted name outside]
    exact ⟨fun seen _ => seen, fun allowed => allowed outside⟩
  · rw [scope.leave_iff counted opened top]
    constructor
    · intro allowed other found _
      rw [opened] at found
      cases found
      exact allowed
    · exact fun allowed => allowed data opened top
  · exact iff_of_true (scope.quiet counted quiet).closed (replayable_of_lower lower)

theorem Scoped.step (scope : session.Scoped since) (counted : session.Counted)
    (allowed : ReplayableSince since session op) : (session.step op).Scoped since := by
  obtain ⟨name, args, rfl, outside⟩ | ⟨val, live, data, rfl, opened, top⟩ |
    ⟨_, lines, quiet⟩ := counted.nesting.step_cases op
  · exact scope.enter counted name outside (allowed outside)
  · exact scope.leave counted opened top (allowed data opened top)
  · exact scope.quiet counted quiet

theorem Counted.step (counted : session.Counted) (whole : session.Scoped 0) :
    (session.step op).Counted := by
  obtain ⟨name, args, rfl, outside⟩ | ⟨val, live, data, rfl, opened, top⟩ |
    ⟨_, lines, quiet⟩ := counted.nesting.step_cases op
  · exact counted.enter name outside
  · exact counted.leave whole opened top
  · exact counted.quiet quiet

def region (session : TraceSession) : Bool × Bool × Nat :=
  (session.info.inRegion, session.info.writeOnStdErr, session.info.regionStart)

theorem Counted.region_kept (counted : session.Counted)
    (noStart : ∀ writeOnStdErr, op ≠ .startRegion writeOnStdErr)
    (noStop : ∀ version opened, op ≠ .stopRegion version opened) :
    (session.step op).region = session.region := by
  have recording := counted.nesting.recording
  cases op with
  | enter name args =>
      cases inside : session.tracer.info.insideTracedRegion with
      | true =>
          simp only [region, TraceSession.step, info, Tracer.step, enter_nested _ _ _ inside]
          rfl
      | false =>
          rw [region, enter_info counted args name inside]
          rfl
  | leave val live =>
      cases opened : session.tracer.regions with
      | nil => simp only [region, TraceSession.step, info, Tracer.step, opened]
      | cons data regions =>
          cases nested : data.nested with
          | true =>
              simp only [region, TraceSession.step, info, Tracer.step, opened,
                leave_nested _ _ _ ((data.record_nested val).trans nested)]
              rfl
          | false =>
              have first : session.tracer.regions.head? = some data := by
                rw [opened]
                rfl
              rw [region, leave_info counted first nested]
              rfl
  | wrapperLine content =>
      simp only [region, TraceSession.step, info, Tracer.step, appendToLog_eq _ _ recording]
      rfl
  | invoke name nargs self =>
      simp only [region, TraceSession.step, info, Tracer.step, traceInvoke, appendToLog_eq _ _ recording]
      rfl
  | invokeDestructor name object nary withFree =>
      simp only [region, TraceSession.step, info, Tracer.step, traceInvokeDestructor,
        appendToLog_eq _ _ recording]
      rfl
  | invokeReturn registerPtr result =>
      have names := Tracer.traceInvokeReturn_names session.tracer.info registerPtr result
      simp only [region, TraceSession.step, info, Tracer.step]
      rw [names.rest]
  | writeToFile version opened =>
      simp only [region, TraceSession.step, info, Tracer.step, writeToFile_eq _ _ _ recording]
  | startRegion writeOnStdErr => exact absurd rfl (noStart writeOnStdErr)
  | stopRegion version opened => exact absurd rfl (noStop version opened)

theorem Counted.files_iff (counted : session.Counted) :
    session.FilesSelfContained ↔ SelfContained session.info.log ∧
      (session.info.FileRegion → SelfContained (session.info.log.drop session.info.regionStart)) := by
  constructor
  · intro files
    constructor
    · refine files (.writeToFile "" true) _ ?_
      simp only [Tracer.file, writeToFile_eq _ _ _ counted.nesting.recording]
      rfl
    · rintro ⟨inRegion, toFile⟩
      refine files (.stopRegion "" true) _ ?_
      have inside : session.tracer.info.inRegion = true := inRegion
      have silent : session.tracer.info.writeOnStdErr = false := toFile
      simp only [Tracer.file, stopRegion_snd, inside, silent, Bool.not_false, Bool.and_self,
        if_true]
      rfl
  · rintro ⟨whole, regionLines⟩ op lines written
    cases op with
    | writeToFile version opened =>
        simp only [Tracer.file, writeToFile_eq _ _ _ counted.nesting.recording] at written
        cases opened with
        | false => cases written
        | true =>
            simp only [if_true, Option.some.injEq] at written
            rw [← written]
            exact whole
    | stopRegion version opened =>
        simp only [Tracer.file, stopRegion_snd] at written
        by_cases region : (session.tracer.info.inRegion &&
            !session.tracer.info.writeOnStdErr && opened) = true
        · rw [if_pos region, Option.some.injEq] at written
          simp only [Bool.and_eq_true, Bool.not_eq_true'] at region
          rw [← written]
          exact regionLines ⟨region.1.1, region.1.2⟩
        · rw [if_neg region] at written
          cases written
    | _ => cases written

structure Traced (session : TraceSession) : Prop where
  counted : session.Counted
  whole : session.Scoped 0
  region : session.info.FileRegion → session.Scoped session.info.regionStart

theorem Traced.files (traced : session.Traced) : session.FilesSelfContained := by
  refine traced.counted.files_iff.mpr ⟨?_, fun open_region => (traced.region open_region).closed⟩
  simpa using traced.whole.closed

def Boundary (op : TraceOp) : Prop :=
  (∃ writeOnStdErr, op = .startRegion writeOnStdErr) ∨
    ∃ version opened, op = .stopRegion version opened

theorem Counted.scoped_at_end (counted : session.Counted) :
    session.Scoped session.info.log.length where
  inside := Nat.le_refl _
  closed := by
    rw [List.drop_length]
    exact Scoping.SelfContained.nil
  handles handle bound := by
    rw [List.drop_length]
    refine iff_of_false List.not_mem_nil ?_
    rintro ⟨slot, found, late⟩
    have := counted.handedOut handle bound slot found
    omega
  outs outIdx bound := by
    rw [List.drop_length]
    have := counted.passed outIdx bound
    exact iff_of_false List.not_mem_nil (by omega)

theorem Traced.boundary (traced : session.Traced) (boundary : Boundary op)
    (open_region : (session.step op).info.FileRegion) :
    (session.step op).Scoped (session.step op).info.regionStart := by
  have counted : (session.step op).Counted := traced.counted.step traced.whole
  rcases boundary with ⟨writeOnStdErr, rfl⟩ | ⟨version, opened, rfl⟩
  · exact counted.scoped_at_end
  · have closed : (session.step (.stopRegion version opened)).info.inRegion = false := by
      simp only [TraceSession.step, info, Tracer.step,
        stopRegion_fst _ _ _ traced.counted.nesting.recording]
    rw [FileRegion, closed] at open_region
    cases open_region.1

theorem replayable_of_boundary (boundary : Boundary op) : ReplayableSince since session op := by
  rcases boundary with ⟨writeOnStdErr, rfl⟩ | ⟨version, opened, rfl⟩ <;> trivial

theorem Traced.region_kept (traced : session.Traced) (inner : ¬Boundary op) :
    ((session.step op).info.FileRegion ↔ session.info.FileRegion) ∧
      (session.step op).info.regionStart = session.info.regionStart := by
  have kept : (session.step op).region = session.region := traced.counted.region_kept
    (fun writeOnStdErr same => inner (Or.inl ⟨writeOnStdErr, same⟩))
    (fun version opened same => inner (Or.inr ⟨version, opened, same⟩))
  simp only [TraceSession.region, Prod.mk.injEq] at kept
  refine ⟨?_, kept.2.2⟩
  rw [FileRegion, FileRegion, kept.1, kept.2.1]

theorem Traced.files_step_iff (traced : session.Traced) :
    (session.step op).FilesSelfContained ↔ session.Replayable op := by
  have wholeIff : SelfContained ((session.step op).info.log.drop 0) ↔ _ :=
    traced.whole.step_iff traced.counted
  rw [List.drop_zero] at wholeIff
  rw [(traced.counted.step traced.whole).files_iff, wholeIff, Replayable]
  refine and_congr_right fun _ => ?_
  by_cases boundary : Boundary op
  · refine iff_of_true ?_ fun _ => replayable_of_boundary boundary
    exact fun open_region => (traced.boundary boundary open_region).closed
  · obtain ⟨same, start⟩ := traced.region_kept boundary
    rw [same, start]
    exact imp_congr_right fun open_region => (traced.region open_region).step_iff traced.counted

theorem Traced.step (traced : session.Traced) (allowed : session.Replayable op) :
    (session.step op).Traced where
  counted := traced.counted.step traced.whole
  whole := traced.whole.step traced.counted allowed.1
  region open_region := by
    by_cases boundary : Boundary op
    · exact traced.boundary boundary open_region
    · obtain ⟨same, start⟩ := traced.region_kept boundary
      rw [start]
      have before := same.mp open_region
      exact (traced.region before).step traced.counted (allowed.2 before)

theorem Traced.start : ({} : TraceSession).Traced where
  counted := by
    refine ⟨Tracer.Nesting.start, ?_, ?_, ?_, ?_, ?_, ?_, ?_, ?_, ?_⟩
    · exact fun p handle found => nomatch found
    · exact fun addr outIdx found => nomatch found
    · exact fun handle _ slot found => nomatch found
    · exact fun outIdx bound => absurd bound (Nat.not_lt_zero _)
    · exact fun handle found => nomatch found
    · exact fun outIdx found => nomatch found
    · exact fun retIdx found => nomatch found
    · exact fun code found => nomatch found
    · exact fun data present => nomatch present
  whole := by
    refine ⟨Nat.le_refl _, Scoping.SelfContained.nil, ?_, ?_⟩
    · intro handle _
      refine iff_of_false List.not_mem_nil ?_
      rintro ⟨slot, found, _⟩
      cases found
    · exact fun outIdx bound => absurd bound (Nat.not_lt_zero _)
  region open_region := nomatch open_region.1

end TraceSession

/-- Every file a run can write is self-contained when each of its steps is replayable, and only then.
Stray code is not read here, so that the converse is said of runs without strings that end their own
literals. -/
theorem reproducer_selfContained_iff (ops : List TraceOp) :
    (Runs.EveryStep TraceSession.step TraceSession.Replayable {} ops →
        Runs.EveryState TraceSession.step TraceSession.FilesSelfContained {} ops) ∧
      ((∀ name args, .enter name args ∈ ops →
          ∀ s ∈ argStrings args, ¬ReproBuffer.rawEnd <:+: s.toList) →
        (Runs.EveryState TraceSession.step TraceSession.FilesSelfContained {} ops ↔
          Runs.EveryStep TraceSession.step TraceSession.Replayable {} ops)) := by
  have exact_steps : Runs.EveryState TraceSession.step TraceSession.FilesSelfContained {} ops ↔
      Runs.EveryStep TraceSession.step TraceSession.Replayable {} ops :=
    Runs.everyState_iff_everyStep TraceSession.Traced TraceSession.FilesSelfContained
      TraceSession.Traced.start (fun _ traced => traced.files)
      (fun _ _ traced _ => traced.files_step_iff)
      (fun _ _ traced _ allowed => traced.step allowed)
      (Runs.everyStep_of_forall fun _ _ => trivial)
  exact ⟨exact_steps.mpr, fun _ => exact_steps⟩

def jitCallRun : List TraceOp :=
  [.invokeReturn true (some 16), .enter "GetTypeAsString" [.input (.handle (some 16))],
    .leave .nothing fun _ => []]

theorem reproducer_undeclared :
    ¬∀ ops, Runs.EveryState TraceSession.step TraceSession.FilesSelfContained {} ops := by
  intro every
  have files := (every jitCallRun).last (.writeToFile "1.0" true) _ rfl
  have declared := files.earlier 0 _ rfl (.v 1) (by decide)
  revert declared
  decide

end CppInterOp
