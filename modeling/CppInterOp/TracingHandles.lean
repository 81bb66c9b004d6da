import CppInterOp.TracingRegister
import CppInterOp.Library.Runs

/-!
Which handles the tracer has names for once a call has completed: the classification of
results and OUT containers by their static type.
-/

namespace CppInterOp

open TraceInfo TraceRegion

def Arg.handleContainer : Arg → Option Address
  | .outContainer elem addr => elem.map fun _ => addr
  | _ => none

def handleContainers (args : List Arg) : List Address := args.filterMap Arg.handleContainer

def Arg.Raw : Arg → Prop
  | .outContainer (some type) _ => type.isPointer = true
  | _ => True

instance Arg.decidableRaw : (arg : Arg) → Decidable arg.Raw
  | .input _ => inferInstanceAs (Decidable True)
  | .outScalar => inferInstanceAs (Decidable True)
  | .outContainer none _ => inferInstanceAs (Decidable True)
  | .outContainer (some type) _ => inferInstanceAs (Decidable (type.isPointer = true))

def Ident.outNumber : Ident → Option Nat
  | .out number => some number
  | _ => none

def outNumbers (argStr : List Token) : List Nat := (usedIn argStr).filterMap Ident.outNumber

def Returned.handles : Returned → List Address
  | .handle _ p => p.toList
  | .vector _ ptrs => ptrs.filterMap id
  | _ => []

def handedBy (args : List Arg) (val : Returned) (live : Address → List (Option Address)) :
    List Address :=
  val.handles ++ (handleContainers args).flatMap fun container => (live container).filterMap id

section Format

variable (TI : TraceInfo)

theorem outNumbers_append (value : Value) :
    (usedIn (ReproBuffer.append TI value)).filterMap Ident.outNumber = [] := by
  rw [List.filterMap_eq_nil_iff]
  intro ident used
  rcases ((tokens_append TI value).1 ident).mp used with present | stray
  · obtain ⟨p, _, found⟩ := List.mem_filterMap.mp present
    obtain ⟨handle, _, rfl⟩ := Option.map_eq_some_iff.mp found
    rfl
  · obtain ⟨code, rfl, _⟩ := mem_straysOf stray
    rfl

theorem outNumbers_formatFrom (outIndices : List Nat) (first : Bool) (nextOut : Nat)
    (args : List Arg) :
    outNumbers (ReproBuffer.formatFrom TI outIndices first nextOut args) =
      (List.range' nextOut (pointerContainers args).length).map fun j => outIndices.getD j 0 := by
  induction args generalizing first nextOut with
  | nil => rfl
  | cons arg rest ih =>
      have comma : ∀ tokens, outNumbers ((if first = true then [] else [Token.text ", "]) ++
          tokens) = outNumbers tokens := by
        intro tokens
        cases first <;> simp [outNumbers]
      cases arg with
      | input value =>
          have tail := ih false nextOut
          simp only [outNumbers] at tail
          rw [ReproBuffer.formatFrom, List.append_assoc, comma, outNumbers, usedIn_append,
            List.filterMap_append, outNumbers_append, tail]
          rfl
      | outScalar =>
          rw [ReproBuffer.formatFrom, List.append_assoc, comma]
          exact ih false nextOut
      | outContainer elem addr =>
          by_cases pointer : elem.any HandleType.isPointer = true
          · have made : (makeOutParam elem addr).isPointerContainer = true := by
              simp [makeOutParam, pointer]
            have head : ∀ outIdx tokens, outNumbers ([.use (.out outIdx)] ++ tokens) =
                outIdx :: outNumbers tokens := fun _ _ => rfl
            rw [ReproBuffer.formatFrom]
            simp only [made, if_true]
            rw [List.append_assoc, comma, head, ih false (nextOut + 1),
              pointerContainers_pointer addr rest pointer, List.length_cons, List.range'_succ,
              List.map_cons]
          · have made : (makeOutParam elem addr).isPointerContainer = false := by
              simp [makeOutParam, pointer]
            rw [ReproBuffer.formatFrom]
            simp only [made, if_false, Bool.false_eq_true]
            rw [ih first nextOut, pointerContainers_skipped addr rest pointer]

theorem outNumbers_format (outIndices : List Nat) (args : List Arg)
    (aligned : outIndices.length = (pointerContainers args).length) :
    outNumbers (ReproBuffer.format TI outIndices args) = outIndices := by
  rw [ReproBuffer.format, outNumbers_formatFrom]
  apply List.ext_getElem
  · simp [aligned]
  · intro j _ bound
    simp [bound]

end Format

theorem pointerContainers_of_raw {args : List Arg} (raw : ∀ arg ∈ args, arg.Raw) :
    pointerContainers args = handleContainers args := by
  induction args with
  | nil => rfl
  | cons arg rest ih =>
      have tail := ih fun other present => raw other (List.mem_cons_of_mem _ present)
      cases arg with
      | input value => exact tail
      | outScalar => exact tail
      | outContainer elem addr =>
          cases elem with
          | none => exact tail
          | some type =>
              have pointer : type.isPointer = true := raw _ List.mem_cons_self
              rw [pointerContainers_pointer addr rest (by simpa using pointer), tail]
              rfl

theorem handleContainers_some (type : HandleType) (addr : Address) (rest : List Arg) :
    handleContainers (.outContainer (some type) addr :: rest) = addr :: handleContainers rest :=
  rfl

theorem pointerContainers_length_le (args : List Arg) :
    (pointerContainers args).length ≤ (handleContainers args).length := by
  induction args with
  | nil => exact Nat.le_refl _
  | cons arg rest ih =>
      cases arg with
      | input value => exact ih
      | outScalar => exact ih
      | outContainer elem addr =>
          cases elem with
          | none => exact ih
          | some type =>
              rw [handleContainers_some, List.length_cons]
              by_cases pointer : type.isPointer = true
              · rw [pointerContainers_pointer addr rest (by simpa using pointer), List.length_cons]
                omega
              · rw [pointerContainers_skipped addr rest (by simpa using pointer)]
                omega

theorem raw_of_length {args : List Arg}
    (same : (pointerContainers args).length = (handleContainers args).length) :
    ∀ arg ∈ args, arg.Raw := by
  induction args with
  | nil => simp
  | cons arg rest ih =>
      rw [List.forall_mem_cons]
      cases arg with
      | input value => exact ⟨trivial, ih same⟩
      | outScalar => exact ⟨trivial, ih same⟩
      | outContainer elem addr =>
          cases elem with
          | none => exact ⟨trivial, ih same⟩
          | some type =>
              rw [handleContainers_some, List.length_cons] at same
              by_cases pointer : type.isPointer = true
              · rw [pointerContainers_pointer addr rest (by simpa using pointer),
                  List.length_cons] at same
                exact ⟨pointer, ih (by omega)⟩
              · -- the skipped container leaves the argument list too short
                rw [pointerContainers_skipped addr rest (by simpa using pointer)] at same
                have := pointerContainers_length_le rest
                omega

namespace TraceRegion

theorem outSlots_aliases (TI : TraceInfo) (addrs : List Address) :
    ((outSlots TI addrs).2.map Prod.fst).map some =
      addrs.map (outSlots TI addrs).1.outAliases := by
  induction addrs generalizing TI with
  | nil => rfl
  | cons addr rest ih =>
      have here : (TI.outIndexFor addr).1.outAliases addr = some (TI.outIndexFor addr).2.1 := by
        cases known : TI.outAliases addr with
        | none => simp [outIndexFor_unknown known, addSlot]
        | some outIdx => simp [outIndexFor_known known, known]
      have later := (outSlots_slots (TI.outIndexFor addr).1 rest).kept addr _ here
      simp only [outSlots, List.map_cons, ih, later]

end TraceRegion

/-- A tracer with the arguments of the top-level call and the handles that completed
top-level calls have handed to their callers. -/
structure Ledger where
  tracer : Tracer := ⟨{}, []⟩
  call : List Arg := []
  handed : List Address := []

namespace Ledger

def info (ledger : Ledger) : TraceInfo := ledger.tracer.info

def callAfter (ledger : Ledger) : TraceOp → List Arg
  | .enter _ args => if ledger.info.insideTracedRegion then ledger.call else args
  | _ => ledger.call

def handedAfter (ledger : Ledger) : TraceOp → List Address
  | .leave val live =>
      match ledger.tracer.regions.head? with
      | some data =>
          if data.nested then ledger.handed
          else ledger.handed ++ handedBy ledger.call val live
      | none => ledger.handed
  | _ => ledger.handed

def step (ledger : Ledger) (op : TraceOp) : Ledger where
  tracer := ledger.tracer.step op
  call := ledger.callAfter op
  handed := ledger.handedAfter op

/-- Every handle handed out has a name, which a later call renders, and the argument list of
the open top-level call has one `_outN` for each OUT container of handles, in order. -/
structure Complete (ledger : Ledger) : Prop where
  registered : ∀ p ∈ ledger.handed, (ledger.info.handleMap p).isSome = true
  rendered : ∀ data ∈ ledger.tracer.regions, data.nested = false →
    (outNumbers data.argStr).map some =
      (handleContainers ledger.call).map ledger.info.outAliases
  known : ∀ p ∈ ledger.handed,
    ReproBuffer.appendPointer ledger.info (some p) ≠ [.text "nullptr /*unknown*/"]

/-- OUT containers of handles hold raw pointers, and a returned vector of handles is of a
type that is recorded or has no pointer that the tracer does not name anyway. -/
def Classified (ledger : Ledger) : TraceOp → Prop
  | .enter _ args => ledger.info.insideTracedRegion = false → ∀ arg ∈ args, arg.Raw
  | .leave (.vector elem ptrs) live =>
      ∀ data, ledger.tracer.regions.head? = some data → data.nested = false →
        (elem.isHandleVector || elem.isPointerVector) = true ∨
          ∀ p, some p ∈ ptrs → (ledger.info.handleMap p).isSome = true ∨
            ∃ container ∈ handleContainers ledger.call, some p ∈ live container
  | _ => True

structure Opened (ledger : Ledger) (data : TraceData) : Prop where
  containers : data.outCallbacks = handleContainers ledger.call
  aligned : data.outCallbacks.length = data.outIndices.length

structure Kept (ledger : Ledger) : Prop where
  nesting : ledger.tracer.Nesting
  complete : ledger.Complete
  opened : ∀ data ∈ ledger.tracer.regions, data.nested = false → ledger.Opened data

variable {ledger : Ledger} {op : TraceOp}

theorem renders_known {TI : TraceInfo} {p : Address} (registered : (TI.handleMap p).isSome = true) :
    ReproBuffer.appendPointer TI (some p) ≠ [.text "nullptr /*unknown*/"] := by
  obtain ⟨handle, found⟩ := Option.isSome_iff_exists.mp registered
  simp [ReproBuffer.appendPointer, lookupHandle, found]

theorem complete_iff :
    ledger.Complete ↔ (∀ p ∈ ledger.handed, (ledger.info.handleMap p).isSome = true) ∧
      ∀ data ∈ ledger.tracer.regions, data.nested = false →
        (outNumbers data.argStr).map some =
          (handleContainers ledger.call).map ledger.info.outAliases := by
  constructor
  · exact fun complete => ⟨complete.registered, complete.rendered⟩
  · rintro ⟨registered, rendered⟩
    exact ⟨registered, rendered, fun p present => renders_known (registered p present)⟩

theorem classified_of_lower (lower : ¬ledger.tracer.TopLevel op) : ledger.Classified op := by
  cases op with
  | enter name args => exact fun outside => absurd outside lower
  | leave val live =>
      cases val with
      | vector elem ptrs => exact fun data opened top => absurd ⟨data, opened, top⟩ lower
      | _ => trivial
  | _ => trivial

theorem Kept.quiet {lines : List Line} (kept : ledger.Kept)
    (lower : ¬ledger.tracer.TopLevel op) (quiet : ledger.tracer.Quiet op lines) :
    (ledger.step op).Kept := by
  have call : (ledger.step op).call = ledger.call := by
    cases op with
    | enter name args =>
        have inside : ledger.info.insideTracedRegion = true := by
          simpa [Tracer.TopLevel, info] using lower
        simp only [step, callAfter, inside, if_true]
    | _ => rfl
  have handed : (ledger.step op).handed = ledger.handed := by
    cases op with
    | leave val live =>
        simp only [step, handedAfter]
        cases opened : ledger.tracer.regions.head? with
        | none => rfl
        | some data =>
            cases nested : data.nested with
            | true => simp only [nested, if_true]
            | false => exact absurd ⟨data, opened, nested⟩ lower
    | _ => rfl
  have outAliases : (ledger.step op).info.outAliases = ledger.info.outAliases := quiet.outAliases
  refine ⟨kept.nesting.step op, complete_iff.mpr ⟨?_, ?_⟩, ?_⟩
  · rw [handed]
    intro p present
    obtain ⟨handle, found⟩ := Option.isSome_iff_exists.mp (kept.complete.registered p present)
    exact Option.isSome_iff_exists.mpr ⟨handle, quiet.kept p handle found⟩
  · rw [call, outAliases]
    exact fun data present top =>
      kept.complete.rendered data (quiet.regions data present top) top
  · intro data present top
    obtain ⟨containers, aligned⟩ := kept.opened data (quiet.regions data present top) top
    exact ⟨by rw [call]; exact containers, aligned⟩

section Enter

variable (kept : ledger.Kept) (name : String) (args : List Arg)
  (outside : ledger.info.insideTracedRegion = false)

include kept outside

theorem Kept.enter_frame :
    (ledger.step (.enter name args)).info.handleMap = ledger.info.handleMap ∧
      (ledger.step (.enter name args)).info.outAliases =
        (ledger.tracer.slots args).1.outAliases ∧
      (ledger.step (.enter name args)).call = args ∧
      ∃ data, (ledger.step (.enter name args)).tracer.regions = [data] ∧ data.nested = false ∧
        outNumbers data.argStr = (ledger.tracer.slots args).2.map Prod.fst ∧
        data.outCallbacks = pointerContainers args ∧
        data.outIndices = (ledger.tracer.slots args).2.map Prod.fst := by
  have next : (ledger.step (.enter name args)).tracer = _ :=
    kept.nesting.enter_eq args name outside
  have frame : (ledger.tracer.slots args).1 = _ :=
    outSlots_frame ledger.tracer.info (pointerContainers args)
  have slots : Slots ledger.tracer.info (pointerContainers args) (ledger.tracer.slots args).1
      (ledger.tracer.slots args).2 := outSlots_slots ledger.tracer.info (pointerContainers args)
  refine ⟨?_, ?_, ?_, ?_⟩
  · rw [info, next]
    simp only [TraceInfo.pushTimer, TraceInfo.appendLines]
    rw [frame]
    rfl
  · rw [info, next]
    rfl
  · simp only [Ledger.step, callAfter, outside, Bool.false_eq_true, if_false]
  · rw [next]
    exact ⟨_, rfl, rfl, outNumbers_format _ _ _ (by rw [List.length_map, slots.aligned]), rfl, rfl⟩

theorem Kept.enter_iff :
    (ledger.step (.enter name args)).Complete ↔ ∀ arg ∈ args, arg.Raw := by
  obtain ⟨handleMap, outAliases, call, data, regions, top, numbers, _, _⟩ :=
    kept.enter_frame name args outside
  have aliases : ((ledger.tracer.slots args).2.map Prod.fst).map some =
      (pointerContainers args).map (ledger.tracer.slots args).1.outAliases :=
    outSlots_aliases ledger.tracer.info (pointerContainers args)
  have handed : (ledger.step (.enter name args)).handed = ledger.handed := rfl
  rw [complete_iff, handleMap, outAliases, call, regions, handed]
  constructor
  · rintro ⟨_, rendered⟩
    have same := rendered data List.mem_cons_self top
    rw [numbers, aliases] at same
    exact raw_of_length (by simpa using congrArg List.length same)
  · intro raw
    refine ⟨kept.complete.registered, ?_⟩
    intro other present _
    rw [List.mem_singleton.mp present, numbers, aliases, pointerContainers_of_raw raw]

theorem Kept.enter (raw : ∀ arg ∈ args, arg.Raw) : (ledger.step (.enter name args)).Kept := by
  obtain ⟨_, _, call, data, regions, _, _, callbacks, indices⟩ :=
    kept.enter_frame name args outside
  refine ⟨kept.nesting.step (.enter name args), (kept.enter_iff name args outside).mpr raw, ?_⟩
  rw [regions]
  intro other present _
  rw [List.mem_singleton.mp present]
  refine ⟨by rw [callbacks, call, pointerContainers_of_raw raw], ?_⟩
  have slots : Slots ledger.tracer.info (pointerContainers args) (ledger.tracer.slots args).1
      (ledger.tracer.slots args).2 := outSlots_slots ledger.tracer.info (pointerContainers args)
  rw [callbacks, indices, List.length_map, slots.aligned]

end Enter

section Leave

variable {data : TraceData} (kept : ledger.Kept)
  (opened : ledger.tracer.regions.head? = some data) (top : data.nested = false)
  (val : Returned) (live : Address → List (Option Address))

include kept opened top

theorem Kept.leave_isSome (p : Address) :
    ((ledger.step (.leave val live)).info.handleMap p).isSome = true ↔
      (ledger.info.handleMap p).isSome = true ∨ (data.record val).result = some p ∨
        some p ∈ (data.record val).retVecPtrs ∨
        ∃ container ∈ handleContainers ledger.call, some p ∈ live container := by
  have member : data ∈ ledger.tracer.regions := List.mem_of_head? opened
  have unrecorded := kept.nesting.unrecorded data member
  obtain ⟨containers, aligned⟩ := kept.opened data member top
  have callbacks : (data.record val).outCallbacks = data.outCallbacks ∧
      (data.record val).outIndices = data.outIndices := by
    rw [data.record_frame val]
    exact ⟨rfl, rfl⟩
  have next : (ledger.step (.leave val live)).tracer = _ :=
    kept.nesting.leave_eq opened top val live
  have handleMap : (ledger.step (.leave val live)).info.handleMap =
      (registerResults ledger.tracer.info (data.record val) live).1.handleMap := by
    rw [info, next]
    rfl
  rw [handleMap, registerResults_isSome _ _ _ (unrecorded.record val)
    (by rw [callbacks.1, callbacks.2]; exact aligned), callbacks.1, containers]
  rfl

theorem Kept.leave_iff :
    (ledger.step (.leave val live)).Complete ↔ ledger.Classified (.leave val live) := by
  have unrecorded := kept.nesting.unrecorded data (List.mem_of_head? opened)
  have known := kept.leave_isSome opened top val live
  have regions : (ledger.step (.leave val live)).tracer.regions = [] := by
    have next : (ledger.step (.leave val live)).tracer = _ :=
      kept.nesting.leave_eq opened top val live
    rw [next]
  have handed : (ledger.step (.leave val live)).handed =
      ledger.handed ++ handedBy ledger.call val live := by
    simp only [Ledger.step, handedAfter, opened, top, Bool.false_eq_true, if_false]
  have elements : ∀ p, p ∈ ((handleContainers ledger.call).flatMap fun container =>
      (live container).filterMap id) ↔
      ∃ container ∈ handleContainers ledger.call, some p ∈ live container := by
    intro p
    simp
  -- OUT containers are covered, so what is left is the returned value
  have onlyResult : (ledger.step (.leave val live)).Complete ↔ ∀ p ∈ val.handles,
      ((ledger.step (.leave val live)).info.handleMap p).isSome = true := by
    rw [complete_iff, regions, handed, handedBy]
    constructor
    · intro complete p present
      exact complete.1 p (List.mem_append_right _ (List.mem_append_left _ present))
    · intro result
      refine ⟨?_, by simp⟩
      intro p present
      rcases List.mem_append.mp present with before | now
      · exact (known p).mpr (Or.inl (kept.complete.registered p before))
      · rcases List.mem_append.mp now with returned | element
        · exact result p returned
        · exact (known p).mpr (Or.inr (Or.inr (Or.inr ((elements p).mp element))))
  rw [onlyResult]
  cases val with
  | nothing => exact iff_of_true (by simp [Returned.handles]) trivial
  | nullptr => exact iff_of_true (by simp [Returned.handles]) trivial
  | handle type q =>
      refine iff_of_true ?_ trivial
      intro p present
      have recorded : (data.record (.handle type q)).result = q := by
        cases type <;> rfl
      refine (known p).mpr (Or.inr (Or.inl ?_))
      rw [recorded]
      simpa [Returned.handles] using present
  | vector elem ptrs =>
      have listed : ∀ p, p ∈ (Returned.vector elem ptrs).handles ↔ some p ∈ ptrs := by
        intro p
        simp [Returned.handles]
      by_cases kind : (elem.isHandleVector || elem.isPointerVector) = true
      · have recorded : (data.record (.vector elem ptrs)).retVecPtrs = ptrs := by
          simp only [TraceData.record, kind, if_true, unrecorded.retVecPtrs, List.nil_append]
        refine iff_of_true ?_ fun _ _ _ => Or.inl kind
        intro p present
        refine (known p).mpr (Or.inr (Or.inr (Or.inl ?_)))
        rw [recorded]
        exact (listed p).mp present
      · have skipped : (data.record (.vector elem ptrs)).result = none ∧
            (data.record (.vector elem ptrs)).retVecPtrs = [] := by
          simp only [TraceData.record, kind, if_false, Bool.false_eq_true]
          exact ⟨unrecorded.result, unrecorded.retVecPtrs⟩
        have named : ∀ p, ((ledger.step (.leave (.vector elem ptrs) live)).info.handleMap
            p).isSome = true ↔ (ledger.info.handleMap p).isSome = true ∨
              ∃ container ∈ handleContainers ledger.call, some p ∈ live container := by
          intro p
          rw [known p, skipped.1, skipped.2]
          simp
        constructor
        · intro registered other found _
          exact Or.inr fun p present => (named p).mp (registered p ((listed p).mpr present))
        · intro classified p present
          have covered := (classified data opened top).resolve_left kind
          exact (named p).mpr (covered p ((listed p).mp present))

theorem Kept.leave (classified : ledger.Classified (.leave val live)) :
    (ledger.step (.leave val live)).Kept := by
  refine ⟨kept.nesting.step (.leave val live), (kept.leave_iff opened top val live).mpr classified,
    ?_⟩
  have next : (ledger.step (.leave val live)).tracer = _ :=
    kept.nesting.leave_eq opened top val live
  rw [next]
  intro other present
  cases present

end Leave

theorem Kept.step_iff (kept : ledger.Kept) :
    (ledger.step op).Complete ↔ ledger.Classified op := by
  obtain ⟨name, args, rfl, outside⟩ | ⟨val, live, data, rfl, opened, top⟩ |
    ⟨lower, lines, quiet⟩ := kept.nesting.step_cases op
  · rw [kept.enter_iff name args outside]
    exact ⟨fun raw _ => raw, fun classified => classified outside⟩
  · exact kept.leave_iff opened top val live
  · exact iff_of_true (kept.quiet lower quiet).complete (classified_of_lower lower)

theorem Kept.step (kept : ledger.Kept) (classified : ledger.Classified op) :
    (ledger.step op).Kept := by
  obtain ⟨name, args, rfl, outside⟩ | ⟨val, live, data, rfl, opened, top⟩ |
    ⟨lower, lines, quiet⟩ := kept.nesting.step_cases op
  · exact kept.enter name args outside (classified outside)
  · exact kept.leave opened top val live classified
  · exact kept.quiet lower quiet

theorem Kept.start : ({} : Ledger).Kept where
  nesting := Tracer.Nesting.start
  complete := complete_iff.mpr ⟨by simp, by simp⟩
  opened data present := nomatch present

end Ledger

/-- A run names every handle it hands out, and renders every OUT container of handles,
exactly when the tracer's type traits cover the handles of each of its calls. -/
theorem handles_complete_iff (ops : List TraceOp) :
    Runs.EveryState Ledger.step Ledger.Complete {} ops ↔
      Runs.EveryStep Ledger.step Ledger.Classified {} ops :=
  Runs.everyState_iff_everyStep Ledger.Kept Ledger.Complete Ledger.Kept.start
    (fun _ kept => kept.complete) (fun _ _ kept _ => kept.step_iff)
    (fun _ _ kept _ classified => kept.step classified)
    (Runs.everyStep_of_forall fun _ _ => trivial)

def classMethodsRun : List TraceOp :=
  [.enter "GetClassMethods" [.input (.handle (some 8)), .outContainer (some .FuncRef) 64],
    .leave .nothing fun _ => [some 16]]

theorem handles_skipped : ¬∀ ops, Runs.EveryState Ledger.step Ledger.Complete {} ops := by
  intro every
  have registered := (every classMethodsRun).last.registered 16 (by decide)
  revert registered
  decide

end CppInterOp
