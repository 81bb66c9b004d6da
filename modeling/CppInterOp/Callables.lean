import CppInterOp.Library.Memos
import CppInterOp.WrapperTexts

/-!
Making functions callable: wrappers are generated and compiled on request, under names of their own,
and kept once they compile.
-/

namespace CppInterOp

open Branching Memos

inductive TemplatedKind
  | TK_NonTemplate
  | TK_FunctionTemplate
  | TK_MemberSpecialization
  | TK_FunctionTemplateSpecialization
  | TK_DependentFunctionTemplateSpecialization
  | TK_DependentNonTemplate
  deriving DecidableEq, Repr

inductive TemplateSpecializationKind
  | TSK_Undeclared
  | TSK_ImplicitInstantiation
  | TSK_ExplicitSpecialization
  | TSK_ExplicitInstantiationDeclaration
  | TSK_ExplicitInstantiationDefinition
  deriving DecidableEq, Repr

structure FunctionDefinition where
  templatedKind : TemplatedKind
  isDeleted : Bool
  isLateTemplateParsed : Bool
  deriving DecidableEq, Repr

structure InstantiationPattern where
  templatedKind : TemplatedKind
  specializationKind : TemplateSpecializationKind
  hasBody : Bool
  deriving DecidableEq, Repr

/-- What is known of the definition of a function. `hasAddress` is whether `GetFunctionAddress` finds
one. -/
structure DefinitionStatus where
  definition : Option FunctionDefinition
  templatedKind : TemplatedKind
  isTemplateInstantiation : Bool
  pattern : Option InstantiationPattern
  isImplicitlyInstantiable : Bool
  hasAddress : Bool
  deriving DecidableEq, Repr

def InstantiationPattern.isOrdinary (pattern : InstantiationPattern) : Bool :=
  pattern.templatedKind == .TK_NonTemplate ||
    (pattern.templatedKind != .TK_FunctionTemplate &&
      (pattern.specializationKind == .TSK_Undeclared ||
        pattern.specializationKind == .TSK_ExplicitSpecialization))

/-- `none` is a function that no wrapper can be made for. -/
def DefinitionStatus.needInstantiation (status : DefinitionStatus) : Option Bool :=
  if status.definition.isSome then some false
  else
    match status.templatedKind with
    | .TK_NonTemplate => some false
    | .TK_FunctionTemplate | .TK_DependentNonTemplate => none
    | kind =>
        if !status.isTemplateInstantiation then some false
        else
          match status.pattern with
          | none => none
          | some pattern =>
              if pattern.isOrdinary then some false
              else if kind == .TK_FunctionTemplateSpecialization && status.hasAddress then some false
              else if !pattern.hasBody then none
              else some status.isImplicitlyInstantiable

def FunctionDefinition.isCallable (definition : FunctionDefinition) : Bool :=
  match definition.templatedKind with
  | .TK_FunctionTemplate | .TK_DependentNonTemplate => false
  | _ => !definition.isDeleted && !definition.isLateTemplateParsed

inductive WrapperPrefix
  | __jc
  | __dtor
  deriving DecidableEq, Repr

structure WrapperName where
  structor : WrapperPrefix
  serial : Nat
  deriving DecidableEq, Repr

inductive WrapperSource (Func Class : Type)
  | call (FD : Func) (code : WrapperText)
  | destruct (D : Class)

structure WrapperUnit (Func Class : Type) where
  wrapper_name : WrapperName
  wrapper : WrapperSource Func Class
  withAccessControl : Bool

structure CompilerHost (World Interp Func Class Addr : Type) where
  function : Func → TypedFunction
  status : World → Func → DefinitionStatus
  InstantiateFunctionDefinition : World → Func → World
  compileFunction : World → Interp → WrapperUnit Func Class → Option Addr × World

inductive StoreKey (Interp Func Class : Type)
  | WrapperStore (I : Interp) (FD : Func)
  | DtorWrapperStore (I : Interp) (D : Class)
  deriving DecidableEq

inductive CallTarget (Func Class : Type)
  | function (FD : Func)
  | destructor (Dtor : Func) (parent : Class)
  deriving DecidableEq

structure CallRequest (Interp Func Class : Type) where
  interp : Interp
  target : CallTarget Func Class
  isUsingShadow : Bool
  deriving DecidableEq

/-- `compiled` is the history of what was handed to the compiler, not kept by the program. -/
structure WrapperWorld (World Interp Func Class : Type) where
  host : World
  gWrapperSerial : WrapperSerial
  compiled : List (Interp × WrapperUnit Func Class)

namespace CallRequest

variable {Interp Func Class : Type}

def key (request : CallRequest Interp Func Class) : StoreKey Interp Func Class :=
  match request.target with
  | .function FD => .WrapperStore request.interp FD
  | .destructor _ parent => .DtorWrapperStore request.interp parent

end CallRequest

namespace CompilerHost

variable {World Interp Func Class Addr : Type} (host : CompilerHost World Interp Func Class Addr)

def canGenerate (world : World) (FD : Func) : Bool × World :=
  match (host.status world FD).needInstantiation with
  | none => (false, world)
  | some need =>
      let instantiated := if need then host.InstantiateFunctionDefinition world FD else world
      let Definition := (host.status instantiated FD).definition
      (!(need && Definition.isNone) && Definition.all FunctionDefinition.isCallable, instantiated)

def compile_wrapper (world : WrapperWorld World Interp Func Class) (I : Interp)
    (source : WrapperUnit Func Class) : Option Addr × WrapperWorld World Interp Func Class :=
  let (wrapper, after) := host.compileFunction world.host I source
  (wrapper, { world with host := after, compiled := world.compiled ++ [(I, source)] })

def withAccessControl (FD : Func) (relaxAccessControl : Bool) : Bool :=
  !relaxAccessControl && !(host.function FD).erase.isDefaultConstructor

def make_wrapper (world : WrapperWorld World Interp Func Class) (I : Interp) (FD : Func)
    (relaxAccessControl : Bool) : Option Addr × WrapperWorld World Interp Func Class :=
  match host.canGenerate world.host FD with
  | (false, after) => (none, { world with host := after })
  | (true, after) =>
      let (code, last) := (host.function FD).get_wrapper_code world.gWrapperSerial
      host.compile_wrapper { world with host := after, gWrapperSerial := last } I
        ⟨⟨.__jc, world.gWrapperSerial.drawn⟩, .call FD code,
          host.withAccessControl FD relaxAccessControl⟩

def make_dtor_wrapper (world : WrapperWorld World Interp Func Class) (I : Interp) (D : Class) :
    Option Addr × WrapperWorld World Interp Func Class :=
  host.compile_wrapper { world with gWrapperSerial := world.gWrapperSerial + 1 } I
    ⟨⟨.__dtor, world.gWrapperSerial.drawn⟩, .destruct D, false⟩

def wrappers : Maker (WrapperWorld World Interp Func Class) (CallRequest Interp Func Class)
    (StoreKey Interp Func Class) Addr where
  key := CallRequest.key
  make world request :=
    match request.target with
    | .function FD => host.make_wrapper world request.interp FD request.isUsingShadow
    | .destructor _ parent => host.make_dtor_wrapper world request.interp parent

section Issuing

/-- What is compiled has names of serials drawn since the first, in their order, and code that was
made with serials drawn in between. -/
structure Issued (host : CompilerHost World Interp Func Class Addr) (first : Nat)
    (world : WrapperWorld World Interp Func Class) : Prop where
  le : first ≤ world.gWrapperSerial
  names : (world.compiled.map fun entry => entry.2.wrapper_name.serial).Sublist
    ((List.range' first (world.gWrapperSerial - first)).map WrapperSerial.drawn)
  codes : ∀ entry ∈ world.compiled, ∀ FD code, entry.2.wrapper = .call FD code →
    ∃ serial, first ≤ serial ∧ ((host.function FD).get_wrapper_code serial).2 ≤ world.gWrapperSerial ∧
      code = ((host.function FD).get_wrapper_code serial).1

variable {host} {first : Nat} {world : WrapperWorld World Interp Func Class}

theorem Issued.compile (issued : Issued host first world) {later : World} {last : Nat}
    (draws : world.gWrapperSerial < last) (I : Interp) {source : WrapperUnit Func Class}
    (name : source.wrapper_name.serial = WrapperSerial.drawn world.gWrapperSerial)
    (code : ∀ FD code, source.wrapper = .call FD code →
      ((host.function FD).get_wrapper_code world.gWrapperSerial).2 = last ∧
        code = ((host.function FD).get_wrapper_code world.gWrapperSerial).1) :
    Issued host first (host.compile_wrapper
      { world with host := later, gWrapperSerial := last } I source).2 := by
  have ordered := issued.le
  refine ⟨Nat.le_trans ordered (Nat.le_of_lt draws), ?_, ?_⟩
  · change ((world.compiled ++ [(I, source)]).map fun entry => entry.2.wrapper_name.serial).Sublist
      ((List.range' first (last - first)).map WrapperSerial.drawn)
    obtain ⟨more, starts⟩ := Counters.range'_starts draws
    rw [Counters.range'_split ordered (Nat.le_of_lt draws), starts, List.map_append,
      List.map_append]
    refine issued.names.append ?_
    rw [List.map_cons, List.map_cons, name]
    exact List.Sublist.cons_cons _ (List.nil_sublist _)
  · intro entry member FD text called
    rcases List.mem_append.mp member with before | now
    · obtain ⟨serial, begins, ends, made⟩ := issued.codes entry before FD text called
      exact ⟨serial, begins, Nat.le_trans ends (Nat.le_of_lt draws), made⟩
    · rw [List.mem_singleton.mp now] at called
      obtain ⟨ends, made⟩ := code FD text called
      exact ⟨world.gWrapperSerial, ordered, Nat.le_of_eq ends, made⟩

theorem Issued.make (issued : Issued host first world) (request : CallRequest Interp Func Class) :
    Issued host first (host.wrappers.make world request).2 := by
  change Issued host first (match request.target with
    | .function FD => host.make_wrapper world request.interp FD request.isUsingShadow
    | .destructor _ parent => host.make_dtor_wrapper world request.interp parent).2
  cases request.target with
  | destructor Dtor parent =>
      refine issued.compile (Nat.lt_succ_self _) _ rfl ?_
      intro FD code called
      cases called
  | function FD =>
      dsimp only
      rw [make_wrapper]
      split
      · exact ⟨issued.le, issued.names, issued.codes⟩
      · refine issued.compile TypedFunction.serial_lt_get_wrapper_code _ rfl ?_
        intro FD' code called
        cases called
        exact ⟨rfl, rfl⟩

end Issuing

section Verdicts

/-- A host whose verdicts do not change: a function is generated or not, and its wrapper compiles in an
interpreter when it is well formed there and reaches what it names. -/
structure Verdicts (host : CompilerHost World Interp Func Class Addr)
    (generates : Func → Bool) (wellFormed : Interp → Func → Bool) (accessible : Func → Bool)
    (destroys : Interp → Class → Bool) : Prop where
  generated : ∀ world FD, (host.canGenerate world FD).1 = generates FD
  compiled : ∀ world I name FD code access,
    (host.compileFunction world I ⟨name, .call FD code, access⟩).1.isSome =
      (wellFormed I FD && (!access || accessible FD))
  destroyed : ∀ world I name D access,
    (host.compileFunction world I ⟨name, .destruct D, access⟩).1.isSome = destroys I D

variable {host} {generates accessible : Func → Bool} {wellFormed : Interp → Func → Bool}
  {destroys : Interp → Class → Bool}

def succeeds (host : CompilerHost World Interp Func Class Addr)
    (generates : Func → Bool) (wellFormed : Interp → Func → Bool) (accessible : Func → Bool)
    (destroys : Interp → Class → Bool) (request : CallRequest Interp Func Class) : Bool :=
  match request.target with
  | .function FD =>
      generates FD && (wellFormed request.interp FD &&
        (!host.withAccessControl FD request.isUsingShadow || accessible FD))
  | .destructor _ parent => destroys request.interp parent

theorem Verdicts.decided (verdicts : host.Verdicts generates wellFormed accessible destroys)
    (world : WrapperWorld World Interp Func Class) (request : CallRequest Interp Func Class) :
    (host.wrappers.make world request).1.isSome =
      host.succeeds generates wellFormed accessible destroys request := by
  change Option.isSome (match request.target with
    | .function FD => host.make_wrapper world request.interp FD request.isUsingShadow
    | .destructor _ parent => host.make_dtor_wrapper world request.interp parent).1 = _
  rw [succeeds]
  cases request.target with
  | destructor Dtor parent => exact verdicts.destroyed ..
  | function FD =>
      have generated := verdicts.generated world.host FD
      dsimp only
      rw [make_wrapper, ← generated]
      split
      · next refused =>
          rw [refused]
          rfl
      · next made =>
          rw [made, Bool.true_and]
          exact verdicts.compiled ..

theorem key_eq_iff {earlier request : CallRequest Interp Func Class} {FD : Func}
    (target : request.target = .function FD) :
    earlier.key = request.key ↔ earlier.interp = request.interp ∧ earlier.target = .function FD := by
  rw [CallRequest.key, CallRequest.key, target]
  cases earlier.target with
  | destructor Dtor parent => simp
  | function other => simp

theorem succeeds_function {earlier : CallRequest Interp Func Class} {FD : Func}
    (target : earlier.target = .function FD) :
    host.succeeds generates wellFormed accessible destroys earlier = true ↔
      generates FD = true ∧ wellFormed earlier.interp FD = true ∧
        (accessible FD = true ∨ (host.function FD).erase.isDefaultConstructor = true ∨
          earlier.isUsingShadow = true) := by
  rw [succeeds, target]
  simp only [withAccessControl, Bool.and_eq_true, Bool.or_eq_true, Bool.not_eq_true',
    Bool.and_eq_false_iff, Bool.not_eq_false']
  tauto

end Verdicts

end CompilerHost

inductive JitCallKind
  | kUnknown
  | kGenericCall
  | kConstructorCall
  | kDestructorCall
  deriving DecidableEq, Repr

structure JitCall (Func Addr : Type) where
  m_Kind : JitCallKind := .kUnknown
  wrapper : Option Addr := none
  m_FD : Option Func := none
  deriving DecidableEq

def JitCall.isValid {Func Addr : Type} (call : JitCall Func Addr) : Bool :=
  call.m_Kind != .kUnknown

namespace CompilerHost

section

variable {World Interp Func Class Addr : Type} (host : CompilerHost World Interp Func Class Addr)

def jitCall (target : CallTarget Func Class) (wrapper : Addr) : JitCall Func Addr :=
  match target with
  | .destructor Dtor _ => ⟨.kDestructorCall, some wrapper, some Dtor⟩
  | .function FD =>
      if (host.function FD).isConstructor then ⟨.kConstructorCall, some wrapper, some FD⟩
      else ⟨.kGenericCall, some wrapper, some FD⟩

variable {host}

theorem jitCall_isValid (target : CallTarget Func Class) (wrapper : Addr) :
    (host.jitCall target wrapper).isValid = true := by
  cases target with
  | destructor Dtor parent => rfl
  | function FD =>
      rw [jitCall]
      split
      · rfl
      · rfl

theorem jitCall_wrapper (target : CallTarget Func Class) (wrapper : Addr) :
    (host.jitCall target wrapper).wrapper = some wrapper := by
  cases target with
  | destructor Dtor parent => rfl
  | function FD =>
      rw [jitCall]
      split
      · rfl
      · rfl

end

variable {World Interp Func Class Addr : Type} [DecidableEq Interp] [DecidableEq Func]
  [DecidableEq Class] (host : CompilerHost World Interp Func Class Addr)

/-- `func` is a function, or a using-declaration that introduces one, which the request says. -/
def MakeFunctionCallable
    (state : Memo (WrapperWorld World Interp Func Class) (StoreKey Interp Func Class) Addr)
    (func : Option (CallRequest Interp Func Class)) :
    JitCall Func Addr ×
      Memo (WrapperWorld World Interp Func Class) (StoreKey Interp Func Class) Addr :=
  match func with
  | none => ({}, state)
  | some request =>
      match host.wrappers.serve state request with
      | (some wrapper, after) => (host.jitCall request.target wrapper, after)
      | (none, after) => ({}, after)

/-- What happens one after the other: requests, and whatever else happens to the interpreters, except
that one is activated or deleted. -/
inductive Activity (World Interp Func Class : Type)
  | request (request : CallRequest Interp Func Class)
  | elsewhere (change : World → World)

def Activity.event : Activity World Interp Func Class →
    Event (WrapperWorld World Interp Func Class) (CallRequest Interp Func Class)
  | request asked => .request asked
  | elsewhere change => .outside fun world => { world with host := change world.host }

abbrev CallableState (World Interp Func Class Addr : Type) :=
  Memo (WrapperWorld World Interp Func Class) (StoreKey Interp Func Class) Addr

def initial (world : World) : CallableState World Interp Func Class Addr :=
  ⟨⟨world, 0, []⟩, []⟩

def after (state : CallableState World Interp Func Class Addr)
    (activities : List (Activity World Interp Func Class)) :
    CallableState World Interp Func Class Addr :=
  Runs.run host.wrappers.step state (activities.map Activity.event)

variable {host} {state : CallableState World Interp Func Class Addr}

/-- The answer is valid when there is a wrapper, and calls it. -/
theorem makeFunctionCallable_wrapper (request : CallRequest Interp Func Class) :
    (host.MakeFunctionCallable state (some request)).1.isValid =
        (host.wrappers.serve state request).1.isSome ∧
      (host.MakeFunctionCallable state (some request)).1.wrapper =
        (host.wrappers.serve state request).1 ∧
      (host.MakeFunctionCallable state (some request)).2 =
        (host.wrappers.serve state request).2 := by
  rw [MakeFunctionCallable]
  split
  · next wrapper later served =>
      rw [served]
      exact ⟨jitCall_isValid _ _, jitCall_wrapper _ _, rfl⟩
  · next later served =>
      rw [served]
      exact ⟨rfl, rfl, rfl⟩

/-- Once a function is callable in an interpreter, it stays so through the same wrapper, also where it
is asked for in another way, and whatever happens in between. -/
theorem makeFunctionCallable_stays {request other : CallRequest Interp Func Class}
    (same : other.key = request.key)
    (valid : (host.MakeFunctionCallable state (some request)).1.isValid = true)
    (activities : List (Activity World Interp Func Class)) :
    (host.MakeFunctionCallable
        (host.after (host.MakeFunctionCallable state (some request)).2 activities)
        (some other)).1.isValid = true ∧
      (host.MakeFunctionCallable
        (host.after (host.MakeFunctionCallable state (some request)).2 activities)
        (some other)).1.wrapper =
          (host.MakeFunctionCallable state (some request)).1.wrapper := by
  obtain ⟨validity, wrapper, stored⟩ := @makeFunctionCallable_wrapper _ _ _ _ _ _ _ _ host state request
  rw [validity] at valid
  obtain ⟨made, answered⟩ := Option.isSome_iff_exists.mp valid
  have later := @Maker.answer_keeps _ _ _ _ _ host.wrappers state (activities.map Activity.event)
    request other made same answered
  rw [wrapper, stored, after]
  obtain ⟨validity', wrapper', _⟩ := @makeFunctionCallable_wrapper _ _ _ _ _ _ _ _ host
    (Runs.run host.wrappers.step (host.wrappers.serve state request).2
      (activities.map Activity.event)) other
  rw [validity', wrapper', later, answered]
  exact ⟨rfl, rfl⟩

theorem issued_after (start : World) (activities : List (Activity World Interp Func Class)) :
    Issued host 0 (host.after (initial start) activities).world := by
  refine Maker.run_world (Issued host 0) (fun _ request issued => issued.make request) ?_ ?_
  · intro change member world issued
    obtain ⟨activity, _, same⟩ := List.mem_map.mp member
    cases activity with
    | request asked => cases same
    | elsewhere moves =>
        cases same
        exact ⟨issued.le, issued.names, issued.codes⟩
  · exact ⟨Nat.le_refl _, List.nil_sublist _, fun entry member => absurd member List.not_mem_nil⟩

/-- No two wrappers that are ever compiled have the same name, whatever interpreters they are compiled
in, and the code of each has its typedefs in scope, until the serials start again. -/
theorem compiled_distinct (start : World) (activities : List (Activity World Interp Func Class))
    (few : (host.after (initial start) activities).world.gWrapperSerial ≤ UInt64.size) :
    ((host.after (initial start) activities).world.compiled.map
        fun entry => entry.2.wrapper_name).Nodup ∧
      ∀ entry ∈ (host.after (initial start) activities).world.compiled,
        ∀ FD code, entry.2.wrapper = .call FD code →
          code.DistinctBlocks TextPiece.binds ∧
            code.AtEach TextPiece.binds (host.function FD).Scoped [] := by
  have issued := @issued_after _ _ _ _ _ _ _ _ host start activities
  constructor
  · have distinct := (Counters.nodup_drawn_iff (by decide) 0 _).mpr (Nat.le_trans (Nat.sub_le _ 0) few)
    have serials := List.Nodup.sublist issued.names distinct
    rw [show (fun entry : Interp × WrapperUnit Func Class => entry.2.wrapper_name.serial) =
      WrapperName.serial ∘ fun entry => entry.2.wrapper_name from rfl, ← List.map_map] at serials
    exact serials.of_map
  · intro entry member FD code called
    obtain ⟨serial, _, ends, made⟩ := issued.codes entry member FD code called
    have few := Nat.le_trans (Nat.sub_le _ serial) (Nat.le_trans ends few)
    rw [made]
    exact ⟨TypedFunction.distinctBlocks_get_wrapper_code few,
      TypedFunction.scoped_get_wrapper_code few⟩

section Access

variable {generates accessible : Func → Bool} {wellFormed : Interp → Func → Bool}
  {destroys : Interp → Class → Bool}

omit [DecidableEq Interp] [DecidableEq Func] [DecidableEq Class] in
theorem mem_event {asked : CallRequest Interp Func Class}
    {activities : List (Activity World Interp Func Class)} :
    .request asked ∈ activities.map Activity.event ↔ .request asked ∈ activities := by
  rw [List.mem_map]
  constructor
  · rintro ⟨activity, member, same⟩
    cases activity with
    | request other =>
        cases same
        exact member
    | elsewhere change => cases same
  · intro member
    exact ⟨_, member, rfl⟩

/-- A function is callable exactly when it can be generated and compiles, and it is accessible, or a
default constructor, or has so far been asked for through a using-declaration in the interpreter. -/
theorem makeFunctionCallable_iff (verdicts : host.Verdicts generates wellFormed accessible destroys)
    (start : World) (activities : List (Activity World Interp Func Class))
    {request : CallRequest Interp Func Class} {FD : Func} (target : request.target = .function FD) :
    (host.MakeFunctionCallable (host.after (initial start) activities) (some request)).1.isValid =
        true ↔
      generates FD = true ∧ wellFormed request.interp FD = true ∧
        (accessible FD = true ∨ (host.function FD).erase.isDefaultConstructor = true ∨
          ∃ earlier, .request earlier ∈ activities ++ [.request request] ∧
            earlier.interp = request.interp ∧ earlier.target = .function FD ∧
              earlier.isUsingShadow = true) := by
  rw [(makeFunctionCallable_wrapper request).1, after, Maker.answered_iff verdicts.decided rfl]
  have among : ∀ earlier : CallRequest Interp Func Class,
      .request earlier ∈ activities.map Activity.event ++ [.request request] ↔
        .request earlier ∈ activities ++ [.request request] := by
    intro earlier
    rw [← @mem_event World, List.map_append]
    rfl
  constructor
  · rintro ⟨earlier, member, same, met⟩
    obtain ⟨interp, function⟩ := (key_eq_iff target).mp same
    obtain ⟨generated, compiles, reach⟩ := (succeeds_function function).mp met
    rw [interp] at compiles
    rcases reach with reached | default | promoted
    · exact ⟨generated, compiles, Or.inl reached⟩
    · exact ⟨generated, compiles, Or.inr (Or.inl default)⟩
    · exact ⟨generated, compiles,
        Or.inr (Or.inr ⟨earlier, (among earlier).mp member, interp, function, promoted⟩)⟩
  · have now : .request request ∈ activities.map Activity.event ++ [.request request] :=
      List.mem_append_right _ List.mem_cons_self
    rintro ⟨generated, compiles, reached | default | ⟨earlier, member, interp, function, promoted⟩⟩
    · exact ⟨request, now, rfl, (succeeds_function target).mpr ⟨generated, compiles, Or.inl reached⟩⟩
    · exact ⟨request, now, rfl,
        (succeeds_function target).mpr ⟨generated, compiles, Or.inr (Or.inl default)⟩⟩
    · exact ⟨earlier, (among earlier).mpr member, (key_eq_iff target).mpr ⟨interp, function⟩,
        (succeeds_function function).mpr
          ⟨generated, interp ▸ compiles, Or.inr (Or.inr promoted)⟩⟩

/-- Two overloads of `visit`, the second of them protected. Wrappers get the addresses in turn. -/
def overloads : CompilerHost Nat Bool Bool Unit Nat where
  function _ := TypedFunction.visit
  status _ _ := ⟨some ⟨.TK_NonTemplate, false, false⟩, .TK_NonTemplate, false, none, false, false⟩
  InstantiateFunctionDefinition world _ := world
  compileFunction world _ source :=
    match source.wrapper with
    | .call isProtected _ =>
        if isProtected && source.withAccessControl then (none, world) else (some world, world + 1)
    | .destruct _ => (some world, world + 1)

theorem overloads_verdicts :
    overloads.Verdicts (fun _ => true) (fun _ _ => true) (fun isProtected => !isProtected)
      fun _ _ => true where
  generated _ _ := rfl
  compiled world I name FD code access := by cases FD <;> cases access <;> rfl
  destroyed _ _ _ _ _ := rfl

/-- The protected overload is callable as itself once a using-declaration made it so. -/
theorem makeFunctionCallable_promoted :
    (overloads.MakeFunctionCallable (overloads.after (initial 8)
      [.request ⟨false, .function true, false⟩, .request ⟨false, .function true, true⟩])
        (some ⟨false, .function true, false⟩)).1.isValid = true :=
  (makeFunctionCallable_iff overloads_verdicts 8 _ rfl).mpr ⟨rfl, rfl, Or.inr (Or.inr
    ⟨⟨false, .function true, true⟩, List.mem_cons_of_mem _ List.mem_cons_self, rfl, rfl, rfl⟩)⟩

theorem makeFunctionCallable_stays_promoted :
    (overloads.MakeFunctionCallable (overloads.after (overloads.MakeFunctionCallable (initial 8)
      (some ⟨false, .function true, true⟩)).2 [.elsewhere fun world => world + 1])
        (some ⟨false, .function true, false⟩)).1.wrapper =
      (overloads.MakeFunctionCallable (initial 8) (some ⟨false, .function true, true⟩)).1.wrapper :=
  (@makeFunctionCallable_stays _ _ _ _ _ _ _ _ overloads (initial 8) ⟨false, .function true, true⟩
    ⟨false, .function true, false⟩ rfl (by decide) [.elsewhere fun world => world + 1]).2

theorem compiled_distinct_overloads :
    ((overloads.after (initial 8) [.request ⟨false, .function true, false⟩,
      .request ⟨true, .function false, false⟩,
      .request ⟨true, .destructor false (), false⟩]).world.compiled.map
        fun entry => entry.2.wrapper_name).Nodup :=
  (compiled_distinct 8 _ (by decide)).1

end Access

end CompilerHost

end CppInterOp
