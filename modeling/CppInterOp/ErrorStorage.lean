import CppInterOp.ErrorOwnership

/-!
The storage of a `Result<T>`: a union of a `T` and an `ErrorRef`, and the flag that says which
of the two is alive.
-/

namespace CppInterOp

inductive Storage (T : Type)
  | value (V : T)
  | errState (m_ErrState : ErrorRef)
  deriving DecidableEq

/-- The constructors of a type; `none` where one throws. A move gives the new object and what
is left of the old one. -/
structure ValueType (T : Type) where
  init : Option T
  copy : T → Option T
  move : T → Option (T × T)

structure ResultObject (T : Type) where
  storage : Storage T
  m_HasError : Bool := false
  m_Unchecked : Bool := true
  deriving DecidableEq

inductive ResultPlace (T : Type)
  | result (R : ResultObject T)
  | captured (Ref : ErrorRef)
  deriving DecidableEq

/-- `undefined` once a member of the union was read that is not alive. -/
structure ResultState (T : Type) where
  slices : List ErrorSlice := []
  places : List (Option (ResultPlace T)) := []
  fresh : List Nat := []
  aborted : Bool := false
  undefined : Bool := false
  deriving DecidableEq

inductive ResultOp (T : Type)
  | makeError (S : Status)
  | init
  | ofValue (V : T)
  | ofError (E : ErrorRef)
  | copy (source : Nat)
  | move (source : Nat)
  | check (source : Nat)
  | error (source : Nat)
  | status (source : Nat)
  | value (source : Nat)
  | value_or (source : Nat)
  | share (source : Nat)
  | destroy (target : Nat)
  deriving DecidableEq

namespace ResultObject

variable {T : Type}

def valuePtr (R : ResultObject T) : Option T :=
  match R.storage with
  | .value V => some V
  | .errState _ => none

def m_ErrState (R : ResultObject T) : Option ErrorRef :=
  match R.storage with
  | .value _ => none
  | .errState E => some E

def markChecked (R : ResultObject T) : ResultObject T := { R with m_Unchecked := false }

end ResultObject

def ResultPlace.owner {T : Type} : ResultPlace T → ErrorOwner
  | result R => .result R.m_HasError (R.m_ErrState.getD {}) R.m_Unchecked
  | captured Ref => .captured Ref

namespace ResultState

variable {T : Type}

def results (state : ResultState T) : List (ResultObject T) :=
  state.places.filterMap fun place =>
    match place with
    | some (.result R) => some R
    | _ => none

def result (state : ResultState T) (position : Nat) : Option (ResultObject T) :=
  match state.places[position]?.join with
  | some (.result R) => some R
  | _ => none

def add (state : ResultState T) (R : ResultObject T) : ResultState T :=
  { state with places := state.places ++ [some (.result R)] }

def put (state : ResultState T) (position : Nat) (R : ResultObject T) : ResultState T :=
  { state with places := state.places.set position (some (.result R)) }

def withSlices (state : ResultState T) (slices : List ErrorSlice) : ResultState T :=
  { state with slices := slices }

/-- Reading a member that is not alive is undefined. -/
def reading {Member : Type} (state : ResultState T) (member : Option Member)
    (act : Member → ResultState T) : ResultState T :=
  match member with
  | none => { state with undefined := true }
  | some content => act content

def making {Made : Type} (state : ResultState T) (made : Option Made)
    (act : Made → ResultState T) : ResultState T :=
  match made with
  | none => state
  | some object => act object

def makeError (state : ResultState T) (S : Status) : ResultState T :=
  { state with
    slices := state.slices ++ [{ Code := S }]
    fresh := state.fresh ++ [state.slices.length] }

def ofError (state : ResultState T) (E : ErrorRef) : ResultState T :=
  let m_HasError := !E.isOk
  let built := state.add { storage := .errState E, m_HasError := m_HasError }
  let retained := if m_HasError then RetainErrorRef E state.slices else state.slices
  { built.withSlices retained with fresh := state.fresh.filter fun n => E.slice != some n }

def copy (type : ValueType T) (state : ResultState T) (source : Nat) (Other : ResultObject T) :
    ResultState T :=
  if Other.m_HasError then
    state.reading Other.m_ErrState fun E =>
      ((state.put source Other.markChecked).add { Other with storage := .errState E }).withSlices
        (RetainErrorRef E state.slices)
  else
    state.reading Other.valuePtr fun V => state.making (type.copy V) fun copied =>
      (state.put source Other.markChecked).add { Other with storage := .value copied }

/-- The move constructor is `noexcept`: a `T` that throws ends the program. -/
def move (type : ValueType T) (state : ResultState T) (source : Nat) (Other : ResultObject T) :
    ResultState T :=
  if Other.m_HasError then
    state.reading Other.m_ErrState fun E =>
      (state.put source
          { storage := .errState {}, m_HasError := false, m_Unchecked := false }).add
        { Other with storage := .errState E }
  else
    state.reading Other.valuePtr fun V =>
      match type.move V with
      | none => { state with aborted := true }
      | some moved =>
          (state.put source { Other.markChecked with storage := .value moved.2 }).add
            { Other with storage := .value moved.1 }

def destroy (debug : Bool) (state : ResultState T) (target : Nat) (R : ResultObject T) :
    ResultState T :=
  let gone := { state with places := state.places.set target none }
  if debug && R.m_Unchecked && R.m_HasError then { state with aborted := true }
  else if R.m_HasError then
    state.reading R.m_ErrState fun E => gone.withSlices (ReleaseErrorRef E state.slices)
  else state.reading R.valuePtr fun _ => gone

def destroyCaptured (state : ResultState T) (target : Nat) (Ref : ErrorRef) : ResultState T :=
  { state with
    places := state.places.set target none
    slices := ReleaseErrorRef Ref state.slices }

def check (state : ResultState T) (source : Nat) (R : ResultObject T) : ResultState T :=
  state.put source R.markChecked

def error (state : ResultState T) (source : Nat) (R : ResultObject T) : ResultState T :=
  if R.m_HasError then state.reading R.m_ErrState fun _ => state.check source R
  else state.check source R

def status (state : ResultState T) (source : Nat) (R : ResultObject T) : ResultState T :=
  if R.m_HasError then
    state.reading R.m_ErrState fun E =>
      (state.check source R).withSlices (readStatus E state.slices)
  else state.check source R

/-- The caller's copy of the value may throw: the object is checked by then. -/
def value (state : ResultState T) (source : Nat) (R : ResultObject T) : ResultState T :=
  if R.m_HasError then { state with aborted := true }
  else state.reading R.valuePtr fun _ => state.check source R

def value_or (state : ResultState T) (source : Nat) (R : ResultObject T) : ResultState T :=
  if R.m_HasError then state.check source R
  else state.reading R.valuePtr fun _ => state.check source R

def share (state : ResultState T) (source : Nat) (R : ResultObject T) : ResultState T :=
  let captured (Ref : ErrorRef) : ResultState T :=
    { state.check source R with
      places := (state.check source R).places ++ [some (.captured Ref)] }
  if R.m_HasError then
    state.reading R.m_ErrState fun E =>
      (captured E).withSlices (RetainErrorRef E state.slices)
  else captured {}

/-- An operation on an object that is gone does nothing: no program performs one. -/
def onResult (state : ResultState T) (position : Nat) (act : ResultObject T → ResultState T) :
    ResultState T :=
  state.making (state.result position) act

def step (debug : Bool) (type : ValueType T) (state : ResultState T) (op : ResultOp T) :
    ResultState T :=
  if state.aborted || state.undefined then state
  else match op with
    | .makeError S => state.makeError S
    | .init => state.making type.init fun V => state.add { storage := .value V }
    | .ofValue V =>
        state.making (type.move V) fun moved => state.add { storage := .value moved.1 }
    | .ofError E => state.ofError E
    | .copy source => state.onResult source (state.copy type source)
    | .move source => state.onResult source (state.move type source)
    | .check source => state.onResult source (state.check source)
    | .error source => state.onResult source (state.error source)
    | .status source => state.onResult source (state.status source)
    | .value source => state.onResult source (state.value source)
    | .value_or source => state.onResult source (state.value_or source)
    | .share source => state.onResult source (state.share source)
    | .destroy target =>
        match state.places[target]?.join with
        | some (.result R) => state.destroy debug target R
        | some (.captured Ref) => state.destroyCaptured target Ref
        | none => state

def errors (state : ResultState T) : ErrorState where
  slices := state.slices
  owners := state.places.map (Option.map ResultPlace.owner)
  fresh := state.fresh
  aborted := state.aborted

def ownersOf (state : ResultState T) (n : Nat) : Nat := state.errors.ownersOf n

/-- A result is made from an `ErrorRef` that is no slice, that is fresh, or that a live owner
handed out. -/
def Allowed (state : ResultState T) : ResultOp T → Prop
  | .ofError E => ∀ n ∈ E.slice, n ∈ state.fresh ∨ 0 < state.ownersOf n
  | _ => True

/-- The slice of an error is alive and counts its owners. -/
def Owned (state : ResultState T) (E : ErrorRef) : Prop :=
  ∀ n ∈ E.slice, ∃ S, state.slices[n]? = some S ∧ S.deletions = 0 ∧
    S.Refcount.toNat = state.ownersOf n

structure Valid (state : ResultState T) : Prop where
  untouched : state.undefined = false
  value_live : ∀ R ∈ state.results, R.m_HasError = false ↔ ∃ V, R.storage = .value V
  error_live : ∀ R ∈ state.results, R.m_HasError = true ↔
    ∃ E, R.storage = .errState E ∧ E.isOk = false ∧ state.Owned E

def Room (state : ResultState T) (E : ErrorRef) : Prop :=
  ∀ n ∈ E.slice, state.ownersOf n + 1 < 2 ^ 32

/-- No result is made from an Ok error, no error is moved out of a result, and no count
overflows. -/
def KeepsTag (state : ResultState T) : ResultOp T → Prop
  | .ofError E => E.isOk = false ∧ state.Room E
  | .copy source | .share source =>
      ∀ R ∈ state.result source, ∀ E ∈ R.m_ErrState, state.Room E
  | .move source => ∀ R ∈ state.result source, R.m_HasError = false
  | _ => True

instance decidableKeepsTag (state : ResultState T) : ∀ op, Decidable (KeepsTag state op)
  | .ofError E =>
      inferInstanceAs (Decidable (E.isOk = false ∧ ∀ n ∈ E.slice, state.ownersOf n + 1 < 2 ^ 32))
  | .copy source | .share source =>
      inferInstanceAs (Decidable (∀ R ∈ state.result source, ∀ E ∈ R.m_ErrState,
        ∀ n ∈ E.slice, state.ownersOf n + 1 < 2 ^ 32))
  | .move source =>
      inferInstanceAs (Decidable (∀ R ∈ state.result source, R.m_HasError = false))
  | .makeError _ | .init | .ofValue _ | .check _ | .error _ | .status _ | .value _ | .value_or _
  | .destroy _ => inferInstanceAs (Decidable True)

instance decidableAllowed (state : ResultState T) : ∀ op, Decidable (Allowed state op)
  | .ofError E =>
      inferInstanceAs (Decidable (∀ n ∈ E.slice, n ∈ state.fresh ∨ 0 < state.ownersOf n))
  | .makeError _ | .init | .ofValue _ | .copy _ | .move _ | .check _ | .error _ | .status _
  | .value _ | .value_or _ | .share _ | .destroy _ => inferInstanceAs (Decidable True)

/-- A program that has ended takes no step. -/
def StepKeepsTag (state : ResultState T) (op : ResultOp T) : Prop :=
  state.aborted = true ∨ state.KeepsTag op

instance (state : ResultState T) (op : ResultOp T) : Decidable (state.StepKeepsTag op) :=
  inferInstanceAs (Decidable (_ ∨ _))

end ResultState

end CppInterOp
