import Mathlib
import CppInterOp.Library.Runs
import CppInterOp.Library.Shares

/-!
Captured errors: the encoding of an `ErrorRef`, the reference count of an `ErrorSlice`,
and the constructors, assignments and destructors of the three types that own one.
-/

namespace CppInterOp

inductive Status
  | Ok
  | NotFound
  | InvalidArgument
  | Ambiguous
  | ParseError
  | CompileError
  deriving DecidableEq, Repr

def Status.code : Status → Nat
  | .Ok => 0
  | .NotFound => 1
  | .InvalidArgument => 2
  | .Ambiguous => 3
  | .ParseError => 4
  | .CompileError => 5

structure ErrorRef where
  bits : Nat := 0
  deriving DecidableEq, Repr

/-- The heap never reuses the storage of a slice, and aligns it to 16 bytes. -/
def sliceAddress (slice : Nat) : Nat := 16 * (slice + 1)

namespace ErrorRef

def isOk (E : ErrorRef) : Bool := E.bits == 0

def isInline (E : ErrorRef) : Bool := E.bits &&& 1 == 1

def isSlice (E : ErrorRef) : Bool := E.bits != 0 && E.bits &&& 1 == 0

def makeInline (S : Status) : ErrorRef :=
  if S = .Ok then {} else { bits := S.code <<< 1 ||| 1 }

def makeSlice (slice : Nat) : ErrorRef := { bits := sliceAddress slice }

def slice (E : ErrorRef) : Option Nat :=
  if E.isSlice then some (E.bits / 16 - 1) else none

@[simp] theorem slice_default : ({} : ErrorRef).slice = none := rfl

theorem slice_eq_none_iff (E : ErrorRef) : E.slice = none ↔ E.isSlice = false := by
  simp [slice]

theorem slice_of_isOk {E : ErrorRef} (ok : E.isOk = true) : E.slice = none := by
  have zero : E.bits = 0 := by simpa [isOk] using ok
  simp [slice, isSlice, zero]

theorem slice_makeSlice (n : Nat) : (makeSlice n).slice = some n := by
  have even : sliceAddress n &&& 1 = 0 := by
    rw [Nat.and_one_is_mod, sliceAddress]
    omega
  have back : sliceAddress n / 16 - 1 = n := by
    rw [sliceAddress]
    omega
  have nonzero : sliceAddress n ≠ 0 := by
    rw [sliceAddress]
    omega
  simp [slice, isSlice, makeSlice, even, back, nonzero]

end ErrorRef

/-- `deletions` counts how often the slice was deleted, `lateAccesses` how often it was
read or written after that. -/
structure ErrorSlice where
  Refcount : UInt32 := 0
  Code : Status := .Ok
  deletions : Nat := 0
  lateAccesses : Nat := 0
  deriving DecidableEq

namespace ErrorSlice

def touch (S : ErrorSlice) : ErrorSlice :=
  if 0 < S.deletions then { S with lateAccesses := S.lateAccesses + 1 } else S

def retain (S : ErrorSlice) : ErrorSlice :=
  { S.touch with Refcount := S.Refcount + 1 }

def release (S : ErrorSlice) : ErrorSlice :=
  let released := { S.touch with Refcount := S.Refcount - 1 }
  if S.Refcount = 1 then { released with deletions := released.deletions + 1 } else released

end ErrorSlice

def RetainErrorRef (E : ErrorRef) (slices : List ErrorSlice) : List ErrorSlice :=
  match E.slice with
  | none => slices
  | some n => slices.modify n ErrorSlice.retain

def ReleaseErrorRef (E : ErrorRef) (slices : List ErrorSlice) : List ErrorSlice :=
  match E.slice with
  | none => slices
  | some n => slices.modify n ErrorSlice.release

def readStatus (E : ErrorRef) (slices : List ErrorSlice) : List ErrorSlice :=
  match E.slice with
  | none => slices
  | some n => slices.modify n ErrorSlice.touch

def GetStatus (E : ErrorRef) (slices : List ErrorSlice) : Option Status :=
  if E.isOk then some .Ok
  else if E.isInline then
    [.Ok, .NotFound, .InvalidArgument, .Ambiguous, .ParseError, .CompileError][E.bits >>> 1]?
  else match E.slice with
    | none => some .Ok
    | some n => slices[n]?.map ErrorSlice.Code

theorem GetStatus_makeInline (S : Status) (slices : List ErrorSlice) :
    GetStatus (ErrorRef.makeInline S) slices = some S := by
  cases S <;> rfl

inductive OwnerKind
  | captured
  | result
  | resultVoid
  deriving DecidableEq, Repr

/-- The bytes of a `Result` that holds a value are read as an `ErrorRef` by nobody: the
union's content is the value's then. -/
inductive ErrorOwner
  | captured (Ref : ErrorRef)
  | result (m_HasError : Bool) (m_ErrState : ErrorRef) (m_Unchecked : Bool)
  | resultVoid (m_ErrState : ErrorRef) (m_Unchecked : Bool)
  deriving DecidableEq, Repr

namespace ErrorOwner

/-- `error()` of the results, `ref()` of a captured error. -/
def error : ErrorOwner → ErrorRef
  | captured Ref => Ref
  | result m_HasError m_ErrState _ => if m_HasError then m_ErrState else {}
  | resultVoid m_ErrState _ => m_ErrState

def held (owner : ErrorOwner) : Option Nat := owner.error.slice

def markChecked : ErrorOwner → ErrorOwner
  | captured Ref => captured Ref
  | result m_HasError m_ErrState _ => result m_HasError m_ErrState false
  | resultVoid m_ErrState _ => resultVoid m_ErrState false

def construct (E : ErrorRef) (slices : List ErrorSlice) :
    OwnerKind → ErrorOwner × List ErrorSlice
  | .captured => (captured E, RetainErrorRef E slices)
  | .result =>
      let m_HasError := !E.isOk
      (result m_HasError E true, if m_HasError then RetainErrorRef E slices else slices)
  | .resultVoid =>
      (resultVoid E true, if !E.isOk then RetainErrorRef E slices else slices)

def copy (slices : List ErrorSlice) : ErrorOwner → ErrorOwner × ErrorOwner × List ErrorSlice
  | captured Ref => (captured Ref, captured Ref, RetainErrorRef Ref slices)
  | result m_HasError m_ErrState m_Unchecked =>
      (result m_HasError m_ErrState m_Unchecked, result m_HasError m_ErrState false,
        if m_HasError then RetainErrorRef m_ErrState slices else slices)
  | resultVoid m_ErrState m_Unchecked =>
      (resultVoid m_ErrState m_Unchecked, resultVoid m_ErrState false,
        if !m_ErrState.isOk then RetainErrorRef m_ErrState slices else slices)

def move : ErrorOwner → ErrorOwner × ErrorOwner
  | captured Ref => (captured Ref, captured {})
  | result m_HasError m_ErrState m_Unchecked =>
      (result m_HasError m_ErrState m_Unchecked,
        if m_HasError then result false {} false else result m_HasError m_ErrState false)
  | resultVoid m_ErrState m_Unchecked =>
      (resultVoid m_ErrState m_Unchecked, resultVoid {} false)

def share (slices : List ErrorSlice) : ErrorOwner → Option (ErrorOwner × List ErrorSlice)
  | captured _ => none
  | result m_HasError m_ErrState _ =>
      some (if m_HasError then construct m_ErrState slices .captured else (captured {}, slices))
  | resultVoid m_ErrState _ => some (construct m_ErrState slices .captured)

/-- `none` when a debug build aborts on an unchecked error. -/
def destroy (debug : Bool) (slices : List ErrorSlice) : ErrorOwner → Option (List ErrorSlice)
  | captured Ref => some (ReleaseErrorRef Ref slices)
  | result m_HasError m_ErrState m_Unchecked =>
      if debug && m_Unchecked && m_HasError then none
      else some (if m_HasError then ReleaseErrorRef m_ErrState slices else slices)
  | resultVoid m_ErrState m_Unchecked =>
      if debug && m_Unchecked && !m_ErrState.isOk then none
      else some (if !m_ErrState.isOk then ReleaseErrorRef m_ErrState slices else slices)

end ErrorOwner

/-- `owners` keeps the place of a destroyed owner; `fresh` are the slices whose `ErrorRef`
no owner was made from yet. -/
structure ErrorState where
  slices : List ErrorSlice := []
  owners : List (Option ErrorOwner) := []
  fresh : List Nat := []
  aborted : Bool := false
  deriving DecidableEq

inductive ErrorOp
  | makeError (S : Status)
  | construct (kind : OwnerKind) (E : ErrorRef)
  | value (bits : Nat)
  | copy (source : Nat)
  | move (source : Nat)
  | share (source : Nat)
  | assignCopy (target source : Nat)
  | assignMove (target source : Nat)
  | check (source : Nat)
  | status (source : Nat)
  | destroy (target : Nat)
  deriving DecidableEq, Repr

namespace ErrorState

def owner (state : ErrorState) (position : Nat) : Option ErrorOwner :=
  state.owners[position]?.join

def held (place : Option ErrorOwner) : Option Nat := place.bind ErrorOwner.held

def ownersOf (state : ErrorState) (n : Nat) : Nat := Shares.sharesOf held state.owners n

def makeError (state : ErrorState) (S : Status) : ErrorState :=
  { state with
    slices := state.slices ++ [{ Code := S }]
    fresh := state.fresh ++ [state.slices.length] }

def construct (state : ErrorState) (kind : OwnerKind) (E : ErrorRef) : ErrorState :=
  let made := ErrorOwner.construct E state.slices kind
  { state with
    owners := state.owners ++ [some made.1]
    slices := made.2
    fresh := state.fresh.filter fun n => E.slice != some n }

def copy (state : ErrorState) (source : Nat) (O : ErrorOwner) : ErrorState :=
  let made := O.copy state.slices
  { state with
    owners := state.owners.set source (some made.2.1) ++ [some made.1]
    slices := made.2.2 }

def move (state : ErrorState) (source : Nat) (O : ErrorOwner) : ErrorState :=
  { state with owners := state.owners.set source (some O.move.2) ++ [some O.move.1] }

def share (state : ErrorState) (source : Nat) (O : ErrorOwner) : ErrorState :=
  match O.share state.slices with
  | none => state
  | some made =>
      { state with
        owners := state.owners.set source (some O.markChecked) ++ [some made.1]
        slices := made.2 }

def assignCopy (state : ErrorState) (target source : Nat) : ErrorState :=
  match state.owner target, state.owner source with
  | some (.captured Ref), some (.captured ORef) =>
      if target ≠ source then
        { state with
          slices := RetainErrorRef ORef (ReleaseErrorRef Ref state.slices)
          owners := state.owners.set target (some (.captured ORef)) }
      else state
  | _, _ => state

def assignMove (state : ErrorState) (target source : Nat) : ErrorState :=
  match state.owner target, state.owner source with
  | some (.captured Ref), some (.captured ORef) =>
      if target ≠ source then
        { state with
          slices := ReleaseErrorRef Ref state.slices
          owners := (state.owners.set target (some (.captured ORef))).set source
            (some (.captured {})) }
      else state
  | _, _ => state

def check (state : ErrorState) (source : Nat) (O : ErrorOwner) : ErrorState :=
  { state with owners := state.owners.set source (some O.markChecked) }

def status (state : ErrorState) (source : Nat) (O : ErrorOwner) : ErrorState :=
  { state with
    owners := state.owners.set source (some O.markChecked)
    slices := readStatus O.error state.slices }

def destroy (debug : Bool) (state : ErrorState) (target : Nat) (O : ErrorOwner) : ErrorState :=
  match O.destroy debug state.slices with
  | none => { state with aborted := true }
  | some slices => { state with slices := slices, owners := state.owners.set target none }

/-- An operation on an owner that is gone does nothing: no program performs one. -/
def onOwner (state : ErrorState) (position : Nat) (act : ErrorOwner → ErrorState) : ErrorState :=
  match state.owner position with
  | none => state
  | some O => act O

def step (debug : Bool) (state : ErrorState) (op : ErrorOp) : ErrorState :=
  if state.aborted then state
  else match op with
    | .makeError S => state.makeError S
    | .construct kind E => state.construct kind E
    | .value bits =>
        { state with owners := state.owners ++ [some (.result false { bits := bits } true)] }
    | .copy source => state.onOwner source (state.copy source)
    | .move source => state.onOwner source (state.move source)
    | .share source => state.onOwner source (state.share source)
    | .assignCopy target source => state.assignCopy target source
    | .assignMove target source => state.assignMove target source
    | .check source => state.onOwner source (state.check source)
    | .status source => state.onOwner source (state.status source)
    | .destroy target => state.onOwner target (destroy debug state target)

/-- An owner is made from an `ErrorRef` that is no slice, that is fresh, or that a live
owner handed out. -/
def Allowed (state : ErrorState) : ErrorOp → Prop
  | .construct _ E => ∀ n ∈ E.slice, n ∈ state.fresh ∨ 0 < state.ownersOf n
  | _ => True

instance decidableAllowed (state : ErrorState) : ∀ op, Decidable (Allowed state op)
  | .construct _ E =>
      inferInstanceAs (Decidable (∀ n ∈ E.slice, n ∈ state.fresh ∨ 0 < state.ownersOf n))
  | .makeError _ | .value _ | .copy _ | .move _ | .share _ | .assignCopy _ _ | .assignMove _ _
  | .check _ | .status _ | .destroy _ => inferInstanceAs (Decidable True)

def Within (state : ErrorState) : Prop := ∀ n, state.ownersOf n < 2 ^ 32

/-- A slice counts its owners, is deleted once it has been owned and no owner is left, and
nobody reads or writes it after that. -/
def Sound (state : ErrorState) : Prop :=
  ∀ n S, state.slices[n]? = some S →
    S.Refcount.toNat = state.ownersOf n ∧
    S.deletions = (if n ∈ state.fresh ∨ 0 < state.ownersOf n then 0 else 1) ∧
    S.lateAccesses = 0

end ErrorState

def ErrorOp.refs (state : ErrorState) : ErrorOp → List ErrorRef
  | .makeError _ => []
  | .construct _ E => [E]
  | .value _ => []
  | .copy i | .move i | .share i | .check i | .status i | .destroy i =>
      ((state.owner i).map ErrorOwner.error).toList
  | .assignCopy target source | .assignMove target source =>
      ((state.owner target).map ErrorOwner.error).toList ++
        ((state.owner source).map ErrorOwner.error).toList

def ErrorOp.allocates : ErrorOp → Bool
  | .makeError _ => true
  | _ => false

def ErrorState.PlainUntouched (debug : Bool) (state : ErrorState) (op : ErrorOp) : Prop :=
  op.allocates = false → (∀ E ∈ op.refs state, E.isSlice = false) →
    (ErrorState.step debug state op).slices = state.slices

end CppInterOp
