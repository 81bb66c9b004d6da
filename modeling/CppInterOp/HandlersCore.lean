import CppInterOp.Library.Runs

/-!
The registry of the handlers jitted code passes to `at_quick_exit` and `pthread_atfork`:
its drain loops, the hooks around a fork, and what calls what in the course of a run.
-/

namespace CppInterOp

/-- `Owner` and `Fn` are pointers, null at zero; `id` tells registrations apart. -/
structure QuickExitEntry where
  Owner : Nat
  Fn : Nat
  id : Nat
  deriving DecidableEq, Repr

structure AtforkEntry where
  Owner : Nat
  Prepare : Nat
  Parent : Nat
  Child : Nat
  id : Nat
  deriving DecidableEq, Repr

inductive AtforkPhase
  | prepare
  | parent
  | child
  deriving DecidableEq, Repr

def AtforkEntry.hook (E : AtforkEntry) : AtforkPhase → Nat
  | .prepare => E.Prepare
  | .parent => E.Parent
  | .child => E.Child

/-- A null owner asks for everybody's handlers. -/
def QuickExitEntry.Wanted (Owner : Nat) (E : QuickExitEntry) : Prop :=
  Owner = 0 ∨ E.Owner = Owner

instance (Owner : Nat) : DecidablePred (QuickExitEntry.Wanted Owner) :=
  fun E => inferInstanceAs (Decidable (Owner = 0 ∨ E.Owner = Owner))

def scanQuickExit (Owner : Nat) :
    List QuickExitEntry → Option (QuickExitEntry × List QuickExitEntry)
  | [] => none
  | E :: rest =>
      if Owner ≠ 0 ∧ E.Owner ≠ Owner then
        (scanQuickExit Owner rest).map fun taken => (taken.1, E :: taken.2)
      else some (E, rest)

def takeLastQuickExit (Owner : Nat) (QuickExit : List QuickExitEntry) :
    Option (QuickExitEntry × List QuickExitEntry) :=
  (scanQuickExit Owner QuickExit.reverse).map fun taken => (taken.1, taken.2.reverse)

/-- A call of `flushOwner`, or of `runAllQuickExitHandlers` where `flush` is false, and
whether it is inside a handler. -/
structure Drain where
  Owner : Nat
  flush : Bool
  inHandler : Bool
  deriving DecidableEq, Repr

/-- How far the fork in flight is: `turn` entries of the phase are done with. -/
inductive ForkStage
  | idle
  | prepared
  | running (phase : AtforkPhase) (turn : Nat) (inHook : Bool)
  deriving DecidableEq, Repr

inductive HandlerEvent
  | addedQuickExit (E : QuickExitEntry)
  | addedAtfork (E : AtforkEntry)
  | executes (E : QuickExitEntry)
  | flushed (Owner : Nat)
  | drainedAll
  | phaseStarts (phase : AtforkPhase)
  | calls (phase : AtforkPhase) (E : AtforkEntry)
  | phaseReturns (phase : AtforkPhase)
  deriving DecidableEq, Repr

/-- `drains` are the calls in progress: one is made from inside a handler of another, or by
another thread. `history` is what has happened, oldest first. -/
structure HandlerState where
  QuickExit : List QuickExitEntry := []
  Atfork : List AtforkEntry := []
  ForkSnapshot : List AtforkEntry := []
  QuickExitHookInstalled : Bool := false
  AtforkHookInstalled : Bool := false
  drains : List Drain := []
  fork : ForkStage := .idle
  added : Nat := 0
  history : List HandlerEvent := []
  deriving DecidableEq

inductive HandlerOp
  | addQuickExit (Owner Fn : Nat) (installs : Bool)
  | addAtfork (Owner Prepare Parent Child : Nat) (Err : Nat)
  | flushOwner (Owner : Nat)
  | runAllQuickExitHandlers
  | advance (position : Nat)
  | runAtfork (phase : AtforkPhase)
  | advanceFork
  deriving DecidableEq, Repr

def turns (ForkSnapshot : List AtforkEntry) : AtforkPhase → List AtforkEntry
  | .prepare => ForkSnapshot.reverse
  | .parent | .child => ForkSnapshot

namespace HandlerState

/-- `installs` says whether the C library accepts the hook. -/
def addQuickExit (state : HandlerState) (Owner Fn : Nat) (installs : Bool) :
    HandlerState × Int :=
  if !state.QuickExitHookInstalled && !installs then (state, -1)
  else
    let E : QuickExitEntry := { Owner := Owner, Fn := Fn, id := state.added }
    ({ state with
        QuickExitHookInstalled := true
        QuickExit := state.QuickExit ++ [E]
        added := state.added + 1
        history := state.history ++ [.addedQuickExit E] }, 0)

def addAtfork (state : HandlerState) (Owner Prepare Parent Child Err : Nat) :
    HandlerState × Nat :=
  if !state.AtforkHookInstalled && Err != 0 then (state, Err)
  else
    let E : AtforkEntry :=
      { Owner := Owner, Prepare := Prepare, Parent := Parent, Child := Child, id := state.added }
    ({ state with
        AtforkHookInstalled := true
        Atfork := state.Atfork ++ [E]
        added := state.added + 1
        history := state.history ++ [.addedAtfork E] }, 0)

/-- The end of a drain loop; a flush also drops the owner's fork entries. -/
def drainReturns (state : HandlerState) (position : Nat) (drain : Drain) : HandlerState :=
  let ended := { state with drains := state.drains.eraseIdx position }
  if drain.flush then
    { ended with
      Atfork := state.Atfork.filter fun E => E.Owner != drain.Owner
      history := state.history ++ [.flushed drain.Owner] }
  else { ended with history := state.history ++ [.drainedAll] }

/-- One turn of a drain loop: the running handler returns, or the next one is taken. -/
def advance (state : HandlerState) (position : Nat) (drain : Drain) : HandlerState :=
  if drain.inHandler then
    { state with drains := state.drains.set position { drain with inHandler := false } }
  else match takeLastQuickExit drain.Owner state.QuickExit with
    | none => state.drainReturns position drain
    | some (E, rest) =>
        let taken := { state with QuickExit := rest }
        if E.Fn = 0 then taken.drainReturns position drain
        else
          { taken with
            drains := state.drains.set position { drain with inHandler := true }
            history := state.history ++ [.executes E] }

def runAtfork (state : HandlerState) (phase : AtforkPhase) : HandlerState :=
  { state with
    ForkSnapshot := match phase with
      | .prepare => state.Atfork
      | .parent | .child => state.ForkSnapshot
    fork := .running phase 0 false
    history := state.history ++ [.phaseStarts phase] }

def advanceFork (state : HandlerState) : HandlerState :=
  match state.fork with
  | .idle | .prepared => state
  | .running phase turn true => { state with fork := .running phase (turn + 1) false }
  | .running phase turn false =>
      match (turns state.ForkSnapshot phase)[turn]? with
      | none =>
          { state with
            fork := if phase = .prepare then .prepared else .idle
            history := state.history ++ [.phaseReturns phase] }
      | some E =>
          if E.hook phase = 0 then { state with fork := .running phase (turn + 1) false }
          else
            { state with
              fork := .running phase turn true
              history := state.history ++ [.calls phase E] }

section AdvanceFork

variable {state : HandlerState} {phase : AtforkPhase} {turn : Nat} {E : AtforkEntry}

theorem advanceFork_inHook (here : state.fork = .running phase turn true) :
    state.advanceFork = { state with fork := .running phase (turn + 1) false } := by
  simp [advanceFork, here]

theorem advanceFork_over (here : state.fork = .running phase turn false)
    (ended : (turns state.ForkSnapshot phase)[turn]? = none) :
    state.advanceFork =
      { state with
        fork := if phase = .prepare then .prepared else .idle
        history := state.history ++ [.phaseReturns phase] } := by
  simp [advanceFork, here, ended]

theorem advanceFork_null (here : state.fork = .running phase turn false)
    (at_turn : (turns state.ForkSnapshot phase)[turn]? = some E) (null : E.hook phase = 0) :
    state.advanceFork = { state with fork := .running phase (turn + 1) false } := by
  simp [advanceFork, here, at_turn, null]

theorem advanceFork_calls (here : state.fork = .running phase turn false)
    (at_turn : (turns state.ForkSnapshot phase)[turn]? = some E) (hook : E.hook phase ≠ 0) :
    state.advanceFork =
      { state with
        fork := .running phase turn true
        history := state.history ++ [.calls phase E] } := by
  simp [advanceFork, here, at_turn, hook]

end AdvanceFork

def step (state : HandlerState) : HandlerOp → HandlerState
  | .addQuickExit Owner Fn installs => (state.addQuickExit Owner Fn installs).1
  | .addAtfork Owner Prepare Parent Child Err =>
      (state.addAtfork Owner Prepare Parent Child Err).1
  | .flushOwner Owner =>
      { state with drains := state.drains ++ [{ Owner := Owner, flush := true, inHandler := false }] }
  | .runAllQuickExitHandlers =>
      { state with drains := state.drains ++ [{ Owner := 0, flush := false, inHandler := false }] }
  | .advance position =>
      match state.drains[position]? with
      | none => state
      | some drain => state.advance position drain
  | .runAtfork phase => state.runAtfork phase
  | .advanceFork => state.advanceFork

/-- Owners and quick-exit handlers are no null pointers, and a fork runs its prepare phase
and then its parent or its child phase. -/
def Allowed (state : HandlerState) : HandlerOp → Prop
  | .addQuickExit Owner Fn _ => Owner ≠ 0 ∧ Fn ≠ 0
  | .addAtfork Owner _ _ _ _ => Owner ≠ 0
  | .flushOwner Owner => Owner ≠ 0
  | .runAtfork .prepare => state.fork = .idle
  | .runAtfork .parent | .runAtfork .child => state.fork = .prepared
  | .runAllQuickExitHandlers | .advance _ | .advanceFork => True

instance decidableAllowed (state : HandlerState) : ∀ op, Decidable (Allowed state op)
  | .addQuickExit Owner Fn _ => inferInstanceAs (Decidable (Owner ≠ 0 ∧ Fn ≠ 0))
  | .addAtfork Owner _ _ _ _ => inferInstanceAs (Decidable (Owner ≠ 0))
  | .flushOwner Owner => inferInstanceAs (Decidable (Owner ≠ 0))
  | .runAtfork .prepare => inferInstanceAs (Decidable (state.fork = .idle))
  | .runAtfork .parent | .runAtfork .child => inferInstanceAs (Decidable (state.fork = .prepared))
  | .runAllQuickExitHandlers | .advance _ | .advanceFork => inferInstanceAs (Decidable True)

end HandlerState

end CppInterOp
