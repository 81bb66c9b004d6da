import CppInterOp.Basic
import CppInterOp.Library.Cascade

/-!
The deque of `InterpreterInfo` behind the interpreter registry, as
`InterpreterInfo.h`, `CppInterOp.cpp` and `ErrorInternal.cpp` compute on it: the
hand-written moves, `std::rotate`, `deque::erase`, the per-interpreter caches and
the diagnostic consumers that point at deque elements.
-/

namespace CppInterOp

inductive DiagnosticSeverity
  | note | warning | error | fatal
  deriving DecidableEq, Repr

structure StoredDiagView where
  message : String
  file : String := ""
  line : Nat := 0
  column : Nat := 0
  sev : DiagnosticSeverity := .error
  deriving DecidableEq, Repr

structure InterpreterInfo where
  interpreter : Option Address := none
  isOwned : Bool := true
  builtinMap : List (String × Address) := []
  wrapperStore : List (Address × Address) := []
  dtorWrapperStore : List (Address × Address) := []
  constArrayValueStore : List (Address × Int) := []
  storedDiags : List StoredDiagView := []
  argvStorage : List String := []
  odrUseCounter : UInt32 := 0
  deriving DecidableEq, Repr

namespace InterpreterInfo

def construct (interp : Address) (owned : Bool) (argvStrs : List String) : InterpreterInfo :=
  { interpreter := some interp, isOwned := owned, argvStorage := argvStrs }

/-- `~InterpreterInfo` and the guard of the move assignment: `if (isOwned) delete Interpreter`. -/
def deletes (info : InterpreterInfo) : List Address :=
  if info.isOwned then info.interpreter.toList else []

def movedFrom (other : InterpreterInfo) : InterpreterInfo :=
  { other with interpreter := none, isOwned := false, argvStorage := [] }

/-- The move constructor: the members missing from its initializer list start out empty. -/
def moveConstruct (other : InterpreterInfo) : InterpreterInfo :=
  { interpreter := other.interpreter
    isOwned := other.isOwned
    argvStorage := other.argvStorage
    odrUseCounter := other.odrUseCounter }

/-- The move assignment between distinct objects: the members it does not name stay. -/
def moveAssign (this other : InterpreterInfo) : Cascade.Moved InterpreterInfo Address where
  target :=
    { this with
      interpreter := other.interpreter
      isOwned := other.isOwned
      argvStorage := other.argvStorage
      odrUseCounter := other.odrUseCounter }
  source := other.movedFrom
  effects := this.deletes

/-- `std::swap`: a move construction into a temporary and two move assignments. -/
def swap (left right : InterpreterInfo) : Cascade.Moved InterpreterInfo Address :=
  let temporary := left.moveConstruct
  let first := left.movedFrom.moveAssign right
  let second := first.source.moveAssign temporary
  { target := first.target
    source := second.target
    effects := first.effects ++ second.effects ++ second.source.deletes }

end InterpreterInfo

structure Slot where
  address : Address
  info : InterpreterInfo
  deriving DecidableEq, Repr

namespace Slot

def inPlace (move : InterpreterInfo → InterpreterInfo → Cascade.Moved InterpreterInfo Address)
    (left right : Slot) : Cascade.Moved Slot Address :=
  let moved := move left.info right.info
  { target := { left with info := moved.target }
    source := { right with info := moved.source }
    effects := moved.effects }

def deletes (slot : Slot) : List Address := slot.info.deletes

end Slot

/-- `std::rotate(found, found + 1, end)` on the elements from `found` on: for move-only
records it is a chain of swaps of neighbours. -/
def rotate (found : Slot) (after : List Slot) : List Slot × List Address :=
  Cascade.cascade (Slot.inPlace InterpreterInfo.swap) found after

/-- `deque::erase(found)`. The implementation chooses, from the index and the size, on which
side it closes the gap by move assignments; the element at that end is then destroyed. -/
def erase (erasesFront : Nat → Nat → Bool) (before : List Slot) (found : Slot)
    (after : List Slot) : List Slot × List Address :=
  if erasesFront before.length (before.length + 1 + after.length) then
    let closed := Cascade.closeGap (Slot.inPlace InterpreterInfo.moveAssign) Slot.deletes
      found before.reverse
    (closed.1.reverse ++ after, closed.2)
  else
    let closed := Cascade.closeGap (Slot.inPlace InterpreterInfo.moveAssign) Slot.deletes
      found after
    (before ++ closed.1, closed.2)

/-- libstdc++ shifts the shorter part; an element in the middle counts as nearer to the end. -/
def libstdcxxErasesFront (index size : Nat) : Bool := index < size / 2

def findInterp (interp : Address) : List Slot → Option (List Slot × Slot × List Slot)
  | [] => none
  | slot :: rest =>
      if slot.info.interpreter = some interp then some ([], slot, rest)
      else (findInterp interp rest).map fun parts => (slot :: parts.1, parts.2)

/-- The deque, and for each interpreter's `DiagnosticsEngine` the chain of CppInterOp
consumers installed in it, newest first, each given by the element it points to. -/
structure Registry where
  slots : List Slot
  consumers : Address → List Address

namespace Registry

def empty : Registry := { slots := [], consumers := fun _ => [] }

def interpreters (registry : Registry) : List (Option Address) :=
  registry.slots.map fun slot => slot.info.interpreter

def addresses (registry : Registry) : List Address :=
  registry.slots.map Slot.address

def update (registry : Registry) (address : Address)
    (change : InterpreterInfo → InterpreterInfo) : Registry :=
  { registry with
    slots := registry.slots.map fun slot =>
      if slot.address = address then { slot with info := change slot.info } else slot }

def destroyEngines (registry : Registry) (deleted : List Address) : Registry :=
  { registry with
    consumers := fun interp => if interp ∈ deleted then [] else registry.consumers interp }

/-- The address of the element found; `none` is the asserted-against empty deque. -/
def getInterpInfo (registry : Registry) (interp : Option Address) : Option Address :=
  match interp with
  | none => registry.slots.getLast?.map Slot.address
  | some wanted =>
      ((registry.slots.find? fun slot => slot.info.interpreter = some wanted).or
        registry.slots.getLast?).map Slot.address

def getInterpreter (registry : Registry) : Option Address :=
  registry.slots.getLast?.bind fun slot => slot.info.interpreter

def installDiagConsumer (registry : Registry) (interp element : Address) : Registry :=
  { registry with
    consumers := fun other =>
      if other = interp then element :: registry.consumers interp else registry.consumers other }

def registerInterpreter (registry : Registry) (interp : Address) (owned : Bool)
    (argvStorage : List String) (element : Address) : Registry :=
  let emplaced : Registry := { registry with
    slots := registry.slots ++ [⟨element, .construct interp owned argvStorage⟩] }
  emplaced.installDiagConsumer interp element

/-- `CreateInterpreter` from the point where `compat::Interpreter::create` returned `made`:
a new interpreter comes with a new diagnostics engine. -/
def createInterpreter (registry : Registry) (made : Option Address) (argvStorage : List String)
    (element : Address) : Registry :=
  match made with
  | none => registry
  | some interp =>
      (registry.destroyEngines [interp]).registerInterpreter interp true argvStorage element

def useExternalInterpreter (registry : Registry) (interp element : Address) : Registry :=
  registry.registerInterpreter interp false [] element

structure Outcome where
  registry : Registry
  success : Bool
  deleted : List Address

def activateInterpreter (registry : Registry) (interp : Option Address) : Outcome :=
  match interp with
  | none => ⟨registry, false, []⟩
  | some wanted =>
      match findInterp wanted registry.slots with
      | none => ⟨registry, false, []⟩
      | some (before, found, after) =>
          -- the last element is active already
          if after ≠ [] then
            let rotated := rotate found after
            ⟨destroyEngines { registry with slots := before ++ rotated.1 } rotated.2,
              true, rotated.2⟩
          else ⟨registry, true, []⟩

def deleteInterpreter (erasesFront : Nat → Nat → Bool) (registry : Registry)
    (interp : Option Address) : Outcome :=
  match registry.slots.getLast? with
  | none => ⟨registry, false, []⟩
  | some last =>
      match interp with
      | none =>
          ⟨destroyEngines { registry with slots := registry.slots.dropLast } last.deletes,
            true, last.deletes⟩
      | some wanted =>
          match findInterp wanted registry.slots with
          | none => ⟨registry, false, []⟩
          | some (before, found, after) =>
              let erased := erase erasesFront before found after
              ⟨destroyEngines { registry with slots := erased.1 } erased.2, true, erased.2⟩

end Registry

/-! The operations that record into the caches. -/

inductive DiagnosticsLevel
  | ignored | note | remark | warning | error | fatal
  deriving DecidableEq, Repr

def mapClangSeverity : DiagnosticsLevel → DiagnosticSeverity
  | .ignored | .note | .remark => .note
  | .warning => .warning
  | .error => .error
  | .fatal => .fatal

structure PresumedLoc where
  filename : Option String
  line : Nat
  column : Nat
  deriving DecidableEq, Repr

/-- A diagnostic handed to a consumer; `location` is present when the source manager has
a valid presumed location for it. -/
structure Diagnostic where
  level : DiagnosticsLevel
  formatted : String
  location : Option PresumedLoc
  deriving DecidableEq, Repr

def Diagnostic.view (diag : Diagnostic) : StoredDiagView :=
  let plain : StoredDiagView := { message := diag.formatted, sev := mapClangSeverity diag.level }
  match diag.location with
  | none => plain
  | some loc =>
      { plain with file := loc.filename.getD "", line := loc.line, column := loc.column }

namespace Registry

/-- `HandleDiagnostic` of a consumer chain: the consumer installed earlier handles the
diagnostic first. A pointer to an element that is gone writes outside the deque. -/
def handleDiagnostic (registry : Registry) (view : StoredDiagView) :
    List Address → Registry × List Address
  | [] => (registry, [])
  | element :: raw =>
      let forwarded := registry.handleDiagnostic view raw
      if element ∈ forwarded.1.addresses then
        (forwarded.1.update element fun info =>
          { info with storedDiags := info.storedDiags ++ [view] }, forwarded.2)
      else (forwarded.1, forwarded.2 ++ [element])

def emitDiagnostic (registry : Registry) (interp : Address) (diag : Diagnostic) :
    Registry × List Address :=
  registry.handleDiagnostic diag.view (registry.consumers interp)

def updateInfo (registry : Registry) (interp : Option Address)
    (change : InterpreterInfo → InterpreterInfo) : Registry :=
  match registry.getInterpInfo interp with
  | none => registry
  | some element => registry.update element change

/-- `findBuiltinType`: `populated` is what `PopulateBuiltinMap` reads off the context of the
active interpreter. -/
def findBuiltinType (registry : Registry) (populated : List (String × Address)) : Registry :=
  registry.updateInfo none fun info =>
    { info with builtinMap := if info.builtinMap.isEmpty then populated else info.builtinMap }

/-- `make_wrapper`: `compiled` is the wrapper the JIT produced, if it compiled. -/
def makeWrapper (registry : Registry) (interp function : Address) (compiled : Option Address) :
    Registry :=
  registry.updateInfo (some interp) fun info =>
    match compiled with
    | none => info
    | some wrapper => { info with wrapperStore := emplace info.wrapperStore function wrapper }

def makeDtorWrapper (registry : Registry) (interp decl : Address) (compiled : Option Address) :
    Registry :=
  registry.updateInfo (some interp) fun info =>
    match compiled with
    | none => info
    | some wrapper => { info with dtorWrapperStore := emplace info.dtorWrapperStore decl wrapper }

/-- The cache entry `MaterializeConstArrayValue` makes: a buffer address, or 0 for a failure. -/
def materializeConstArrayValue (registry : Registry) (interp varDecl : Address) (value : Int) :
    Registry :=
  registry.updateInfo (some interp) fun info =>
    { info with constArrayValueStore := emplace info.constArrayValueStore varDecl value }

end Registry

end CppInterOp
