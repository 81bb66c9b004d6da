import CppInterOp.Basic
import CppInterOp.VTableLayout

/-!
Vtable overlays as `CppInterOp.cpp` builds them on the Itanium ABI: the block copied from
the vtable an instance has, the listed slots, the hook at the deleting destructor, and the
destruction of an overlay.
-/

namespace CppInterOp

structure CXXMethodDecl where
  parent : CXXRecordDecl
  fn : VirtualFn
  isVirtual : Bool
  deriving DecidableEq, Repr

structure VTableContext where
  getMethodVTableIndex : CXXMethodDecl → Nat
  vtableComponents : CXXRecordDecl → Nat
  addressPoint : CXXRecordDecl → Nat

/-- The layout of a class whose objects have one vptr has one vtable, the primary one. -/
structure VTableContext.Itanium (context : VTableContext) : Prop where
  primary : ∀ cls : CXXRecordDecl, cls.SingleVptr →
    context.vtableComponents cls = context.addressPoint cls + cls.vtableSlots.length

def VTableContext.primary : VTableContext where
  getMethodVTableIndex method :=
    (method.parent.vtableSlots.findIdx? fun slot => slot = (match method.fn with
      | .method signature => VTableSlot.function signature
      | .destructor => .deletingDtor)).getD 0
  vtableComponents cls := 2 + cls.vtableSlots.length
  addressPoint _ := 2

theorem VTableContext.primary_itanium : VTableContext.primary.Itanium := ⟨fun _ _ => rfl⟩

def virtualMethodSlot (context : VTableContext) : Option CXXMethodDecl → Int
  | none => -1
  | some method => if method.isVirtual then context.getMethodVTableIndex method else -1

def vtableMethodSlotCount (context : VTableContext) : Option CXXRecordDecl → Int
  | none => -1
  | some cls =>
      if cls.isPolymorphic then
        ((context.vtableComponents cls - context.addressPoint cls : Nat) : Int)
      else -1

def hasComplexVTableLayout (cls : CXXRecordDecl) : Bool :=
  cls.hasVBases || decide (1 < (cls.bases.filter fun base => base.2.isPolymorphic).length)

def kABIPrefixSize : Nat := 2

def kVTableOverlayPrefixSize : Nat := kABIPrefixSize + 1

def kMinVTableMethodSlots : Int := 2

def kDeletingDtorSlot : Nat := 1

/-- The block of words a vptr points into: a vtable the compiler emitted or the block of an
overlay. Blocks are never given the name of a freed one. -/
inductive BlockId
  | emitted (vtable : Nat)
  | owned (serial : Nat)
  deriving DecidableEq, Repr

structure VPtr where
  block : BlockId
  offset : Nat
  deriving DecidableEq, Repr

/-- A pointer-sized word of a vtable: a function, offset-to-top or type information,
`VTableOverlayDtorHost::Wrapper`, or the hidden pointer to an overlay. -/
inductive Word
  | null
  | code (entry : Address)
  | data (value : Int)
  | wrapper
  | overlay (serial : Nat)
  deriving DecidableEq, Repr

structure VTableOverlay where
  serial : Nat
  block : BlockId
  originalVptr : VPtr
  inst : Address
  nExtraPrefixSlots : Nat
  dtorFired : Bool := false
  origDtor : Word := .null
  cleanup : Option Address := none
  cleanupData : Address := 0
  deriving DecidableEq, Repr

def VTableOverlay.addressPoint (overlay : VTableOverlay) : VPtr :=
  ⟨overlay.block, overlay.nExtraPrefixSlots + kVTableOverlayPrefixSize⟩

structure OverlayMemory where
  vptrs : Address → VPtr
  blocks : BlockId → Option (List Word)
  overlays : List VTableOverlay
  fresh : Nat

namespace OverlayMemory

def emitted (words : List Word) : OverlayMemory where
  vptrs _ := ⟨.emitted 0, kABIPrefixSize⟩
  blocks block := if block = .emitted 0 then some words else none
  overlays := []
  fresh := 0

def readWord (memory : OverlayMemory) (block : BlockId) (index : Nat) : Word :=
  ((memory.blocks block).bind fun words => words[index]?).getD .null

def writeWord (memory : OverlayMemory) (block : BlockId) (index : Nat) (word : Word) :
    OverlayMemory :=
  { memory with
    blocks := fun other =>
      if other = block then (memory.blocks block).map fun words => words.set index word
      else memory.blocks other }

def writeVPtr (memory : OverlayMemory) (inst : Address) (vptr : VPtr) : OverlayMemory :=
  { memory with vptrs := fun other => if other = inst then vptr else memory.vptrs other }

def methodSlot (memory : OverlayMemory) (inst : Address) (slot : Nat) : Word :=
  memory.readWord (memory.vptrs inst).block ((memory.vptrs inst).offset + slot)

def findOverlay (memory : OverlayMemory) (serial : Nat) : Option VTableOverlay :=
  memory.overlays.find? fun overlay => overlay.serial = serial

def updateOverlay (memory : OverlayMemory) (serial : Nat)
    (change : VTableOverlay → VTableOverlay) : OverlayMemory :=
  { memory with
    overlays := memory.overlays.map fun overlay =>
      if overlay.serial = serial then change overlay else overlay }

/-- The constructor of `VTableOverlay`: the hidden slot first, then the vptr. -/
def construct (memory : OverlayMemory) (words : List Word) (originalVptr : VPtr) (inst : Address)
    (nExtra : Nat) : OverlayMemory × VTableOverlay :=
  let overlay : VTableOverlay :=
    { serial := memory.fresh, block := .owned memory.fresh, originalVptr, inst,
      nExtraPrefixSlots := nExtra }
  let allocated : OverlayMemory :=
    { memory with
      blocks := fun other =>
        if other = .owned memory.fresh then some words else memory.blocks other
      overlays := memory.overlays ++ [overlay]
      fresh := memory.fresh + 1 }
  ((allocated.writeWord overlay.block nExtra (.overlay overlay.serial)).writeVPtr inst
    overlay.addressPoint, overlay)

/-- The words `applyVTableOverlay` fills the new block with: null words for the user and the
hidden slot, the copy of the ABI prefix and the methods, and the listed replacements. -/
def overlayWords (memory : OverlayMemory) (originalVptr : VPtr) (totalMethodSlots : Nat)
    (listed : List (Int × Word)) (nExtra : Nat) : List Word :=
  let copied := (List.range (kABIPrefixSize + totalMethodSlots)).map fun i =>
    memory.readWord originalVptr.block (originalVptr.offset + i - kABIPrefixSize)
  listed.foldl
    (fun words entry => words.set (nExtra + kVTableOverlayPrefixSize + entry.1.toNat) entry.2)
    (List.replicate (nExtra + 1) .null ++ copied)

def applyVTableOverlay (memory : OverlayMemory) (inst : Option Address) (totalMethodSlots : Int)
    (listed : List (Int × Word)) (nExtra : Nat) : OverlayMemory × Option VTableOverlay :=
  match inst with
  | none => (memory, none)
  | some inst =>
      if totalMethodSlots < kMinVTableMethodSlots then (memory, none)
      else if listed.any fun entry => entry.1 < 0 || totalMethodSlots ≤ entry.1 then (memory, none)
      else
        let originalVptr := memory.vptrs inst
        let words := memory.overlayWords originalVptr totalMethodSlots.toNat listed nExtra
        let made := memory.construct words originalVptr inst nExtra
        (made.1, some made.2)

def installHook (memory : OverlayMemory) (overlay : VTableOverlay) (onDestroy : Address)
    (cleanupData : Address) : OverlayMemory :=
  let vptr := overlay.addressPoint
  let origDtor := memory.readWord vptr.block (vptr.offset + kDeletingDtorSlot)
  (memory.updateOverlay overlay.serial fun overlay =>
    { overlay with origDtor, cleanup := some onDestroy, cleanupData }).writeWord vptr.block
      (vptr.offset + kDeletingDtorSlot) .wrapper

end OverlayMemory

structure OverlayCall where
  base : Option CXXRecordDecl
  overlays : List (Option CXXMethodDecl × Word)
  nExtra : Nat := 0
  onDestroy : Option Address := none
  cleanupData : Address := 0

def OverlayCall.listed (context : VTableContext) (call : OverlayCall) : List (Int × Word) :=
  call.overlays.map fun overlay => (virtualMethodSlot context overlay.1, overlay.2)

namespace OverlayMemory

def makeVTableOverlay (context : VTableContext) (memory : OverlayMemory) (inst : Option Address)
    (call : OverlayCall) : OverlayMemory × Option Nat :=
  match inst, call.base with
  | none, _ | _, none => (memory, none)
  | some inst, some base =>
      if !base.isPolymorphic || hasComplexVTableLayout base then (memory, none)
      else
        let totalMethodSlots := vtableMethodSlotCount context (some base)
        let listed := call.listed context
        if totalMethodSlots < kMinVTableMethodSlots then (memory, none)
        else if listed.any fun entry => entry.1 < 0 then (memory, none)
        else
          match memory.applyVTableOverlay (some inst) totalMethodSlots listed call.nExtra with
          | (unchanged, none) => (unchanged, none)
          | (made, some overlay) =>
              match call.onDestroy with
              | none => (made, some overlay.serial)
              | some onDestroy =>
                  (made.installHook overlay onDestroy call.cleanupData, some overlay.serial)

/-- `delete overlay`; the null pointer and an overlay that is gone change nothing here. -/
def destroyVTableOverlay (memory : OverlayMemory) (overlay : Option Nat) : OverlayMemory :=
  match overlay.bind memory.findOverlay with
  | none => memory
  | some overlay =>
      let restored :=
        if overlay.dtorFired then memory else memory.writeVPtr overlay.inst overlay.originalVptr
      { restored with
        blocks := fun other => if other = overlay.block then none else memory.blocks other
        overlays := memory.overlays.filter fun other => other.serial ≠ overlay.serial }

end OverlayMemory

inductive DtorEvent
  | cleanup (hook inst data : Address)
  | destructor (entry : Address)
  deriving DecidableEq, Repr

inductive DtorEnding
  | returned | crashed | running
  deriving DecidableEq, Repr

structure DtorRun where
  memory : OverlayMemory
  events : List DtorEvent
  ending : DtorEnding

/-- A call of the function in a deleting-destructor slot, cut off after `fuel` nested calls:
`Wrapper` finds its overlay through the block the vptr points into at that moment. -/
def callDtor (inst : Address) : Nat → OverlayMemory → Word → DtorRun
  | 0, memory, _ => ⟨memory, [], .running⟩
  | _ + 1, memory, .code entry => ⟨memory, [.destructor entry], .returned⟩
  | fuel + 1, memory, .wrapper =>
      let vptr := memory.vptrs inst
      match memory.readWord vptr.block (vptr.offset - kVTableOverlayPrefixSize) with
      | .overlay serial =>
          match memory.findOverlay serial with
          | none => ⟨memory, [], .crashed⟩
          | some overlay =>
              let fired := memory.updateOverlay serial fun overlay =>
                { overlay with dtorFired := true }
              let called := overlay.cleanup.toList.map fun hook =>
                DtorEvent.cleanup hook inst overlay.cleanupData
              let rest := callDtor inst fuel fired overlay.origDtor
              { rest with events := called ++ rest.events }
      | _ => ⟨memory, [], .crashed⟩
  | _ + 1, memory, _ => ⟨memory, [], .crashed⟩

def deleteInstance (memory : OverlayMemory) (inst : Address) (fuel : Nat) : DtorRun :=
  callDtor inst fuel memory (memory.methodSlot inst kDeletingDtorSlot)

end CppInterOp
