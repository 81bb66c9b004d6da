import CppInterOp.Library.Runs
import CppInterOp.OverlayBlocks
import Mathlib.Data.List.Nodup

/-! The vptr of an instance along runs that make and destroy overlays. -/

namespace CppInterOp

inductive OverlayOp
  | make (inst : Option Address) (call : OverlayCall)
  | destroy (overlay : Nat)

namespace OverlayMemory

def step (context : VTableContext) (memory : OverlayMemory) : OverlayOp → OverlayMemory
  | .make inst call => (memory.makeVTableOverlay context inst call).1
  | .destroy overlay => memory.destroyVTableOverlay (some overlay)

def Allowed (memory : OverlayMemory) : OverlayOp → Prop
  | .make _ _ => True
  | .destroy serial => ∃ overlay ∈ memory.overlays, overlay.serial = serial

instance decidableAllowed (memory : OverlayMemory) : ∀ op, Decidable (memory.Allowed op)
  | .make _ _ => inferInstanceAs (Decidable True)
  | .destroy _ => inferInstanceAs (Decidable (∃ _ ∈ _, _ = _))

/-- Each vptr is the original one or points into the allocated block of an overlay that was
made for the instance and not destroyed; without such an overlay it is the original one. -/
structure Pointed (original : Address → VPtr) (memory : OverlayMemory) : Prop where
  alive : ∀ inst, memory.vptrs inst = original inst ∨
    ∃ overlay ∈ memory.overlays, overlay.inst = inst ∧
      (memory.vptrs inst).block = overlay.block ∧ memory.blocks overlay.block ≠ none
  restored : ∀ inst, (∀ overlay ∈ memory.overlays, overlay.inst ≠ inst) →
    memory.vptrs inst = original inst

/-- An overlay is destroyed only while the vptr it found when it was made is still good: the
original one, or in the block of another overlay of the instance that was not destroyed. -/
def KeepsVPtr (original : Address → VPtr) (memory : OverlayMemory) : OverlayOp → Prop
  | .make _ _ => True
  | .destroy serial => ∀ overlay ∈ memory.overlays, overlay.serial = serial →
      overlay.originalVptr = original overlay.inst ∨
        ∃ below ∈ memory.overlays, below.serial ≠ serial ∧ below.inst = overlay.inst ∧
          overlay.originalVptr.block = below.block

instance decidableKeepsVPtr (original : Address → VPtr) (memory : OverlayMemory) :
    ∀ op, Decidable (memory.KeepsVPtr original op)
  | .make _ _ => inferInstanceAs (Decidable True)
  | .destroy _ => inferInstanceAs (Decidable (∀ _ ∈ _, _ = _ → _ ∨ ∃ _ ∈ _, _ ∧ _ ∧ _))

structure Owned (memory : OverlayMemory) : Prop where
  serial : memory.Serial
  block : ∀ overlay ∈ memory.overlays, overlay.block = .owned overlay.serial
  allocated : ∀ overlay ∈ memory.overlays, memory.blocks overlay.block ≠ none
  alive : ∀ overlay ∈ memory.overlays, overlay.dtorFired = false

theorem Serial.same {memory : OverlayMemory} (serial : memory.Serial) {left right : VTableOverlay}
    (leftMember : left ∈ memory.overlays) (rightMember : right ∈ memory.overlays)
    (equal : left.serial = right.serial) : left = right :=
  List.inj_on_of_nodup_map serial.distinct leftMember rightMember equal

theorem Serial.findOverlay {memory : OverlayMemory} (serial : memory.Serial)
    {overlay : VTableOverlay} (member : overlay ∈ memory.overlays) :
    memory.findOverlay overlay.serial = some overlay := by
  cases result : memory.findOverlay overlay.serial with
  | none =>
      have absent := List.find?_eq_none.mp result overlay member
      simp at absent
  | some found =>
      have foundSerial := List.find?_some result
      simp only [decide_eq_true_eq] at foundSerial
      rw [serial.same (List.mem_of_find?_eq_some result) member foundSerial]

end OverlayMemory

theorem Overlaid.serial {context : VTableContext} {memory next : OverlayMemory} {inst : Address}
    {call : OverlayCall} {base : CXXRecordDecl}
    (overlaid : Overlaid context memory inst call base next) (serial : memory.Serial) :
    next.Serial := by
  refine ⟨?_, ?_⟩
  · rw [overlaid.overlays serial, List.map_append, List.nodup_append]
    refine ⟨serial.distinct, by simp, ?_⟩
    intro left leftMember right rightMember equal
    obtain ⟨overlay, member, rfl⟩ := List.mem_map.mp leftMember
    simp only [List.map_cons, List.map_nil, List.mem_singleton] at rightMember
    have bound := serial.earlier overlay member
    rw [equal, rightMember] at bound
    exact Nat.lt_irrefl _ bound
  · intro overlay member
    rw [overlaid.overlays serial, List.mem_append, List.mem_singleton] at member
    rw [overlaid.fresh]
    rcases member with old | rfl
    · exact Nat.lt_succ_of_lt (serial.earlier overlay old)
    · exact Nat.lt_succ_self _

theorem Overlaid.owned {context : VTableContext} {memory next : OverlayMemory} {inst : Address}
    {call : OverlayCall} {base : CXXRecordDecl}
    (overlaid : Overlaid context memory inst call base next) (owned : memory.Owned) :
    next.Owned := by
  have older : ∀ overlay ∈ memory.overlays, overlay.block ≠ .owned memory.fresh := by
    intro overlay member equal
    rw [owned.block overlay member, BlockId.owned.injEq] at equal
    have bound := owned.serial.earlier overlay member
    omega
  refine ⟨overlaid.serial owned.serial, ?_, ?_, ?_⟩
  · intro overlay member
    rw [overlaid.overlays owned.serial, List.mem_append, List.mem_singleton] at member
    rcases member with old | rfl
    · exact owned.block overlay old
    · rfl
  · intro overlay member
    rw [overlaid.overlays owned.serial, List.mem_append, List.mem_singleton] at member
    rcases member with old | rfl
    · rw [overlaid.others _ (older overlay old)]
      exact owned.allocated overlay old
    · exact overlaid.allocated
  · intro overlay member
    rw [overlaid.overlays owned.serial, List.mem_append, List.mem_singleton] at member
    rcases member with old | rfl
    · exact owned.alive overlay old
    · rfl

namespace OverlayMemory

structure Destroyed (memory : OverlayMemory) (overlay : VTableOverlay) (next : OverlayMemory) :
    Prop where
  vptrs : ∀ inst, next.vptrs inst =
    if inst = overlay.inst then overlay.originalVptr else memory.vptrs inst
  blocks : ∀ block, next.blocks block =
    if block = overlay.block then none else memory.blocks block
  overlays : ∀ other, other ∈ next.overlays ↔
    other ∈ memory.overlays ∧ other.serial ≠ overlay.serial
  sublist : next.overlays.Sublist memory.overlays
  fresh : next.fresh = memory.fresh

theorem Pointed.of_alive {original : Address → VPtr} {memory : OverlayMemory}
    (alive : ∀ inst, memory.vptrs inst = original inst ∨
      ∃ overlay ∈ memory.overlays, overlay.inst = inst ∧
        (memory.vptrs inst).block = overlay.block ∧ memory.blocks overlay.block ≠ none) :
    memory.Pointed original := by
  refine ⟨alive, ?_⟩
  intro inst none
  rcases alive inst with equal | ⟨overlay, member, overlayInst, _⟩
  · exact equal
  · exact absurd overlayInst (none overlay member)

theorem Owned.destroyed {memory : OverlayMemory} (owned : memory.Owned) {overlay : VTableOverlay}
    (member : overlay ∈ memory.overlays) :
    Destroyed memory overlay (memory.destroyVTableOverlay (some overlay.serial)) := by
  have computed : memory.destroyVTableOverlay (some overlay.serial) =
      { memory.writeVPtr overlay.inst overlay.originalVptr with
        blocks := fun other => if other = overlay.block then none else memory.blocks other
        overlays := memory.overlays.filter fun other => other.serial ≠ overlay.serial } := by
    simp [destroyVTableOverlay, owned.serial.findOverlay member, owned.alive overlay member]
  rw [computed]
  exact ⟨fun _ => rfl, fun _ => rfl, fun _ => by simp, List.filter_sublist, rfl⟩

theorem Destroyed.owned {memory next : OverlayMemory} {overlay : VTableOverlay}
    (destroyed : Destroyed memory overlay next) (owned : memory.Owned)
    (member : overlay ∈ memory.overlays) : next.Owned := by
  refine ⟨⟨?_, ?_⟩, ?_, ?_, ?_⟩
  · exact (destroyed.sublist.map _).nodup owned.serial.distinct
  · intro other kept
    rw [destroyed.fresh]
    exact owned.serial.earlier other ((destroyed.overlays other).mp kept).1
  · intro other kept
    exact owned.block other ((destroyed.overlays other).mp kept).1
  · intro other kept
    obtain ⟨old, different⟩ := (destroyed.overlays other).mp kept
    have blocks : other.block ≠ overlay.block := by
      rw [owned.block other old, owned.block overlay member]
      exact fun equal => different (BlockId.owned.inj equal)
    rw [destroyed.blocks, if_neg blocks]
    exact owned.allocated other old
  · intro other kept
    exact owned.alive other ((destroyed.overlays other).mp kept).1

theorem Destroyed.pointed_iff {original : Address → VPtr} {memory next : OverlayMemory}
    {overlay : VTableOverlay} (destroyed : Destroyed memory overlay next) (owned : memory.Owned)
    (pointed : memory.Pointed original) (member : overlay ∈ memory.overlays) :
    next.Pointed original ↔ memory.KeepsVPtr original (.destroy overlay.serial) := by
  have nextOwned := destroyed.owned owned member
  have own : next.vptrs overlay.inst = overlay.originalVptr := by rw [destroyed.vptrs, if_pos rfl]
  constructor
  · intro after target targetMember equal
    obtain rfl := owned.serial.same targetMember member equal
    rcases after.alive target.inst with same | ⟨below, kept, inst, block, _⟩
    · exact Or.inl (own.symm.trans same)
    · obtain ⟨old, different⟩ := (destroyed.overlays below).mp kept
      exact Or.inr ⟨below, old, different, inst, own ▸ block⟩
  · intro keeps
    have alive : ∀ inst, next.vptrs inst = original inst ∨
        ∃ other ∈ next.overlays, other.inst = inst ∧ (next.vptrs inst).block = other.block ∧
          next.blocks other.block ≠ none := by
      intro inst
      by_cases same : inst = overlay.inst
      · subst inst
        rw [own]
        rcases keeps overlay member rfl with equal | ⟨below, old, different, inst, block⟩
        · exact Or.inl equal
        · have kept := (destroyed.overlays below).mpr ⟨old, different⟩
          exact Or.inr ⟨below, kept, inst, block, nextOwned.allocated below kept⟩
      · rw [destroyed.vptrs, if_neg same]
        rcases pointed.alive inst with equal | ⟨other, old, otherInst, block, _⟩
        · exact Or.inl equal
        · -- the overlay destroyed is on another instance
          have different : other.serial ≠ overlay.serial := by
            intro equal
            exact same (owned.serial.same old member equal ▸ otherInst.symm)
          have kept := (destroyed.overlays other).mpr ⟨old, different⟩
          exact Or.inr ⟨other, kept, otherInst, block, nextOwned.allocated other kept⟩
    exact Pointed.of_alive alive

end OverlayMemory

theorem Overlaid.pointed {original : Address → VPtr} {context : VTableContext}
    {memory next : OverlayMemory} {inst : Address} {call : OverlayCall} {base : CXXRecordDecl}
    (overlaid : Overlaid context memory inst call base next) (owned : memory.Owned)
    (pointed : memory.Pointed original) : next.Pointed original := by
  have nextOwned := overlaid.owned owned
  have kept : ∀ overlay ∈ memory.overlays, overlay ∈ next.overlays := by
    intro overlay member
    rw [overlaid.overlays owned.serial]
    exact List.mem_append_left _ member
  have alive : ∀ other, next.vptrs other = original other ∨
      ∃ overlay ∈ next.overlays, overlay.inst = other ∧
        (next.vptrs other).block = overlay.block ∧ next.blocks overlay.block ≠ none := by
    intro other
    rw [overlaid.vptrs]
    by_cases same : other = inst
    · have made : call.overlay context memory inst ∈ next.overlays := by
        rw [overlaid.overlays owned.serial]
        exact List.mem_append_right _ (List.mem_singleton_self _)
      rw [if_pos same]
      exact Or.inr ⟨_, made, same.symm, rfl, nextOwned.allocated _ made⟩
    · rw [if_neg same]
      rcases pointed.alive other with equal | ⟨overlay, member, overlayInst, block, _⟩
      · exact Or.inl equal
      · exact Or.inr ⟨overlay, kept overlay member, overlayInst, block,
          nextOwned.allocated overlay (kept overlay member)⟩
  exact OverlayMemory.Pointed.of_alive alive

namespace OverlayMemory

theorem step_owned {context : VTableContext} {memory : OverlayMemory} {op : OverlayOp}
    (owned : memory.Owned) (allowed : memory.Allowed op) : (memory.step context op).Owned := by
  cases op with
  | make inst call =>
      rcases makeVTableOverlay_cases context memory inst call with
        unchanged | ⟨target, base, _, _, overlaid⟩
      · simp only [step, unchanged]
        exact owned
      · exact overlaid.owned owned
  | destroy serial =>
      obtain ⟨overlay, member, rfl⟩ := allowed
      exact (owned.destroyed member).owned owned member

theorem step_pointed_iff {original : Address → VPtr} {context : VTableContext}
    {memory : OverlayMemory} {op : OverlayOp} (owned : memory.Owned)
    (pointed : memory.Pointed original) (allowed : memory.Allowed op) :
    (memory.step context op).Pointed original ↔ memory.KeepsVPtr original op := by
  cases op with
  | make inst call =>
      refine iff_of_true ?_ trivial
      rcases makeVTableOverlay_cases context memory inst call with
        unchanged | ⟨target, base, _, _, overlaid⟩
      · simp only [step, unchanged]
        exact pointed
      · exact overlaid.pointed owned pointed
  | destroy serial =>
      obtain ⟨overlay, member, rfl⟩ := allowed
      exact (owned.destroyed member).pointed_iff owned pointed member

end OverlayMemory

/-- Along a run of makes and destroys, every vptr stays good and is restored in the end exactly
when no overlay is destroyed after the one it was made over. -/
theorem overlay_restore_iff (context : VTableContext) (start : OverlayMemory)
    (bare : start.overlays = []) (ops : List OverlayOp)
    (permitted : Runs.EveryStep (OverlayMemory.step context) OverlayMemory.Allowed start ops) :
    Runs.EveryState (OverlayMemory.step context) (OverlayMemory.Pointed start.vptrs) start ops ↔
      Runs.EveryStep (OverlayMemory.step context) (OverlayMemory.KeepsVPtr start.vptrs)
        start ops := by
  have owned : start.Owned := by
    refine ⟨⟨?_, ?_⟩, ?_, ?_, ?_⟩ <;> simp [bare]
  have pointed : start.Pointed start.vptrs := ⟨fun _ => Or.inl rfl, fun _ _ => rfl⟩
  refine Runs.everyState_iff_everyStep
    (fun memory => memory.Owned ∧ memory.Pointed start.vptrs) _ ⟨owned, pointed⟩
    (fun _ inv => inv.2) ?_ ?_ permitted
  · intro memory op inv allowed
    exact OverlayMemory.step_pointed_iff inv.1 inv.2 allowed
  · intro memory op inv allowed keeps
    exact ⟨OverlayMemory.step_owned inv.1 allowed,
      (OverlayMemory.step_pointed_iff inv.1 inv.2 allowed).mpr keeps⟩

def frobBase : CXXRecordDecl := .members [.destructor, .method "frob"]

def frobVTable : List Word := [.data 0, .data 1, .code 10, .code 11, .code 12]

theorem overlay_restore_iff_nested :
    Runs.EveryState (OverlayMemory.step .primary)
      (OverlayMemory.Pointed (OverlayMemory.emitted frobVTable).vptrs)
      (OverlayMemory.emitted frobVTable)
      [.make (some 7) { base := some frobBase, overlays := [] },
        .make (some 7) { base := some frobBase, overlays := [] }, .destroy 1, .destroy 0] :=
  (overlay_restore_iff .primary (OverlayMemory.emitted frobVTable) rfl _ (by decide)).mpr (by decide)

theorem overlay_restore_dangling :
    let ops : List OverlayOp :=
      [.make (some 7) { base := some frobBase, overlays := [] },
        .make (some 7) { base := some frobBase, overlays := [] }, .destroy 0, .destroy 1]
    let start := OverlayMemory.emitted frobVTable
    Runs.EveryStep (OverlayMemory.step .primary) OverlayMemory.Allowed start ops ∧
      ((Runs.run (OverlayMemory.step .primary) start ops).vptrs 7).block = .owned 0 ∧
      (Runs.run (OverlayMemory.step .primary) start ops).blocks (.owned 0) = none ∧
      ¬ Runs.EveryState (OverlayMemory.step .primary) (OverlayMemory.Pointed start.vptrs)
        start ops := by
  intro ops start
  refine ⟨by decide, by decide, by decide, ?_⟩
  intro every
  have restored := every.last.restored 7 (by decide)
  exact absurd restored (by decide)

end CppInterOp
