import CppInterOp.OverlayRestore

/-! Deleting an instance under a stack of overlays. -/

namespace CppInterOp

namespace OverlayMemory

def stack (context : VTableContext) (inst : Address) :
    OverlayMemory → List OverlayCall → Option OverlayMemory
  | memory, [] => some memory
  | memory, call :: calls =>
      match memory.makeVTableOverlay context (some inst) call with
      | (_, none) => none
      | (next, some _) => stack context inst next calls

end OverlayMemory

namespace OverlayCall

def dtorWord (context : VTableContext) (word : Word) (call : OverlayCall) : Word :=
  if call.onDestroy.isSome then .wrapper
  else replacedWord (call.listed context) kDeletingDtorSlot word

def cleanups (inst : Address) (call : OverlayCall) : List DtorEvent :=
  call.onDestroy.toList.map fun hook => .cleanup hook inst call.cleanupData

end OverlayCall

def expectedEvents (inst dtor : Address) (calls : List OverlayCall) : List DtorEvent :=
  (calls.reverse.flatMap fun call => call.cleanups inst) ++ [.destructor dtor]

def DeletesInOrder (memory : OverlayMemory) (inst dtor : Address) (calls : List OverlayCall) :
    Prop :=
  ∃ enough, ∀ fuel, enough ≤ fuel →
    (deleteInstance memory inst fuel).events = expectedEvents inst dtor calls ∧
      (deleteInstance memory inst fuel).ending = .returned

/-- The overlay through which the wrapper finds its data. -/
structure OnTop (memory : OverlayMemory) (inst : Address) (overlay : VTableOverlay) : Prop where
  hidden : memory.readWord (memory.vptrs inst).block
    ((memory.vptrs inst).offset - kVTableOverlayPrefixSize) = .overlay overlay.serial
  found : memory.findOverlay overlay.serial = some overlay

theorem OnTop.fired {memory : OverlayMemory} {inst : Address} {overlay : VTableOverlay}
    (top : OnTop memory inst overlay) :
    OnTop (memory.updateOverlay overlay.serial fun overlay => { overlay with dtorFired := true })
      inst { overlay with dtorFired := true } := by
  refine ⟨top.hidden, ?_⟩
  have found := top.found
  simp only [OverlayMemory.findOverlay, OverlayMemory.updateOverlay] at found ⊢
  rw [List.find?_map]
  have same : ((fun other : VTableOverlay => decide (other.serial = overlay.serial)) ∘
      fun other => if other.serial = overlay.serial then { other with dtorFired := true }
        else other) = fun other => decide (other.serial = overlay.serial) := by
    funext other
    by_cases equal : other.serial = overlay.serial <;> simp [equal]
  rw [same, found]
  simp

theorem OnTop.callDtor {memory : OverlayMemory} {inst : Address} {overlay : VTableOverlay}
    (top : OnTop memory inst overlay) (fuel : Nat) :
    (callDtor inst (fuel + 1) memory .wrapper).events =
        overlay.cleanup.toList.map (fun hook => .cleanup hook inst overlay.cleanupData) ++
          (callDtor inst fuel (memory.updateOverlay overlay.serial fun overlay =>
            { overlay with dtorFired := true }) overlay.origDtor).events ∧
      (callDtor inst (fuel + 1) memory .wrapper).ending =
        (callDtor inst fuel (memory.updateOverlay overlay.serial fun overlay =>
          { overlay with dtorFired := true }) overlay.origDtor).ending := by
  simp only [CppInterOp.callDtor, top.hidden, top.found]
  exact ⟨trivial, trivial⟩

/-- A wrapper that calls the wrapper finds the same overlay again and never returns. -/
theorem OnTop.never_returns {memory : OverlayMemory} {inst : Address} {overlay : VTableOverlay}
    (top : OnTop memory inst overlay) (loops : overlay.origDtor = .wrapper) (fuel : Nat) :
    (CppInterOp.callDtor inst fuel memory .wrapper).ending = .running := by
  induction fuel generalizing memory overlay with
  | zero => rfl
  | succ fuel ih =>
      rw [(top.callDtor fuel).2, loops]
      exact ih top.fired loops

theorem Overlaid.onTop {context : VTableContext} {memory next : OverlayMemory} {inst : Address}
    {call : OverlayCall} {base : CXXRecordDecl}
    (overlaid : Overlaid context memory inst call base next) (serial : memory.Serial) :
    OnTop next inst (call.overlay context memory inst) := by
  have made : call.overlay context memory inst ∈ next.overlays := by
    rw [overlaid.overlays serial]
    exact List.mem_append_right _ (List.mem_singleton_self _)
  refine ⟨?_, (overlaid.serial serial).findOverlay made⟩
  rw [overlaid.vptrs, if_pos rfl, Nat.add_sub_cancel]
  exact overlaid.hidden

theorem Overlaid.dtorWord {context : VTableContext} {memory next : OverlayMemory} {inst : Address}
    {call : OverlayCall} {base : CXXRecordDecl}
    (overlaid : Overlaid context memory inst call base next) :
    next.methodSlot inst kDeletingDtorSlot =
      call.dtorWord context (memory.methodSlot inst kDeletingDtorSlot) := by
  have enough := overlaid.enough
  have within : (kDeletingDtorSlot : Int) < vtableMethodSlotCount context (some base) := by
    simp only [kMinVTableMethodSlots, kDeletingDtorSlot] at enough ⊢
    omega
  rw [overlaid.slots _ within, OverlayCall.dtorWord]
  simp

namespace OverlayMemory

theorem stack_facts {context : VTableContext} {inst : Address} {memory next : OverlayMemory}
    {calls : List OverlayCall} (serial : memory.Serial)
    (stacked : stack context inst memory calls = some next) :
    next.Serial ∧ next.methodSlot inst kDeletingDtorSlot =
      calls.foldl (OverlayCall.dtorWord context) (memory.methodSlot inst kDeletingDtorSlot) := by
  induction calls generalizing memory with
  | nil =>
      obtain rfl := Option.some.inj stacked
      exact ⟨serial, rfl⟩
  | cons call rest ih =>
      rcases memory.makeVTableOverlay_cases context (some inst) call with
        failed | ⟨target, base, same, made, overlaid⟩
      · simp [stack, failed] at stacked
      · obtain rfl := Option.some.inj same
        have later : stack context inst
            (memory.makeVTableOverlay context (some inst) call).1 rest = some next := by
          rw [stack] at stacked
          split at stacked
          · simp at stacked
          · rename_i middle _ result
            rw [result]
            exact stacked
        rw [List.foldl_cons, ← overlaid.dtorWord]
        exact ih (overlaid.serial serial) later

theorem stack_concat {context : VTableContext} {inst : Address} {memory next : OverlayMemory}
    {calls : List OverlayCall} {last : OverlayCall}
    (stacked : stack context inst memory (calls ++ [last]) = some next) :
    ∃ middle base, stack context inst memory calls = some middle ∧
      Overlaid context middle inst last base next := by
  induction calls generalizing memory with
  | nil =>
      rcases memory.makeVTableOverlay_cases context (some inst) last with
        failed | ⟨target, base, same, made, overlaid⟩
      · simp [stack, failed] at stacked
      · obtain rfl := Option.some.inj same
        refine ⟨memory, base, rfl, ?_⟩
        rw [List.nil_append, stack] at stacked
        split at stacked
        · simp at stacked
        · rename_i middle _ result
          obtain rfl := Option.some.inj stacked
          rw [result] at overlaid
          exact overlaid
  | cons call rest ih =>
      rw [List.cons_append, stack] at stacked
      split at stacked
      · simp at stacked
      · rename_i middle _ result
        obtain ⟨below, base, stackedBelow, overlaid⟩ := ih stacked
        refine ⟨below, base, ?_, overlaid⟩
        rw [stack, result]
        exact stackedBelow

end OverlayMemory

theorem callDtor_code (inst entry : Address) (fuel : Nat) (memory : OverlayMemory) :
    callDtor inst (fuel + 1) memory (.code entry) = ⟨memory, [.destructor entry], .returned⟩ := by
  rw [callDtor]

theorem callDtor_returned {inst : Address} {fuel : Nat} {memory : OverlayMemory} {word : Word}
    (ending : (callDtor inst fuel memory word).ending = .returned) :
    word = .wrapper ∨ ∃ entry, word = .code entry := by
  cases fuel with
  | zero => simp [callDtor] at ending
  | succ fuel =>
      cases word with
      | code entry => exact Or.inr ⟨entry, rfl⟩
      | wrapper => exact Or.inl rfl
      | null => simp [callDtor] at ending
      | data value => simp [callDtor] at ending
      | overlay serial => simp [callDtor] at ending

/-- The condition on the stack: only the newest overlay has a hook, and the listed replacements
leave the class's deleting destructor in its slot. -/
def HookOnlyOnTop (context : VTableContext) (dtor : Address) (calls : List OverlayCall) : Prop :=
  (∀ call ∈ calls.dropLast, call.onDestroy = none) ∧
    calls.foldl (fun word call => replacedWord (call.listed context) kDeletingDtorSlot word)
      (.code dtor) = .code dtor

theorem unhooked_of_cleanups {inst : Address} {calls : List OverlayCall}
    (silent : (calls.reverse.flatMap fun call => call.cleanups inst) = []) :
    ∀ call ∈ calls, call.onDestroy = none := by
  intro call member
  have nothing := List.flatMap_eq_nil_iff.mp silent call (List.mem_reverse.mpr member)
  cases hook : call.onDestroy with
  | none => rfl
  | some onDestroy => simp [OverlayCall.cleanups, hook] at nothing

theorem cleanups_of_unhooked {inst : Address} {calls : List OverlayCall}
    (unhooked : ∀ call ∈ calls, call.onDestroy = none) :
    (calls.reverse.flatMap fun call => call.cleanups inst) = [] := by
  rw [List.flatMap_eq_nil_iff]
  intro call member
  simp [OverlayCall.cleanups, unhooked call (List.mem_reverse.mp member)]

theorem dtorWords_of_unhooked {context : VTableContext} {calls : List OverlayCall}
    (unhooked : ∀ call ∈ calls, call.onDestroy = none) (word : Word) :
    calls.foldl (OverlayCall.dtorWord context) word =
      calls.foldl (fun word call => replacedWord (call.listed context) kDeletingDtorSlot word)
        word := by
  induction calls generalizing word with
  | nil => rfl
  | cons call rest ih =>
      rw [List.foldl_cons, List.foldl_cons, ih fun other member =>
        unhooked other (List.mem_cons_of_mem _ member)]
      simp [OverlayCall.dtorWord, unhooked call (List.mem_cons_self ..)]

theorem destructor_tail {before : List DtorEvent} {entry dtor : Address}
    (same : [DtorEvent.destructor entry] = before ++ [.destructor dtor]) :
    before = [] ∧ entry = dtor := by
  cases before with
  | nil => simpa using same
  | cons first rest => simp at same

theorem Overlaid.deletesInOrder_iff {context : VTableContext} {memory next : OverlayMemory}
    {inst dtor : Address} {base : CXXRecordDecl} {calls : List OverlayCall} {last : OverlayCall}
    (overlaid : Overlaid context memory inst last base next) (serial : memory.Serial) :
    DeletesInOrder next inst dtor (calls ++ [last]) ↔
      (calls.reverse.flatMap fun call => call.cleanups inst) = [] ∧
        replacedWord (last.listed context) kDeletingDtorSlot
          (memory.methodSlot inst kDeletingDtorSlot) = .code dtor := by
  have top := overlaid.onTop serial
  have slot := overlaid.dtorWord
  have expected : expectedEvents inst dtor (calls ++ [last]) = last.cleanups inst ++
      ((calls.reverse.flatMap fun call => call.cleanups inst) ++ [.destructor dtor]) := by
    simp [expectedEvents]
  generalize replaced : replacedWord (last.listed context) kDeletingDtorSlot
    (memory.methodSlot inst kDeletingDtorSlot) = word at *
  have origDtor : (last.overlay context memory inst).origDtor =
      if last.onDestroy.isSome then word else .null := by
    rw [← replaced]
    rfl
  cases hook : last.onDestroy with
  | none =>
      have silent : last.cleanups inst = [] := by simp [OverlayCall.cleanups, hook]
      have first : next.methodSlot inst kDeletingDtorSlot = word := by
        rw [slot, OverlayCall.dtorWord, replaced]
        simp [hook]
      rw [hook] at origDtor
      constructor
      · rintro ⟨enough, runs⟩
        obtain ⟨events, ending⟩ := runs (enough + 1) (Nat.le_succ _)
        rw [deleteInstance, first] at events ending
        rw [expected, silent, List.nil_append] at events
        rcases callDtor_returned ending with rfl | ⟨entry, rfl⟩
        · -- the wrapper of an older overlay finds the newest one, which has nothing to call
          rw [(top.callDtor enough).2, origDtor] at ending
          simpa using callDtor_returned ending
        · rw [callDtor_code] at events
          obtain ⟨nothing, same⟩ := destructor_tail events
          exact ⟨nothing, by rw [same]⟩
      · rintro ⟨nothing, same⟩
        refine ⟨1, ?_⟩
        intro fuel enough
        obtain ⟨more, rfl⟩ := Nat.exists_eq_add_of_le' enough
        rw [deleteInstance, first, same, callDtor_code, expected, silent, nothing]
        exact ⟨rfl, rfl⟩
  | some onDestroy =>
      have first : next.methodSlot inst kDeletingDtorSlot = .wrapper := by
        rw [slot, OverlayCall.dtorWord, hook]
        rfl
      have called : (last.overlay context memory inst).cleanup.toList.map (fun hook =>
          DtorEvent.cleanup hook inst (last.overlay context memory inst).cleanupData) =
            last.cleanups inst := by
        simp [OverlayCall.overlay, OverlayCall.cleanups, hook]
      rw [hook] at origDtor
      simp only [Option.isSome_some, if_true] at origDtor
      constructor
      · rintro ⟨enough, runs⟩
        obtain ⟨events, ending⟩ := runs (enough + 1 + 1) (by omega)
        rw [deleteInstance, first] at events ending
        rw [(top.callDtor (enough + 1)).1, called, expected, List.append_cancel_left_eq,
          origDtor] at events
        rw [(top.callDtor (enough + 1)).2, origDtor] at ending
        rcases callDtor_returned ending with rfl | ⟨entry, rfl⟩
        · -- the wrapper saved below is called as the newest overlay's original destructor
          rw [top.fired.never_returns origDtor] at ending
          exact absurd ending (by simp)
        · rw [callDtor_code] at events
          obtain ⟨nothing, same⟩ := destructor_tail events
          exact ⟨nothing, by rw [same]⟩
      · rintro ⟨nothing, same⟩
        refine ⟨2, ?_⟩
        intro fuel enough
        obtain ⟨more, rfl⟩ := Nat.exists_eq_add_of_le' enough
        rw [deleteInstance, first, (top.callDtor (more + 1)).1, (top.callDtor (more + 1)).2, called,
          origDtor, same, callDtor_code, expected, nothing]
        exact ⟨rfl, rfl⟩

/-- Deleting an instance under a stack of overlays runs every hook, newest first, and then the
class's destructor exactly when no overlay below the newest has a hook. -/
theorem stacked_hooks_iff (context : VTableContext) (memory next : OverlayMemory)
    (bare : memory.overlays = []) (inst dtor : Address)
    (original : memory.methodSlot inst kDeletingDtorSlot = .code dtor) (calls : List OverlayCall)
    (stacked : OverlayMemory.stack context inst memory calls = some next) :
    DeletesInOrder next inst dtor calls ↔ HookOnlyOnTop context dtor calls := by
  have serial : memory.Serial := by
    refine ⟨?_, ?_⟩ <;> simp [bare]
  rcases List.eq_nil_or_concat calls with rfl | ⟨below, last, rfl⟩
  · obtain rfl := Option.some.inj stacked
    refine iff_of_true ⟨1, ?_⟩ ⟨by simp, rfl⟩
    intro fuel enough
    obtain ⟨more, rfl⟩ := Nat.exists_eq_add_of_le' enough
    rw [deleteInstance, original, callDtor_code]
    exact ⟨rfl, rfl⟩
  · rw [List.concat_eq_append] at stacked ⊢
    obtain ⟨middle, base, stackedBelow, overlaid⟩ := OverlayMemory.stack_concat stacked
    obtain ⟨middleSerial, word⟩ := OverlayMemory.stack_facts serial stackedBelow
    rw [overlaid.deletesInOrder_iff middleSerial, word, original, HookOnlyOnTop,
      List.dropLast_concat, List.foldl_append, List.foldl_cons, List.foldl_nil]
    constructor
    · rintro ⟨silent, same⟩
      have unhooked := unhooked_of_cleanups silent
      rw [dtorWords_of_unhooked unhooked] at same
      exact ⟨unhooked, same⟩
    · rintro ⟨unhooked, same⟩
      refine ⟨cleanups_of_unhooked unhooked, ?_⟩
      rw [dtorWords_of_unhooked unhooked]
      exact same

theorem stacked_hooks_iff_two :
    let plain : OverlayCall := { base := some frobBase, overlays := [] }
    let hooked : OverlayCall := { plain with onDestroy := some 50, cleanupData := 60 }
    ∃ next, OverlayMemory.stack .primary 7 (OverlayMemory.emitted frobVTable) [plain, hooked] =
        some next ∧ DeletesInOrder next 7 11 [plain, hooked] := by
  intro plain hooked
  exact ⟨_, rfl, (stacked_hooks_iff .primary (OverlayMemory.emitted frobVTable) _ rfl 7 11
    (by decide) [plain, hooked] rfl).mpr ⟨by decide, by decide⟩⟩

theorem stacked_hooks_loop :
    let first : OverlayCall :=
      { base := some frobBase, overlays := [], onDestroy := some 50, cleanupData := 60 }
    let second : OverlayCall := { first with cleanupData := 61 }
    let one := ((OverlayMemory.emitted frobVTable).makeVTableOverlay .primary (some 7) first).1
    let two := (one.makeVTableOverlay .primary (some 7) second).1
    OverlayMemory.stack .primary 7 (OverlayMemory.emitted frobVTable) [first, second] = some two ∧
      (∀ fuel, (deleteInstance two 7 fuel).ending = .running) ∧
      ¬ DeletesInOrder two 7 11 [first, second] := by
  intro first second one two
  have top : OnTop two 7 (second.overlay .primary one 7) := ⟨by decide, by decide⟩
  have patched : two.methodSlot 7 kDeletingDtorSlot = .wrapper := by decide
  have runs (fuel : Nat) : (deleteInstance two 7 fuel).ending = .running := by
    rw [deleteInstance, patched]
    exact top.never_returns (by decide) fuel
  refine ⟨rfl, runs, ?_⟩
  rintro ⟨enough, ends⟩
  have returned := (ends enough (Nat.le_refl _)).2
  rw [runs] at returned
  exact absurd returned (by decide)

end CppInterOp
