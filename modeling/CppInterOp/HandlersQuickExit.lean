import CppInterOp.HandlersCore

/-!
Quick-exit handlers: each registration is executed at most once, last registered first, and
a drain leaves none of its owner's entries behind.
-/

namespace CppInterOp

section Take

variable {Owner : Nat}

theorem scanQuickExit_some {entries : List QuickExitEntry} {E : QuickExitEntry}
    {rest : List QuickExitEntry} (taken : scanQuickExit Owner entries = some (E, rest)) :
    ∃ before after, entries = before ++ E :: after ∧ rest = before ++ after ∧ E.Wanted Owner ∧
      ∀ other ∈ before, ¬other.Wanted Owner := by
  induction entries generalizing rest with
  | nil => cases taken
  | cons head tail ih =>
      rw [scanQuickExit] at taken
      by_cases skipped : Owner ≠ 0 ∧ head.Owner ≠ Owner
      · rw [if_pos skipped] at taken
        obtain ⟨⟨found, left⟩, inner, same⟩ := Option.map_eq_some_iff.mp taken
        obtain ⟨rfl, rfl⟩ := Prod.mk.inj same
        obtain ⟨before, after, rfl, rfl, wanted, unwanted⟩ := ih inner
        refine ⟨head :: before, after, rfl, rfl, wanted, ?_⟩
        intro other member
        rcases List.mem_cons.mp member with rfl | member
        · exact fun here => here.elim skipped.1 skipped.2
        · exact unwanted other member
      · rw [if_neg skipped] at taken
        obtain ⟨rfl, rfl⟩ := Prod.mk.inj (Option.some.inj taken)
        refine ⟨[], tail, rfl, rfl, ?_, fun other member => nomatch member⟩
        by_cases all : Owner = 0
        · exact Or.inl all
        · exact Or.inr (Decidable.not_not.mp fun ne => skipped ⟨all, ne⟩)

theorem scanQuickExit_none {entries : List QuickExitEntry}
    (taken : scanQuickExit Owner entries = none) : ∀ E ∈ entries, ¬E.Wanted Owner := by
  induction entries with
  | nil => exact fun E member => nomatch member
  | cons head tail ih =>
      rw [scanQuickExit] at taken
      by_cases skipped : Owner ≠ 0 ∧ head.Owner ≠ Owner
      · rw [if_pos skipped] at taken
        intro E member
        rcases List.mem_cons.mp member with rfl | member
        · exact fun here => here.elim skipped.1 skipped.2
        · exact ih (Option.map_eq_none_iff.mp taken) E member
      · rw [if_neg skipped] at taken
        cases taken

theorem takeLastQuickExit_some {entries : List QuickExitEntry} {E : QuickExitEntry}
    {rest : List QuickExitEntry} (taken : takeLastQuickExit Owner entries = some (E, rest)) :
    ∃ before after, entries = before ++ E :: after ∧ rest = before ++ after ∧ E.Wanted Owner ∧
      ∀ other ∈ after, ¬other.Wanted Owner := by
  obtain ⟨⟨found, left⟩, scanned, same⟩ := Option.map_eq_some_iff.mp taken
  obtain ⟨rfl, rfl⟩ := Prod.mk.inj same
  obtain ⟨before, after, split, rfl, wanted, unwanted⟩ := scanQuickExit_some scanned
  refine ⟨after.reverse, before.reverse, ?_, ?_, wanted, ?_⟩
  · rw [← List.reverse_reverse entries, split]
    simp
  · simp
  · exact fun other member => unwanted other (List.mem_reverse.mp member)

theorem takeLastQuickExit_none {entries : List QuickExitEntry}
    (taken : takeLastQuickExit Owner entries = none) : ∀ E ∈ entries, ¬E.Wanted Owner :=
  fun E member =>
    scanQuickExit_none (Option.map_eq_none_iff.mp taken) E (List.mem_reverse.mpr member)

end Take

def HandlerEvent.added : HandlerEvent → Option QuickExitEntry
  | .addedQuickExit E => some E
  | _ => none

def HandlerEvent.executed : HandlerEvent → Option QuickExitEntry
  | .executes E => some E
  | _ => none

namespace HandlerState

def registrations (state : HandlerState) : List QuickExitEntry :=
  state.history.filterMap HandlerEvent.added

def executions (state : HandlerState) : List QuickExitEntry :=
  state.history.filterMap HandlerEvent.executed

/-- Every registration is still pending, in its place, or was executed once. -/
structure ExactlyOnce (state : HandlerState) : Prop where
  registered_once : state.registrations.Nodup
  executed_once : state.executions.Nodup
  executed_registered : ∀ E ∈ state.executions, E ∈ state.registrations
  pending : state.QuickExit = state.registrations.filter fun E => E ∉ state.executions

/-- What a turn of a drain loop outside any handler does: it executes the latest wanted
entry, or returns because there is none; the other owners' entries stay. -/
def DrainTurn (state : HandlerState) (op : HandlerOp) : Prop :=
  ∀ position drain, op = .advance position → state.drains[position]? = some drain →
    drain.inHandler = false →
    let next := step state op
    ((∃ E ∈ state.QuickExit, E.Wanted drain.Owner ∧
        (∀ other ∈ state.QuickExit, other.Wanted drain.Owner → other.id ≤ E.id) ∧
        next.history = state.history ++ [.executes E] ∧
        next.QuickExit = state.QuickExit.filter fun other => other ≠ E) ∨
      ((∀ E ∈ next.QuickExit, ¬E.Wanted drain.Owner) ∧
        next.drains = state.drains.eraseIdx position ∧
        next.history = state.history ++
          [if drain.flush then .flushed drain.Owner else .drainedAll] ∧
        next.QuickExit = state.QuickExit)) ∧
      (next.QuickExit.filter fun E => ¬E.Wanted drain.Owner) =
        state.QuickExit.filter fun E => ¬E.Wanted drain.Owner

/-- A registration that the C library has a hook for appends an entry of its owner and handler; the
calls that drain start a loop, and nothing else registers a handler. -/
def Registers (state : HandlerState) (op : HandlerOp) : Prop :=
  let next := step state op
  match op with
  | .addQuickExit Owner Fn installs =>
      if state.QuickExitHookInstalled = true ∨ installs = true then
        (state.addQuickExit Owner Fn installs).2 = 0 ∧
          ∃ E : QuickExitEntry, E.Owner = Owner ∧ E.Fn = Fn ∧
            next.QuickExit = state.QuickExit ++ [E] ∧
            next.registrations = state.registrations ++ [E] ∧ next.drains = state.drains
      else (state.addQuickExit Owner Fn installs).2 = -1 ∧ next = state
  | .flushOwner Owner =>
      next.drains = state.drains ++ [{ Owner := Owner, flush := true, inHandler := false }] ∧
        next.QuickExit = state.QuickExit ∧ next.registrations = state.registrations
  | .runAllQuickExitHandlers =>
      next.drains = state.drains ++ [{ Owner := 0, flush := false, inHandler := false }] ∧
        next.QuickExit = state.QuickExit ∧ next.registrations = state.registrations
  | _ => next.registrations = state.registrations

section Returns

variable (state : HandlerState) (position : Nat) (drain : Drain)

theorem drainReturns_QuickExit :
    (state.drainReturns position drain).QuickExit = state.QuickExit := by
  cases flush : drain.flush <;> simp [drainReturns, flush]

theorem drainReturns_drains :
    (state.drainReturns position drain).drains = state.drains.eraseIdx position := by
  cases flush : drain.flush <;> simp [drainReturns, flush]

theorem drainReturns_added : (state.drainReturns position drain).added = state.added := by
  cases flush : drain.flush <;> simp [drainReturns, flush]

theorem drainReturns_history : (state.drainReturns position drain).history =
    state.history ++ [if drain.flush then .flushed drain.Owner else .drainedAll] := by
  cases flush : drain.flush <;> simp [drainReturns, flush]

end Returns

section Registering

theorem registrations_unchanged {state next : HandlerState} {events : List HandlerEvent}
    (happened : next.history = state.history ++ events)
    (others : events.filterMap HandlerEvent.added = []) :
    next.registrations = state.registrations := by
  rw [registrations, happened, List.filterMap_append, others, List.append_nil]
  rfl

theorem advance_registrations (state : HandlerState) (position : Nat) (drain : Drain) :
    (state.advance position drain).registrations = state.registrations := by
  have returned (state : HandlerState) :
      (state.drainReturns position drain).registrations = state.registrations :=
    registrations_unchanged (drainReturns_history state position drain)
      (by cases drain.flush <;> rfl)
  rw [advance]
  split
  case isTrue => rfl
  case isFalse =>
    split
    case h_1 => exact returned state
    case h_2 E rest _ =>
      split
      case isTrue => exact returned { state with QuickExit := rest }
      case isFalse => exact registrations_unchanged rfl rfl

theorem advanceFork_registrations (state : HandlerState) :
    state.advanceFork.registrations = state.registrations := by
  rw [advanceFork]
  split
  case h_1 => rfl
  case h_2 => rfl
  case h_3 => rfl
  case h_4 =>
    split
    case h_1 => exact registrations_unchanged rfl rfl
    case h_2 =>
      split
      case isTrue => rfl
      case isFalse => exact registrations_unchanged rfl rfl

theorem registers (state : HandlerState) (op : HandlerOp) : Registers state op := by
  cases op with
  | addQuickExit Owner Fn installs =>
      cases installed : state.QuickExitHookInstalled with
      | true =>
          simp [Registers, step, addQuickExit, installed, registrations, HandlerEvent.added]
      | false =>
          cases installs with
          | true =>
              simp [Registers, step, addQuickExit, installed, registrations, HandlerEvent.added]
          | false => simp [Registers, step, addQuickExit, installed]
  | addAtfork Owner Prepare Parent Child Err =>
      simp only [Registers, step, addAtfork]
      split
      case isTrue => rfl
      case isFalse => exact registrations_unchanged rfl rfl
  | flushOwner Owner => exact ⟨rfl, rfl, rfl⟩
  | runAllQuickExitHandlers => exact ⟨rfl, rfl, rfl⟩
  | advance position =>
      simp only [Registers, step]
      split
      case h_1 => rfl
      case h_2 drain _ => exact advance_registrations state position drain
  | runAtfork phase => exact registrations_unchanged rfl rfl
  | advanceFork => exact advanceFork_registrations state

end Registering

structure QuickExitGood (state : HandlerState) : Prop where
  ordered : state.registrations.Pairwise fun E F => E.id < F.id
  numbered : ∀ E ∈ state.registrations, E.id < state.added
  executed_once : state.executions.Nodup
  executed_registered : ∀ E ∈ state.executions, E ∈ state.registrations
  pending : state.QuickExit = state.registrations.filter fun E => E ∉ state.executions
  callable : ∀ E ∈ state.QuickExit, E.Fn ≠ 0

namespace QuickExitGood

variable {state next : HandlerState} (good : state.QuickExitGood)

include good

theorem registered_once : state.registrations.Nodup :=
  good.ordered.imp fun {E F} less (same : E = F) => Nat.lt_irrefl F.id (same ▸ less)

theorem exactlyOnce : state.ExactlyOnce :=
  ⟨good.registered_once, good.executed_once, good.executed_registered, good.pending⟩

theorem pending_registered {E : QuickExitEntry} (member : E ∈ state.QuickExit) :
    E ∈ state.registrations ∧ E ∉ state.executions := by
  rw [good.pending] at member
  simpa using List.mem_filter.mp member

theorem pending_ordered : state.QuickExit.Pairwise fun E F => E.id < F.id := by
  rw [good.pending]
  exact good.ordered.sublist List.filter_sublist

theorem of_same (kept : next.QuickExit = state.QuickExit)
    (registered : next.registrations = state.registrations)
    (executed : next.executions = state.executions) (counted : state.added ≤ next.added) :
    next.QuickExitGood where
  ordered := registered ▸ good.ordered
  numbered := by
    intro E member
    exact Nat.lt_of_lt_of_le (good.numbered E (registered ▸ member)) counted
  executed_once := executed ▸ good.executed_once
  executed_registered := by
    rw [executed, registered]
    exact good.executed_registered
  pending := by
    rw [kept, registered, executed]
    exact good.pending
  callable := kept ▸ good.callable

theorem of_register {E : QuickExitEntry} (id_eq : E.id = state.added) (callable : E.Fn ≠ 0)
    (pushed : next.QuickExit = state.QuickExit ++ [E])
    (registered : next.registrations = state.registrations ++ [E])
    (executed : next.executions = state.executions) (counted : next.added = state.added + 1) :
    next.QuickExitGood := by
  have unexecuted : E ∉ state.executions := by
    intro member
    have := good.numbered E (good.executed_registered E member)
    omega
  refine ⟨?_, ?_, ?_, ?_, ?_, ?_⟩
  · rw [registered, List.pairwise_append]
    refine ⟨good.ordered, List.pairwise_singleton _ _, ?_⟩
    intro F member G last
    obtain rfl := List.mem_singleton.mp last
    rw [id_eq]
    exact good.numbered F member
  · intro F member
    rw [registered] at member
    rcases List.mem_append.mp member with member | last
    · have := good.numbered F member
      omega
    · obtain rfl := List.mem_singleton.mp last
      omega
  · rw [executed]
    exact good.executed_once
  · rw [executed, registered]
    exact fun F member => List.mem_append_left _ (good.executed_registered F member)
  · rw [pushed, registered, executed, List.filter_append, ← good.pending]
    simp [unexecuted]
  · rw [pushed]
    intro F member
    rcases List.mem_append.mp member with member | last
    · exact good.callable F member
    · obtain rfl := List.mem_singleton.mp last
      exact callable

theorem rest_of_split {E : QuickExitEntry} {before after : List QuickExitEntry}
    (split : state.QuickExit = before ++ E :: after) :
    before ++ after = state.QuickExit.filter fun F => F ≠ E := by
  have once : (before ++ E :: after).Nodup := split ▸ (good.registered_once.sublist
    (good.pending ▸ List.filter_sublist))
  obtain ⟨_, tail, apart⟩ := List.nodup_append.mp once
  have not_before : ∀ F ∈ before, F ≠ E := fun F member => apart F member E List.mem_cons_self
  have not_after : ∀ F ∈ after, F ≠ E := fun F member same =>
    (List.nodup_cons.mp tail).1 (same ▸ member)
  rw [split, List.filter_append, List.filter_cons_of_neg (by simp),
    List.filter_eq_self.mpr fun F member => by simpa using not_before F member,
    List.filter_eq_self.mpr fun F member => by simpa using not_after F member]

theorem of_execute {E : QuickExitEntry} {before after : List QuickExitEntry}
    (split : state.QuickExit = before ++ E :: after) (left : next.QuickExit = before ++ after)
    (registered : next.registrations = state.registrations)
    (executed : next.executions = state.executions ++ [E]) (counted : next.added = state.added) :
    next.QuickExitGood := by
  have here : E ∈ state.QuickExit := by simp [split]
  obtain ⟨known, unexecuted⟩ := good.pending_registered here
  have others := good.rest_of_split split
  refine ⟨?_, ?_, ?_, ?_, ?_, ?_⟩
  · rw [registered]
    exact good.ordered
  · rw [registered, counted]
    exact good.numbered
  · rw [executed]
    refine List.nodup_append.mpr ⟨good.executed_once, by simp, ?_⟩
    intro F member G last same
    exact unexecuted (List.mem_singleton.mp last ▸ same ▸ member)
  · rw [executed, registered]
    intro F member
    rcases List.mem_append.mp member with member | last
    · exact good.executed_registered F member
    · exact (List.mem_singleton.mp last) ▸ known
  · rw [left, others, registered, executed, good.pending, List.filter_filter]
    apply List.filter_congr
    intro F _
    simp only [ne_eq, List.mem_append, List.mem_singleton, not_or, decide_not,
      Bool.decide_and]
    exact Bool.and_comm _ _
  · intro F member
    refine good.callable F ?_
    rw [split]
    rw [left] at member
    rcases List.mem_append.mp member with member | member
    · exact List.mem_append_left _ member
    · exact List.mem_append_right _ (List.mem_cons_of_mem _ member)

theorem drainReturns_good {position : Nat} {drain : Drain} :
    (state.drainReturns position drain).QuickExitGood :=
  good.of_same (drainReturns_QuickExit ..)
    (by cases flush : drain.flush <;>
      simp [registrations, drainReturns_history, flush, HandlerEvent.added])
    (by cases flush : drain.flush <;>
      simp [executions, drainReturns_history, flush, HandlerEvent.executed])
    (Nat.le_of_eq (drainReturns_added ..).symm)

theorem advance_good {position : Nat} {drain : Drain} :
    (state.advance position drain).QuickExitGood := by
  rw [advance]
  split
  case isTrue => exact good.of_same rfl rfl rfl (Nat.le_refl _)
  case isFalse =>
    split
    case h_1 => exact good.drainReturns_good
    case h_2 E rest taken =>
      obtain ⟨before, after, split_eq, left, _, _⟩ := takeLastQuickExit_some taken
      have here : E ∈ state.QuickExit := by simp [split_eq]
      rw [if_neg (good.callable E here)]
      exact good.of_execute split_eq left (by simp [registrations, HandlerEvent.added])
        (by simp [executions, HandlerEvent.executed]) rfl

theorem runAtfork_good (phase : AtforkPhase) : (state.runAtfork phase).QuickExitGood :=
  good.of_same rfl (by simp [registrations, runAtfork, HandlerEvent.added])
    (by simp [executions, runAtfork, HandlerEvent.executed]) (Nat.le_refl _)

theorem advanceFork_good : state.advanceFork.QuickExitGood := by
  rw [advanceFork]
  split
  case h_1 => exact good
  case h_2 => exact good
  case h_3 => exact good.of_same rfl rfl rfl (Nat.le_refl _)
  case h_4 =>
    split
    case h_1 =>
      exact good.of_same rfl (by simp [registrations, HandlerEvent.added])
        (by simp [executions, HandlerEvent.executed]) (Nat.le_refl _)
    case h_2 E _ =>
      split
      case isTrue => exact good.of_same rfl rfl rfl (Nat.le_refl _)
      case isFalse =>
        exact good.of_same rfl (by simp [registrations, HandlerEvent.added])
          (by simp [executions, HandlerEvent.executed]) (Nat.le_refl _)

theorem step_good {op : HandlerOp} (allowed : Allowed state op) : (step state op).QuickExitGood := by
  cases op with
  | addQuickExit Owner Fn installs =>
      simp only [step, addQuickExit]
      split
      case isTrue => exact good
      case isFalse =>
        exact good.of_register rfl allowed.2 rfl (by simp [registrations, HandlerEvent.added])
          (by simp [executions, HandlerEvent.executed]) rfl
  | addAtfork Owner Prepare Parent Child Err =>
      simp only [step, addAtfork]
      split
      case isTrue => exact good
      case isFalse =>
        exact good.of_same rfl (by simp [registrations, HandlerEvent.added])
          (by simp [executions, HandlerEvent.executed]) (Nat.le_succ _)
  | flushOwner Owner => exact good.of_same rfl rfl rfl (Nat.le_refl _)
  | runAllQuickExitHandlers => exact good.of_same rfl rfl rfl (Nat.le_refl _)
  | advance position =>
      simp only [step]
      split
      case h_1 => exact good
      case h_2 drain _ => exact good.advance_good
  | runAtfork phase => exact good.runAtfork_good phase
  | advanceFork => exact good.advanceFork_good

theorem drainTurn (op : HandlerOp) : DrainTurn state op := by
  rintro position drain rfl found outside
  have stepped : step state (.advance position) = state.advance position drain := by
    simp [step, found]
  simp only [stepped, advance, outside, Bool.false_eq_true, if_false]
  cases taken : takeLastQuickExit drain.Owner state.QuickExit with
  | none =>
      refine ⟨Or.inr ⟨?_, ?_, ?_, ?_⟩, ?_⟩
      · rw [drainReturns_QuickExit]
        exact takeLastQuickExit_none taken
      · exact drainReturns_drains ..
      · exact drainReturns_history ..
      · exact drainReturns_QuickExit ..
      · rw [drainReturns_QuickExit]
  | some found =>
      obtain ⟨E, rest⟩ := found
      obtain ⟨before, after, split_eq, left, wanted, unwanted⟩ := takeLastQuickExit_some taken
      have here : E ∈ state.QuickExit := by simp [split_eq]
      have rest_eq : rest = state.QuickExit.filter fun other => other ≠ E :=
        left.trans (good.rest_of_split split_eq)
      simp only [if_neg (good.callable E here)]
      refine ⟨Or.inl ⟨E, here, wanted, ?_, rfl, rest_eq⟩, ?_⟩
      · -- the entries behind it are unwanted, those before it are older
        intro other member other_wanted
        have ordered := good.pending_ordered
        rw [split_eq] at member ordered
        rcases List.mem_append.mp member with earlier | later
        · exact Nat.le_of_lt ((List.pairwise_append.mp ordered).2.2 other earlier E
            List.mem_cons_self)
        · rcases List.mem_cons.mp later with rfl | later
          · exact Nat.le_refl _
          · exact absurd other_wanted (unwanted other later)
      · rw [left, split_eq, List.filter_append, List.filter_append,
          List.filter_cons_of_neg (by simpa using wanted)]

end QuickExitGood

theorem start_quickExitGood : ({} : HandlerState).QuickExitGood where
  ordered := List.Pairwise.nil
  numbered := fun _ member => nomatch member
  executed_once := List.Pairwise.nil
  executed_registered := fun _ member => nomatch member
  pending := rfl
  callable := fun _ member => nomatch member

end HandlerState

open HandlerState

def reentrantDrain : List HandlerOp :=
  [.addQuickExit 1 10 true, .addQuickExit 2 20 true, .addQuickExit 1 11 true, .flushOwner 1,
    .advance 0, .addQuickExit 1 12 false, .addQuickExit 2 21 false, .runAllQuickExitHandlers,
    .advance 1, .advance 1, .advance 1, .advance 0, .advance 0, .advance 1, .advance 0]

end CppInterOp
