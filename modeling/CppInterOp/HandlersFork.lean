import CppInterOp.HandlersQuickExit

/-!
Fork handlers: the calls a fork owes to the owners that are still there, and the condition
on flushes under which the hooks make exactly these.
-/

namespace CppInterOp

/-- What should be called, followed along the events of a run. `live` are the registrations
whose owner has not been flushed since, `prepared` those of the fork in flight, and `due` the
hooks its phase still owes. -/
structure ForkPlan where
  live : List AtforkEntry := []
  prepared : List AtforkEntry := []
  due : List AtforkEntry := []
  kept : Bool := true
  deriving DecidableEq

namespace ForkPlan

def without (Owner : Nat) (entries : List AtforkEntry) : List AtforkEntry :=
  entries.filter fun E => E.Owner != Owner

def hooked (phase : AtforkPhase) (entries : List AtforkEntry) : List AtforkEntry :=
  entries.filter fun E => E.hook phase != 0

def follow (plan : ForkPlan) : HandlerEvent → ForkPlan
  | .addedAtfork E => { plan with live := plan.live ++ [E] }
  | .flushed Owner =>
      { plan with
        live := without Owner plan.live
        prepared := without Owner plan.prepared
        due := without Owner plan.due }
  | .phaseStarts .prepare =>
      { plan with prepared := plan.live, due := hooked .prepare plan.live.reverse }
  | .phaseStarts phase => { plan with due := hooked phase plan.prepared }
  | .calls _ E =>
      { plan with
        kept := plan.kept && plan.due.head? == some E && plan.live.contains E
        due := plan.due.tail }
  | .phaseReturns _ => { plan with kept := plan.kept && plan.due.isEmpty }
  | .addedQuickExit _ | .executes _ | .drainedAll => plan

section Lists

variable {Owner : Nat} {phase : AtforkPhase} {entries : List AtforkEntry}

theorem without_eq_self (others : ∀ E ∈ entries, E.Owner ≠ Owner) :
    without Owner entries = entries := by
  rw [without, List.filter_eq_self]
  exact fun E member => by simpa using others E member

theorem hooked_without (entries : List AtforkEntry) :
    hooked phase (without Owner entries) = without Owner (hooked phase entries) := by
  simp only [hooked, without, List.filter_filter]
  exact List.filter_congr fun E _ => Bool.and_comm _ _

theorem without_subset {more : List AtforkEntry} (subset : ∀ E ∈ entries, E ∈ more) :
    ∀ E ∈ without Owner entries, E ∈ without Owner more := by
  intro E member
  obtain ⟨present, other⟩ := List.mem_filter.mp member
  exact List.mem_filter.mpr ⟨subset E present, other⟩

end Lists

structure Live (plan : ForkPlan) : Prop where
  prepared : ∀ E ∈ plan.prepared, E ∈ plan.live
  due : ∀ E ∈ plan.due, E ∈ plan.live

theorem Live.follow {plan : ForkPlan} (live : plan.Live) (event : HandlerEvent) :
    (plan.follow event).Live := by
  cases event with
  | addedQuickExit E => exact live
  | executes E => exact live
  | drainedAll => exact live
  | phaseReturns phase => exact ⟨live.prepared, live.due⟩
  | addedAtfork E =>
      exact ⟨fun F member => List.mem_append_left _ (live.prepared F member),
        fun F member => List.mem_append_left _ (live.due F member)⟩
  | flushed Owner => exact ⟨without_subset live.prepared, without_subset live.due⟩
  | calls phase E =>
      exact ⟨live.prepared, fun F member => live.due F (List.mem_of_mem_tail member)⟩
  | phaseStarts phase =>
      have hooked_prepared : ∀ F ∈ hooked phase plan.prepared, F ∈ plan.live :=
        fun F member => live.prepared F (List.mem_filter.mp member).1
      cases phase with
      | prepare =>
          exact ⟨fun F member => member,
            fun F member => List.mem_reverse.mp (List.mem_filter.mp member).1⟩
      | parent => exact ⟨live.prepared, hooked_prepared⟩
      | child => exact ⟨live.prepared, hooked_prepared⟩

end ForkPlan

namespace HandlerState

def plan (state : HandlerState) : ForkPlan := state.history.foldl ForkPlan.follow {}

/-- Each hook called was the one owed next, of an owner not flushed since it registered the
hook, and no phase returned owing one. -/
def PlanKept (state : HandlerState) : Prop := state.plan.kept = true

instance : DecidablePred PlanKept :=
  fun state => inferInstanceAs (Decidable (state.plan.kept = true))

def hooksLeft (state : HandlerState) : List AtforkEntry :=
  let later := state.ForkSnapshot.filter fun E => E.Parent != 0 || E.Child != 0
  match state.fork with
  | .idle => []
  | .prepared => later
  | .running .prepare turn inHook =>
      ForkPlan.hooked .prepare (state.ForkSnapshot.reverse.drop (turn + inHook.toNat)) ++ later
  | .running phase turn inHook =>
      ForkPlan.hooked phase (state.ForkSnapshot.drop (turn + inHook.toNat))

def returning (state : HandlerState) : HandlerOp → Option Nat
  | .advance position =>
      state.drains[position]?.bind fun drain =>
        if drain.flush && !drain.inHandler &&
            (takeLastQuickExit drain.Owner state.QuickExit).isNone then some drain.Owner
        else none
  | _ => none

/-- No flush returns that leaves the fork in flight with a hook of the owner to run. -/
def Timely (state : HandlerState) (op : HandlerOp) : Prop :=
  ∀ Owner ∈ state.returning op, ∀ E ∈ state.hooksLeft, E.Owner ≠ Owner

instance (state : HandlerState) (op : HandlerOp) : Decidable (Timely state op) :=
  inferInstanceAs (Decidable (∀ Owner ∈ state.returning op, ∀ E ∈ state.hooksLeft, E.Owner ≠ Owner))

/-- What the operations of forks do: a registration that the C library has the hooks for makes a live
entry with the three hooks given, and each turn of a phase calls the hook that is owed next, passes an
entry that has none, or, with nothing owed, ends the phase. -/
def ForkTurn (state : HandlerState) (op : HandlerOp) : Prop :=
  let next := step state op
  match op with
  | .addAtfork Owner Prepare Parent Child Err =>
      if state.AtforkHookInstalled = true ∨ Err = 0 then
        (state.addAtfork Owner Prepare Parent Child Err).2 = 0 ∧
          ∃ E : AtforkEntry, E.Owner = Owner ∧ E.Prepare = Prepare ∧ E.Parent = Parent ∧
            E.Child = Child ∧ next.Atfork = state.Atfork ++ [E] ∧
            next.plan.live = state.plan.live ++ [E]
      else (state.addAtfork Owner Prepare Parent Child Err).2 = Err ∧ next = state
  | .runAtfork phase =>
      next.fork = .running phase 0 false ∧ next.history = state.history ++ [.phaseStarts phase]
  | .advanceFork => ∀ phase turn inHook, state.fork = .running phase turn inHook →
      if inHook = true then
        next.fork = .running phase (turn + 1) false ∧ next.history = state.history
      else
        (∃ E, state.plan.due.head? = some E ∧ next.fork = .running phase turn true ∧
          next.history = state.history ++ [.calls phase E]) ∨
        (turn < state.ForkSnapshot.length ∧ next.fork = .running phase (turn + 1) false ∧
          next.history = state.history) ∨
        state.plan.due = [] ∧ next.fork = (if phase = .prepare then .prepared else .idle) ∧
          next.history = state.history ++ [.phaseReturns phase]
  | _ => True

def Owing (state : HandlerState) : Prop :=
  match state.fork with
  | .idle | .prepared => True
  | .running phase turn inHook =>
      state.plan.due =
        ForkPlan.hooked phase ((turns state.ForkSnapshot phase).drop (turn + inHook.toNat))

def Prepared (state : HandlerState) : Prop :=
  match state.fork with
  | .prepared | .running .prepare _ _ =>
      ∀ phase, phase ≠ .prepare →
        ForkPlan.hooked phase state.plan.prepared = ForkPlan.hooked phase state.ForkSnapshot
  | _ => True

def Preparing (state : HandlerState) : Prop :=
  state.fork = .prepared ∨ ∃ turn inHook, state.fork = .running .prepare turn inHook

theorem prepared_iff {state : HandlerState} :
    state.Prepared ↔ (state.Preparing → ∀ phase, phase ≠ .prepare →
      ForkPlan.hooked phase state.plan.prepared = ForkPlan.hooked phase state.ForkSnapshot) := by
  rw [Prepared, Preparing]
  cases state.fork with
  | idle => simp
  | prepared => simp
  | running phase turn inHook =>
      cases phase with
      | prepare => simp
      | parent => simp
      | child => simp

theorem late_left {state : HandlerState} (preparing : state.Preparing) {phase : AtforkPhase}
    (late : phase ≠ .prepare) : ∀ E ∈ ForkPlan.hooked phase state.ForkSnapshot,
      E ∈ state.hooksLeft := by
  intro E member
  obtain ⟨present, hook⟩ := List.mem_filter.mp member
  have wanted : E ∈ state.ForkSnapshot.filter fun E => E.Parent != 0 || E.Child != 0 := by
    refine List.mem_filter.mpr ⟨present, ?_⟩
    cases phase with
    | prepare => exact absurd rfl late
    | parent => exact Bool.or_eq_true_iff.mpr (Or.inl hook)
    | child => exact Bool.or_eq_true_iff.mpr (Or.inr hook)
  rw [hooksLeft]
  rcases preparing with fork | ⟨turn, inHook, fork⟩
  · rw [fork]
    exact wanted
  · rw [fork]
    exact List.mem_append_right _ wanted

structure ForkGood (state : HandlerState) : Prop where
  quick : state.QuickExitGood
  owed : state.plan.Live
  live : state.plan.live = state.Atfork
  owing : state.Owing
  prepared : state.Prepared
  kept : state.PlanKept

theorem plan_of_history {state next : HandlerState} {event : HandlerEvent}
    (happened : next.history = state.history ++ [event]) :
    next.plan = state.plan.follow event := by
  rw [plan, happened, List.foldl_append]
  rfl

theorem plan_unchanged {state next : HandlerState} {event : HandlerEvent}
    (happened : next.history = state.history ++ [event])
    (ignored : ∀ plan : ForkPlan, plan.follow event = plan) : next.plan = state.plan :=
  (plan_of_history happened).trans (ignored _)

namespace ForkGood

variable {state next : HandlerState} (good : state.ForkGood)

include good

theorem of_same_fork (quick : next.QuickExitGood) (planned : next.plan = state.plan)
    (entries : next.Atfork = state.Atfork) (snapshot : next.ForkSnapshot = state.ForkSnapshot)
    (fork : next.fork = state.fork) : next.ForkGood where
  quick := quick
  owed := planned ▸ good.owed
  live := by
    rw [planned, entries]
    exact good.live
  owing := by
    rw [Owing, fork, planned, snapshot]
    exact good.owing
  prepared := by
    rw [Prepared, fork, planned, snapshot]
    exact good.prepared
  kept := by
    rw [PlanKept, planned]
    exact good.kept

theorem of_registered {E : AtforkEntry} (quick : next.QuickExitGood)
    (planned : next.plan = state.plan.follow (.addedAtfork E))
    (entries : next.Atfork = state.Atfork ++ [E])
    (snapshot : next.ForkSnapshot = state.ForkSnapshot) (fork : next.fork = state.fork) :
    next.ForkGood where
  quick := quick
  owed := planned ▸ good.owed.follow _
  live := by
    rw [planned, entries, ← good.live]
    rfl
  owing := by
    rw [Owing, fork, planned, snapshot]
    exact good.owing
  prepared := by
    rw [Prepared, fork, planned, snapshot]
    exact good.prepared
  kept := by
    rw [PlanKept, planned]
    exact good.kept

theorem due_left : state.fork ≠ .idle → state.fork ≠ .prepared →
    ∀ E ∈ state.plan.due, E ∈ state.hooksLeft := by
  intro busy started E member
  have owing := good.owing
  rw [Owing] at owing
  rw [hooksLeft]
  cases fork : state.fork with
  | idle => exact absurd fork busy
  | prepared => exact absurd fork started
  | running phase turn inHook =>
      rw [fork] at owing
      rw [owing] at member
      cases phase with
      | prepare => exact List.mem_append_left _ member
      | parent => exact member
      | child => exact member

theorem of_flushed {Owner : Nat} (quick : next.QuickExitGood)
    (planned : next.plan = state.plan.follow (.flushed Owner))
    (entries : next.Atfork = ForkPlan.without Owner state.Atfork)
    (snapshot : next.ForkSnapshot = state.ForkSnapshot) (fork : next.fork = state.fork)
    (timely : ∀ E ∈ state.hooksLeft, E.Owner ≠ Owner) : next.ForkGood := by
  refine ⟨quick, planned ▸ good.owed.follow _, ?_, ?_, ?_, ?_⟩
  · rw [planned, entries, ← good.live]
    rfl
  · rw [Owing, fork, planned, snapshot]
    have owing := good.owing
    rw [Owing] at owing
    cases at_stage : state.fork with
    | idle => trivial
    | prepared => trivial
    | running phase turn inHook =>
        rw [at_stage] at owing
        refine Eq.trans (ForkPlan.without_eq_self fun E member => ?_) owing
        exact timely E (good.due_left (by simp [at_stage]) (by simp [at_stage]) E member)
  · rw [prepared_iff, Preparing, fork, planned, snapshot]
    intro preparing phase late
    change ForkPlan.hooked phase (ForkPlan.without Owner state.plan.prepared) = _
    rw [ForkPlan.hooked_without, prepared_iff.mp good.prepared preparing phase late]
    exact ForkPlan.without_eq_self fun E member =>
      timely E (late_left preparing late E member)
  · rw [PlanKept, planned]
    exact good.kept

theorem runAtfork_good {phase : AtforkPhase} (allowed : Allowed state (.runAtfork phase)) :
    (state.runAtfork phase).ForkGood := by
  have quick := good.quick.runAtfork_good phase
  have planned : (state.runAtfork phase).plan = state.plan.follow (.phaseStarts phase) :=
    plan_of_history rfl
  have release : phase ≠ .prepare → state.fork = .prepared → (state.runAtfork phase).ForkGood := by
    intro late prepared_stage
    have prepared := prepared_iff.mp good.prepared (Or.inl prepared_stage)
    obtain ⟨follow_eq, snapshot, order⟩ : state.plan.follow (.phaseStarts phase) =
          { state.plan with due := ForkPlan.hooked phase state.plan.prepared } ∧
        (state.runAtfork phase).ForkSnapshot = state.ForkSnapshot ∧
        turns state.ForkSnapshot phase = state.ForkSnapshot := by
      cases phase with
      | prepare => exact absurd rfl late
      | parent => exact ⟨rfl, rfl, rfl⟩
      | child => exact ⟨rfl, rfl, rfl⟩
    refine ⟨quick, planned ▸ good.owed.follow _, ?_, ?_, ?_, ?_⟩
    · rw [planned, follow_eq]
      exact good.live
    · rw [Owing, planned, follow_eq, snapshot]
      simp only [runAtfork, order]
      exact prepared phase late
    · rw [prepared_iff]
      rintro (stage | ⟨turn, inHook, stage⟩)
      · cases stage
      · cases stage
        exact absurd rfl late
    · rw [PlanKept, planned, follow_eq]
      exact good.kept
  cases phase with
  | prepare =>
      refine ⟨quick, planned ▸ good.owed.follow _, ?_, ?_, ?_, ?_⟩
      · rw [planned]
        exact good.live
      · rw [Owing, planned]
        simp only [runAtfork, ForkPlan.follow, turns, good.live]
        rfl
      · rw [Prepared, planned]
        intro phase _
        simp only [runAtfork, ForkPlan.follow, good.live]
      · rw [PlanKept, planned]
        exact good.kept
  | parent => exact release (by decide) allowed
  | child => exact release (by decide) allowed

/-- A turn of the phase in progress that leaves the snapshot and the plan's entries alone. -/
theorem of_turn {phase : AtforkPhase} {turn turn' : Nat} {inHook inHook' : Bool}
    (here : state.fork = .running phase turn inHook) (quick : next.QuickExitGood)
    (owed : next.plan.Live) (live : next.plan.live = state.plan.live)
    (prepared : next.plan.prepared = state.plan.prepared) (kept : next.PlanKept)
    (entries : next.Atfork = state.Atfork) (snapshot : next.ForkSnapshot = state.ForkSnapshot)
    (fork : next.fork = .running phase turn' inHook')
    (due : next.plan.due = ForkPlan.hooked phase
      ((turns state.ForkSnapshot phase).drop (turn' + inHook'.toNat))) : next.ForkGood where
  quick := quick
  owed := owed
  live := by
    rw [live, entries]
    exact good.live
  owing := by
    rw [Owing, fork, snapshot]
    exact due
  prepared := by
    rw [prepared_iff, Preparing, fork, prepared, snapshot]
    rintro (stage | ⟨_, _, preparing⟩)
    · cases stage
    · cases preparing
      exact prepared_iff.mp good.prepared (Or.inr ⟨_, _, here⟩)
  kept := kept

theorem of_call {phase : AtforkPhase} {turn : Nat} {E : AtforkEntry}
    (here : state.fork = .running phase turn false)
    (due : state.plan.due =
      E :: ForkPlan.hooked phase ((turns state.ForkSnapshot phase).drop (turn + 1)))
    (quick : next.QuickExitGood) (planned : next.plan = state.plan.follow (.calls phase E))
    (entries : next.Atfork = state.Atfork) (snapshot : next.ForkSnapshot = state.ForkSnapshot)
    (fork : next.fork = .running phase turn true) : next.ForkGood := by
  refine good.of_turn here quick (planned ▸ good.owed.follow _) ?_ ?_ ?_ entries snapshot fork ?_
  · rw [planned]
    rfl
  · rw [planned]
    rfl
  · have known : E ∈ state.plan.live := good.owed.due E (by simp [due])
    have kept : state.plan.kept = true := good.kept
    simp [PlanKept, planned, ForkPlan.follow, due, kept, known]
  · rw [planned]
    simp [ForkPlan.follow, due]

theorem of_phase_end {phase : AtforkPhase} {turn : Nat} {inHook : Bool}
    (here : state.fork = .running phase turn inHook) (none_due : state.plan.due = [])
    (quick : next.QuickExitGood) (planned : next.plan = state.plan.follow (.phaseReturns phase))
    (entries : next.Atfork = state.Atfork) (snapshot : next.ForkSnapshot = state.ForkSnapshot)
    (fork : next.fork = if phase = .prepare then .prepared else .idle) : next.ForkGood where
  quick := quick
  owed := planned ▸ good.owed.follow _
  live := by
    rw [planned, entries]
    exact good.live
  owing := by
    rw [Owing, fork]
    cases phase with
    | prepare => trivial
    | parent => trivial
    | child => trivial
  prepared := by
    rw [prepared_iff, Preparing, fork, planned, snapshot]
    cases phase with
    | prepare => exact fun _ => prepared_iff.mp good.prepared (Or.inr ⟨_, _, here⟩)
    | parent => simp
    | child => simp
  kept := by
    have kept : state.plan.kept = true := good.kept
    simp [PlanKept, planned, ForkPlan.follow, none_due, kept]

/-- The entries from the turn of a phase on, and what the phase owes them. -/
theorem due_of_turn {phase : AtforkPhase} {turn : Nat} (here : state.fork = .running phase turn false) :
    ((turns state.ForkSnapshot phase)[turn]? = none ∧ state.plan.due = []) ∨
      ∃ E, (turns state.ForkSnapshot phase)[turn]? = some E ∧
        state.plan.due = ForkPlan.hooked phase
          (E :: (turns state.ForkSnapshot phase).drop (turn + 1)) := by
  have owing := good.owing
  rw [Owing, here] at owing
  simp only [Bool.toNat_false, Nat.add_zero] at owing
  cases at_turn : (turns state.ForkSnapshot phase)[turn]? with
  | none =>
      have ended : (turns state.ForkSnapshot phase).drop turn = [] :=
        List.drop_eq_nil_of_le (List.getElem?_eq_none_iff.mp at_turn)
      exact Or.inl ⟨rfl, by rw [owing, ended]; rfl⟩
  | some E =>
      have rest : (turns state.ForkSnapshot phase).drop turn =
          E :: (turns state.ForkSnapshot phase).drop (turn + 1) := by
        obtain ⟨bound, rfl⟩ := List.getElem?_eq_some_iff.mp at_turn
        exact List.drop_eq_getElem_cons bound
      exact Or.inr ⟨E, rfl, by rw [owing, rest]⟩

theorem advanceFork_good : state.advanceFork.ForkGood := by
  have quick := good.quick.advanceFork_good
  cases here : state.fork with
  | idle => simpa [advanceFork, here] using good
  | prepared => simpa [advanceFork, here] using good
  | running phase turn inHook =>
      have owing := good.owing
      rw [Owing, here] at owing
      cases inHook with
      | true =>
          rw [advanceFork_inHook here] at quick ⊢
          exact good.of_turn here quick good.owed rfl rfl good.kept rfl rfl rfl owing
      | false =>
          rcases good.due_of_turn here with ⟨ended, none_due⟩ | ⟨E, at_turn, due⟩
          · rw [advanceFork_over here ended] at quick ⊢
            exact good.of_phase_end here none_due quick (plan_of_history rfl) rfl rfl rfl
          · by_cases null : E.hook phase = 0
            · rw [advanceFork_null here at_turn null] at quick ⊢
              refine good.of_turn here quick good.owed rfl rfl good.kept rfl rfl rfl ?_
              exact due.trans (List.filter_cons_of_neg (by simp [null]))
            · rw [advanceFork_calls here at_turn null] at quick ⊢
              exact good.of_call here (due.trans (List.filter_cons_of_pos (by simp [null]))) quick
                (plan_of_history rfl) rfl rfl rfl

theorem forkTurn (op : HandlerOp) : ForkTurn state op := by
  cases op with
  | addAtfork Owner Prepare Parent Child Err =>
      have registered (E : AtforkEntry) (next : HandlerState)
          (happened : next.history = state.history ++ [.addedAtfork E]) :
          next.plan.live = state.plan.live ++ [E] := by
        rw [plan_of_history happened]
        rfl
      by_cases installs : state.AtforkHookInstalled = true ∨ Err = 0
      · have taken : (!state.AtforkHookInstalled && Err != 0) = false := by
          rcases installs with installed | none_wrong
          · simp [installed]
          · simp [none_wrong]
        simp only [ForkTurn, step, addAtfork, if_pos installs, taken, Bool.false_eq_true, if_false]
        exact ⟨trivial, _, rfl, rfl, rfl, rfl, rfl, registered _ _ rfl⟩
      · obtain ⟨missing, refused⟩ := not_or.mp installs
        simp [ForkTurn, step, addAtfork, missing, refused]
  | runAtfork phase => exact ⟨rfl, rfl⟩
  | advanceFork =>
      intro phase turn inHook here
      cases inHook with
      | true =>
          simp only [step, advanceFork_inHook here, if_true]
          exact ⟨trivial, trivial⟩
      | false =>
          simp only [step, Bool.false_eq_true, if_false]
          rcases good.due_of_turn here with ⟨ended, none_due⟩ | ⟨E, at_turn, due⟩
          · rw [advanceFork_over here ended]
            exact Or.inr (Or.inr ⟨none_due, rfl, rfl⟩)
          · by_cases null : E.hook phase = 0
            · rw [advanceFork_null here at_turn null]
              have bound : turn < (turns state.ForkSnapshot phase).length :=
                (List.getElem?_eq_some_iff.mp at_turn).1
              refine Or.inr (Or.inl ⟨?_, rfl, rfl⟩)
              cases phase with
              | prepare => exact (List.length_reverse ▸ bound :)
              | parent => exact bound
              | child => exact bound
            · rw [advanceFork_calls here at_turn null]
              refine Or.inl ⟨E, ?_, rfl, rfl⟩
              rw [due, ForkPlan.hooked, List.filter_cons_of_pos (by simp [null]), List.head?_cons]
  | _ => trivial

theorem advance_good {position : Nat} {drain : Drain}
    (found : state.drains[position]? = some drain) (timely : Timely state (.advance position)) :
    (state.advance position drain).ForkGood := by
  have quick : (state.advance position drain).QuickExitGood := good.quick.advance_good
  revert quick
  rw [advance]
  split
  case isTrue => exact fun quick => good.of_same_fork quick rfl rfl rfl rfl
  case isFalse outside =>
    split
    case h_1 taken =>
      rw [drainReturns]
      split
      case isTrue flush =>
        intro quick
        have returns : drain.Owner ∈ state.returning (.advance position) := by
          simp [returning, found, flush, outside, taken]
        exact good.of_flushed quick (plan_of_history rfl) rfl rfl rfl (timely _ returns)
      case isFalse =>
        exact fun quick => good.of_same_fork quick (plan_unchanged rfl fun _ => rfl) rfl rfl rfl
    case h_2 E rest taken =>
      obtain ⟨before, after, split_eq, _, _, _⟩ := takeLastQuickExit_some taken
      rw [if_neg (good.quick.callable E (by simp [split_eq]))]
      exact fun quick => good.of_same_fork quick (plan_unchanged rfl fun _ => rfl) rfl rfl rfl

theorem step_good {op : HandlerOp} (allowed : Allowed state op) (timely : Timely state op) :
    (step state op).ForkGood := by
  have quick := good.quick.step_good allowed
  cases op with
  | addQuickExit Owner Fn installs =>
      revert quick
      simp only [step, addQuickExit]
      split
      case isTrue => exact fun _ => good
      case isFalse =>
        exact fun quick => good.of_same_fork quick (plan_unchanged rfl fun _ => rfl) rfl rfl rfl
  | addAtfork Owner Prepare Parent Child Err =>
      revert quick
      simp only [step, addAtfork]
      split
      case isTrue => exact fun _ => good
      case isFalse => exact fun quick => good.of_registered quick (plan_of_history rfl) rfl rfl rfl
  | flushOwner Owner => exact good.of_same_fork quick rfl rfl rfl rfl
  | runAllQuickExitHandlers => exact good.of_same_fork quick rfl rfl rfl rfl
  | advance position =>
      cases found : state.drains[position]? with
      | none => simpa [step, found] using good
      | some drain => simpa [step, found] using good.advance_good found timely
  | runAtfork phase => exact good.runAtfork_good allowed
  | advanceFork => exact good.advanceFork_good

end ForkGood

theorem start_forkGood : ({} : HandlerState).ForkGood where
  quick := start_quickExitGood
  owed := ⟨fun _ member => member, fun _ member => member⟩
  live := rfl
  owing := trivial
  prepared := trivial
  kept := rfl

end HandlerState

open HandlerState

def forkAndFlush : List HandlerOp :=
  [.addAtfork 1 10 11 12 0, .addAtfork 2 0 21 0 0, .runAtfork .prepare, .advanceFork,
    .advanceFork, .addAtfork 3 30 31 32 0, .advanceFork, .flushOwner 3, .advance 0, .advanceFork,
    .runAtfork .parent, .advanceFork, .advanceFork, .advanceFork, .advanceFork, .advanceFork,
    .flushOwner 1, .advance 0]

/-- A prepare hook tears the other owner down, whose own hook runs all the same. -/
def flushInsideHook : List HandlerOp :=
  [.addAtfork 1 10 11 12 0, .addAtfork 2 20 0 0 0, .runAtfork .prepare, .advanceFork,
    .flushOwner 1, .advance 0, .advanceFork, .advanceFork]

end CppInterOp
