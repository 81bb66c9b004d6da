import CppInterOp.ErrorCore

/-!
The reference count of every captured error is the number of its live owners, over all
sequences of constructions, copies, moves, assignments and destructions.
-/

namespace CppInterOp

namespace ErrorSlice

theorem touch_alive {S : ErrorSlice} (alive : S.deletions = 0) : S.touch = S := by
  simp [touch, alive]

theorem retain_alive {S : ErrorSlice} {count : Nat} (counted : S.Refcount.toNat = count)
    (alive : S.deletions = 0) (quiet : S.lateAccesses = 0) (room : count + 1 < 2 ^ 32) :
    S.retain.Refcount.toNat = count + 1 ∧ S.retain.deletions = 0 ∧
      S.retain.lateAccesses = 0 := by
  refine ⟨?_, ?_, ?_⟩
  · have wrap : S.retain.Refcount.toNat = (S.Refcount.toNat + 1) % 2 ^ 32 := by
      simp [retain]
    rw [wrap, counted, Nat.mod_eq_of_lt room]
  · simp [retain, touch_alive alive, alive]
  · simp [retain, touch_alive alive, quiet]

theorem release_alive {S : ErrorSlice} {count : Nat} (counted : S.Refcount.toNat = count + 1)
    (alive : S.deletions = 0) (quiet : S.lateAccesses = 0) :
    S.release.Refcount.toNat = count ∧ S.release.deletions = (if 0 < count then 0 else 1) ∧
      S.release.lateAccesses = 0 := by
  have decremented : (S.Refcount - 1).toNat = count := by
    have small := S.Refcount.toNat_lt
    rw [UInt32.toNat_sub, counted]
    simp only [UInt32.toNat_one]
    omega
  have last : S.Refcount = 1 ↔ count = 0 := by
    rw [← UInt32.toNat_inj, counted]
    simp
  by_cases zero : count = 0
  · subst zero
    simp only [release, last.mpr rfl, if_true, touch_alive alive, alive, quiet]
    simp
  · have more : ¬S.Refcount = 1 := fun one => zero (last.mp one)
    have positive : 0 < count := Nat.pos_of_ne_zero zero
    simp only [release, more, if_false, touch_alive alive, alive, quiet, positive, if_true]
    exact ⟨decremented, trivial, trivial⟩

end ErrorSlice

namespace ErrorOwner

variable (slices : List ErrorSlice)

theorem RetainErrorRef_of_isOk {E : ErrorRef} (ok : E.isOk = true) :
    RetainErrorRef E slices = slices := by
  simp [RetainErrorRef, ErrorRef.slice_of_isOk ok]

theorem ReleaseErrorRef_of_isOk {E : ErrorRef} (ok : E.isOk = true) :
    ReleaseErrorRef E slices = slices := by
  simp [ReleaseErrorRef, ErrorRef.slice_of_isOk ok]

/-- The guards on `m_HasError` and `isOk` skip the count only where there is none. -/
theorem construct_spec (E : ErrorRef) (kind : OwnerKind) :
    (construct E slices kind).1.held = E.slice ∧
      (construct E slices kind).2 = RetainErrorRef E slices := by
  cases kind with
  | captured => exact ⟨rfl, rfl⟩
  | result =>
      cases ok : E.isOk with
      | true => simp [construct, held, error, ok, RetainErrorRef_of_isOk slices ok,
          ErrorRef.slice_of_isOk ok]
      | false => simp [construct, held, error, ok]
  | resultVoid =>
      cases ok : E.isOk with
      | true => simp [construct, held, error, ok, RetainErrorRef_of_isOk slices ok]
      | false => simp [construct, held, error, ok]

theorem copy_spec (O : ErrorOwner) :
    (O.copy slices).1.held = O.held ∧ (O.copy slices).2.1.held = O.held ∧
      (O.copy slices).2.2 = RetainErrorRef O.error slices := by
  cases O with
  | captured Ref => exact ⟨rfl, rfl, rfl⟩
  | result m_HasError m_ErrState m_Unchecked =>
      cases m_HasError with
      | true => exact ⟨rfl, rfl, rfl⟩
      | false => exact ⟨rfl, rfl, rfl⟩
  | resultVoid m_ErrState m_Unchecked =>
      refine ⟨rfl, rfl, ?_⟩
      cases ok : m_ErrState.isOk with
      | true => simp [copy, error, ok, RetainErrorRef_of_isOk slices ok]
      | false => simp [copy, error, ok]

theorem move_spec (O : ErrorOwner) : O.move.1.held = O.held ∧ O.move.2.held = none := by
  cases O with
  | captured Ref => exact ⟨rfl, rfl⟩
  | result m_HasError m_ErrState m_Unchecked =>
      cases m_HasError with
      | true => exact ⟨rfl, rfl⟩
      | false => exact ⟨rfl, rfl⟩
  | resultVoid m_ErrState m_Unchecked => exact ⟨rfl, rfl⟩

theorem share_spec {O made : ErrorOwner} {slices next : List ErrorSlice}
    (shared : O.share slices = some (made, next)) :
    made.held = O.held ∧ next = RetainErrorRef O.error slices := by
  cases O with
  | captured Ref => cases shared
  | result m_HasError m_ErrState m_Unchecked =>
      cases m_HasError with
      | true =>
          obtain ⟨rfl, rfl⟩ : captured m_ErrState = made ∧ _ = next := by
            simpa [share, construct] using shared
          exact ⟨rfl, rfl⟩
      | false =>
          obtain ⟨rfl, rfl⟩ : captured {} = made ∧ _ = next := by
            simpa [share] using shared
          exact ⟨rfl, rfl⟩
  | resultVoid m_ErrState m_Unchecked =>
      obtain ⟨rfl, rfl⟩ : captured m_ErrState = made ∧ _ = next := by
        simpa [share, construct] using shared
      exact ⟨rfl, rfl⟩

theorem destroy_spec {debug : Bool} {O : ErrorOwner} {slices next : List ErrorSlice}
    (destroyed : O.destroy debug slices = some next) :
    next = ReleaseErrorRef O.error slices := by
  cases O with
  | captured Ref => exact (Option.some.inj destroyed).symm
  | result m_HasError m_ErrState m_Unchecked =>
      have kept := destroyed
      simp only [destroy] at kept
      split at kept
      · cases kept
      · rw [← Option.some.inj kept]
        cases m_HasError with
        | true => rfl
        | false => rfl
  | resultVoid m_ErrState m_Unchecked =>
      have kept := destroyed
      simp only [destroy] at kept
      split at kept
      · cases kept
      · rw [← Option.some.inj kept]
        cases ok : m_ErrState.isOk with
        | true => simp [error, ReleaseErrorRef_of_isOk slices ok]
        | false => simp [error]

theorem markChecked_held (O : ErrorOwner) : O.markChecked.held = O.held := by
  cases O with
  | captured Ref => rfl
  | result m_HasError m_ErrState m_Unchecked => rfl
  | resultVoid m_ErrState m_Unchecked => rfl

end ErrorOwner

namespace ErrorState

structure Good (state : ErrorState) : Prop where
  sound : state.Sound
  fresh_unowned : ∀ n ∈ state.fresh, state.ownersOf n = 0
  fresh_known : ∀ n ∈ state.fresh, n < state.slices.length
  owned_known : ∀ n, 0 < state.ownersOf n → n < state.slices.length

variable {state next : ErrorState}

theorem owner_eq_some {position : Nat} {O : ErrorOwner} (found : state.owner position = some O) :
    state.owners[position]? = some (some O) := by
  rw [owner] at found
  cases at_position : state.owners[position]? with
  | none => simp [at_position] at found
  | some place => simpa [at_position] using found

theorem held_mem {position n : Nat} {O : ErrorOwner} (found : state.owner position = some O)
    (holds : O.held = some n) : 0 < state.ownersOf n :=
  Shares.sharesOf_pos held (List.mem_of_getElem? (owner_eq_some found)) holds

theorem Good.alive (good : state.Good) {n : Nat} {S : ErrorSlice}
    (present : state.slices[n]? = some S) (wanted : n ∈ state.fresh ∨ 0 < state.ownersOf n) :
    S.deletions = 0 := by
  simpa [wanted] using (good.sound n S present).2.1

theorem Good.not_fresh (good : state.Good) {n : Nat} (owned : 0 < state.ownersOf n) :
    n ∉ state.fresh := by
  intro member
  have := good.fresh_unowned n member
  omega

theorem Good.of_same (good : state.Good) (slices_eq : next.slices = state.slices)
    (owners_eq : ∀ n, next.ownersOf n = state.ownersOf n) (fresh_eq : next.fresh = state.fresh) :
    next.Good where
  sound := by
    intro n S present
    rw [fresh_eq, owners_eq]
    exact good.sound n S (slices_eq ▸ present)
  fresh_unowned := by
    intro n member
    rw [owners_eq]
    exact good.fresh_unowned n (fresh_eq ▸ member)
  fresh_known := by
    intro n member
    rw [slices_eq]
    exact good.fresh_known n (fresh_eq ▸ member)
  owned_known := by
    intro n positive
    rw [slices_eq]
    exact good.owned_known n (owners_eq n ▸ positive)

theorem Good.of_retain (good : state.Good) {E : ErrorRef}
    (wanted : ∀ n, E.slice = some n → n ∈ state.fresh ∨ 0 < state.ownersOf n)
    (slices_eq : next.slices = RetainErrorRef E state.slices)
    (owners_eq : ∀ n, next.ownersOf n = state.ownersOf n + if E.slice = some n then 1 else 0)
    (fresh_iff : ∀ n, n ∈ next.fresh ↔ n ∈ state.fresh ∧ E.slice ≠ some n)
    (within : next.Within) : next.Good := by
  cases found : E.slice with
  | none =>
      have same : next.slices = state.slices := by simp [slices_eq, RetainErrorRef, found]
      have counts : ∀ n, next.ownersOf n = state.ownersOf n := by
        intro n
        simp [owners_eq n, found]
      have fresh : ∀ n, n ∈ next.fresh ↔ n ∈ state.fresh := by
        intro n
        simp [fresh_iff n, found]
      refine ⟨?_, ?_, ?_, ?_⟩
      · intro n S present
        simp only [fresh n, counts n]
        exact good.sound n S (same ▸ present)
      · intro n member
        rw [counts]
        exact good.fresh_unowned n ((fresh n).mp member)
      · intro n member
        rw [same]
        exact good.fresh_known n ((fresh n).mp member)
      · intro n positive
        rw [same]
        exact good.owned_known n (counts n ▸ positive)
  | some k =>
      have length : next.slices.length = state.slices.length := by
        simp [slices_eq, RetainErrorRef, found]
      have known : k < state.slices.length := by
        rcases wanted k found with fresh | owned
        · exact good.fresh_known k fresh
        · exact good.owned_known k owned
      have others : ∀ n, n ≠ k → next.ownersOf n = state.ownersOf n := by
        intro n ne
        simp [owners_eq n, found, ne.symm]
      have one_more : next.ownersOf k = state.ownersOf k + 1 := by
        simp [owners_eq k, found]
      refine ⟨?_, ?_, ?_, ?_⟩
      · intro n S present
        by_cases here : n = k
        · subst here
          have old := List.getElem?_eq_getElem known
          have retained : S = (state.slices[n]).retain := by
            rw [slices_eq, RetainErrorRef, found] at present
            simpa [List.getElem?_modify, old] using present.symm
          obtain ⟨counted, _, quiet⟩ := good.sound n _ old
          have room : state.ownersOf n + 1 < 2 ^ 32 := one_more ▸ within n
          have kept := ErrorSlice.retain_alive counted (good.alive old (wanted n found)) quiet room
          have owned : 0 < next.ownersOf n := by omega
          rw [retained, one_more] at *
          refine ⟨kept.1, ?_, kept.2.2⟩
          rw [kept.2.1, if_pos (Or.inr owned)]
        · have present' : state.slices[n]? = some S := by
            rw [slices_eq, RetainErrorRef, found] at present
            simpa [List.getElem?_modify, Ne.symm here] using present
          have fresh : n ∈ next.fresh ↔ n ∈ state.fresh := by
            simp [fresh_iff n, found, Ne.symm here]
          simp only [fresh, others n here]
          exact good.sound n S present'
      · intro n member
        obtain ⟨old, other⟩ := (fresh_iff n).mp member
        have ne : n ≠ k := fun same => other (same ▸ found)
        rw [others n ne]
        exact good.fresh_unowned n old
      · intro n member
        rw [length]
        exact good.fresh_known n ((fresh_iff n).mp member).1
      · intro n positive
        rw [length]
        by_cases here : n = k
        · exact here ▸ known
        · exact good.owned_known n (others n here ▸ positive)

theorem Good.of_release (good : state.Good) {E : ErrorRef}
    (slices_eq : next.slices = ReleaseErrorRef E state.slices)
    (owners_eq : ∀ n, next.ownersOf n + (if E.slice = some n then 1 else 0) = state.ownersOf n)
    (fresh_eq : next.fresh = state.fresh) : next.Good := by
  cases found : E.slice with
  | none =>
      refine good.of_same ?_ ?_ fresh_eq
      · simp [slices_eq, ReleaseErrorRef, found]
      · intro n
        simpa [found] using owners_eq n
  | some k =>
      have length : next.slices.length = state.slices.length := by
        simp [slices_eq, ReleaseErrorRef, found]
      have others : ∀ n, n ≠ k → next.ownersOf n = state.ownersOf n := by
        intro n ne
        simpa [found, ne.symm] using owners_eq n
      have one_less : next.ownersOf k + 1 = state.ownersOf k := by
        simpa [found] using owners_eq k
      have less : ∀ n, next.ownersOf n ≤ state.ownersOf n := by
        intro n
        have := owners_eq n
        omega
      refine ⟨?_, ?_, ?_, ?_⟩
      · intro n S present
        rw [fresh_eq]
        by_cases here : n = k
        · subst here
          have owned : 0 < state.ownersOf n := by omega
          have known := good.owned_known n owned
          have old := List.getElem?_eq_getElem known
          have released : S = (state.slices[n]).release := by
            rw [slices_eq, ReleaseErrorRef, found] at present
            simpa [List.getElem?_modify, old] using present.symm
          obtain ⟨counted, _, quiet⟩ := good.sound n _ old
          have not_fresh := good.not_fresh owned
          have kept := ErrorSlice.release_alive (one_less ▸ counted)
            (good.alive old (Or.inr owned)) quiet
          rw [released]
          simpa [not_fresh] using kept
        · have present' : state.slices[n]? = some S := by
            rw [slices_eq, ReleaseErrorRef, found] at present
            simpa [List.getElem?_modify, Ne.symm here] using present
          rw [others n here]
          exact good.sound n S present'
      · intro n member
        have := good.fresh_unowned n (fresh_eq ▸ member)
        have := less n
        omega
      · intro n member
        rw [length]
        exact good.fresh_known n (fresh_eq ▸ member)
      · intro n positive
        rw [length]
        exact good.owned_known n (Nat.lt_of_lt_of_le positive (less n))

section Places

variable {position : Nat} {O : ErrorOwner}

theorem ownersOf_append (state : ErrorState) (made : ErrorOwner) (n : Nat) :
    Shares.sharesOf held (state.owners ++ [some made]) n =
      state.ownersOf n + if made.held = some n then 1 else 0 :=
  Shares.sharesOf_append_one held state.owners (some made) n

theorem ownersOf_set (found : state.owner position = some O) (place : Option ErrorOwner)
    (n : Nat) :
    Shares.sharesOf held (state.owners.set position place) n +
        (if O.held = some n then 1 else 0) =
      state.ownersOf n + Shares.share held place n :=
  Shares.sharesOf_set held place (owner_eq_some found) n

theorem ownersOf_set_same (found : state.owner position = some O) {marked : ErrorOwner}
    (same : marked.held = O.held) (n : Nat) :
    Shares.sharesOf held (state.owners.set position (some marked)) n = state.ownersOf n := by
  have moved := ownersOf_set found (some marked) n
  have kept : Shares.share held (some marked) n = if O.held = some n then 1 else 0 := by
    rw [← same]
    rfl
  omega

theorem ownersOf_shared {next : ErrorState} {marked made : ErrorOwner}
    (found : state.owner position = some O) (marked_held : marked.held = O.held)
    (made_held : made.held = O.held)
    (owners_eq : next.owners = state.owners.set position (some marked) ++ [some made]) (n : Nat) :
    next.ownersOf n = state.ownersOf n + if O.error.slice = some n then 1 else 0 := by
  have appended := Shares.sharesOf_append_one held
    (state.owners.set position (some marked)) (some made) n
  rw [ownersOf_set_same found marked_held] at appended
  have held_eq : Shares.share held (some made) n = if O.error.slice = some n then 1 else 0 := by
    change (if made.held = some n then 1 else 0) = _
    rw [made_held]
    rfl
  exact (congrArg (Shares.sharesOf held · n) owners_eq).trans (appended.trans (congrArg _ held_eq))

end Places

section Steps

variable {source target : Nat} {O : ErrorOwner} (good : state.Good)

include good

theorem makeError_good (S : Status) : (state.makeError S).Good := by
  have grown : (state.makeError S).slices.length = state.slices.length + 1 := by
    simp [makeError]
  have unowned : state.ownersOf state.slices.length = 0 := by
    have := good.owned_known state.slices.length
    omega
  refine ⟨?_, ?_, ?_, ?_⟩
  · intro n slice present
    by_cases last : n = state.slices.length
    · subst last
      obtain rfl : slice = { Code := S } := by
        simpa [makeError] using present.symm
      have none_yet : (state.makeError S).ownersOf state.slices.length = 0 := unowned
      rw [none_yet]
      simp [makeError]
    · have bound : n < (state.makeError S).slices.length := (List.getElem?_eq_some_iff.mp present).1
      have old : state.slices[n]? = some slice := by
        simpa [makeError, List.getElem?_append_left (show n < state.slices.length by omega)]
          using present
      have fresh : n ∈ (state.makeError S).fresh ↔ n ∈ state.fresh := by
        simp [makeError, last]
      simp only [fresh]
      exact good.sound n slice old
  · intro n member
    have cases_of : n ∈ state.fresh ∨ n = state.slices.length := by
      simpa [makeError] using member
    rcases cases_of with old | rfl
    · exact good.fresh_unowned n old
    · exact unowned
  · intro n member
    have cases_of : n ∈ state.fresh ∨ n = state.slices.length := by
      simpa [makeError] using member
    rcases cases_of with old | rfl
    · have := good.fresh_known n old
      omega
    · omega
  · intro n positive
    have := good.owned_known n positive
    omega

theorem construct_good {kind : OwnerKind} {E : ErrorRef}
    (wanted : ∀ n, E.slice = some n → n ∈ state.fresh ∨ 0 < state.ownersOf n)
    (within : (state.construct kind E).Within) : (state.construct kind E).Good := by
  have made := ErrorOwner.construct_spec state.slices E kind
  refine good.of_retain wanted made.2 ?_ ?_ within
  · intro n
    rw [← made.1]
    exact ownersOf_append state _ n
  · intro n
    simp [construct]

theorem of_shared {marked made : ErrorOwner} (found : state.owner source = some O)
    (marked_held : marked.held = O.held) (made_held : made.held = O.held)
    (owners_eq : next.owners = state.owners.set source (some marked) ++ [some made])
    (slices_eq : next.slices = RetainErrorRef O.error state.slices)
    (fresh_eq : next.fresh = state.fresh) (within : next.Within) : next.Good := by
  have live : ∀ n, O.error.slice = some n → 0 < state.ownersOf n :=
    fun n holds => held_mem found holds
  refine good.of_retain (fun n holds => Or.inr (live n holds)) slices_eq ?_ ?_ within
  · exact ownersOf_shared found marked_held made_held owners_eq
  · intro n
    rw [fresh_eq]
    exact ⟨fun member => ⟨member, fun holds => good.not_fresh (live n holds) member⟩, And.left⟩

theorem copy_good (found : state.owner source = some O) (within : (state.copy source O).Within) :
    (state.copy source O).Good := by
  obtain ⟨copied, marked, slices⟩ := ErrorOwner.copy_spec state.slices O
  exact of_shared good found marked copied rfl slices rfl within

theorem of_moved {left made : ErrorOwner} (found : state.owner source = some O)
    (left_held : left.held = none) (made_held : made.held = O.held)
    (owners_eq : next.owners = state.owners.set source (some left) ++ [some made])
    (slices_eq : next.slices = state.slices) (fresh_eq : next.fresh = state.fresh) :
    next.Good := by
  refine good.of_same slices_eq ?_ fresh_eq
  intro n
  have appended := Shares.sharesOf_append_one held
    (state.owners.set source (some left)) (some made) n
  have replaced := ownersOf_set found (some left) n
  have gone : Shares.share held (some left) n = 0 := Shares.share_of_none left_held n
  have arrived : Shares.share held (some made) n = if O.held = some n then 1 else 0 := by
    rw [← made_held]
    rfl
  have total : next.ownersOf n = _ := (congrArg (Shares.sharesOf held · n) owners_eq).trans appended
  omega

theorem move_good (found : state.owner source = some O) : (state.move source O).Good := by
  obtain ⟨moved, left⟩ := ErrorOwner.move_spec O
  exact of_moved good found left moved rfl rfl rfl

theorem share_good (found : state.owner source = some O)
    (within : (state.share source O).Within) : (state.share source O).Good := by
  cases shared : O.share state.slices with
  | none => simpa [share, shared] using good
  | some made =>
      obtain ⟨captured, slices⟩ := ErrorOwner.share_spec shared
      have unfolded : state.share source O =
          { state with
            owners := state.owners.set source (some O.markChecked) ++ [some made.1]
            slices := made.2 } := by
        simp [share, shared]
      rw [unfolded] at within ⊢
      exact of_shared good found O.markChecked_held captured rfl slices rfl within

/-- Between the release and the retain of an assignment, the target owns nothing. -/
theorem drop_good {Ref : ErrorRef} (found : state.owner target = some (.captured Ref)) :
    ({ state with
        slices := ReleaseErrorRef Ref state.slices
        owners := state.owners.set target (some (.captured {})) } : ErrorState).Good := by
  refine good.of_release rfl ?_ rfl
  intro n
  have replaced := ownersOf_set found (some (.captured {})) n
  have gone : Shares.share held (some (.captured {})) n = 0 := rfl
  rw [gone] at replaced
  exact replaced

theorem assignCopy_good (within : (state.assignCopy target source).Within) :
    (state.assignCopy target source).Good := by
  revert within
  rw [assignCopy]
  split
  case h_2 => exact fun _ => good
  case h_1 Ref ORef target_eq source_eq =>
    split
    case isFalse => exact fun _ => good
    case isTrue ne =>
      intro within
      refine (drop_good good target_eq).of_retain ?_ rfl ?_ ?_ within
      · intro n holds
        refine Or.inr (held_mem (?_ : owner _ source = some (.captured ORef)) holds)
        simpa [owner, List.getElem?_set_ne ne] using source_eq
      · intro n
        have taken := ownersOf_set target_eq (some (.captured ORef)) n
        have dropped := ownersOf_set target_eq (some (.captured {})) n
        have gone : Shares.share held (some (.captured {})) n = 0 := rfl
        have arrived : Shares.share held (some (.captured ORef)) n =
            if ORef.slice = some n then 1 else 0 := rfl
        change Shares.sharesOf held (state.owners.set target (some (.captured ORef))) n =
          Shares.sharesOf held (state.owners.set target (some (.captured {}))) n + _
        omega
      · intro n
        have live : ORef.slice = some n → 0 < state.ownersOf n := fun holds =>
          held_mem source_eq holds
        exact ⟨fun member => ⟨member, fun holds => good.not_fresh (live holds) member⟩, And.left⟩

theorem assignMove_good : (state.assignMove target source).Good := by
  rw [assignMove]
  split
  case h_2 => exact good
  case h_1 Ref ORef target_eq source_eq =>
    split
    case isFalse => exact good
    case isTrue ne =>
      refine (drop_good good target_eq).of_same rfl ?_ rfl
      intro n
      have source_still : (state.owners.set target (some (.captured ORef)))[source]? =
          some (some (.captured ORef)) := by
        rw [List.getElem?_set_ne ne]
        exact owner_eq_some source_eq
      have emptied := Shares.sharesOf_set held (some (.captured {})) source_still n
      have taken := ownersOf_set target_eq (some (.captured ORef)) n
      have dropped := ownersOf_set target_eq (some (.captured {})) n
      have gone : Shares.share held (some (.captured {})) n = 0 := rfl
      change Shares.sharesOf held ((state.owners.set target (some (.captured ORef))).set source
          (some (.captured {}))) n =
        Shares.sharesOf held (state.owners.set target (some (.captured {}))) n
      omega

theorem check_good (found : state.owner source = some O) : (state.check source O).Good :=
  good.of_same rfl (fun n => ownersOf_set_same found O.markChecked_held n) rfl

theorem readStatus_live {E : ErrorRef} (live : ∀ n, E.slice = some n → 0 < state.ownersOf n) :
    readStatus E state.slices = state.slices := by
  cases slice_eq : E.slice with
  | none => simp [readStatus, slice_eq]
  | some k =>
      have known := good.owned_known k (live k slice_eq)
      have alive := good.alive (List.getElem?_eq_getElem known) (Or.inr (live k slice_eq))
      apply List.ext_getElem?
      intro n
      simp only [readStatus, slice_eq, List.getElem?_modify]
      by_cases here : k = n
      · subst here
        simp [List.getElem?_eq_getElem known, ErrorSlice.touch_alive alive]
      · simp [here]

theorem status_good (found : state.owner source = some O) : (state.status source O).Good := by
  refine good.of_same ?_ (fun n => ownersOf_set_same found O.markChecked_held n) rfl
  exact readStatus_live good fun n holds => held_mem found holds

theorem of_dropped (found : state.owner target = some O)
    (owners_eq : next.owners = state.owners.set target none)
    (slices_eq : next.slices = ReleaseErrorRef O.error state.slices)
    (fresh_eq : next.fresh = state.fresh) : next.Good := by
  refine good.of_release slices_eq ?_ fresh_eq
  intro n
  have replaced := ownersOf_set found none n
  have gone : Shares.share held none n = 0 := rfl
  rw [gone, ← owners_eq] at replaced
  exact replaced

theorem destroy_good {debug : Bool} (found : state.owner target = some O) :
    (destroy debug state target O).Good := by
  cases destroyed : O.destroy debug state.slices with
  | none =>
      simp only [destroy, destroyed]
      exact good.of_same rfl (fun _ => rfl) rfl
  | some slices =>
      simp only [destroy, destroyed]
      exact of_dropped good found rfl (ErrorOwner.destroy_spec destroyed) rfl

theorem onOwner_good {position : Nat} {act : ErrorOwner → ErrorState}
    (kept : ∀ O, state.owner position = some O → (act O).Good) :
    (state.onOwner position act).Good := by
  cases found : state.owner position with
  | none => simpa [onOwner, found] using good
  | some O => simpa [onOwner, found] using kept O found

theorem value_good (bits : Nat) :
    ({ state with
        owners := state.owners ++ [some (.result false { bits := bits } true)] } :
      ErrorState).Good := by
  refine good.of_same rfl ?_ rfl
  intro n
  exact ownersOf_append state (.result false { bits := bits } true) n

theorem step_good {debug : Bool} {op : ErrorOp} (allowed : Allowed state op)
    (within : (step debug state op).Within) : (step debug state op).Good := by
  revert within
  unfold step
  split
  case isTrue => exact fun _ => good
  case isFalse =>
    intro within
    cases op with
    | makeError S => exact makeError_good good S
    | construct kind E => exact construct_good good allowed within
    | value bits => exact value_good good bits
    | copy source =>
        refine onOwner_good good fun O found => copy_good good found ?_
        simpa [onOwner, found] using within
    | move source => exact onOwner_good good fun O found => move_good good found
    | share source =>
        refine onOwner_good good fun O found => share_good good found ?_
        simpa [onOwner, found] using within
    | assignCopy target source => exact assignCopy_good good within
    | assignMove target source => exact assignMove_good good
    | check source => exact onOwner_good good fun O found => check_good good found
    | status source => exact onOwner_good good fun O found => status_good good found
    | destroy target => exact onOwner_good good fun O found => destroy_good good found

end Steps

theorem start_good : ({} : ErrorState).Good where
  sound := by
    intro n S present
    simp at present
  fresh_unowned := by
    intro n member
    cases member
  fresh_known := by
    intro n member
    cases member
  owned_known := by
    intro n positive
    exact absurd positive (Nat.lt_irrefl 0)

theorem RetainErrorRef_plain {E : ErrorRef} (plain : E.isSlice = false)
    (slices : List ErrorSlice) : RetainErrorRef E slices = slices := by
  simp [RetainErrorRef, (E.slice_eq_none_iff).mpr plain]

theorem ReleaseErrorRef_plain {E : ErrorRef} (plain : E.isSlice = false)
    (slices : List ErrorSlice) : ReleaseErrorRef E slices = slices := by
  simp [ReleaseErrorRef, (E.slice_eq_none_iff).mpr plain]

theorem readStatus_plain {E : ErrorRef} (plain : E.isSlice = false) (slices : List ErrorSlice) :
    readStatus E slices = slices := by
  simp [readStatus, (E.slice_eq_none_iff).mpr plain]

theorem onOwner_slices {position : Nat} {act : ErrorOwner → ErrorState}
    (kept : ∀ O, state.owner position = some O → (act O).slices = state.slices) :
    (state.onOwner position act).slices = state.slices := by
  cases found : state.owner position with
  | none => simp [onOwner, found]
  | some O => simpa [onOwner, found] using kept O found

theorem plain_untouched (debug : Bool) (state : ErrorState) (op : ErrorOp) :
    PlainUntouched debug state op := by
  intro existing plain
  unfold step
  split
  case isTrue => rfl
  case isFalse =>
    have of_owner : ∀ {position O}, state.owner position = some O →
        ((state.owner position).map ErrorOwner.error).toList = [O.error] := by
      intro position O found
      simp [found]
    cases op with
    | makeError S => cases existing
    | construct kind E =>
        have inert := plain E List.mem_cons_self
        exact (ErrorOwner.construct_spec state.slices E kind).2.trans
          (RetainErrorRef_plain inert _)
    | value bits => rfl
    | copy source =>
        refine onOwner_slices fun O found => ?_
        have inert := plain O.error (by simp [ErrorOp.refs, of_owner found])
        exact (ErrorOwner.copy_spec state.slices O).2.2.trans (RetainErrorRef_plain inert _)
    | move source => exact onOwner_slices fun O found => rfl
    | share source =>
        refine onOwner_slices fun O found => ?_
        have inert := plain O.error (by simp [ErrorOp.refs, of_owner found])
        cases shared : O.share state.slices with
        | none => simp [share, shared]
        | some made =>
            have retained := (ErrorOwner.share_spec shared).2
            simp [share, shared, retained, RetainErrorRef_plain inert]
    | assignCopy target source =>
        simp only [assignCopy]
        split
        case h_2 => rfl
        case h_1 Ref ORef target_eq source_eq =>
          have old := plain Ref (by simp [ErrorOp.refs, of_owner target_eq, ErrorOwner.error])
          have new := plain ORef (by simp [ErrorOp.refs, of_owner source_eq, ErrorOwner.error])
          split
          case isFalse => rfl
          case isTrue => simp [RetainErrorRef_plain new, ReleaseErrorRef_plain old]
    | assignMove target source =>
        simp only [assignMove]
        split
        case h_2 => rfl
        case h_1 Ref ORef target_eq source_eq =>
          have old := plain Ref (by simp [ErrorOp.refs, of_owner target_eq, ErrorOwner.error])
          split
          case isFalse => rfl
          case isTrue => simp [ReleaseErrorRef_plain old]
    | check source => exact onOwner_slices fun O found => rfl
    | status source =>
        refine onOwner_slices fun O found => ?_
        have inert := plain O.error (by simp [ErrorOp.refs, of_owner found])
        exact readStatus_plain inert _
    | destroy target =>
        refine onOwner_slices fun O found => ?_
        have inert := plain O.error (by simp [ErrorOp.refs, of_owner found])
        cases destroyed : O.destroy debug state.slices with
        | none => simp [destroy, destroyed]
        | some slices =>
            simp [destroy, destroyed, ErrorOwner.destroy_spec destroyed,
              ReleaseErrorRef_plain inert]

end ErrorState

open ErrorState

theorem error_slices_counted (debug : Bool) (ops : List ErrorOp)
    (permitted : Runs.EveryStep (step debug) Allowed {} ops)
    (within : Runs.EveryState (step debug) Within {} ops) :
    Runs.EveryState (step debug) Sound {} ops ∧
      Runs.EveryStep (step debug) (PlainUntouched debug) {} ops := by
  refine ⟨?_, Runs.everyStep_of_forall fun state op => plain_untouched debug state op⟩
  have bounded := Runs.everyStep_next within
  have steps := permitted.and bounded
  refine (Runs.everyState_of_invariant Good start_good ?_ steps).imp fun _ good => good.sound
  intro state op good allowed
  exact step_good good allowed.1 allowed.2

def sharedError : List ErrorOp :=
  [.makeError .NotFound, .construct .result (ErrorRef.makeSlice 0), .share 0, .copy 1,
    .assignMove 1 2, .assignCopy 1 1, .status 1, .move 0, .destroy 0, .destroy 3, .destroy 1,
    .destroy 2]

theorem within_of_few {state : ErrorState} (few : state.owners.length < 2 ^ 32) :
    state.Within :=
  fun _ => Nat.lt_of_le_of_lt List.countP_le_length few

theorem error_slices_counted_shared :
    Runs.EveryState (step true) Sound {} sharedError ∧
      Runs.EveryStep (step true) (PlainUntouched true) {} sharedError := by
  refine error_slices_counted true sharedError (by decide) ?_
  have few : Runs.EveryState (step true) (fun state => state.owners.length < 2 ^ 32) {}
      sharedError := by decide
  exact few.imp fun _ => within_of_few

section Crowd

def crowd (count : Nat) : ErrorState :=
  { slices := [{ Refcount := UInt32.ofNat count, Code := .NotFound }]
    owners := List.replicate count (some (.captured (ErrorRef.makeSlice 0))) }

theorem crowd_copy (debug : Bool) (count : Nat) :
    step debug (crowd (count + 1)) (.copy 0) = crowd (count + 2) := by
  have found : (crowd (count + 1)).owner 0 = some (.captured (ErrorRef.makeSlice 0)) := by
    simp [crowd, owner]
  have alive : (crowd (count + 1)).aborted = false := rfl
  have more : (crowd (count + 1)).owners ++ [some (.captured (ErrorRef.makeSlice 0))] =
      (crowd (count + 2)).owners := (List.replicate_succ' ..).symm
  have kept : (crowd (count + 1)).owners.set 0 (some (.captured (ErrorRef.makeSlice 0))) =
      (crowd (count + 1)).owners := by
    simp [crowd, List.replicate_succ]
  have retained : RetainErrorRef (ErrorRef.makeSlice 0) (crowd (count + 1)).slices =
      (crowd (count + 2)).slices := by
    have next : UInt32.ofNat (count + 1) + 1 = UInt32.ofNat (count + 2) := by
      rw [UInt32.ofNat_add (count + 1) 1]
      rfl
    simp only [RetainErrorRef, ErrorRef.slice_makeSlice, crowd, List.modify_zero_cons,
      ErrorSlice.retain, ErrorSlice.touch, next]
    rfl
  simp only [step, alive, onOwner, found, ErrorState.copy, ErrorOwner.copy, kept, more, retained]
  rfl

theorem crowd_copies (debug : Bool) (count more : Nat) :
    Runs.run (step debug) (crowd (count + 1)) (List.replicate more (.copy 0)) =
      crowd (count + 1 + more) := by
  induction more generalizing count with
  | zero => rfl
  | succ more ih =>
      rw [List.replicate_succ, Runs.run, crowd_copy, ih (count + 1)]
      congr 1
      omega

theorem crowd_made (debug : Bool) :
    Runs.run (step debug) {} [.makeError .NotFound, .construct .captured (ErrorRef.makeSlice 0)] =
      crowd 1 := by
  cases debug with
  | false => decide
  | true => decide

/-- The count has come round to one while there are more owners than that. -/
theorem crowd_destroy (debug : Bool) {count : Nat} (round : UInt32.ofNat (count + 2) = 1) :
    ¬(step debug (crowd (count + 2)) (.destroy 0)).Sound := by
  intro sound
  have found : (crowd (count + 2)).owner 0 = some (.captured (ErrorRef.makeSlice 0)) := by
    simp [crowd, owner]
  have stepped : step debug (crowd (count + 2)) (.destroy 0) =
      { slices := [{ Refcount := 0, Code := .NotFound, deletions := 1 }]
        owners := none ::
          List.replicate (count + 1) (some (.captured (ErrorRef.makeSlice 0))) } := by
    have alive : (crowd (count + 2)).aborted = false := rfl
    have released : ReleaseErrorRef (ErrorRef.makeSlice 0) (crowd (count + 2)).slices =
        [{ Refcount := 0, Code := .NotFound, deletions := 1 }] := by
      simp only [ReleaseErrorRef, ErrorRef.slice_makeSlice, crowd, round]
      rfl
    simp only [step, alive, onOwner, found, ErrorState.destroy, ErrorOwner.destroy, released]
    simp [crowd, List.replicate_succ]
  rw [stepped] at sound
  have deleted := (sound 0 _ rfl).2.1
  have owned : 0 < Shares.sharesOf held (none ::
      List.replicate (count + 1) (some (ErrorOwner.captured (ErrorRef.makeSlice 0)))) 0 := by
    have member : some (ErrorOwner.captured (ErrorRef.makeSlice 0)) ∈ none ::
        List.replicate (count + 1) (some (ErrorOwner.captured (ErrorRef.makeSlice 0))) := by
      simp
    exact Shares.sharesOf_pos held member rfl
  cases deleted.trans (if_pos (Or.inr owned))

def crowdOps (copies : Nat) : List ErrorOp :=
  [.makeError .NotFound, .construct .captured (ErrorRef.makeSlice 0)] ++
    (List.replicate copies (.copy 0) ++ [.destroy 0])

theorem crowdOps_allowed (debug : Bool) (copies : Nat) :
    Runs.EveryStep (step debug) Allowed {} (crowdOps copies) := by
  refine Runs.everyStep_append ?_ (Runs.everyStep_append ?_ ?_)
  · cases debug with
    | false => decide
    | true => decide
  · exact Runs.everyStep_of_mem fun state op member => (List.eq_of_mem_replicate member) ▸ trivial
  · exact ⟨trivial, trivial⟩

theorem crowdOps_run (debug : Bool) (copies : Nat) :
    Runs.run (step debug) {} (crowdOps copies) =
      step debug (crowd (copies + 1)) (.destroy 0) := by
  rw [crowdOps, Runs.run_append, crowd_made, Runs.run_append, crowd_copies debug 0 copies,
    Nat.add_comm]
  rfl

theorem error_slices_miscounted :
    Runs.EveryStep (step false) Allowed {} (crowdOps 4294967296) ∧
      ¬Runs.EveryState (step false) Sound {} (crowdOps 4294967296) := by
  refine ⟨crowdOps_allowed false _, fun every => ?_⟩
  have last := every.last
  have round : UInt32.ofNat (4294967295 + 2) = 1 := by decide
  rw [crowdOps_run] at last
  exact crowd_destroy false round last

end Crowd

end CppInterOp
