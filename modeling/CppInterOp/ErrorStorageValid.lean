import CppInterOp.ErrorStorage

/-!
When the flag of a `Result<T>` agrees with the member of the union that is alive, over all
sequences of constructions, copies, moves, accesses and destructions.
-/

namespace CppInterOp

namespace ResultObject

variable {T : Type} {R : ResultObject T}

def Coherent (R : ResultObject T) : Prop :=
  match R.storage with
  | .value _ => R.m_HasError = false
  | .errState E => R.m_HasError = true ∧ E.isOk = false

theorem Coherent.of_error (coherent : R.Coherent) (has : R.m_HasError = true) :
    ∃ E, R.storage = .errState E ∧ E.isOk = false := by
  cases stored : R.storage with
  | value V => simp [Coherent, stored, has] at coherent
  | errState E => exact ⟨E, rfl, by simpa [Coherent, stored, has] using coherent⟩

theorem Coherent.of_value (coherent : R.Coherent) (plain : R.m_HasError = false) :
    ∃ V, R.storage = .value V := by
  cases stored : R.storage with
  | value V => exact ⟨V, rfl⟩
  | errState E => simp [Coherent, stored, plain] at coherent

theorem Coherent.m_ErrState (coherent : R.Coherent) (has : R.m_HasError = true) :
    ∃ E, R.m_ErrState = some E ∧ E.isOk = false := by
  obtain ⟨E, stored, failed⟩ := coherent.of_error has
  exact ⟨E, by simp [ResultObject.m_ErrState, stored], failed⟩

theorem Coherent.valuePtr (coherent : R.Coherent) (plain : R.m_HasError = false) :
    ∃ V, R.valuePtr = some V := by
  obtain ⟨V, stored⟩ := coherent.of_value plain
  exact ⟨V, by simp [ResultObject.valuePtr, stored]⟩

theorem storage_of_m_ErrState {E : ErrorRef} (read : R.m_ErrState = some E) :
    R.storage = .errState E := by
  cases stored : R.storage with
  | value V => simp [ResultObject.m_ErrState, stored] at read
  | errState D => simpa [ResultObject.m_ErrState, stored] using read

theorem Coherent.markChecked (coherent : R.Coherent) : R.markChecked.Coherent := coherent

theorem owner_error {E : ErrorRef} (has : R.m_HasError = true) (read : R.m_ErrState = some E) :
    (ResultPlace.result R).owner.error = E := by
  simp [ResultPlace.owner, ErrorOwner.error, has, read]

theorem owner_plain (plain : R.m_HasError = false) : (ResultPlace.result R).owner.held = none := by
  simp [ResultPlace.owner, ErrorOwner.held, ErrorOwner.error, plain]

theorem owner_markChecked (R : ResultObject T) :
    (ResultPlace.result R.markChecked).owner.held = (ResultPlace.result R).owner.held := rfl

end ResultObject

namespace ResultState

variable {T : Type} {state next : ResultState T} {position : Nat} {R S : ResultObject T}

theorem mem_results : R ∈ state.results ↔ some (.result R) ∈ state.places := by
  constructor
  · intro member
    obtain ⟨place, present, found⟩ := List.mem_filterMap.mp member
    split at found
    · exact Option.some.inj found ▸ present
    · cases found
  · intro present
    exact List.mem_filterMap.mpr ⟨_, present, rfl⟩

theorem place_of_result (found : state.result position = some R) :
    state.places[position]? = some (some (.result R)) := by
  rw [result] at found
  split at found
  case h_1 Other there =>
    obtain rfl := Option.some.inj found
    exact Option.join_eq_some_iff.mp there
  case h_2 => cases found

theorem owner_of_place {place : ResultPlace T}
    (present : state.places[position]? = some (some place)) :
    state.errors.owner position = some place.owner := by
  simp [ErrorState.owner, errors, present]

theorem owner_of_result (found : state.result position = some R) :
    state.errors.owner position = some (ResultPlace.result R).owner :=
  owner_of_place (place_of_result found)

structure Good (state : ResultState T) : Prop where
  defined : state.undefined = false
  counted : state.errors.Good
  within : state.errors.Within
  coherent : ∀ R, some (.result R) ∈ state.places → R.Coherent

theorem Good.of_result (good : state.Good) (found : state.result position = some R) :
    R.Coherent := good.coherent R (List.mem_of_getElem? (place_of_result found))

theorem start_good : ({} : ResultState T).Good where
  defined := rfl
  counted := ErrorState.start_good
  within := by
    intro n
    exact Nat.two_pow_pos 32
  coherent := by
    intro R member
    cases member

theorem Good.owned (good : state.Good) {E : ErrorRef}
    (held : ∀ n ∈ E.slice, 0 < state.ownersOf n) : state.Owned E := by
  intro n wanted
  have positive := held n wanted
  have known : n < state.slices.length := good.counted.owned_known n positive
  have present : state.errors.slices[n]? = some state.slices[n] := List.getElem?_eq_getElem known
  obtain ⟨counted, _, _⟩ := good.counted.sound n _ present
  exact ⟨state.slices[n], present, good.counted.alive present (Or.inr positive), counted⟩

theorem Owned.small {E : ErrorRef} (owned : state.Owned E) {n : Nat} (wanted : n ∈ E.slice) :
    state.ownersOf n < 2 ^ 32 := by
  obtain ⟨S, _, _, counted⟩ := owned n wanted
  rw [← counted]
  exact S.Refcount.toNat_lt

theorem Good.valid (good : state.Good) : state.Valid where
  untouched := good.defined
  value_live := by
    intro R member
    have coherent := good.coherent R (mem_results.mp member)
    constructor
    · exact coherent.of_value
    · rintro ⟨V, stored⟩
      simpa [ResultObject.Coherent, stored] using coherent
  error_live := by
    intro R member
    have coherent := good.coherent R (mem_results.mp member)
    constructor
    · intro has
      obtain ⟨E, stored, failed⟩ := coherent.of_error has
      refine ⟨E, stored, failed, good.owned fun n wanted => ?_⟩
      have place : some (ResultPlace.result R).owner ∈ state.errors.owners :=
        List.mem_map.mpr ⟨_, mem_results.mp member, rfl⟩
      refine Shares.sharesOf_pos ErrorState.held place ?_
      have read : R.m_ErrState = some E := by simp [ResultObject.m_ErrState, stored]
      change (ResultPlace.result R).owner.error.slice = some n
      rw [ResultObject.owner_error has read]
      exact wanted
    · rintro ⟨E, stored, _⟩
      exact (by simpa [ResultObject.Coherent, stored] using coherent :
        R.m_HasError = true ∧ E.isOk = false).1

/-- A step that gives one error one more owner stays within the counts where there is room. -/
theorem within_of_one_more {E : ErrorRef} (good : state.Good)
    (room : state.Room E)
    (owners_eq : ∀ n, next.ownersOf n = state.ownersOf n + if E.slice = some n then 1 else 0) :
    next.errors.Within := by
  intro n
  have more := owners_eq n
  have before := good.within n
  change next.ownersOf n < 2 ^ 32
  change state.ownersOf n < 2 ^ 32 at before
  by_cases here : E.slice = some n
  · have fits := room n here
    rw [if_pos here] at more
    omega
  · rw [if_neg here] at more
    omega

theorem ofError_ownersOf (state : ResultState T) {E : ErrorRef} (n : Nat) :
    (state.ofError E).ownersOf n = state.ownersOf n + if E.slice = some n then 1 else 0 := by
  have made := ErrorOwner.construct_spec state.slices E .result
  have appended := ErrorState.ownersOf_append state.errors
    (ErrorOwner.construct E state.slices .result).1 n
  rw [made.1] at appended
  simpa [ofError, add, withSlices, errors, ownersOf, ErrorState.ownersOf, ResultPlace.owner,
    ResultObject.m_ErrState, ErrorOwner.construct] using appended

section Steps

variable (good : state.Good)

include good

theorem coherent_set {place : Option (ResultPlace T)}
    (coherent : ∀ S, place = some (.result S) → S.Coherent) :
    ∀ S, some (.result S) ∈ state.places.set position place → S.Coherent := by
  intro S member
  rcases List.mem_or_eq_of_mem_set member with old | new
  · exact good.coherent S old
  · exact coherent S new.symm

theorem of_ended : ({ state with aborted := true } : ResultState T).Good where
  defined := good.defined
  counted := good.counted.of_same rfl (fun _ => rfl) rfl
  within := good.within
  coherent := good.coherent

theorem add_good (coherent : R.Coherent) (plain : R.m_HasError = false) :
    (state.add R).Good := by
  have owners (n : Nat) : (state.add R).errors.ownersOf n = state.errors.ownersOf n := by
    have appended := ErrorState.ownersOf_append state.errors (ResultPlace.result R).owner n
    rw [if_neg (by simp [ResultObject.owner_plain plain])] at appended
    simpa [errors, add, ErrorState.ownersOf] using appended
  refine ⟨good.defined, good.counted.of_same rfl owners rfl, ?_, ?_⟩
  · intro n
    rw [owners]
    exact good.within n
  · intro S member
    rcases List.mem_append.mp member with old | new
    · exact good.coherent S old
    · obtain rfl : S = R := by simpa using new
      exact coherent

theorem check_good (found : state.result position = some R) :
    (state.check position R).Good := by
  have owners (n : Nat) : (state.check position R).errors.ownersOf n =
      state.errors.ownersOf n := by
    have same := ErrorState.ownersOf_set_same (owner_of_result found)
      R.owner_markChecked n
    simpa [errors, check, put, ErrorState.ownersOf, List.map_set] using same
  refine ⟨good.defined, good.counted.of_same rfl owners rfl, ?_, ?_⟩
  · intro n
    rw [owners]
    exact good.within n
  · refine coherent_set good fun S new => ?_
    obtain rfl : R.markChecked = S := by simpa using new
    exact (good.of_result found).markChecked

theorem makeError_good (S : Status) : (state.makeError S).Good where
  defined := good.defined
  counted := ErrorState.makeError_good good.counted S
  within := good.within
  coherent := good.coherent

theorem ofError_good {E : ErrorRef} (allowed : state.Allowed (.ofError E))
    (failed : E.isOk = false) (room : state.Room E) : (state.ofError E).Good := by
  have within := within_of_one_more good room state.ofError_ownersOf
  have simulated : (state.ofError E).errors = state.errors.construct .result E := by
    simp [ofError, add, withSlices, errors, ErrorState.construct, ErrorOwner.construct,
      ResultPlace.owner, ResultObject.m_ErrState]
  refine ⟨good.defined, ?_, within, ?_⟩
  · rw [simulated] at within ⊢
    exact ErrorState.construct_good good.counted allowed within
  · intro S member
    rcases List.mem_append.mp member with old | new
    · exact good.coherent S old
    · obtain rfl : S = { storage := .errState E, m_HasError := !E.isOk } := by simpa using new
      simp [ResultObject.Coherent, failed]

theorem shared_good {E : ErrorRef} (made : ResultPlace T) (found : state.result position = some R)
    (has : R.m_HasError = true) (read : R.m_ErrState = some E) (made_error : made.owner.error = E)
    (coherent : ∀ S, made = .result S → S.Coherent) (room : state.Room E)
    (places_eq : next.places =
      state.places.set position (some (.result R.markChecked)) ++ [some made])
    (slices_eq : next.slices = RetainErrorRef E state.slices) (fresh_eq : next.fresh = state.fresh)
    (defined : next.undefined = false) : next.Good := by
  have held_error := ResultObject.owner_error has read
  have made_held : made.owner.held = (ResultPlace.result R).owner.held := by
    rw [ErrorOwner.held, ErrorOwner.held, made_error, held_error]
  have owners_eq : next.errors.owners =
      state.errors.owners.set position (some (ResultPlace.result R.markChecked).owner) ++
        [some made.owner] := by
    simp [errors, places_eq, List.map_set]
  have counts := ErrorState.ownersOf_shared (owner_of_result found)
    R.owner_markChecked made_held owners_eq
  rw [held_error] at counts
  have within := within_of_one_more good room counts
  refine ⟨defined, ?_, within, ?_⟩
  · exact ErrorState.of_shared good.counted (owner_of_result found)
      R.owner_markChecked made_held owners_eq (held_error ▸ slices_eq)
      fresh_eq within
  · intro S member
    rw [places_eq] at member
    rcases List.mem_append.mp member with old | new
    · refine coherent_set good (fun S new => ?_) S old
      obtain rfl : R.markChecked = S := by simpa using new
      exact (good.of_result found).markChecked
    · exact coherent S (Option.some.inj (List.mem_singleton.mp new)).symm

theorem copy_good {type : ValueType T} (found : state.result position = some R)
    (room : ∀ E ∈ R.m_ErrState, state.Room E) : (state.copy type position R).Good := by
  have coherent := good.of_result found
  rw [copy]
  split
  case isTrue has =>
    obtain ⟨E, read, failed⟩ := coherent.m_ErrState has
    simp only [read, reading]
    refine shared_good good (.result { R with storage := .errState E }) found has read
      ?_ ?_ (room E read) rfl rfl rfl good.defined
    · simp [ResultPlace.owner, ErrorOwner.error, ResultObject.m_ErrState, has]
    · intro S made
      obtain rfl : { R with storage := Storage.errState E } = S := by simpa using made
      exact ⟨has, failed⟩
  case isFalse plain =>
    have plain : R.m_HasError = false := by simpa using plain
    obtain ⟨V, read⟩ := coherent.valuePtr plain
    simp only [read, reading]
    cases type.copy V with
    | none => exact good
    | some copied => exact add_good (check_good good found) plain plain

theorem share_good (found : state.result position = some R)
    (room : ∀ E ∈ R.m_ErrState, state.Room E) : (state.share position R).Good := by
  have coherent := good.of_result found
  rw [share]
  split
  case isTrue has =>
    obtain ⟨E, read, _⟩ := coherent.m_ErrState has
    simp only [read, reading]
    exact shared_good good (.captured E) found has read rfl (fun S made => by cases made)
      (room E read) rfl rfl rfl good.defined
  case isFalse =>
    have checked := check_good good found
    have owners (n : Nat) := ErrorState.ownersOf_append (state.check position R).errors
      (ErrorOwner.captured {}) n
    have same (n : Nat) : Shares.sharesOf ErrorState.held
        (((state.check position R).places ++ [some (ResultPlace.captured {})]).map
          (Option.map ResultPlace.owner)) n = (state.check position R).errors.ownersOf n := by
      simpa [errors, ResultPlace.owner, ErrorOwner.held, ErrorOwner.error] using owners n
    refine ⟨checked.defined, checked.counted.of_same rfl same rfl, ?_, ?_⟩
    · intro n
      exact Nat.lt_of_le_of_lt (Nat.le_of_eq (same n)) (checked.within n)
    · intro S member
      rcases List.mem_append.mp member with old | new
      · exact checked.coherent S old
      · simp at new

theorem move_good {type : ValueType T} (found : state.result position = some R)
    (plain : R.m_HasError = false) : (state.move type position R).Good := by
  obtain ⟨V, read⟩ := (good.of_result found).valuePtr plain
  simp only [move, plain, Bool.false_eq_true, if_false, read, reading]
  cases type.move V with
  | none => exact of_ended good
  | some moved =>
      have left_held : (ResultPlace.result { R.markChecked with
          storage := .value moved.2 }).owner.held = none := ResultObject.owner_plain plain
      have counts (n : Nat) := ErrorState.ownersOf_set_same (owner_of_result found)
        (left_held.trans (ResultObject.owner_plain plain).symm) n
      have checked : (state.put position { R.markChecked with storage := .value moved.2 }).Good := by
        have same (n : Nat) : (state.put position { R.markChecked with
            storage := .value moved.2 }).errors.ownersOf n = state.errors.ownersOf n := by
          simpa [errors, put, ErrorState.ownersOf, List.map_set] using counts n
        refine ⟨good.defined, good.counted.of_same rfl same rfl, ?_, ?_⟩
        · intro n
          exact Nat.lt_of_le_of_lt (Nat.le_of_eq (same n)) (good.within n)
        · refine coherent_set good fun S new => ?_
          obtain rfl : { R.markChecked with storage := .value moved.2 } = S := by simpa using new
          exact plain
      exact add_good checked rfl rfl

theorem dropped_good {place : ResultPlace T} (present : state.places[position]? = some (some place))
    (places_eq : next.places = state.places.set position none)
    (slices_eq : next.slices = ReleaseErrorRef place.owner.error state.slices)
    (fresh_eq : next.fresh = state.fresh) (defined : next.undefined = false) : next.Good := by
  have owners_eq : next.errors.owners = state.errors.owners.set position none := by
    simp [errors, places_eq, List.map_set]
  refine ⟨defined, ?_, ?_, ?_⟩
  · exact ErrorState.of_dropped good.counted (owner_of_place present) owners_eq slices_eq fresh_eq
  · intro n
    have replaced := ErrorState.ownersOf_set (owner_of_place present) none n
    have gone : Shares.share ErrorState.held none n = 0 := rfl
    have before := good.within n
    rw [gone, ← owners_eq] at replaced
    change next.errors.ownersOf n + _ = _ at replaced
    omega
  · intro S member
    rw [places_eq] at member
    exact coherent_set good (fun S new => by cases new) S member

theorem destroy_good {debug : Bool} (present : state.places[position]? = some (some (.result R))) :
    (state.destroy debug position R).Good := by
  have coherent := good.coherent R (List.mem_of_getElem? present)
  rw [destroy]
  split
  case isTrue => exact of_ended good
  case isFalse =>
    split
    case isTrue has =>
      obtain ⟨E, read, _⟩ := coherent.m_ErrState has
      simp only [read, reading]
      refine dropped_good good present rfl ?_ rfl good.defined
      rw [ResultObject.owner_error has read]
      rfl
    case isFalse plain =>
      have plain : R.m_HasError = false := by simpa using plain
      obtain ⟨V, read⟩ := coherent.valuePtr plain
      simp only [read, reading]
      refine dropped_good good present rfl ?_ rfl good.defined
      have unheld := ResultObject.owner_plain plain
      rw [ErrorOwner.held] at unheld
      simp [ReleaseErrorRef, unheld]

theorem status_good (found : state.result position = some R) :
    (state.status position R).Good := by
  rw [status]
  split
  case isTrue has =>
    obtain ⟨E, read, _⟩ := (good.of_result found).m_ErrState has
    simp only [read, reading]
    have held_error := ResultObject.owner_error has read
    have unread : readStatus E state.slices = state.slices := by
      refine ErrorState.readStatus_live good.counted fun n holds => ?_
      refine ErrorState.held_mem (owner_of_result found) ?_
      rw [ErrorOwner.held, held_error]
      exact holds
    rw [unread]
    exact check_good good found
  case isFalse => exact check_good good found

theorem error_good (found : state.result position = some R) :
    (state.error position R).Good := by
  rw [error]
  split
  case isTrue has =>
    obtain ⟨E, read, _⟩ := (good.of_result found).m_ErrState has
    simp only [read, reading]
    exact check_good good found
  case isFalse => exact check_good good found

theorem value_good (found : state.result position = some R) :
    (state.value position R).Good := by
  rw [value]
  split
  case isTrue => exact of_ended good
  case isFalse plain =>
    obtain ⟨V, read⟩ := (good.of_result found).valuePtr (by simpa using plain)
    simp only [read, reading]
    exact check_good good found

theorem value_or_good (found : state.result position = some R) :
    (state.value_or position R).Good := by
  rw [value_or]
  split
  case isTrue => exact check_good good found
  case isFalse plain =>
    obtain ⟨V, read⟩ := (good.of_result found).valuePtr (by simpa using plain)
    simp only [read, reading]
    exact check_good good found

theorem onResult_good {act : ResultObject T → ResultState T}
    (kept : ∀ R, state.result position = some R → (act R).Good) :
    (state.onResult position act).Good := by
  cases found : state.result position with
  | none => simpa [onResult, making, found] using good
  | some R => simpa [onResult, making, found] using kept R found

theorem making_good {Made : Type} {made : Option Made} {act : Made → ResultState T}
    (kept : ∀ object, (act object).Good) : (state.making made act).Good := by
  cases made with
  | none => exact good
  | some object => exact kept object

theorem step_good {debug : Bool} {type : ValueType T} {op : ResultOp T}
    (allowed : state.Allowed op) (keeps : state.StepKeepsTag op) :
    (step debug type state op).Good := by
  unfold step
  split
  case isTrue => exact good
  case isFalse running =>
    have alive : state.aborted = false := by
      simp only [Bool.or_eq_true, not_or, Bool.not_eq_true] at running
      exact running.1
    have keeps : state.KeepsTag op := keeps.resolve_left (by simp [alive])
    cases op with
    | makeError S => exact makeError_good good S
    | init => exact making_good good fun V => add_good good rfl rfl
    | ofValue V => exact making_good good fun moved => add_good good rfl rfl
    | ofError E => exact ofError_good good allowed keeps.1 keeps.2
    | copy source =>
        exact onResult_good good fun R found => copy_good good found (keeps R found)
    | move source =>
        exact onResult_good good fun R found => move_good good found (keeps R found)
    | check source => exact onResult_good good fun R found => check_good good found
    | error source => exact onResult_good good fun R found => error_good good found
    | status source => exact onResult_good good fun R found => status_good good found
    | value source => exact onResult_good good fun R found => value_good good found
    | value_or source => exact onResult_good good fun R found => value_or_good good found
    | share source =>
        exact onResult_good good fun R found => share_good good found (keeps R found)
    | destroy target =>
        dsimp only
        split
        case h_1 R there => exact destroy_good good (Option.join_eq_some_iff.mp there)
        case h_2 Ref there =>
          exact dropped_good good (Option.join_eq_some_iff.mp there) rfl rfl rfl good.defined
        case h_3 => exact good

end Steps

section Exact

variable (good : state.Good)

theorem mem_of_append {places : List (Option (ResultPlace T))} {made : Option (ResultPlace T)}
    (places_eq : next.places = places ++ [made]) (here : made = some (.result R)) :
    R ∈ next.results := by
  refine mem_results.mpr ?_
  rw [places_eq, here]
  simp

theorem mem_of_set {places : List (Option (ResultPlace T))} (found : state.result position = some S)
    (places_eq : next.places = state.places.set position (some (.result R)) ++ places) :
    R ∈ next.results := by
  have bound := (List.getElem?_eq_some_iff.mp (place_of_result found)).1
  refine mem_results.mpr ?_
  rw [places_eq]
  exact List.mem_append_left _ (List.mem_set bound _)

theorem room_of_owned {E : ErrorRef} (owned : next.Owned E)
    (owners_eq : ∀ n, next.ownersOf n = state.ownersOf n + if E.slice = some n then 1 else 0) :
    state.Room E := by
  intro n wanted
  have small := owned.small wanted
  rw [owners_eq n, if_pos (Option.mem_def.mp wanted)] at small
  exact small

theorem Valid.owned {E : ErrorRef} (valid : next.Valid) (member : R ∈ next.results)
    (stored : R.storage = .errState E) : R.m_HasError = true ∧ E.isOk = false ∧ next.Owned E := by
  have has : R.m_HasError = true := by
    cases flag : R.m_HasError with
    | true => rfl
    | false =>
        obtain ⟨V, other⟩ := (valid.value_live R member).mp flag
        cases stored.symm.trans other
  obtain ⟨D, same, failed, owned⟩ := (valid.error_live R member).mp has
  obtain rfl : E = D := by
    rw [stored] at same
    exact Storage.errState.inj same
  exact ⟨has, failed, owned⟩

theorem ofError_keeps {E : ErrorRef} (valid : (state.ofError E).Valid) :
    E.isOk = false ∧ state.Room E := by
  obtain ⟨_, failed, owned⟩ := valid.owned (mem_of_append rfl rfl) rfl
  exact ⟨failed, room_of_owned owned state.ofError_ownersOf⟩

theorem shared_keeps {E : ErrorRef} (made : ResultPlace T) (found : state.result position = some R)
    (has : R.m_HasError = true) (read : R.m_ErrState = some E) (made_error : made.owner.error = E)
    (places_eq : next.places =
      state.places.set position (some (.result R.markChecked)) ++ [some made])
    (valid : next.Valid) : state.Room E := by
  have held_error := ResultObject.owner_error has read
  have made_held : made.owner.held = (ResultPlace.result R).owner.held := by
    rw [ErrorOwner.held, ErrorOwner.held, made_error, held_error]
  have owners_eq : next.errors.owners =
      state.errors.owners.set position (some (ResultPlace.result R.markChecked).owner) ++
        [some made.owner] := by
    simp [errors, places_eq, List.map_set]
  have counts := ErrorState.ownersOf_shared (owner_of_result found) R.owner_markChecked
    made_held owners_eq
  rw [held_error] at counts
  have stored : R.markChecked.storage = .errState E := ResultObject.storage_of_m_ErrState read
  obtain ⟨_, _, owned⟩ := valid.owned (mem_of_set found places_eq) stored
  exact room_of_owned owned counts

include good

theorem hasError_of_state (found : state.result position = some R) {E : ErrorRef}
    (read : R.m_ErrState = some E) : R.m_HasError = true := by
  have coherent := good.of_result found
  have stored := ResultObject.storage_of_m_ErrState read
  rw [ResultObject.Coherent, stored] at coherent
  exact coherent.1

theorem copy_keeps {type : ValueType T} (found : state.result position = some R)
    (valid : (state.copy type position R).Valid) : ∀ E ∈ R.m_ErrState, state.Room E := by
  intro E read
  have has := hasError_of_state good found read
  have read : R.m_ErrState = some E := read
  rw [copy, if_pos has, read] at valid
  refine shared_keeps (.result { R with storage := .errState E }) found has read ?_ rfl valid
  simp [ResultPlace.owner, ErrorOwner.error, ResultObject.m_ErrState, has]

theorem share_keeps (found : state.result position = some R)
    (valid : (state.share position R).Valid) : ∀ E ∈ R.m_ErrState, state.Room E := by
  intro E read
  have has := hasError_of_state good found read
  have read : R.m_ErrState = some E := read
  rw [share, if_pos has, read] at valid
  exact shared_keeps (.captured E) found has read rfl rfl valid

theorem move_keeps {type : ValueType T} (found : state.result position = some R)
    (valid : (state.move type position R).Valid) : R.m_HasError = false := by
  cases has : R.m_HasError with
  | false => rfl
  | true =>
      obtain ⟨E, read, _⟩ := (good.of_result found).m_ErrState has
      rw [move, if_pos has, read] at valid
      have left : ({ storage := .errState {}, m_Unchecked := false } : ResultObject T) ∈
          ((state.put position { storage := .errState {}, m_Unchecked := false }).add
            { R with storage := .errState E }).results := mem_of_set found rfl
      cases (valid.owned left rfl).1

theorem step_keeps {debug : Bool} {type : ValueType T} {op : ResultOp T}
    (valid : (step debug type state op).Valid) : state.StepKeepsTag op := by
  cases alive : state.aborted with
  | true => exact Or.inl alive
  | false =>
      right
      have running : (state.aborted || state.undefined) = false := by
        simp [alive, good.defined]
      simp only [step, running, Bool.false_eq_true, if_false] at valid
      cases op with
      | ofError E => exact ofError_keeps valid
      | copy source =>
          intro R found
          simp only [onResult, making, Option.mem_def.mp found] at valid
          exact copy_keeps good found valid
      | share source =>
          intro R found
          simp only [onResult, making, Option.mem_def.mp found] at valid
          exact share_keeps good found valid
      | move source =>
          intro R found
          simp only [onResult, making, Option.mem_def.mp found] at valid
          exact move_keeps good found valid
      | makeError _ | init | ofValue _ | check _ | error _ | status _ | value _ | value_or _
      | destroy _ => trivial

end Exact

end ResultState

open ResultState

theorem result_storage_valid_iff {T : Type} (debug : Bool) (type : ValueType T)
    (ops : List (ResultOp T)) (permitted : Runs.EveryStep (step debug type) Allowed {} ops) :
    Runs.EveryState (step debug type) Valid {} ops ↔
      Runs.EveryStep (step debug type) StepKeepsTag {} ops := by
  refine Runs.everyState_iff_everyStep Good Valid start_good (fun _ good => good.valid) ?_ ?_
    permitted
  · intro state op good allowed
    exact ⟨step_keeps good, fun keeps => (step_good good allowed keeps).valid⟩
  · intro state op good allowed keeps
    exact step_good good allowed keeps

def natType : ValueType Nat := { init := some 0, copy := some, move := fun V => some (V, 0) }

def resultsUsed : List (ResultOp Nat) :=
  [.ofValue 7, .makeError .NotFound, .ofError (ErrorRef.makeSlice 0), .copy 1, .share 2, .move 0,
    .status 1, .value_or 1, .value 3, .destroy 0, .check 2, .destroy 1, .destroy 2, .destroy 4]

theorem result_storage_valid_used :
    Runs.EveryState (step true natType) Valid {} resultsUsed :=
  (result_storage_valid_iff true natType resultsUsed (by decide)).mpr (by decide)

/-- A result made from an Ok error has no value, and one that an error was moved out of has
none either. -/
theorem result_storage_invalid :
    ¬Runs.EveryState (step true natType) Valid {} [.ofError {}] ∧
      ¬Runs.EveryState (step true natType) Valid {}
        [.makeError .NotFound, .ofError (ErrorRef.makeSlice 0), .move 0] := by
  constructor
  · intro every
    have live := every.last.value_live { storage := .errState {} } (by decide)
    obtain ⟨V, stored⟩ := live.mp rfl
    cases stored
  · intro every
    have live := every.last.value_live { storage := .errState {}, m_Unchecked := false }
      (by decide)
    obtain ⟨V, stored⟩ := live.mp rfl
    cases stored

end CppInterOp
