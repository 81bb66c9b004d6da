import Mathlib.Data.Finset.Card
import Mathlib.Data.Finset.Filter
import Mathlib.Data.Fintype.EquivFin
import Mathlib.Logic.Relation

/-!
Tables of results that a recursive analysis keeps while it goes: what one more entry leaves
to be seen, the measure that bounds how deep the analysis nests, and the graphs in which an
analysis never comes back to what it has begun.
-/

namespace Visited

universe u

abbrev Table (Result : Type u) := Nat → Option Result

section

variable {Result : Type u}

def Table.insert (table : Table Result) (key : Nat) (result : Result) : Table Result :=
  fun other => if other = key then some result else table other

@[simp] theorem Table.insert_same (table : Table Result) (key : Nat) (result : Result) :
    table.insert key result key = some result := if_pos rfl

theorem Table.insert_other (table : Table Result) {key other : Nat} (different : other ≠ key)
    (result : Result) : table.insert key result other = table other := if_neg different

def Grows (table later : Table Result) : Prop :=
  ∀ key, later key = none → table key = none

theorem Grows.refl (table : Table Result) : Grows table table := fun _ missing => missing

theorem Grows.trans {table later last : Table Result} (grows : Grows table later)
    (more : Grows later last) : Grows table last :=
  fun key missing => grows key (more key missing)

theorem Grows.insert {table later : Table Result} (grows : Grows table later) (key : Nat)
    (result : Result) : Grows table (later.insert key result) := by
  intro other missing
  by_cases same : other = key
  · rw [same, Table.insert_same] at missing
    cases missing
  · rw [Table.insert_other _ same] at missing
    exact grows other missing

def unseen (bound : Nat) (relevant : Nat → Bool) (table : Table Result) : Finset Nat :=
  (Finset.range bound).filter fun key => (relevant key && (table key).isNone) = true

variable {bound : Nat} {relevant : Nat → Bool}

theorem mem_unseen {table : Table Result} {key : Nat} : key ∈ unseen bound relevant table ↔
    key < bound ∧ relevant key = true ∧ table key = none := by
  simp [unseen]

theorem unseen_card_le (table : Table Result) : (unseen bound relevant table).card ≤ bound := by
  have filtered := Finset.card_filter_le (Finset.range bound)
    (fun key => (relevant key && (table key).isNone) = true)
  rwa [Finset.card_range] at filtered

/-- An entry that is made leaves less to be seen. -/
theorem Grows.card_lt {table later : Table Result} (grows : Grows table later) {key : Nat}
    (inside : key < bound) (needed : relevant key = true) (new : table key = none)
    (entered : later key ≠ none) :
    (unseen bound relevant later).card < (unseen bound relevant table).card := by
  apply Finset.card_lt_card
  rw [Finset.ssubset_iff_of_subset]
  · refine ⟨key, mem_unseen.mpr ⟨inside, needed, new⟩, ?_⟩
    rw [mem_unseen]
    exact fun absent => entered absent.2.2
  · intro other member
    obtain ⟨below, wanted, missing⟩ := mem_unseen.mp member
    exact mem_unseen.mpr ⟨below, wanted, grows other missing⟩

theorem unseen_insert {table : Table Result} {key : Nat} (inside : key < bound)
    (needed : relevant key = true) (new : table key = none) (result : Result) :
    (unseen bound relevant (table.insert key result)).card < (unseen bound relevant table).card := by
  refine ((Grows.refl table).insert key result).card_lt inside needed new ?_
  rw [Table.insert_same]
  exact nofun

theorem Grows.card_le {table later : Table Result} (grows : Grows table later) :
    (unseen bound relevant later).card ≤ (unseen bound relevant table).card := by
  apply Finset.card_le_card
  intro key member
  obtain ⟨below, wanted, missing⟩ := mem_unseen.mp member
  exact mem_unseen.mpr ⟨below, wanted, grows key missing⟩

end

section

variable {Next : Nat → Nat → Prop} {root : Nat}

/-- Nothing that is reached from `root` reaches itself. -/
def Acyclic (Next : Nat → Nat → Prop) (root : Nat) : Prop :=
  ∀ key, Relation.ReflTransGen Next root key → ¬Relation.TransGen Next key key

theorem not_self_of_acc (ends : Acc (fun target source => Next source target) root) :
    ¬Relation.TransGen Next root root := by
  induction ends with
  | intro key _ ih =>
      intro cycle
      obtain ⟨target, next, back⟩ := Relation.TransGen.head'_iff.mp cycle
      exact ih target next (Relation.TransGen.tail' back next)

theorem acyclic_of_acc (ends : Acc (fun target source => Next source target) root) :
    Acyclic Next root := by
  intro key reached
  have there : Acc (fun target source => Next source target) key := by
    induction reached with
    | refl => exact ends
    | tail _ next ih => exact ih.inv next
  exact not_self_of_acc there

/-- Among finitely many keys every way from `root` ends. -/
theorem acc_of_acyclic {bound : Nat} (bounded : ∀ source target, Next source target →
    source < bound) (acyclic : Acyclic Next root) :
    Acc (fun target source => Next source target) root := by
  let below (target source : Fin bound) : Prop :=
    Relation.ReflTransGen Next root source ∧ Relation.TransGen Next source target
  have transitive : IsTrans (Fin bound) below :=
    ⟨fun _ _ _ first second => ⟨second.1, second.2.trans first.2⟩⟩
  have irreflexive : Std.Irrefl below := ⟨fun key cycle => acyclic key cycle.1 cycle.2⟩
  have well_founded : WellFounded below := Finite.wellFounded_of_trans_of_irrefl below
  have inside : ∀ key : Fin bound, Relation.ReflTransGen Next root key →
      Acc (fun target source => Next source target) key.val := by
    intro key
    induction key using well_founded.induction with
    | _ key ih =>
        intro reached
        refine Acc.intro _ fun target next => ?_
        by_cases outside : target < bound
        · exact ih ⟨target, outside⟩ ⟨reached, .single next⟩ (reached.tail next)
        · exact Acc.intro _ fun _ beyond => absurd (bounded _ _ beyond) outside
  by_cases outside : root < bound
  · exact inside ⟨root, outside⟩ .refl
  · exact Acc.intro _ fun _ beyond => absurd (bounded _ _ beyond) outside

end

end Visited
