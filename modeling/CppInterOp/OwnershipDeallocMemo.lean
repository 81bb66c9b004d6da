import CppInterOp.OwnershipDeallocPaths

/-!
The classes that a query goes by for the functions it meets. They are those that a query about
each of these functions gives, unless one of them is called while it is being analysed.
-/

namespace CppInterOp

open PointerPrograms

section Queries

variable (base : CodeBase)

/-- A traverser that has nodes to visit comes to a call of `g`, itself or in the analysis of a
function it calls, and goes by `used` there. -/
inductive Uses : Nat → DeallocationTraverser → List Visit → Nat → Option (List DeallocType) → Prop
  | here {fuel : Nat} {traverser : DeallocationTraverser} {g : Nat} {args : List CodeExpr}
      {nodes : List Visit} : Uses fuel traverser (.call g args :: nodes) g
        (lookup (AnalyzeDeallocType base fuel) traverser.visitedFuncs g).1
  | inside {fuel : Nat} {traverser : DeallocationTraverser} {f g : Nat} {args : List CodeExpr}
      {nodes : List Visit} {body : Code} {used : Option (List DeallocType)}
      (new : traverser.visitedFuncs f = none) (has_body : (base.function f).body = some body)
      (uses : Uses fuel (deallocStart base f (traverser.visitedFuncs.insert f none))
        (stmtVisits body) g used) : Uses (fuel + 1) traverser (.call f args :: nodes) g used
  | next {fuel : Nat} {traverser : DeallocationTraverser} {node : Visit} {nodes : List Visit}
      {g : Nat} {used : Option (List DeallocType)}
      (uses : Uses fuel (traverser.visit (AnalyzeDeallocType base fuel) node) nodes g used) :
      Uses fuel traverser (node :: nodes) g used

/-- What the query about `w` goes by at a call of `g`. -/
def QueryUses (w g : Nat) (used : Option (List DeallocType)) : Prop :=
  ∃ body, (base.function w).body = some body ∧
    Uses base (base.length - 1) (deallocStart base w (Visited.Table.insert (fun _ => none) w none))
      (stmtVisits body) g used

/-- The query about `w` goes, at each call, by the classes that a query about the callee gives. -/
def UsesStandalone (w : Nat) : Prop :=
  ∀ g used, QueryUses base w g used → used = some (GetDeallocType base g).2

/-- `w` passes its parameters on to `f`, which has a body, and does nothing else. -/
def Wraps (w f : Nat) : Prop :=
  (base.function f).body.isSome = true ∧
    (base.function w).numParams = (base.function f).numParams ∧
    (base.function w).body = some (.expr (.call f
      ((List.range (base.function f).numParams).map fun index => .var (.param index))))

end Queries

section Room

variable {base : CodeBase}

theorem lookup_grows {fuel : Nat} {table : VisitedFuncs} (room : Room base fuel table) (f : Nat) :
    Visited.Grows table (lookup (AnalyzeDeallocType base fuel) table f).2 := by
  rw [lookup]
  cases new : table f with
  | some known => exact .refl table
  | none =>
      exact ((Visited.Grows.refl table).insert f none).trans
        (AnalyzeDeallocType_succ fuel f _ (room.insert new)).2

theorem AnalyzeDeallocType_entry (fuel f : Nat) (table : VisitedFuncs) :
    (AnalyzeDeallocType base fuel f table).2 f =
      some (some (AnalyzeDeallocType base fuel f table).1) := by
  cases has_body : (base.function f).body with
  | none =>
      rw [AnalyzeDeallocType_no_body has_body]
      exact Visited.Table.insert_same _ _ _
  | some body =>
      cases fuel with
      | zero => exact Visited.Table.insert_same _ _ _
      | succ fuel =>
          rw [AnalyzeDeallocType_body has_body]
          exact Visited.Table.insert_same _ _ _

theorem query_room {w : Nat} (has_body : (base.function w).body.isSome = true) :
    Room base (base.length - 1) (Visited.Table.insert (fun _ => none) w none) := by
  have less : (unseenFuncs base (Visited.Table.insert (fun _ => none) w none)).card <
      (unseenFuncs base fun _ => none).card :=
    Visited.unseen_insert (function_bound has_body) has_body rfl none
  have bound : (unseenFuncs base fun _ => none).card ≤ base.length := Visited.unseen_card_le _
  rw [Room]
  omega

theorem GetDeallocType_body {f : Nat} {body : Code}
    (has_body : (base.function f).body = some body) :
    (GetDeallocType base f).2 =
      (Runs.run (DeallocationTraverser.visit (AnalyzeDeallocType base (base.length - 1)))
        (deallocStart base f (Visited.Table.insert (fun _ => none) f none))
        (stmtVisits body)).valPerParam := by
  have bound : f < base.length := function_bound (by rw [has_body]; rfl)
  obtain ⟨fuel, fueled⟩ : ∃ fuel, base.length = fuel + 1 := ⟨base.length - 1, by omega⟩
  rw [GetDeallocType, fueled, Nat.add_sub_cancel]
  simp only [AnalyzeDeallocType_body has_body]

theorem GetDeallocType_no_body {f : Nat} (no_body : (base.function f).body = none) :
    (GetDeallocType base f).2 = List.replicate (base.function f).numParams .opaqueBody := by
  rw [GetDeallocType]
  simp only [AnalyzeDeallocType_no_body no_body]

end Room

section Acyclic

variable {base : CodeBase}

/-- What the table says of the functions that `f` may have called is what queries about them
give, and none of them is being analysed. -/
def Standalone (base : CodeBase) (f : Nat) (table : VisitedFuncs) : Prop :=
  ∀ g, Relation.TransGen (Calls base) f g → ∀ known, table g = some known →
    known = some (GetDeallocType base g).2

/-- Entries change only to what queries about their functions give. -/
def Settled (base : CodeBase) (table later : VisitedFuncs) : Prop :=
  ∀ g, later g = table g ∨ later g = some (some (GetDeallocType base g).2)

theorem Settled.refl (table : VisitedFuncs) : Settled base table table := fun _ => Or.inl rfl

theorem Settled.trans {table later last : VisitedFuncs} (settled : Settled base table later)
    (more : Settled base later last) : Settled base table last := by
  intro g
  rcases more g with same | known
  · exact same ▸ settled g
  · exact Or.inr known

theorem Settled.insert {table later : VisitedFuncs} (settled : Settled base table later) (f : Nat) :
    Settled base table (later.insert f (some (GetDeallocType base f).2)) := by
  intro g
  by_cases same : g = f
  · rw [same, Visited.Table.insert_same]
    exact Or.inr rfl
  · rw [Visited.Table.insert_other _ same]
    exact settled g

theorem Standalone.later {f : Nat} {table later : VisitedFuncs}
    (standalone : Standalone base f table) (settled : Settled base table later) :
    Standalone base f later := by
  intro g reached known at_g
  rcases settled g with same | right
  · exact standalone g reached known (same ▸ at_g)
  · exact Option.some.inj (at_g.symm.trans right)

/-- A function that is called gets its entry before its body is traversed. -/
theorem Standalone.enter {f g : Nat} {table : VisitedFuncs} (standalone : Standalone base f table)
    (calls : Calls base f g) (ends : ¬Relation.TransGen (Calls base) g g) :
    Standalone base g (table.insert g none) := by
  intro h reached known at_h
  have different : h ≠ g := by
    rintro rfl
    exact ends reached
  rw [Visited.Table.insert_other _ different] at at_h
  exact standalone h (.head calls reached) known at_h

theorem standalone_query {f : Nat} (ends : ¬Relation.TransGen (Calls base) f f) :
    Standalone base f (Visited.Table.insert (fun _ => none) f none) := by
  intro h reached known at_h
  have different : h ≠ f := by
    rintro rfl
    exact ends reached
  rw [Visited.Table.insert_other _ different] at at_h
  cases at_h

/-- Wherever `g` is analysed after what it calls, its classes are those of a query. -/
def Summarised (base : CodeBase) (g : Nat) : Prop :=
  ∀ fuel table, ((base.function g).body.isSome = true → (unseenFuncs base table).card < fuel) →
    Standalone base g table →
    (AnalyzeDeallocType base fuel g table).1 = (GetDeallocType base g).2 ∧
      Settled base table (AnalyzeDeallocType base fuel g table).2

def oracle (base : CodeBase) (g : Nat) (_ : VisitedFuncs) : List DeallocType × VisitedFuncs :=
  ((GetDeallocType base g).2, fun _ => none)

theorem lookup_summarised {f g : Nat} (calls : Calls base f g)
    (ends : ¬Relation.TransGen (Calls base) g g) (summarised : Summarised base g) {fuel : Nat}
    {table : VisitedFuncs} (room : Room base fuel table) (standalone : Standalone base f table) :
    (lookup (AnalyzeDeallocType base fuel) table g).1 = some (GetDeallocType base g).2 ∧
      Settled base table (lookup (AnalyzeDeallocType base fuel) table g).2 := by
  rw [lookup]
  cases at_g : table g with
  | some known => exact ⟨standalone g (.single calls) known at_g, .refl table⟩
  | none =>
      obtain ⟨classes, settled⟩ := summarised fuel (table.insert g none) (room.insert at_g)
        (standalone.enter calls ends)
      refine ⟨congrArg some classes, fun h => ?_⟩
      by_cases same : h = g
      · rw [same, AnalyzeDeallocType_entry, classes]
        exact Or.inr rfl
      · rw [← Visited.Table.insert_other table same none]
        exact settled h

theorem body_standalone {f : Nat} {body : Code} (has_body : (base.function f).body = some body)
    (callees : ∀ g, Calls base f g → ¬Relation.TransGen (Calls base) g g ∧ Summarised base g)
    {fuel : Nat} {table : VisitedFuncs} (room : Room base fuel table)
    (standalone : Standalone base f table) :
    DeallocationTraverser.Alike
      (fun later unused => (Settled base table later ∧ Room base fuel later) ∧
        unused = fun _ => none)
      (Runs.run (DeallocationTraverser.visit (AnalyzeDeallocType base fuel))
        (deallocStart base f table) (stmtVisits body))
      (Runs.run (DeallocationTraverser.visit (oracle base))
        (deallocStart base f fun _ => none) (stmtVisits body)) := by
  apply DeallocationTraverser.run_alike
  · exact ⟨fun _ => none, rfl, ⟨.refl table, room⟩, rfl⟩
  · intro g args member
    have calls : Calls base f g := ⟨body, args, has_body, member⟩
    rintro later _ ⟨⟨settled, room⟩, rfl⟩
    obtain ⟨used, more⟩ := lookup_summarised calls (callees g calls).1 (callees g calls).2 room
      (standalone.later settled)
    refine ⟨fun traverser args => ?_, ⟨settled.trans more, room.later (lookup_grows room g)⟩, rfl⟩
    rw [used]
    rfl

theorem summarised_of_acc {f : Nat} (ends : Acc (fun callee caller => Calls base caller callee) f) :
    Summarised base f := by
  induction ends with
  | intro f ends ih =>
      have callees : ∀ g, Calls base f g →
          ¬Relation.TransGen (Calls base) g g ∧ Summarised base g :=
        fun g calls => ⟨Visited.not_self_of_acc (ends g calls), ih g calls⟩
      intro fuel table enough standalone
      cases has_body : (base.function f).body with
      | none =>
          rw [AnalyzeDeallocType_no_body has_body, ← GetDeallocType_no_body has_body]
          exact ⟨rfl, (Settled.refl table).insert f⟩
      | some body =>
          have visible : (base.function f).body.isSome = true := by rw [has_body]; rfl
          obtain ⟨fuel, rfl⟩ : ∃ less, fuel = less + 1 :=
            Nat.exists_eq_succ_of_ne_zero (Nat.ne_zero_of_lt (enough visible))
          have here := body_standalone has_body callees
            (Nat.lt_succ_iff.mp (enough visible)) standalone
          have alone := body_standalone has_body callees (query_room visible)
            (standalone_query (Visited.not_self_of_acc (Acc.intro f ends)))
          have classes : (Runs.run (DeallocationTraverser.visit (AnalyzeDeallocType base fuel))
              (deallocStart base f table) (stmtVisits body)).valPerParam =
                (GetDeallocType base f).2 := by
            rw [GetDeallocType_body has_body]
            exact here.valPerParam.symm.trans alone.valPerParam
          obtain ⟨_, _, ⟨settled, _⟩, _⟩ := here
          rw [AnalyzeDeallocType_body has_body]
          simp only
          rw [classes]
          exact ⟨rfl, settled.insert f⟩

/-- Where no call comes back, each goes by the classes that a query gives. -/
theorem uses_of_acc {fuel : Nat} {traverser : DeallocationTraverser} {nodes : List Visit} {g : Nat}
    {used : Option (List DeallocType)} (uses : Uses base fuel traverser nodes g used) {f : Nat}
    (ends : Acc (fun callee caller => Calls base caller callee) f)
    (calls : ∀ g args, .call g args ∈ nodes → Calls base f g)
    (room : Room base fuel traverser.visitedFuncs)
    (standalone : Standalone base f traverser.visitedFuncs) :
    used = some (GetDeallocType base g).2 := by
  induction uses generalizing f with
  | here =>
      have first := calls _ _ List.mem_cons_self
      exact (lookup_summarised first (Visited.not_self_of_acc (ends.inv first))
        (summarised_of_acc (ends.inv first)) room standalone).1
  | inside new has_body _ ih =>
      have first := calls _ _ List.mem_cons_self
      refine ih (ends.inv first) (fun g args member => ⟨_, args, has_body, member⟩) ?_
        (standalone.enter first (Visited.not_self_of_acc (ends.inv first)))
      exact Nat.lt_succ_iff.mp (room.insert new (by rw [has_body]; rfl))
  | @next fuel traverser node nodes g used _ ih =>
      have after : Room base fuel (traverser.visit (AnalyzeDeallocType base fuel) node).visitedFuncs ∧
          Standalone base f (traverser.visit (AnalyzeDeallocType base fuel) node).visitedFuncs := by
        apply DeallocationTraverser.visit_visitedFuncs _ fun table =>
          Room base fuel table ∧ Standalone base f table
        · exact ⟨room, standalone⟩
        · rintro h args rfl
          have first := calls h args List.mem_cons_self
          have settled := (lookup_summarised first (Visited.not_self_of_acc (ends.inv first))
            (summarised_of_acc (ends.inv first)) room standalone).2
          exact ⟨room.later (lookup_grows room h), standalone.later settled⟩
      exact ih ends (fun g args member => calls g args (List.mem_cons_of_mem _ member))
        after.1 after.2

end Acyclic

section Cyclic

variable {base : CodeBase}

/-- No chain of calls from a function with an entry goes on for ever. -/
def Finished (base : CodeBase) (table : VisitedFuncs) : Prop :=
  ∀ g types, table g = some (some types) → Acc (fun callee caller => Calls base caller callee) g

theorem Finished.insert {table : VisitedFuncs} (finished : Finished base table) {f : Nat}
    {known : Option (List DeallocType)}
    (ends : ∀ types, known = some types → Acc (fun callee caller => Calls base caller callee) f) :
    Finished base (table.insert f known) := by
  intro g types at_g
  by_cases same : g = f
  · rw [same, Visited.Table.insert_same] at at_g
    exact same ▸ ends types (Option.some.inj at_g)
  · rw [Visited.Table.insert_other _ same] at at_g
    exact finished g types at_g

theorem acc_of_no_body {f : Nat} (no_body : (base.function f).body = none) :
    Acc (fun callee caller => Calls base caller callee) f := by
  refine Acc.intro _ fun g calls => ?_
  obtain ⟨body, args, has_body, _⟩ := calls
  cases no_body.symm.trans has_body

theorem acc_of_body {f : Nat} {body : Code} (has_body : (base.function f).body = some body)
    (ends : ∀ g args, .call g args ∈ stmtVisits body →
      Acc (fun callee caller => Calls base caller callee) g) :
    Acc (fun callee caller => Calls base caller callee) f := by
  refine Acc.intro _ fun g calls => ?_
  obtain ⟨other, args, also, member⟩ := calls
  obtain rfl := Option.some.inj (has_body.symm.trans also)
  exact ends g args member

/-- What a traversal that meets no function that is being analysed finds out about them. -/
def Closes (base : CodeBase) (fuel : Nat) : Prop :=
  ∀ traverser nodes, (∀ g, ¬Uses base fuel traverser nodes g none) →
    Room base fuel traverser.visitedFuncs → Finished base traverser.visitedFuncs →
    (∀ g args, .call g args ∈ nodes → Acc (fun callee caller => Calls base caller callee) g) ∧
      Finished base (Runs.run (DeallocationTraverser.visit (AnalyzeDeallocType base fuel))
        traverser nodes).visitedFuncs

/-- The analysis of a function that is called ends before it is called again. -/
theorem closes_call {fuel : Nat} (inner : ∀ less, fuel = less + 1 → Closes base less)
    {traverser : DeallocationTraverser} {f : Nat} {args : List CodeExpr} {nodes : List Visit}
    (known : ∀ g, ¬Uses base fuel traverser (.call f args :: nodes) g none)
    (room : Room base fuel traverser.visitedFuncs) (finished : Finished base traverser.visitedFuncs) :
    Acc (fun callee caller => Calls base caller callee) f ∧
      Finished base (lookup (AnalyzeDeallocType base fuel) traverser.visitedFuncs f).2 := by
  have not_pending : (lookup (AnalyzeDeallocType base fuel) traverser.visitedFuncs f).1 ≠ none :=
    fun pending => known f (pending ▸ Uses.here)
  rw [lookup] at not_pending ⊢
  cases at_f : traverser.visitedFuncs f with
  | some entry =>
      cases entry with
      | none =>
          rw [at_f] at not_pending
          exact absurd rfl not_pending
      | some types => exact ⟨finished f types at_f, finished⟩
  | none =>
      have entered : Finished base (traverser.visitedFuncs.insert f none) := finished.insert (fun _ known => by cases known)
      cases has_body : (base.function f).body with
      | none =>
          have ends := acc_of_no_body has_body
          simp only [AnalyzeDeallocType_no_body has_body]
          exact ⟨ends, entered.insert fun _ _ => ends⟩
      | some body =>
          have less := room.insert at_f (by rw [has_body]; rfl)
          obtain ⟨fuel, rfl⟩ : ∃ less, fuel = less + 1 :=
            Nat.exists_eq_succ_of_ne_zero (Nat.ne_zero_of_lt less)
          obtain ⟨callees, after⟩ := inner fuel rfl
            (deallocStart base f (traverser.visitedFuncs.insert f none)) (stmtVisits body)
            (fun g uses => known g (.inside at_f has_body uses)) (Nat.lt_succ_iff.mp less) entered
          have ends := acc_of_body has_body callees
          simp only [AnalyzeDeallocType_body has_body]
          exact ⟨ends, after.insert fun _ _ => ends⟩

theorem closes (fuel : Nat) : Closes base fuel := by
  induction fuel using Nat.strong_induction_on with
  | _ fuel ih =>
      have inner : ∀ less, fuel = less + 1 → Closes base less := fun less same => ih less (by omega)
      intro traverser nodes known room finished
      induction nodes generalizing traverser with
      | nil => exact ⟨nofun, finished⟩
      | cons node nodes rest =>
          have after : Room base fuel
              (traverser.visit (AnalyzeDeallocType base fuel) node).visitedFuncs ∧
              Finished base (traverser.visit (AnalyzeDeallocType base fuel) node).visitedFuncs := by
            apply DeallocationTraverser.visit_visitedFuncs _ fun table =>
              Room base fuel table ∧ Finished base table
            · exact ⟨room, finished⟩
            · rintro f args rfl
              exact ⟨room.later (lookup_grows room f), (closes_call inner known room finished).2⟩
          obtain ⟨later, finally_finished⟩ :=
            rest _ (fun g uses => known g (.next uses)) after.1 after.2
          refine ⟨fun g args member => ?_, finally_finished⟩
          rcases List.mem_cons.mp member with rfl | member
          · exact (closes_call inner known room finished).1
          · exact later g args member

/-- A query that always has classes to go by comes to the end of every chain of calls. -/
theorem acc_of_query {w : Nat} (known : ∀ g, ¬QueryUses base w g none) :
    Acc (fun callee caller => Calls base caller callee) w := by
  cases has_body : (base.function w).body with
  | none => exact acc_of_no_body has_body
  | some body =>
      have empty : Finished base (Visited.Table.insert (fun _ => none) w none) := by
        refine Finished.insert (fun _ _ at_g => ?_) nofun
        cases at_g
      exact acc_of_body has_body (closes (base.length - 1) _ _
        (fun g uses => known g ⟨body, has_body, uses⟩)
        (query_room (by rw [has_body]; rfl)) empty).1

theorem calls_bounded {f g : Nat} (calls : Calls base f g) : f < base.length := by
  obtain ⟨body, args, has_body, _⟩ := calls
  exact function_bound (by rw [has_body]; rfl)

/-- A query goes by the classes of other queries exactly if no function that is analysed in it
is called again while it is. -/
theorem usesStandalone_iff (w : Nat) :
    UsesStandalone base w ↔ Visited.Acyclic (Calls base) w := by
  constructor
  · intro uses
    refine Visited.acyclic_of_acc (acc_of_query fun g pending => ?_)
    cases uses g none pending
  · rintro acyclic g used ⟨body, has_body, uses⟩
    have ends := Visited.acc_of_acyclic (fun _ _ => calls_bounded) acyclic
    exact uses_of_acc uses ends (fun g args member => ⟨body, args, has_body, member⟩)
      (query_room (by rw [has_body]; rfl)) (standalone_query (acyclic w .refl))

end Cyclic

section Wrappers

variable {base : CodeBase} {w f : Nat}

namespace DeallocationTraverser

theorem joinVectors_silent {types : List DeallocType} (silent : ∀ type ∈ types, type = .none)
    (traverser : DeallocationTraverser) (args : List CodeExpr) :
    traverser.joinVectors types args = traverser := by
  induction types generalizing args with
  | nil => rfl
  | cons type types ih =>
      cases args with
      | nil => rfl
      | cons arg args =>
          rw [joinVectors_cons, if_pos (silent type List.mem_cons_self)]
          exact ih (fun type member => silent type (List.mem_cons_of_mem _ member)) args

theorem modify_middle (first rest : List DeallocType) (old : DeallocType)
    (change : DeallocType → DeallocType) :
    (first ++ old :: rest).modify first.length change = first ++ change old :: rest := by
  induction first with
  | nil => rfl
  | cons type first ih => exact congrArg (type :: ·) ih

/-- Passing on the parameters that follow `first` gives each of them the class of the callee. -/
theorem joinVectors_passed (first : List DeallocType) {types : List DeallocType}
    (visible : DeallocType.opaqueBody ∉ types) {traverser : DeallocationTraverser}
    (fresh : traverser.overwritenParms = [])
    (start : traverser.valPerParam = first ++ List.replicate types.length .none) :
    (traverser.joinVectors types ((List.range' first.length types.length).map
      fun index => .var (.param index))).valPerParam = first ++ types := by
  induction types generalizing traverser first with
  | nil => exact start
  | cons type types ih =>
      have resolved : traverser.resolveParam (.var (.param first.length)) = some first.length := by
        rw [resolveParam, resolveExpr, Option.bind_some, resolveVar, fresh]
        exact if_neg List.not_mem_nil
      rw [List.mem_cons, not_or] at visible
      have extended : first ++ type :: types = (first ++ [type]) ++ types := by simp
      have length : first.length + 1 = (first ++ [type]).length := by simp
      rw [List.length_cons, List.range'_succ, List.map_cons, joinVectors_cons, extended, length]
      by_cases nothing : type = .none
      · rw [if_pos nothing]
        apply ih (first ++ [type]) visible.2 fresh
        rw [start, nothing, List.length_cons, List.replicate_succ]
        simp
      · rw [if_neg nothing]
        apply ih (first ++ [type]) visible.2
        · exact (record_same traverser _ type).2.trans fresh
        · rw [record, resolved]
          simp only [updateVPP]
          rw [start, List.length_cons, List.replicate_succ, modify_middle]
          have joins : joined .none type = type := by
            rw [joined, if_neg (by decide), if_neg]
            rintro (⟨not_none, _⟩ | hidden)
            · exact not_none rfl
            · exact visible.1 hidden.symm
          rw [joins]
          simp

end DeallocationTraverser

theorem GetDeallocType_shaped (has_body : (base.function f).body.isSome = true) :
    DeallocationTraverser.Shaped (base.function f).numParams (GetDeallocType base f).2 := by
  obtain ⟨body, at_body⟩ := Option.isSome_iff_exists.mp has_body
  rw [GetDeallocType_body at_body]
  exact DeallocationTraverser.run_shaped _ (DeallocationTraverser.shaped_start _) _

theorem argsVisits_params (indices : List Nat) :
    argsVisits (indices.map fun index => .var (.param index)) = [] := by
  induction indices with
  | nil => rfl
  | cons index indices ih => exact ih

/-- The tables of the queries about `w` and about `f`, while both analyse `f`: only in the second
may the wrapper be unknown, or known to deallocate nothing. -/
structure Wrapped (w f : Nat) (left right : VisitedFuncs) : Prop where
  inner : left f = some none
  outer : left w = some none
  silent : ∀ known, right w = some known → ∀ types, known = some types → ∀ type ∈ types, type = .none
  others : ∀ g, g ≠ w → left g = right g

theorem Wrapped.insert {left right : VisitedFuncs} (wrapped : Wrapped w f left right) {g : Nat}
    (not_wrapper : g ≠ w) (not_f : g ≠ f) (known : Option (List DeallocType)) :
    Wrapped w f (left.insert g known) (right.insert g known) where
  inner := by rw [Visited.Table.insert_other _ not_f.symm, wrapped.inner]
  outer := by rw [Visited.Table.insert_other _ not_wrapper.symm, wrapped.outer]
  silent := by
    rw [Visited.Table.insert_other _ not_wrapper.symm]
    exact wrapped.silent
  others := by
    intro h different
    by_cases same : h = g
    · rw [same, Visited.Table.insert_same, Visited.Table.insert_same]
    · rw [Visited.Table.insert_other _ same, Visited.Table.insert_other _ same]
      exact wrapped.others h different

theorem Wrapped.start (different : f ≠ w) :
    Wrapped w f ((Visited.Table.insert (fun _ => none) w none).insert f none)
      (Visited.Table.insert (fun _ => none) f none) where
  inner := Visited.Table.insert_same _ _ _
  outer := by rw [Visited.Table.insert_other _ different.symm, Visited.Table.insert_same]
  silent := by
    rw [Visited.Table.insert_other _ different.symm]
    exact nofun
  others := by
    intro g not_wrapper
    by_cases same : g = f
    · rw [same, Visited.Table.insert_same, Visited.Table.insert_same]
    · rw [Visited.Table.insert_other _ same, Visited.Table.insert_other _ same,
        Visited.Table.insert_other _ not_wrapper]

/-- The body of a wrapper is one call. -/
theorem Wraps.body (wraps : Wraps base w f) : ∃ body args, (base.function w).body = some body ∧
    stmtVisits body = [.call f args] ∧
    args = (List.range (base.function f).numParams).map fun index => .var (.param index) := by
  refine ⟨_, _, wraps.2.2, ?_, rfl⟩
  rw [stmtVisits, exprVisits, argsVisits_params]

/-- While `f` is being analysed its wrapper deallocates nothing. -/
theorem Wraps.analysis (wraps : Wraps base w f) {table : VisitedFuncs} (pending : table f = some none)
    (fuel : Nat) : AnalyzeDeallocType base (fuel + 1) w table =
      (List.replicate (base.function w).numParams .none,
        table.insert w (some (List.replicate (base.function w).numParams .none))) := by
  obtain ⟨body, args, has_body, visits, _⟩ := wraps.body
  have stays : Runs.run (DeallocationTraverser.visit (AnalyzeDeallocType base fuel))
      (deallocStart base w table) (stmtVisits body) = deallocStart base w table := by
    rw [visits]
    exact DeallocationTraverser.visitCall_pending _ pending args
  rw [AnalyzeDeallocType_body has_body, stays]
  rfl

theorem lookup_wrapped (wraps : Wraps base w f) (different : f ≠ w) {fuel : Nat}
    (analysis : ∀ g left right, g ≠ w → g ≠ f → Wrapped w f left right →
      ((base.function g).body.isSome = true → (unseenFuncs base right).card < fuel) →
      (AnalyzeDeallocType base fuel g left).1 = (AnalyzeDeallocType base fuel g right).1 ∧
        Wrapped w f (AnalyzeDeallocType base fuel g left).2
          (AnalyzeDeallocType base fuel g right).2) (g : Nat) :
    DeallocationTraverser.SameLookup
      (fun left right => Wrapped w f left right ∧ Room base fuel right)
      (AnalyzeDeallocType base fuel) (AnalyzeDeallocType base fuel) g := by
  rintro left right ⟨wrapped, room⟩
  have later : Room base fuel (lookup (AnalyzeDeallocType base fuel) right g).2 :=
    room.later (lookup_grows room g)
  have right_f : right f = some none := (wrapped.others f different).symm.trans wrapped.inner
  by_cases is_wrapper : g = w
  · subst is_wrapper
    have nothing : lookup (AnalyzeDeallocType base fuel) left g = (none, left) := by
      rw [lookup, wrapped.outer]
    rw [nothing]
    cases at_g : right g with
    | some known =>
        have found : lookup (AnalyzeDeallocType base fuel) right g = (known, right) := by
          rw [lookup, at_g]
        rw [found]
        refine ⟨fun traverser args => ?_, wrapped, room⟩
        cases known with
        | none => rfl
        | some types =>
            exact DeallocationTraverser.joinVectors_silent
              (wrapped.silent (some types) at_g types rfl) traverser args
    | none =>
        obtain ⟨body, _, has_body, _, _⟩ := wraps.body
        have less := room.insert at_g (by rw [has_body]; rfl)
        obtain ⟨fuel, rfl⟩ : ∃ less, fuel = less + 1 :=
          Nat.exists_eq_succ_of_ne_zero (Nat.ne_zero_of_lt less)
        have pending : right.insert g none f = some none :=
          (Visited.Table.insert_other _ different _).trans right_f
        have found := wraps.analysis pending fuel
        rw [lookup, at_g] at later ⊢
        simp only [found] at later ⊢
        have silent : ∀ type ∈ List.replicate (base.function g).numParams DeallocType.none,
            type = .none := fun type member => (List.mem_replicate.mp member).2
        refine ⟨fun traverser args => DeallocationTraverser.joinVectors_silent silent traverser args,
          ⟨wrapped.inner, wrapped.outer, ?_, ?_⟩, later⟩
        · intro known at_wrapper types is_known
          rw [Visited.Table.insert_same] at at_wrapper
          obtain rfl := Option.some.inj ((Option.some.inj at_wrapper).trans is_known)
          exact silent
        · intro h not_wrapper
          rw [Visited.Table.insert_other _ not_wrapper, Visited.Table.insert_other _ not_wrapper]
          exact wrapped.others h not_wrapper
  · have same := wrapped.others g is_wrapper
    rw [lookup] at later
    rw [lookup, lookup, same]
    cases at_g : right g with
    | some known => exact ⟨fun _ _ => rfl, wrapped, room⟩
    | none =>
        have not_f : g ≠ f := by
          rintro rfl
          cases at_g.symm.trans right_f
        obtain ⟨classes, after⟩ := analysis g (left.insert g none) (right.insert g none) is_wrapper
          not_f (wrapped.insert is_wrapper not_f none) (room.insert at_g)
        rw [at_g] at later
        refine ⟨fun traverser args => ?_, after, later⟩
        simp only [classes]

theorem analysis_wrapped (wraps : Wraps base w f) (different : f ≠ w) (fuel : Nat) {g : Nat}
    {left right : VisitedFuncs} (not_wrapper : g ≠ w) (not_f : g ≠ f)
    (wrapped : Wrapped w f left right)
    (enough : (base.function g).body.isSome = true → (unseenFuncs base right).card < fuel) :
    (AnalyzeDeallocType base fuel g left).1 = (AnalyzeDeallocType base fuel g right).1 ∧
      Wrapped w f (AnalyzeDeallocType base fuel g left).2
        (AnalyzeDeallocType base fuel g right).2 := by
  induction fuel generalizing g left right with
  | zero =>
      cases has_body : (base.function g).body with
      | some body => exact absurd (enough (by rw [has_body]; rfl)) (Nat.not_lt_zero _)
      | none =>
          rw [AnalyzeDeallocType_no_body has_body, AnalyzeDeallocType_no_body has_body]
          exact ⟨rfl, wrapped.insert not_wrapper not_f _⟩
  | succ fuel ih =>
      cases has_body : (base.function g).body with
      | none =>
          rw [AnalyzeDeallocType_no_body has_body, AnalyzeDeallocType_no_body has_body]
          exact ⟨rfl, wrapped.insert not_wrapper not_f _⟩
      | some body =>
          have start : DeallocationTraverser.Alike
              (fun left right => Wrapped w f left right ∧ Room base fuel right)
              (deallocStart base g left) (deallocStart base g right) :=
            ⟨right, rfl, wrapped, Nat.lt_succ_iff.mp (enough (by rw [has_body]; rfl))⟩
          have alike := DeallocationTraverser.run_alike start fun h args
            (_ : .call h args ∈ stmtVisits body) => lookup_wrapped wraps different
              (fun g left right not_wrapper not_f => ih not_wrapper not_f) h
          have classes := alike.valPerParam
          obtain ⟨table, same, after, _⟩ := alike
          rw [AnalyzeDeallocType_body has_body, AnalyzeDeallocType_body has_body]
          simp only
          rw [classes, same]
          exact ⟨rfl, after.insert not_wrapper not_f _⟩

/-- The query about a wrapper goes by the classes that a query about the function gives. -/
theorem lookup_wrapper (wraps : Wraps base w f) (different : f ≠ w) :
    (lookup (AnalyzeDeallocType base (base.length - 1))
      (Visited.Table.insert (fun _ => none) w none) f).1 = some (GetDeallocType base f).2 := by
  obtain ⟨inner, at_f⟩ := Option.isSome_iff_exists.mp wraps.1
  obtain ⟨body, _, has_body, _, _⟩ := wraps.body
  have room : Room base (base.length - 1) (Visited.Table.insert (fun _ => none) w none) :=
    query_room (by rw [has_body]; rfl)
  have unseen : (Visited.Table.insert (fun _ => none) w none : VisitedFuncs) f = none :=
    Visited.Table.insert_other _ different _
  have start : DeallocationTraverser.Alike
      (fun left right => Wrapped w f left right ∧ Room base (base.length - 1) right)
      (deallocStart base f ((Visited.Table.insert (fun _ => none) w none).insert f none))
      (deallocStart base f (Visited.Table.insert (fun _ => none) f none)) :=
    ⟨_, rfl, .start different, query_room wraps.1⟩
  have alike := DeallocationTraverser.run_alike start fun g args
    (_ : .call g args ∈ stmtVisits inner) => lookup_wrapped wraps different
      (fun g left right => analysis_wrapped wraps different _) g
  rw [lookup, unseen]
  simp only
  rw [(AnalyzeDeallocType_succ _ _ _ (room.insert unseen)).1, AnalyzeDeallocType_body at_f,
    GetDeallocType_body at_f]
  exact congrArg some alike.valPerParam.symm

/-- A function that only passes its parameters on has the classes of the one it passes them to,
whatever calls what. -/
theorem wrapper_keeps (wraps : Wraps base w f) : GetDeallocType base w = GetDeallocType base f := by
  by_cases different : f = w
  · rw [different]
  · obtain ⟨body, args, has_body, visits, passed⟩ := wraps.body
    have shaped := GetDeallocType_shaped wraps.1
    have used : (lookup (AnalyzeDeallocType base (base.length - 1))
        (deallocStart base w (Visited.Table.insert (fun _ => none) w none)).visitedFuncs f).1 =
          some (GetDeallocType base f).2 := lookup_wrapper wraps different
    have classes : (GetDeallocType base w).2 = (GetDeallocType base f).2 := by
      rw [GetDeallocType_body has_body, visits]
      simp only [Runs.run, DeallocationTraverser.visit]
      rw [DeallocationTraverser.visitCall_lookup, used, Option.getD_some, passed,
        List.range_eq_range', ← shaped.1]
      apply DeallocationTraverser.joinVectors_passed [] shaped.2
      · rfl
      · rw [shaped.1, ← wraps.2.1]
        rfl
    have bodies : (GetDeallocType base w).1 = (GetDeallocType base f).1 :=
      (congrArg Option.isSome has_body).trans wraps.1.symm
    exact Prod.ext bodies classes

end Wrappers

section Result

variable (base : CodeBase)

/-- A query goes by the classes of other queries exactly if no function that is analysed in it
is called again while it is; a wrapper has the classes of its function in any case. -/
theorem dealloc_memo_iff (w : Nat) :
    (UsesStandalone base w ↔ Visited.Acyclic (Calls base) w) ∧
      ∀ f, Wraps base w f → GetDeallocType base w = GetDeallocType base f :=
  ⟨usesStandalone_iff w, fun _ wraps => wrapper_keeps wraps⟩

/-- `void drop(int* p) { delete p; }`, `void pass(int* p) { drop(p); }`. -/
def passDrop : CodeBase :=
  [{ numParams := 1, body := some (.dealloc .delete (.var (.param 0))), returnsPointer := false,
     promise := none },
   { numParams := 1, body := some (.expr (.call 0 [.var (.param 0)])), returnsPointer := false,
     promise := none }]

theorem passDrop_acyclic : Visited.Acyclic (Calls passDrop) 1 := by
  apply Visited.acyclic_of_acc
  refine acc_of_body rfl fun g args member => ?_
  obtain ⟨rfl, _⟩ : g = 0 ∧ args = [.var (.param 0)] := by
    simpa [stmtVisits, exprVisits, argsVisits] using member
  refine acc_of_body rfl fun g args member => ?_
  simp [stmtVisits, exprVisits] at member

theorem passDrop_keeps :
    UsesStandalone passDrop 1 ∧ QueryUses passDrop 1 0 (some [.delete]) ∧ Wraps passDrop 1 0 ∧
      GetDeallocType passDrop 1 = GetDeallocType passDrop 0 :=
  ⟨(dealloc_memo_iff passDrop 1).1.mpr passDrop_acyclic, ⟨_, rfl, .here⟩, ⟨rfl, rfl, rfl⟩,
    (dealloc_memo_iff passDrop 1).2 0 ⟨rfl, rfl, rfl⟩⟩

/-- `struct S { static void f(int* p) { g(p); delete p; } static void g(int* p) { f(p); } };`,
`void fg(int* p, int* q) { S::f(p); S::g(q); }` and
`void gf(int* p, int* q) { S::g(q); S::f(p); }`. -/
def fgTwice : CodeBase :=
  [{ numParams := 1,
     body := some (.seq (.expr (.call 1 [.var (.param 0)])) (.dealloc .delete (.var (.param 0)))),
     returnsPointer := false, promise := none },
   { numParams := 1, body := some (.expr (.call 0 [.var (.param 0)])), returnsPointer := false,
     promise := none },
   { numParams := 2,
     body := some (.seq (.expr (.call 0 [.var (.param 0)])) (.expr (.call 1 [.var (.param 1)]))),
     returnsPointer := false, promise := none },
   { numParams := 2,
     body := some (.seq (.expr (.call 1 [.var (.param 1)])) (.expr (.call 0 [.var (.param 0)]))),
     returnsPointer := false, promise := none }]

/-- `g` is analysed while `f` is, and what is missing in its classes stays in the table. -/
theorem fgTwice_ordered :
    QueryUses fgTwice 2 1 (some [.none]) ∧ (GetDeallocType fgTwice 1).2 = [.delete] ∧
      ¬UsesStandalone fgTwice 2 ∧ (GetDeallocType fgTwice 2).2 = [.delete, .none] ∧
      (GetDeallocType fgTwice 3).2 = [.delete, .delete] := by
  have used : QueryUses fgTwice 2 1 (some [.none]) := ⟨_, rfl, .next .here⟩
  have alone : (GetDeallocType fgTwice 1).2 = [.delete] := by decide
  refine ⟨used, alone, fun uses => ?_, by decide, by decide⟩
  cases (uses 1 _ used).trans (congrArg some alone)

end Result

end CppInterOp
