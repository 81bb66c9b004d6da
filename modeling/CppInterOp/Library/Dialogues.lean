import CppInterOp.Library.Visited

/-!
Recursions as dialogues: computations that ask questions and go on with the answers, each answer
being what another such computation comes to. Where they keep a table of what they have been
asked, every dialogue ends and asks about nothing twice.
-/

namespace Dialogues

universe u v w x

inductive Dialogue (Question : Type u) (Answer : Type v) (Result : Type w)
  | done (result : Result)
  | ask (question : Question) (next : Answer → Dialogue Question Answer Result)

section

variable {Question : Type u} {Answer : Type v} {Result : Type w} {Next : Type x}

namespace Dialogue

def bind : Dialogue Question Answer Result → (Result → Dialogue Question Answer Next) →
    Dialogue Question Answer Next
  | done result, rest => rest result
  | ask question next, rest => ask question fun answer => (next answer).bind rest

def map (dialogue : Dialogue Question Answer Result) (f : Result → Next) :
    Dialogue Question Answer Next :=
  dialogue.bind fun result => done (f result)

def run (answer : Question → Answer) : Dialogue Question Answer Result → Result
  | done result => result
  | ask question next => (next (answer question)).run answer

@[simp] theorem run_done (answer : Question → Answer) (result : Result) :
    (done result : Dialogue Question Answer Result).run answer = result := rfl

@[simp] theorem run_bind (answer : Question → Answer) (dialogue : Dialogue Question Answer Result)
    (rest : Result → Dialogue Question Answer Next) :
    (dialogue.bind rest).run answer = (rest (dialogue.run answer)).run answer := by
  induction dialogue with
  | done result => rfl
  | ask question next ih => exact ih (answer question)

@[simp] theorem run_map (answer : Question → Answer) (dialogue : Dialogue Question Answer Result)
    (f : Result → Next) : (dialogue.map f).run answer = f (dialogue.run answer) :=
  run_bind answer dialogue _

end Dialogue

/-- A dialogue ends when each of its questions is answered by the end of the dialogue that is
planned for it. All that is asked on the way is listed in order. -/
inductive Ends (plan : Question → Dialogue Question Answer Answer) :
    Dialogue Question Answer Answer → Answer → List Question → Prop
  | done {answer : Answer} : Ends plan (.done answer) answer []
  | ask {question next inner answer asked later} :
      Ends plan (plan question) inner asked → Ends plan (next inner) answer later →
        Ends plan (.ask question next) answer (question :: (asked ++ later))

variable {plan : Question → Dialogue Question Answer Answer}

theorem Ends.unique {dialogue : Dialogue Question Answer Answer} {answer other : Answer}
    {asked others : List Question} (ends : Ends plan dialogue answer asked)
    (again : Ends plan dialogue other others) : answer = other ∧ asked = others := by
  induction ends generalizing other others with
  | done =>
      cases again with
      | done => exact ⟨rfl, rfl⟩
  | ask _ _ ih_inner ih_later =>
      cases again with
      | ask inner later =>
          obtain ⟨rfl, rfl⟩ := ih_inner inner
          obtain ⟨rfl, rfl⟩ := ih_later later
          exact ⟨rfl, rfl⟩

/-- A recursion that is bounded by fuel comes to the same, given enough of it. -/
theorem Ends.fueled {bounded : Nat → Question → Answer}
    (unfolds : ∀ fuel question, bounded (fuel + 1) question = (plan question).run (bounded fuel))
    {dialogue : Dialogue Question Answer Answer} {answer : Answer} {asked : List Question}
    (ends : Ends plan dialogue answer asked) :
    ∃ enough, ∀ fuel, enough ≤ fuel → dialogue.run (bounded fuel) = answer := by
  induction ends with
  | done => exact ⟨0, fun _ _ => rfl⟩
  | ask _ _ ih_inner ih_later =>
      obtain ⟨first, inner⟩ := ih_inner
      obtain ⟨second, later⟩ := ih_later
      refine ⟨max (first + 1) second, fun fuel enough => ?_⟩
      obtain ⟨less, rfl⟩ : ∃ less, fuel = less + 1 := Nat.exists_eq_succ_of_ne_zero (by omega)
      rw [Dialogue.run, unfolds, inner less (by omega)]
      exact later (less + 1) (by omega)

end

section Tables

variable {Entry : Type u} {Answer : Type v} {Result : Type w} {Next : Type x}

/-- The keys that are asked about have just been entered in the table, and nothing that is in the
table is forgotten. -/
def Careful (tableOf : Result → Visited.Table Entry) : Visited.Table Entry →
    Dialogue (Nat × Visited.Table Entry) (Answer × Visited.Table Entry) Result → Prop
  | table, .done result => Visited.Grows table (tableOf result)
  | table, .ask question next =>
      (table question.1 = none ∧ question.2 question.1 ≠ none ∧ Visited.Grows table question.2) ∧
        ∀ answer : Answer × Visited.Table Entry, Visited.Grows question.2 answer.2 →
          Careful tableOf answer.2 (next answer)

variable {tableOf : Result → Visited.Table Entry} {tableAfter : Next → Visited.Table Entry}
variable {table later : Visited.Table Entry}

theorem Careful.earlier
    {dialogue : Dialogue (Nat × Visited.Table Entry) (Answer × Visited.Table Entry) Result}
    (careful : Careful tableOf later dialogue) (grows : Visited.Grows table later) :
    Careful tableOf table dialogue := by
  cases dialogue with
  | done result => exact grows.trans careful
  | ask question next =>
      obtain ⟨⟨new, entered, more⟩, rest⟩ := careful
      exact ⟨⟨grows _ new, entered, grows.trans more⟩, rest⟩

theorem Careful.bind
    {dialogue : Dialogue (Nat × Visited.Table Entry) (Answer × Visited.Table Entry) Result}
    (careful : Careful tableOf table dialogue)
    {rest : Result → Dialogue (Nat × Visited.Table Entry) (Answer × Visited.Table Entry) Next}
    (careful_rest : ∀ result, Careful tableAfter (tableOf result) (rest result)) :
    Careful tableAfter table (dialogue.bind rest) := by
  induction dialogue generalizing table with
  | done result => exact (careful_rest result).earlier careful
  | ask question next ih => exact ⟨careful.1, fun answer grows => ih answer (careful.2 answer grows)⟩

theorem Careful.map
    {dialogue : Dialogue (Nat × Visited.Table Entry) (Answer × Visited.Table Entry) Result}
    (careful : Careful tableOf table dialogue) {f : Result → Next}
    (grows : ∀ result, Visited.Grows (tableOf result) (tableAfter (f result))) :
    Careful tableAfter table (dialogue.map f) :=
  careful.bind grows

variable {plan : Nat × Visited.Table Entry →
  Dialogue (Nat × Visited.Table Entry) (Answer × Visited.Table Entry)
    (Answer × Visited.Table Entry)}

/-- What is asked about is new, and is in the table afterwards. -/
theorem Careful.fresh (careful : ∀ question, Careful Prod.snd question.2 (plan question))
    {dialogue : Dialogue (Nat × Visited.Table Entry) (Answer × Visited.Table Entry)
      (Answer × Visited.Table Entry)}
    {answer : Answer × Visited.Table Entry} {asked : List (Nat × Visited.Table Entry)}
    (ends : Ends plan dialogue answer asked) (here : Careful Prod.snd table dialogue) :
    Visited.Grows table answer.2 ∧ (asked.map Prod.fst).Nodup ∧
      ∀ question ∈ asked, table question.1 = none ∧ answer.2 question.1 ≠ none := by
  induction ends generalizing table with
  | done => exact ⟨here, List.nodup_nil, nofun⟩
  | @ask question next inner answer asked later _ _ ih_inner ih_later =>
      obtain ⟨⟨new, entered, grows⟩, rest⟩ := here
      obtain ⟨grows_inner, once_inner, fresh_inner⟩ := ih_inner (careful question)
      obtain ⟨grows_later, once_later, fresh_later⟩ := ih_later (rest inner grows_inner)
      have whole := (grows.trans grows_inner).trans grows_later
      have kept : ∀ key, inner.2 key ≠ none → answer.2 key ≠ none := fun key present missing =>
        present (grows_later key missing)
      have known : inner.2 question.1 ≠ none := fun missing => entered (grows_inner _ missing)
      refine ⟨whole, ?_, ?_⟩
      · rw [List.map_cons, List.map_append, List.nodup_cons, List.nodup_append]
        refine ⟨?_, once_inner, once_later, ?_⟩
        · rw [List.mem_append, not_or]
          constructor
          · intro member
            obtain ⟨other, asked_other, same⟩ := List.mem_map.mp member
            exact entered (same ▸ (fresh_inner other asked_other).1)
          · intro member
            obtain ⟨other, asked_other, same⟩ := List.mem_map.mp member
            exact known (same ▸ (fresh_later other asked_other).1)
        · intro key first other second same
          obtain ⟨left, asked_left, rfl⟩ := List.mem_map.mp first
          obtain ⟨right, asked_right, rfl⟩ := List.mem_map.mp second
          exact (fresh_inner left asked_left).2 (same ▸ (fresh_later right asked_right).1)
      · intro other member
        rcases List.mem_cons.mp member with rfl | elsewhere
        · exact ⟨new, kept _ known⟩
        · rcases List.mem_append.mp elsewhere with first | second
          · obtain ⟨missing, present⟩ := fresh_inner other first
            exact ⟨grows _ missing, kept _ present⟩
          · obtain ⟨missing, present⟩ := fresh_later other second
            exact ⟨grows _ (grows_inner _ missing), present⟩

/-- By induction on the keys that are not in the table yet, and on what is left of the dialogue. -/
theorem Careful.ends {bound : Nat}
    (careful : ∀ question, Careful Prod.snd question.2 (plan question))
    (beyond : ∀ question, bound ≤ question.1 → ∃ answer, plan question = .done answer)
    {dialogue : Dialogue (Nat × Visited.Table Entry) (Answer × Visited.Table Entry)
      (Answer × Visited.Table Entry)} (here : Careful Prod.snd table dialogue) :
    ∃ answer asked, Ends plan dialogue answer asked := by
  obtain ⟨left, few⟩ : ∃ left, (Visited.unseen bound (fun _ => true) table).card < left :=
    ⟨_, Nat.lt_succ_self _⟩
  induction left generalizing table dialogue with
  | zero => exact absurd few (Nat.not_lt_zero _)
  | succ left ih =>
      induction dialogue generalizing table with
      | done answer => exact ⟨answer, [], .done⟩
      | ask question next ih_next =>
          obtain ⟨⟨new, entered, grows⟩, rest⟩ := here
          obtain ⟨inner, asked, inner_ends⟩ :
              ∃ inner asked, Ends plan (plan question) inner asked := by
            by_cases inside : question.1 < bound
            · have fewer : (Visited.unseen bound (fun _ => true) question.2).card <
                  (Visited.unseen bound (fun _ => true) table).card :=
                grows.card_lt inside rfl new entered
              exact ih (careful question) (by omega)
            · obtain ⟨answer, immediate⟩ := beyond question (not_lt.mp inside)
              exact ⟨answer, [], immediate ▸ .done⟩
          have grows_inner : Visited.Grows question.2 inner.2 :=
            (Careful.fresh careful inner_ends (careful question)).1
          have at_most : (Visited.unseen bound (fun _ => true) inner.2).card ≤
              (Visited.unseen bound (fun _ => true) table).card :=
            (grows.trans grows_inner).card_le
          obtain ⟨answer, later, later_ends⟩ :=
            ih_next inner (rest inner grows_inner) (at_most.trans_lt few)
          exact ⟨answer, question :: (asked ++ later), .ask inner_ends later_ends⟩

/-- What a question comes to: its dialogue ends so and in no other way, asking this, and no key is
asked about twice, the first one included. -/
def EndsOnce (plan : Nat × Visited.Table Entry →
    Dialogue (Nat × Visited.Table Entry) (Answer × Visited.Table Entry)
      (Answer × Visited.Table Entry))
    (question : Nat × Visited.Table Entry) (answer : Answer × Visited.Table Entry)
    (asked : List (Nat × Visited.Table Entry)) : Prop :=
  Ends plan (plan question) answer asked ∧ (question.1 :: asked.map Prod.fst).Nodup ∧
    ∀ other others, Ends plan (plan question) other others → other = answer ∧ others = asked

theorem Careful.endsOnce {bound : Nat}
    (careful : ∀ question, Careful Prod.snd question.2 (plan question))
    (beyond : ∀ question, bound ≤ question.1 → ∃ answer, plan question = .done answer)
    {question : Nat × Visited.Table Entry} (entered : question.2 question.1 ≠ none) :
    ∃ answer asked, EndsOnce plan question answer asked := by
  obtain ⟨answer, asked, ends⟩ := Careful.ends careful beyond (careful question)
  obtain ⟨_, once, fresh⟩ := Careful.fresh careful ends (careful question)
  refine ⟨answer, asked, ends, List.nodup_cons.mpr ⟨fun member => ?_, once⟩,
    fun other others again => again.unique ends⟩
  obtain ⟨other, asked_other, same⟩ := List.mem_map.mp member
  exact entered (same ▸ (fresh other asked_other).1)

theorem EndsOnce.fueled {question : Nat × Visited.Table Entry}
    {answer : Answer × Visited.Table Entry} {asked : List (Nat × Visited.Table Entry)}
    (ends : EndsOnce plan question answer asked)
    (bounded : Nat → Nat × Visited.Table Entry → Answer × Visited.Table Entry)
    (unfolds : ∀ fuel question, bounded (fuel + 1) question = (plan question).run (bounded fuel)) :
    ∃ enough, ∀ fuel, enough ≤ fuel → bounded fuel question = answer := by
  obtain ⟨enough, same⟩ := ends.1.fueled unfolds
  refine ⟨enough + 1, fun fuel more => ?_⟩
  obtain ⟨less, rfl⟩ : ∃ less, fuel = less + 1 := Nat.exists_eq_succ_of_ne_zero (by omega)
  rw [unfolds]
  exact same less (by omega)

end Tables

end Dialogues
