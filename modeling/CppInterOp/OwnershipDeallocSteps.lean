import CppInterOp.OwnershipDealloc

/-!
What one visit of `DeallocationTraverser` can do: which aliases it changes, how the
classes of the parameters grow, and what the table of the functions seen has to do with it.
-/

namespace CppInterOp

open PointerPrograms

section Touched

mutual

theorem exprVisits_touched {v : Var} {a : Option CodeExpr} :
    ∀ e : CodeExpr, Visit.assign v a ∈ exprVisits e → v ∈ e.touched
  | .var _, member => nomatch member
  | .null, member => nomatch member
  | .other, member => nomatch member
  | .allocate _, member => nomatch member
  | .cast e, member => exprVisits_touched e member
  | .assign w e, member => by
      rcases List.mem_cons.mp member with here | later
      · cases here
        exact List.mem_cons_self
      · exact List.mem_cons_of_mem _ (exprVisits_touched e later)
  | .shift w e, member => List.mem_cons_of_mem _ (exprVisits_touched e member)
  | .comma a b, member => by
      rcases List.mem_append.mp member with inside | inside
      · exact List.mem_append_left _ (exprVisits_touched a inside)
      · exact List.mem_append_right _ (exprVisits_touched b inside)
  | .cond c a b, member => by
      simp only [exprVisits, List.mem_append] at member
      simp only [Expr.touched, List.mem_append]
      rcases member with (inside | inside) | inside
      · exact Or.inl (Or.inl (exprVisits_touched c inside))
      · exact Or.inl (Or.inr (exprVisits_touched a inside))
      · exact Or.inr (exprVisits_touched b inside)
  | .call f args, member => by
      rcases List.mem_cons.mp member with here | later
      · cases here
      · exact argsVisits_touched args later

theorem argsVisits_touched {v : Var} {a : Option CodeExpr} :
    ∀ es : List CodeExpr, Visit.assign v a ∈ argsVisits es → v ∈ Expr.touchedArgs es
  | [], member => nomatch member
  | e :: es, member => by
      rcases List.mem_append.mp member with inside | inside
      · exact List.mem_append_left _ (exprVisits_touched e inside)
      · exact List.mem_append_right _ (argsVisits_touched es inside)

end

theorem stmtVisits_touched {v : Var} {a : Option CodeExpr} {s : Code}
    (member : Visit.assign v a ∈ stmtVisits s) : v ∈ s.touched := by
  induction s with
  | absent => cases member
  | expr e => exact exprVisits_touched e member
  | decl name init =>
      rcases List.mem_cons.mp member with here | later
      · cases here
        exact List.mem_cons_self
      · cases init with
        | none => cases later
        | some e => exact List.mem_cons_of_mem _ (exprVisits_touched e later)
  | seq s t ihs iht =>
      rcases List.mem_append.mp member with inside | inside
      · exact List.mem_append_left _ (ihs inside)
      · exact List.mem_append_right _ (iht inside)
  | dealloc form e =>
      rcases List.mem_cons.mp member with here | later
      · cases here
      · exact exprVisits_touched e later
  | ite init test s t ihi ihc ihs iht =>
      simp only [stmtVisits, List.mem_append] at member
      simp only [Stmt.touched, List.mem_append]
      rcases member with ((inside | inside) | inside) | inside
      · exact Or.inl (Or.inl (Or.inl (ihi inside)))
      · exact Or.inl (Or.inl (Or.inr (ihc inside)))
      · exact Or.inl (Or.inr (ihs inside))
      · exact Or.inr (iht inside)
  | loop c inc body ihb =>
      simp only [stmtVisits, List.mem_append] at member
      simp only [Stmt.touched, List.mem_append]
      rcases member with (inside | inside) | inside
      · exact Or.inl (Or.inl (exprVisits_touched c inside))
      · exact Or.inl (Or.inr (exprVisits_touched inc inside))
      · exact Or.inr (ihb inside)
  | doWhile body c ihb =>
      rcases List.mem_append.mp member with inside | inside
      · exact List.mem_append_left _ (ihb inside)
      · exact List.mem_append_right _ (exprVisits_touched c inside)
  | switch c body ihb =>
      rcases List.mem_append.mp member with inside | inside
      · exact List.mem_append_left _ (exprVisits_touched c inside)
      · exact List.mem_append_right _ (ihb inside)
  | labelled s ihs => exact ihs member
  | brk => cases member
  | cont => cases member
  | ret e => exact exprVisits_touched e member

end Touched

section Lookup

/-- What a call of `f` goes by, and the table after it: the entry of `f`, which has no value while
`f` is being analysed, or the analysis of an `f` that has not been seen. -/
def lookup (analyze : Nat → VisitedFuncs → List DeallocType × VisitedFuncs)
    (visitedFuncs : VisitedFuncs) (f : Nat) : Option (List DeallocType) × VisitedFuncs :=
  match visitedFuncs f with
  | some known => (known, visitedFuncs)
  | none =>
      let calleeVec := analyze f (visitedFuncs.insert f none)
      (some calleeVec.1, calleeVec.2)

end Lookup

namespace DeallocationTraverser

section Aliases

def SameAliases (traverser other : DeallocationTraverser) : Prop :=
  other.aliasMap = traverser.aliasMap ∧ other.overwritenParms = traverser.overwritenParms

theorem SameAliases.resolveVar {traverser other : DeallocationTraverser}
    (same : SameAliases traverser other) (v : Var) :
    other.resolveVar v = traverser.resolveVar v := by
  cases v with
  | param index => rw [DeallocationTraverser.resolveVar, DeallocationTraverser.resolveVar, same.2]
  | own name => rw [DeallocationTraverser.resolveVar, DeallocationTraverser.resolveVar, same.1]

theorem SameAliases.resolveParam {traverser other : DeallocationTraverser}
    (same : SameAliases traverser other) (e : CodeExpr) :
    other.resolveParam e = traverser.resolveParam e := by
  rw [DeallocationTraverser.resolveParam, DeallocationTraverser.resolveParam]
  exact Option.bind_congr fun v _ => same.resolveVar v

theorem record_same (traverser : DeallocationTraverser) (e : CodeExpr) (type : DeallocType) :
    SameAliases traverser (traverser.record e type) := by
  rw [record]
  cases traverser.resolveParam e with
  | none => exact ⟨rfl, rfl⟩
  | some index => exact ⟨rfl, rfl⟩

theorem record_visited (traverser : DeallocationTraverser) (e : CodeExpr) (type : DeallocType) :
    (traverser.record e type).visitedFuncs = traverser.visitedFuncs := by
  rw [record]
  cases traverser.resolveParam e with
  | none => rfl
  | some index => rfl

theorem joinVectors_cons (traverser : DeallocationTraverser) (type : DeallocType)
    (types : List DeallocType) (arg : CodeExpr) (args : List CodeExpr) :
    traverser.joinVectors (type :: types) (arg :: args) =
      (if type = .none then traverser else traverser.record arg type).joinVectors types args := rfl

theorem joinVectors_same (traverser : DeallocationTraverser) (types : List DeallocType)
    (args : List CodeExpr) : SameAliases traverser (traverser.joinVectors types args) ∧
      (traverser.joinVectors types args).visitedFuncs = traverser.visitedFuncs := by
  induction types generalizing traverser args with
  | nil => exact ⟨⟨rfl, rfl⟩, rfl⟩
  | cons type types ih =>
      cases args with
      | nil => exact ⟨⟨rfl, rfl⟩, rfl⟩
      | cons arg args =>
          rw [joinVectors_cons]
          by_cases nothing : type = .none
          · rw [if_pos nothing]
            exact ih traverser args
          · rw [if_neg nothing]
            have here := record_same traverser arg type
            have rest := ih (traverser.record arg type) args
            exact ⟨⟨rest.1.1.trans here.1, rest.1.2.trans here.2⟩,
              rest.2.trans (record_visited traverser arg type)⟩

def retable (traverser : DeallocationTraverser) (visitedFuncs : VisitedFuncs) :
    DeallocationTraverser :=
  { traverser with visitedFuncs := visitedFuncs }

variable (analyze : Nat → VisitedFuncs → List DeallocType × VisitedFuncs)

theorem visitCall_lookup (traverser : DeallocationTraverser) (f : Nat) (args : List CodeExpr) :
    traverser.visitCall analyze f args =
      (traverser.retable (lookup analyze traverser.visitedFuncs f).2).joinVectors
        ((lookup analyze traverser.visitedFuncs f).1.getD []) args := by
  rw [visitCall, lookup]
  cases traverser.visitedFuncs f with
  | none => rfl
  | some known =>
      cases known with
      | none => rfl
      | some types => rfl

theorem visitCall_pending {traverser : DeallocationTraverser} {f : Nat}
    (pending : traverser.visitedFuncs f = some none) (args : List CodeExpr) :
    traverser.visitCall analyze f args = traverser := by
  rw [visitCall, pending]

theorem visitCall_known {traverser : DeallocationTraverser} {f : Nat} {types : List DeallocType}
    (known : traverser.visitedFuncs f = some (some types)) (args : List CodeExpr) :
    traverser.visitCall analyze f args = traverser.joinVectors types args := by
  rw [visitCall, known]

theorem visitCall_new {traverser : DeallocationTraverser} {f : Nat}
    (new : traverser.visitedFuncs f = none) (args : List CodeExpr) :
    traverser.visitCall analyze f args =
      { traverser with
        visitedFuncs := (analyze f (traverser.visitedFuncs.insert f none)).2 }.joinVectors
          (analyze f (traverser.visitedFuncs.insert f none)).1 args := by
  rw [visitCall, new]

theorem visitCall_same (traverser : DeallocationTraverser) (f : Nat) (args : List CodeExpr) :
    SameAliases traverser (traverser.visitCall analyze f args) := by
  rw [visitCall_lookup]
  exact (joinVectors_same (traverser.retable _) _ args).1

theorem updateMap_other (traverser : DeallocationTraverser) {v w : Var} (other : w ≠ v)
    (e : Option CodeExpr) : (traverser.updateMap v e).resolveVar w = traverser.resolveVar w := by
  cases v with
  | param index =>
      cases w with
      | param position =>
          have different : position ≠ index := fun same => other (congrArg Var.param same)
          simp [updateMap, resolveVar, different]
      | own name => rfl
  | own name =>
      cases w with
      | param position => rfl
      | own different =>
          have distinct : different ≠ name := fun same => other (congrArg Var.own same)
          simp [updateMap, resolveVar, distinct]

theorem visit_frame (traverser : DeallocationTraverser) (node : Visit) {v : Var}
    (untouched : ∀ a, node ≠ .assign v a) :
    (traverser.visit analyze node).resolveVar v = traverser.resolveVar v := by
  cases node with
  | assign w a =>
      have other : v ≠ w := by
        rintro rfl
        exact untouched a rfl
      exact updateMap_other traverser other a
  | dealloc form e => exact (record_same traverser e form.type).resolveVar v
  | call f args => exact (visitCall_same analyze traverser f args).resolveVar v

/-- A traversal changes only the aliases of the variables its nodes assign. -/
theorem run_frame (traverser : DeallocationTraverser) {nodes : List Visit} {v : Var}
    (untouched : ∀ a, Visit.assign v a ∉ nodes) :
    (Runs.run (visit analyze) traverser nodes).resolveVar v = traverser.resolveVar v := by
  induction nodes generalizing traverser with
  | nil => rfl
  | cons node nodes ih =>
      rw [Runs.run, ih _ fun a member => untouched a (List.mem_cons_of_mem _ member)]
      exact visit_frame analyze traverser node
        fun a here => untouched a (here ▸ List.mem_cons_self)

end Aliases

section Classes

def Accounts (type : DeallocType) (form : DeallocForm) : Prop :=
  type = form.type ∨ type = .unknown ∨ type = .opaqueBody

theorem form_ne_none (form : DeallocForm) : form.type ≠ .none := by
  cases form with
  | delete => exact nofun
  | deleteArr => exact nofun
  | free => exact nofun

theorem Accounts.ne_none {type : DeallocType} {form : DeallocForm}
    (accounts : Accounts type form) : type ≠ .none := by
  rcases accounts with rfl | rfl | rfl
  · exact form_ne_none form
  · exact nofun
  · exact nofun

theorem joined_old {old : DeallocType} {form : DeallocForm} (accounts : Accounts old form)
    (new : DeallocType) : Accounts (joined old new) form := by
  rw [joined]
  by_cases unknown : old = .unknown
  · rw [if_pos unknown]
    exact Or.inr (Or.inl rfl)
  · rw [if_neg unknown]
    by_cases conflict : (old ≠ .none ∧ old ≠ new) ∨ new = .opaqueBody
    · rw [if_pos conflict]
      exact Or.inr (Or.inl rfl)
    · rw [if_neg conflict]
      have same : old = new := by
        by_contra different
        exact conflict (Or.inl ⟨accounts.ne_none, different⟩)
      exact same ▸ accounts

theorem joined_new {new : DeallocType} {form : DeallocForm} (accounts : Accounts new form)
    (old : DeallocType) : Accounts (joined old new) form := by
  rw [joined]
  by_cases unknown : old = .unknown
  · rw [if_pos unknown]
    exact Or.inr (Or.inl rfl)
  · rw [if_neg unknown]
    by_cases conflict : (old ≠ .none ∧ old ≠ new) ∨ new = .opaqueBody
    · rw [if_pos conflict]
      exact Or.inr (Or.inl rfl)
    · rwa [if_neg conflict]

theorem joined_not_opaqueBody (old : DeallocType) {new : DeallocType} :
    joined old new ≠ .opaqueBody := by
  rw [joined]
  by_cases unknown : old = .unknown
  · rw [if_pos unknown]
    exact nofun
  · rw [if_neg unknown]
    by_cases conflict : (old ≠ .none ∧ old ≠ new) ∨ new = .opaqueBody
    · rw [if_pos conflict]
      exact nofun
    · rw [if_neg conflict]
      exact fun same => conflict (Or.inr same)

def Classed (types : List DeallocType) (index : Nat) (form : DeallocForm) : Prop :=
  ∃ type, types[index]? = some type ∧ Accounts type form

theorem Classed.modify {types : List DeallocType} {index : Nat} {form : DeallocForm}
    (classed : Classed types index form) (position : Nat) (new : DeallocType) :
    Classed (types.modify position fun old => joined old new) index form := by
  obtain ⟨type, found, accounts⟩ := classed
  rw [Classed, List.getElem?_modify, found]
  by_cases same : position = index
  · simp only [same, if_true]
    exact ⟨_, rfl, joined_old accounts new⟩
  · simp only [same, if_false]
    exact ⟨type, rfl, accounts⟩

theorem classed_new {types : List DeallocType} {index : Nat} (bound : index < types.length)
    {new : DeallocType} {form : DeallocForm} (accounts : Accounts new form) :
    Classed (types.modify index fun old => joined old new) index form := by
  rw [Classed, List.getElem?_modify, List.getElem?_eq_getElem bound]
  simp only [if_true]
  exact ⟨_, rfl, joined_new accounts _⟩

theorem record_classed {traverser : DeallocationTraverser} {index : Nat} {form : DeallocForm}
    (classed : Classed traverser.valPerParam index form) (e : CodeExpr) (type : DeallocType) :
    Classed (traverser.record e type).valPerParam index form := by
  rw [record]
  cases traverser.resolveParam e with
  | none => exact classed
  | some position => exact classed.modify position type

theorem joinVectors_classed {traverser : DeallocationTraverser} {index : Nat} {form : DeallocForm}
    (classed : Classed traverser.valPerParam index form) (types : List DeallocType)
    (args : List CodeExpr) : Classed (traverser.joinVectors types args).valPerParam index form := by
  induction types generalizing traverser args with
  | nil => exact classed
  | cons type types ih =>
      cases args with
      | nil => exact classed
      | cons arg args =>
          rw [joinVectors_cons]
          by_cases nothing : type = .none
          · rw [if_pos nothing]
            exact ih classed args
          · rw [if_neg nothing]
            exact ih (record_classed classed arg type) args

variable (analyze : Nat → VisitedFuncs → List DeallocType × VisitedFuncs)

theorem visit_classed {traverser : DeallocationTraverser} {index : Nat} {form : DeallocForm}
    (classed : Classed traverser.valPerParam index form) (node : Visit) :
    Classed (traverser.visit analyze node).valPerParam index form := by
  cases node with
  | assign v e =>
      cases v with
      | param position => exact classed
      | own name => exact classed
  | dealloc form e => exact record_classed classed e form.type
  | call f args =>
      rw [visit, visitCall_lookup]
      apply joinVectors_classed
      exact classed

theorem run_classed {traverser : DeallocationTraverser} {index : Nat} {form : DeallocForm}
    (classed : Classed traverser.valPerParam index form) (nodes : List Visit) :
    Classed (Runs.run (visit analyze) traverser nodes).valPerParam index form := by
  induction nodes generalizing traverser with
  | nil => exact classed
  | cons node nodes ih => exact ih (visit_classed analyze classed node)

end Classes

section Shape

def Shaped (numParams : Nat) (types : List DeallocType) : Prop :=
  types.length = numParams ∧ DeallocType.opaqueBody ∉ types

theorem shaped_start (numParams : Nat) : Shaped numParams (List.replicate numParams .none) := by
  refine ⟨List.length_replicate, fun member => ?_⟩
  cases (List.mem_replicate.mp member).2

theorem Shaped.modify {numParams : Nat} {types : List DeallocType} (shaped : Shaped numParams types)
    (index : Nat) (new : DeallocType) :
    Shaped numParams (types.modify index fun old => joined old new) := by
  refine ⟨by rw [List.length_modify, shaped.1], fun member => ?_⟩
  obtain ⟨position, found⟩ := List.mem_iff_getElem?.mp member
  rw [List.getElem?_modify] at found
  cases old : types[position]? with
  | none => simp [old] at found
  | some type =>
      rw [old] at found
      by_cases same : index = position
      · simp only [same, if_true] at found
        exact joined_not_opaqueBody type (Option.some.inj found)
      · simp only [same, if_false] at found
        obtain rfl : type = .opaqueBody := Option.some.inj found
        exact shaped.2 (List.mem_of_getElem? old)

theorem record_shaped {numParams : Nat} {traverser : DeallocationTraverser}
    (shaped : Shaped numParams traverser.valPerParam) (e : CodeExpr) (type : DeallocType) :
    Shaped numParams (traverser.record e type).valPerParam := by
  rw [record]
  cases traverser.resolveParam e with
  | none => exact shaped
  | some index => exact shaped.modify index type

theorem joinVectors_shaped {numParams : Nat} {traverser : DeallocationTraverser}
    (shaped : Shaped numParams traverser.valPerParam) (types : List DeallocType)
    (args : List CodeExpr) : Shaped numParams (traverser.joinVectors types args).valPerParam := by
  induction types generalizing traverser args with
  | nil => exact shaped
  | cons type types ih =>
      cases args with
      | nil => exact shaped
      | cons arg args =>
          rw [joinVectors_cons]
          by_cases nothing : type = .none
          · rw [if_pos nothing]
            exact ih shaped args
          · rw [if_neg nothing]
            exact ih (record_shaped shaped arg type) args

variable (analyze : Nat → VisitedFuncs → List DeallocType × VisitedFuncs)

theorem visit_shaped {numParams : Nat} {traverser : DeallocationTraverser}
    (shaped : Shaped numParams traverser.valPerParam) (node : Visit) :
    Shaped numParams (traverser.visit analyze node).valPerParam := by
  cases node with
  | assign v e =>
      cases v with
      | param position => exact shaped
      | own name => exact shaped
  | dealloc form e => exact record_shaped shaped e form.type
  | call f args =>
      rw [visit, visitCall_lookup]
      apply joinVectors_shaped
      exact shaped

theorem run_shaped {numParams : Nat} {traverser : DeallocationTraverser}
    (shaped : Shaped numParams traverser.valPerParam) (nodes : List Visit) :
    Shaped numParams (Runs.run (visit analyze) traverser nodes).valPerParam :=
  Runs.run_preserves (fun state : DeallocationTraverser => Shaped numParams state.valPerParam)
    (fun _ node _ here => visit_shaped analyze here node) shaped

end Shape

section Alike

theorem visit_visitedFuncs (analyze : Nat → VisitedFuncs → List DeallocType × VisitedFuncs)
    (holds : VisitedFuncs → Prop) {traverser : DeallocationTraverser} {node : Visit}
    (here : holds traverser.visitedFuncs)
    (call : ∀ f args, node = .call f args → holds (lookup analyze traverser.visitedFuncs f).2) :
    holds (traverser.visit analyze node).visitedFuncs := by
  cases node with
  | assign v e =>
      cases v with
      | param index => exact here
      | own name => exact here
  | dealloc form e =>
      rw [visit, record_visited]
      exact here
  | call f args =>
      rw [visit, visitCall_lookup, (joinVectors_same _ _ _).2]
      exact call f args rfl

theorem retable_resolveParam (traverser : DeallocationTraverser) (table : VisitedFuncs)
    (e : CodeExpr) : (traverser.retable table).resolveParam e = traverser.resolveParam e := by
  have same : SameAliases traverser (traverser.retable table) := ⟨rfl, rfl⟩
  exact same.resolveParam e

theorem retable_record (traverser : DeallocationTraverser) (table : VisitedFuncs) (e : CodeExpr)
    (type : DeallocType) :
    (traverser.retable table).record e type = (traverser.record e type).retable table := by
  rw [record, record, retable_resolveParam]
  cases traverser.resolveParam e with
  | none => rfl
  | some index => rfl

theorem retable_joinVectors (traverser : DeallocationTraverser) (table : VisitedFuncs)
    (types : List DeallocType) (args : List CodeExpr) :
    (traverser.retable table).joinVectors types args =
      (traverser.joinVectors types args).retable table := by
  induction types generalizing traverser args with
  | nil => rfl
  | cons type types ih =>
      cases args with
      | nil => rfl
      | cons arg args =>
          rw [joinVectors_cons, joinVectors_cons]
          by_cases nothing : type = .none
          · rw [if_pos nothing, if_pos nothing]
            exact ih traverser args
          · rw [if_neg nothing, if_neg nothing, retable_record]
            exact ih (traverser.record arg type) args

theorem retable_updateMap (traverser : DeallocationTraverser) (table : VisitedFuncs) (v : Var)
    (e : Option CodeExpr) :
    (traverser.retable table).updateMap v e = (traverser.updateMap v e).retable table := by
  cases v with
  | param index => rfl
  | own name =>
      have resolves : (traverser.retable table).resolveParam = traverser.resolveParam :=
        funext (retable_resolveParam traverser table)
      rw [updateMap, updateMap]
      simp only [resolves]
      rfl

def Alike (related : VisitedFuncs → VisitedFuncs → Prop) (left right : DeallocationTraverser) :
    Prop :=
  ∃ table, right = left.retable table ∧ related left.visitedFuncs table

variable {related : VisitedFuncs → VisitedFuncs → Prop}
variable {analyze other : Nat → VisitedFuncs → List DeallocType × VisitedFuncs}

theorem Alike.valPerParam {left right : DeallocationTraverser} (alike : Alike related left right) :
    right.valPerParam = left.valPerParam := by
  obtain ⟨table, rfl, _⟩ := alike
  rfl

def SameLookup (related : VisitedFuncs → VisitedFuncs → Prop)
    (analyze other : Nat → VisitedFuncs → List DeallocType × VisitedFuncs) (f : Nat) : Prop :=
  ∀ left right, related left right →
    (∀ (traverser : DeallocationTraverser) args,
      traverser.joinVectors ((lookup other right f).1.getD []) args =
        traverser.joinVectors ((lookup analyze left f).1.getD []) args) ∧
      related (lookup analyze left f).2 (lookup other right f).2

theorem visit_alike {left right : DeallocationTraverser} (alike : Alike related left right)
    {node : Visit} (same : ∀ f args, node = .call f args → SameLookup related analyze other f) :
    Alike related (left.visit analyze node) (right.visit other node) := by
  obtain ⟨table, rfl, tables⟩ := alike
  cases node with
  | assign v e =>
      refine ⟨table, retable_updateMap left table v e, ?_⟩
      cases v with
      | param index => exact tables
      | own name => exact tables
  | dealloc form e =>
      refine ⟨table, retable_record left table e form.type, ?_⟩
      rw [visit, record_visited]
      exact tables
  | call f args =>
      obtain ⟨joins, after⟩ := same f args rfl left.visitedFuncs table tables
      refine ⟨(lookup other table f).2, ?_, ?_⟩
      · rw [visit, visit, visitCall_lookup, visitCall_lookup]
        rw [← retable_joinVectors]
        exact joins _ args
      · rw [visit, visitCall_lookup, (joinVectors_same _ _ _).2]
        exact after

theorem run_alike {left right : DeallocationTraverser} (alike : Alike related left right)
    {nodes : List Visit}
    (same : ∀ f args, .call f args ∈ nodes → SameLookup related analyze other f) :
    Alike related (Runs.run (visit analyze) left nodes) (Runs.run (visit other) right nodes) := by
  induction nodes generalizing left right with
  | nil => exact alike
  | cons node nodes ih =>
      refine ih (visit_alike alike fun f args is_call => ?_) fun f args member => ?_
      · exact same f args (is_call ▸ List.mem_cons_self)
      · exact same f args (List.mem_cons_of_mem _ member)

end Alike

end DeallocationTraverser

section Fuel

variable (base : CodeBase)

def unseenFuncs (visitedFuncs : VisitedFuncs) : Finset Nat :=
  Visited.unseen base.length (fun f => (base.function f).body.isSome) visitedFuncs

def deallocStart (f : Nat) (visitedFuncs : VisitedFuncs) : DeallocationTraverser :=
  { valPerParam := List.replicate (base.function f).numParams .none, visitedFuncs := visitedFuncs }

variable {base}

theorem function_bound {f : Nat} (body : (base.function f).body.isSome = true) :
    f < base.length := by
  by_contra beyond
  rw [(Program.function_beyond (not_lt.mp beyond)).2] at body
  cases body

theorem AnalyzeDeallocType_no_body {f : Nat} (body : (base.function f).body = none) (fuel : Nat)
    (visitedFuncs : VisitedFuncs) : AnalyzeDeallocType base fuel f visitedFuncs =
      (List.replicate (base.function f).numParams .opaqueBody,
        visitedFuncs.insert f (some (List.replicate (base.function f).numParams .opaqueBody))) := by
  cases fuel with
  | zero => rfl
  | succ fuel =>
      rw [AnalyzeDeallocType]
      simp only [body]

theorem AnalyzeDeallocType_body {f : Nat} {body : Code}
    (has_body : (base.function f).body = some body) (fuel : Nat) (table : VisitedFuncs) :
    AnalyzeDeallocType base (fuel + 1) f table =
      let traverser := Runs.run (DeallocationTraverser.visit (AnalyzeDeallocType base fuel))
        (deallocStart base f table) (stmtVisits body)
      (traverser.valPerParam, traverser.visitedFuncs.insert f (some traverser.valPerParam)) := by
  rw [AnalyzeDeallocType]
  simp only [has_body]
  rfl

def Room (base : CodeBase) (fuel : Nat) (table : VisitedFuncs) : Prop :=
  (unseenFuncs base table).card ≤ fuel

theorem Room.later {fuel : Nat} {table later : VisitedFuncs} (room : Room base fuel table)
    (grows : Visited.Grows table later) : Room base fuel later :=
  grows.card_le.trans room

theorem Room.insert {fuel : Nat} {table : VisitedFuncs} (room : Room base fuel table) {f : Nat}
    (new : table f = none) (has_body : (base.function f).body.isSome = true) :
    (unseenFuncs base (table.insert f none)).card < fuel :=
  (Visited.unseen_insert (function_bound has_body) has_body new none).trans_le room

theorem AnalyzeDeallocType_succ (fuel f : Nat) (visitedFuncs : VisitedFuncs)
    (enough : (base.function f).body.isSome = true → (unseenFuncs base visitedFuncs).card < fuel) :
    AnalyzeDeallocType base fuel f visitedFuncs = AnalyzeDeallocType base (fuel + 1) f visitedFuncs ∧
      Visited.Grows visitedFuncs (AnalyzeDeallocType base fuel f visitedFuncs).2 := by
  induction fuel generalizing f visitedFuncs with
  | zero =>
      cases body : (base.function f).body with
      | some s => exact absurd (enough (by rw [body]; rfl)) (Nat.not_lt_zero _)
      | none =>
          rw [AnalyzeDeallocType_no_body body, AnalyzeDeallocType_no_body body]
          exact ⟨rfl, (Visited.Grows.refl _).insert _ _⟩
  | succ fuel ih =>
      cases body : (base.function f).body with
      | none =>
          rw [AnalyzeDeallocType_no_body body, AnalyzeDeallocType_no_body body]
          exact ⟨rfl, (Visited.Grows.refl _).insert _ _⟩
      | some s =>
          have room : Room base fuel visitedFuncs :=
            Nat.lt_succ_iff.mp (enough (by rw [body]; rfl))
          -- the tables stay the same, and as they grow the fuel stays enough for the calls
          have same : ∀ g, DeallocationTraverser.SameLookup
              (fun left right => right = left ∧ Visited.Grows visitedFuncs left)
              (AnalyzeDeallocType base fuel) (AnalyzeDeallocType base (fuel + 1)) g := by
            rintro g _ table ⟨rfl, grows⟩
            rw [lookup, lookup]
            cases at_g : table g with
            | some known => exact ⟨fun _ _ => rfl, rfl, grows⟩
            | none =>
                have inner := ih g (table.insert g none) ((room.later grows).insert at_g)
                rw [← inner.1]
                exact ⟨fun _ _ => rfl, rfl, (grows.insert g none).trans inner.2⟩
          have start : DeallocationTraverser.Alike
              (fun left right => right = left ∧ Visited.Grows visitedFuncs left)
              (deallocStart base f visitedFuncs) (deallocStart base f visitedFuncs) :=
            ⟨visitedFuncs, rfl, rfl, .refl _⟩
          have alike := DeallocationTraverser.run_alike start fun g args
            (_ : .call g args ∈ stmtVisits s) => same g
          obtain ⟨table, whole, rfl, grown⟩ := alike
          rw [AnalyzeDeallocType_body body, AnalyzeDeallocType_body body]
          simp only
          rw [whole]
          exact ⟨rfl, grown.insert _ _⟩

/-- The analysis never runs out of fuel: more of it gives the same classes. -/
theorem GetDeallocType_fuel (f more : Nat) :
    (AnalyzeDeallocType base (base.length + more) f
      (Visited.Table.insert (fun _ => none) f none)).1 = (GetDeallocType base f).2 := by
  induction more with
  | zero => rfl
  | succ more ih =>
      have enough : (base.function f).body.isSome = true →
          (unseenFuncs base (Visited.Table.insert (fun _ => none) f none)).card <
            base.length + more := by
        intro body
        have less : (unseenFuncs base (Visited.Table.insert (fun _ => none) f none)).card <
            (unseenFuncs base fun _ => none).card :=
          Visited.unseen_insert (function_bound body) body rfl none
        have bound : (unseenFuncs base fun _ => none).card ≤ base.length :=
          Visited.unseen_card_le _
        omega
      rw [← Nat.add_assoc, ← (AnalyzeDeallocType_succ _ _ _ enough).1]
      exact ih

end Fuel

end CppInterOp
