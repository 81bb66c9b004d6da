import Mathlib
import CppInterOp.Basic
import CppInterOp.Library.Looping

/-!
`GetDatamembers`: a walk over the declarations of a class and of the anonymous records in it,
with a stack of iterators, against the recursive flattening of the class.
-/

namespace CppInterOp

open Looping

/-- A declaration in a class, as the walk tells them apart. A field whose type is no class is
never an anonymous struct or union. -/
inductive MemberDecl where
  | FieldDecl (decl : Address)
  | RecordFieldDecl (decl : Address) (isAnonymousStructOrUnion : Bool) (decls : List MemberDecl)
  | UsingShadowDecl (decl : Address) (targetIsField : Bool)
  | other (decl : Address)

def MemberDecl.decl : MemberDecl → Address
  | FieldDecl decl => decl
  | RecordFieldDecl decl _ _ => decl
  | UsingShadowDecl decl _ => decl
  | other decl => decl

/-- `RecordDecl::decl_iterator`: the declarations from it on, none of them at the end. -/
abbrev DeclIterator := List MemberDecl

def DeclIterator.Current (iterator : DeclIterator) : Option Address :=
  iterator.head?.map MemberDecl.decl

/-- The two stacks with their backs in front, and the caller's vector. -/
structure DatamembersWalk where
  stack_begin : List DeclIterator
  stack_end : List DeclIterator
  datamembers : List Address

namespace DatamembersWalk

variable (walk : DatamembersWalk)

def pop : DatamembersWalk :=
  { walk with stack_begin := walk.stack_begin.tail, stack_end := walk.stack_end.tail }

/-- `stack_begin.back()++`. -/
def advance : DatamembersWalk :=
  { walk with stack_begin := (walk.stack_begin.headD []).tail :: walk.stack_begin.tail }

def push (decls_begin decls_end : DeclIterator) : DatamembersWalk :=
  { walk with
    stack_begin := decls_begin :: walk.stack_begin, stack_end := decls_end :: walk.stack_end }

def keep (decl : Address) : DatamembersWalk :=
  { walk with datamembers := walk.datamembers ++ [decl] }

def turn : Turn DatamembersWalk (List Address) :=
  match walk.stack_begin with
  | [] => .leave walk.datamembers
  | back :: _ =>
      if back.Current = DeclIterator.Current (walk.stack_end.headD []) then .again walk.pop
      else
        match back with
        -- the comparison has caught an iterator at the end of its record
        | [] => .again walk
        | .FieldDecl decl :: _ => .again (walk.keep decl).advance
        | .RecordFieldDecl decl anonymous decls :: _ =>
            if anonymous then .again (walk.advance.push decls [])
            else .again (walk.keep decl).advance
        | .UsingShadowDecl decl targetIsField :: _ =>
            if targetIsField then .again (walk.keep decl).advance else .again walk.advance
        | .other _ :: _ => .again walk.advance

end DatamembersWalk

structure ClassDecl where
  decls : List MemberDecl
  definition : Option (List MemberDecl)

/-- The declarations that are walked: those of the definition where there is one. -/
def ClassDecl.walked (CXXRD : ClassDecl) : List MemberDecl := CXXRD.definition.getD CXXRD.decls

def GetDatamembers : Option ClassDecl → List Address → List Address → Prop
  | none, datamembers, result => result = datamembers
  | some CXXRD, datamembers, result =>
      Ends DatamembersWalk.turn ⟨[CXXRD.walked], [[]], datamembers⟩ result

mutual

def MemberDecl.flatten : MemberDecl → List Address
  | .FieldDecl decl => [decl]
  | .RecordFieldDecl decl anonymous decls => if anonymous then flattenDecls decls else [decl]
  | .UsingShadowDecl decl targetIsField => if targetIsField then [decl] else []
  | .other _ => []

def flattenDecls : List MemberDecl → List Address
  | [] => []
  | decl :: decls => decl.flatten ++ flattenDecls decls

end

mutual

def MemberDecl.turns : MemberDecl → Nat
  | .FieldDecl _ => 1
  | .RecordFieldDecl _ _ decls => declsTurns decls + 2
  | .UsingShadowDecl _ _ => 1
  | .other _ => 1

def declsTurns : List MemberDecl → Nat
  | [] => 0
  | decl :: decls => decl.turns + declsTurns decls

end

namespace DatamembersWalk

def remaining (walk : DatamembersWalk) : List Address := walk.stack_begin.flatMap flattenDecls

def work (walk : DatamembersWalk) : Nat :=
  (walk.stack_begin.map fun iterator => declsTurns iterator + 1).sum

structure Inv (whole : List Address) (walk : DatamembersWalk) : Prop where
  ends : walk.stack_end = walk.stack_begin.map fun _ => []
  yields : walk.datamembers ++ walk.remaining = whole

section

variable {whole : List Address} {back : DeclIterator} {begins : List DeclIterator}
  {ends : List DeclIterator} {datamembers : List Address}

theorem turn_pop (inv : Inv whole ⟨[] :: begins, ends, datamembers⟩) :
    turn ⟨[] :: begins, ends, datamembers⟩ = .again ⟨begins, ends.tail, datamembers⟩ ∧
      Inv whole ⟨begins, ends.tail, datamembers⟩ := by
  have stacked : ends = [] :: begins.map fun _ => [] := inv.ends
  subst stacked
  exact ⟨rfl, rfl, inv.yields⟩

/-- A declaration in the innermost record is passed, with what it stands for collected or put
in front of what remains. -/
theorem turn_decl {decl : MemberDecl} {decls : List MemberDecl}
    (inv : Inv whole ⟨(decl :: decls) :: begins, ends, datamembers⟩) :
    ∃ next, turn ⟨(decl :: decls) :: begins, ends, datamembers⟩ = .again next ∧
      Inv whole next ∧ next.work < work ⟨(decl :: decls) :: begins, ends, datamembers⟩ := by
  have stacked : ends = [] :: begins.map fun _ => [] := inv.ends
  have yields : datamembers ++ (decl.flatten ++ flattenDecls decls ++
      begins.flatMap flattenDecls) = whole := inv.yields
  subst stacked
  cases decl with
  | FieldDecl decl =>
      refine ⟨_, rfl, ⟨rfl, ?_⟩, ?_⟩
      · simpa [MemberDecl.flatten, remaining, advance, keep] using yields
      · simp [work, advance, keep, declsTurns, MemberDecl.turns]
  | RecordFieldDecl decl anonymous inner =>
      cases anonymous with
      | false =>
          refine ⟨_, rfl, ⟨rfl, ?_⟩, ?_⟩
          · simpa [MemberDecl.flatten, remaining, advance, keep] using yields
          · simp only [work, advance, keep, declsTurns, MemberDecl.turns, List.headD_cons,
              List.tail_cons, List.map_cons, List.sum_cons]
            omega
      | true =>
          refine ⟨_, rfl, ⟨rfl, ?_⟩, ?_⟩
          · simpa [MemberDecl.flatten, remaining, advance, push] using yields
          · simp only [work, advance, push, declsTurns, MemberDecl.turns, List.headD_cons,
              List.tail_cons, List.map_cons, List.sum_cons]
            omega
  | UsingShadowDecl decl targetIsField =>
      cases targetIsField with
      | false =>
          refine ⟨_, rfl, ⟨rfl, ?_⟩, ?_⟩
          · simpa [MemberDecl.flatten, remaining, advance] using yields
          · simp [work, advance, declsTurns, MemberDecl.turns]
      | true =>
          refine ⟨_, rfl, ⟨rfl, ?_⟩, ?_⟩
          · simpa [MemberDecl.flatten, remaining, advance, keep] using yields
          · simp [work, advance, keep, declsTurns, MemberDecl.turns]
  | other decl =>
      refine ⟨_, rfl, ⟨rfl, ?_⟩, ?_⟩
      · simpa [MemberDecl.flatten, remaining, advance] using yields
      · simp [work, advance, declsTurns, MemberDecl.turns]

end

theorem turn_inv (whole : List Address) (walk next : DatamembersWalk) (inv : Inv whole walk)
    (round : turn walk = .again next) : Inv whole next ∧ next.work < walk.work := by
  obtain ⟨begins, ends, datamembers⟩ := walk
  cases begins with
  | nil => cases round
  | cons back begins =>
      cases back with
      | nil =>
          obtain ⟨popped, kept⟩ := turn_pop inv
          rw [popped] at round
          cases round
          refine ⟨kept, ?_⟩
          simp only [work, declsTurns, List.map_cons, List.sum_cons]
          omega
      | cons decl decls =>
          obtain ⟨other, passed, kept⟩ := turn_decl inv
          rw [passed] at round
          cases round
          exact kept

theorem turn_leaves (whole : List Address) (walk : DatamembersWalk) (result : List Address)
    (inv : Inv whole walk) (left : turn walk = .leave result) : result = whole := by
  obtain ⟨begins, ends, datamembers⟩ := walk
  cases begins with
  | nil =>
      cases left
      rw [← inv.yields, remaining, List.flatMap_nil, List.append_nil]
  | cons back begins =>
      cases back with
      | nil =>
          rw [(turn_pop inv).1] at left
          cases left
      | cons decl decls =>
          obtain ⟨other, passed, _⟩ := turn_decl inv
          rw [passed] at left
          cases left

end DatamembersWalk

/-- `GetDatamembers` ends and appends exactly the flattening of the class. -/
theorem GetDatamembers_flatten (CXXRD : ClassDecl) (datamembers : List Address) :
    ∀ result, GetDatamembers (some CXXRD) datamembers result ↔
      result = datamembers ++ flattenDecls CXXRD.walked := by
  have start : DatamembersWalk.Inv (datamembers ++ flattenDecls CXXRD.walked)
      ⟨[CXXRD.walked], [[]], datamembers⟩ := by
    refine ⟨rfl, ?_⟩
    simp [DatamembersWalk.remaining]
  obtain ⟨final, ended, same⟩ := ends_of_measure
    (DatamembersWalk.Inv (datamembers ++ flattenDecls CXXRD.walked))
    (· = datamembers ++ flattenDecls CXXRD.walked) DatamembersWalk.work
    (DatamembersWalk.turn_inv _) (DatamembersWalk.turn_leaves _) start
  intro result
  constructor
  · intro also
    exact (Ends.unique also ended).trans same
  · intro flattened
    exact (flattened.trans same.symm) ▸ ended

end CppInterOp
