import Mathlib.Logic.Relation
import CppInterOp.OffsetCore

/-!
The search of `GetVariableOffset` leaves a path from the derived class to the base, and the offsets
along it are those of the layouts as long as no step is virtual.
-/

namespace CppInterOp

open Subobjects

namespace RecordDecls

variable {records : RecordDecls} {layouts : RecordLayouts}

section Search

variable {isTarget : Nat → Bool} {derived : Nat}

def NamesBase (records : RecordDecls) (RD CRD : Nat) : Prop :=
  ∃ specifier ∈ records.bases RD, specifier.base = CRD

def Reached (derived : Nat) (direction : Nat → Option Nat) (RD : Nat) : Prop :=
  RD = derived ∨ (RD < derived ∧ (direction RD).isSome = true)

structure Explored (records : RecordDecls) (derived : Nat) (stack : List Nat)
    (direction : Nat → Option Nat) : Prop where
  stacked : ∀ RD ∈ stack, Reached derived direction RD
  traced : ∀ CRD RD, direction CRD = some RD →
    records.NamesBase RD CRD ∧ Reached derived direction RD

theorem NamesBase.lt {RD CRD : Nat} (names : records.NamesBase RD CRD) : CRD < RD := by
  obtain ⟨specifier, member, rfl⟩ := names
  exact records.earlier RD specifier member

theorem Reached.le {direction : Nat → Option Nat} {RD : Nat}
    (reached : Reached derived direction RD) : RD ≤ derived :=
  reached.elim Nat.le_of_eq fun below => below.1.le

theorem Reached.more {direction : Nat → Option Nat} {RD : Nat}
    (reached : Reached derived direction RD) (CRD Parent : Nat) :
    Reached derived (fun other => if other = CRD then some Parent else direction other) RD := by
  refine reached.imp_right fun below => ⟨below.1, ?_⟩
  change (if RD = CRD then some Parent else direction RD).isSome = true
  split
  · rfl
  · exact below.2

theorem Explored.base {stack : List Nat} {direction : Nat → Option Nat} {RD CRD : Nat}
    (explored : Explored records derived stack direction)
    (reached : Reached derived direction RD) (names : records.NamesBase RD CRD) :
    Explored records derived (CRD :: stack)
      (fun other => if other = CRD then some RD else direction other) := by
  have below : CRD < derived := names.lt.trans_le reached.le
  refine ⟨fun other member => ?_, fun other Parent at_other => ?_⟩
  · rcases List.mem_cons.mp member with rfl | before
    · exact Or.inr ⟨below, by simp⟩
    · exact (explored.stacked other before).more CRD RD
  · split at at_other
    · rename_i same
      obtain rfl := Option.some.inj at_other
      exact ⟨same ▸ names, reached.more CRD RD⟩
    · obtain ⟨names_other, reached_other⟩ := explored.traced other Parent at_other
      exact ⟨names_other, reached_other.more CRD RD⟩

theorem Explored.fewer {stack fewer : List Nat} {direction : Nat → Option Nat}
    (explored : Explored records derived stack direction) (subset : ∀ RD ∈ fewer, RD ∈ stack) :
    Explored records derived fewer direction :=
  ⟨fun RD member => explored.stacked RD (subset RD member), explored.traced⟩

theorem Explored.visitBases {specifiers : List BaseSpecifier} {stack : List Nat}
    {direction : Nat → Option Nat} {RD : Nat} (explored : Explored records derived stack direction)
    (reached : Reached derived direction RD)
    (named : ∀ specifier ∈ specifiers, specifier ∈ records.bases RD) :
    let visited := visitBases isTarget RD specifiers stack direction
    Explored records derived visited.1 visited.2.1 := by
  induction specifiers generalizing stack direction with
  | nil => exact explored
  | cons specifier rest ih =>
      rw [List.forall_mem_cons] at named
      have next := explored.base reached ⟨specifier, named.1, rfl⟩
      rw [RecordDecls.visitBases]
      simp only
      split
      · exact next.fewer fun other member => List.mem_cons_of_mem _ member
      · exact ih next (reached.more _ _) named.2

theorem Explored.search {stack : List Nat} {direction : Nat → Option Nat}
    (explored : Explored records derived stack direction) :
    Explored records derived [] (records.search isTarget stack direction) := by
  fun_induction records.search isTarget stack direction with
  | case1 direction => exact explored
  | case2 direction RD stack visited flag =>
      have reached := explored.stacked RD List.mem_cons_self
      have rest := explored.fewer fun other member => List.mem_cons_of_mem RD member
      exact (rest.visitBases reached fun _ member => member).fewer nofun
  | case3 direction RD stack visited flag ih =>
      have reached := explored.stacked RD List.mem_cons_self
      have rest := explored.fewer fun other member => List.mem_cons_of_mem RD member
      exact ih (rest.visitBases reached fun _ member => member)

/-- The directions from a base lead up to the derived class. -/
theorem Explored.path {stack : List Nat} {direction : Nat → Option Nat}
    (explored : Explored records derived stack direction) {CRD : Nat}
    (reached : Reached derived direction CRD) :
    ∃ path, Path (fun step => records.Inherits step ∧ direction step.target = some step.source)
      derived path CRD := by
  induction above : derived - CRD using Nat.strong_induction_on generalizing CRD with
  | _ above ih =>
      rcases reached with rfl | ⟨below, found⟩
      · exact ⟨[], .nil⟩
      · obtain ⟨RD, at_CRD⟩ := Option.isSome_iff_exists.mp found
        obtain ⟨⟨specifier, member, same⟩, reached_RD⟩ := explored.traced CRD RD at_CRD
        have less : CRD < RD := same ▸ records.earlier RD specifier member
        have at_most := reached_RD.le
        obtain ⟨path, leads⟩ := ih (derived - RD) (by omega) reached_RD rfl
        subst same
        exact ⟨path ++ [⟨RD, specifier.base, specifier.isVirtual⟩], leads.concat ⟨member, at_CRD⟩⟩

theorem visitBases_keeps {specifiers : List BaseSpecifier} {stack : List Nat}
    {direction : Nat → Option Nat} {RD CRD : Nat} (found : (direction CRD).isSome = true) :
    ((visitBases isTarget RD specifiers stack direction).2.1 CRD).isSome = true := by
  induction specifiers generalizing stack direction with
  | nil => exact found
  | cons specifier rest ih =>
      have kept : (if CRD = specifier.base then some RD else direction CRD).isSome = true := by
        split
        · rfl
        · exact found
      rw [visitBases]
      split
      · exact kept
      · exact ih kept

theorem search_keeps {stack : List Nat} {direction : Nat → Option Nat} {CRD : Nat}
    (found : (direction CRD).isSome = true) :
    (records.search isTarget stack direction CRD).isSome = true := by
  fun_induction records.search isTarget stack direction with
  | case1 direction => exact found
  | case2 direction RD stack visited flag => exact visitBases_keeps found
  | case3 direction RD stack visited flag ih => exact ih (visitBases_keeps found)

/-- The visit of a class ends at the target, or comes to all bases of the class. -/
theorem visitBases_found {specifiers : List BaseSpecifier} {stack : List Nat}
    {direction : Nat → Option Nat} {RD : Nat} :
    let visited := visitBases isTarget RD specifiers stack direction
    (visited.2.2 = true → ∃ CRD, isTarget CRD = true ∧ (visited.2.1 CRD).isSome = true) ∧
      (visited.2.2 = false →
        ∀ specifier ∈ specifiers, (visited.2.1 specifier.base).isSome = true) := by
  induction specifiers generalizing stack direction with
  | nil => exact ⟨fun found => Bool.noConfusion found, fun _ _ absent => absurd absent List.not_mem_nil⟩
  | cons specifier rest ih =>
      rw [visitBases]
      simp only
      split
      next target => exact ⟨fun _ => ⟨specifier.base, target, by simp⟩, fun missed => Bool.noConfusion missed⟩
      next _ =>
          refine ⟨ih.1, fun all => List.forall_mem_cons.mpr ⟨?_, ih.2 all⟩⟩
          exact visitBases_keeps (by simp)

theorem search_finds {stack : List Nat} {direction : Nat → Option Nat} {base : Nat}
    (only : ∀ CRD, isTarget CRD = true → CRD = base) {RD : Nat} (member : RD ∈ stack)
    (above : Relation.TransGen records.NamesBase RD base) :
    (records.search isTarget stack direction base).isSome = true := by
  fun_induction records.search isTarget stack direction generalizing RD with
  | case1 direction => exact absurd member List.not_mem_nil
  | case2 direction Top stack visited =>
      rename_i flag
      obtain ⟨CRD, target, found⟩ := visitBases_found.1 flag
      exact only CRD target ▸ found
  | case3 direction Top stack visited flag =>
      rename_i ih
      rw [Bool.not_eq_true] at flag
      have pushed := visitBases_stack flag
      rcases List.mem_cons.mp member with rfl | before
      · obtain ⟨CRD, ⟨specifier, named, rfl⟩, below⟩ := Relation.TransGen.head'_iff.mp above
        rcases Relation.reflTransGen_iff_eq_or_transGen.mp below with rfl | further
        · exact search_keeps (visitBases_found.2 flag specifier named)
        · refine ih ?_ further
          rw [pushed]
          exact List.mem_append_left _ (List.mem_reverse.mpr (List.mem_map_of_mem named))
      · refine ih ?_ above
        rw [pushed]
        exact List.mem_append_right _ before

end Search

end RecordDecls

end CppInterOp
