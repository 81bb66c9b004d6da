import Mathlib.Data.List.Nodup
import CppInterOp.OffsetSearch

/-!
When the offset of an inherited data member is that of its class plus that of the base: the two
searches agree as long as no step to the base is virtual.
-/

namespace CppInterOp

open Subobjects

namespace RecordDecls

variable {records : RecordDecls} {layouts : RecordLayouts} {derived B : Nat}

section Paths

theorem path_le {Inherits : Step Nat → Prop} (implies : ∀ step, Inherits step →
    records.Inherits step) {path : List (Step Nat)} (leads : Path Inherits derived path B) :
    B ≤ derived := by
  induction leads with
  | nil => exact Nat.le_refl _
  | @cons step _ _ inherits _ ih =>
      exact ih.trans (records.earlier step.source _ (implies step inherits)).le

theorem path_names {path : List (Step Nat)} (leads : Path records.Inherits derived path B)
    (apart : derived ≠ B) : Relation.TransGen records.NamesBase derived B := by
  have below : Relation.ReflTransGen records.NamesBase derived B := by
    induction leads with
    | nil => exact .refl
    | @cons step _ last inherits rest ih =>
        by_cases same : step.target = last
        · exact same ▸ .single ⟨_, inherits, rfl⟩
        · exact .head ⟨_, inherits, rfl⟩ (ih same)
  exact (Relation.reflTransGen_iff_eq_or_transGen.mp below).resolve_left (Ne.symm apart)

theorem path_self {path : List (Step Nat)} (leads : Path records.Inherits B path B) :
    path = [] := by
  cases leads with
  | nil => rfl
  | @cons step rest _ inherits leads_rest =>
      have less := records.earlier step.source _ inherits
      have at_most : step.source ≤ step.target := path_le (fun _ here => here) leads_rest
      simp only at less
      omega

end Paths

section Layout

theorem getBaseClassOffset_plain {step : Step Nat} (inherits : records.Inherits step)
    (plain : step.isPlain = true) :
    records.getBaseClassOffset layouts step.source step.target =
      .ok (layouts.baseOffset step.source step.target) := by
  rw [Step.isPlain, Bool.not_eq_true'] at plain
  rw [Inherits, plain] at inherits
  exact if_pos inherits

theorem getBaseClassOffset_virtual {step : Step Nat} (inherits : records.Inherits step)
    (virtual : step.isPlain = false) :
    records.getBaseClassOffset layouts step.source step.target = .error .didNotFindBase := by
  rw [Step.isPlain, Bool.not_eq_false'] at virtual
  rw [Inherits, virtual] at inherits
  refine if_neg fun plain => ?_
  cases List.inj_on_of_nodup_map (records.once step.source) inherits plain rfl

theorem plain_sum {steps : List (Step Nat)} (inherits : ∀ step ∈ steps, records.Inherits step)
    (plain : ∀ step ∈ steps, step.isPlain = true) (start : Nat) :
    steps.foldlM (fun NonVirtualOffset Element =>
        (records.getBaseClassOffset layouts Element.source Element.target).map
          (NonVirtualOffset + ·)) start =
      .ok (start + (steps.map fun step => layouts.baseOffset step.source step.target).sum) := by
  induction steps generalizing start with
  | nil => rfl
  | cons step steps ih =>
      rw [List.forall_mem_cons] at inherits plain
      rw [List.foldlM_cons, getBaseClassOffset_plain inherits.1 plain.1]
      refine (ih inherits.2 plain.2 _).trans ?_
      rw [List.map_cons, List.sum_cons, Nat.add_assoc]

/-- `ComputeBaseOffset` is the offset of the subobject, as far as it fits. -/
theorem ComputeBaseOffset_eq {path : List (Step Nat)}
    (leads : Path records.Inherits derived path B) :
    records.ComputeBaseOffset layouts derived path =
      .ok (offset layouts.baseOffset (layouts.vbaseOffset derived) path % 2 ^ 32) := by
  have inherits : ∀ step ∈ path.rtakeWhile Step.isPlain, records.Inherits step :=
    fun step member => leads.inherits step ((List.rtakeWhile_suffix Step.isPlain path).subset member)
  rw [ComputeBaseOffset, offset_eq, subobject_eq]
  simp only [plain_sum inherits (fun step member => List.mem_rtakeWhile_imp member) 0]
  cases (path.rdropWhile Step.isPlain).getLast? with
  | none => simp [Except.map]
  | some step => simp [Except.map, Nat.add_comm]

theorem GetBaseClassOffset_eq {front : List (Step Nat)}
    (leads : Path records.Inherits derived front B) :
    records.GetBaseClassOffset layouts derived B front =
      .ok (offset layouts.baseOffset (layouts.vbaseOffset derived) front % 2 ^ 32) := by
  rw [GetBaseClassOffset]
  split
  next same =>
      subst same
      rw [path_self leads]
      rfl
  next _ => exact ComputeBaseOffset_eq leads

/-- Along the directions of a path the offsets add up, unless a step is virtual. -/
theorem ascend_path {direction : Nat → Option Nat} {path : List (Step Nat)}
    (leads : Path (fun step => records.Inherits step ∧ direction step.target = some step.source)
      derived path B) (fuel offset : Nat) (enough : derived < B + fuel) :
    records.ascend layouts derived direction fuel B offset =
      if path.all Step.isPlain then
        .ok (offset + (path.map fun step => layouts.baseOffset step.source step.target).sum)
      else .error .didNotFindBase := by
  induction path using List.reverseRecOn generalizing B fuel offset with
  | nil =>
      cases leads
      obtain ⟨fuel, rfl⟩ : ∃ less, fuel = less + 1 := Nat.exists_eq_succ_of_ne_zero (by omega)
      rw [ascend, if_pos rfl]
      rfl
  | append_singleton path step ih =>
      obtain ⟨before, ⟨inherits, at_base⟩, rfl⟩ := leads.of_concat
      have less : step.target < step.source := records.earlier step.source _ inherits
      have at_most : step.source ≤ derived := path_le (fun _ here => here.1) before
      obtain ⟨fuel, rfl⟩ : ∃ less, fuel = less + 1 := Nat.exists_eq_succ_of_ne_zero (by omega)
      rw [ascend, if_neg (by omega), at_base, List.all_append]
      simp only
      cases plain : step.isPlain with
      | false =>
          rw [getBaseClassOffset_virtual inherits plain]
          simp [plain, Except.bind]
      | true =>
          rw [getBaseClassOffset_plain inherits plain]
          refine (ih before fuel _ (by omega)).trans ?_
          simp [plain, Nat.add_assoc, Nat.add_comm]

end Layout

section Nesting

/-- The class around a record and where the record lies in it, over the anonymous records in
between. -/
inductive Nested (records : RecordDecls) : Nat → Nat → Nat → Prop
  | named {r : Nat} : records.anonymousIn r = none → Nested records r r 0
  | anonymous {r outer Class offset : Nat} {F : FieldDecl} :
      records.anonymousIn r = some outer → F ∈ records.fields outer → F.record = some r →
        Nested records outer Class offset → Nested records r Class (F.bits / 8 + offset)

theorem climb_nested {r Class offset : Nat} (nested : records.Nested r Class offset)
    (FD : FieldDecl) (start : Nat) : records.climb r FD start = (Class, start + offset) := by
  induction nested generalizing FD start with
  | named outermost =>
      rw [climb]
      split
      · rfl
      · rename_i inside
        cases outermost.symm.trans inside
  | @anonymous r outer Class offset F inside member typed _ ih =>
      rw [climb]
      split
      · rename_i outermost
        cases outermost.symm.trans inside
      · rename_i other inside_other
        obtain rfl : outer = other := Option.some.inj (inside.symm.trans inside_other)
        obtain ⟨G, _, _, only⟩ := records.implicitField r outer inside
        have found : (records.fields outer).find? (fun F => F.record == some r) = some F := by
          cases at_field : (records.fields outer).find? fun F => F.record == some r with
          | none =>
              have differs := List.find?_eq_none.mp at_field F member
              simp [typed] at differs
          | some H =>
              have typed_H : H.record = some r := by simpa using List.find?_some at_field
              rw [only H (List.mem_of_find?_eq_some at_field) typed_H, only F member typed]
        simp only [found, Option.getD_some, ih]
        rw [Nat.add_assoc]

theorem GetVariableOffset_own {FD : FieldDecl} {offset : Nat}
    (nested : records.Nested FD.parent B offset) :
    records.GetVariableOffset layouts FD (some B) = .ok (FD.bits / 8 + offset) := by
  rw [GetVariableOffset, climb_nested nested]
  simp

theorem GetVariableOffset_inherited (layouts : RecordLayouts) {FD : FieldDecl} {around : Nat}
    (nested : records.Nested FD.parent B around) {front : List (Step Nat)}
    (leads : Path records.Inherits derived front B) (apart : derived ≠ B) :
    ∃ path, Path records.Inherits derived path B ∧
      records.GetVariableOffset layouts FD (some derived) =
        if path.all Step.isPlain then
          .ok (FD.bits / 8 + around +
            (path.map fun step => layouts.baseOffset step.source step.target).sum)
        else .error .didNotFindBase := by
  let isTarget := fun CRD => CRD == B && !records.forwardDeclared B
  let direction := records.search isTarget [derived] fun _ => none
  have only : ∀ CRD, isTarget CRD = true → CRD = B := by
    intro CRD target
    simp only [isTarget, Bool.and_eq_true, beq_iff_eq] at target
    exact target.1
  have start : Explored records derived [derived] fun _ => none :=
    ⟨fun RD member => Or.inl (List.mem_singleton.mp member), nofun⟩
  have below : B < derived := (path_le (fun _ here => here) leads).lt_of_ne (Ne.symm apart)
  have reached : Reached derived direction B :=
    Or.inr ⟨below, search_finds only List.mem_cons_self (path_names leads apart)⟩
  obtain ⟨path, directed⟩ := start.search.path reached
  refine ⟨path, directed.imp fun _ here => here.1, ?_⟩
  rw [GetVariableOffset, climb_nested nested]
  simp only [if_neg apart]
  exact ascend_path directed _ _ (by omega)

end Nesting

section Agreement

/-- The offset of a base is that of its subobject along every path, the offset of a field in its
class is the sum along the records around it, and the offset of an inherited field is the sum of
the two. -/
def OffsetsAgree (records : RecordDecls) (layouts : RecordLayouts) (FD : FieldDecl)
    (B around derived : Nat) (front : List (Step Nat)) : Prop :=
  (∀ path, Path records.Inherits derived path B →
    records.GetBaseClassOffset layouts derived B front =
      .ok (offset layouts.baseOffset (layouts.vbaseOffset derived) path)) ∧
  records.GetVariableOffset layouts FD (some B) = .ok (FD.bits / 8 + around) ∧
  ∃ base, records.GetBaseClassOffset layouts derived B front = .ok base ∧
    records.GetVariableOffset layouts FD (some derived) = .ok (FD.bits / 8 + around + base)

theorem plain_iff_all {path : List (Step Nat)} :
    (∀ step ∈ path, step.isPlain = true) ↔ path.all Step.isPlain = true :=
  List.all_eq_true.symm

theorem offsets_agree_iff (records : RecordDecls) (layouts : RecordLayouts) (FD : FieldDecl)
    (B around derived : Nat) (front : List (Step Nat))
    (nested : records.Nested FD.parent B around)
    (found : Path records.Inherits derived front B)
    (unambiguous : Unambiguous records.Inherits derived B) :
    OffsetsAgree records layouts FD B around derived front ↔
      (∀ step ∈ front, step.isPlain = true) ∧
        offset layouts.baseOffset (layouts.vbaseOffset derived) front < 2 ^ 32 := by
  have base_offset : records.GetBaseClassOffset layouts derived B front = _ :=
    GetBaseClassOffset_eq found
  constructor
  · rintro ⟨whole, own, base, _, inherited⟩
    have fits : offset layouts.baseOffset (layouts.vbaseOffset derived) front < 2 ^ 32 := by
      have same := Except.ok.inj (base_offset.symm.trans (whole front found))
      rw [← same]
      exact Nat.mod_lt _ (by decide)
    refine ⟨?_, fits⟩
    by_cases apart : derived = B
    · subst apart
      rw [path_self found]
      exact nofun
    · obtain ⟨path, leads, added⟩ := GetVariableOffset_inherited layouts nested found apart
      rw [added] at inherited
      split at inherited
      next plain =>
          rw [unambiguous.only leads (plain_iff_all.mpr plain) found]
          exact plain_iff_all.mpr plain
      next _ => cases inherited
  · rintro ⟨plain, fits⟩
    refine ⟨fun path leads => ?_, GetVariableOffset_own nested, _, base_offset, ?_⟩
    · rw [base_offset, Nat.mod_eq_of_lt fits, unambiguous.offset_eq _ _ found leads]
    · rw [Nat.mod_eq_of_lt fits, offset_plain _ _ plain]
      by_cases apart : derived = B
      · subst apart
        rw [path_self found]
        exact GetVariableOffset_own nested
      · obtain ⟨path, leads, added⟩ := GetVariableOffset_inherited layouts nested found apart
        obtain rfl := unambiguous.only found plain leads
        rw [added, if_pos (plain_iff_all.mp plain)]

end Agreement

section Examples

/-- `struct B { int f; }; struct D : virtual B {};` -/
def virtuallyDerived : RecordDecls where
  bases c := if c = 1 then [⟨0, true⟩] else []
  fields c := if c = 0 then [⟨0, 0, none⟩] else []
  anonymousIn _ := none
  forwardDeclared _ := false
  earlier c specifier member := by
    split at member
    · rename_i second
      obtain rfl := List.mem_singleton.mp member
      rw [second]
      exact Nat.zero_lt_one
    · cases member
  once c := by
    split
    · exact List.nodup_singleton _
    · exact List.nodup_nil
  enclosed := nofun
  implicitField := nofun

theorem virtuallyDerived_path {first last : Nat} {path : List (Step Nat)}
    (leads : Path virtuallyDerived.Inherits first path last) (derived : first = 1)
    (base : last = 0) : path = [⟨1, 0, true⟩] := by
  cases leads with
  | nil => omega
  | @cons step rest _ inherits leads_rest =>
      obtain ⟨source, target, virtual⟩ := step
      simp only at derived leads_rest
      subst derived base
      have direct : (⟨target, virtual⟩ : BaseSpecifier) = ⟨0, true⟩ := List.mem_singleton.mp inherits
      obtain ⟨rfl, rfl⟩ := BaseSpecifier.mk.inj direct
      rw [path_self leads_rest]

theorem virtuallyDerived_leads : Path virtuallyDerived.Inherits 1 [⟨1, 0, true⟩] 0 :=
  @Path.cons _ _ ⟨1, 0, true⟩ _ _ (List.mem_singleton.mpr rfl) .nil

theorem virtuallyDerived_unambiguous : Unambiguous virtuallyDerived.Inherits 1 0 := by
  intro path other leads leads_other
  rw [virtuallyDerived_path leads rfl rfl, virtuallyDerived_path leads_other rfl rfl]

/-- The layout of the derived class is asked for a base that is virtual. -/
theorem offsets_disagree_virtual :
    Path virtuallyDerived.Inherits 1 [⟨1, 0, true⟩] 0 ∧
      Unambiguous virtuallyDerived.Inherits 1 0 ∧
      ¬OffsetsAgree virtuallyDerived ⟨fun _ _ => 8, fun _ _ => 8⟩ ⟨0, 0, none⟩ 0 0 1
        [⟨1, 0, true⟩] := by
  refine ⟨virtuallyDerived_leads, virtuallyDerived_unambiguous, ?_⟩
  rintro ⟨_, _, base, _, inherited⟩
  let f : FieldDecl := ⟨0, 0, none⟩
  have nested : virtuallyDerived.Nested f.parent 0 0 := .named rfl
  obtain ⟨path, leads, added⟩ := GetVariableOffset_inherited ⟨fun _ _ => 8, fun _ _ => 8⟩ nested
    virtuallyDerived_leads Nat.one_ne_zero
  rw [virtuallyDerived_path leads rfl rfl] at added
  cases inherited.symm.trans added

/-- `struct A { int a; }; struct B { int b; union { float g; int f; }; }; struct D : A, B {};` -/
def derivedTwice : RecordDecls where
  bases c := if c = 2 then [⟨0, false⟩, ⟨1, false⟩] else []
  fields c :=
    [[⟨0, 0, none⟩], [⟨1, 0, none⟩, ⟨1, 32, some 3⟩], [], [⟨3, 0, none⟩, ⟨3, 0, none⟩]].getD c []
  anonymousIn r := if r = 3 then some 1 else none
  forwardDeclared _ := false
  earlier c specifier member := by
    split at member
    · rename_i third
      rw [third]
      rcases List.mem_pair.mp member with rfl | rfl
      · exact Nat.two_pos
      · exact Nat.one_lt_two
    · cases member
  once c := by
    split
    · decide
    · exact List.nodup_nil
  enclosed r outer around := by
    split at around
    · rename_i union
      rw [union, ← Option.some.inj around]
      decide
    · cases around
  implicitField r outer around := by
    split at around
    · rename_i union
      rw [union, ← Option.some.inj around]
      exact ⟨⟨1, 32, some 3⟩, by decide, rfl, by decide⟩
    · cases around

theorem path_of_no_bases {records : RecordDecls} {c last : Nat} {path : List (Step Nat)}
    (leads : Path records.Inherits c path last) (none : records.bases c = []) : c = last := by
  cases leads with
  | nil => rfl
  | cons inherits _ =>
      rw [Inherits, none] at inherits
      cases inherits

theorem derivedTwice_path {first last : Nat} {path : List (Step Nat)}
    (leads : Path derivedTwice.Inherits first path last) (derived : first = 2)
    (base : last = 1) : path = [⟨2, 1, false⟩] := by
  cases leads with
  | nil => omega
  | @cons step rest _ inherits leads_rest =>
      obtain ⟨source, target, virtual⟩ := step
      simp only at derived leads_rest
      subst derived base
      rcases List.mem_pair.mp inherits with direct | direct
      · obtain ⟨rfl, rfl⟩ := BaseSpecifier.mk.inj direct
        exact absurd (path_of_no_bases leads_rest rfl) Nat.zero_ne_one
      · obtain ⟨rfl, rfl⟩ := BaseSpecifier.mk.inj direct
        rw [path_self leads_rest]

theorem offsets_agree_derivedTwice :
    OffsetsAgree derivedTwice ⟨fun _ base => 4 * base, fun _ _ => 0⟩ ⟨3, 0, none⟩ 1 4 2
      [⟨2, 1, false⟩] :=
  (offsets_agree_iff _ _ _ _ _ _ _
    (.anonymous (F := ⟨1, 32, some 3⟩) rfl (by decide) rfl (.named rfl))
    (@Path.cons _ _ ⟨2, 1, false⟩ _ _ (List.mem_pair.mpr (Or.inr rfl)) .nil)
    fun _ _ leads leads_other => by
      rw [derivedTwice_path leads rfl rfl, derivedTwice_path leads_other rfl rfl]).mpr
    (by decide)

end Examples

end RecordDecls

end CppInterOp
