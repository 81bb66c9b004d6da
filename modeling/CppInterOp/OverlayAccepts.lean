import CppInterOp.OverlayBlocks

/-!
Which classes `MakeVTableOverlay` accepts: the vtable group of a class without virtual bases,
and the vptrs of its objects.
-/

namespace CppInterOp

namespace CXXRecordDecl

/-- The words of the vtables behind the primary one: every polymorphic base but the primary
base has a vtable of its own, with offset-to-top and type information in front. -/
def secondaryWords : CXXRecordDecl → Bool → Nat
  | members _, _ => 0
  | base _ type rest, primaryTaken =>
      if type.isPolymorphic then
        (if primaryTaken then 2 + type.vtableSlots.length else 0) + type.secondaryWords false +
          rest.secondaryWords true
      else rest.secondaryWords primaryTaken

/-- The words of the vtable group from the first address point on. -/
def groupWords (cls : CXXRecordDecl) : Nat := cls.vtableSlots.length + cls.secondaryWords false

def ancestors : CXXRecordDecl → List CXXRecordDecl
  | members _ => []
  | base _ type rest => type :: (type.ancestors ++ rest.ancestors)

def polymorphicBases (cls : CXXRecordDecl) : Nat :=
  (cls.bases.filter fun base => base.2.isPolymorphic).length

/-- One direct base brings all the vptrs of the class, and it brings several. -/
def HidesVPtr (cls : CXXRecordDecl) : Prop := cls.polymorphicBases = 1 ∧ 1 < cls.vptrs

def OneSlot (cls : CXXRecordDecl) : Prop := cls.vptrs = 1 ∧ cls.vtableSlots.length = 1

instance (cls : CXXRecordDecl) : Decidable cls.HidesVPtr :=
  inferInstanceAs (Decidable (_ ∧ _))

instance (cls : CXXRecordDecl) : Decidable cls.OneSlot :=
  inferInstanceAs (Decidable (_ ∧ _))

end CXXRecordDecl

def CXXMethodDecl.slot (method : CXXMethodDecl) : VTableSlot :=
  match method.fn with
  | .method signature => .function signature
  | .destructor => .deletingDtor

structure CXXMethodDecl.VirtualIn (method : CXXMethodDecl) (cls : CXXRecordDecl) : Prop where
  isVirtual : method.isVirtual = true
  parent : method.parent = cls ∨ method.parent ∈ cls.ancestors
  declared : method.fn ∈ CXXRecordDecl.declare method.parent.inherited method.parent.virtuals

/-- The layouts of the Itanium ABI where no base is virtual: the vtable group of a class, and
the slots of its methods in its primary vtable. -/
structure VTableContext.ItaniumGroup (context : VTableContext) : Prop where
  group : ∀ cls : CXXRecordDecl, cls.isPolymorphic = true → cls.hasVBases = false →
    context.vtableComponents cls = context.addressPoint cls + cls.groupWords
  index : ∀ method : CXXMethodDecl, method.VirtualIn method.parent →
    method.parent.hasVBases = false →
    context.getMethodVTableIndex method < method.parent.vtableSlots.length

/-- The overlay is made exactly for the classes whose objects have one vptr, and nothing
changes where none is made. -/
def AcceptsSingleVptr (context : VTableContext) (memory : OverlayMemory) (inst : Address)
    (call : OverlayCall) (cls : CXXRecordDecl) : Prop :=
  let made := memory.makeVTableOverlay context (some inst) call
  (made.2.isSome = true ↔
    cls.isPolymorphic = true ∧ cls.hasVBases = false ∧ cls.vptrs = 1) ∧
  (made.2 = none → made.1 = memory)

namespace CXXRecordDecl

variable {cls type rest : CXXRecordDecl} {isVirtual : Bool}

theorem vptrs_pos_iff (cls : CXXRecordDecl) : 0 < cls.vptrs ↔ cls.isPolymorphic = true := by
  induction cls with
  | members virtuals => cases virtuals <;> simp [vptrs, baseVptrs, isPolymorphic, CXXRecordDecl.virtuals]
  | base isVirtual type rest typePositive restPositive =>
      rw [isPolymorphic, Bool.or_eq_true, ← typePositive, ← restPositive]
      have sum : (base isVirtual type rest).baseVptrs = type.vptrs + rest.baseVptrs := rfl
      have own : (base isVirtual type rest).virtuals = rest.virtuals := rfl
      simp only [vptrs, sum, own] at *
      grind

theorem baseVptrs_base : (base isVirtual type rest).baseVptrs = type.vptrs + rest.baseVptrs := rfl

theorem baseVptrs_le_vptrs (cls : CXXRecordDecl) : cls.baseVptrs ≤ cls.vptrs := by
  rw [vptrs]
  split
  · omega
  · exact Nat.le_refl _

theorem polymorphicBases_base : (base isVirtual type rest).polymorphicBases =
    (if type.isPolymorphic then 1 else 0) + rest.polymorphicBases := by
  cases polymorphic : type.isPolymorphic with
  | true =>
      simp only [polymorphicBases, bases, List.filter_cons, polymorphic, if_true,
        List.length_cons]
      omega
  | false => simp [polymorphicBases, bases, polymorphic]

theorem polymorphicBases_le (cls : CXXRecordDecl) : cls.polymorphicBases ≤ cls.baseVptrs := by
  induction cls with
  | members virtuals => exact Nat.le_refl 0
  | base isVirtual type rest typeLe restLe =>
      rw [polymorphicBases_base, baseVptrs_base]
      split
      case isTrue polymorphic =>
        have positive := (vptrs_pos_iff type).mpr polymorphic
        omega
      case isFalse => omega

theorem baseVptrs_of_none (none : cls.polymorphicBases = 0) : cls.baseVptrs = 0 := by
  induction cls with
  | members virtuals => rfl
  | base isVirtual type rest typeNone restNone =>
      rw [polymorphicBases_base] at none
      split at none
      case isTrue => omega
      case isFalse plain =>
        have zero : ¬0 < type.vptrs := fun positive => plain ((vptrs_pos_iff type).mp positive)
        rw [baseVptrs_base, restNone (by omega)]
        omega

theorem vtableSlots_pos (polymorphic : cls.isPolymorphic = true) : 0 < cls.vtableSlots.length := by
  have some : cls.firstVirtual.isSome = true := by rw [firstVirtual_isSome, polymorphic]
  rw [← declare_head] at some
  rw [vtableSlots]
  cases declared : declare cls.inherited cls.virtuals with
  | nil => simp [declared] at some
  | cons first others => cases first <;> simp [VirtualFn.slots]

theorem baseVptrs_le_secondaryWords (cls : CXXRecordDecl) (primaryTaken : Bool) :
    cls.baseVptrs ≤ (if primaryTaken then 0 else 1) + cls.secondaryWords primaryTaken := by
  induction cls generalizing primaryTaken with
  | members virtuals => simp [baseVptrs]
  | base isVirtual type rest typeLe restLe =>
      rw [baseVptrs_base, secondaryWords]
      by_cases polymorphic : type.isPolymorphic = true
      · have first := typeLe false
        have others := restLe true
        have one : type.vptrs ≤ 1 + type.secondaryWords false := by
          rw [vptrs]
          split
          · split <;> omega
          · simpa using first
        rw [if_pos polymorphic]
        cases primaryTaken with
        | true =>
            simp only [if_true] at others ⊢
            omega
        | false =>
            simp only [if_true, Bool.false_eq_true, if_false] at others ⊢
            omega
      · have zero : ¬0 < type.vptrs := fun positive => polymorphic ((vptrs_pos_iff type).mp positive)
        have others := restLe primaryTaken
        rw [if_neg polymorphic]
        omega

theorem secondaryWords_of_single (primaryTaken : Bool)
    (single : cls.baseVptrs + (if primaryTaken then 1 else 0) ≤ 1) :
    cls.secondaryWords primaryTaken = 0 := by
  induction cls generalizing primaryTaken with
  | members virtuals => rfl
  | base isVirtual type rest typeNone restNone =>
      rw [baseVptrs_base] at single
      rw [secondaryWords]
      split
      case isTrue polymorphic =>
        have positive := (vptrs_pos_iff type).mpr polymorphic
        have inner := baseVptrs_le_vptrs type
        cases primaryTaken with
        | true =>
            simp only [if_true] at single
            omega
        | false =>
            simp only [Bool.false_eq_true, if_false] at single
            rw [typeNone false (by simp; omega), restNone true (by simp; omega)]
            rfl
      case isFalse => exact restNone primaryTaken (by omega)

theorem ancestor_polymorphic {ancestor : CXXRecordDecl} (member : ancestor ∈ cls.ancestors)
    (polymorphic : ancestor.isPolymorphic = true) : cls.isPolymorphic = true := by
  induction cls with
  | members virtuals => cases member
  | base isVirtual type rest typeSome restSome =>
      rw [isPolymorphic, Bool.or_eq_true]
      rcases List.mem_cons.mp member with rfl | further
      · exact Or.inl polymorphic
      · rcases List.mem_append.mp further with inner | later
        · exact Or.inl (typeSome inner)
        · exact Or.inr (restSome later)

theorem ancestor_direct {ancestor : CXXRecordDecl} (direct : cls.hasVBases = false)
    (member : ancestor ∈ cls.ancestors) : ancestor.hasVBases = false := by
  induction cls with
  | members virtuals => cases member
  | base isVirtual type rest typeDirect restDirect =>
      simp only [hasVBases, Bool.or_eq_false_iff] at direct
      rcases List.mem_cons.mp member with rfl | further
      · exact direct.1.2
      · rcases List.mem_append.mp further with inner | later
        · exact typeDirect direct.1.2 inner
        · exact restDirect direct.2 later

def inheritedSlots (cls : CXXRecordDecl) : Nat := (cls.inherited.flatMap VirtualFn.slots).length

theorem inheritedSlots_le (cls : CXXRecordDecl) : cls.inheritedSlots ≤ cls.vtableSlots.length := by
  simp [inheritedSlots, vtableSlots, declare]

theorem ancestor_slots_le {ancestor : CXXRecordDecl} (primaryTaken : Bool)
    (member : ancestor ∈ cls.ancestors) (polymorphic : ancestor.isPolymorphic = true) :
    ancestor.vtableSlots.length ≤
      (if primaryTaken then 0 else cls.inheritedSlots) + cls.secondaryWords primaryTaken := by
  induction cls generalizing primaryTaken with
  | members virtuals => cases member
  | base isVirtual type rest typeLe restLe =>
      rw [secondaryWords]
      by_cases primary : type.isPolymorphic = true
      · have taken : (base isVirtual type rest).inheritedSlots = type.vtableSlots.length := by
          simp [inheritedSlots, inherited, primary, vtableSlots]
        have grown := inheritedSlots_le type
        have bound : ancestor.vtableSlots.length ≤ type.vtableSlots.length +
            type.secondaryWords false + rest.secondaryWords true := by
          rcases List.mem_cons.mp member with rfl | further
          · omega
          · rcases List.mem_append.mp further with inner | later
            · have := typeLe false inner
              simp only [Bool.false_eq_true, if_false] at this
              omega
            · have := restLe true later
              simp only [if_true] at this
              omega
        rw [if_pos primary, taken]
        cases primaryTaken with
        | true =>
            simp only [if_true]
            omega
        | false =>
            simp only [Bool.false_eq_true, if_false]
            omega
      · have skipped : (base isVirtual type rest).inheritedSlots = rest.inheritedSlots := by
          simp [inheritedSlots, inherited, primary]
        rw [if_neg primary, skipped]
        rcases List.mem_cons.mp member with rfl | further
        · exact absurd polymorphic primary
        · rcases List.mem_append.mp further with inner | later
          · exact absurd (ancestor_polymorphic inner polymorphic) primary
          · exact restLe primaryTaken later

theorem groupWords_of_single (single : cls.vptrs = 1) :
    cls.groupWords = cls.vtableSlots.length := by
  have bound := baseVptrs_le_vptrs cls
  rw [groupWords, secondaryWords_of_single false (by simp; omega), Nat.add_zero]

theorem groupWords_of_several (several : 1 < cls.vptrs) : 2 ≤ cls.groupWords := by
  have polymorphic : cls.isPolymorphic = true := (vptrs_pos_iff cls).mp (by omega)
  have slots := vtableSlots_pos polymorphic
  have words := baseVptrs_le_secondaryWords cls false
  have based : cls.vptrs = cls.baseVptrs := by
    rw [vptrs] at several ⊢
    split at several
    · split at several <;> omega
    · rename_i some
      rw [if_neg some]
  simp only [Bool.false_eq_true, if_false] at words
  rw [groupWords]
  omega

theorem ancestor_slots_le_groupWords {ancestor : CXXRecordDecl}
    (within : ancestor = cls ∨ ancestor ∈ cls.ancestors)
    (polymorphic : ancestor.isPolymorphic = true) :
    ancestor.vtableSlots.length ≤ cls.groupWords := by
  rcases within with rfl | member
  · exact Nat.le_add_right _ _
  · have bound := ancestor_slots_le false member polymorphic
    have grown := inheritedSlots_le cls
    simp only [Bool.false_eq_true, if_false] at bound
    rw [groupWords]
    omega

theorem polymorphic_of_declared {fn : VirtualFn} (member : fn ∈ declare cls.inherited cls.virtuals) :
    cls.isPolymorphic = true := by
  rw [← firstVirtual_isSome, ← declare_head]
  cases declared : declare cls.inherited cls.virtuals with
  | nil => simp [declared] at member
  | cons first others => rfl

theorem complex_iff (direct : cls.hasVBases = false) :
    hasComplexVTableLayout cls = true ↔ 1 < cls.polymorphicBases := by
  simp [hasComplexVTableLayout, direct, polymorphicBases]

end CXXRecordDecl

namespace OverlayMemory

theorem makeVTableOverlay_isSome_iff (context : VTableContext) (memory : OverlayMemory)
    (inst : Address) {call : OverlayCall} {cls : CXXRecordDecl} (named : call.base = some cls) :
    (memory.makeVTableOverlay context (some inst) call).2.isSome = true ↔
      cls.isPolymorphic = true ∧ hasComplexVTableLayout cls = false ∧
        2 ≤ vtableMethodSlotCount context (some cls) ∧
        ∀ entry ∈ call.listed context,
          0 ≤ entry.1 ∧ entry.1 < vtableMethodSlotCount context (some cls) := by
  by_cases accepted : (!cls.isPolymorphic || hasComplexVTableLayout cls) = true
  · have refused : ¬(cls.isPolymorphic = true ∧ hasComplexVTableLayout cls = false) := by
      rintro ⟨polymorphic, simple⟩
      simp [polymorphic, simple] at accepted
    simp only [makeVTableOverlay, named, accepted, if_true, Option.isSome_none,
      Bool.false_eq_true, false_iff]
    exact fun all => refused ⟨all.1, all.2.1⟩
  by_cases few : vtableMethodSlotCount context (some cls) < kMinVTableMethodSlots
  · simp only [makeVTableOverlay, named, accepted, few, if_true, if_false, Option.isSome_none,
      Bool.false_eq_true, false_iff]
    intro all
    rw [kMinVTableMethodSlots] at few
    omega
  have kept : cls.isPolymorphic = true ∧ hasComplexVTableLayout cls = false := by
    simpa using accepted
  have enough : 2 ≤ vtableMethodSlotCount context (some cls) := by
    rw [kMinVTableMethodSlots] at few
    omega
  by_cases outside : ((call.listed context).any fun entry =>
      entry.1 < 0 || vtableMethodSlotCount context (some cls) ≤ entry.1) = true
  · have stray : ¬∀ entry ∈ call.listed context,
        0 ≤ entry.1 ∧ entry.1 < vtableMethodSlotCount context (some cls) := by
      intro all
      obtain ⟨entry, member, out⟩ := List.any_eq_true.mp outside
      have := all entry member
      simp only [Bool.or_eq_true, decide_eq_true_eq] at out
      omega
    simp only [stray, and_false, iff_false]
    by_cases negative : ((call.listed context).any fun entry => entry.1 < 0) = true
    · simp [makeVTableOverlay, named, accepted, few, negative]
    · simp [makeVTableOverlay, applyVTableOverlay, named, accepted, few, negative, outside]
  · have all : ∀ entry ∈ call.listed context,
        0 ≤ entry.1 ∧ entry.1 < vtableMethodSlotCount context (some cls) := by
      intro entry member
      have := mt (fun out => List.any_eq_true.mpr ⟨entry, member, out⟩) outside
      simp only [Bool.or_eq_true, decide_eq_true_eq] at this
      omega
    have natural : ((call.listed context).any fun entry => entry.1 < 0) = false := by
      rw [List.any_eq_false]
      intro entry member
      have := (all entry member).1
      simpa using this
    have made : (memory.makeVTableOverlay context (some inst) call).2.isSome = true := by
      simp only [makeVTableOverlay, named, accepted, few, natural, if_false,
        Bool.false_eq_true, applyVTableOverlay, outside]
      cases call.onDestroy with
      | none => rfl
      | some onDestroy => rfl
    exact ⟨fun _ => ⟨kept.1, kept.2, enough, all⟩, fun _ => made⟩

end OverlayMemory

open CXXRecordDecl

section Accepts

variable {context : VTableContext} {call : OverlayCall} {cls : CXXRecordDecl}

theorem vtableMethodSlotCount_group (itanium : context.ItaniumGroup)
    (polymorphic : cls.isPolymorphic = true) (direct : cls.hasVBases = false) :
    vtableMethodSlotCount context (some cls) = cls.groupWords := by
  simp [vtableMethodSlotCount, polymorphic, itanium.group cls polymorphic direct]

theorem listed_in_range (itanium : context.ItaniumGroup) (direct : cls.hasVBases = false)
    (methods : ∀ overlay ∈ call.overlays, ∃ method, overlay.1 = some method ∧
      method.VirtualIn cls) :
    ∀ entry ∈ call.listed context, 0 ≤ entry.1 ∧ entry.1 < (cls.groupWords : Int) := by
  intro entry member
  obtain ⟨overlay, listed, rfl⟩ := List.mem_map.mp member
  obtain ⟨method, named, virtual⟩ := methods overlay listed
  have parentDirect : method.parent.hasVBases = false := by
    rcases virtual.parent with same | ancestor
    · rw [same]
      exact direct
    · exact ancestor_direct direct ancestor
  have bound := itanium.index method ⟨virtual.isVirtual, Or.inl rfl, virtual.declared⟩ parentDirect
  have grown := ancestor_slots_le_groupWords virtual.parent (polymorphic_of_declared virtual.declared)
  simp only [virtualMethodSlot, named, virtual.isVirtual, if_true]
  omega

end Accepts

theorem overlay_accepts_iff (context : VTableContext) (itanium : context.ItaniumGroup)
    (memory : OverlayMemory) (inst : Address) (call : OverlayCall) (cls : CXXRecordDecl)
    (named : call.base = some cls)
    (methods : ∀ overlay ∈ call.overlays, ∃ method, overlay.1 = some method ∧
      method.VirtualIn cls) :
    AcceptsSingleVptr context memory inst call cls ↔
      (cls.hasVBases = true ∨ ¬(cls.HidesVPtr ∨ cls.OneSlot)) := by
  have unchanged : (memory.makeVTableOverlay context (some inst) call).2 = none →
      (memory.makeVTableOverlay context (some inst) call).1 = memory := by
    intro refused
    rcases OverlayMemory.makeVTableOverlay_cases context memory (some inst) call with same | made
    · rw [same]
    · obtain ⟨target, base, _, made, _⟩ := made
      rw [refused] at made
      cases made
  rw [AcceptsSingleVptr, OverlayMemory.makeVTableOverlay_isSome_iff context memory inst named]
  cases direct : cls.hasVBases with
  | true =>
      have complex : hasComplexVTableLayout cls = true := by simp [hasComplexVTableLayout, direct]
      simp [complex]
      exact unchanged
  | false =>
      have bases := polymorphicBases_le cls
      have based := baseVptrs_le_vptrs cls
      cases polymorphic : cls.isPolymorphic with
      | false =>
          have zero : ¬0 < cls.vptrs := by simp [vptrs_pos_iff, polymorphic]
          have fine : ¬(cls.HidesVPtr ∨ cls.OneSlot) := by
            rintro (hides | one)
            · exact zero (by have := hides.2; omega)
            · exact zero (by rw [one.1]; omega)
          simpa [fine] using unchanged
      | true =>
          have positive := (vptrs_pos_iff cls).mpr polymorphic
          have slots := vtableSlots_pos polymorphic
          have inRange := listed_in_range itanium direct methods
          have complex := complex_iff direct
          rw [vtableMethodSlotCount_group itanium polymorphic direct]
          by_cases single : cls.vptrs = 1
          · have simple : hasComplexVTableLayout cls = false := by
              rw [← Bool.not_eq_true, complex]
              omega
            have group := groupWords_of_single single
            have shown : ¬cls.HidesVPtr := fun hides => by
              have := hides.2
              omega
            have enough : (2 : Int) ≤ cls.groupWords ↔ ¬cls.OneSlot := by
              rw [OneSlot, group]
              omega
            simp only [simple, single, shown, enough, true_and, and_true, false_or, iff_true,
              Bool.false_eq_true]
            exact ⟨fun all => all.1.1, fun several => ⟨⟨several, inRange⟩, unchanged⟩⟩
          · have several : 1 < cls.vptrs := by omega
            have enough := groupWords_of_several several
            have plenty : (2 : Int) ≤ cls.groupWords := by omega
            have notOne : ¬cls.OneSlot := fun one => single one.1
            have hidden : cls.HidesVPtr ↔ hasComplexVTableLayout cls = false := by
              rw [← Bool.not_eq_true, complex, HidesVPtr]
              have some : cls.polymorphicBases ≠ 0 := by
                intro none
                have zero := baseVptrs_of_none none
                rw [vptrs, if_pos zero] at several
                split at several <;> omega
              omega
            simp only [single, notOne, hidden, plenty, or_false, false_or, true_and, and_false,
              iff_false, Bool.false_eq_true]
            exact ⟨fun all simple => all.1 ⟨simple, inRange⟩,
              fun complexLayout => ⟨fun made => complexLayout made.1, unchanged⟩⟩

def VTableContext.grouped : VTableContext where
  getMethodVTableIndex method :=
    (method.parent.vtableSlots.findIdx? fun slot => slot = method.slot).getD 0
  vtableComponents cls := 2 + cls.groupWords
  addressPoint _ := 2

theorem VTableContext.grouped_itanium : VTableContext.grouped.ItaniumGroup where
  group _ _ _ := rfl
  index := by
    intro method virtual _
    have member : method.slot ∈ method.parent.vtableSlots := by
      refine List.mem_flatMap.mpr ⟨method.fn, virtual.declared, ?_⟩
      cases fn : method.fn <;> simp [CXXMethodDecl.slot, VirtualFn.slots, fn]
    change (method.parent.vtableSlots.findIdx? fun slot => slot = method.slot).getD 0 < _
    cases found : method.parent.vtableSlots.findIdx? fun slot => slot = method.slot with
    | none =>
        have missing := List.findIdx?_eq_none_iff.mp found _ member
        simp at missing
    | some index => exact (List.findIdx?_eq_some_iff_findIdx_eq.mp found).1

/-- `struct Base { virtual ~Base(); virtual int frob(); }; struct Derived : Base {};` -/
def derivedClass : CXXRecordDecl :=
  .base false (.members [.destructor, .method "frob"]) (.members [])

def derivedCall : OverlayCall where
  base := some derivedClass
  overlays := [(some ⟨.members [.destructor, .method "frob"], .method "frob", true⟩, .code 30)]

theorem overlay_accepts_derived :
    AcceptsSingleVptr .grouped (OverlayMemory.emitted [.data 0, .data 1, .code 10, .code 11,
      .code 12]) 5 derivedCall derivedClass := by
  refine (overlay_accepts_iff .grouped VTableContext.grouped_itanium _ 5 derivedCall derivedClass
    rfl ?_).mpr (Or.inr (by decide))
  intro overlay listed
  obtain rfl := List.mem_singleton.mp listed
  exact ⟨_, rfl, rfl, Or.inr (by decide), by decide⟩

/-- `struct C : A, B {}; struct D : C {};` with polymorphic `A` and `B`: objects of `D` have two
vptrs. -/
def hiddenClass : CXXRecordDecl :=
  .base false (.base false (.members [.destructor, .method "af"])
    (.base false (.members [.destructor, .method "bf"]) (.members []))) (.members [])

/-- `struct S { virtual int frob(); };` -/
def oneSlotClass : CXXRecordDecl := .members [.method "frob"]

theorem overlay_accepts_wrongly :
    ¬AcceptsSingleVptr .grouped (OverlayMemory.emitted [.data 0, .data 1, .code 10, .code 11,
        .code 12]) 5 { base := some hiddenClass, overlays := [] } hiddenClass ∧
      ¬AcceptsSingleVptr .grouped (OverlayMemory.emitted [.data 0, .data 1, .code 10]) 5
        { base := some oneSlotClass, overlays := [] } oneSlotClass := by
  constructor
  · intro accepts
    have one := (accepts.1.mp (by decide)).2.2
    exact absurd one (by decide)
  · intro accepts
    have made := accepts.1.mpr (by decide)
    exact absurd made (by decide)

end CppInterOp
