import CppInterOp.Library.Subobjects

/-!
Offsets of base classes and of data members: the search for a path to a base, the layouts that are
asked along it, and the anonymous records around a field.
-/

namespace CppInterOp

open Subobjects

structure BaseSpecifier where
  base : Nat
  isVirtual : Bool
  deriving DecidableEq, Repr

/-- `record` is the record that the type of the field is. -/
structure FieldDecl where
  parent : Nat
  bits : Nat
  record : Option Nat
  deriving DecidableEq, Repr

/-- The records of a program: a base is defined before the classes that name it, each names it once,
and an anonymous record is the type of one field of the record around it. -/
structure RecordDecls where
  bases : Nat → List BaseSpecifier
  fields : Nat → List FieldDecl
  anonymousIn : Nat → Option Nat
  /-- Another declaration than the definition is canonical. -/
  forwardDeclared : Nat → Bool
  earlier : ∀ c, ∀ specifier ∈ bases c, specifier.base < c
  once : ∀ c, ((bases c).map BaseSpecifier.base).Nodup
  enclosed : ∀ r outer, anonymousIn r = some outer → outer < r
  implicitField : ∀ r outer, anonymousIn r = some outer →
    ∃ F ∈ fields outer, F.record = some r ∧ ∀ G ∈ fields outer, G.record = some r → G = F

/-- The offsets that the compiler laid out: of direct bases, and of the virtual bases of a whole
object. -/
structure RecordLayouts where
  baseOffset : Nat → Nat → Nat
  vbaseOffset : Nat → Nat → Nat

inductive OffsetFault
  | endless
  | outOfRange
  | didNotFindBase
  deriving DecidableEq, Repr

namespace RecordDecls

variable (records : RecordDecls) (layouts : RecordLayouts)

def Inherits (step : Step Nat) : Prop :=
  ⟨step.target, step.isVirtual⟩ ∈ records.bases step.source

/-- `ASTRecordLayout` asserts that the base is one of the class, and not a virtual one. -/
def getBaseClassOffset (Class Base : Nat) : Except OffsetFault Nat :=
  if ⟨Base, false⟩ ∈ records.bases Class then .ok (layouts.baseOffset Class Base)
  else .error .didNotFindBase

/-- The sum is over what follows the last virtual step, and is converted to `unsigned`. -/
def ComputeBaseOffset (DerivedRD : Nat) (Path : List (Step Nat)) : Except OffsetFault Nat :=
  let VirtualBase := (Path.rdropWhile Step.isPlain).getLast?.map Step.target
  let NonVirtualOffset := (Path.rtakeWhile Step.isPlain).foldlM
    (fun NonVirtualOffset Element =>
      (records.getBaseClassOffset layouts Element.source Element.target).map
        (NonVirtualOffset + ·)) 0
  NonVirtualOffset.map fun NonVirtualOffset =>
    match VirtualBase with
    | some VirtualBase => (NonVirtualOffset + layouts.vbaseOffset DerivedRD VirtualBase) % 2 ^ 32
    | none => NonVirtualOffset % 2 ^ 32

/-- `front` is the path that the compiler's search finds first. -/
def GetBaseClassOffset (derived base : Nat) (front : List (Step Nat)) : Except OffsetFault Nat :=
  if base = derived then .ok 0 else records.ComputeBaseOffset layouts derived front

def weight (c : Nat) : Nat :=
  1 + ((records.bases c).attach.map fun specifier => weight specifier.1.base).sum
termination_by c
decreasing_by exact records.earlier c specifier.1 specifier.2

def visitBases (isTarget : Nat → Bool) (RD : Nat) :
    List BaseSpecifier → List Nat → (Nat → Option Nat) → List Nat × (Nat → Option Nat) × Bool
  | [], stack, direction => (stack, direction, false)
  | specifier :: rest, stack, direction =>
      let CRD := specifier.base
      let direction := fun other => if other = CRD then some RD else direction other
      if isTarget CRD then (stack, direction, true)
      else visitBases isTarget RD rest (CRD :: stack) direction

theorem weight_eq (c : Nat) :
    records.weight c = 1 + ((records.bases c).map fun specifier =>
      records.weight specifier.base).sum := by
  rw [weight]
  have each : (records.bases c).attach.map (fun specifier => records.weight specifier.1.base) =
      (records.bases c).map fun specifier => records.weight specifier.base :=
    List.attach_map_val (f := fun specifier : BaseSpecifier => records.weight specifier.base)
  rw [each]

theorem visitBases_stack {isTarget : Nat → Bool} {RD : Nat} {specifiers : List BaseSpecifier}
    {stack : List Nat} {direction : Nat → Option Nat}
    (all : (visitBases isTarget RD specifiers stack direction).2.2 = false) :
    (visitBases isTarget RD specifiers stack direction).1 =
      (specifiers.map BaseSpecifier.base).reverse ++ stack := by
  induction specifiers generalizing stack direction with
  | nil => rfl
  | cons specifier rest ih =>
      rw [visitBases] at all ⊢
      split at all
      · cases all
      · rename_i other
        rw [if_neg other, ih all]
        simp

theorem weight_decreases {RD : Nat} {stack : List Nat} :
    (((records.bases RD).map BaseSpecifier.base).reverse ++ stack |>.map records.weight).sum <
      ((RD :: stack).map records.weight).sum := by
  rw [List.map_append, List.sum_append, List.map_reverse, List.sum_reverse, List.map_map,
    List.map_cons, List.sum_cons, weight_eq]
  have same : ((records.bases RD).map (records.weight ∘ BaseSpecifier.base)).sum =
      ((records.bases RD).map fun specifier => records.weight specifier.base).sum := rfl
  omega

def search (isTarget : Nat → Bool) (stack : List Nat) (direction : Nat → Option Nat) :
    Nat → Option Nat :=
  match stack with
  | [] => direction
  | RD :: stack =>
      let visited := visitBases isTarget RD (records.bases RD) stack direction
      if _flag : visited.2.2 = true then visited.2.1
      else search isTarget visited.1 visited.2.1
termination_by (stack.map records.weight).sum
decreasing_by
  rw [visitBases_stack (Bool.not_eq_true _ ▸ _flag)]
  exact records.weight_decreases

def ascend (BaseCXXRD : Nat) (direction : Nat → Option Nat) :
    Nat → Nat → Nat → Except OffsetFault Nat
  | 0, _, _ => .error .endless
  | fuel + 1, RD, offset =>
      if BaseCXXRD = RD then .ok offset
      else
        match direction RD with
        | none => .error .outOfRange
        | some Parent =>
            (records.getBaseClassOffset layouts Parent RD).bind fun step =>
              ascend BaseCXXRD direction fuel Parent (offset + step)

def climb (FieldParentRecordDecl : Nat) (FD : FieldDecl) (offset : Nat) : Nat × Nat :=
  match around : records.anonymousIn FieldParentRecordDecl with
  | none => (FieldParentRecordDecl, offset)
  | some outer =>
      let FD := ((records.fields outer).find? fun F =>
        F.record == some FieldParentRecordDecl).getD FD
      climb outer FD (offset + FD.bits / 8)
termination_by FieldParentRecordDecl
decreasing_by exact records.enclosed _ _ around

/-- The canonical declaration of a base is compared with the definition around the field. No more
steps are needed than there are classes up to the derived one. -/
def GetVariableOffset (FD : FieldDecl) (BaseCXXRD : Option Nat) : Except OffsetFault Nat :=
  let climbed := records.climb FD.parent FD (FD.bits / 8)
  match BaseCXXRD with
  | none => .ok climbed.2
  | some BaseCXXRD =>
      if BaseCXXRD = climbed.1 then .ok climbed.2
      else
        let isTarget := fun CRD => CRD == climbed.1 && !records.forwardDeclared climbed.1
        let direction := records.search isTarget [BaseCXXRD] fun _ => none
        records.ascend layouts BaseCXXRD direction (BaseCXXRD + 1) climbed.1 climbed.2

end RecordDecls

end CppInterOp
