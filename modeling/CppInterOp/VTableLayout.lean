import Mathlib.Data.List.Basic

/-!
Classes as far as their vtables go, the primary vtable the Itanium ABI gives
them, and where the deleting destructor stands in it.
-/

namespace CppInterOp

inductive VirtualFn
  | method (signature : String)
  | destructor
  deriving DecidableEq, Repr

inductive VTableSlot
  | function (signature : String)
  | completeDtor
  | deletingDtor
  deriving DecidableEq, Repr

def VirtualFn.slots : VirtualFn → List VTableSlot
  | .method signature => [.function signature]
  | .destructor => [.completeDtor, .deletingDtor]

/-- A class definition: its base specifiers, one constructor each, in front of its virtual
member functions in declaration order. -/
inductive CXXRecordDecl
  | members (virtuals : List VirtualFn)
  | base (isVirtual : Bool) (type rest : CXXRecordDecl)
  deriving DecidableEq, Repr

namespace CXXRecordDecl

def bases : CXXRecordDecl → List (Bool × CXXRecordDecl)
  | members _ => []
  | base isVirtual type rest => (isVirtual, type) :: rest.bases

def virtuals : CXXRecordDecl → List VirtualFn
  | members virtuals => virtuals
  | base _ _ rest => rest.virtuals

def isPolymorphic : CXXRecordDecl → Bool
  | members virtuals => !virtuals.isEmpty
  | base _ type rest => type.isPolymorphic || rest.isPolymorphic

/-- `getNumVBases() > 0`: a virtual base anywhere in the ancestry. -/
def hasVBases : CXXRecordDecl → Bool
  | members _ => false
  | base isVirtual type rest => isVirtual || type.hasVBases || rest.hasVBases

def baseVptrs : CXXRecordDecl → Nat
  | members _ => 0
  | base _ type rest =>
      (if type.baseVptrs = 0 then (if type.virtuals.isEmpty then 0 else 1) else type.baseVptrs) +
        rest.baseVptrs

def vptrs (cls : CXXRecordDecl) : Nat :=
  if cls.baseVptrs = 0 then (if cls.virtuals.isEmpty then 0 else 1) else cls.baseVptrs

structure SingleVptr (cls : CXXRecordDecl) : Prop where
  direct : cls.hasVBases = false
  one : cls.vptrs = 1

def declare (inherited own : List VirtualFn) : List VirtualFn :=
  inherited ++ own.filter fun fn => fn ∉ inherited

def inherited : CXXRecordDecl → List VirtualFn
  | members _ => []
  | base _ type rest =>
      if type.isPolymorphic then declare type.inherited type.virtuals else rest.inherited

/-- The primary vtable from its address point on: the inherited functions, then those the
class declares first, in declaration order; a destructor takes two slots. -/
def vtableSlots (cls : CXXRecordDecl) : List VTableSlot :=
  (declare cls.inherited cls.virtuals).flatMap VirtualFn.slots

def deletingDtorSlot (cls : CXXRecordDecl) : Option Nat :=
  cls.vtableSlots.findIdx? fun slot => slot = .deletingDtor

def firstVirtual : CXXRecordDecl → Option VirtualFn
  | members virtuals => virtuals.head?
  | base _ type rest => if type.isPolymorphic then type.firstVirtual else rest.firstVirtual

theorem firstVirtual_isSome (cls : CXXRecordDecl) : cls.firstVirtual.isSome = cls.isPolymorphic := by
  induction cls with
  | members virtuals => cases virtuals <;> rfl
  | base isVirtual type rest typeFirst restFirst =>
      by_cases polymorphic : type.isPolymorphic = true
      · simp [firstVirtual, isPolymorphic, polymorphic, typeFirst]
      · simp [firstVirtual, isPolymorphic, polymorphic, restFirst]

theorem declare_head (cls : CXXRecordDecl) :
    (declare cls.inherited cls.virtuals).head? = cls.firstVirtual := by
  induction cls with
  | members virtuals => simp [declare, inherited, firstVirtual, CXXRecordDecl.virtuals]
  | base isVirtual type rest typeHead restHead =>
      by_cases polymorphic : type.isPolymorphic = true
      · have some : type.firstVirtual.isSome = true := by rw [firstVirtual_isSome, polymorphic]
        rw [← typeHead] at some
        simp only [inherited, firstVirtual, polymorphic, if_true, ← typeHead]
        rw [declare, List.head?_append, Option.or_of_isSome some]
      · simp only [inherited, firstVirtual, polymorphic]
        exact restHead

theorem deletingDtorSlot_eq_one (cls : CXXRecordDecl) :
    cls.deletingDtorSlot = some 1 ↔ cls.firstVirtual = some .destructor := by
  rw [← declare_head, deletingDtorSlot, vtableSlots]
  generalize declare cls.inherited cls.virtuals = declared
  cases declared with
  | nil => simp
  | cons first rest =>
      cases first with
      | destructor => simp [VirtualFn.slots, List.findIdx?_cons]
      | method signature =>
          cases rest with
          | nil => simp [VirtualFn.slots, List.findIdx?_cons]
          | cons second rest =>
              cases second <;> simp [VirtualFn.slots, List.findIdx?_cons]

end CXXRecordDecl

end CppInterOp
