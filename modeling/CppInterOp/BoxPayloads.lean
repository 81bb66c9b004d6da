import Mathlib
import CppInterOp.Basic
import CppInterOp.Library.RefCounts
import CppInterOp.Library.Runs

/-!
`Cpp::Box` values and the payloads they share: the reference count of every payload is the
number of boxes that refer to it, over all sequences of constructions, assignments and
destructions.
-/

namespace CppInterOp

open RefCounts Runs Shares

inductive BoxBuiltin where
  | Bool | Char_S | SChar | UChar | Short | UShort | Int | UInt | Long | ULong | LongLong
  | ULongLong | Float | Double | LongDouble
  deriving DecidableEq

inductive BoxKind where
  | builtin (type : BoxBuiltin)
  | K_Char_U
  | K_Void
  | K_PtrOrObj
  | K_Unspecified
  deriving DecidableEq

/-- What the storage of a box was last written with: the bytes of a value, a payload with the
operations that count it, or an object without operations. -/
inductive BoxStorage where
  | value (bits : Nat)
  | payload (m_Ptr : Nat)
  | object (m_Ptr : Address)
  deriving DecidableEq

structure Box where
  m_kind : BoxKind
  m_Type : Option Address
  m_storage : BoxStorage
  deriving DecidableEq

namespace Box

/-- `Box() = default`. -/
def unspecified : Box := ⟨.K_Unspecified, none, .value 0⟩

/-- The payload that the special members of a box retain and release: the kind is checked, and
that there are operations. -/
def counted (b : Box) : Option Nat :=
  if b.m_kind = .K_PtrOrObj then
    match b.m_storage with
    | .payload m_Ptr => some m_Ptr
    | _ => none
  else none

def movedFrom (b : Box) : Box := { b with m_kind := .K_Unspecified }

end Box

/-- The boxes by the order of their construction, none once they are destroyed, and every
payload that was ever adopted. -/
structure BoxState where
  boxes : List (Option Box)
  payloads : List Cell
  deriving DecidableEq

inductive BoxOp where
  | defaultConstruct
  | Create (T : BoxBuiltin) (x : Nat) (type : Option Address)
  | AdoptObject (type : Option Address)
  | AdoptUncounted (obj : Address) (type : Option Address)
  | copyConstruct (o : Nat)
  | moveConstruct (o : Nat)
  | assignCopy (this o : Nat)
  | assignMove (this o : Nat)
  | destroy (this : Nat)
  deriving DecidableEq

def BoxOp.operands : BoxOp → List Nat
  | .copyConstruct o | .moveConstruct o | .destroy o => [o]
  | .assignCopy this o | .assignMove this o => [this, o]
  | _ => []

namespace BoxState

variable (state : BoxState)

def box (position : Nat) : Option Box := (state.boxes[position]?).join

def construct (b : Box) : BoxState := { state with boxes := state.boxes ++ [some b] }

def destruct (position : Nat) (b : Box) : BoxState where
  boxes := state.boxes.set position none
  payloads := released b.counted state.payloads

def copyConstruct (o : Box) : BoxState where
  boxes := state.boxes ++ [some o]
  payloads := retained o.counted state.payloads

def moveConstruct (position : Nat) (o : Box) : BoxState :=
  { state with boxes := state.boxes.set position (some o.movedFrom) ++ [some o] }

/-- The assignment of the members, once the box that was there is destroyed. -/
def rebuildCopy (position : Nat) (o : Box) : BoxState where
  boxes := state.boxes.set position (some o)
  payloads := retained o.counted state.payloads

def rebuildMove (position source : Nat) (o : Box) : BoxState :=
  { state with boxes := (state.boxes.set position (some o)).set source (some o.movedFrom) }

def assignCopy (this o : Nat) : BoxState :=
  match state.box this, state.box o with
  | some old, some new =>
      if this = o then state else (state.destruct this old).rebuildCopy this new
  | _, _ => state

def assignMove (this o : Nat) : BoxState :=
  match state.box this, state.box o with
  | some old, some new =>
      if this = o then state else (state.destruct this old).rebuildMove this o new
  | _, _ => state

/-- An operation on boxes that are alive; on others no program performs one. -/
def step : BoxOp → BoxState
  | .defaultConstruct => state.construct .unspecified
  | .Create T x type => state.construct ⟨.builtin T, type, .value x⟩
  | .AdoptObject type =>
      { boxes := state.boxes ++ [some ⟨.K_PtrOrObj, type, .payload state.payloads.length⟩]
        payloads := state.payloads ++ [Cell.fresh] }
  | .AdoptUncounted obj type => state.construct ⟨.K_PtrOrObj, type, .object obj⟩
  | .copyConstruct o => ((state.box o).map state.copyConstruct).getD state
  | .moveConstruct o => ((state.box o).map (state.moveConstruct o)).getD state
  | .assignCopy this o => state.assignCopy this o
  | .assignMove this o => state.assignMove this o
  | .destroy this => ((state.box this).map (state.destruct this)).getD state

def refersTo (place : Option Box) : Option Nat := place.bind Box.counted

def references (payload : Nat) : Nat := sharesOf refersTo state.boxes payload

/-- No payload has as many boxes as its count cannot hold. -/
def Within : Prop := ∀ payload, state.references payload < 2 ^ 32

/-- Every payload's count is the number of boxes that refer to it; it was deleted once if there
are none, never otherwise, and was not reached for after that. -/
def Counted : Prop :=
  ∀ payload cell, state.payloads[payload]? = some cell →
    cell.count.toNat = state.references payload ∧
      cell.deletions = (if 0 < state.references payload then 0 else 1) ∧ cell.lateAccesses = 0

/-- An operation on boxes of other kinds leaves the payloads there are as they were. -/
def OthersUntouched (op : BoxOp) : Prop :=
  (∀ position ∈ op.operands, ∀ b, state.box position = some b → b.m_kind ≠ .K_PtrOrObj) →
    ∀ payload < state.payloads.length,
      (state.step op).payloads[payload]? = state.payloads[payload]?

def Good : Prop := Balanced refersTo state.boxes state.payloads

variable {state}

theorem box_eq_some {position : Nat} {b : Box} (found : state.box position = some b) :
    state.boxes[position]? = some (some b) := by
  rw [box] at found
  exact Option.join_eq_some_iff.mp found

theorem share_some (b : Box) (payload : Nat) :
    share refersTo (some b) payload = if b.counted = some payload then 1 else 0 := rfl

theorem share_none (payload : Nat) : share refersTo none payload = 0 := rfl

theorem share_movedFrom (b : Box) (payload : Nat) :
    share refersTo (some b.movedFrom) payload = 0 := rfl

theorem counted_owned {position payload : Nat} {b : Box} (found : state.box position = some b)
    (refers : b.counted = some payload) : 0 < state.references payload :=
  sharesOf_pos refersTo (List.mem_of_getElem? (box_eq_some found)) refers

section

variable (good : state.Good)
include good

theorem Good.counted : state.Counted := fun payload cell present =>
  good.counts payload cell present

theorem construct_good {b : Box} (plain : b.counted = none) : (state.construct b).Good := by
  refine good.moved fun payload => ?_
  rw [construct, sharesOf_append_one, share_some, plain, if_neg (by simp), Nat.add_zero]

theorem adopt_good (type : Option Address) : (state.step (.AdoptObject type)).Good := by
  refine good.adopted fun payload => ?_
  have refers : Box.counted ⟨.K_PtrOrObj, type, .payload state.payloads.length⟩ =
      some state.payloads.length := rfl
  simp only [step, sharesOf_append_one, share_some, refers, Option.some.injEq, eq_comm]

variable {position : Nat} {b : Box} (found : state.box position = some b)
include found

theorem copyConstruct_good (within : (state.copyConstruct b).Within) :
    (state.copyConstruct b).Good := by
  refine good.retained (fun payload => ?_) (fun payload refers => counted_owned found refers)
    within
  rw [copyConstruct, sharesOf_append_one, share_some]

theorem moveConstruct_good : (state.moveConstruct position b).Good := by
  refine good.moved fun payload => ?_
  have emptied := sharesOf_set refersTo (some b.movedFrom) (box_eq_some found) payload
  rw [share_movedFrom] at emptied
  rw [moveConstruct, sharesOf_append_one]
  exact emptied

theorem destruct_good : (state.destruct position b).Good := by
  refine good.released fun payload => ?_
  have gone := sharesOf_set refersTo none (box_eq_some found) payload
  rw [share_none] at gone
  exact gone

end

section

variable {position source : Nat} {b : Box}

theorem rebuilt_references (empty : state.boxes[position]? = some none) (payload : Nat) :
    sharesOf refersTo (state.boxes.set position (some b)) payload =
      sharesOf refersTo state.boxes payload + if b.counted = some payload then 1 else 0 := by
  have placed := sharesOf_set refersTo (some b) empty payload
  rw [share_none, share_some] at placed
  exact placed

theorem rebuildCopy_good (good : state.Good) (empty : state.boxes[position]? = some none)
    (found : state.box source = some b) (within : (state.rebuildCopy position b).Within) :
    (state.rebuildCopy position b).Good :=
  good.retained (rebuilt_references empty) (fun _ refers => counted_owned found refers) within

theorem rebuildMove_good (good : state.Good) (empty : state.boxes[position]? = some none)
    (apart : position ≠ source) (found : state.box source = some b) :
    (state.rebuildMove position source b).Good := by
  refine good.moved fun payload => ?_
  have still : (state.boxes.set position (some b))[source]? = some (some b) := by
    rw [List.getElem?_set_ne apart]
    exact box_eq_some found
  have emptied := sharesOf_set refersTo (some b.movedFrom) still payload
  have placed := rebuilt_references (b := b) empty payload
  rw [share_movedFrom, share_some] at emptied
  rw [rebuildMove]
  dsimp only
  omega

theorem destruct_empty (found : state.box position = some b) :
    (state.destruct position b).boxes[position]? = some none := by
  have bound := (List.getElem?_eq_some_iff.mp (box_eq_some found)).choose
  exact List.getElem?_set_self bound

theorem destruct_box {other : Nat} (apart : position ≠ other) :
    (state.destruct position b).box other = state.box other := by
  rw [box, box, destruct, List.getElem?_set_ne apart]

end

/-- Between the destruction and the rebuilding of an assignment the box refers to nothing. -/
theorem assignCopy_good {this o : Nat} (good : state.Good)
    (within : (state.assignCopy this o).Within) : (state.assignCopy this o).Good := by
  revert within
  rw [assignCopy]
  split
  · next old new target source =>
      split
      · exact fun _ => good
      · next apart =>
          intro within
          exact rebuildCopy_good (destruct_good good target) (destruct_empty target)
            ((destruct_box apart).trans source) within
  · exact fun _ => good

theorem assignMove_good {this o : Nat} (good : state.Good) : (state.assignMove this o).Good := by
  rw [assignMove]
  split
  · next old new target source =>
      split
      · exact good
      · next apart =>
          exact rebuildMove_good (destruct_good good target) (destruct_empty target) apart
            ((destruct_box apart).trans source)
  · exact good

theorem step_good (good : state.Good) {op : BoxOp} (within : (state.step op).Within) :
    (state.step op).Good := by
  cases op with
  | defaultConstruct => exact construct_good good rfl
  | Create T x type => exact construct_good good rfl
  | AdoptObject type => exact adopt_good good type
  | AdoptUncounted obj type => exact construct_good good rfl
  | copyConstruct o =>
      cases found : state.box o with
      | none =>
          simp only [step, found, Option.map_none, Option.getD_none]
          exact good
      | some b =>
          simp only [step, found, Option.map_some, Option.getD_some] at within ⊢
          exact copyConstruct_good good found within
  | moveConstruct o =>
      cases found : state.box o with
      | none =>
          simp only [step, found, Option.map_none, Option.getD_none]
          exact good
      | some b =>
          simp only [step, found, Option.map_some, Option.getD_some]
          exact moveConstruct_good good found
  | assignCopy this o => exact assignCopy_good good within
  | assignMove this o => exact assignMove_good good
  | destroy this =>
      cases found : state.box this with
      | none =>
          simp only [step, found, Option.map_none, Option.getD_none]
          exact good
      | some b =>
          simp only [step, found, Option.map_some, Option.getD_some]
          exact destruct_good good found

theorem counted_none {b : Box} (other : b.m_kind ≠ .K_PtrOrObj) : b.counted = none := if_neg other

/-- A box of another kind is destroyed, copied and moved without a look at any count. -/
theorem others_untouched (op : BoxOp) : state.OthersUntouched op := by
  intro others payload known
  cases op with
  | defaultConstruct => rfl
  | Create T x type => rfl
  | AdoptObject type => exact List.getElem?_append_left known
  | AdoptUncounted obj type => rfl
  | copyConstruct o =>
      cases found : state.box o with
      | none => simp only [step, found, Option.map_none, Option.getD_none]
      | some b =>
          have plain := counted_none (others o (List.mem_singleton_self o) b found)
          simp only [step, found, Option.map_some, Option.getD_some, copyConstruct, plain, retained]
  | moveConstruct o =>
      cases found : state.box o with
      | none => simp only [step, found, Option.map_none, Option.getD_none]
      | some b => simp only [step, found, Option.map_some, Option.getD_some, moveConstruct]
  | assignCopy this o =>
      simp only [step, assignCopy]
      split
      · next old new target source =>
          have oldPlain := counted_none (others this List.mem_cons_self old target)
          have newPlain := counted_none
            (others o (List.mem_cons_of_mem _ (List.mem_singleton_self o)) new source)
          split
          · rfl
          · simp only [destruct, rebuildCopy, oldPlain, newPlain, retained, released]
      · rfl
  | assignMove this o =>
      simp only [step, assignMove]
      split
      · next old new target source =>
          have oldPlain := counted_none (others this List.mem_cons_self old target)
          split
          · rfl
          · simp only [destruct, rebuildMove, oldPlain, released]
      · rfl
  | destroy this =>
      cases found : state.box this with
      | none => simp only [step, found, Option.map_none, Option.getD_none]
      | some b =>
          have plain := counted_none (others this (List.mem_singleton_self this) b found)
          simp only [step, found, Option.map_some, Option.getD_some, destruct, plain, released]

end BoxState

open BoxState

def noBoxes : BoxState := ⟨[], []⟩

/-- As long as no payload has 2^32 boxes, every count is the number of boxes that refer to the
payload, the last of them deletes it, and boxes of other kinds touch no count. -/
theorem box_payloads_counted (ops : List BoxOp) (within : EveryState step Within noBoxes ops) :
    EveryState step Counted noBoxes ops ∧ EveryStep step OthersUntouched noBoxes ops := by
  refine ⟨?_, everyStep_of_forall fun state op => others_untouched op⟩
  have bounded := everyStep_next within
  have start : noBoxes.Good := Balanced.nil
  refine (everyState_of_invariant Good start ?_ bounded).imp fun _ good => good.counted
  intro state op good room
  exact step_good good room

def sharedBoxes : List BoxOp :=
  [.AdoptObject none, .copyConstruct 0, .Create .Int 7 none, .moveConstruct 1, .assignCopy 1 2,
    .assignCopy 0 0, .assignMove 2 3, .destroy 3, .destroy 0, .assignCopy 2 1]

theorem within_of_boxes {state : BoxState} (few : state.boxes.length < 2 ^ 32) : state.Within :=
  fun _ => Nat.lt_of_le_of_lt List.countP_le_length few

theorem box_payloads_counted_shared :
    EveryState step Counted noBoxes sharedBoxes ∧
      EveryStep step OthersUntouched noBoxes sharedBoxes := by
  refine box_payloads_counted sharedBoxes ?_
  have few : EveryState step (fun state => state.boxes.length < 2 ^ 32) noBoxes sharedBoxes := by
    decide
  exact few.imp fun _ => within_of_boxes

section

def boxCrowd (boxes : Nat) : BoxState where
  boxes := List.replicate boxes (some ⟨.K_PtrOrObj, none, .payload 0⟩)
  payloads := [⟨UInt32.ofNat boxes, 0, 0⟩]

theorem boxCrowd_copy (boxes : Nat) :
    (boxCrowd (boxes + 1)).step (.copyConstruct 0) = boxCrowd (boxes + 2) := by
  have found : (boxCrowd (boxes + 1)).box 0 = some ⟨.K_PtrOrObj, none, .payload 0⟩ := by
    simp [boxCrowd, box]
  have more : (boxCrowd (boxes + 1)).boxes ++ [some ⟨.K_PtrOrObj, none, .payload 0⟩] =
      (boxCrowd (boxes + 2)).boxes := (List.replicate_succ' ..).symm
  have counted : (boxCrowd (boxes + 1)).payloads.modify 0 Cell.retain =
      (boxCrowd (boxes + 2)).payloads := by
    have next : UInt32.ofNat (boxes + 1) + 1 = UInt32.ofNat (boxes + 2) := by
      rw [UInt32.ofNat_add (boxes + 1) 1]
      rfl
    simp only [boxCrowd, List.modify_zero_cons, Cell.retain, Cell.touch, if_true, next]
  simp only [step, found, Option.map_some, Option.getD_some, copyConstruct, more]
  exact congrArg (BoxState.mk _) counted

theorem boxCrowd_copies (boxes more : Nat) :
    run step (boxCrowd (boxes + 1)) (List.replicate more (.copyConstruct 0)) =
      boxCrowd (boxes + 1 + more) := by
  induction more generalizing boxes with
  | zero => rfl
  | succ more ih =>
      rw [List.replicate_succ, run, boxCrowd_copy, ih (boxes + 1)]
      congr 1
      omega

theorem boxCrowd_made (copies : Nat) :
    run step noBoxes (.AdoptObject none :: List.replicate copies (.copyConstruct 0)) =
      boxCrowd (copies + 1) := by
  have first : noBoxes.step (.AdoptObject none) = boxCrowd 1 := rfl
  rw [run, first, boxCrowd_copies 0 copies, Nat.zero_add, Nat.add_comm]

theorem boxCrowd_references (boxes : Nat) : (boxCrowd boxes).references 0 = boxes := by
  rw [references, sharesOf, boxCrowd, List.countP_replicate]
  rfl

/-- With 2^32 boxes of a payload its count is zero. -/
theorem box_payloads_miscounted : ¬∀ ops, EveryState step Counted noBoxes ops := by
  intro always
  have last := (always (.AdoptObject none :: List.replicate (2 ^ 32 - 1)
    (.copyConstruct 0))).last
  rw [boxCrowd_made] at last
  have counted := (last 0 _ rfl).1
  rw [boxCrowd_references] at counted
  exact absurd counted (by decide)

end

end CppInterOp
