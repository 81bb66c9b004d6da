import CppInterOp.ConstArrayLayout
import CppInterOp.Library.Runs

/-!
Histories of `MaterializeConstArrayValue` over one cache: each call is made for a declaration
with an initializer and its evaluated value, as `GetVariableOffset` makes it.
-/

namespace CppInterOp

open Blocks

section

variable {VarDecl : Type} (C : ConstArrayHost VarDecl) (littleEndian : Bool)

/-- The ASTContext hands out memory that nothing else lies in. -/
def Allocates : Prop :=
  ∀ memory (size : UInt64) align, 0 < size.toNat → Free memory (C.Allocate memory size align) size.toNat

def OneInitializer : Prop :=
  ∀ VD other, C.hasInit VD = true → C.hasInit other = true →
    C.getCanonicalDecl VD = C.getCanonicalDecl other → VD = other

/-- The block at the address is as large as the array, all of its bytes are written and they
read back as the elements of the value. -/
def HoldsArray (VD : VarDecl) (Val : APValue) (memory : Memory UInt8) (address : Nat) : Prop :=
  ∃ bytes : List UInt8,
    cellsAt memory address = some (bytes.map some) ∧
    bytes.length = (C.Count VD Val).toNat * (C.EltBytes VD Val).toNat ∧
    (readInts littleEndian (C.EltBytes VD Val) (C.Count VD Val).toNat bytes).map (some ∘ APValue.int) =
      Val.elements

def FillsElements (VD : VarDecl) (Val : APValue) : Prop :=
  ∀ element ∈ Val.elements, FillsElement (C.EltBytes VD Val) element

end

section

variable {VarDecl : Type} {C : ConstArrayHost VarDecl} {littleEndian : Bool}
variable {VD : VarDecl} {Val : APValue}

theorem Count_eq (nonzero : C.Count VD Val ≠ 0) : C.Count VD Val = Val.getArraySize := by
  unfold ConstArrayHost.Count at nonzero ⊢
  cases type : C.arrayType VD Val with
  | none => rw [type] at nonzero; exact absurd rfl nonzero
  | some AT => rfl

theorem sizes_of_suited (suited : ¬ C.Unsuited VD Val) :
    0 < (C.EltBytes VD Val).toNat ∧ C.Count VD Val = Val.getArraySize ∧ 0 < (C.Count VD Val).toNat ∧
      (C.Count VD Val).toNat * (C.EltBytes VD Val).toNat < 2 ^ 32 := by
  simp only [ConstArrayHost.Unsuited, not_or] at suited
  obtain ⟨bytes, count, bounded⟩ := suited
  have nonzero : ∀ word : UInt64, word ≠ 0 → 0 < word.toNat := by
    intro word distinct
    apply Nat.pos_of_ne_zero
    intro zero
    exact distinct (UInt64.toNat_inj.mp zero)
  have within := UInt64.le_iff_toNat_le.mp (UInt64.not_lt.mp bounded)
  rw [UInt64.toNat_div, Nat.le_div_iff_mul_le (nonzero _ bytes)] at within
  exact ⟨nonzero _ bytes, Count_eq count, nonzero _ count, Nat.lt_of_le_of_lt within (by decide)⟩

theorem size_of_suited (suited : ¬ C.Unsuited VD Val) :
    (C.EltBytes VD Val * C.Count VD Val).toNat = (C.Count VD Val).toNat * (C.EltBytes VD Val).toNat := by
  have small := (sizes_of_suited suited).2.2.2
  rw [UInt64.toNat_mul, Nat.mul_comm]
  exact Nat.mod_eq_of_lt (by omega)

variable [DecidableEq VarDecl]

/-- A call turns the value away, answers from the cache, or lays the array out in a new block;
then it caches its answer, which is null or the address of the block. -/
theorem MaterializeConstArrayValue_cases (stores : StoresInts C littleEndian) (allocates : Allocates C)
    (VD : VarDecl) (Val : APValue) (arrays : ConstArrays VarDecl) :
    (C.Unsuited VD Val ∧ MaterializeConstArrayValue C VD Val arrays = some (0, arrays)) ∨
    (¬ C.Unsuited VD Val ∧ ∃ cached, arrays.Cache (C.getCanonicalDecl VD) = some cached ∧
      MaterializeConstArrayValue C VD Val arrays = some (cached, arrays)) ∨
    (¬ C.Unsuited VD Val ∧ arrays.Cache (C.getCanonicalDecl VD) = none ∧ ∃ result Buf cells,
      Free arrays.memory Buf (C.EltBytes VD Val * C.Count VD Val).toNat ∧
      MaterializeConstArrayValue C VD Val arrays = some (result,
        ⟨Function.update arrays.Cache (C.getCanonicalDecl VD) (some result), ⟨Buf, cells⟩ :: arrays.memory⟩) ∧
      (result ≠ 0 ↔ FillsElements C VD Val) ∧
      (result ≠ 0 → HoldsArray C littleEndian VD Val (⟨Buf, cells⟩ :: arrays.memory) result)) := by
  unfold MaterializeConstArrayValue
  by_cases suited : C.Unsuited VD Val
  · exact .inl ⟨suited, if_pos suited⟩
  · refine .inr ?_
    simp only [if_neg suited]
    cases known : arrays.Cache (C.getCanonicalDecl VD) with
    | some cached => exact .inl ⟨suited, cached, rfl, rfl⟩
    | none =>
        obtain ⟨bytes, count, elements, small⟩ := sizes_of_suited suited
        have size := size_of_suited suited
        have free := allocates arrays.memory (C.EltBytes VD Val * C.Count VD Val)
          (C.EltAlign VD Val) (by rw [size]; exact Nat.mul_pos elements bytes)
        have width : (C.EltBytes VD Val).toNat < 2 ^ 32 :=
          Nat.lt_of_le_of_lt (Nat.le_mul_of_pos_left _ elements) small
        obtain ⟨done, cells, laid, complete⟩ := layOutElements_spec stores Val
          (C.Allocate arrays.memory (C.EltBytes VD Val * C.Count VD Val) (C.EltAlign VD Val))
          (by rw [← count]; exact small) width arrays.memory (C.Count VD Val).toNat 0 []
          (by rw [count]; exact Nat.zero_add _) (by simp)
        rw [List.map_nil, List.nil_append, ← size] at laid
        have fills : done = true ↔ FillsElements C VD Val :=
          layOutElements_done (I := 0) (by rw [count]; exact Nat.zero_add _) laid
        refine .inr ⟨suited, rfl, ?_⟩
        simp only [allocate, Block.fresh, laid]
        cases done with
        | false =>
            refine ⟨0, _, cells, free, rfl, ?_, fun nonzero => absurd rfl nonzero⟩
            exact ⟨fun nonzero => absurd rfl nonzero, fun filled => absurd (fills.mpr filled) Bool.false_ne_true⟩
        | true =>
            refine ⟨_, _, cells, free, by rw [Function.update_idem], ?_, fun _ => ?_⟩
            · exact ⟨fun _ => fills.mp rfl, fun _ => free.1⟩
            obtain ⟨bytes, all, length, values⟩ := complete rfl
            refine ⟨bytes, ?_, length, values⟩
            rw [all, List.nil_append, cellsAt_cons_self]

end

section

structure ArrayAnswer (VarDecl : Type) where
  key : VarDecl
  result : Nat
  cells : Option (List (Option UInt8))

structure WatchedArrays (VarDecl : Type) where
  arrays : ConstArrays VarDecl
  answers : List (ArrayAnswer VarDecl)

variable {VarDecl : Type} [DecidableEq VarDecl] (C : ConstArrayHost VarDecl) (littleEndian : Bool)

def watchedCall (watched : WatchedArrays VarDecl) (VD : VarDecl) : WatchedArrays VarDecl :=
  match (C.evaluateValue VD).bind fun Val => MaterializeConstArrayValue C VD Val watched.arrays with
  | none => watched
  | some (result, arrays) =>
      ⟨arrays, ⟨C.getCanonicalDecl VD, result, cellsAt arrays.memory result⟩ :: watched.answers⟩

/-- No store of the call goes wrong, the answer is the array itself, or null for a value that
cannot be laid out, it is the one given for the variable before, and what was answered before
still holds the same bytes. -/
def RightAnswer (watched : WatchedArrays VarDecl) (VD : VarDecl) : Prop :=
  ∀ Val, C.evaluateValue VD = some Val → ∃ result arrays,
    MaterializeConstArrayValue C VD Val watched.arrays = some (result, arrays) ∧
    (result ≠ 0 ↔ ¬ C.Unsuited VD Val ∧ FillsElements C VD Val) ∧
    (result = 0 ∨
      (C.EltBytes VD Val * C.Count VD Val).toNat = (C.Count VD Val).toNat * (C.EltBytes VD Val).toNat ∧
      HoldsArray C littleEndian VD Val arrays.memory result) ∧
    ∀ answer ∈ watched.answers,
      (answer.key = C.getCanonicalDecl VD → answer.result = result) ∧
      (answer.result ≠ 0 → cellsAt arrays.memory answer.result = answer.cells)

/-- A cached address belongs to a suited variable and holds its array unless it is null; an
answer is the cached one, or null for a variable that is always turned away. -/
structure KeptArrays (watched : WatchedArrays VarDecl) : Prop where
  cached : ∀ key address, watched.arrays.Cache key = some address →
    ∃ VD Val, C.hasInit VD = true ∧ C.getCanonicalDecl VD = key ∧ C.evaluateValue VD = some Val ∧
      ¬ C.Unsuited VD Val ∧ (address ≠ 0 ↔ FillsElements C VD Val) ∧
      (address ≠ 0 → HoldsArray C littleEndian VD Val watched.arrays.memory address)
  answered : ∀ answer ∈ watched.answers,
    watched.arrays.Cache answer.key = some answer.result ∨
      (answer.result = 0 ∧ ∀ VD Val, C.hasInit VD = true → C.getCanonicalDecl VD = answer.key →
        C.evaluateValue VD = some Val → C.Unsuited VD Val)
  contents : ∀ answer ∈ watched.answers, answer.result ≠ 0 →
    cellsAt watched.arrays.memory answer.result = answer.cells

end

section

variable {VarDecl : Type} {C : ConstArrayHost VarDecl} {littleEndian : Bool}

theorem HoldsArray.ne_free {VD : VarDecl} {Val : APValue} {memory : Memory UInt8} {address : Nat}
    (held : HoldsArray C littleEndian VD Val memory address) (suited : ¬ C.Unsuited VD Val)
    {Buf size : Nat} (free : Free memory Buf size) (positive : 0 < size) : Buf ≠ address := by
  obtain ⟨bytes, found, length, -⟩ := held
  obtain ⟨width, -, count, -⟩ := sizes_of_suited suited
  have apart := free.2 _ (block_of_cellsAt found)
  refine apart.address_ne (by simpa [Block.fresh] using positive) ?_
  rw [List.length_map, length]
  exact Nat.mul_pos count width

theorem HoldsArray.allocated {VD : VarDecl} {Val : APValue} {memory : Memory UInt8} {address : Nat}
    (held : HoldsArray C littleEndian VD Val memory address) {block : Block UInt8}
    (other : block.address ≠ address) : HoldsArray C littleEndian VD Val (block :: memory) address := by
  obtain ⟨bytes, found, rest⟩ := held
  exact ⟨bytes, by rw [cellsAt_cons_of_ne other, found], rest⟩

variable {watched : WatchedArrays VarDecl}

theorem KeptArrays.suited_of_cached (kept : KeptArrays C littleEndian watched)
    (single : OneInitializer C) {VD : VarDecl} {Val : APValue} (init : C.hasInit VD = true)
    (value : C.evaluateValue VD = some Val) {address : Nat}
    (known : watched.arrays.Cache (C.getCanonicalDecl VD) = some address) :
    ¬ C.Unsuited VD Val ∧ (address ≠ 0 ↔ FillsElements C VD Val) ∧
      (address ≠ 0 → HoldsArray C littleEndian VD Val watched.arrays.memory address) := by
  obtain ⟨other, found, initialized, same, evaluated, suited, held⟩ := kept.cached _ _ known
  obtain rfl := single _ _ initialized init same
  rw [value, Option.some_inj] at evaluated
  subst evaluated
  exact ⟨suited, held⟩

theorem KeptArrays.answer_eq (kept : KeptArrays C littleEndian watched) {VD : VarDecl}
    {Val : APValue} (init : C.hasInit VD = true) (value : C.evaluateValue VD = some Val)
    (suited : ¬ C.Unsuited VD Val) {answer : ArrayAnswer VarDecl} (given : answer ∈ watched.answers)
    (same : answer.key = C.getCanonicalDecl VD) :
    watched.arrays.Cache (C.getCanonicalDecl VD) = some answer.result := by
  rcases kept.answered answer given with cached | ⟨-, turned⟩
  · rw [← same, cached]
  · exact absurd (turned VD Val init same.symm value) suited

theorem KeptArrays.cells_kept (kept : KeptArrays C littleEndian watched) {Buf size : Nat}
    (free : Free watched.arrays.memory Buf size) (positive : 0 < size)
    (cells : List (Option UInt8)) {answer : ArrayAnswer VarDecl} (given : answer ∈ watched.answers)
    (nonzero : answer.result ≠ 0) :
    cellsAt (⟨Buf, cells⟩ :: watched.arrays.memory) answer.result = answer.cells := by
  rcases kept.answered answer given with cached | ⟨null, -⟩
  · obtain ⟨VD, Val, -, -, -, suited, -, held⟩ := kept.cached _ _ cached
    have other := (held nonzero).ne_free suited free positive
    rw [cellsAt_cons_of_ne other, kept.contents answer given nonzero]
  · exact absurd null nonzero

theorem KeptArrays.start (memory : Memory UInt8) :
    KeptArrays C littleEndian ⟨⟨fun _ => none, memory⟩, []⟩ :=
  ⟨fun _ _ known => (nomatch known), fun _ absent => (nomatch absent), fun _ absent => (nomatch absent)⟩

theorem KeptArrays.answer {arrays : ConstArrays VarDecl} {answers : List (ArrayAnswer VarDecl)}
    (kept : KeptArrays C littleEndian ⟨arrays, answers⟩) {key : VarDecl} {result : Nat}
    (given : arrays.Cache key = some result ∨
      (result = 0 ∧ ∀ VD Val, C.hasInit VD = true → C.getCanonicalDecl VD = key →
        C.evaluateValue VD = some Val → C.Unsuited VD Val)) :
    KeptArrays C littleEndian ⟨arrays, ⟨key, result, cellsAt arrays.memory result⟩ :: answers⟩ := by
  refine ⟨kept.cached, ?_, ?_⟩
  · intro answer present
    rcases List.mem_cons.mp present with rfl | present
    · exact given
    · exact kept.answered answer present
  · intro answer present nonzero
    rcases List.mem_cons.mp present with rfl | present
    · rfl
    · exact kept.contents answer present nonzero

variable [DecidableEq VarDecl]

theorem KeptArrays.laidOut (kept : KeptArrays C littleEndian watched) {VD : VarDecl} {Val : APValue}
    (init : C.hasInit VD = true) (value : C.evaluateValue VD = some Val) (suited : ¬ C.Unsuited VD Val)
    (unknown : watched.arrays.Cache (C.getCanonicalDecl VD) = none) {result Buf size : Nat}
    {cells : List (Option UInt8)} (free : Free watched.arrays.memory Buf size) (positive : 0 < size)
    (fills : result ≠ 0 ↔ FillsElements C VD Val)
    (holds : result ≠ 0 → HoldsArray C littleEndian VD Val (⟨Buf, cells⟩ :: watched.arrays.memory) result) :
    KeptArrays C littleEndian
      ⟨⟨Function.update watched.arrays.Cache (C.getCanonicalDecl VD) (some result),
        ⟨Buf, cells⟩ :: watched.arrays.memory⟩, watched.answers⟩ := by
  refine ⟨?_, ?_, ?_⟩
  · intro key address known
    simp only at known
    by_cases same : key = C.getCanonicalDecl VD
    · subst same
      rw [Function.update_self, Option.some_inj] at known
      subst known
      exact ⟨VD, Val, init, rfl, value, suited, fills, holds⟩
    · rw [Function.update_of_ne same] at known
      obtain ⟨VD, Val, init, canonical, value, suited, filled, held⟩ := kept.cached key address known
      refine ⟨VD, Val, init, canonical, value, suited, filled, fun nonzero => ?_⟩
      exact (held nonzero).allocated ((held nonzero).ne_free suited free positive)
  · intro answer given
    rcases kept.answered answer given with cached | turned
    · have other : answer.key ≠ C.getCanonicalDecl VD := by
        intro same
        rw [same, unknown] at cached
        exact nomatch cached
      exact .inl ((Function.update_of_ne other _ _).trans cached)
    · exact .inr turned
  · intro answer given nonzero
    exact kept.cells_kept free positive cells given nonzero

/-- One call from a kept state: it answers rightly and leaves a kept state. -/
theorem MaterializeConstArrayValue_step (stores : StoresInts C littleEndian) (allocates : Allocates C)
    (single : OneInitializer C) (kept : KeptArrays C littleEndian watched) {VD : VarDecl} {Val : APValue}
    (init : C.hasInit VD = true) (value : C.evaluateValue VD = some Val) :
    ∃ result arrays, MaterializeConstArrayValue C VD Val watched.arrays = some (result, arrays) ∧
      (result ≠ 0 ↔ ¬ C.Unsuited VD Val ∧ FillsElements C VD Val) ∧
      (result ≠ 0 → HoldsArray C littleEndian VD Val arrays.memory result) ∧
      (∀ answer ∈ watched.answers,
        (answer.key = C.getCanonicalDecl VD → answer.result = result) ∧
        (answer.result ≠ 0 → cellsAt arrays.memory answer.result = answer.cells)) ∧
      KeptArrays C littleEndian
        ⟨arrays, ⟨C.getCanonicalDecl VD, result, cellsAt arrays.memory result⟩ :: watched.answers⟩ := by
  rcases MaterializeConstArrayValue_cases stores allocates VD Val watched.arrays with
    ⟨unsuited, returned⟩ | ⟨suited, cached, known, returned⟩ |
    ⟨suited, unknown, result, Buf, cells, free, returned, fills, holds⟩
  · refine ⟨0, watched.arrays, returned, ?_, fun nonzero => absurd rfl nonzero, ?_,
      kept.answer (.inr ?_)⟩
    · exact ⟨fun nonzero => absurd rfl nonzero, fun ⟨suited, _⟩ => absurd unsuited suited⟩
    · intro answer given
      refine ⟨fun same => ?_, kept.contents answer given⟩
      rcases kept.answered answer given with cached | ⟨null, -⟩
      · rw [same] at cached
        exact absurd unsuited (kept.suited_of_cached single init value cached).1
      · exact null
    · refine ⟨rfl, fun other evaluated initialized same found => ?_⟩
      obtain rfl := single _ _ initialized init same
      rw [value, Option.some_inj] at found
      rw [← found]
      exact unsuited
  · obtain ⟨-, fills, holds⟩ := kept.suited_of_cached single init value known
    refine ⟨cached, watched.arrays, returned, ?_, holds, ?_, kept.answer (.inl known)⟩
    · rw [fills, and_iff_right suited]
    · intro answer given
      refine ⟨fun same => ?_, kept.contents answer given⟩
      have agreed := kept.answer_eq init value suited given same
      rw [known, Option.some_inj] at agreed
      exact agreed.symm
  · obtain ⟨width, -, count, -⟩ := sizes_of_suited suited
    have positive : 0 < (C.EltBytes VD Val * C.Count VD Val).toNat := by
      rw [size_of_suited suited]
      exact Nat.mul_pos count width
    refine ⟨result, _, returned, by rw [fills, and_iff_right suited], holds, ?_,
      (kept.laidOut init value suited unknown free positive fills holds).answer (.inl ?_)⟩
    · intro answer given
      refine ⟨fun same => ?_, kept.cells_kept free positive cells given⟩
      have agreed := kept.answer_eq init value suited given same
      rw [unknown] at agreed
      exact nomatch agreed
    · exact Function.update_self _ _ _

theorem watchedCall_eq {VD : VarDecl} {Val : APValue} {result : Nat} {arrays : ConstArrays VarDecl}
    (value : C.evaluateValue VD = some Val)
    (returned : MaterializeConstArrayValue C VD Val watched.arrays = some (result, arrays)) :
    watchedCall C watched VD =
      ⟨arrays, ⟨C.getCanonicalDecl VD, result, cellsAt arrays.memory result⟩ :: watched.answers⟩ := by
  rw [watchedCall, value, Option.bind_some, returned]

theorem watchedCall_kept (stores : StoresInts C littleEndian) (allocates : Allocates C)
    (single : OneInitializer C) (kept : KeptArrays C littleEndian watched) {VD : VarDecl}
    (init : C.hasInit VD = true) : KeptArrays C littleEndian (watchedCall C watched VD) := by
  cases value : C.evaluateValue VD with
  | none => rwa [watchedCall, value, Option.bind_none]
  | some Val =>
      obtain ⟨result, arrays, returned, -, -, -, next⟩ :=
        MaterializeConstArrayValue_step stores allocates single kept init value
      rwa [watchedCall_eq value returned]

theorem rightAnswer_of_kept (stores : StoresInts C littleEndian) (allocates : Allocates C)
    (single : OneInitializer C) (kept : KeptArrays C littleEndian watched) {VD : VarDecl}
    (init : C.hasInit VD = true) : RightAnswer C littleEndian watched VD := by
  intro Val value
  obtain ⟨result, arrays, returned, fills, holds, earlier, -⟩ :=
    MaterializeConstArrayValue_step stores allocates single kept init value
  refine ⟨result, arrays, returned, fills, ?_, earlier⟩
  by_cases null : result = 0
  · exact .inl null
  · exact .inr ⟨size_of_suited (fills.mp null).1, holds null⟩

/-- From an empty cache, over any memory, every call of every history answers rightly. -/
theorem everyAnswer_right (stores : StoresInts C littleEndian) (allocates : Allocates C)
    (single : OneInitializer C) (memory : Memory UInt8) (calls : List VarDecl)
    (initialized : ∀ VD ∈ calls, C.hasInit VD = true) :
    Runs.EveryStep (watchedCall C) (RightAnswer C littleEndian) ⟨⟨fun _ => none, memory⟩, []⟩ calls := by
  have permitted : Runs.EveryStep (watchedCall C) (fun _ VD => C.hasInit VD = true)
      ⟨⟨fun _ => none, memory⟩, []⟩ calls :=
    Runs.everyStep_of_mem fun _ VD member => initialized VD member
  exact Runs.everyStep_of_invariant (KeptArrays C littleEndian) (KeptArrays.start memory)
    (fun watched VD kept init => watchedCall_kept stores allocates single kept init)
    (fun watched VD kept init => rightAnswer_of_kept stores allocates single kept init) permitted

/-- Variable 0 is `const short a[3] = {1, -2}`, with 1 as a redeclaration of it, and 2 is
`const double b[1]`. -/
def shorts : ConstArrayHost Nat where
  getCanonicalDecl VD := if VD = 1 then 0 else VD
  hasInit VD := VD ≠ 1
  getDefinition VD := if VD = 1 then some 0 else some VD
  isVolatileQualified _ := false
  isConstexpr _ := false
  isConstQualified _ := true
  isIntegralType _ := false
  getAsArrayType VD := some (if VD = 2 then ⟨8, 8⟩ else ⟨2, 2⟩)
  evaluateValue VD :=
    if VD = 2 then some (.array [.other] none 1)
    else some (.array [.int ⟨16, 1⟩, .int ⟨16, 0xFFFE⟩] (some (.int ⟨16, 0⟩)) 3)
  getRawData _ := 0
  Allocate memory _ align := (top memory / max align.toNat 1 + 1) * max align.toNat 1
  storedBytes IntVal StoreBytes := HostBytes.encode true StoreBytes.toNat IntVal.value.toNat

theorem shorts_allocates : Allocates shorts := by
  intro memory size align _
  have positive : 0 < max align.toNat 1 := by omega
  apply free_of_top_le
  · exact Nat.ne_of_gt (Nat.mul_pos (Nat.succ_pos _) positive)
  · exact (Nat.lt_mul_of_div_lt (Nat.lt_succ_self _) positive).le

theorem shorts_single : OneInitializer shorts := by
  intro VD other initialized another same
  simp only [shorts, ne_eq, decide_not, Bool.not_eq_true', decide_eq_false_iff_not] at initialized another
  simpa only [shorts, if_neg initialized, if_neg another] using same

/-- The shorts are laid out in four explicit and two filler bytes; the doubles are given up, and
a later call finds the shorts again. -/
theorem everyAnswer_right_shorts :
    Runs.EveryStep (watchedCall shorts) (RightAnswer shorts true) ⟨⟨fun _ => none, []⟩, []⟩ [0, 2, 0] ∧
      (Runs.run (watchedCall shorts) ⟨⟨fun _ => none, []⟩, []⟩ [0, 2, 0]).answers =
        [⟨0, 2, some [some 1, some 0, some 0xFE, some 0xFF, some 0, some 0]⟩, ⟨2, 0, none⟩,
          ⟨0, 2, some [some 1, some 0, some 0xFE, some 0xFF, some 0, some 0]⟩] :=
  ⟨everyAnswer_right (fun _ _ _ => rfl) shorts_allocates shorts_single [] [0, 2, 0] (by decide), rfl⟩

end

section

variable {VarDecl : Type} {C : ConstArrayHost VarDecl}

def queriedArray (C : ConstArrayHost VarDecl) (query : VarDecl × Nat) : Option VarDecl :=
  if query.2 ≠ 0 then none
  else (C.constInitVD query.1).filter fun InitVD => !C.isIntegralType InitVD

theorem hasInit_of_constInitVD {VD InitVD : VarDecl} (found : C.constInitVD VD = some InitVD) :
    C.hasInit InitVD = true := by
  unfold ConstArrayHost.constInitVD at found
  split at found
  · exact nomatch found
  · split at found
    · rename_i suitable
      simp only [Bool.and_eq_true] at suitable
      rw [Option.some_inj] at found
      rw [← found]
      exact suitable.1.1
    · exact nomatch found

theorem hasInit_of_queriedArray {query : VarDecl × Nat} {InitVD : VarDecl}
    (made : queriedArray C query = some InitVD) : C.hasInit InitVD = true := by
  unfold queriedArray at made
  split at made
  · exact nomatch made
  · rw [Option.filter_eq_some_iff] at made
    exact hasInit_of_constInitVD made.1

variable [DecidableEq VarDecl]

def queryConstant (C : ConstArrayHost VarDecl) (arrays : ConstArrays VarDecl) (query : VarDecl × Nat) :
    ConstArrays VarDecl :=
  match constVariableOffset C query.1 query.2 arrays with
  | none => arrays
  | some (_, arrays) => arrays

/-- A query changes the cache and the memory as the call does that it makes. -/
theorem queryConstant_eq (watched : WatchedArrays VarDecl) (query : VarDecl × Nat) :
    queryConstant C watched.arrays query =
      match queriedArray C query with
      | none => watched.arrays
      | some InitVD => (watchedCall C watched InitVD).arrays := by
  unfold queryConstant constVariableOffset queriedArray
  by_cases exported : query.2 ≠ 0
  · simp only [if_pos exported]
  · simp only [if_neg exported]
    cases C.constInitVD query.1 with
    | none => rfl
    | some InitVD =>
        cases integral : C.isIntegralType InitVD with
        | true =>
            simp only [Option.filter, integral, Bool.not_true, Bool.false_eq_true, if_false, if_true]
            cases C.evaluateValue InitVD <;> rfl
        | false =>
            simp only [Option.filter, integral, Bool.not_false, if_true, watchedCall]
            cases C.evaluateValue InitVD with
            | none => rfl
            | some val =>
                simp only [Option.bind_some, Bool.false_eq_true, if_false]
                cases MaterializeConstArrayValue C InitVD val watched.arrays <;> rfl

theorem run_queryConstant (watched : WatchedArrays VarDecl) (queries : List (VarDecl × Nat)) :
    Runs.run (queryConstant C) watched.arrays queries =
      (Runs.run (watchedCall C) watched (queries.filterMap (queriedArray C))).arrays := by
  induction queries generalizing watched with
  | nil => rfl
  | cons query queries ih =>
      have here := queryConstant_eq (C := C) watched query
      rw [Runs.run, here]
      cases made : queriedArray C query with
      | none => rw [List.filterMap_cons_none made, ← ih]
      | some InitVD => rw [List.filterMap_cons_some made, Runs.run, ← ih]

/-- After any queries, an array variable that no binary exports is served its own array or
falls through to the JIT. -/
theorem constVariableOffset_array {littleEndian : Bool} (stores : StoresInts C littleEndian)
    (allocates : Allocates C) (single : OneInitializer C) (memory : Memory UInt8)
    (queries : List (VarDecl × Nat)) {VD InitVD : VarDecl} {Val : APValue}
    (made : queriedArray C (VD, 0) = some InitVD) (value : C.evaluateValue InitVD = some Val) :
    ∃ served arrays, constVariableOffset C VD 0
        (Runs.run (queryConstant C) ⟨fun _ => none, memory⟩ queries) = some (served, arrays) ∧
      ∀ address, served = some address → HoldsArray C littleEndian InitVD Val arrays.memory address := by
  have init := hasInit_of_queriedArray made
  have kept : KeptArrays C littleEndian (Runs.run (watchedCall C) ⟨⟨fun _ => none, memory⟩, []⟩
      (queries.filterMap (queriedArray C))) := by
    apply Runs.run_preserves (KeptArrays C littleEndian) _ (KeptArrays.start memory)
    intro watched other member kept
    obtain ⟨query, -, asked⟩ := List.mem_filterMap.mp member
    exact watchedCall_kept stores allocates single kept (hasInit_of_queriedArray asked)
  obtain ⟨result, arrays, returned, -, holds, -⟩ :=
    MaterializeConstArrayValue_step stores allocates single kept init value
  rw [← run_queryConstant] at returned
  rw [queriedArray, if_neg (not_not.mpr rfl), Option.filter_eq_some_iff] at made
  obtain ⟨found, integral⟩ := made
  rw [Bool.not_eq_true'] at integral
  refine ⟨if result ≠ 0 then some result else none, arrays, ?_, ?_⟩
  · simp only [constVariableOffset, ne_eq, not_true_eq_false, if_false, found, value, integral,
      Bool.false_eq_true, returned]
  · intro address served
    by_cases null : result = 0
    · rw [if_neg (not_not.mpr null)] at served
      exact nomatch served
    · rw [if_pos null, Option.some_inj] at served
      rw [← served]
      exact holds null

end

end CppInterOp
