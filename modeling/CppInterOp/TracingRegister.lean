import CppInterOp.TracingRuns

/-!
What the destructor of a top-level region registers: the pointers that have names
afterwards, and the elements that get a line.
-/

namespace CppInterOp

open TraceInfo

structure TraceData.Recorded (data : TraceData) : Prop where
  single : data.hasRetVec = true → data.result = none ∧ data.hasPtrResult = false
  noVector : ¬data.hasRetVec = true → data.retVecPtrs = []

theorem TraceData.Unrecorded.record {data : TraceData} (unrecorded : data.Unrecorded)
    (val : Returned) : (data.record val).Recorded := by
  obtain ⟨result, hasPtrResult, hasRetVec, retVecPtrs⟩ := unrecorded
  cases val with
  | nothing => exact ⟨fun _ => ⟨result, hasPtrResult⟩, fun _ => retVecPtrs⟩
  | nullptr => exact ⟨by simp [TraceData.record, hasRetVec], fun _ => retVecPtrs⟩
  | handle type p =>
      unfold TraceData.record
      by_cases kept : (type.isHandle || type.isPointer) = true
      · exact ⟨by simp [kept, hasRetVec], by simp [kept, retVecPtrs]⟩
      · exact ⟨by simp [kept, hasRetVec], by simp [kept, retVecPtrs]⟩
  | vector elem ptrs =>
      unfold TraceData.record
      by_cases kept : (elem.isHandleVector || elem.isPointerVector) = true
      · exact ⟨by simp [kept, result, hasPtrResult], by simp [kept]⟩
      · exact ⟨by simp [kept, hasRetVec], by simp [kept, retVecPtrs]⟩

namespace TraceRegion

theorem registerResults_vector {TI : TraceInfo} {data : TraceData}
    (live : Address → List (Option Address)) (vector : data.hasRetVec = true)
    (noResult : data.result = none) (noPointer : data.hasPtrResult = false) :
    registerResults TI data live =
      let registered := registerRetVec TI.popTimer.nextRetIndex.1 0 data.retVecPtrs
      let outs := registerOuts registered.1 live (data.outCallbacks.zip data.outIndices)
      (outs.1, .vector TI.retCount,
        outs.2 ++ registered.2.map fun decl => .retElement decl.2 TI.retCount decl.1) := by
  simp only [registerResults, allocateRet, vector, if_true, bindResult, noResult, noPointer,
    if_false, Bool.false_eq_true]
  rfl

theorem registerResults_scalar {TI : TraceInfo} {data : TraceData}
    (live : Address → List (Option Address)) (scalar : ¬data.hasRetVec = true) :
    registerResults TI data live =
      let bound := bindResult TI.popTimer data none
      let outs := registerOuts bound.1 live (data.outCallbacks.zip data.outIndices)
      (outs.1, bound.2, outs.2) := by
  simp only [registerResults, allocateRet, scalar, if_false, Bool.false_eq_true, List.map_nil,
    List.append_nil]

theorem bindResult_cases (TI : TraceInfo) (data : TraceData) :
    ((bindResult TI data none).2 = .fresh (TI.varCount + 1) ∧
      (bindResult TI data none).1.varCount = TI.varCount + 1) ∨
    ((bindResult TI data none).1 = TI ∧ declaredIn (bindResult TI data none).2.tokens = []) := by
  unfold bindResult
  cases data.result with
  | none =>
      right
      by_cases pointer : data.hasPtrResult = true
      · simp only [pointer, if_true]
        exact ⟨trivial, rfl⟩
      · simp only [pointer, if_false, Bool.false_eq_true]
        exact ⟨trivial, rfl⟩
  | some p =>
      cases seen : TI.handleMap p with
      | none =>
          left
          simp only [getOrRegisterHandle_unseen seen, lookupHandle_isEmpty, seen,
            Option.isNone_none, if_true]
          exact ⟨trivial, rfl⟩
      | some handle =>
          right
          simp only [getOrRegisterHandle_seen seen, lookupHandle_isEmpty, seen,
            Option.isNone_some, Bool.false_eq_true, if_false]
          exact ⟨trivial, rfl⟩

theorem registerRetVec_of_seen {TI : TraceInfo} {index : Nat} {ptrs : List (Option Address)}
    (seen : ∀ p, some p ∈ ptrs → (TI.handleMap p).isSome = true) :
    registerRetVec TI index ptrs = (TI, []) := by
  induction ptrs generalizing index with
  | nil => rfl
  | cons elem rest ih =>
      have others : ∀ index, registerRetVec TI index rest = (TI, []) := fun _ =>
        ih fun p present => seen p (List.mem_cons_of_mem _ present)
      cases elem with
      | none => exact others (index + 1)
      | some p =>
          obtain ⟨handle, found⟩ := Option.isSome_iff_exists.mp (seen p List.mem_cons_self)
          rw [registerRetVec_seen found]
          exact others (index + 1)

theorem registerRetVec_nil_iff (TI : TraceInfo) (index : Nat) (ptrs : List (Option Address)) :
    (registerRetVec TI index ptrs).2 = [] ↔
      ∀ p, some p ∈ ptrs → (TI.handleMap p).isSome = true := by
  constructor
  · intro none_new
    induction ptrs generalizing index with
    | nil => simp
    | cons elem rest ih =>
        cases elem with
        | none =>
            intro p present
            rcases List.mem_cons.mp present with here | later
            · cases here
            · exact ih (index + 1) none_new p later
        | some q =>
            cases found : TI.handleMap q with
            | none =>
                rw [registerRetVec_unseen found] at none_new
                cases none_new
            | some handle =>
                rw [registerRetVec_seen found] at none_new
                intro p present
                rcases List.mem_cons.mp present with here | later
                · cases here
                  simp [found]
                · exact ih (index + 1) none_new p later
  · intro seen
    rw [registerRetVec_of_seen seen]

theorem bindResult_seen (TI : TraceInfo) (data : TraceData) (p : Address) :
    ((bindResult TI data none).1.handleMap p).isSome = true ↔
      (TI.handleMap p).isSome = true ∨ data.result = some p := by
  unfold bindResult
  cases data.result with
  | none =>
      by_cases pointer : data.hasPtrResult = true
      · simp [pointer]
      · simp [pointer]
  | some q =>
      cases seen : TI.handleMap q with
      | none =>
          simp only [getOrRegisterHandle_unseen seen, TraceInfo.bind, Option.some.injEq]
          by_cases same : p = q
          · simp [same]
          · simp [same, Ne.symm same]
      | some handle =>
          simp only [getOrRegisterHandle_seen seen, Option.some.injEq]
          constructor
          · exact Or.inl
          · rintro (found | rfl)
            · exact found
            · simp [seen]

theorem registerRetVec_isSome (TI : TraceInfo) (index : Nat) (ptrs : List (Option Address))
    (p : Address) :
    ((registerRetVec TI index ptrs).1.handleMap p).isSome = true ↔
      (TI.handleMap p).isSome = true ∨ some p ∈ ptrs := by
  constructor
  · intro known
    induction ptrs generalizing TI index with
    | nil => exact Or.inl known
    | cons elem rest ih =>
        cases elem with
        | none => exact (ih TI (index + 1) known).imp_right (List.mem_cons_of_mem _)
        | some q =>
            cases seen : TI.handleMap q with
            | none =>
                rw [registerRetVec_unseen seen] at known
                rcases ih (TI.bind q) (index + 1) known with before | later
                · by_cases same : p = q
                  · exact Or.inr (by rw [same]; exact List.mem_cons_self)
                  · simp only [TraceInfo.bind, same, if_false] at before
                    exact Or.inl before
                · exact Or.inr (List.mem_cons_of_mem _ later)
            | some handle =>
                rw [registerRetVec_seen seen] at known
                exact (ih TI (index + 1) known).imp_right (List.mem_cons_of_mem _)
  · rintro (before | present)
    · obtain ⟨handle, found⟩ := Option.isSome_iff_exists.mp before
      simp [(registerRetVec_names TI index ptrs).kept p handle found]
    · exact registerRetVec_registers TI index ptrs p present

theorem registerOuts_isSome (TI : TraceInfo) (live : Address → List (Option Address))
    (outs : List (Address × Nat)) (p : Address) :
    ((registerOuts TI live outs).1.handleMap p).isSome = true ↔
      (TI.handleMap p).isSome = true ∨ ∃ container ∈ outs.map Prod.fst, some p ∈ live container := by
  induction outs generalizing TI with
  | nil => simp [registerOuts]
  | cons out rest ih =>
      obtain ⟨container, outIdx⟩ := out
      simp only [registerOuts, ih, registerRetVec_isSome, List.map_cons, List.mem_cons,
        exists_eq_or_imp, or_assoc]

theorem registerResults_isSome (TI : TraceInfo) (data : TraceData)
    (live : Address → List (Option Address)) (recorded : data.Recorded)
    (aligned : data.outCallbacks.length = data.outIndices.length) (p : Address) :
    ((registerResults TI data live).1.handleMap p).isSome = true ↔
      (TI.handleMap p).isSome = true ∨ data.result = some p ∨ some p ∈ data.retVecPtrs ∨
        ∃ container ∈ data.outCallbacks, some p ∈ live container := by
  have containers : (data.outCallbacks.zip data.outIndices).map Prod.fst = data.outCallbacks := by
    rw [List.map_fst_zip (by omega)]
  by_cases vector : data.hasRetVec = true
  · obtain ⟨noResult, noPointer⟩ := recorded.single vector
    rw [registerResults_vector live vector noResult noPointer]
    simp only [registerOuts_isSome, registerRetVec_isSome, containers, noResult, reduceCtorEq,
      false_or, or_assoc]
    rfl
  · rw [registerResults_scalar live vector]
    simp only [registerOuts_isSome, bindResult_seen, containers, recorded.noVector vector,
      List.not_mem_nil, false_or, or_assoc]
    rfl

/-- An element gets a handle at its first occurrence, if the tracer has not seen it. -/
structure First (TI later : TraceInfo) (ptrs : List (Option Address)) (index handle : Nat)
    (p : Address) : Prop where
  there : ptrs[index]? = some (some p)
  unseen : TI.handleMap p = none
  first : some p ∉ ptrs.take index
  named : later.handleMap p = some handle

theorem registerRetVec_index {TI : TraceInfo} {index : Nat} {ptrs : List (Option Address)}
    {decl : Nat × Nat} (new : decl ∈ (registerRetVec TI index ptrs).2) : index ≤ decl.1 := by
  induction ptrs generalizing TI index with
  | nil => cases new
  | cons elem rest ih =>
      cases elem with
      | none => exact Nat.le_of_succ_le (ih new)
      | some q =>
          cases seen : TI.handleMap q with
          | none =>
              rw [registerRetVec_unseen seen] at new
              rcases List.mem_cons.mp new with rfl | later
              · exact Nat.le_refl _
              · exact Nat.le_of_succ_le (ih later)
          | some handle =>
              rw [registerRetVec_seen seen] at new
              exact Nat.le_of_succ_le (ih new)

theorem First.head_iff {TI later : TraceInfo} {elem : Option Address}
    {rest : List (Option Address)} {handle : Nat} {p : Address} :
    First TI later (elem :: rest) 0 handle p ↔
      elem = some p ∧ TI.handleMap p = none ∧ later.handleMap p = some handle := by
  constructor
  · rintro ⟨there, unseen, _, named⟩
    exact ⟨by simpa using there, unseen, named⟩
  · rintro ⟨rfl, unseen, named⟩
    exact ⟨rfl, unseen, by simp, named⟩

theorem First.tail_iff {TI later : TraceInfo} {elem : Option Address}
    {rest : List (Option Address)} {position handle : Nat} {p : Address} :
    First TI later (elem :: rest) (position + 1) handle p ↔
      First TI later rest position handle p ∧ some p ≠ elem := by
  constructor
  · rintro ⟨there, unseen, first, named⟩
    simp only [List.take_succ_cons, List.mem_cons, not_or] at first
    exact ⟨⟨there, unseen, first.2, named⟩, first.1⟩
  · rintro ⟨⟨there, unseen, first, named⟩, other⟩
    exact ⟨there, unseen, by simp [first, other], named⟩

theorem First.earlier_iff {TI middle later : TraceInfo} {ptrs : List (Option Address)}
    {index handle : Nat} {p : Address} {absent : Prop}
    (unseen : middle.handleMap p = none ↔ TI.handleMap p = none ∧ absent) :
    First middle later ptrs index handle p ↔ First TI later ptrs index handle p ∧ absent := by
  constructor
  · rintro ⟨there, new, first, named⟩
    exact ⟨⟨there, (unseen.mp new).1, first, named⟩, (unseen.mp new).2⟩
  · rintro ⟨⟨there, new, first, named⟩, absent⟩
    exact ⟨there, unseen.mpr ⟨new, absent⟩, first, named⟩

theorem bind_unseen {TI : TraceInfo} {p q : Address} :
    (TI.bind q).handleMap p = none ↔ TI.handleMap p = none ∧ some p ≠ some q := by
  by_cases same : p = q
  · simp [TraceInfo.bind, same]
  · simp [TraceInfo.bind, same]

theorem mem_registerRetVec {TI : TraceInfo} {index position handle : Nat}
    {ptrs : List (Option Address)} :
    (index + position, handle) ∈ (registerRetVec TI index ptrs).2 ↔
      ∃ p, First TI (registerRetVec TI index ptrs).1 ptrs position handle p := by
  induction ptrs generalizing TI index position with
  | nil =>
      refine iff_of_false (by simp [registerRetVec]) ?_
      rintro ⟨p, first⟩
      simpa using first.there
  | cons elem rest ih =>
      have shift : ∀ position, index + (position + 1) = index + 1 + position := by
        intro position
        omega
      -- the declarations of the rest have indices of their own
      have notHere : ∀ later : TraceInfo,
          (index, handle) ∉ (registerRetVec later (index + 1) rest).2 := by
        intro later present
        have := registerRetVec_index present
        omega
      cases elem with
      | none =>
          rw [registerRetVec_null]
          cases position with
          | zero => exact iff_of_false (notHere TI) (by simp [First.head_iff])
          | succ position =>
              rw [shift position, ih]
              simp only [First.tail_iff, ne_eq, reduceCtorEq, not_false_eq_true, and_true]
      | some q =>
          cases seen : TI.handleMap q with
          | none =>
              have kept := (registerRetVec_names (TI.bind q) (index + 1) rest).kept q
                (TI.varCount + 1) (by simp [TraceInfo.bind])
              rw [registerRetVec_unseen seen]
              cases position with
              | zero =>
                  simp only [Nat.add_zero, List.mem_cons, Prod.mk.injEq, true_and, notHere,
                    or_false, First.head_iff, Option.some.injEq, exists_eq_left', seen, kept]
                  exact eq_comm
              | succ position =>
                  have apart : ¬(index + (position + 1), handle) = (index, TI.varCount + 1) := by
                    intro same
                    simp only [Prod.mk.injEq] at same
                    omega
                  rw [List.mem_cons, or_iff_right apart, shift position, ih]
                  simp only [First.tail_iff, First.earlier_iff bind_unseen]
          | some old =>
              rw [registerRetVec_seen seen]
              cases position with
              | zero =>
                  refine iff_of_false (notHere TI) ?_
                  simp only [First.head_iff, Option.some.injEq, exists_eq_left', seen,
                    reduceCtorEq, false_and, not_false_eq_true]
              | succ position =>
                  rw [shift position, ih]
                  refine exists_congr fun p => ?_
                  rw [First.tail_iff, and_iff_left_of_imp]
                  intro first same
                  have unseen := first.unseen
                  rw [Option.some.inj same, seen] at unseen
                  cases unseen

end TraceRegion

namespace TraceInfo

structure Distinct (TI : TraceInfo) : Prop where
  bounded : ∀ p handle, TI.handleMap p = some handle → handle ≤ TI.varCount
  apart : ∀ p q handle, TI.handleMap p = some handle → TI.handleMap q = some handle → p = q

theorem Distinct.bind {TI : TraceInfo} (distinct : TI.Distinct) (p : Address) :
    (TI.bind p).Distinct := by
  have old : ∀ q handle, q ≠ p → (TI.bind p).handleMap q = some handle →
      TI.handleMap q = some handle := by
    intro q handle other found
    simpa [TraceInfo.bind, other] using found
  have new : ∀ handle, (TI.bind p).handleMap p = some handle → handle = TI.varCount + 1 := by
    intro handle found
    simpa [TraceInfo.bind] using found.symm
  constructor
  · intro q handle found
    simp only [TraceInfo.bind]
    by_cases same : q = p
    · subst same
      exact Nat.le_of_eq (new handle found)
    · have := distinct.bounded q handle (old q handle same found)
      omega
  · intro q r handle foundQ foundR
    by_cases sameQ : q = p
    · by_cases sameR : r = p
      · rw [sameQ, sameR]
      · subst sameQ
        have := distinct.bounded r handle (old r handle sameR foundR)
        have := new handle foundQ
        omega
    · by_cases sameR : r = p
      · subst sameR
        have := distinct.bounded q handle (old q handle sameQ foundQ)
        have := new handle foundR
        omega
      · exact distinct.apart q r handle (old q handle sameQ foundQ) (old r handle sameR foundR)

end TraceInfo

namespace TraceRegion

theorem registerRetVec_distinct {TI : TraceInfo} (distinct : TI.Distinct) (index : Nat)
    (ptrs : List (Option Address)) : (registerRetVec TI index ptrs).1.Distinct := by
  induction ptrs generalizing TI index with
  | nil => exact distinct
  | cons elem rest ih =>
      cases elem with
      | none => exact ih distinct (index + 1)
      | some q =>
          cases seen : TI.handleMap q with
          | none =>
              rw [registerRetVec_unseen seen]
              exact ih (distinct.bind q) (index + 1)
          | some handle =>
              rw [registerRetVec_seen seen]
              exact ih distinct (index + 1)

theorem registerOuts_distinct {TI : TraceInfo} (distinct : TI.Distinct)
    (live : Address → List (Option Address)) (outs : List (Address × Nat)) :
    (registerOuts TI live outs).1.Distinct := by
  induction outs generalizing TI with
  | nil => exact distinct
  | cons out rest ih =>
      obtain ⟨container, outIdx⟩ := out
      exact ih (registerRetVec_distinct distinct 0 (live container))

theorem bindResult_distinct {TI : TraceInfo} (distinct : TI.Distinct) (data : TraceData)
    (retIdx : Option Nat) : (bindResult TI data retIdx).1.Distinct := by
  unfold bindResult
  cases data.result with
  | none =>
      by_cases pointer : data.hasPtrResult = true
      · simp only [pointer, if_true]
        exact distinct
      · simp only [pointer, if_false, Bool.false_eq_true]
        cases retIdx <;> exact distinct
  | some p =>
      cases seen : TI.handleMap p with
      | none =>
          simp only [getOrRegisterHandle_unseen seen]
          exact distinct.bind p
      | some handle =>
          simp only [getOrRegisterHandle_seen seen]
          exact distinct

theorem registerResults_distinct {TI : TraceInfo} (distinct : TI.Distinct) (data : TraceData)
    (live : Address → List (Option Address)) : (registerResults TI data live).1.Distinct := by
  have allocated : (allocateRet TI.popTimer data).1.Distinct := by
    unfold allocateRet
    by_cases vector : data.hasRetVec = true
    · simp only [vector, if_true]
      have same : TI.popTimer.nextRetIndex.1.Distinct := ⟨distinct.1, distinct.2⟩
      exact registerRetVec_distinct same 0 _
    · simp only [vector, if_false, Bool.false_eq_true]
      exact ⟨distinct.1, distinct.2⟩
  exact registerOuts_distinct (bindResult_distinct allocated data _) live _

/-- The line of an OUT element: it is new, in no earlier container and not earlier in its own. -/
structure FirstOut (TI later : TraceInfo) (live : Address → List (Option Address))
    (before : List (Address × Nat)) (container : Address) (index handle : Nat) (p : Address) :
    Prop where
  first : First TI later (live container) index handle p
  apart : ∀ out ∈ before, some p ∉ live out.1

theorem mem_registerOuts {TI : TraceInfo} {live : Address → List (Option Address)}
    {outs : List (Address × Nat)} {handle outIdx index : Nat} :
    .outElement handle outIdx index ∈ (registerOuts TI live outs).2 ↔
      ∃ before container after p, outs = before ++ (container, outIdx) :: after ∧
        FirstOut TI (registerOuts TI live outs).1 live before container index handle p := by
  induction outs generalizing TI with
  | nil =>
      refine iff_of_false (by simp [registerOuts]) ?_
      rintro ⟨before, container, after, p, split, _⟩
      simp at split
  | cons out rest ih =>
      obtain ⟨container, slot⟩ := out
      have names := registerOuts_names (registerRetVec TI 0 (live container)).1 live rest
      have here : Line.outElement handle outIdx index ∈
          ((registerRetVec TI 0 (live container)).2.map fun decl =>
            Line.outElement decl.2 slot decl.1) ↔
          slot = outIdx ∧ ∃ p, First TI (registerRetVec TI 0 (live container)).1 (live container)
            index handle p := by
        rw [← mem_registerRetVec, Nat.zero_add]
        constructor
        · intro present
          obtain ⟨decl, listed, same⟩ := List.mem_map.mp present
          obtain ⟨position, number⟩ := decl
          cases same
          exact ⟨rfl, listed⟩
        · rintro ⟨rfl, listed⟩
          exact List.mem_map.mpr ⟨(index, handle), listed, rfl⟩
      have known : ∀ p, (registerRetVec TI 0 (live container)).1.handleMap p = none ↔
          TI.handleMap p = none ∧ some p ∉ live container := by
        intro p
        rw [← Option.not_isSome_iff_eq_none, registerRetVec_isSome, not_or,
          Option.not_isSome_iff_eq_none]
      simp only [registerOuts, List.mem_append, here, ih]
      constructor
      · rintro (⟨rfl, p, first⟩ | ⟨before, other, after, p, split, first, apart⟩)
        · refine ⟨[], container, rest, p, rfl, ⟨first.there, first.unseen, first.first, ?_⟩, by simp⟩
          exact names.kept p handle first.named
        · obtain ⟨unseen, absent⟩ := (known p).mp first.unseen
          refine ⟨(container, slot) :: before, other, after, p, by rw [split]; rfl,
            ⟨first.there, unseen, first.first, first.named⟩, ?_⟩
          intro out present
          rcases List.mem_cons.mp present with rfl | later
          · exact absent
          · exact apart out later
      · rintro ⟨before, other, after, p, split, first, apart⟩
        cases before with
        | nil =>
            simp only [List.nil_append, List.cons.injEq, Prod.mk.injEq] at split
            obtain ⟨⟨rfl, rfl⟩, rfl⟩ := split
            refine Or.inl ⟨rfl, p, first.there, first.unseen, first.first, ?_⟩
            have present : some p ∈ live container := List.mem_of_getElem? first.there
            obtain ⟨number, found⟩ := Option.isSome_iff_exists.mp
              ((registerRetVec_isSome TI 0 (live container) p).mpr (Or.inr present))
            have same := names.kept p number found
            rw [first.named] at same
            rw [found, same]
        | cons head tail =>
            simp only [List.cons_append, List.cons.injEq] at split
            obtain ⟨rfl, rfl⟩ := split
            -- an earlier container with the pointer would have named it already
            have absent := apart (container, slot) List.mem_cons_self
            refine Or.inr ⟨tail, other, after, p, rfl,
              ⟨first.there, (known p).mpr ⟨first.unseen, absent⟩, first.first, first.named⟩, ?_⟩
            exact fun out present => apart out (List.mem_cons_of_mem _ present)

theorem FirstOut.earlier_iff {TI middle later : TraceInfo}
    {live : Address → List (Option Address)} {before : List (Address × Nat)}
    {container : Address} {index handle : Nat} {p : Address} {absent : Prop}
    (unseen : middle.handleMap p = none ↔ TI.handleMap p = none ∧ absent) :
    FirstOut middle later live before container index handle p ↔
      absent ∧ FirstOut TI later live before container index handle p := by
  constructor
  · rintro ⟨first, apart⟩
    obtain ⟨first, missing⟩ := (First.earlier_iff unseen).mp first
    exact ⟨missing, first, apart⟩
  · rintro ⟨missing, first, apart⟩
    exact ⟨(First.earlier_iff unseen).mpr ⟨first, missing⟩, apart⟩

theorem mem_registerOuts_element {TI : TraceInfo} {live : Address → List (Option Address)}
    {outs : List (Address × Nat)} {line : Line} (added : line ∈ (registerOuts TI live outs).2) :
    ∃ handle outIdx index, line = .outElement handle outIdx index := by
  induction outs generalizing TI with
  | nil => cases added
  | cons out rest ih =>
      obtain ⟨container, outIdx⟩ := out
      simp only [registerOuts, List.mem_append, List.mem_map] at added
      rcases added with ⟨decl, _, rfl⟩ | later
      · exact ⟨_, _, _, rfl⟩
      · exact ih later

theorem mem_registerResults_out {TI : TraceInfo} {data : TraceData}
    {live : Address → List (Option Address)} (recorded : data.Recorded)
    {handle outIdx index : Nat} :
    .outElement handle outIdx index ∈ (registerResults TI data live).2.2 ↔
      ∃ before container after p,
        data.outCallbacks.zip data.outIndices = before ++ (container, outIdx) :: after ∧
        (data.result ≠ some p ∧ some p ∉ data.retVecPtrs) ∧
        FirstOut TI (registerResults TI data live).1 live before container index handle p := by
  by_cases vector : data.hasRetVec = true
  · obtain ⟨noResult, noPointer⟩ := recorded.single vector
    rw [registerResults_vector live vector noResult noPointer]
    simp only
    have inOuts : ∀ outLines : List Line, ∀ decls : List (Nat × Nat),
        Line.outElement handle outIdx index ∈
          outLines ++ decls.map (fun decl => Line.retElement decl.2 TI.retCount decl.1) ↔
        Line.outElement handle outIdx index ∈ outLines := by
      intro outLines decls
      rw [List.mem_append, or_iff_left]
      simp
    rw [inOuts, mem_registerOuts]
    refine exists_congr fun before => exists_congr fun container => exists_congr fun after =>
      exists_congr fun p => and_congr_right fun _ => ?_
    refine FirstOut.earlier_iff ?_
    rw [← Option.not_isSome_iff_eq_none, registerRetVec_isSome, not_or,
      Option.not_isSome_iff_eq_none]
    simp only [noResult, ne_eq, reduceCtorEq, not_false_eq_true, true_and]
    rfl
  · rw [registerResults_scalar live vector]
    simp only
    rw [mem_registerOuts]
    refine exists_congr fun before => exists_congr fun container => exists_congr fun after =>
      exists_congr fun p => and_congr_right fun _ => ?_
    refine FirstOut.earlier_iff ?_
    rw [← Option.not_isSome_iff_eq_none, bindResult_seen, not_or, Option.not_isSome_iff_eq_none]
    simp only [recorded.noVector vector, List.not_mem_nil, not_false_eq_true, and_true]
    rfl

theorem mem_registerResults_ret {TI : TraceInfo} {data : TraceData}
    {live : Address → List (Option Address)} (recorded : data.Recorded)
    {handle retIdx index : Nat}
    (added : .retElement handle retIdx index ∈ (registerResults TI data live).2.2) :
    (registerResults TI data live).2.1 = .vector retIdx ∧
      ∃ p, data.retVecPtrs[index]? = some (some p) ∧
        (registerResults TI data live).1.handleMap p = some handle := by
  by_cases vector : data.hasRetVec = true
  · obtain ⟨noResult, noPointer⟩ := recorded.single vector
    rw [registerResults_vector live vector noResult noPointer] at added ⊢
    rcases List.mem_append.mp added with out | ret
    · obtain ⟨_, _, _, same⟩ := mem_registerOuts_element out
      cases same
    · obtain ⟨decl, listed, same⟩ := List.mem_map.mp ret
      cases same
      obtain ⟨p, first⟩ := mem_registerRetVec.mp (show (0 + decl.1, decl.2) ∈
        (registerRetVec TI.popTimer.nextRetIndex.1 0 data.retVecPtrs).2 by rwa [Nat.zero_add])
      have names := registerOuts_names
        (registerRetVec TI.popTimer.nextRetIndex.1 0 data.retVecPtrs).1 live
        (data.outCallbacks.zip data.outIndices)
      exact ⟨rfl, p, first.there, names.kept p decl.2 first.named⟩
  · rw [registerResults_scalar live vector] at added
    obtain ⟨_, _, _, same⟩ := mem_registerOuts_element added
    cases same

theorem registerResults_elements {TI : TraceInfo} {data : TraceData}
    {live : Address → List (Option Address)} (recorded : data.Recorded) {line : Line}
    (added : line ∈ (registerResults TI data live).2.2) :
    (∃ handle outIdx index, line = .outElement handle outIdx index) ∨
      ∃ handle retIdx index, line = .retElement handle retIdx index := by
  by_cases vector : data.hasRetVec = true
  · obtain ⟨noResult, noPointer⟩ := recorded.single vector
    rw [registerResults_vector live vector noResult noPointer] at added
    rcases List.mem_append.mp added with out | ret
    · exact Or.inl (mem_registerOuts_element out)
    · obtain ⟨decl, _, rfl⟩ := List.mem_map.mp ret
      exact Or.inr ⟨_, _, _, rfl⟩
  · rw [registerResults_scalar live vector] at added
    exact Or.inl (mem_registerOuts_element added)

end TraceRegion

end CppInterOp
