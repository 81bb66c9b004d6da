import CppInterOp.TracingRegister
import CppInterOp.Library.Runs
import CppInterOp.Library.Scoping

/-!
The lines of a reproducer as a program: which runs of the tracer write files whose every
identifier is declared by an earlier line of the same file.
-/

namespace CppInterOp

open TraceInfo

abbrev declaredBy (lines : List Line) : List Ident := Scoping.declared Line.declares lines

/-- Every identifier is declared by an earlier line, and none is declared twice. -/
abbrev SelfContained (lines : List Line) : Prop :=
  Scoping.SelfContained Line.uses Line.declares lines

namespace TraceRegion

theorem declaredBy_elements {lineOf : Nat × Nat → Line}
    (declares : ∀ decl, (lineOf decl).declares = [.v decl.2]) (decls : List (Nat × Nat)) :
    declaredBy (decls.map lineOf) = (decls.map Prod.snd).map Ident.v := by
  induction decls with
  | nil => rfl
  | cons decl rest ih =>
      have split : declaredBy (lineOf decl :: rest.map lineOf) =
          (lineOf decl).declares ++ declaredBy (rest.map lineOf) := rfl
      rw [List.map_cons, split, declares, ih]
      rfl

theorem registerOuts_declares (TI : TraceInfo) (live : Address → List (Option Address))
    (outs : List (Address × Nat)) :
    ∃ count, declaredBy (registerOuts TI live outs).2 =
        (List.range' (TI.varCount + 1) count).map Ident.v ∧
      (registerOuts TI live outs).1.varCount = TI.varCount + count ∧
      ∀ line ∈ (registerOuts TI live outs).2,
        ∃ outIdx ∈ outs.map Prod.snd, line.uses = [.out outIdx, .out outIdx] := by
  induction outs generalizing TI with
  | nil => exact ⟨0, rfl, rfl, by simp [registerOuts]⟩
  | cons out rest ih =>
      obtain ⟨container, outIdx⟩ := out
      obtain ⟨handles, grown⟩ := registerRetVec_handles TI 0 (live container)
      obtain ⟨count, declares, total, uses⟩ := ih (registerRetVec TI 0 (live container)).1
      refine ⟨(registerRetVec TI 0 (live container)).2.length + count, ?_, ?_, ?_⟩
      · have split : declaredBy (registerOuts TI live ((container, outIdx) :: rest)).2 =
            declaredBy ((registerRetVec TI 0 (live container)).2.map fun decl =>
              .outElement decl.2 outIdx decl.1) ++
            declaredBy (registerOuts (registerRetVec TI 0 (live container)).1 live rest).2 :=
          Scoping.declared_append _ _
        rw [split, declaredBy_elements (fun _ => rfl), handles, declares, grown, ← List.map_append,
          Nat.add_right_comm, List.range'_append_1]
      · simp only [registerOuts, total, grown]
        omega
      · intro line present
        simp only [registerOuts, List.mem_append, List.mem_map] at present
        rcases present with ⟨decl, _, rfl⟩ | later
        · exact ⟨outIdx, List.mem_cons_self, rfl⟩
        · obtain ⟨other, found, same⟩ := uses line later
          exact ⟨other, List.mem_cons_of_mem _ found, same⟩

/-- What a top-level region declares when it closes: the handles it registers, each once,
and the returned vector if there is one. -/
structure Declares (TI later : TraceInfo) (data : TraceData) (idents : List Ident) : Prop where
  once : idents.Nodup
  handles : ∀ n, .v n ∈ idents ↔ TI.varCount < n ∧ n ≤ later.varCount
  outs : ∀ k, .out k ∉ idents
  rets : ∀ k, .ret k ∈ idents → k = TI.retCount ∧ data.hasRetVec = true
  strays : ∀ code, .stray code ∉ idents

/-- Every pointer handed out in a container was seen before the call or is its result. -/
structure NothingNew (TI : TraceInfo) (data : TraceData)
    (live : Address → List (Option Address)) : Prop where
  returned : ∀ p, some p ∈ data.retVecPtrs →
    (TI.handleMap p).isSome = true ∨ data.result = some p
  elements : ∀ container ∈ data.outCallbacks, ∀ p, some p ∈ live container →
    (TI.handleMap p).isSome = true ∨ data.result = some p

theorem mem_handles {start count n : Nat} :
    Ident.v n ∈ (List.range' (start + 1) count).map Ident.v ↔ start < n ∧ n ≤ start + count := by
  simp only [List.mem_map, List.mem_range'_1, Ident.v.injEq, exists_eq_right]
  omega

theorem nodup_handles (start count : Nat) :
    ((List.range' start count).map Ident.v).Nodup :=
  List.Nodup.map (fun _ _ same => Ident.v.inj same) List.nodup_range'

theorem registerResults_declares (TI : TraceInfo) (data : TraceData)
    (live : Address → List (Option Address))
    (recorded : data.Recorded) :
    Declares TI (registerResults TI data live).1 data
      (declaredIn (registerResults TI data live).2.1.tokens ++
        declaredBy (registerResults TI data live).2.2) := by
  by_cases vector : data.hasRetVec = true
  · obtain ⟨noResult, noPointer⟩ := recorded.single vector
    rw [registerResults_vector live vector noResult noPointer]
    obtain ⟨handles, grown⟩ := registerRetVec_handles TI.popTimer.nextRetIndex.1 0 data.retVecPtrs
    obtain ⟨count, declares, total, _⟩ := registerOuts_declares
      (registerRetVec TI.popTimer.nextRetIndex.1 0 data.retVecPtrs).1 live
      (data.outCallbacks.zip data.outIndices)
    have start : TI.popTimer.nextRetIndex.1.varCount = TI.varCount := rfl
    rw [start] at handles grown
    generalize (registerRetVec TI.popTimer.nextRetIndex.1 0 data.retVecPtrs).2.length = fresh
      at handles grown
    simp only [declaredBy, Scoping.declared_append] at declares ⊢
    rw [declares, ← declaredBy, declaredBy_elements (fun _ => rfl), handles, grown]
    rw [grown] at total
    -- the returned elements come first, the OUT elements after them
    have ret : declaredIn (VarPart.vector TI.retCount).tokens = [.ret TI.retCount] := rfl
    rw [ret]
    refine ⟨?_, ?_, by simp, ?_, by simp⟩
    · rw [List.singleton_append, List.nodup_cons, List.nodup_append]
      refine ⟨by simp, nodup_handles _ _, nodup_handles _ _, ?_⟩
      intro ident late other early same
      subst same
      obtain ⟨n, _, rfl⟩ := List.mem_map.mp late
      rw [mem_handles] at late early
      omega
    · intro n
      rw [List.singleton_append, List.mem_cons, List.mem_append, mem_handles, mem_handles, total]
      simp only [reduceCtorEq, false_or]
      omega
    · intro k declared
      refine ⟨?_, vector⟩
      simpa using declared
  · -- at most the returned pointer comes before the OUT elements
    rw [registerResults_scalar live vector]
    obtain ⟨count, declares, total, _⟩ := registerOuts_declares
      (bindResult TI.popTimer data none).1 live (data.outCallbacks.zip data.outIndices)
    have start : TI.popTimer.varCount = TI.varCount := rfl
    simp only
    rw [declares]
    rcases bindResult_cases TI.popTimer data with ⟨fresh, grown⟩ | ⟨same, silent⟩
    · rw [start] at fresh grown
      have joined : declaredIn (bindResult TI.popTimer data none).2.tokens ++
          (List.range' ((bindResult TI.popTimer data none).1.varCount + 1) count).map Ident.v =
          (List.range' (TI.varCount + 1) (count + 1)).map Ident.v := by
        rw [fresh, grown, List.range'_succ]
        rfl
      rw [joined]
      refine ⟨nodup_handles _ _, ?_, by simp, by simp, by simp⟩
      intro n
      rw [mem_handles, total, grown]
      omega
    · rw [same, start] at total
      rw [silent, same, start, List.nil_append]
      refine ⟨nodup_handles _ _, ?_, by simp, by simp, by simp⟩
      intro n
      rw [mem_handles, total]

theorem registerResults_uses (TI : TraceInfo) (data : TraceData)
    (live : Address → List (Option Address)) (recorded : data.Recorded) :
    ∀ line ∈ (registerResults TI data live).2.2,
      (∃ outIdx ∈ data.outIndices, line.uses = [.out outIdx, .out outIdx]) ∨
      (line.uses = [.ret TI.retCount, .ret TI.retCount] ∧
        .ret TI.retCount ∈ declaredIn (registerResults TI data live).2.1.tokens) := by
  have slots : ∀ later : TraceInfo, ∀ line ∈ (registerOuts later live
      (data.outCallbacks.zip data.outIndices)).2,
      ∃ outIdx ∈ data.outIndices, line.uses = [.out outIdx, .out outIdx] := by
    intro later line present
    obtain ⟨_, _, _, uses⟩ :=
      registerOuts_declares later live (data.outCallbacks.zip data.outIndices)
    obtain ⟨outIdx, found, same⟩ := uses line present
    obtain ⟨out, member, rfl⟩ := List.mem_map.mp found
    exact ⟨out.2, (List.of_mem_zip member).2, same⟩
  by_cases vector : data.hasRetVec = true
  · obtain ⟨noResult, noPointer⟩ := recorded.single vector
    rw [registerResults_vector live vector noResult noPointer]
    intro line present
    rcases List.mem_append.mp present with out | ret
    · exact Or.inl (slots _ line out)
    · obtain ⟨decl, _, rfl⟩ := List.mem_map.mp ret
      exact Or.inr ⟨rfl, List.mem_cons_self⟩
  · rw [registerResults_scalar live vector]
    intro line present
    exact Or.inl (slots _ line present)

theorem registerOuts_nil_iff (TI : TraceInfo) (live : Address → List (Option Address))
    (outs : List (Address × Nat)) :
    (registerOuts TI live outs).2 = [] ↔
      ∀ container ∈ outs.map Prod.fst, ∀ p, some p ∈ live container →
        (TI.handleMap p).isSome = true := by
  induction outs generalizing TI with
  | nil => simp [registerOuts]
  | cons out rest ih =>
      obtain ⟨container, outIdx⟩ := out
      simp only [registerOuts, List.append_eq_nil_iff, List.map_eq_nil_iff, List.map_cons,
        List.forall_mem_cons, registerRetVec_nil_iff]
      constructor
      · rintro ⟨here, others⟩
        rw [registerRetVec_of_seen here] at others
        exact ⟨here, (ih TI).mp others⟩
      · rintro ⟨here, others⟩
        refine ⟨here, ?_⟩
        rw [registerRetVec_of_seen here]
        exact (ih TI).mpr others

theorem registerResults_nil_iff (TI : TraceInfo) (data : TraceData)
    (live : Address → List (Option Address)) (recorded : data.Recorded)
    (aligned : data.outCallbacks.length = data.outIndices.length) :
    (registerResults TI data live).2.2 = [] ↔ NothingNew TI data live := by
  have containers : (data.outCallbacks.zip data.outIndices).map Prod.fst = data.outCallbacks := by
    rw [List.map_fst_zip (by omega)]
  by_cases vector : data.hasRetVec = true
  · obtain ⟨noResult, noPointer⟩ := recorded.single vector
    rw [registerResults_vector live vector noResult noPointer]
    simp only [List.append_eq_nil_iff, List.map_eq_nil_iff, registerOuts_nil_iff, containers,
      registerRetVec_nil_iff]
    constructor
    · rintro ⟨outs, rets⟩
      rw [registerRetVec_of_seen rets] at outs
      constructor
      · exact fun p present => Or.inl (rets p present)
      · exact fun container open_here p present => Or.inl (outs container open_here p present)
    · intro seen
      have rets : ∀ p, some p ∈ data.retVecPtrs → (TI.handleMap p).isSome = true := by
        intro p present
        exact (seen.returned p present).resolve_right (by simp [noResult])
      refine ⟨?_, rets⟩
      rw [registerRetVec_of_seen (show ∀ p, some p ∈ data.retVecPtrs →
        (TI.popTimer.nextRetIndex.1.handleMap p).isSome = true from rets)]
      intro container open_here p present
      exact (seen.elements container open_here p present).resolve_right (by simp [noResult])
  · rw [registerResults_scalar live vector]
    simp only [registerOuts_nil_iff, containers, bindResult_seen]
    constructor
    · intro outs
      exact ⟨by simp [recorded.noVector vector], outs⟩
    · exact fun seen => seen.elements

end TraceRegion

end CppInterOp
