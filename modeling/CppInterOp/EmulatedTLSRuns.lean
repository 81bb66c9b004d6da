import CppInterOp.EmulatedTLSCore
import CppInterOp.Library.Runs

/-!
Runs of the interpreter as to weak thread_locals: at most one live module defines one, and
whoever refers to one finds a definition. A run keeps this exactly when of every module
that becomes live the names which the pass takes for defined are those that are.
-/

namespace CppInterOp

open GlobalVariable

namespace LLVMModule

def Has (M : LLVMModule) (kind : GlobalVariable → Bool) (name : String) : Prop :=
  ∃ GV ∈ M.globals, kind GV = true ∧ GV.name = name

end LLVMModule

namespace PartialTranslationUnit

def LiveHas (PTU : PartialTranslationUnit) (kind : GlobalVariable → Bool) (name : String) : Prop :=
  PTU.live = true ∧ ∃ M, PTU.TheModule = some M ∧ M.Has kind name

/-- The unit is live with an available_externally copy of what was a weak definition. -/
def LiveDemoted (PTU : PartialTranslationUnit) (name : String) : Prop :=
  (∃ M, PTU.generated = some M ∧ M.Has isWeakTLS name) ∧ PTU.LiveHas isExternalCopy name

/-- No weak thread_local of one unit is defined by the other. -/
def Apart (first second : PartialTranslationUnit) : Prop :=
  ∀ name, ¬(first.LiveHas isWeakTLS name ∧ second.LiveHas isSharedTLS name) ∧
    ¬(second.LiveHas isWeakTLS name ∧ first.LiveHas isSharedTLS name)

end PartialTranslationUnit

namespace TLSInterpreter

def LiveHas (I : TLSInterpreter) (kind : GlobalVariable → Bool) (name : String) : Prop :=
  ∃ PTU ∈ I.PTUs, PTU.LiveHas kind name

structure Deduped (I : TLSInterpreter) : Prop where
  single : I.PTUs.Pairwise PartialTranslationUnit.Apart
  covered : ∀ PTU ∈ I.PTUs, ∀ name, PTU.LiveDemoted name → I.LiveHas isSharedTLS name

end TLSInterpreter

namespace InterpreterOp

def generated : InterpreterOp → Option (LLVMModule × Executed)
  | .process input | .declare input | .evaluate input =>
      input.parsed.join.map fun M => (M, input.executed)
  | .compileFunction skipped code =>
      if skipped then none else code.parsed.join.map fun M => (M, code.executed)
  | .ForceCodeGen GeneratedPTU executed => some (GeneratedPTU.relink, executed)
  | .Undo _ => none

def sanitized : InterpreterOp → Bool
  | .process _ | .declare _ | .compileFunction _ _ => true
  | _ => false

end InterpreterOp

structure WatchedInterpreter where
  I : TLSInterpreter := {}
  passed : List LLVMModule := []

namespace WatchedInterpreter

def step (watched : WatchedInterpreter) (op : InterpreterOp) : WatchedInterpreter where
  I := watched.I.step op
  passed :=
    match op.generated with
    | some (M, _) => if op.sanitized then M :: watched.passed else watched.passed
    | none => watched.passed

def Deduped (watched : WatchedInterpreter) : Prop := watched.I.Deduped

/-- An earlier module that went through the pass defined the weak thread_local, be it live,
rejected or undone. -/
def Seen (watched : WatchedInterpreter) (name : String) : Prop :=
  ∃ M ∈ watched.passed, M.Has isWeakTLS name

/-- A module may become live if each weak thread_local of it is defined by a live module
exactly when the pass has seen it, and by none if the pass is left out. -/
structure SafeModule (watched : WatchedInterpreter) (M : LLVMModule) (sanitized : Bool) :
    Prop where
  weak : ∀ name, M.Has isWeakTLS name →
    ((sanitized = true ∧ watched.Seen name) ↔ watched.I.LiveHas isSharedTLS name)
  strong : ∀ name, M.Has (fun GV => GV.isSharedTLS && !GV.isWeakTLS) name →
    ¬watched.I.LiveHas isWeakTLS name

def Safe (watched : WatchedInterpreter) (op : InterpreterOp) : Prop :=
  ∀ M executed, op.generated = some (M, executed) → executed.adds = true →
    watched.SafeModule M op.sanitized

end WatchedInterpreter

def handOver (M : LLVMModule) (Defined : List String) : LLVMModule :=
  ⟨M.globals.map (demoteIn Defined), M.unique.map (demoteIn_name Defined)
    (demoteIn_isThreadLocal Defined)⟩

theorem handOver_nil (M : LLVMModule) : handOver M [] = M := by
  obtain ⟨globals, unique⟩ := M
  have same : globals.map (demoteIn []) = globals := by
    conv => rhs; rw [← List.map_id globals]
    apply List.map_congr_left
    intro GV _
    simp [demoteIn]
  simp only [handOver, same]

theorem dedupeWeakEmulatedTLS_fst (M : LLVMModule) (Defined : List String) :
    (dedupeWeakEmulatedTLS M Defined).1 = handOver M Defined := by
  simp only [dedupeWeakEmulatedTLS, handOver, (dedupeGlobals_eq Defined M.globals M.unique).1]

theorem mem_dedupeWeakEmulatedTLS (M : LLVMModule) (Defined : List String) (name : String) :
    name ∈ (dedupeWeakEmulatedTLS M Defined).2 ↔ name ∈ Defined ∨ M.Has isWeakTLS name :=
  (dedupeGlobals_eq Defined M.globals M.unique).2 name

def TLSInterpreter.taken (I : TLSInterpreter) (op : InterpreterOp) : List String :=
  if op.sanitized then I.DedupedWeakTLS else []

namespace TLSInterpreter

def add (I : TLSInterpreter) (M : LLVMModule) (taken : List String) (live : Bool)
    (Defined : List String) : TLSInterpreter where
  PTUs := { generated := some M, TheModule := some (handOver M taken), live := live } :: I.PTUs
  DedupedWeakTLS := Defined

inductive Moves (I : TLSInterpreter) (op : InterpreterOp) : TLSInterpreter → Prop
  | removed (N : Nat) (idle : op.generated = none) : I.Moves op { I with PTUs := I.PTUs.drop N }
  | empty (idle : op.generated = none) : I.Moves op
      { I with PTUs := { generated := none, TheModule := none } :: I.PTUs }
  | added (M : LLVMModule) (executed : Executed) (made : op.generated = some (M, executed)) :
      I.Moves op (I.add M (I.taken op) executed.adds (if op.sanitized then
        (dedupeWeakEmulatedTLS M I.DedupedWeakTLS).2 else I.DedupedWeakTLS))

variable {I : TLSInterpreter} {op : InterpreterOp}

theorem Moves.unchanged (idle : op.generated = none) : I.Moves op I := .removed 0 idle

theorem Moves.passed {M : LLVMModule} {executed : Executed}
    (made : op.generated = some (M, executed)) (sanitized : op.sanitized = true) :
    I.Moves op (((I.Parse (some M)).dedupe M).Execute executed).1 := by
  have added : I.Moves op _ := .added M executed made
  simp only [add, taken, sanitized, if_true, ← dedupeWeakEmulatedTLS_fst] at added
  simp only [Execute, dedupe, Parse, changeNewest, Option.isSome_some, Bool.and_true]
  exact added

theorem Moves.direct {M : LLVMModule} {executed : Executed}
    (made : op.generated = some (M, executed)) (bare : op.sanitized = false) :
    I.Moves op ((I.Parse (some M)).Execute executed).1 := by
  have added : I.Moves op _ := .added M executed made
  simp only [add, taken, bare, Bool.false_eq_true, if_false, handOver_nil] at added
  simp only [Execute, Parse, changeNewest, Option.isSome_some, Bool.and_true]
  exact added

theorem Moves.process {input : Compilation} (sanitized : op.sanitized = true)
    (made : op.generated = input.parsed.join.map fun M => (M, input.executed)) :
    I.Moves op (I.process input).1 := by
  obtain ⟨parsed, executed⟩ := input
  match parsed with
  | none => exact .unchanged made
  | some none =>
      have empty : I.Moves op _ := .empty made
      simp only [TLSInterpreter.process, Execute, Parse, changeNewest, Option.isSome_none,
        Bool.and_false]
      exact empty
  | some (some M) => exact .passed made sanitized

theorem step_moves (I : TLSInterpreter) (op : InterpreterOp) : I.Moves op (I.step op) := by
  cases op with
  | process input => exact .process rfl rfl
  | declare input => exact .process rfl rfl
  | evaluate input =>
      obtain ⟨parsed, executed⟩ := input
      match parsed with
      | none => exact .unchanged rfl
      | some none => exact .empty rfl
      | some (some M) => exact .direct rfl rfl
  | compileFunction skipped code =>
      obtain ⟨parsed, executed⟩ := code
      cases skipped with
      | true => exact .unchanged rfl
      | false =>
          match parsed with
          | none => exact .unchanged rfl
          | some none => exact .empty rfl
          | some (some M) => exact .passed rfl rfl
  | ForceCodeGen GeneratedPTU executed => exact .direct rfl rfl
  | Undo N =>
      simp only [step, Undo]
      by_cases refused : (decide (I.PTUs.length < N) || I.PTUs.isEmpty) = true
      · rw [if_pos refused]
        exact .unchanged rfl
      · rw [if_neg refused]
        exact .removed N rfl

end TLSInterpreter

namespace LLVMModule

variable {M : LLVMModule} {Defined : List String} {name : String}

theorem eq_of_name {first second : GlobalVariable} (left : first ∈ M.globals)
    (right : second ∈ M.globals) (leftLocal : first.isThreadLocal = true)
    (rightLocal : second.isThreadLocal = true) (same : first.name = second.name) :
    first = second := by
  obtain ⟨globals, unique⟩ := M
  simp only at left right
  induction globals with
  | nil => cases left
  | cons GV rest ih =>
      obtain ⟨apart, uniqueRest⟩ := List.pairwise_cons.mp unique
      rcases List.mem_cons.mp left with rfl | laterLeft
      · rcases List.mem_cons.mp right with rfl | laterRight
        · rfl
        · exact absurd same (apart second laterRight leftLocal rightLocal)
      · rcases List.mem_cons.mp right with rfl | laterRight
        · exact absurd same.symm (apart first laterLeft rightLocal leftLocal)
        · exact ih uniqueRest laterLeft laterRight

end LLVMModule

namespace GlobalVariable

variable {GV : GlobalVariable}

theorem isThreadLocal_of_shared (shared : GV.isSharedTLS = true) : GV.isThreadLocal = true := by
  simp only [isSharedTLS, Bool.and_eq_true] at shared
  exact shared.1.1.1

theorem isThreadLocal_of_copy (copy : GV.isExternalCopy = true) : GV.isThreadLocal = true := by
  simp only [isExternalCopy, Bool.and_eq_true] at copy
  exact copy.1.1

theorem shared_of_weak (weak : GV.isWeakTLS = true) : GV.isSharedTLS = true := by
  obtain ⟨name, isThreadLocal, isDeclaration, linkage, comdat⟩ := GV
  cases linkage <;> simp_all [isWeakTLS, isSharedTLS, Linkage.isWeakForLinker, Linkage.isLocal]

theorem copy_not_shared (copy : GV.isExternalCopy = true) : GV.isSharedTLS = false := by
  simp only [isExternalCopy, Bool.and_eq_true, decide_eq_true_eq] at copy
  simp [isSharedTLS, copy.2]

theorem demote_copy (weak : GV.isWeakTLS = true) : GV.demote.isExternalCopy = true := by
  simp only [isWeakTLS, Bool.and_eq_true] at weak
  simp only [isExternalCopy, demote, weak.1.1, weak.1.2, decide_true, Bool.and_self]

end GlobalVariable

section

variable {M : LLVMModule} {Defined : List String} {name : String}

theorem demoteIn_kept {GV : GlobalVariable} (kept : ¬(GV.isWeakTLS = true ∧ GV.name ∈ Defined)) :
    demoteIn Defined GV = GV := by
  simp only [demoteIn, Bool.and_eq_true, decide_eq_true_eq, if_neg kept]

theorem demoteIn_demoted {GV : GlobalVariable} (weak : GV.isWeakTLS = true)
    (defined : GV.name ∈ Defined) : demoteIn Defined GV = GV.demote := by
  simp only [demoteIn, Bool.and_eq_true, decide_eq_true_eq, weak, defined, and_self, if_true]

/-- What a module still defines for others is what the pass did not demote. -/
theorem handOver_shared : (handOver M Defined).Has isSharedTLS name ↔
    ∃ GV ∈ M.globals, GV.isSharedTLS = true ∧ GV.name = name ∧
      ¬(GV.isWeakTLS = true ∧ name ∈ Defined) := by
  constructor
  · rintro ⟨_, present, shared, named⟩
    obtain ⟨GV, source, rfl⟩ := List.mem_map.mp present
    rw [demoteIn_name] at named
    subst named
    by_cases demoted : GV.isWeakTLS = true ∧ GV.name ∈ Defined
    · rw [demoteIn_demoted demoted.1 demoted.2, copy_not_shared (demote_copy demoted.1)] at shared
      cases shared
    · rw [demoteIn_kept demoted] at shared
      exact ⟨GV, source, shared, rfl, demoted⟩
  · rintro ⟨GV, source, shared, named, kept⟩
    subst named
    refine ⟨GV, List.mem_map.mpr ⟨GV, source, demoteIn_kept kept⟩, shared, rfl⟩

theorem handOver_weak : (handOver M Defined).Has isWeakTLS name ↔
    M.Has isWeakTLS name ∧ name ∉ Defined := by
  constructor
  · rintro ⟨_, present, weak, named⟩
    obtain ⟨GV, source, rfl⟩ := List.mem_map.mp present
    rw [demoteIn_name] at named
    subst named
    by_cases demoted : GV.isWeakTLS = true ∧ GV.name ∈ Defined
    · rw [demoteIn_demoted demoted.1 demoted.2] at weak
      have shared := shared_of_weak weak
      rw [copy_not_shared (demote_copy demoted.1)] at shared
      cases shared
    · rw [demoteIn_kept demoted] at weak
      exact ⟨⟨GV, source, weak, rfl⟩, fun defined => demoted ⟨weak, defined⟩⟩
  · rintro ⟨⟨GV, source, weak, named⟩, fresh⟩
    subst named
    refine ⟨GV, List.mem_map.mpr ⟨GV, source, demoteIn_kept ?_⟩, weak, rfl⟩
    exact fun demoted => fresh demoted.2

/-- The available_externally copies of weak definitions are those the pass made. -/
theorem handOver_copy (weak : M.Has isWeakTLS name) :
    (handOver M Defined).Has isExternalCopy name ↔ name ∈ Defined := by
  obtain ⟨GV, source, weak, named⟩ := weak
  subst named
  constructor
  · rintro ⟨_, present, copy, named⟩
    obtain ⟨other, otherSource, rfl⟩ := List.mem_map.mp present
    have otherLocal := isThreadLocal_of_copy copy
    rw [demoteIn_isThreadLocal] at otherLocal
    rw [demoteIn_name] at named
    have same := LLVMModule.eq_of_name otherSource source otherLocal (isThreadLocal_of_weak weak)
      named
    subst same
    by_contra fresh
    rw [demoteIn_kept fun demoted => fresh demoted.2] at copy
    have shared := shared_of_weak weak
    rw [copy_not_shared copy] at shared
    cases shared
  · intro defined
    exact ⟨GV.demote, List.mem_map.mpr ⟨GV, source, demoteIn_demoted weak defined⟩,
      demote_copy weak, rfl⟩

end

namespace PartialTranslationUnit

variable {PTU : PartialTranslationUnit} {kind : GlobalVariable → Bool} {name : String}

theorem not_liveHas (dead : PTU.live = false) : ¬PTU.LiveHas kind name := by
  rintro ⟨live, _⟩
  rw [dead] at live
  cases live

theorem liveHas_iff {M : LLVMModule} (live : PTU.live = true) (module : PTU.TheModule = some M) :
    PTU.LiveHas kind name ↔ M.Has kind name := by
  constructor
  · rintro ⟨_, other, found, has⟩
    rw [module] at found
    cases found
    exact has
  · intro has
    exact ⟨live, M, module, has⟩

theorem LiveHas.shared (weak : PTU.LiveHas isWeakTLS name) : PTU.LiveHas isSharedTLS name := by
  obtain ⟨live, M, module, GV, present, weak, named⟩ := weak
  exact ⟨live, M, module, GV, present, shared_of_weak weak, named⟩

end PartialTranslationUnit

/-- Each demoted copy has a definition in an older unit, so that undoing the newest units does
not take it away. -/
def CoveredBelow : List PartialTranslationUnit → Prop
  | [] => True
  | PTU :: older =>
      (∀ name, PTU.LiveDemoted name → ∃ definer ∈ older, definer.LiveHas isSharedTLS name) ∧
        CoveredBelow older

theorem CoveredBelow.drop {PTUs : List PartialTranslationUnit} (below : CoveredBelow PTUs)
    (N : Nat) : CoveredBelow (PTUs.drop N) := by
  induction PTUs generalizing N with
  | nil =>
      rw [List.drop_nil]
      trivial
  | cons PTU older ih =>
      cases N with
      | zero => exact below
      | succ N => exact ih below.2 N

theorem CoveredBelow.covered {PTUs : List PartialTranslationUnit} (below : CoveredBelow PTUs)
    {PTU : PartialTranslationUnit} (present : PTU ∈ PTUs) {name : String}
    (demoted : PTU.LiveDemoted name) : ∃ definer ∈ PTUs, definer.LiveHas isSharedTLS name := by
  induction PTUs with
  | nil => cases present
  | cons newest older ih =>
      have found : ∃ definer ∈ older, definer.LiveHas isSharedTLS name := by
        rcases List.mem_cons.mp present with rfl | later
        · exact below.1 name demoted
        · exact ih below.2 later
      obtain ⟨definer, member, shared⟩ := found
      exact ⟨definer, List.mem_cons_of_mem _ member, shared⟩

namespace WatchedInterpreter

structure Good (watched : WatchedInterpreter) : Prop where
  single : watched.I.PTUs.Pairwise PartialTranslationUnit.Apart
  below : CoveredBelow watched.I.PTUs
  names : ∀ name, name ∈ watched.I.DedupedWeakTLS ↔ watched.Seen name

variable {watched : WatchedInterpreter} {op : InterpreterOp}

theorem Good.start : ({} : WatchedInterpreter).Good where
  single := List.Pairwise.nil
  below := trivial
  names name := by simp [Seen]

theorem Good.deduped (good : watched.Good) : watched.Deduped :=
  ⟨good.single, fun _ present _ demoted => good.below.covered present demoted⟩

theorem apart_of_dead {PTU other : PartialTranslationUnit} (dead : PTU.live = false) :
    PTU.Apart other := fun _ =>
  ⟨fun both => PartialTranslationUnit.not_liveHas dead both.1,
    fun both => PartialTranslationUnit.not_liveHas dead both.2⟩

theorem Good.mem_taken (good : watched.Good) (name : String) :
    name ∈ watched.I.taken op ↔ op.sanitized = true ∧ watched.Seen name := by
  unfold TLSInterpreter.taken
  cases op.sanitized with
  | false => simp
  | true => simp only [if_true, good.names, true_and]

section

variable {M : LLVMModule}

def liveUnit (watched : WatchedInterpreter) (op : InterpreterOp) (M : LLVMModule) :
    PartialTranslationUnit :=
  { generated := some M, TheModule := some (handOver M (watched.I.taken op)), live := true }

theorem liveUnit_has (kind : GlobalVariable → Bool) (name : String) :
    (watched.liveUnit op M).LiveHas kind name ↔
      (handOver M (watched.I.taken op)).Has kind name :=
  PartialTranslationUnit.liveHas_iff rfl rfl

theorem liveUnit_demoted (name : String) :
    (watched.liveUnit op M).LiveDemoted name ↔
      M.Has isWeakTLS name ∧ name ∈ watched.I.taken op := by
  unfold PartialTranslationUnit.LiveDemoted
  rw [liveUnit_has]
  constructor
  · rintro ⟨⟨generated, found, weak⟩, copy⟩
    cases found
    exact ⟨weak, (handOver_copy weak).mp copy⟩
  · rintro ⟨weak, taken⟩
    exact ⟨⟨M, rfl, weak⟩, (handOver_copy weak).mpr taken⟩

theorem liveUnit_not_shared {name : String} (weak : M.Has isWeakTLS name)
    (taken : name ∈ watched.I.taken op) : ¬(watched.liveUnit op M).LiveHas isSharedTLS name := by
  rw [liveUnit_has, handOver_shared]
  rintro ⟨other, present, shared, named, kept⟩
  obtain ⟨GV, source, weak, same⟩ := weak
  have equal := LLVMModule.eq_of_name present source (isThreadLocal_of_shared shared)
    (isThreadLocal_of_weak weak) (named.trans same.symm)
  subst equal
  exact kept ⟨weak, taken⟩

theorem Good.safe_of_deduped (good : watched.Good)
    (single : ∀ older ∈ watched.I.PTUs, (watched.liveUnit op M).Apart older)
    (covered : ∀ name, (watched.liveUnit op M).LiveDemoted name →
      ∃ definer ∈ watched.liveUnit op M :: watched.I.PTUs, definer.LiveHas isSharedTLS name) :
    watched.SafeModule M op.sanitized where
  weak name weak := by
    rw [← good.mem_taken]
    constructor
    · intro taken
      obtain ⟨definer, member, shared⟩ := covered name ((liveUnit_demoted name).mpr ⟨weak, taken⟩)
      rcases List.mem_cons.mp member with rfl | older
      · exact absurd shared (liveUnit_not_shared weak taken)
      · exact ⟨definer, older, shared⟩
    · rintro ⟨definer, older, shared⟩
      by_contra fresh
      have defines : (watched.liveUnit op M).LiveHas isWeakTLS name := by
        rw [liveUnit_has, handOver_weak]
        exact ⟨weak, fresh⟩
      exact (single definer older name).1 ⟨defines, shared⟩
  strong name strong := by
    rintro ⟨definer, older, weak⟩
    obtain ⟨GV, source, kind, named⟩ := strong
    simp only [Bool.and_eq_true, Bool.not_eq_true'] at kind
    have shared : (watched.liveUnit op M).LiveHas isSharedTLS name := by
      rw [liveUnit_has, handOver_shared]
      refine ⟨GV, source, kind.1, named, ?_⟩
      rintro ⟨demoted, _⟩
      rw [kind.2] at demoted
      cases demoted
    exact (single definer older name).2 ⟨weak, shared⟩

theorem Good.apart_of_safe (good : watched.Good) (safe : watched.SafeModule M op.sanitized) :
    ∀ older ∈ watched.I.PTUs, (watched.liveUnit op M).Apart older := by
  intro older member name
  constructor
  · rintro ⟨weak, shared⟩
    rw [liveUnit_has, handOver_weak] at weak
    exact weak.2 ((good.mem_taken name).mpr ((safe.weak name weak.1).mpr ⟨older, member, shared⟩))
  · rintro ⟨weak, shared⟩
    rw [liveUnit_has, handOver_shared] at shared
    obtain ⟨GV, source, shared, named, kept⟩ := shared
    cases kind : GV.isWeakTLS with
    | true =>
        have defined := (safe.weak name ⟨GV, source, kind, named⟩).mpr ⟨older, member, weak.shared⟩
        exact kept ⟨kind, (good.mem_taken name).mpr defined⟩
    | false =>
        refine safe.strong name ⟨GV, source, ?_, named⟩ ⟨older, member, weak⟩
        simp only [shared, kind, Bool.not_false, Bool.and_self]

theorem Good.below_of_safe (good : watched.Good) (safe : watched.SafeModule M op.sanitized) :
    CoveredBelow (watched.liveUnit op M :: watched.I.PTUs) := by
  refine ⟨fun name demoted => ?_, good.below⟩
  obtain ⟨weak, taken⟩ := (liveUnit_demoted name).mp demoted
  exact (safe.weak name weak).mp ((good.mem_taken name).mp taken)

end

theorem Good.step_names (good : watched.Good) (op : InterpreterOp) (name : String) :
    name ∈ (watched.step op).I.DedupedWeakTLS ↔ (watched.step op).Seen name := by
  have before := good.names name
  have moves := watched.I.step_moves op
  unfold Seen at before ⊢
  simp only [step]
  generalize watched.I.step op = next at moves
  cases moves with
  | removed N idle =>
      rw [idle]
      exact before
  | empty idle =>
      rw [idle]
      exact before
  | added M executed made =>
      rw [made]
      cases sanitized : op.sanitized with
      | false =>
          simp only [TLSInterpreter.add, Bool.false_eq_true, if_false]
          exact before
      | true =>
          simp only [TLSInterpreter.add, if_true]
          rw [mem_dedupeWeakEmulatedTLS, before, List.exists_mem_cons_iff, or_comm]

theorem Good.add_dead (good : watched.Good) {PTU : PartialTranslationUnit}
    (dead : PTU.live = false) :
    (PTU :: watched.I.PTUs).Pairwise PartialTranslationUnit.Apart ∧
      CoveredBelow (PTU :: watched.I.PTUs) :=
  ⟨List.pairwise_cons.mpr ⟨fun _ _ => apart_of_dead dead, good.single⟩,
    fun _ demoted => absurd demoted.2 (PartialTranslationUnit.not_liveHas dead), good.below⟩

theorem Good.step (good : watched.Good) (op : InterpreterOp) (safe : watched.Safe op) :
    (watched.step op).Good := by
  have names := good.step_names op
  have moves := watched.I.step_moves op
  suffices kept : (watched.I.step op).PTUs.Pairwise PartialTranslationUnit.Apart ∧
      CoveredBelow (watched.I.step op).PTUs from ⟨kept.1, kept.2, names⟩
  generalize watched.I.step op = next at moves
  cases moves with
  | removed N idle => exact ⟨good.single.drop, good.below.drop N⟩
  | empty idle => exact good.add_dead rfl
  | added M executed made =>
      cases live : executed.adds with
      | false => exact good.add_dead rfl
      | true =>
          have this_safe := safe M executed made live
          exact ⟨List.pairwise_cons.mpr ⟨good.apart_of_safe this_safe, good.single⟩,
            good.below_of_safe this_safe⟩

/-- A step keeps the variables single and covered exactly when it is safe. -/
theorem Good.step_iff (good : watched.Good) (op : InterpreterOp) :
    (watched.step op).Deduped ↔ watched.Safe op := by
  constructor
  · intro deduped M executed made live
    have moves := watched.I.step_moves op
    unfold Deduped at deduped
    simp only [WatchedInterpreter.step] at deduped
    generalize watched.I.step op = next at moves deduped
    cases moves with
    | removed N idle =>
        rw [idle] at made
        cases made
    | empty idle =>
        rw [idle] at made
        cases made
    | added other outcome otherMade =>
        rw [made] at otherMade
        cases otherMade
        obtain ⟨single, covered⟩ := deduped
        simp only [TLSInterpreter.add, TLSInterpreter.LiveHas, live] at single covered
        exact good.safe_of_deduped (List.pairwise_cons.mp single).1
          fun name demoted => covered _ List.mem_cons_self name demoted
  · intro safe
    exact (good.step op safe).deduped

/-- Along a run every weak thread_local stays single and covered exactly when every module
that becomes live is safe. -/
theorem emulated_tls_iff (ops : List InterpreterOp) :
    Runs.EveryState step Deduped {} ops ↔ Runs.EveryStep step Safe {} ops :=
  Runs.everyState_iff_everyStep Good Deduped Good.start (fun _ good => good.deduped)
    (fun _ op good _ => good.step_iff op) (fun _ op good _ safe => good.step op safe)
    (Runs.everyStep_of_forall fun _ _ => trivial)

def headerUse : LLVMModule where
  globals :=
    [{ name := "tls"
       isThreadLocal := true
       isDeclaration := false
       linkage := .linkOnceODRLinkage
       comdat := some "tls" }]
  unique := List.pairwise_singleton _ _

def redone : List InterpreterOp :=
  [.process ⟨some (some headerUse), .done⟩, .Undo 1, .process ⟨some (some headerUse), .done⟩]

/-- The second module has a demoted copy, and nothing defines the variable any more. -/
theorem emulated_tls_lost : ¬Runs.EveryState step Deduped {} redone := by
  intro every
  have last : (Runs.run step {} redone).I.PTUs =
      [{ generated := some headerUse
         TheModule := some (handOver headerUse ["tls"])
         live := true }] := rfl
  have covered := every.last.covered
  unfold TLSInterpreter.LiveHas at covered
  rw [last] at covered
  obtain ⟨definer, member, shared⟩ := covered _ List.mem_cons_self "tls"
    ⟨⟨headerUse, rfl, _, List.mem_cons_self, rfl, rfl⟩, rfl, _, rfl, _, List.mem_cons_self, rfl, rfl⟩
  rw [List.mem_singleton] at member
  subst member
  obtain ⟨GV, present, _, _, kept⟩ := handOver_shared.mp
    ((PartialTranslationUnit.liveHas_iff rfl rfl).mp shared)
  rw [List.mem_singleton.mp present] at kept
  exact kept ⟨rfl, List.mem_cons_self⟩

end WatchedInterpreter

end CppInterOp
