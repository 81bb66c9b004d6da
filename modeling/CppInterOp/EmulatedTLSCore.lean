import CppInterOp.Basic

/-!
The modules that the interpreter hands to the JIT, for ELF targets and a clang before 24:
each duplicate of a weak thread_local is demoted first, on some of the paths. What clang
makes of an input, and whether the JIT takes the module, is given with each operation.
-/

namespace CppInterOp

inductive Linkage
  | externalLinkage
  | availableExternallyLinkage
  | linkOnceAnyLinkage
  | linkOnceODRLinkage
  | weakAnyLinkage
  | weakODRLinkage
  | appendingLinkage
  | internalLinkage
  | privateLinkage
  | externalWeakLinkage
  | commonLinkage
  deriving DecidableEq, Repr

namespace Linkage

def isWeakForLinker : Linkage → Bool
  | .weakAnyLinkage | .weakODRLinkage | .linkOnceAnyLinkage | .linkOnceODRLinkage | .commonLinkage | .externalWeakLinkage => true
  | _ => false

def isDiscardableIfUnused : Linkage → Bool
  | .linkOnceAnyLinkage | .linkOnceODRLinkage | .internalLinkage | .privateLinkage | .availableExternallyLinkage => true
  | _ => false

def isLocal : Linkage → Bool
  | .internalLinkage | .privateLinkage => true
  | _ => false

end Linkage

structure GlobalVariable where
  name : String
  isThreadLocal : Bool
  isDeclaration : Bool
  linkage : Linkage
  comdat : Option String := none
  deriving DecidableEq, Repr

namespace GlobalVariable

def isWeakTLS (GV : GlobalVariable) : Bool :=
  GV.isThreadLocal && !GV.isDeclaration && GV.linkage.isWeakForLinker

def isSharedTLS (GV : GlobalVariable) : Bool :=
  GV.isThreadLocal && !GV.isDeclaration && GV.linkage ≠ .availableExternallyLinkage &&
    !GV.linkage.isLocal

def isExternalCopy (GV : GlobalVariable) : Bool :=
  GV.isThreadLocal && !GV.isDeclaration && GV.linkage = .availableExternallyLinkage

def demote (GV : GlobalVariable) : GlobalVariable :=
  { GV with linkage := .availableExternallyLinkage, comdat := none }

def relink (GV : GlobalVariable) : GlobalVariable :=
  if GV.isDeclaration || GV.name = "" || GV.name.startsWith ".str" ||
      !GV.linkage.isDiscardableIfUnused || GV.linkage ≠ .internalLinkage then GV
  else { GV with linkage := .weakAnyLinkage }

theorem isThreadLocal_of_weak {GV : GlobalVariable} (weak : GV.isWeakTLS = true) :
    GV.isThreadLocal = true := by
  simp only [isWeakTLS, Bool.and_eq_true] at weak
  exact weak.1.1

theorem not_isWeakTLS (GV : GlobalVariable) :
    (!GV.isThreadLocal || GV.isDeclaration || !GV.linkage.isWeakForLinker) = !GV.isWeakTLS := by
  rw [isWeakTLS, Bool.not_and, Bool.not_and, Bool.not_not]

end GlobalVariable

def UniqueTLS (globals : List GlobalVariable) : Prop :=
  globals.Pairwise fun first second =>
    first.isThreadLocal = true → second.isThreadLocal = true → first.name ≠ second.name

structure LLVMModule where
  globals : List GlobalVariable
  unique : UniqueTLS globals

def dedupeGlobals (Defined : List String) :
    List GlobalVariable → List GlobalVariable × List String
  | [] => ([], Defined)
  | GV :: rest =>
      if !GV.isThreadLocal || GV.isDeclaration || !GV.linkage.isWeakForLinker then
        let others := dedupeGlobals Defined rest
        (GV :: others.1, others.2)
      else if GV.name ∈ Defined then
        let others := dedupeGlobals Defined rest
        (GV.demote :: others.1, others.2)
      else
        let others := dedupeGlobals (GV.name :: Defined) rest
        (GV :: others.1, others.2)

def demoteIn (Defined : List String) (GV : GlobalVariable) : GlobalVariable :=
  if GV.isWeakTLS && decide (GV.name ∈ Defined) then GV.demote else GV

theorem demoteIn_name (Defined : List String) (GV : GlobalVariable) :
    (demoteIn Defined GV).name = GV.name := by
  unfold demoteIn
  split <;> rfl

theorem demoteIn_isThreadLocal (Defined : List String) (GV : GlobalVariable) :
    (demoteIn Defined GV).isThreadLocal = GV.isThreadLocal := by
  unfold demoteIn
  split <;> rfl

theorem demoteIn_cons {Defined : List String} {name : String} {globals : List GlobalVariable}
    (apart : ∀ GV ∈ globals, GV.isThreadLocal = true → name ≠ GV.name) :
    globals.map (demoteIn (name :: Defined)) = globals.map (demoteIn Defined) := by
  apply List.map_congr_left
  intro GV present
  unfold demoteIn
  cases weak : GV.isWeakTLS with
  | false => rfl
  | true =>
      have other : GV.name ≠ name :=
        (apart GV present (GlobalVariable.isThreadLocal_of_weak weak)).symm
      simp only [List.mem_cons, other, false_or]

/-- The names of a module are its own, so the pass decides each global by the names that were
defined before it. -/
theorem dedupeGlobals_eq (Defined : List String) (globals : List GlobalVariable)
    (unique : UniqueTLS globals) :
    (dedupeGlobals Defined globals).1 = globals.map (demoteIn Defined) ∧
      ∀ name, name ∈ (dedupeGlobals Defined globals).2 ↔
        name ∈ Defined ∨ ∃ GV ∈ globals, GV.isWeakTLS = true ∧ GV.name = name := by
  induction globals generalizing Defined with
  | nil => exact ⟨rfl, by simp [dedupeGlobals]⟩
  | cons GV rest ih =>
      have apart := (List.pairwise_cons.mp unique).1
      have uniqueRest : UniqueTLS rest := (List.pairwise_cons.mp unique).2
      cases weak : GV.isWeakTLS with
      | false =>
          have skipped := GV.not_isWeakTLS
          rw [weak, Bool.not_false] at skipped
          obtain ⟨globals, names⟩ := ih Defined uniqueRest
          have kept : demoteIn Defined GV = GV := by simp [demoteIn, weak]
          simp only [dedupeGlobals, skipped, if_true, globals, List.map_cons, kept, names,
            List.exists_mem_cons_iff, weak, Bool.false_eq_true, false_and, false_or, true_and,
            implies_true]
      | true =>
          have threadLocal := GlobalVariable.isThreadLocal_of_weak weak
          have visited := GV.not_isWeakTLS
          rw [weak, Bool.not_true] at visited
          by_cases defined : GV.name ∈ Defined
          · obtain ⟨globals, names⟩ := ih Defined uniqueRest
            have demoted : demoteIn Defined GV = GV.demote := by simp [demoteIn, weak, defined]
            simp only [dedupeGlobals, visited, Bool.false_eq_true, if_false, defined, if_true,
              globals, List.map_cons, demoted, names, List.exists_mem_cons_iff, weak, true_and]
            intro name
            constructor
            · rintro (before | later)
              · exact Or.inl before
              · exact Or.inr (Or.inr later)
            · rintro (before | rfl | later)
              · exact Or.inl before
              · exact Or.inl defined
              · exact Or.inr later
          · obtain ⟨globals, names⟩ := ih (GV.name :: Defined) uniqueRest
            have kept : demoteIn Defined GV = GV := by simp [demoteIn, defined]
            have others : rest.map (demoteIn (GV.name :: Defined)) = rest.map (demoteIn Defined) :=
              demoteIn_cons fun other present => apart other present threadLocal
            simp only [dedupeGlobals, visited, Bool.false_eq_true, if_false, defined, globals,
              others, List.map_cons, kept, true_and]
            intro name
            rw [names, List.mem_cons, List.exists_mem_cons_iff]
            constructor
            · rintro ((here | before) | later)
              · exact Or.inr (Or.inl ⟨weak, here.symm⟩)
              · exact Or.inl before
              · exact Or.inr (Or.inr later)
            · rintro (before | ⟨_, here⟩ | later)
              · exact Or.inl (Or.inr before)
              · exact Or.inl (Or.inl here.symm)
              · exact Or.inr later

theorem UniqueTLS.map {globals : List GlobalVariable} {change : GlobalVariable → GlobalVariable}
    (unique : UniqueTLS globals) (name : ∀ GV, (change GV).name = GV.name)
    (threadLocal : ∀ GV, (change GV).isThreadLocal = GV.isThreadLocal) :
    UniqueTLS (globals.map change) := by
  unfold UniqueTLS at unique ⊢
  rw [List.pairwise_map]
  refine unique.imp ?_
  intro first second apart
  rw [threadLocal, threadLocal, name, name]
  exact apart

def dedupeWeakEmulatedTLS (M : LLVMModule) (Defined : List String) :
    LLVMModule × List String :=
  (⟨(dedupeGlobals Defined M.globals).1, by
    rw [(dedupeGlobals_eq Defined M.globals M.unique).1]
    exact M.unique.map (demoteIn_name Defined) (demoteIn_isThreadLocal Defined)⟩,
    (dedupeGlobals Defined M.globals).2)

theorem GlobalVariable.relink_name (GV : GlobalVariable) : GV.relink.name = GV.name := by
  unfold relink
  split <;> rfl

theorem GlobalVariable.relink_isThreadLocal (GV : GlobalVariable) :
    GV.relink.isThreadLocal = GV.isThreadLocal := by
  unfold relink
  split <;> rfl

def LLVMModule.relink (M : LLVMModule) : LLVMModule :=
  ⟨M.globals.map GlobalVariable.relink,
    M.unique.map GlobalVariable.relink_name GlobalVariable.relink_isThreadLocal⟩

/-- What `clang::Interpreter::Execute` does: the module is added and its constructors run, it
is not added, or it is added and a constructor fails. -/
inductive Executed
  | done
  | rejected
  | threw
  deriving DecidableEq, Repr

def Executed.adds : Executed → Bool
  | .rejected => false
  | _ => true

/-- `generated` is the module before a pass of the interpreter changed it. -/
structure PartialTranslationUnit where
  generated : Option LLVMModule
  TheModule : Option LLVMModule
  live : Bool := false

/-- The units after those of the start-up, the newest first. -/
structure TLSInterpreter where
  PTUs : List PartialTranslationUnit := []
  DedupedWeakTLS : List String := []

/-- What clang makes of one input; the outer `none` is an error of the parser. -/
structure Compilation where
  parsed : Option (Option LLVMModule)
  executed : Executed

namespace TLSInterpreter

def Parse (I : TLSInterpreter) (generated : Option LLVMModule) : TLSInterpreter :=
  { I with PTUs := { generated := generated, TheModule := generated } :: I.PTUs }

def changeNewest (I : TLSInterpreter)
    (change : PartialTranslationUnit → PartialTranslationUnit) : TLSInterpreter :=
  match I.PTUs with
  | [] => I
  | newest :: older => { I with PTUs := change newest :: older }

def Execute (I : TLSInterpreter) (executed : Executed) : TLSInterpreter × Bool :=
  (I.changeNewest fun PTU => { PTU with live := executed.adds && PTU.TheModule.isSome },
    executed = .done)

def dedupe (I : TLSInterpreter) (M : LLVMModule) : TLSInterpreter :=
  let (M, DedupedWeakTLS) := dedupeWeakEmulatedTLS M I.DedupedWeakTLS
  { I.changeNewest (fun PTU => { PTU with TheModule := some M }) with
    DedupedWeakTLS := DedupedWeakTLS }

inductive CompilationResult
  | kSuccess
  | kFailure
  deriving DecidableEq, Repr

/-- `V` holds if a value is asked for; that is left to clang, which knows nothing of the
pass. -/
def ParseAndExecute (I : TLSInterpreter) (code : Compilation) (V : Bool) :
    TLSInterpreter × Bool :=
  match code.parsed with
  | none => (I, false)
  | some none => (I.Parse none, true)
  | some (some M) =>
      let I := I.Parse (some M)
      if V then I.Execute code.executed
      else (I.dedupe M).Execute code.executed

def process (I : TLSInterpreter) (input : Compilation) : TLSInterpreter × CompilationResult :=
  match input.parsed with
  | none => (I, .kFailure)
  | some generated =>
      let I := I.Parse generated
      let I :=
        match generated with
        | some M => I.dedupe M
        | none => I
      let (I, succeeded) := I.Execute input.executed
      (I, if succeeded then .kSuccess else .kFailure)

def declare (I : TLSInterpreter) (input : Compilation) : TLSInterpreter × CompilationResult :=
  I.process input

def evaluate (I : TLSInterpreter) (input : Compilation) : TLSInterpreter × CompilationResult :=
  let (I, succeeded) := I.ParseAndExecute input true
  (I, if succeeded then .kSuccess else .kFailure)

/-- `skipped` holds in syntax-only mode, and for `ifUnique` when the name has an address. -/
def compileFunction (I : TLSInterpreter) (skipped : Bool) (code : Compilation) :
    TLSInterpreter :=
  if skipped then I else (I.ParseAndExecute code false).1

def ForceCodeGen (I : TLSInterpreter) (GeneratedPTU : LLVMModule) (executed : Executed) :
    TLSInterpreter :=
  let I := I.Parse (some GeneratedPTU)
  let I := I.changeNewest fun PTU =>
    { PTU with generated := some GeneratedPTU.relink, TheModule := some GeneratedPTU.relink }
  (I.Execute executed).1

def Undo (I : TLSInterpreter) (N : Nat) : TLSInterpreter × CompilationResult :=
  if I.PTUs.length < N || I.PTUs.isEmpty then (I, .kFailure)
  else ({ I with PTUs := I.PTUs.drop N }, .kSuccess)

end TLSInterpreter

inductive InterpreterOp
  | process (input : Compilation)
  | declare (input : Compilation)
  | evaluate (input : Compilation)
  | compileFunction (skipped : Bool) (code : Compilation)
  | ForceCodeGen (GeneratedPTU : LLVMModule) (executed : Executed)
  | Undo (N : Nat)

def TLSInterpreter.step (I : TLSInterpreter) : InterpreterOp → TLSInterpreter
  | .process input => (I.process input).1
  | .declare input => (I.declare input).1
  | .evaluate input => (I.evaluate input).1
  | .compileFunction skipped code => I.compileFunction skipped code
  | .ForceCodeGen GeneratedPTU executed => I.ForceCodeGen GeneratedPTU executed
  | .Undo N => (I.Undo N).1

end CppInterOp
