import Mathlib.Data.List.Forall2
import CppInterOp.PathsCore
import CppInterOp.Library.BitMasks
import CppInterOp.Library.MacroCalls

/-!
`CppInterOpAPI.inc`: the macro calls that cppinterop-tblgen writes for the API records, and the
arguments that a file which includes it finds in them.
-/

namespace CppInterOp

open BitMasks MacroCalls

structure APIArg where
  Ty : StringRef
  Name : StringRef
  Default : StringRef := []
  IsOut : Bool := false
  deriving DecidableEq, Repr

structure APIFunction where
  DispatchName : StringRef
  CppName : StringRef
  ReturnType : StringRef
  Doc : StringRef := []
  Deprecated : StringRef := []
  Args : List APIArg
  deriving DecidableEq, Repr

def APIArg.decl (A : APIArg) : StringRef :=
  A.Ty ++ [' '] ++ A.Name ++ if A.Default = [] then [] else " = ".toList ++ A.Default

def parenthesized (texts : List StringRef) : StringRef :=
  '(' :: (", ".toList.intercalate texts ++ [')'])

def CPPINTEROP_API_FUNC : StringRef := "CPPINTEROP_API_FUNC".toList

def CPPINTEROP_API_OUT : StringRef := "CPPINTEROP_API_OUT".toList

namespace APIFunction

variable (R : APIFunction)

def DeclArgs : StringRef := parenthesized (R.Args.map APIArg.decl)

def CallArgs : StringRef := parenthesized (R.Args.map APIArg.Name)

def RawArgTypes : StringRef := parenthesized (R.Args.map APIArg.Ty)

def outs : List Bool := R.Args.map APIArg.IsOut

/-- The loop ends behind 64 arguments, the bits of the mask. -/
def Mask : Nat := maskFrom 0 (R.outs.take 64)

def emitFunc : StringRef :=
  CPPINTEROP_API_FUNC ++ '(' :: (R.DispatchName ++ ", ".toList ++ R.CppName ++
    ", ".toList ++ R.ReturnType ++ ", ".toList ++ R.DeclArgs ++ ", ".toList ++ R.CallArgs ++
    ", ".toList ++ R.RawArgTypes ++ ")\n".toList)

def maskText : StringRef := "0x".toList ++ Nat.toDigits 16 R.Mask ++ "ULL".toList

def emitOut : StringRef :=
  CPPINTEROP_API_OUT ++ '(' :: (R.CppName ++ ", ".toList ++ R.maskText ++ ")\n".toList)

end APIFunction

def EmitCppInterOpAPI (Records : List APIFunction) : List StringRef :=
  Records.flatMap fun R => [R.emitFunc, R.emitOut]

def macroCall (macroName line : StringRef) : Option (List StringRef) :=
  if macroName ++ ['('] <+: line then
    (arguments {} [] (line.drop (macroName.length + 1))).map (List.map StringRef.trim)
  else none

def macroCalls (macroName : StringRef) (lines : List StringRef) : List (List StringRef) :=
  lines.filterMap (macroCall macroName)

namespace APIFunction

def funcCall (R : APIFunction) : List StringRef :=
  [R.DispatchName, R.CppName, R.ReturnType, R.DeclArgs, R.CallArgs, R.RawArgTypes]

end APIFunction

/-- Blanks do not count around it, and a macro call reads it as one argument. -/
structure Single (text : StringRef) : Prop where
  closed : Closed text
  whole : separators {} text = 0
  trimmed : text.trim = text

instance (text : StringRef) : Decidable (Single text) :=
  decidable_of_iff (Closed text ∧ separators {} text = 0 ∧ text.trim = text)
    ⟨fun facts => ⟨facts.1, facts.2.1, facts.2.2⟩, fun single => ⟨single.1, single.2, single.3⟩⟩

namespace APIFunction

/-- The texts of a record close what they open; the type that is returned may have commas. -/
structure Written (R : APIFunction) : Prop where
  dispatchName : Single R.DispatchName
  cppName : Single R.CppName
  returnType : Closed R.ReturnType
  trimmed : R.ReturnType.trim = R.ReturnType
  args : ∀ A ∈ R.Args, Closed A.Ty ∧ Closed A.Name ∧ Closed A.Default

instance (R : APIFunction) : Decidable R.Written :=
  decidable_of_iff (Single R.DispatchName ∧ Single R.CppName ∧ Closed R.ReturnType ∧
      R.ReturnType.trim = R.ReturnType ∧
      ∀ A ∈ R.Args, Closed A.Ty ∧ Closed A.Name ∧ Closed A.Default)
    ⟨fun facts => ⟨facts.1, facts.2.1, facts.2.2.1, facts.2.2.2.1, facts.2.2.2.2⟩,
      fun written => ⟨written.1, written.2, written.3, written.4, written.5⟩⟩

end APIFunction

section Texts

variable {text rest : StringRef} {R : APIFunction}

theorem trim_space : StringRef.trim (' ' :: text) = text.trim := rfl

theorem trim_parenthesized (texts : List StringRef) :
    (parenthesized texts).trim = parenthesized texts := by
  have ends : (parenthesized texts).reverse =
      ')' :: ('(' :: ", ".toList.intercalate texts).reverse := by
    simp [parenthesized]
  rw [StringRef.trim, parenthesized, List.dropWhile_cons_of_neg (by decide), ← parenthesized, ends,
    List.dropWhile_cons_of_neg (by decide), ← ends, List.reverse_reverse]

theorem single_parenthesized {texts : List StringRef} (closed : ∀ part ∈ texts, Closed part) :
    Single (parenthesized texts) := by
  have inner := @closed_intercalate ", ".toList texts (by decide) closed
  exact ⟨closed_parenthesized inner, separators_parenthesized inner, trim_parenthesized texts⟩

theorem Single.spaced (single : Single text) (rest : StringRef) :
    arguments {} [] (' ' :: (text ++ ',' :: rest)) =
      (arguments {} [] rest).map ((' ' :: text) :: ·) := by
  have read := @arguments_whole {} {} [] (' ' :: text) (',' :: rest) single.closed
    ((Nat.zero_add _).trans single.whole)
  exact read.trans arguments_comma

theorem Single.spaced_end (single : Single text) (rest : StringRef) :
    arguments {} [] (' ' :: (text ++ ')' :: rest)) = some [' ' :: text] :=
  @arguments_whole {} {} [] (' ' :: text) (')' :: rest) single.closed
    ((Nat.zero_add _).trans single.whole)

theorem Single.read (single : Single text) (rest : StringRef) :
    arguments {} [] (text ++ ',' :: rest) = (arguments {} [] rest).map (text :: ·) :=
  (arguments_whole single.closed single.whole).trans arguments_comma

end Texts

namespace APIFunction

variable {R : APIFunction}

theorem Written.declArgs (written : R.Written) : Single R.DeclArgs := by
  refine single_parenthesized fun text member => ?_
  obtain ⟨A, declared, rfl⟩ := List.mem_map.mp member
  obtain ⟨type, name, default⟩ := written.args A declared
  refine Closed.append (Closed.append (type.append (by decide)) name) ?_
  split
  · rfl
  · exact Closed.append (by decide) default

theorem Written.callArgs (written : R.Written) : Single R.CallArgs := by
  refine single_parenthesized fun text member => ?_
  obtain ⟨A, declared, rfl⟩ := List.mem_map.mp member
  exact (written.args A declared).2.1

theorem Written.rawArgTypes (written : R.Written) : Single R.RawArgTypes := by
  refine single_parenthesized fun text member => ?_
  obtain ⟨A, declared, rfl⟩ := List.mem_map.mp member
  exact (written.args A declared).1

def behind (R : APIFunction) : StringRef :=
  ' ' :: (R.DeclArgs ++ ',' :: ' ' :: (R.CallArgs ++ ',' :: ' ' :: (R.RawArgTypes ++ [')', '\n'])))

theorem comma_space : ", ".toList = [',', ' '] := rfl

theorem call_end : ")\n".toList = [')', '\n'] := rfl

theorem emitFunc_eq : R.emitFunc = CPPINTEROP_API_FUNC ++ '(' ::
    (R.DispatchName ++ ',' :: ' ' :: (R.CppName ++ ',' :: ' ' ::
      (R.ReturnType ++ ',' :: R.behind))) := by
  simp only [emitFunc, behind, comma_space, call_end, List.append_assoc, List.cons_append,
    List.nil_append]

theorem emitOut_eq : R.emitOut = CPPINTEROP_API_OUT ++ '(' ::
    (R.CppName ++ ',' :: ' ' :: (R.maskText ++ [')', '\n'])) := by
  simp only [emitOut, comma_space, call_end, List.append_assoc, List.cons_append, List.nil_append]

theorem Written.behind (written : R.Written) :
    arguments {} [] R.behind = some [' ' :: R.DeclArgs, ' ' :: R.CallArgs, ' ' :: R.RawArgTypes] := by
  rw [APIFunction.behind, written.declArgs.spaced, written.callArgs.spaced,
    written.rawArgTypes.spaced_end]
  rfl

end APIFunction

theorem macroCall_of_name (macroName text : StringRef) :
    macroCall macroName (macroName ++ '(' :: text) =
      (arguments {} [] text).map (List.map StringRef.trim) := by
  have cut : macroName ++ '(' :: text = macroName ++ ['('] ++ text := by
    rw [List.append_assoc, List.singleton_append]
  rw [macroCall, cut, if_pos (List.prefix_append _ _), List.drop_left' (by simp)]

theorem macroCall_of_other {macroName other : StringRef} (text : StringRef)
    (apart : ¬macroName ++ ['('] <+: other ++ ['('])
    (alsoApart : ¬other ++ ['('] <+: macroName ++ ['(']) :
    macroCall macroName (other ++ '(' :: text) = none := by
  refine if_neg fun starts => ?_
  have whole : other ++ ['('] <+: other ++ '(' :: text :=
    ⟨text, by rw [List.append_assoc, List.singleton_append]⟩
  exact (List.prefix_or_prefix_of_prefix starts whole).elim apart alsoApart

namespace APIFunction

variable {R : APIFunction}

/-- The record comes back from the call, unless the type that is returned brings more arguments. -/
theorem Written.macroCall_func (written : R.Written) :
    ∃ call, macroCall CPPINTEROP_API_FUNC R.emitFunc = some call ∧
      call.length = 6 + separators {} R.ReturnType ∧
      (separators {} R.ReturnType = 0 → call = R.funcCall) := by
  have last : ∀ current, (arguments {} current (',' :: R.behind)).map List.length = some 4 := by
    intro current
    rw [arguments_comma, written.behind]
    rfl
  have count := @length_arguments {} {} [] (' ' :: R.ReturnType) (',' :: R.behind)
    written.returnType 4 last
  have spaced : separators {} (' ' :: R.ReturnType) = separators {} R.ReturnType := Nat.zero_add _
  cases middle : arguments {} [] (' ' :: (R.ReturnType ++ ',' :: R.behind)) with
  | none =>
      rw [List.cons_append, middle] at count
      cases count
  | some parts =>
      have whole : macroCall CPPINTEROP_API_FUNC R.emitFunc =
          some ((R.DispatchName :: (' ' :: R.CppName) :: parts).map StringRef.trim) := by
        rw [emitFunc_eq, macroCall_of_name, written.dispatchName.read, written.cppName.spaced, middle]
        rfl
      refine ⟨_, whole, ?_, fun single => ?_⟩
      · rw [List.cons_append, middle, Option.map_some, Option.some.injEq, spaced] at count
        rw [List.length_map, List.length_cons, List.length_cons, count]
        omega
      · have returned : Single R.ReturnType := ⟨written.returnType, single, written.trimmed⟩
        rw [returned.spaced, written.behind, Option.map_some, Option.some.injEq] at middle
        simp only [← middle, List.map_cons, List.map_nil, trim_space, written.dispatchName.trimmed,
          written.cppName.trimmed, returned.trimmed, written.declArgs.trimmed,
          written.callArgs.trimmed, written.rawArgTypes.trimmed, funcCall]

theorem macroCall_func_out : macroCall CPPINTEROP_API_FUNC R.emitOut = none := by
  rw [emitOut_eq]
  exact macroCall_of_other _ (by decide) (by decide)

end APIFunction

theorem macroCalls_emit {Records : List APIFunction} (written : ∀ R ∈ Records, R.Written) :
    List.Forall₂ (fun R call => call.length = 6 + separators {} R.ReturnType ∧
        (separators {} R.ReturnType = 0 → call = R.funcCall))
      Records (macroCalls CPPINTEROP_API_FUNC (EmitCppInterOpAPI Records)) := by
  induction Records with
  | nil => exact .nil
  | cons R Records ih =>
      obtain ⟨call, read, given⟩ := (written R List.mem_cons_self).macroCall_func
      rw [macroCalls, EmitCppInterOpAPI, List.flatMap_cons, List.cons_append, List.cons_append,
        List.filterMap_cons_some read, List.filterMap_cons_none APIFunction.macroCall_func_out]
      exact .cons given (ih fun other member => written other (List.mem_cons_of_mem _ member))

theorem macroCalls_of_single {Records : List APIFunction} (written : ∀ R ∈ Records, R.Written)
    (single : ∀ R ∈ Records, separators {} R.ReturnType = 0) :
    macroCalls CPPINTEROP_API_FUNC (EmitCppInterOpAPI Records) =
      Records.map APIFunction.funcCall := by
  have calls := macroCalls_emit written
  revert calls
  generalize macroCalls CPPINTEROP_API_FUNC (EmitCppInterOpAPI Records) = calls
  intro calls
  induction calls with
  | nil => rfl
  | cons given _ ih =>
      rw [List.forall_mem_cons] at written single
      rw [List.map_cons, given.2 single.1, ih written.2 single.2]

/-- The macro calls of the file give the records back exactly when no type that a function returns has
a comma outside parentheses. -/
theorem emitCppInterOpAPI_read_iff {Records : List APIFunction} (written : ∀ R ∈ Records, R.Written) :
    macroCalls CPPINTEROP_API_FUNC (EmitCppInterOpAPI Records) = Records.map APIFunction.funcCall ↔
      ∀ R ∈ Records, separators {} R.ReturnType = 0 := by
  refine ⟨fun read R member => ?_, macroCalls_of_single written⟩
  have calls := macroCalls_emit written
  rw [read, List.forall₂_map_right_iff, List.forall₂_same] at calls
  have six : R.funcCall.length = 6 := rfl
  have length := (calls R member).1
  rw [six] at length
  exact Nat.left_eq_add.mp length

/-- A lookup among the entries of the records goes to the first record of the name. -/
theorem lookup_first {Value : Type} {Records : List APIFunction} (name : APIFunction → StringRef)
    (value : APIFunction → Value) {R : APIFunction} (member : R ∈ Records) :
    ∃ first ∈ Records, name first = name R ∧
      (Records.map fun R => (name R, value R)).lookup (name R) = some (value first) := by
  induction Records with
  | nil => cases member
  | cons other Records ih =>
      by_cases here : name other = name R
      · refine ⟨other, List.mem_cons_self, here, ?_⟩
        rw [List.map_cons, ← here, List.lookup_cons_self]
      · have later : R ∈ Records :=
          (List.mem_cons.mp member).resolve_left fun same => here (congrArg name same.symm)
        obtain ⟨first, alsoMember, same, found⟩ := ih later
        refine ⟨first, List.mem_cons_of_mem _ alsoMember, same, ?_⟩
        have apart : (name R == name other) = false := by
          rw [beq_eq_false_iff_ne]
          exact fun equal => here equal.symm
        rw [List.map_cons, List.lookup_cons, apart]
        exact found

def GetFunctionAddress_str : APIFunction where
  DispatchName := "GetFunctionAddress_str".toList
  CppName := "GetFunctionAddress".toList
  ReturnType := "void*".toList
  Args := [⟨"const char*".toList, "mangled_name".toList, [], false⟩]

def GetFunctionAddress_fn : APIFunction where
  DispatchName := "GetFunctionAddress_fn".toList
  CppName := "GetFunctionAddress".toList
  ReturnType := "void*".toList
  Args := [⟨"FuncRef".toList, "method".toList, [], false⟩]

def getInterpreterRecord : APIFunction where
  DispatchName := "GetInterpreter".toList
  CppName := "GetInterpreter".toList
  ReturnType := "InterpRef".toList
  Args := []

def createInterpreterRecord : APIFunction where
  DispatchName := "CreateInterpreter".toList
  CppName := "CreateInterpreter".toList
  ReturnType := "InterpRef".toList
  Args :=
    [⟨"const std::vector<const char*>&".toList, "Args".toList, "\x7b\x7d".toList, false⟩,
      ⟨"const std::vector<const char*>&".toList, "GpuArgs".toList, "\x7b\x7d".toList, false⟩]

def overloadRecords : List APIFunction :=
  [getInterpreterRecord, createInterpreterRecord, GetFunctionAddress_str, GetFunctionAddress_fn]

theorem overloadRecords_written : ∀ R ∈ overloadRecords, R.Written := by decide

theorem emitCppInterOpAPI_read_overloads :
    macroCalls CPPINTEROP_API_FUNC (EmitCppInterOpAPI overloadRecords) =
      overloadRecords.map APIFunction.funcCall :=
  (emitCppInterOpAPI_read_iff overloadRecords_written).mpr (by decide)

end CppInterOp
