import CppInterOp.EmitterAPI

/-!
The check that a traced function wraps its output parameters: the masks that the trace reads from
`CppInterOpAPI.inc`, and when the check tells right calls from wrong ones.
-/

namespace CppInterOp

open BitMasks MacroCalls

def integerLiteral : StringRef → Option Nat
  | '0' :: 'x' :: rest =>
      let digits := rest.takeWhile (· ∈ hexDigits)
      if digits ≠ [] ∧ rest.drop digits.length = "ULL".toList then some (hexValue digits) else none
  | _ => none

def outEntry : List StringRef → Option (StringRef × Nat)
  | [CN, OutMask] => (integerLiteral OutMask).map fun mask => (CN, mask)
  | _ => none

/-- The map is made once, of the calls of the other macro; it keeps the first of several entries. -/
def outMasks (lines : List StringRef) : Option (List (StringRef × Nat)) :=
  (macroCalls CPPINTEROP_API_OUT lines).mapM outEntry

def lookupOutMask (masks : List (StringRef × Nat)) (Name : StringRef) : Option Nat :=
  masks.lookup Name

def computeOutMask (Args : List Bool) : Nat := maskFrom 0 Args

def hexUpper (n : Nat) : StringRef := "0x".toList ++ (Nat.toDigits 16 n).map Char.toUpper

def formatOutMaskMismatchMessage (Name : StringRef) (expected actual : Nat) : StringRef :=
  "ERROR: INTEROP_OUT coverage mismatch in '".toList ++ Name ++ "': .td OutArg mask ".toList ++
    hexUpper expected ++ " vs INTEROP_OUT-wrapped args ".toList ++ hexUpper actual ++ ".\n".toList

def outMaskReport (masks : List (StringRef × Nat)) (Name : StringRef) (Args : List Bool) :
    Option StringRef :=
  match lookupOutMask masks Name with
  | none => none
  | some Expected =>
      if Expected ≠ computeOutMask Args then
        some (formatOutMaskMismatchMessage Name Expected (computeOutMask Args))
      else none

section Literals

def literalChars : List Char := hexDigits ++ "xUL".toList

theorem literalChars_plain : (literalChars.all fun c =>
    c ∉ marks ∧ c ∉ [' ', '\t', '\n', '\x0b', '\x0c', '\r']) = true := by decide

theorem dropWhile_of_none {blank : Char → Bool} {text : StringRef}
    (none_blank : ∀ c ∈ text, blank c = false) : text.dropWhile blank = text := by
  cases text with
  | nil => rfl
  | cons c rest =>
      rw [List.dropWhile_cons_of_neg]
      rw [none_blank c List.mem_cons_self]
      exact Bool.false_ne_true

theorem single_of_literal {text : StringRef} (literal : ∀ c ∈ text, c ∈ literalChars) :
    Single text := by
  have plain : ∀ c ∈ text, c ∉ marks ∧ c ∉ [' ', '\t', '\n', '\x0b', '\x0c', '\r'] := fun c member =>
    of_decide_eq_true (List.all_eq_true.mp literalChars_plain c (literal c member))
  obtain ⟨closed, whole⟩ := scanned_unmarked fun c member => (plain c member).1
  have unblank : ∀ c ∈ text, decide (c ∈ [' ', '\t', '\n', '\x0b', '\x0c', '\r']) = false :=
    fun c member => decide_eq_false (plain c member).2
  refine ⟨closed, whole, ?_⟩
  rw [StringRef.trim, dropWhile_of_none unblank,
    dropWhile_of_none fun c member => unblank c (List.mem_reverse.mp member), List.reverse_reverse]

variable {R : APIFunction}

theorem literal_of_all {text : StringRef} (all : (text.all fun c => c ∈ literalChars) = true) :
    ∀ c ∈ text, c ∈ literalChars := fun c member =>
  of_decide_eq_true (List.all_eq_true.mp all c member)

theorem single_maskText : Single R.maskText := by
  have digits : ∀ c ∈ Nat.toDigits 16 R.Mask, c ∈ literalChars := fun c member =>
    List.mem_append_left _ ((toDigits_hex R.Mask).1 c member)
  refine single_of_literal ?_
  rw [APIFunction.maskText]
  exact List.forall_mem_append.mpr
    ⟨List.forall_mem_append.mpr ⟨literal_of_all (by decide), digits⟩, literal_of_all (by decide)⟩

theorem integerLiteral_maskText : integerLiteral R.maskText = some R.Mask := by
  obtain ⟨digits, value⟩ := toDigits_hex R.Mask
  have hex : (Nat.toDigits 16 R.Mask ++ "ULL".toList).takeWhile (fun c => decide (c ∈ hexDigits)) =
      Nat.toDigits 16 R.Mask := by
    rw [List.takeWhile_append_of_pos fun c member => decide_eq_true (digits c member)]
    exact List.append_nil _
  have shape : R.maskText = '0' :: 'x' :: (Nat.toDigits 16 R.Mask ++ "ULL".toList) := rfl
  rw [shape, integerLiteral, hex]
  simp only [List.drop_left, value]
  exact if_pos ⟨Nat.toDigits_ne_nil, trivial⟩

theorem macroCall_out (written : R.Written) :
    macroCall CPPINTEROP_API_OUT R.emitOut = some [R.CppName, R.maskText] := by
  rw [APIFunction.emitOut_eq, macroCall_of_name, written.cppName.read, single_maskText.spaced_end,
    Option.map_some, Option.map_some, List.map_cons, List.map_cons, List.map_nil, trim_space,
    written.cppName.trimmed, single_maskText.trimmed]

theorem macroCall_out_func : macroCall CPPINTEROP_API_OUT R.emitFunc = none := by
  rw [APIFunction.emitFunc_eq]
  exact macroCall_of_other _ (by decide) (by decide)

end Literals

section Masks

variable {Records : List APIFunction}

theorem outMasks_emit (written : ∀ R ∈ Records, R.Written) :
    outMasks (EmitCppInterOpAPI Records) = some (Records.map fun R => (R.CppName, R.Mask)) := by
  induction Records with
  | nil => rfl
  | cons R Records ih =>
      rw [List.forall_mem_cons] at written
      have rest := ih written.2
      rw [outMasks, macroCalls, EmitCppInterOpAPI] at rest
      have entry : outEntry [R.CppName, R.maskText] = some (R.CppName, R.Mask) := by
        rw [outEntry, integerLiteral_maskText]
        rfl
      rw [outMasks, macroCalls, EmitCppInterOpAPI, List.flatMap_cons, List.cons_append,
        List.cons_append, List.filterMap_cons_none macroCall_out_func,
        List.filterMap_cons_some (macroCall_out written.1), List.nil_append, List.mapM_cons, entry,
        rest]
      rfl

theorem outMaskReport_none_iff {masks : List (StringRef × Nat)} {Name : StringRef} {Args : List Bool}
    {Expected : Nat} (found : lookupOutMask masks Name = some Expected) :
    outMaskReport masks Name Args = none ↔ Expected = computeOutMask Args := by
  rw [outMaskReport, found]
  by_cases same : Expected = computeOutMask Args
  · exact iff_of_true (if_neg (not_not_intro same)) same
  · simp [same]

/-- The check is silent for the right calls alone, in every function, exactly when functions of one
name have their output parameters in the same places. -/
theorem outMaskReport_exact_iff {masks : List (StringRef × Nat)}
    (written : ∀ R ∈ Records, R.Written) (few : ∀ R ∈ Records, R.Args.length ≤ 64)
    (read : outMasks (EmitCppInterOpAPI Records) = some masks) :
    (∀ R ∈ Records, ∀ Args : List Bool, Args.length = R.Args.length →
        (outMaskReport masks R.CppName Args = none ↔ Args = R.outs)) ↔
      ∀ R ∈ Records, ∀ other ∈ Records, other.CppName = R.CppName →
        ∀ position, other.outs.getD position false = R.outs.getD position false := by
  rw [outMasks_emit written, Option.some.injEq] at read
  subst read
  have mask : ∀ R ∈ Records, R.Mask = computeOutMask R.outs := by
    intro R member
    rw [APIFunction.Mask, List.take_of_length_le]
    · rfl
    · rw [APIFunction.outs, List.length_map]
      exact few R member
  constructor
  · intro right R member other alsoMember same
    obtain ⟨first, _, _, found⟩ := lookup_first APIFunction.CppName APIFunction.Mask member
    have whole : ∀ R ∈ Records, R.outs.length = R.Args.length := fun R _ => List.length_map _
    have mine := (outMaskReport_none_iff found).mp ((right R member _ (whole R member)).mpr rfl)
    rw [← same] at found
    have theirs := (outMaskReport_none_iff found).mp
      ((right other alsoMember _ (whole other alsoMember)).mpr rfl)
    exact mask_eq_iff.mp (theirs.symm.trans mine)
  · intro agree R member Args length
    obtain ⟨first, alsoMember, same, found⟩ :=
      lookup_first APIFunction.CppName APIFunction.Mask member
    rw [outMaskReport_none_iff found, mask first alsoMember, computeOutMask,
      mask_eq_iff.mpr (agree R member first alsoMember same), computeOutMask, mask_eq_iff_of_length]
    · exact eq_comm
    · rw [length, APIFunction.outs, List.length_map]

def datamembersRecord : APIFunction where
  DispatchName := "GetDatamembers".toList
  CppName := "GetDatamembers".toList
  ReturnType := "void".toList
  Args :=
    [⟨"DeclRef".toList, "DRef".toList, [], false⟩,
      ⟨"std::vector<DeclRef>&".toList, "datamembers".toList, [], true⟩]

def coverageRecords : List APIFunction :=
  [GetFunctionAddress_str, GetFunctionAddress_fn, datamembersRecord]

theorem outMaskReport_exact_datamembers :
    outMaskReport (coverageRecords.map fun R => (R.CppName, R.Mask)) datamembersRecord.CppName
      [false, true] = none := by
  have written : ∀ R ∈ coverageRecords, R.Written := by decide
  have masks : ∀ R ∈ coverageRecords, ∀ other ∈ coverageRecords, other.CppName = R.CppName →
      maskFrom 0 other.outs = maskFrom 0 R.outs := by decide
  have right := (outMaskReport_exact_iff written (by decide) (outMasks_emit written)).mpr
    fun R member other alsoMember same => mask_eq_iff.mp (masks R member other alsoMember same)
  exact (right datamembersRecord (by decide) [false, true] rfl).mpr rfl

end Masks

end CppInterOp
