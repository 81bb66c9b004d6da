import CppInterOp.EmitterHeaders
import CppInterOp.EmitterWrappers

/-!
The emitted C header: a compiler sees the functions that the implementation defines, whatever the
documentation and the warnings between them say.
-/

namespace CppInterOp

open Comments Delimiters

def CSignature.declaration (signature : CSignature) : StringRef := signature.render ++ [';']

/-- The texts of a record that the C header shows are code in one line, and its documentation does not
end the comment around it. -/
structure APIRecord.Presentable (R : APIRecord) : Prop where
  cppName : '\n' ∉ R.CppName
  dispatchName : CodeLine R.DispatchName
  returnType : '\n' ∉ R.ReturnType
  args : ∀ A ∈ R.Args, '\n' ∉ A.Ty ∧ CodeLine A.Name
  unclosed : ¬['*', '/'] <:+: R.Doc

structure RecordKeeper.Presentable (Records : RecordKeeper) : Prop where
  functions : ∀ R ∈ Records.CppInterOpAPI, R.Presentable
  types : ∀ Rec ∈ Records.CTypeMap, CodeLine Rec.2.CType

theorem RecordKeeper.Presentable.entry {Records : RecordKeeper} (presentable : Records.Presentable)
    (TypeRef : StringRef) : CodeLine ((collectCTypeMaps Records).entry TypeRef).CType := by
  rw [TypeMap.entry, collectCTypeMaps]
  cases found : Records.CTypeMap.reverse.find? fun Rec => Rec.1 = TypeRef with
  | none => exact ⟨rfl, List.not_mem_nil⟩
  | some Rec => exact presentable.types Rec (List.mem_reverse.mp (List.mem_of_find?_eq_some found))

section Signatures

variable {types : TypeMap} {R : APIRecord} {wrapper : CWrapper}

theorem wrapperOf_returns (made : wrapperOf types R = some wrapper) :
    (∃ TypeRef, wrapper.CRetStr = (types.entry TypeRef).CType) ∧
      wrapper.CFuncName = CAPIPrefix ++ R.DispatchName := by
  unfold wrapperOf at made
  split at made
  · unfold analyzeCWrapper at made
    by_cases both : (findOutParam types R.Args 0 none).isSome ∧ R.ReturnType ≠ voidType
    · simp only [if_pos both] at made
      exact nomatch made
    · simp only [if_neg both, Option.some_inj] at made
      rw [← made]
      refine ⟨?_, rfl⟩
      rcases findOutParam_cases types R.Args 0 none with ⟨kept, free⟩ | ⟨I, A, position, out, found⟩
      · refine ⟨R.ReturnType, ?_⟩
        simp only [kept]
        cases collection : (types R.ReturnType).filter fun Entry => Entry.IsReturn with
        | none => rfl
        | some Entry =>
            have mapped : types R.ReturnType = some Entry := (Option.filter_eq_some_iff.mp collection).1
            rw [TypeMap.entry, mapped, Option.getD_some]
      · exact ⟨A.Ty, by simp only [found]⟩
  · exact nomatch made

theorem codeLine_spelled (codes : ∀ TypeRef, CodeLine (types.entry TypeRef).CType)
    {A : ArgInfo} (named : CodeLine A.Name) :
    ∀ parameter ∈ cParameters types A, CodeLine (spelled parameter) := by
  have typed : CodeLine ((types.entry A.Ty).CType ++ [' ']) := (codes A.Ty).append (by decide)
  unfold cParameters
  split
  · exact nofun
  · split
    · rw [List.forall_mem_cons, List.forall_mem_singleton]
      refine ⟨typed.append (named.append (by decide)), ?_⟩
      exact CodeLine.append (show CodeLine ("size_t".toList ++ [' ']) by decide) (named.append (by decide))
    · rw [List.forall_mem_singleton]
      exact typed.append named

theorem codeLine_signature (codes : ∀ TypeRef, CodeLine (types.entry TypeRef).CType)
    (presentable : R.Presentable) (made : wrapperOf types R = some wrapper) :
    CodeLine wrapper.signature.render := by
  obtain ⟨⟨TypeRef, returned⟩, named⟩ := wrapperOf_returns made
  have shown : CodeLine wrapper.CRetStr := returned ▸ codes TypeRef
  have prefixed : CodeLine wrapper.CFuncName := by
    rw [named]
    exact CodeLine.append (show CodeLine CAPIPrefix by decide) presentable.dispatchName
  have parameters : CodeLine wrapper.CDeclArgs := by
    rw [(analyzed_of_wrapperOf made).declared]
    refine CodeLine.intercalate (by decide) (List.forall_mem_map.mpr fun parameter member => ?_)
    obtain ⟨A, declared, among⟩ := List.mem_flatMap.mp member
    exact codeLine_spelled codes (presentable.args A declared).2 parameter among
  have start : CodeLine "CPPINTEROP_API ".toList := by decide
  have marked := ((start.append shown).append (show CodeLine [' '] by decide)).append prefixed
  exact ((marked.append (show CodeLine ['('] by decide)).append parameters).append
    (show CodeLine [')'] by decide)

theorem reads_signature {signature : CSignature} (code : CodeLine signature.render) :
    Reads (signature.render ++ ";\n".toList) [signature.declaration] := by
  have read := code.reads
  rw [List.append_assoc] at read
  exact read

end Signatures

section Comments

variable {R : APIRecord}

def doxygenLine (Line : StringRef) : StringRef :=
  let Trimmed := Line.dropWhile isBlank
  if Trimmed = [] then " *".toList else " * ".toList ++ Trimmed

theorem emitDoxygen_eq (documented : R.Doc ≠ []) :
    emitDoxygen R = "/**\n".toList ++ unlines ((docLines R.Doc).map doxygenLine) ++ " */\n".toList := by
  have line (Line : StringRef) :
      (if Line.dropWhile isBlank = [] then " *\n".toList
        else " * ".toList ++ Line.dropWhile isBlank ++ ['\n']) = doxygenLine Line ++ ['\n'] := by
    simp only [doxygenLine]
    split <;> rfl
  rw [emitDoxygen, if_neg documented, unlines, List.flatMap_map]
  simp only [line]
  rfl

/-- The comment around the documentation hides it. -/
theorem APIRecord.Presentable.reads_emitDoxygen (presentable : R.Presentable) :
    Reads (emitDoxygen R) [] := by
  by_cases empty : R.Doc = []
  · rw [emitDoxygen, if_pos empty]
    exact Reads.nil
  · rw [emitDoxygen_eq empty]
    refine reads_block (List.forall_mem_map.mpr fun Line member => ?_)
      (List.forall_mem_map.mpr fun Line member => ?_)
    · simp only [doxygenLine]
      split
      · decide
      · rw [List.mem_append, not_or]
        exact ⟨by decide, fun inside => docLines_single member (ltrim_suffix.subset inside)⟩
    · have trimmed : ¬['*', '/'] <:+: Line.dropWhile isBlank := fun closes =>
        presentable.unclosed (closes.trans (ltrim_suffix.isInfix.trans (docLines_inside member)))
      simp only [doxygenLine]
      split
      · decide
      · refine ⟨?_, by simp⟩
        simpa [List.infix_cons_iff, List.cons_prefix_cons] using trimmed

theorem reads_warning {text : StringRef} (single : '\n' ∉ text) :
    Reads ("// WARNING: ".toList ++ text ++ ['.'] ++ ['\n']) [] := by
  have line : '\n' ∉ "// WARNING: ".toList ++ text ++ ['.'] := by
    simp only [List.mem_append, not_or]
    exact ⟨⟨by decide, single⟩, by decide⟩
  exact reads_comment line ⟨" WARNING: ".toList ++ text ++ ['.'], rfl⟩
    (@continued_concat ("// WARNING: ".toList ++ text) '.' rfl (by decide))

theorem warningsOf_cases {types : TypeMap} {warned : CWarning} (member : warned ∈ warningsOf types R) :
    warned = .returnType R.CppName R.ReturnType ∨
      (∃ A ∈ R.Args, warned = .argType R.CppName A.Ty A.Name) ∨
      warned = .returnAndOutParam R.CppName := by
  rw [warningsOf, List.mem_append] at member
  rcases member with mapping | analysis
  · have among : warned ∈ unmappable types R := by
      unfold canGenerateCWrapper at mapping
      split at mapping
      · exact nomatch mapping
      · exact mapping
    rw [unmappable, List.mem_append] at among
    rcases among with returned | argument
    · split at returned
      · exact nomatch returned
      · exact .inl (List.mem_singleton.mp returned)
    · obtain ⟨A, found, rfl⟩ := Option.map_eq_some_iff.mp (Option.mem_toList.mp argument)
      exact .inr (.inl ⟨A, List.mem_of_find?_eq_some found, rfl⟩)
  · refine .inr (.inr ?_)
    split at analysis
    · unfold analyzeCWrapper at analysis
      by_cases both : (findOutParam types R.Args 0 none).isSome ∧ R.ReturnType ≠ voidType
      · simp only [if_pos both] at analysis
        exact List.mem_singleton.mp analysis
      · simp only [if_neg both] at analysis
        exact nomatch analysis
    · exact nomatch analysis

/-- A warning is one line, if the names in it are. -/
theorem APIRecord.Presentable.reads_warned (presentable : R.Presentable) {types : TypeMap}
    {warned : CWarning} (member : warned ∈ warningsOf types R) : Reads warned.render [] := by
  have advice : ". Add a CTypeMap record or set NoCWrapper = true.\n".toList =
      ". Add a CTypeMap record or set NoCWrapper = true".toList ++ (['.'] ++ ['\n']) := by simp
  rcases warningsOf_cases member with rfl | ⟨A, declared, rfl⟩ | rfl
  · have single : '\n' ∉ R.CppName ++ " has no C wrapper — unmappable return type: ".toList ++
        R.ReturnType ++ ". Add a CTypeMap record or set NoCWrapper = true".toList := by
      simp only [List.mem_append, not_or]
      exact ⟨⟨⟨presentable.cppName, by decide⟩, presentable.returnType⟩, by decide⟩
    have read := reads_warning single
    have written : (CWarning.returnType R.CppName R.ReturnType).render =
        "// WARNING: ".toList ++ R.CppName ++ " has no C wrapper — unmappable return type: ".toList ++
          R.ReturnType ++ ". Add a CTypeMap record or set NoCWrapper = true.\n".toList := rfl
    rw [written]
    simp only [advice, List.append_assoc] at read ⊢
    exact read
  · have single : '\n' ∉ R.CppName ++ " has no C wrapper — unmappable arg type: ".toList ++ A.Ty ++
        [' '] ++ A.Name ++ ". Add a CTypeMap record or set NoCWrapper = true".toList := by
      simp only [List.mem_append, not_or]
      exact ⟨⟨⟨⟨⟨presentable.cppName, by decide⟩, (presentable.args A declared).1⟩, by decide⟩,
        (presentable.args A declared).2.2⟩, by decide⟩
    have read := reads_warning single
    have written : (CWarning.argType R.CppName A.Ty A.Name).render =
        "// WARNING: ".toList ++ R.CppName ++ " has no C wrapper — unmappable arg type: ".toList ++
          A.Ty ++ [' '] ++ A.Name ++ ". Add a CTypeMap record or set NoCWrapper = true.\n".toList := rfl
    rw [written]
    simp only [advice, List.append_assoc] at read ⊢
    exact read
  · have single : '\n' ∉ R.CppName ++
        " has no C wrapper — has both return value and collection outparam. ".toList ++
        "Needs manual wrapping".toList := by
      simp only [List.mem_append, not_or]
      exact ⟨⟨presentable.cppName, by decide⟩, by decide⟩
    have read := reads_warning single
    have demand : "Needs manual wrapping.\n".toList =
        "Needs manual wrapping".toList ++ (['.'] ++ ['\n']) := by simp
    have written : (CWarning.returnAndOutParam R.CppName).render =
        "// WARNING: ".toList ++ R.CppName ++
          " has no C wrapper — has both return value and collection outparam. ".toList ++
          "Needs manual wrapping.\n".toList := rfl
    rw [written]
    simp only [demand, List.append_assoc] at read ⊢
    exact read

end Comments

theorem reads_declHeader : Reads declHeader [] := by
  have lines : declHeader = unlines ["// Auto-generated by cppinterop-tblgen. Do not edit.".toList,
      "// C API declarations that forward to the Cpp:: C++ API.".toList,
      "// Prefix: cppinterop_".toList] ++ ['\n'] := by
    have written : declHeader = "// Auto-generated by cppinterop-tblgen. Do not edit.\n".toList ++
        "// C API declarations that forward to the Cpp:: C++ API.\n".toList ++
        "// Prefix: ".toList ++ "cppinterop_".toList ++ "\n\n".toList := rfl
    rw [written]
    simp [unlines]
  rw [lines]
  exact (reads_slashes (by decide) (by decide) (by decide)).append reads_newline

theorem reads_disposeDecls {piece : CPiece} (member : piece ∈ disposeDecls) :
    Reads piece.render (piece.declared.map CSignature.declaration).toList := by
  have array : "/// Free a CppInterOpArray returned by a C API wrapper.\n".toList =
      "/// Free a CppInterOpArray returned by a C API wrapper.".toList ++ ['\n'] := by simp
  have strings : "/// Free a CppInterOpStringArray and all its strings.\n".toList =
      "/// Free a CppInterOpStringArray and all its strings.".toList ++ ['\n'] := by simp
  rw [disposeDecls, array, strings] at member
  simp only [List.mem_cons, List.not_mem_nil, or_false] at member
  rcases member with rfl | rfl | rfl | rfl
  · exact reads_comment (by decide) (by decide) (by decide)
  · exact reads_signature (by decide)
  · exact reads_comment (by decide) (by decide) (by decide)
  · exact reads_signature (by decide)

/-- A piece of the header is seen if it declares a function. -/
theorem RecordKeeper.Presentable.reads_piece {Records : RecordKeeper} (presentable : Records.Presentable)
    {piece : CPiece} (member : piece ∈ declOutput Records) :
    Reads piece.render (piece.declared.map CSignature.declaration).toList := by
  simp only [declOutput, List.mem_append, List.mem_cons, List.mem_flatMap] at member
  rcases member with ((rfl | ⟨R, among, wrapped⟩) | disposing) | warning
  · exact reads_declHeader
  · unfold declPieces at wrapped
    split at wrapped
    · exact nomatch wrapped
    · next wrapper made =>
        simp only [List.mem_cons, List.not_mem_nil, or_false] at wrapped
        rcases wrapped with rfl | rfl | rfl
        · exact (presentable.functions R among).reads_emitDoxygen
        · exact reads_signature (codeLine_signature presentable.entry (presentable.functions R among) made)
        · exact reads_newline
  · exact reads_disposeDecls disposing
  · unfold warningPieces at warning
    split at warning
    · have heading : "\n// === Functions without C wrappers (unmappable types) ===\n".toList =
          ['\n'] ++ ("// === Functions without C wrappers (unmappable types) ===".toList ++ ['\n']) := by
        simp
      rw [heading] at warning
      rcases List.mem_cons.mp warning with rfl | listed
      · exact reads_newline.append (reads_comment (by decide) (by decide) (by decide))
      · obtain ⟨warned, given, rfl⟩ := List.mem_map.mp listed
        obtain ⟨R, among, warns⟩ := List.mem_flatMap.mp given
        exact (presentable.functions R among).reads_warned warns
    · exact nomatch warning

/-- What a compiler sees of the C header: a declaration of each function that the implementation
defines, in order. -/
theorem EmitCXCppInterOpDecl_declares {Records : RecordKeeper} (presentable : Records.Presentable) :
    compiledLines (EmitCXCppInterOpDecl Records) =
      ((implOutput Records).filterMap CPiece.defined).map CSignature.declaration := by
  have read := Reads.flatMap fun piece member => presentable.reads_piece member
  rw [EmitCXCppInterOpDecl, read.compiledLines, ← signatures_agree, List.map_filterMap,
    List.filterMap_eq_flatMap_toList]

def presentedRecords : RecordKeeper where
  CppInterOpAPI :=
    [⟨"GetScope".toList, "GetScope".toList, "DeclRef".toList, "Find a scope.\n  // or /* null \\".toList,
        false, [⟨"const char*".toList, "name".toList⟩]⟩,
      ⟨"Evaluate".toList, "Evaluate".toList, "Box".toList, "Run the code.".toList, false,
        [⟨"const char*".toList, "code".toList⟩]⟩]
  CTypeMap := [("DeclRef".toList, { CType := "void*".toList }),
    ("const char*".toList, { CType := "const char*".toList })]

theorem EmitCXCppInterOpDecl_declares_presented :
    compiledLines (EmitCXCppInterOpDecl presentedRecords) =
      ["CPPINTEROP_API void* cppinterop_GetScope(const char* name);".toList,
        "CPPINTEROP_API void cppinterop_DisposeArray(CppInterOpArray arr);".toList,
        "CPPINTEROP_API void cppinterop_DisposeStringArray(CppInterOpStringArray arr);".toList] := by
  have function : ∀ R ∈ presentedRecords.CppInterOpAPI, R.Presentable := by
    simp only [presentedRecords, List.forall_mem_cons]
    refine ⟨⟨by decide, by decide, by decide, by decide, by decide⟩,
      ⟨by decide, by decide, by decide, by decide, by decide⟩, List.forall_mem_nil _⟩
  rw [EmitCXCppInterOpDecl_declares ⟨function, by decide⟩]
  rfl

end CppInterOp
