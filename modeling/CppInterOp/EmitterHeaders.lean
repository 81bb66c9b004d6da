import CppInterOp.EmitterAPI
import CppInterOp.EmitterAnalysis
import CppInterOp.Library.Comments

/-!
The documentation in the emitted headers: what a compiler sees of them behind their comments.
-/

namespace CppInterOp

open Comments Delimiters

section Texts

variable {text Line Doc : StringRef}

theorem ltrim_suffix : Line.dropWhile isBlank <:+ Line := List.dropWhile_suffix _

def docLines (Doc : StringRef) : List StringRef := pieces Comments.newline_ne_nil Doc

theorem docLines_ne_nil : docLines Doc ≠ [] := pieces_ne_nil _ _

theorem docLines_single (member : Line ∈ docLines Doc) : '\n' ∉ Line := by
  intro inside
  refine pieces_free _ member ?_
  obtain ⟨before, behind, rfl⟩ := List.append_of_mem inside
  exact ⟨before, behind, by simp⟩

theorem docLines_inside (member : Line ∈ docLines Doc) : Line <:+: Doc := by
  have whole := intercalate_pieces Comments.newline_ne_nil Doc
  rw [← whole]
  exact infix_intercalate member

end Texts

namespace APIFunction

variable (R : APIFunction)

def docLine (Line : StringRef) : StringRef :=
  let Trimmed := Line.dropWhile isBlank
  if Trimmed = [] then "///".toList else "/// ".toList ++ Trimmed

def emitDoc : StringRef :=
  if R.Doc = [] then [] else unlines ((docLines R.Doc).map docLine)

def deprecation : StringRef :=
  if R.Deprecated = [] then []
  else "CPPINTEROP_DEPRECATED(".toList ++ ('"' :: (R.Deprecated ++ ['"'])) ++ ") ".toList

def prototype : StringRef :=
  "CPPINTEROP_API ".toList ++ R.deprecation ++ R.ReturnType ++ [' '] ++ R.CppName ++ R.DeclArgs

def declaration : StringRef := R.prototype ++ [';']

/-- The doc string ends in a line that a compiler joins to the next one. -/
def GoesOn : Prop := R.Doc ≠ [] ∧ continued ((docLines R.Doc).getLast docLines_ne_nil) ≠ none

instance : Decidable R.GoesOn := inferInstanceAs (Decidable (_ ∧ _))

end APIFunction

def EmitCppInterOpDecl (Records : List APIFunction) : StringRef :=
  "// Auto-generated by cppinterop-tblgen. Do not edit.\n".toList ++
    "// Function declarations for the CppInterOp public API.\n\n".toList ++
    Records.flatMap fun R => R.emitDoc ++ (R.declaration ++ ['\n']) ++ ['\n']

def CodeLine (text : StringRef) : Prop := Visible text ∧ '\n' ∉ text

instance (text : StringRef) : Decidable (CodeLine text) := inferInstanceAs (Decidable (_ ∧ _))

namespace APIFunction

structure Readable (R : APIFunction) : Prop where
  returnType : CodeLine R.ReturnType
  cppName : CodeLine R.CppName
  args : ∀ A ∈ R.Args, CodeLine A.Ty ∧ CodeLine A.Name ∧ CodeLine A.Default
  deprecated : '"' ∉ R.Deprecated ∧ '\\' ∉ R.Deprecated ∧ '\n' ∉ R.Deprecated

instance (R : APIFunction) : Decidable R.Readable :=
  decidable_of_iff (CodeLine R.ReturnType ∧ CodeLine R.CppName ∧
      (∀ A ∈ R.Args, CodeLine A.Ty ∧ CodeLine A.Name ∧ CodeLine A.Default) ∧
      '"' ∉ R.Deprecated ∧ '\\' ∉ R.Deprecated ∧ '\n' ∉ R.Deprecated)
    ⟨fun facts => ⟨facts.1, facts.2.1, facts.2.2.1, facts.2.2.2⟩,
      fun readable => ⟨readable.1, readable.2, readable.3, readable.4⟩⟩

end APIFunction

theorem CodeLine.append {text rest : StringRef} (code : CodeLine text) (also : CodeLine rest) :
    CodeLine (text ++ rest) :=
  ⟨code.1.append also.1, fun inside => (List.mem_append.mp inside).elim code.2 also.2⟩

theorem CodeLine.intercalate {separator : StringRef} {texts : List StringRef}
    (between : CodeLine separator) (code : ∀ text ∈ texts, CodeLine text) :
    CodeLine (separator.intercalate texts) := by
  induction texts with
  | nil => exact ⟨rfl, List.not_mem_nil⟩
  | cons text texts ih =>
      rw [List.forall_mem_cons] at code
      by_cases last : texts = []
      · rw [last, List.intercalate_singleton]
        exact code.1
      · rw [List.intercalate_cons_of_ne_nil last]
        exact (code.1.append between).append (ih code.2)

theorem CodeLine.parenthesized {texts : List StringRef} (code : ∀ text ∈ texts, CodeLine text) :
    CodeLine (parenthesized texts) := by
  have inner : CodeLine (", ".toList.intercalate texts) := .intercalate (by decide) code
  exact @CodeLine.append ['('] _ (by decide) (inner.append (by decide))

/-- A line of code is seen with the semicolon behind it. -/
theorem CodeLine.reads {text : StringRef} (code : CodeLine text) :
    Reads (text ++ [';'] ++ ['\n']) [text ++ [';']] := by
  have ended : CodeLine (text ++ [';']) := code.append (by decide)
  have alone : continued (text ++ [';']) = none := @continued_concat text ';' rfl (by decide)
  refine reads_line ended.2 ended.1 alone ?_
  rw [List.all_append]
  exact Bool.and_eq_false_imp.mpr fun _ => rfl

namespace APIFunction

variable {R : APIFunction}

theorem Readable.deprecation (readable : R.Readable) : CodeLine R.deprecation := by
  obtain ⟨unquoted, plain, single⟩ := readable.deprecated
  have literal : Visible ('"' :: (R.Deprecated ++ ['"'])) :=
    visible_literal fun c member =>
      ⟨fun same => unquoted (same ▸ member), fun same => plain (same ▸ member)⟩
  rw [APIFunction.deprecation]
  split
  · decide
  · refine CodeLine.append (CodeLine.append (by decide) ⟨literal, ?_⟩) (by decide)
    simp only [List.mem_cons, List.mem_append, List.not_mem_nil, or_false, not_or]
    exact ⟨by decide, single, by decide⟩

theorem Readable.declArgs (readable : R.Readable) : CodeLine R.DeclArgs := by
  refine CodeLine.parenthesized fun text member => ?_
  obtain ⟨A, declared, rfl⟩ := List.mem_map.mp member
  obtain ⟨type, name, default⟩ := readable.args A declared
  refine CodeLine.append (CodeLine.append (type.append (by decide)) name) ?_
  split
  · decide
  · exact CodeLine.append (by decide) default

theorem Readable.prototype (readable : R.Readable) : CodeLine R.prototype := by
  have marked : CodeLine "CPPINTEROP_API ".toList := by decide
  have returned := ((marked.append readable.deprecation).append readable.returnType).append
    (show CodeLine [' '] by decide)
  exact (returned.append readable.cppName).append readable.declArgs

theorem Readable.declaration (readable : R.Readable) : CodeLine R.declaration :=
  readable.prototype.append (show CodeLine [';'] by decide)

theorem continued_declaration : continued R.declaration = none := by
  have ended : Comments.isBlank ';' = false := rfl
  exact @continued_concat R.prototype ';' ended (by decide)

theorem Readable.reads_declaration (readable : R.Readable) :
    Reads (R.declaration ++ ['\n']) [R.declaration] :=
  readable.prototype.reads

theorem docLine_marked (Line : StringRef) : ['/', '/'] <+: docLine Line := by
  simp only [docLine]
  split
  · exact ⟨['/'], rfl⟩
  · exact ⟨['/', ' '] ++ Line.dropWhile isBlank, rfl⟩

theorem docLine_single {Line : StringRef} (single : '\n' ∉ Line) : '\n' ∉ docLine Line := by
  simp only [docLine]
  split
  · decide
  · rw [List.mem_append, not_or]
    exact ⟨by decide, fun inside => single (ltrim_suffix.subset inside)⟩

/-- A line of the comment goes on where the line of the doc string does. -/
theorem continued_docLine (Line : StringRef) :
    continued (docLine Line) = none ↔ continued Line = none := by
  by_cases blank : Line.dropWhile isBlank = []
  · have blanks : ∀ c ∈ Line, Comments.isBlank c = true := List.dropWhile_eq_nil_iff.mp blank
    have alone : continued Line = continued [] := continued_blank [] blanks
    have only : docLine Line = "///".toList := if_pos blank
    rw [only, alone]
    decide
  · have visible : (Line.dropWhile isBlank).all Comments.isBlank = false := by
      refine Bool.eq_false_iff.mpr fun blanks => ?_
      have first := List.head_dropWhile_not isBlank blank
      have also := List.all_eq_true.mp blanks _ (List.head_mem blank)
      exact absurd (first.symm.trans also) Bool.false_ne_true
    have trimmed : docLine Line = "/// ".toList ++ Line.dropWhile isBlank := if_neg blank
    have whole := continued_append (Line.takeWhile isBlank) visible
    rw [List.takeWhile_append_dropWhile] at whole
    rw [trimmed, continued_append _ visible, whole, Option.map_eq_none_iff, Option.map_eq_none_iff]

/-- What is seen of one record: its declaration, unless the comment goes on into it. -/
theorem Readable.reads (readable : R.Readable) :
    Reads (R.emitDoc ++ (R.declaration ++ ['\n']) ++ ['\n'])
      (if R.GoesOn then [] else [R.declaration]) := by
  have single : ∀ line ∈ (docLines R.Doc).map docLine, '\n' ∉ line := by
    rw [List.forall_mem_map]
    exact fun Line member => docLine_single (docLines_single member)
  have marked : ∀ line ∈ (docLines R.Doc).map docLine, ['/', '/'] <+: line := by
    rw [List.forall_mem_map]
    exact fun Line _ => docLine_marked Line
  have some_line : (docLines R.Doc).map docLine ≠ [] := by
    rw [Ne, List.map_eq_nil_iff]
    exact docLines_ne_nil
  have ends : continued (((docLines R.Doc).map docLine).getLast some_line) = none ↔
      continued ((docLines R.Doc).getLast docLines_ne_nil) = none := by
    rw [List.getLast_map]
    exact continued_docLine _
  by_cases empty : R.Doc = []
  · have alone : ¬R.GoesOn := fun goes_on => goes_on.1 empty
    rw [if_neg alone, emitDoc, if_pos empty]
    exact readable.reads_declaration.append reads_newline
  · rw [emitDoc, if_neg empty]
    split
    · next goes_on =>
        have joined := reads_slashes_line single marked some_line (fun alone => goes_on.2 (ends.mp alone))
          readable.declaration.2 continued_declaration
        exact joined.append reads_newline
    · next alone =>
        have ended : continued ((docLines R.Doc).getLast docLines_ne_nil) = none :=
          not_not.mp fun goes_on => alone ⟨empty, goes_on⟩
        have comment : Reads (unlines ((docLines R.Doc).map docLine)) [] := by
          refine reads_slashes single marked fun last member => ?_
          rw [List.getLast?_eq_some_getLast some_line, Option.mem_some_iff] at member
          rw [← member]
          exact ends.mpr ended
        exact (comment.append readable.reads_declaration).append reads_newline

end APIFunction

theorem flatMap_unless {Source Shown : Type} {hidden : Source → Prop} [DecidablePred hidden]
    (shown : Source → Shown) (sources : List Source) :
    (sources.flatMap fun source => if hidden source then [] else [shown source]) =
      (sources.filter fun source => ¬hidden source).map shown := by
  induction sources with
  | nil => rfl
  | cons source sources ih =>
      rw [List.flatMap_cons, ih]
      by_cases unseen : hidden source
      · rw [if_pos unseen, List.filter_cons_of_neg (by simpa using unseen)]
        rfl
      · rw [if_neg unseen, List.filter_cons_of_pos (by simpa using unseen)]
        rfl

/-- What a compiler sees of the header: the declarations of the records whose documentation does not
go on. -/
theorem compiledLines_EmitCppInterOpDecl {Records : List APIFunction}
    (readable : ∀ R ∈ Records, R.Readable) :
    compiledLines (EmitCppInterOpDecl Records) =
      (Records.filter fun R => ¬R.GoesOn).map APIFunction.declaration := by
  have header : Reads (unlines ["// Auto-generated by cppinterop-tblgen. Do not edit.".toList,
      "// Function declarations for the CppInterOp public API.".toList] ++ ['\n']) [] :=
    (reads_slashes (by decide) (by decide) (by decide)).append reads_newline
  have lines : "// Auto-generated by cppinterop-tblgen. Do not edit.\n".toList ++
      "// Function declarations for the CppInterOp public API.\n\n".toList =
        unlines ["// Auto-generated by cppinterop-tblgen. Do not edit.".toList,
          "// Function declarations for the CppInterOp public API.".toList] ++ ['\n'] := by
    simp [unlines]
  rw [← lines] at header
  have records := Reads.flatMap fun R member => (readable R member).reads
  have whole := (header.append records).compiledLines
  rw [List.nil_append, flatMap_unless] at whole
  exact whole

/-- Every declaration is seen, in order, exactly when no documentation ends in a backslash: such a line
takes the declaration into the comment. -/
theorem EmitCppInterOpDecl_declares {Records : List APIFunction}
    (readable : ∀ R ∈ Records, R.Readable) :
    compiledLines (EmitCppInterOpDecl Records) = Records.map APIFunction.declaration ↔
      ∀ R ∈ Records, ¬R.GoesOn := by
  rw [compiledLines_EmitCppInterOpDecl readable]
  constructor
  · intro all_seen
    have counted := congrArg List.length all_seen
    rw [List.length_map, List.length_map, List.length_filter_eq_length_iff] at counted
    exact fun R member => of_decide_eq_true (counted R member)
  · intro alone
    rw [List.filter_eq_self.mpr fun R member => decide_eq_true (alone R member)]

theorem goesOn_single {R : APIFunction} (single : '\n' ∉ R.Doc) :
    R.GoesOn ↔ continued R.Doc ≠ none := by
  have only : docLines R.Doc = [R.Doc] := pieces_last Comments.newline_ne_nil (splitAtFirst_missing single)
  simp only [APIFunction.GoesOn, only, List.getLast_singleton]
  refine and_iff_right_of_imp fun goes_on empty => goes_on ?_
  rw [empty]
  rfl

def documented : List APIFunction :=
  [⟨"GetVersion".toList, "GetVersion".toList, "std::string".toList,
      "Get the version.\n  See /* the notes */".toList, "use Version".toList, []⟩,
    ⟨"Evaluate".toList, "Evaluate".toList, "intptr_t".toList, "A path: C:\\".toList, [],
      [⟨"const char*".toList, "code".toList, "\"//\"".toList, false⟩]⟩]

theorem documented_hidden :
    compiledLines (EmitCppInterOpDecl documented) ≠ documented.map APIFunction.declaration := by
  rw [Ne, EmitCppInterOpDecl_declares (by decide)]
  intro alone
  refine alone documented[1] (List.getElem_mem _) ((goesOn_single ?_).mpr ?_)
  · decide
  · decide

end CppInterOp
