import CppInterOp.TracingCore

/-!
Which identifiers the lines of the log use and declare, and what an argument list renders.
-/

namespace CppInterOp

@[simp] theorem usedIn_nil : usedIn [] = [] := rfl

@[simp] theorem usedIn_text (content : String) (rest : List Token) :
    usedIn (.text content :: rest) = usedIn rest := rfl

@[simp] theorem usedIn_use (ident : Ident) (rest : List Token) :
    usedIn (.use ident :: rest) = ident :: usedIn rest := rfl

@[simp] theorem usedIn_declare (ident : Ident) (rest : List Token) :
    usedIn (.declare ident :: rest) = usedIn rest := rfl

@[simp] theorem usedIn_append (first second : List Token) :
    usedIn (first ++ second) = usedIn first ++ usedIn second := List.filterMap_append

@[simp] theorem declaredIn_nil : declaredIn [] = [] := rfl

@[simp] theorem declaredIn_text (content : String) (rest : List Token) :
    declaredIn (.text content :: rest) = declaredIn rest := rfl

@[simp] theorem declaredIn_use (ident : Ident) (rest : List Token) :
    declaredIn (.use ident :: rest) = declaredIn rest := rfl

@[simp] theorem declaredIn_declare (ident : Ident) (rest : List Token) :
    declaredIn (.declare ident :: rest) = ident :: declaredIn rest := rfl

@[simp] theorem declaredIn_append (first second : List Token) :
    declaredIn (first ++ second) = declaredIn first ++ declaredIn second :=
  List.filterMap_append

@[simp] theorem Line.uses_aborted (name : String) (argStr : List Token) :
    (Line.aborted name argStr).uses = usedIn argStr := by
  simp [Line.uses, Line.tokens]

@[simp] theorem Line.declares_aborted (name : String) (argStr : List Token) :
    (Line.aborted name argStr).declares = declaredIn argStr := by
  simp [Line.declares, Line.tokens]

@[simp] theorem Line.uses_completed (varPart : VarPart) (name : String) (argStr : List Token) :
    (Line.completed varPart name argStr).uses = usedIn argStr := by
  cases varPart <;> simp [Line.uses, Line.tokens, VarPart.tokens]

@[simp] theorem Line.declares_completed (varPart : VarPart) (name : String)
    (argStr : List Token) :
    (Line.completed varPart name argStr).declares =
      declaredIn varPart.tokens ++ declaredIn argStr := by
  simp [Line.declares, Line.tokens]

mutual

def Value.pointers : Value → List Address
  | .handle p => p.toList
  | .templateArgInfo m_Type _ => m_Type.toList
  | .vector elems => Value.pointersAll elems
  | _ => []

def Value.pointersAll : List Value → List Address
  | [] => []
  | elem :: rest => elem.pointers ++ Value.pointersAll rest

end

open ReproBuffer TraceInfo

def namesOf (TI : TraceInfo) (ptrs : List Address) : List Ident :=
  ptrs.filterMap fun p => (TI.handleMap p).map Ident.v

theorem tokens_appendPointer (TI : TraceInfo) (p : Option Address) :
    usedIn (appendPointer TI p) = namesOf TI p.toList ∧ declaredIn (appendPointer TI p) = [] := by
  cases p with
  | none => exact ⟨rfl, rfl⟩
  | some q =>
      cases seen : TI.handleMap q with
      | none => simp [appendPointer, lookupHandle, seen, namesOf]
      | some handle => simp [appendPointer, lookupHandle, seen, namesOf]

mutual

def Value.strings : Value → List String
  | .chars s => [s.getD ""]
  | .string s => [s]
  | .templateArgInfo _ m_IntegralValue => m_IntegralValue.toList
  | .vector elems => Value.stringsAll elems
  | _ => []

def Value.stringsAll : List Value → List String
  | [] => []
  | elem :: rest => elem.strings ++ Value.stringsAll rest

end

def straysOf (strings : List String) : List Ident :=
  strings.flatMap fun s => usedIn (stringTokens s)

theorem straysOf_append (first second : List String) :
    straysOf (first ++ second) = straysOf first ++ straysOf second := List.flatMap_append

/-- What a string leaves outside its literal is all that is used of it. -/
theorem stringTokens_cases (s : String) :
    (¬rawEnd <:+: s.toList ∧ stringTokens s = [.text (appendRaw s)]) ∨
      rawEnd <:+: s.toList ∧ ∃ inside behind,
        stringTokens s = [.text inside, .use (.stray behind)] := by
  unfold stringTokens
  cases cut : Delimiters.splitAtFirst rawEnd s.toList with
  | none => exact Or.inl ⟨Delimiters.splitAtFirst_none (by decide) cut, rfl⟩
  | some parts =>
      obtain ⟨inside, behind⟩ := parts
      have whole := Delimiters.splitAtFirst_some cut
      exact Or.inr ⟨⟨inside, behind, by rw [List.append_assoc, ← whole]⟩, _, _, rfl⟩

/-- However the lexer takes it, what is written is the string's literal. -/
theorem spell_stringTokens (s : String) : spell (stringTokens s) = appendRaw s := by
  unfold stringTokens
  cases cut : Delimiters.splitAtFirst rawEnd s.toList with
  | none => simp [spell, Token.spelling]
  | some parts =>
      obtain ⟨inside, behind⟩ := parts
      have whole := Delimiters.splitAtFirst_some cut
      have raw : needsRaw s = true := by
        rw [needsRaw, whole]
        simp [rawEnd]
      rw [appendRaw, if_pos raw, ← String.toList_inj]
      simp [spell, Token.spelling, Ident.spelling, whole, rawEnd]

theorem declaredIn_stringTokens (s : String) : declaredIn (stringTokens s) = [] := by
  rcases stringTokens_cases s with ⟨_, same⟩ | ⟨_, inside, behind, same⟩ <;> rw [same] <;> rfl

theorem mem_straysOf {strings : List String} {ident : Ident} (used : ident ∈ straysOf strings) :
    ∃ code, ident = .stray code ∧ ∃ s ∈ strings, rawEnd <:+: s.toList := by
  obtain ⟨s, member, present⟩ := List.mem_flatMap.mp used
  rcases stringTokens_cases s with ⟨_, same⟩ | ⟨ends, inside, behind, same⟩
  · rw [same] at present
    cases present
  · rw [same] at present
    exact ⟨behind, List.mem_singleton.mp present, s, member, ends⟩

theorem straysOf_of_ends {strings : List String} {s : String} (member : s ∈ strings)
    (ends : rawEnd <:+: s.toList) : ∃ code, Ident.stray code ∈ straysOf strings := by
  rcases stringTokens_cases s with ⟨whole, _⟩ | ⟨_, inside, behind, same⟩
  · exact absurd ends whole
  · refine ⟨behind, List.mem_flatMap.mpr ⟨s, member, ?_⟩⟩
    rw [same]
    exact List.mem_singleton.mpr rfl

mutual

theorem tokens_append (TI : TraceInfo) (value : Value) :
    (∀ ident, ident ∈ usedIn (append TI value) ↔
      ident ∈ namesOf TI value.pointers ∨ ident ∈ straysOf value.strings) ∧
      declaredIn (append TI value) = [] := by
  cases value with
  | handle p =>
      obtain ⟨uses, declares⟩ := tokens_appendPointer TI p
      simp [append, Value.pointers, Value.strings, straysOf, uses, declares]
  | chars s =>
      simp [append, Value.pointers, Value.strings, straysOf, namesOf, declaredIn_stringTokens]
  | string s =>
      simp [append, Value.pointers, Value.strings, straysOf, namesOf, declaredIn_stringTokens]
  | templateArgInfo m_Type m_IntegralValue =>
      obtain ⟨uses, declares⟩ := tokens_appendPointer TI m_Type
      cases m_IntegralValue with
      | none => simp [append, Value.pointers, Value.strings, straysOf, uses, declares]
      | some s =>
          simp [append, Value.pointers, Value.strings, straysOf, uses, declares,
            declaredIn_stringTokens]
  | vector elems =>
      simpa [append, Value.pointers, Value.strings] using tokens_appendElems TI true elems
  | _ => simp [append, Value.pointers, Value.strings, straysOf, namesOf]

theorem tokens_appendElems (TI : TraceInfo) (first : Bool) (elems : List Value) :
    (∀ ident, ident ∈ usedIn (appendElems TI first elems) ↔
      ident ∈ namesOf TI (Value.pointersAll elems) ∨ ident ∈ straysOf (Value.stringsAll elems)) ∧
      declaredIn (appendElems TI first elems) = [] := by
  cases elems with
  | nil => simp [appendElems, Value.pointersAll, Value.stringsAll, namesOf, straysOf]
  | cons elem rest =>
      obtain ⟨headUses, headDeclares⟩ := tokens_append TI elem
      obtain ⟨tailUses, tailDeclares⟩ := tokens_appendElems TI false rest
      have comma : usedIn (if first = true then [] else [Token.text ", "]) = [] ∧
          declaredIn (if first = true then [] else [Token.text ", "]) = [] := by
        cases first <;> exact ⟨rfl, rfl⟩
      simp only [appendElems, usedIn_append, declaredIn_append, comma, List.nil_append, headDeclares,
        tailDeclares, and_true]
      intro ident
      simp only [List.mem_append, headUses, tailUses, Value.pointersAll, Value.stringsAll, namesOf,
        List.filterMap_append, straysOf_append, or_assoc, or_left_comm]

end

def Arg.pointerContainer : Arg → Option Address
  | .outContainer elem addr =>
      if (makeOutParam elem addr).isPointerContainer then some addr else none
  | _ => none

def pointerContainers (args : List Arg) : List Address := args.filterMap Arg.pointerContainer

@[simp] theorem pointerContainers_input (value : Value) (rest : List Arg) :
    pointerContainers (.input value :: rest) = pointerContainers rest := rfl

@[simp] theorem pointerContainers_outScalar (rest : List Arg) :
    pointerContainers (.outScalar :: rest) = pointerContainers rest := rfl

theorem pointerContainers_pointer {elem : Option HandleType} (addr : Address) (rest : List Arg)
    (pointer : elem.any HandleType.isPointer = true) :
    pointerContainers (.outContainer elem addr :: rest) = addr :: pointerContainers rest := by
  simp [pointerContainers, Arg.pointerContainer, makeOutParam, pointer]

theorem pointerContainers_skipped {elem : Option HandleType} (addr : Address) (rest : List Arg)
    (skipped : ¬elem.any HandleType.isPointer = true) :
    pointerContainers (.outContainer elem addr :: rest) = pointerContainers rest := by
  simp [pointerContainers, Arg.pointerContainer, makeOutParam, skipped]

def Arg.pointers : Arg → List Address
  | .input value => value.pointers
  | _ => []

def argPointers (args : List Arg) : List Address := args.flatMap Arg.pointers

def Arg.strings : Arg → List String
  | .input value => value.strings
  | _ => []

def argStrings (args : List Arg) : List String := args.flatMap Arg.strings

theorem declaredIn_formatFrom (TI : TraceInfo) (outIndices : List Nat) (first : Bool)
    (nextOut : Nat) (args : List Arg) :
    declaredIn (formatFrom TI outIndices first nextOut args) = [] := by
  induction args generalizing first nextOut with
  | nil => rfl
  | cons arg rest ih =>
      cases arg with
      | input value => cases first <;> simp [formatFrom, ih, (tokens_append TI value).2]
      | outScalar => cases first <;> simp [formatFrom, ih]
      | outContainer elem addr =>
          by_cases pointer : (makeOutParam elem addr).isPointerContainer = true
          · cases first <;> simp [formatFrom, pointer, ih]
          · simp [formatFrom, pointer, ih]

theorem mem_usedIn_formatFrom (TI : TraceInfo) (outIndices : List Nat) (first : Bool)
    (nextOut : Nat) (args : List Arg) (ident : Ident) :
    ident ∈ usedIn (formatFrom TI outIndices first nextOut args) ↔
      ident ∈ namesOf TI (argPointers args) ∨ ident ∈ straysOf (argStrings args) ∨
        ∃ j, nextOut ≤ j ∧ j < nextOut + (pointerContainers args).length ∧
          ident = .out (outIndices.getD j 0) := by
  induction args generalizing first nextOut with
  | nil =>
      simp only [formatFrom, usedIn_nil, List.not_mem_nil, false_iff, not_or, not_exists]
      refine ⟨by simp [namesOf, argPointers], by simp [straysOf, argStrings], ?_⟩
      rintro j ⟨lower, upper, _⟩
      simp only [pointerContainers, List.filterMap_nil, List.length_nil] at upper
      omega
  | cons arg rest ih =>
      have comma : ∀ tokens, usedIn ((if first = true then [] else [Token.text ", "]) ++ tokens) =
          usedIn tokens := by
        intro tokens
        cases first <;> simp
      cases arg with
      | input value =>
          simp only [formatFrom, List.append_assoc, comma, usedIn_append, List.mem_append, ih,
            (tokens_append TI value).1, pointerContainers_input, argPointers, argStrings,
            List.flatMap_cons, Arg.pointers, Arg.strings, namesOf, List.filterMap_append,
            straysOf_append, or_assoc, or_left_comm]
      | outScalar =>
          simp only [formatFrom, List.append_assoc, comma, List.cons_append, List.nil_append,
            usedIn_text, ih, pointerContainers_outScalar, argPointers, argStrings,
            List.flatMap_cons, Arg.pointers, Arg.strings]
      | outContainer elem addr =>
          by_cases pointer : elem.any HandleType.isPointer = true
          · have made : (makeOutParam elem addr).isPointerContainer = true := by
              simp [makeOutParam, pointer]
            simp only [formatFrom, made, if_true, List.append_assoc, comma, List.cons_append,
              List.nil_append, usedIn_use, List.mem_cons, ih, argPointers, argStrings,
              List.flatMap_cons, Arg.pointers, Arg.strings,
              pointerContainers_pointer addr rest pointer, List.length_cons]
            constructor
            · rintro (here | named | stray | ⟨j, lower, upper, rfl⟩)
              · exact Or.inr (Or.inr ⟨nextOut, by omega, by omega, here⟩)
              · exact Or.inl named
              · exact Or.inr (Or.inl stray)
              · exact Or.inr (Or.inr ⟨j, by omega, by omega, rfl⟩)
            · rintro (named | stray | ⟨j, lower, upper, rfl⟩)
              · exact Or.inr (Or.inl named)
              · exact Or.inr (Or.inr (Or.inl stray))
              · by_cases here : j = nextOut
                · exact Or.inl (by rw [here])
                · exact Or.inr (Or.inr (Or.inr ⟨j, by omega, by omega, rfl⟩))
          · have made : (makeOutParam elem addr).isPointerContainer = false := by
              simp [makeOutParam, pointer]
            simp only [formatFrom, made, if_false, Bool.false_eq_true, ih, argPointers, argStrings,
              List.flatMap_cons, Arg.pointers, Arg.strings, List.nil_append,
              pointerContainers_skipped addr rest pointer]

theorem mem_usedIn_format (TI : TraceInfo) (outIndices : List Nat) (args : List Arg)
    (ident : Ident) (aligned : outIndices.length = (pointerContainers args).length) :
    ident ∈ usedIn (format TI outIndices args) ↔
      ident ∈ namesOf TI (argPointers args) ∨ ident ∈ straysOf (argStrings args) ∨
        ∃ outIdx ∈ outIndices, ident = .out outIdx := by
  rw [format, mem_usedIn_formatFrom]
  refine or_congr_right (or_congr_right ⟨?_, ?_⟩)
  · rintro ⟨j, _, upper, rfl⟩
    have bound : j < outIndices.length := by omega
    exact ⟨outIndices[j], List.getElem_mem bound, by simp [bound]⟩
  · rintro ⟨outIdx, present, rfl⟩
    obtain ⟨j, bound, rfl⟩ := List.mem_iff_getElem.mp present
    exact ⟨j, Nat.zero_le _, by omega, by simp [bound]⟩

end CppInterOp
