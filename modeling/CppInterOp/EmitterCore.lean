import CppInterOp.PathsCore

/-!
The C wrappers that cppinterop-tblgen emits: the analysis of an API record that both emitters
share, and the two outputs, as pieces of text that tell the functions apart.
-/

namespace CppInterOp

open Delimiters

structure ArgInfo where
  Ty : StringRef
  Name : StringRef
  deriving DecidableEq, Repr

structure APIRecord where
  CppName : StringRef
  DispatchName : StringRef
  ReturnType : StringRef
  Doc : StringRef
  NoCWrapper : Bool
  Args : List ArgInfo
  deriving DecidableEq, Repr

structure CTypeMapEntry where
  CType : StringRef
  ArgConversion : StringRef := []
  RetConversion : StringRef := []
  CollectionKind : StringRef := []
  ElementCType : StringRef := []
  deriving DecidableEq, Repr

structure RecordKeeper where
  CppInterOpAPI : List APIRecord
  CTypeMap : List (StringRef × CTypeMapEntry)

abbrev TypeMap := StringRef → Option CTypeMapEntry

/-- A later record of a type replaces an earlier one. -/
def collectCTypeMaps (Records : RecordKeeper) : TypeMap := fun TypeRef =>
  (Records.CTypeMap.reverse.find? fun Rec => Rec.1 = TypeRef).map (·.2)

/-- `TypeMap.find(TypeRef)->second`, for a type that is in the map. -/
def TypeMap.entry (types : TypeMap) (TypeRef : StringRef) : CTypeMapEntry :=
  (types TypeRef).getD { CType := [] }

namespace CTypeMapEntry

def IsReturn (Entry : CTypeMapEntry) : Prop := Entry.CollectionKind = "return".toList

def IsOut (Entry : CTypeMapEntry) : Prop := Entry.CollectionKind = "outparam".toList

def IsIn (Entry : CTypeMapEntry) : Prop := Entry.CollectionKind = "inparam".toList

instance : DecidablePred IsReturn := fun _ => inferInstanceAs (Decidable (_ = _))

instance : DecidablePred IsOut := fun _ => inferInstanceAs (Decidable (_ = _))

instance : DecidablePred IsIn := fun _ => inferInstanceAs (Decidable (_ = _))

end CTypeMapEntry

inductive CWarning where
  | returnType (CppName ReturnType : StringRef)
  | argType (CppName Ty Name : StringRef)
  | returnAndOutParam (CppName : StringRef)
  deriving DecidableEq, Repr

namespace CWarning

def CppName : CWarning → StringRef
  | .returnType CppName _ => CppName
  | .argType CppName _ _ => CppName
  | .returnAndOutParam CppName => CppName

def render : CWarning → StringRef
  | .returnType CppName ReturnType =>
      "// WARNING: ".toList ++ CppName ++ " has no C wrapper — unmappable return type: ".toList ++
        ReturnType ++ ". Add a CTypeMap record or set NoCWrapper = true.\n".toList
  | .argType CppName Ty Name =>
      "// WARNING: ".toList ++ CppName ++ " has no C wrapper — unmappable arg type: ".toList ++ Ty ++
        [' '] ++ Name ++ ". Add a CTypeMap record or set NoCWrapper = true.\n".toList
  | .returnAndOutParam CppName =>
      "// WARNING: ".toList ++ CppName ++
        " has no C wrapper — has both return value and collection outparam. ".toList ++
        "Needs manual wrapping.\n".toList

end CWarning

def namePlaceholder : StringRef := ['$', 'n', 'a', 'm', 'e']

def resultPlaceholder : StringRef := ['$', 'r', 'e', 's', 'u', 'l', 't']

theorem namePlaceholder_ne_nil : namePlaceholder ≠ [] := List.cons_ne_nil _ _

theorem resultPlaceholder_ne_nil : resultPlaceholder ≠ [] := List.cons_ne_nil _ _

def substPlaceholder {Placeholder : StringRef} (nonempty : Placeholder ≠ []) (Pattern Value : StringRef) :
    StringRef :=
  Value.intercalate (pieces nonempty Pattern)

/-- The warnings of `canGenerateCWrapper`, which are none where it returns true. -/
def unmappable (types : TypeMap) (R : APIRecord) : List CWarning :=
  (if (types R.ReturnType).isSome then [] else [.returnType R.CppName R.ReturnType]) ++
    ((R.Args.find? fun A => (types A.Ty).isNone).map fun A =>
      CWarning.argType R.CppName A.Ty A.Name).toList

def canGenerateCWrapper (types : TypeMap) (R : APIRecord) : Bool × List CWarning :=
  if R.NoCWrapper then (false, [])
  else ((unmappable types R).isEmpty, unmappable types R)

structure CWrapper where
  CRetStr : StringRef
  CFuncName : StringRef
  CDeclArgs : StringRef
  CCallArgs : StringRef
  OutParam : Option (CTypeMapEntry × Nat)
  RetCollEntry : Option CTypeMapEntry

def findOutParam (types : TypeMap) :
    List ArgInfo → Nat → Option (CTypeMapEntry × Nat) → Option (CTypeMapEntry × Nat)
  | [], _, OutParam => OutParam
  | A :: Args, I, OutParam =>
      match types A.Ty with
      | none => findOutParam types Args (I + 1) OutParam
      | some Entry => findOutParam types Args (I + 1) (if Entry.IsOut then some (Entry, I) else OutParam)

def outName : StringRef := "_out".toList

def arrName : StringRef := "_arr".toList

/-- The two streams that the arguments are written to, with their `First` flags. -/
structure CArgStreams where
  DA : StringRef := []
  CA : StringRef := []
  FirstDA : Bool := true
  FirstCA : Bool := true

namespace CArgStreams

def declare (streams : CArgStreams) (text : StringRef) : CArgStreams :=
  { streams with
    DA := streams.DA ++ (if streams.FirstDA then [] else [',', ' ']) ++ text
    FirstDA := false }

def pass (streams : CArgStreams) (text : StringRef) : CArgStreams :=
  { streams with
    CA := streams.CA ++ (if streams.FirstCA then [] else [',', ' ']) ++ text
    FirstCA := false }

def addArg (types : TypeMap) (streams : CArgStreams) (A : ArgInfo) : CArgStreams :=
  let ArgEntry := types.entry A.Ty
  if ArgEntry.IsOut then streams.pass outName
  else if ArgEntry.IsIn then
    (streams.declare (ArgEntry.CType ++ [' '] ++ A.Name ++ "_data, size_t ".toList ++ A.Name ++
        "_size".toList)).pass
      ("\x7b".toList ++ A.Name ++ "_data, ".toList ++ A.Name ++ "_data + ".toList ++ A.Name ++
        "_size\x7d".toList)
  else
    (streams.declare (ArgEntry.CType ++ [' '] ++ A.Name)).pass
      (if ArgEntry.ArgConversion ≠ [] then
        substPlaceholder namePlaceholder_ne_nil ArgEntry.ArgConversion A.Name
      else A.Name)

end CArgStreams

def CAPIPrefix : StringRef := "cppinterop_".toList

def voidType : StringRef := "void".toList

def analyzeCWrapper (types : TypeMap) (R : APIRecord) : Option CWrapper × List CWarning :=
  let RetCollEntry := (types R.ReturnType).filter fun Entry => Entry.IsReturn
  let OutParam := findOutParam types R.Args 0 none
  if OutParam.isSome ∧ R.ReturnType ≠ voidType then (none, [.returnAndOutParam R.CppName])
  else
    let CRetStr :=
      match OutParam, RetCollEntry with
      | some (OutParamEntry, _), _ => OutParamEntry.CType
      | none, some RetCollEntry => RetCollEntry.CType
      | none, none => (types.entry R.ReturnType).CType
    let streams := R.Args.foldl (CArgStreams.addArg types) {}
    (some ⟨CRetStr, CAPIPrefix ++ R.DispatchName, streams.DA, streams.CA, OutParam, RetCollEntry⟩, [])

def wrapperOf (types : TypeMap) (R : APIRecord) : Option CWrapper :=
  if (canGenerateCWrapper types R).1 then (analyzeCWrapper types R).1 else none

def warningsOf (types : TypeMap) (R : APIRecord) : List CWarning :=
  (canGenerateCWrapper types R).2 ++
    if (canGenerateCWrapper types R).1 then (analyzeCWrapper types R).2 else []

def isBlank (c : Char) : Bool := c ∈ [' ', '\t', '\n', '\x0b', '\x0c', '\r']

def getCppTmpType (TypeRef : StringRef) : StringRef :=
  (((TypeRef.reverse.dropWhile (· = '&')).reverse).reverse.dropWhile isBlank).reverse

structure CSignature where
  CRetStr : StringRef
  CFuncName : StringRef
  CDeclArgs : StringRef
  deriving DecidableEq, Repr

def CWrapper.signature (wrapper : CWrapper) : CSignature :=
  ⟨wrapper.CRetStr, wrapper.CFuncName, wrapper.CDeclArgs⟩

structure CppCall where
  CppName : StringRef
  CCallArgs : StringRef
  deriving DecidableEq, Repr

def CppCall.render (call : CppCall) : StringRef :=
  "Cpp::".toList ++ call.CppName ++ ['('] ++ call.CCallArgs ++ [')']

inductive CStmt where
  | declare (TmpType VarName : StringRef)
  | call (call : CppCall)
  | declareCall (VarName : StringRef) (call : CppCall)
  | collectionToArray (VarName : StringRef) (Entry : CTypeMapEntry)
  | returnArr
  | returnConversion (RetConversion : StringRef) (call : CppCall)
  | returnCall (call : CppCall)
  | line (text : StringRef)
  deriving DecidableEq, Repr

def emitCollectionToArray (VarName : StringRef) (Entry : CTypeMapEntry) : StringRef :=
  "  ".toList ++ Entry.CType ++ " _arr = \x7bnullptr, ".toList ++ VarName ++ ".size()\x7d;\n".toList ++
    "  if (_arr.size) \x7b\n".toList ++
    (if Entry.ElementCType = "char*".toList then
      "    _arr.data = static_cast<char**>(malloc(_arr.size * sizeof(char*)));\n".toList ++
        "    size_t _i = 0;\n".toList ++
        "    for (const auto& _s : ".toList ++ VarName ++ ")\n".toList ++
        "      _arr.data[_i++] = strdup(_s.c_str());\n".toList
    else
      "    _arr.data = static_cast<void**>(malloc(_arr.size * sizeof(".toList ++ Entry.ElementCType ++
        ")));\n".toList ++
        "    memcpy(_arr.data, ".toList ++ VarName ++ ".data(), _arr.size * sizeof(".toList ++
        Entry.ElementCType ++ "));\n".toList) ++
    "  \x7d\n".toList

def CStmt.render : CStmt → StringRef
  | .declare TmpType VarName => "  ".toList ++ TmpType ++ [' '] ++ VarName ++ ";\n".toList
  | .call made => "  ".toList ++ made.render ++ ";\n".toList
  | .declareCall VarName made =>
      "  auto ".toList ++ VarName ++ " = ".toList ++ made.render ++ ";\n".toList
  | .collectionToArray VarName Entry => emitCollectionToArray VarName Entry
  | .returnArr => "  return _arr;\n".toList
  | .returnConversion RetConversion made =>
      "  return ".toList ++ substPlaceholder resultPlaceholder_ne_nil RetConversion made.render ++
        ";\n".toList
  | .returnCall made => "  return ".toList ++ made.render ++ ";\n".toList
  | .line text => text

inductive CPiece where
  | text (text : StringRef)
  | declaration (signature : CSignature)
  | definition (signature : CSignature) (body : List CStmt)
  | warning (warning : CWarning)
  deriving DecidableEq, Repr

def CSignature.render (signature : CSignature) : StringRef :=
  "CPPINTEROP_API ".toList ++ signature.CRetStr ++ [' '] ++ signature.CFuncName ++ ['('] ++
    signature.CDeclArgs ++ [')']

def CPiece.render : CPiece → StringRef
  | .text written => written
  | .declaration signature => signature.render ++ ";\n".toList
  | .definition signature body =>
      signature.render ++ " \x7b\n".toList ++ body.flatMap CStmt.render ++ "\x7d\n".toList
  | .warning warned => warned.render

theorem newline_ne_nil : ['\n'] ≠ ([] : StringRef) := List.cons_ne_nil _ _

def emitDoxygen (R : APIRecord) : StringRef :=
  if R.Doc = [] then []
  else
    "/**\n".toList ++
      ((pieces newline_ne_nil R.Doc).flatMap fun Line =>
        let Trimmed := Line.dropWhile isBlank
        if Trimmed = [] then " *\n".toList else " * ".toList ++ Trimmed ++ ['\n']) ++
      " */\n".toList

def declPieces (types : TypeMap) (R : APIRecord) : List CPiece :=
  match wrapperOf types R with
  | none => []
  | some wrapper => [.text (emitDoxygen R), .declaration wrapper.signature, .text ['\n']]

def wrapperBody (types : TypeMap) (R : APIRecord) (wrapper : CWrapper) : List CStmt :=
  let call : CppCall := ⟨R.CppName, wrapper.CCallArgs⟩
  match wrapper.OutParam, wrapper.RetCollEntry with
  | some (OutParamEntry, OutParamIdx), _ =>
      let TmpType := getCppTmpType ((R.Args[OutParamIdx]?.map ArgInfo.Ty).getD [])
      [.declare TmpType outName, .call call, .collectionToArray outName OutParamEntry, .returnArr]
  | none, some RetCollEntry =>
      [.declareCall outName call, .collectionToArray outName RetCollEntry, .returnArr]
  | none, none =>
      let RetEntry := types.entry R.ReturnType
      if R.ReturnType = voidType then [.call call]
      else if RetEntry.RetConversion ≠ [] then [.returnConversion RetEntry.RetConversion call]
      else [.returnCall call]

def implPieces (types : TypeMap) (R : APIRecord) : List CPiece :=
  match wrapperOf types R with
  | none => []
  | some wrapper => [.definition wrapper.signature (wrapperBody types R wrapper), .text ['\n']]

def disposeArray : CSignature :=
  ⟨voidType, CAPIPrefix ++ "DisposeArray".toList, "CppInterOpArray arr".toList⟩

def disposeStringArray : CSignature :=
  ⟨voidType, CAPIPrefix ++ "DisposeStringArray".toList, "CppInterOpStringArray arr".toList⟩

def disposeDecls : List CPiece :=
  [.text "/// Free a CppInterOpArray returned by a C API wrapper.\n".toList, .declaration disposeArray,
    .text "/// Free a CppInterOpStringArray and all its strings.\n".toList,
    .declaration disposeStringArray]

def disposeImpls : List CPiece :=
  [.definition disposeArray [.line "  free(arr.data);\n".toList], .text ['\n'],
    .definition disposeStringArray
      [.line "  for (size_t _i = 0; _i < arr.size; ++_i)\n".toList,
        .line "    free(arr.data[_i]);\n".toList, .line "  free(arr.data);\n".toList]]

def declHeader : StringRef :=
  "// Auto-generated by cppinterop-tblgen. Do not edit.\n".toList ++
    "// C API declarations that forward to the Cpp:: C++ API.\n".toList ++
    "// Prefix: ".toList ++ CAPIPrefix ++ "\n\n".toList

def implHeader : StringRef :=
  "// Auto-generated by cppinterop-tblgen. Do not edit.\n".toList ++
    "// C API implementations that forward to the Cpp:: C++ API.\n".toList ++
    "// Prefix: ".toList ++ CAPIPrefix ++ "\n\n".toList

def warningPieces (Warnings : List CWarning) : List CPiece :=
  if Warnings ≠ [] then
    .text "\n// === Functions without C wrappers (unmappable types) ===\n".toList ::
      Warnings.map .warning
  else []

def declOutput (Records : RecordKeeper) : List CPiece :=
  let types := collectCTypeMaps Records
  .text declHeader :: Records.CppInterOpAPI.flatMap (declPieces types) ++ disposeDecls ++
    warningPieces (Records.CppInterOpAPI.flatMap (warningsOf types))

/-- The warnings are collected here too, but nothing writes them. -/
def implOutput (Records : RecordKeeper) : List CPiece :=
  let types := collectCTypeMaps Records
  .text implHeader :: Records.CppInterOpAPI.flatMap (implPieces types) ++ disposeImpls

def EmitCXCppInterOpDecl (Records : RecordKeeper) : StringRef :=
  (declOutput Records).flatMap CPiece.render

def EmitCXCppInterOpImpl (Records : RecordKeeper) : StringRef :=
  (implOutput Records).flatMap CPiece.render

end CppInterOp
