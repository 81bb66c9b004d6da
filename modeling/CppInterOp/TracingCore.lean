import CppInterOp.Basic
import CppInterOp.Library.Delimiters

/-!
The tracer of `Tracing.h` and `Tracing.cpp`: handle names, the log of the reproducer, the
rendering of arguments, trace regions and region files, and the hooks of `JitCall`.
-/

namespace CppInterOp

/-- The names of a reproducer. Stray code, which comes out of a string argument that ends its own
literal, is not read: it counts as a name that nothing declares. -/
inductive Ident
  | v (number : Nat)
  | out (number : Nat)
  | ret (number : Nat)
  | stray (code : String)
  deriving DecidableEq, Repr

def Ident.spelling : Ident → String
  | .v number => "v" ++ toString number
  | .out number => "_out" ++ toString number
  | .ret number => "_ret" ++ toString number
  | .stray code => code

/-- A piece of a line: text, or an identifier the line uses or declares. An identifier
inside a comment or a literal is text. -/
inductive Token
  | text (content : String)
  | use (ident : Ident)
  | declare (ident : Ident)
  deriving DecidableEq, Repr

def Token.spelling : Token → String
  | .text content => content
  | .use ident => ident.spelling
  | .declare ident => ident.spelling

def Token.used : Token → Option Ident
  | .use ident => some ident
  | _ => none

def Token.declared : Token → Option Ident
  | .declare ident => some ident
  | _ => none

def usedIn (tokens : List Token) : List Ident := tokens.filterMap Token.used

def declaredIn (tokens : List Token) : List Ident := tokens.filterMap Token.declared

def spell (tokens : List Token) : String := String.join (tokens.map Token.spelling)

inductive VarPart
  | nothing
  | fresh (handle : Nat)
  | known (handle : Nat)
  | nullptr
  | vector (retIdx : Nat)
  deriving DecidableEq, Repr

def VarPart.tokens : VarPart → List Token
  | .nothing => []
  | .fresh handle => [.text "auto ", .declare (.v handle), .text " = "]
  | .known handle => [.text ("/*" ++ (Ident.v handle).spelling ++ "*/ ")]
  | .nullptr => [.text "/*nullptr*/ "]
  | .vector retIdx => [.text "auto ", .declare (.ret retIdx), .text " = "]

/-- A line of the log; the duration of a completed call is not modelled. -/
inductive Line
  | outDecl (outIdx : Nat)
  | aborted (name : String) (argStr : List Token)
  | completed (varPart : VarPart) (name : String) (argStr : List Token)
  | outElement (handle outIdx index : Nat)
  | retElement (handle retIdx index : Nat)
  | comment (content : String)
  deriving DecidableEq, Repr

/-- `  void* vN = _xK.size() > I ? _xK[I] : nullptr;` -/
def elementTokens (handle : Nat) (source : Ident) (index : Nat) : List Token :=
  [.text "  void* ", .declare (.v handle), .text " = ", .use source,
    .text (".size() > " ++ toString index ++ " ? "), .use source,
    .text ("[" ++ toString index ++ "] : nullptr;")]

def Line.tokens : Line → List Token
  | .outDecl outIdx => [.text "  std::vector<void*> ", .declare (.out outIdx), .text ";"]
  | .aborted name argStr =>
      .text ("  Cpp::" ++ name ++ "(") :: (argStr ++ [.text "); // [aborted before return]"])
  | .completed varPart name argStr =>
      .text "  " :: (varPart.tokens ++ .text ("Cpp::" ++ name ++ "(") ::
        (argStr ++ [.text "); // [ns]"]))
  | .outElement handle outIdx index => elementTokens handle (.out outIdx) index
  | .retElement handle retIdx index => elementTokens handle (.ret retIdx) index
  | .comment content => [.text ("  // " ++ content)]

def Line.uses (line : Line) : List Ident := usedIn line.tokens

def Line.declares (line : Line) : List Ident := declaredIn line.tokens

structure TraceInfo where
  timerStack : List String := []
  handleMap : Address → Option Nat := fun _ => none
  varCount : Nat := 0
  retCount : Nat := 0
  outCount : Nat := 0
  outAliases : Address → Option Nat := fun _ => none
  log : List Line := []
  regionStart : Nat := 0
  inRegion : Bool := false
  writeOnStdErr : Bool := false
  dumping : Bool := false
  errs : List Line := []

namespace TraceInfo

def insideTracedRegion (TI : TraceInfo) : Bool := !TI.timerStack.isEmpty

def pushTimer (TI : TraceInfo) (timer : String) : TraceInfo :=
  { TI with timerStack := timer :: TI.timerStack }

def popTimer (TI : TraceInfo) : TraceInfo := { TI with timerStack := TI.timerStack.tail }

def getOrRegisterHandle (TI : TraceInfo) : Option Address → TraceInfo × Option Nat
  | none => (TI, none)
  | some p =>
      match TI.handleMap p with
      | some handle => (TI, some handle)
      | none =>
          ({ TI with
              varCount := TI.varCount + 1
              handleMap := fun q => if q = p then some (TI.varCount + 1) else TI.handleMap q },
            some (TI.varCount + 1))

def lookupHandle (TI : TraceInfo) : Option Address → List Token
  | none => [.text "nullptr"]
  | some p =>
      match TI.handleMap p with
      | some handle => [.use (.v handle)]
      | none => []

def nextRetIndex (TI : TraceInfo) : TraceInfo × Nat :=
  ({ TI with retCount := TI.retCount + 1 }, TI.retCount)

def outIndexFor (TI : TraceInfo) (addr : Address) : TraceInfo × Nat × Bool :=
  match TI.outAliases addr with
  | some idx => (TI, idx, false)
  | none =>
      ({ TI with
          outCount := TI.outCount + 1
          outAliases := fun other => if other = addr then some TI.outCount else TI.outAliases other },
        TI.outCount, true)

def appendToLog (TI : TraceInfo) (line : Line) : TraceInfo × Nat :=
  if TI.dumping then (TI, 0)
  else
    ({ TI with
        log := TI.log ++ [line]
        errs := if TI.inRegion && TI.writeOnStdErr then TI.errs ++ [line] else TI.errs },
      TI.log.length)

def setLogEntry (TI : TraceInfo) (idx : Nat) (line : Line) : TraceInfo :=
  if TI.dumping then TI else { TI with log := TI.log.set idx line }

def setDumping (TI : TraceInfo) (value : Bool) : TraceInfo := { TI with dumping := value }

end TraceInfo

inductive HandleType
  | pointer
  | DeclRef
  | TypeRef
  | FuncRef
  | ObjectRef
  | InterpRef
  | ConstDeclRef
  | ConstTypeRef
  | ConstFuncRef
  deriving DecidableEq, Repr

namespace HandleType

def isPointer (type : HandleType) : Bool := type = .pointer

def isHandle (type : HandleType) : Bool :=
  type = .DeclRef || type = .TypeRef || type = .FuncRef || type = .ObjectRef ||
    type = .InterpRef || type = .ConstDeclRef || type = .ConstTypeRef || type = .ConstFuncRef

def isHandleVector (type : HandleType) : Bool := type = .DeclRef || type = .FuncRef

def isPointerVector (type : HandleType) : Bool := type = .pointer

end HandleType

/-- An input argument as the overloads of `ReproBuffer::append` tell it apart. A floating
point number is given by the text `formatv` makes of it. -/
inductive Value
  | handle (p : Option Address)
  | chars (s : Option String)
  | string (s : String)
  | bool (value : Bool)
  | int (value : Int)
  | float (digits : String)
  | templateArgInfo (m_Type : Option Address) (m_IntegralValue : Option String)
  | enum (typeName : String) (value : Int)
  | vector (elems : List Value)
  | other

/-- An argument of `INTEROP_TRACE`. An OUT container whose elements are no handles has no
handle type. -/
inductive Arg
  | input (value : Value)
  | outContainer (elem : Option HandleType) (addr : Address)
  | outScalar

structure OutParam where
  registerHandles : Option Address := none
  isPointerContainer : Bool := false
  isScalarPointer : Bool := false
  sourceAddr : Option Address := none
  deriving DecidableEq, Repr

def makeOutParam (elem : Option HandleType) (addr : Address) : OutParam :=
  if elem.any HandleType.isPointer then
    { sourceAddr := some addr, isPointerContainer := true, registerHandles := some addr }
  else { sourceAddr := some addr }

def makeOutScalar : OutParam := { isScalarPointer := true }

def Arg.outParam : Arg → Option OutParam
  | .input _ => none
  | .outContainer elem addr => some (makeOutParam elem addr)
  | .outScalar => some makeOutScalar

namespace ReproBuffer

def appendPointer (TI : TraceInfo) : Option Address → List Token
  | none => [.text "nullptr"]
  | some p =>
      let h := TI.lookupHandle (some p)
      if h.isEmpty then [.text "nullptr /*unknown*/"] else h

def needsRaw (s : String) : Bool :=
  s.toList.any fun c => c = '"' || c = '\\' || decide (c.toNat < 0x20) || c.toNat = 0x7f

def appendRaw (s : String) : String :=
  if needsRaw s then "R\"CPPI(" ++ s ++ ")CPPI\"" else "\"" ++ s ++ "\""

def rawEnd : List Char := [')', 'C', 'P', 'P', 'I', '"']

/-- A string as the lexer takes it: its raw literal ends at the first `)CPPI"`. -/
def stringTokens (s : String) : List Token :=
  match Delimiters.splitAtFirst rawEnd s.toList with
  | none => [.text (appendRaw s)]
  | some (inside, behind) =>
      [.text ("R\"CPPI(" ++ String.ofList inside ++ ")CPPI\""),
        .use (.stray (String.ofList behind ++ ")CPPI\""))]

mutual

def append (TI : TraceInfo) : Value → List Token
  | .handle p => appendPointer TI p
  | .chars s => stringTokens (s.getD "")
  | .string s => stringTokens s
  | .bool value => [.text (if value then "true" else "false")]
  | .int value => [.text (toString value)]
  | .float digits => [.text digits]
  | .templateArgInfo m_Type m_IntegralValue =>
      .text "Cpp::TemplateArgInfo\x7b" :: (appendPointer TI m_Type ++
        .text ", " :: ((m_IntegralValue.map stringTokens).getD [.text "nullptr"] ++ [.text "\x7d"]))
  | .enum typeName value =>
      [.text ("static_cast<" ++ typeName ++ ">(" ++ toString value ++ ")")]
  | .vector elems => .text "\x7b" :: (appendElems TI true elems ++ [.text "\x7d"])
  | .other => [.text "?"]

def appendElems (TI : TraceInfo) (first : Bool) : List Value → List Token
  | [] => []
  | elem :: rest =>
      (if first then [] else [.text ", "]) ++ append TI elem ++ appendElems TI false rest

end

/-- The argument list: `nextOut` counts the OUT pointer containers rendered so far. -/
def formatFrom (TI : TraceInfo) (outIndices : List Nat) (first : Bool) (nextOut : Nat) :
    List Arg → List Token
  | [] => []
  | arg :: rest =>
      let comma := if first then [] else [Token.text ", "]
      match arg with
      | .input value =>
          comma ++ append TI value ++ formatFrom TI outIndices false nextOut rest
      | .outContainer elem addr =>
          if (makeOutParam elem addr).isPointerContainer then
            comma ++ [.use (.out (outIndices.getD nextOut 0))] ++
              formatFrom TI outIndices false (nextOut + 1) rest
          -- other containers are left out of the call
          else formatFrom TI outIndices first nextOut rest
      | .outScalar => comma ++ [.text "nullptr"] ++ formatFrom TI outIndices false nextOut rest

def format (TI : TraceInfo) (outIndices : List Nat) (args : List Arg) : List Token :=
  formatFrom TI outIndices true 0 args

end ReproBuffer

structure TraceData where
  name : String
  argStr : List Token := []
  result : Option Address := none
  hasPtrResult : Bool := false
  hasRetVec : Bool := false
  retVecPtrs : List (Option Address) := []
  returned : Bool := false
  outCallbacks : List Address := []
  outIndices : List Nat := []
  outFirstUse : List Bool := []
  nested : Bool := false
  logIndex : Nat := 0

/-- What a traced function gives to `INTEROP_RETURN`; its static type decides what is
recorded. -/
inductive Returned
  | nothing
  | nullptr
  | handle (type : HandleType) (p : Option Address)
  | vector (elem : HandleType) (ptrs : List (Option Address))
  deriving DecidableEq, Repr

def TraceData.record (data : TraceData) (val : Returned) : TraceData :=
  let data := { data with returned := true }
  match val with
  | .nothing => data
  | .nullptr => { data with hasPtrResult := true }
  | .handle type p =>
      if type.isHandle || type.isPointer then { data with hasPtrResult := true, result := p }
      else data
  | .vector elem ptrs =>
      if elem.isHandleVector || elem.isPointerVector then
        { data with hasRetVec := true, retVecPtrs := data.retVecPtrs ++ ptrs }
      else data

namespace TraceRegion

def captureArg (TI : TraceInfo) (data : TraceData) (op : OutParam) : TraceInfo × TraceData :=
  let (TI, data) :=
    match op.sourceAddr with
    | some addr =>
        if !data.nested && op.isPointerContainer then
          let (TI, idx, firstUse) := TI.outIndexFor addr
          (TI, { data with
            outIndices := data.outIndices ++ [idx]
            outFirstUse := data.outFirstUse ++ [firstUse] })
        else (TI, data)
    | none => (TI, data)
  match op.registerHandles with
  | some container => (TI, { data with outCallbacks := data.outCallbacks ++ [container] })
  | none => (TI, data)

def captureArgs (TI : TraceInfo) (data : TraceData) : List Arg → TraceInfo × TraceData
  | [] => (TI, data)
  | arg :: rest =>
      match arg.outParam with
      | some op =>
          let (TI, data) := captureArg TI data op
          captureArgs TI data rest
      | none => captureArgs TI data rest

def appendPreamble (TI : TraceInfo) : List (Nat × Bool) → TraceInfo
  | [] => TI
  | (idx, firstUse) :: rest =>
      appendPreamble (if firstUse then (TI.appendToLog (.outDecl idx)).1 else TI) rest

def enter (TI : TraceInfo) (name : String) (args : List Arg) : TraceInfo × TraceData :=
  let data : TraceData := { name := name, nested := TI.insideTracedRegion }
  let (TI, data) := captureArgs TI data args
  let (TI, data) :=
    if data.nested then (TI, data)
    else
      let data := { data with argStr := ReproBuffer.format TI data.outIndices args }
      let TI := appendPreamble TI (data.outIndices.zip data.outFirstUse)
      let (TI, idx) := TI.appendToLog (.aborted name data.argStr)
      (TI, { data with logIndex := idx })
  (TI.pushTimer name, data)

def registerElements (TI : TraceInfo) (outIdx index : Nat) : List (Option Address) → TraceInfo
  | [] => TI
  | elem :: rest =>
      let isNew := (TI.lookupHandle elem).isEmpty
      let (TI, name) := TI.getOrRegisterHandle elem
      let TI :=
        match name with
        | some handle =>
            if isNew && elem.isSome then (TI.appendToLog (.outElement handle outIdx index)).1
            else TI
        | none => TI
      registerElements TI outIdx (index + 1) rest

def registerRetVec (TI : TraceInfo) (index : Nat) :
    List (Option Address) → TraceInfo × List (Nat × Nat)
  | [] => (TI, [])
  | none :: rest => registerRetVec TI (index + 1) rest
  | some p :: rest =>
      let isNew := (TI.lookupHandle (some p)).isEmpty
      let (TI, name) := TI.getOrRegisterHandle (some p)
      let (TI, decls) := registerRetVec TI (index + 1) rest
      match name with
      | some handle => (TI, if isNew then (index, handle) :: decls else decls)
      | none => (TI, decls)

def runCallbacks (TI : TraceInfo) (live : Address → List (Option Address)) :
    List (Address × Nat) → TraceInfo
  | [] => TI
  | (container, outIdx) :: rest =>
      runCallbacks (registerElements TI outIdx 0 (live container)) live rest

def appendRetDecls (TI : TraceInfo) (retIdx : Nat) : List (Nat × Nat) → TraceInfo
  | [] => TI
  | (index, handle) :: rest =>
      appendRetDecls (TI.appendToLog (.retElement handle retIdx index)).1 retIdx rest

def allocateRet (TI : TraceInfo) (data : TraceData) :
    TraceInfo × Option Nat × List (Nat × Nat) :=
  if data.hasRetVec then
    let (TI, retIdx) := TI.nextRetIndex
    let (TI, retDecls) := registerRetVec TI 0 data.retVecPtrs
    (TI, some retIdx, retDecls)
  else (TI, none, [])

def bindResult (TI : TraceInfo) (data : TraceData) (retIdx : Option Nat) : TraceInfo × VarPart :=
  match data.result with
  | some p =>
      let isNew := (TI.lookupHandle (some p)).isEmpty
      let (TI, name) := TI.getOrRegisterHandle (some p)
      (TI, match name with
        | some handle => if isNew then .fresh handle else .known handle
        | none => .nothing)
  | none =>
      if data.hasPtrResult then (TI, .nullptr)
      else
        match retIdx with
        | some idx => (TI, .vector idx)
        | none => (TI, .nothing)

/-- The destructor, with the elements each OUT container then has. -/
def leave (TI : TraceInfo) (data : TraceData) (live : Address → List (Option Address)) :
    TraceInfo :=
  let TI := TI.popTimer
  -- nested calls do not reach the log
  if data.nested then TI
  else
    let (TI, retIdx, retDecls) := allocateRet TI data
    let (TI, varPart) := bindResult TI data retIdx
    let TI := TI.setLogEntry data.logIndex (.completed varPart data.name data.argStr)
    let TI := runCallbacks TI live (data.outCallbacks.zip data.outIndices)
    appendRetDecls TI (retIdx.getD 0) retDecls

end TraceRegion

namespace TraceInfo

def dumperCall (TI : TraceInfo) (name : String) : TraceInfo :=
  let (TI, data) := TraceRegion.enter TI name []
  TraceRegion.leave TI (data.record .nothing) fun _ => []

def writePrologue (TI : TraceInfo) (version : String) : TraceInfo :=
  let TI := if version = "" then TI.dumperCall "GetVersion" else TI
  TI.dumperCall "GetBuildInfo"

def writeToFile (TI : TraceInfo) (version : String) (opened : Bool) :
    TraceInfo × Option (List Line) :=
  if !opened then (TI, none)
  else
    let TI := (TI.setDumping true).writePrologue version
    (TI.setDumping false, some TI.log)

def startRegion (TI : TraceInfo) (writeOnStdErr : Bool) : TraceInfo :=
  { TI with regionStart := TI.log.length, inRegion := true, writeOnStdErr := writeOnStdErr }

/-- The lines of the log in the region file, if one is written. -/
def stopRegion (TI : TraceInfo) (version : String) (opened : Bool) :
    TraceInfo × Option (List Line) :=
  if !TI.inRegion then (TI, none)
  else
    let TI := { TI with inRegion := false }
    if TI.writeOnStdErr || !opened then (TI, none)
    else
      let TI := (TI.setDumping true).writePrologue version
      (TI.setDumping false, some (TI.log.drop TI.regionStart))

/-- `CppInterOpTraceJitCallInvokeImpl` -/
def traceInvoke (TI : TraceInfo) (name : String) (nargs : Nat) (self : Option Address) :
    TraceInfo :=
  let selfPart := spell (if self.isSome then TI.lookupHandle self else [])
  (TI.appendToLog (.comment ("JitCall::Invoke " ++ name ++ "(nargs=" ++ toString nargs ++
    ", self=" ++ (if selfPart = "" then "nullptr" else selfPart) ++ ")"))).1

/-- `CppInterOpTraceJitCallInvokeDestructorImpl` -/
def traceInvokeDestructor (TI : TraceInfo) (name : String) (object : Option Address)
    (nary : Nat) (withFree : Int) : TraceInfo :=
  (TI.appendToLog (.comment ("JitCall::InvokeDestructor " ++ name ++ "(object=" ++
    spell (TI.lookupHandle object) ++ ", nary=" ++ toString nary ++ ", withFree=" ++
    toString withFree ++ ")"))).1

/-- `CppInterOpTraceJitCallInvokeReturnImpl`; `registerPtr` holds of a constructor and of a
function that returns a pointer or a reference. -/
def traceInvokeReturn (TI : TraceInfo) (registerPtr : Bool) (result : Option Address) :
    TraceInfo :=
  if registerPtr then (TI.getOrRegisterHandle result).1 else TI

end TraceInfo

structure Tracer where
  info : TraceInfo := {}
  regions : List TraceData := []

inductive TraceOp
  | enter (name : String) (args : List Arg)
  | leave (val : Returned) (live : Address → List (Option Address))
  | wrapperLine (content : String)
  | invoke (name : String) (nargs : Nat) (self : Option Address)
  | invokeDestructor (name : String) (object : Option Address) (nary : Nat) (withFree : Int)
  | invokeReturn (registerPtr : Bool) (result : Option Address)
  | writeToFile (version : String) (opened : Bool)
  | startRegion (writeOnStdErr : Bool)
  | stopRegion (version : String) (opened : Bool)

namespace Tracer

def step (tracer : Tracer) : TraceOp → Tracer
  | .enter name args =>
      let (TI, data) := TraceRegion.enter tracer.info name args
      ⟨TI, data :: tracer.regions⟩
  | .leave val live =>
      match tracer.regions with
      | [] => tracer
      | data :: regions => ⟨TraceRegion.leave tracer.info (data.record val) live, regions⟩
  | .wrapperLine content => { tracer with info := (tracer.info.appendToLog (.comment content)).1 }
  | .invoke name nargs self => { tracer with info := tracer.info.traceInvoke name nargs self }
  | .invokeDestructor name object nary withFree =>
      { tracer with info := tracer.info.traceInvokeDestructor name object nary withFree }
  | .invokeReturn registerPtr result =>
      { tracer with info := tracer.info.traceInvokeReturn registerPtr result }
  | .writeToFile version opened =>
      { tracer with info := (tracer.info.writeToFile version opened).1 }
  | .startRegion writeOnStdErr => { tracer with info := tracer.info.startRegion writeOnStdErr }
  | .stopRegion version opened => { tracer with info := (tracer.info.stopRegion version opened).1 }

def file (tracer : Tracer) : TraceOp → Option (List Line)
  | .writeToFile version opened => (tracer.info.writeToFile version opened).2
  | .stopRegion version opened => (tracer.info.stopRegion version opened).2
  | _ => none

end Tracer

end CppInterOp
