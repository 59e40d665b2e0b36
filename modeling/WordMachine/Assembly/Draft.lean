import WordMachine.Assembly.Declarations
import WordMachine.Image
import WordMachine.Instruction.Fetch

/-!
# Drafts

A draft is an image in the making: the code emitted so far, in which a label stands
as its position in the label table, because its address may not be known yet. Lines
are added one by one; each either adds to the draft or is turned down with the
cause.

In the image of a draft every label operand holds a position in the label table.
Linking walks over the instructions of the image and puts the label's address in
its place.
-/

namespace WordMachine.Assembly

/-- A local variable: a slot at a fixed offset from the frame base. -/
structure Local where
  name : Name
  offset : Word
  type : VariableType
  deriving DecidableEq, Repr

/-- A pragma that was passed over: its line, and its name if it had one. -/
structure IgnoredPragma where
  line : LineNumber
  name : Option Token
  deriving DecidableEq, Repr

/-- An image in the making. -/
structure Draft where
  labels : Array Label
  globals : Array Global
  locals : Array Local
  writer : Writer
  /-- The source line of each instruction, in the order of the code. -/
  instructionLines : Array LineNumber
  /-- The offset of the next local. -/
  frameSize : Word
  /-- Whether a push or a pop was written by hand. The offset of a further local
  would not be known after that. -/
  stackUsed : Bool
  dataSize : UInt64
  stackSize : UInt64
  /-- The line read last. -/
  line : LineNumber
  ignoredPragmas : Array IgnoredPragma
  deriving DecidableEq, Repr

/-- A change of a draft that may be turned down. What was changed before stays
changed. -/
abbrev Drafting := EStateM Cause Draft

namespace Draft

/-- The size of the data segment unless a pragma sets it. -/
def defaultDataSize : UInt64 := 4096

/-- The size of the stack unless a pragma sets it. -/
def defaultStackSize : UInt64 := 256

/-- A draft without code for the names of a source. -/
def ofDeclarations (declarations : Declarations) : Draft where
  labels := declarations.labels
  globals := declarations.globals
  locals := #[]
  writer := .empty
  instructionLines := #[]
  frameSize := 0
  stackUsed := false
  dataSize := defaultDataSize
  stackSize := defaultStackSize
  line := 0
  ignoredPragmas := #[]

/-- Starts over for the names that are known: everything else is set as in a new draft. -/
def reset (draft : Draft) : Draft :=
  { draft with
    locals := #[]
    writer := .empty
    instructionLines := #[]
    frameSize := 0
    stackUsed := false
    dataSize := defaultDataSize
    stackSize := defaultStackSize
    line := 0
    ignoredPragmas := #[] }

/-- Emits an instruction of the current line. -/
def emit (instruction : Instruction) : Drafting Unit :=
  modify fun draft =>
    { draft with
      instructionLines := draft.instructionLines.push draft.line
      writer := draft.writer.emit instruction }

/-- Turns down what can not be a name. -/
def checkName (token : Token) : Drafting Unit := do
  unless Name.isIdentifier token do throw .malformed
  unless Name.Fits token do throw .nameTooLong

/-- Places a label at the end of the code. -/
def placeLabel (name : Token) : Drafting Unit := do
  checkName name
  let draft ← get
  let address ←
    match draft.writer.offset with
    | .ok address => pure address
    | .error error => throw (.imageTooLarge error)
  match findLabel? draft.labels name with
  | none => throw .unresolvedLabel
  | some index =>
    if (draft.labels[index]?.bind Label.address).isSome then
      throw .duplicateLabel
    modify fun draft =>
      { draft with
        labels := draft.labels.modify index fun label => { label with address := some address } }

/-- Declares a global that was given its address before. It has to end where the
data segment ends or earlier, for the stack begins there. -/
def declareGlobal (name : Token) : Drafting Unit := do
  checkName name
  let draft ← get
  match findGlobal? draft.globals name with
  | none => throw .invalidAddress
  | some index =>
    if draft.globals[index]?.any Global.declared then
      throw .duplicateVariable
    unless draft.globals[index]?.all (·.fits draft.dataSize) do
      throw .invalidAddress
    modify fun draft =>
      { draft with
        globals := draft.globals.modify index fun global =>
          { global with declared := true } }

/-- Declares the globals named on one line. -/
def declareGlobals (names : List Token) : Drafting Unit := do
  if names.isEmpty then throw .malformed
  names.forM declareGlobal

/-- Declares a local and pushes a zero for it, as wide as its type. -/
def declareLocal (arguments : List Token) : Drafting Unit := do
  match arguments with
  | [keyword, name] =>
    let type ←
      match VariableType.ofKeyword? keyword with
      | some type => pure type
      | none => throw .invalidVariableType
    if (← get).stackUsed then throw .localAfterStackUse
    checkName name
    let draft ← get
    if draft.locals.any fun other => other.name == name then
      throw .duplicateVariable
    match Declarations.addressAfter? draft.frameSize type.size with
    | none => throw .invalidAddress
    | some frameSize =>
      modify fun draft =>
        { draft with
          locals := draft.locals.push ⟨name, draft.frameSize, type⟩
          frameSize }
      emit
        { opcode := .push
          dst := .absent
          src := ⟨.number, 0⟩
          trailing := some (UInt8.ofNat type.size) }
  | _ => throw .malformed

/-- Sets a size, which has to leave room for every global declared so far. -/
def setSize (set : UInt64 → Draft → Draft) (arguments : List Token) : Drafting Unit := do
  match arguments with
  | [value] =>
    match Numeral.size? value with
    | none => throw .invalidPragmaArgument
    | some size =>
      modify (set size)
      let draft ← get
      if draft.globals.any fun global =>
          global.declared && !global.fits draft.dataSize then
        throw .invalidAddress
  | _ => throw .invalidPragmaArgument

/-- Notes that a pragma means nothing here. -/
def ignorePragma (name : Option Token) : Drafting Unit :=
  modify fun draft =>
    { draft with ignoredPragmas := draft.ignoredPragmas.push ⟨draft.line, name⟩ }

/-- Obeys a pragma that sets a size; others are passed over. -/
def pragma (arguments : List Token) : Drafting Unit := do
  match arguments with
  | [] => ignorePragma none
  | name :: arguments =>
    if name.spells "datapagesize" then
      setSize (fun size draft => { draft with dataSize := size }) arguments
    else if name.spells "stacksize" then
      setSize (fun size draft => { draft with stackSize := size }) arguments
    else
      ignorePragma (some name)

/-- A register as an operand of the given mode. -/
def registerArgument (mode : Mode) (token : Token) : Except Cause Argument :=
  match Name.register? token with
  | some number => .ok ⟨mode, number.toUInt16⟩
  | none => .error .invalidRegister

/-- An address in brackets: a register that holds it, or a number. -/
def bracketed (inner : List Char) : Except Cause Argument :=
  if inner.getLast? = some ']' then
    let token := inner.dropLast
    if Name.isRegister token then
      registerArgument .registerPointer token
    else if token.head?.any Char.isDigit then
      match Numeral.word? token with
      | some address => .ok ⟨.pointer, address⟩
      | none => .error .invalidAddress
    else
      .error .malformed
  else
    .error .malformed

/-- A name as an operand. Labels come first, then globals, then locals. A label
stands as its position in the label table. -/
def named (draft : Draft) (name : Token) : Except Cause Argument :=
  match findLabel? draft.labels name with
  | some index =>
    if index < 0x10000 then .ok ⟨.label, UInt16.ofNat index⟩ else .error .invalidAddress
  | none =>
    match draft.globals.find? fun global => global.name == name with
    | some global => .ok ⟨.global, global.address⟩
    | none =>
      match draft.locals.find? fun other => other.name == name with
      | some slot => .ok ⟨.frame, slot.offset⟩
      | none =>
        if Name.hasRegisterPrefix name then .error .invalidRegister else .error .unknownToken

/-- What a token means as an operand. -/
def argument (draft : Draft) (token : Token) : Except Cause Argument :=
  match token with
  | '[' :: inner => bracketed inner
  | _ =>
    if token.head?.any fun char => char.isDigit || char == '-' then
      match Numeral.word? token with
      | some value => .ok ⟨.number, value⟩
      | none => .error .invalidNumber
    else if Name.isRegister token then
      registerArgument .register token
    else
      draft.named token

/-- What a token means as a destination, which can not be a number. -/
def destination (draft : Draft) (token : Token) : Except Cause Argument := do
  let argument ← draft.argument token
  if argument.mode = .number then throw .numberAsDestination
  return argument

/-- The register that receives a remainder. -/
def remainderRegister (token : Token) : Except Cause UInt8 :=
  match Name.register? token with
  | some number => .ok number
  | none => .error .invalidRegister

/-- The size byte of a push written by hand: a word. -/
def pushSize : UInt8 := 2

/-- The instruction that an opcode and its operands spell. Source text gives the
source before the destination, but the destination is looked at first. -/
def instruction (draft : Draft) (opcode : Opcode) (operands : List Token) :
    Except Cause Instruction := do
  match opcode.shape, operands with
  | .bare, [] => return { opcode, dst := .absent, src := .absent, trailing := none }
  | .dst, [dst] =>
    return { opcode, dst := ← draft.destination dst, src := .absent, trailing := none }
  | .srcSized, [src] =>
    return { opcode, dst := .absent, src := ← draft.argument src, trailing := some pushSize }
  | .srcDst, [src, dst] =>
    let dst ← draft.destination dst
    let src ← draft.argument src
    return { opcode, dst, src, trailing := none }
  | .srcDstRemainder, [src, dst, remainder] =>
    let dst ← draft.destination dst
    let src ← draft.argument src
    let register ← remainderRegister remainder
    return { opcode, dst, src, trailing := some register }
  | _, _ => throw .malformed

/-- Encodes an instruction. -/
def addInstruction (mnemonic : Token) (operands : List Token) : Drafting Unit := do
  match Opcode.ofMnemonic? mnemonic.lowerCase with
  | none => throw .unknownInstruction
  | some opcode =>
    let instruction ← MonadExcept.ofExcept ((← get).instruction opcode operands)
    if opcode = .push ∨ opcode = .pop then
      modify fun draft => { draft with stackUsed := true }
    emit instruction

/-- Encodes a statement. -/
def addStatement : Statement → Drafting Unit
  | .blank => pure ()
  | .label name [] => placeLabel name
  | .label name (mnemonic :: operands) => do
    placeLabel name
    addInstruction mnemonic operands
  | .pragma arguments => pragma arguments
  | .localVariable arguments => declareLocal arguments
  | .globals _ names => declareGlobals names
  | .instruction mnemonic operands => addInstruction mnemonic operands

/-- Encodes the text of a line. -/
def addText (text : List Char) : Drafting Unit :=
  match Line.tokens? text with
  | none => throw .tooManyTokens
  | some tokens => addStatement (.ofTokens tokens)

/-- Encodes the next line; an error carries its number. -/
def addLine (text : List Char) : EStateM Error Draft Unit := do
  modify fun draft => { draft with line := draft.line + 1 }
  let line := (← get).line
  (addText text).adaptExcept fun cause => ⟨some line, cause⟩

end Draft

/-! ## Linking -/

/-- Changing an image; an error says on which line. -/
abbrev Linking := EStateM Error Store

namespace Linking

/-- The address of the label that an operand stands for. -/
def labelAddress? (labels : Array Label) (operand : Operand) : Option Word :=
  labels[operand.value.toNat]?.bind Label.address

/-- Puts a label's address into the field of an operand. Operands of other modes
are left alone. -/
def resolve (labels : Array Label) (line : LineNumber) (fetched : Fetched) (operand : Operand) :
    Linking Unit := do
  if operand.mode = .label then
    match labelAddress? labels operand with
    | none => throw ⟨some line, .unresolvedLabel⟩
    | some address =>
      (Store.setWordAt operand.offset address).adaptExcept fun _ =>
        ⟨some line, .undecodable (.truncatedInstruction fetched.offset)⟩

/-- Resolves the operands of the instruction under the cursor. -/
def instruction (labels : Array Label) (line : LineNumber) : Linking Unit := do
  let fetched ← Fetch.instruction.adaptExcept fun fault => ⟨some line, .undecodable fault⟩
  (fetched.dst.toList ++ fetched.src.toList).forM (resolve labels line fetched)

/-- Resolves instructions up to the end of the image, `count` of them at most.
Instruction after instruction takes the next of `lines`, and `lastLine` stands in
when they are used up. -/
def instructions (labels : Array Label) (lastLine : LineNumber) :
    (count : Nat) → (lines : List LineNumber) → Linking Unit
  | 0, _ => pure ()
  | count + 1, lines => do
    let image ← get
    if image.cursor < image.size then
      instruction labels (lines.headD lastLine)
      instructions labels lastLine count lines.tail

end Linking

namespace Draft

/-- Links the image of a draft. An instruction has at least one byte, so there are
no more instructions than bytes. -/
def link (draft : Draft) (image : Image) : Except Error Image :=
  match Linking.instructions draft.labels draft.line image.size
      draft.instructionLines.toList image with
  | .ok () image => .ok image
  | .error error _ => .error error

end Draft

end WordMachine.Assembly
