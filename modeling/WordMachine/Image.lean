import WordMachine.Diagnostics
import WordMachine.Instruction

/-!
# Images

An executable image opens with a header of twenty-eight bytes: the magic number,
the length of the code, and the sizes of the data segment and the stack. The code
follows directly.

A writer collects code behind a place kept free for the header. The header is
filled in at the end, when the length of the code is known. `code_emit` says that
emitting an instruction appends its encoding.
-/

namespace WordMachine

/-! ## Headers -/

/-- The first twenty-eight bytes of an image. -/
structure Header where
  magic : UInt32
  codeSize : UInt64
  dataSize : UInt64
  stackSize : UInt64
  deriving DecidableEq, Repr

namespace Header

/-- Marks the start of every executable image. -/
def expectedMagic : UInt32 := 0xF00CF00D

/-- The length of a header in bytes. -/
def length : Nat := 28

/-- The largest number of sixty-four bits; sums of sizes stop there. -/
def sizeLimit : Nat := UInt64.size - 1

/-- A sum of sizes that stops at the largest number of sixty-four bits. -/
def addSizes (first second : Nat) : Nat := min (first + second) sizeLimit

/-- The offset behind the last instruction. -/
def codeEnd (header : Header) : Nat := addSizes header.codeSize.toNat length

/-- The size of the data segment and the stack together. -/
def segmentSize (header : Header) : Nat :=
  addSizes header.dataSize.toNat header.stackSize.toNat

/-- Reads the four fields from the cursor on. -/
def fields : Access Header := do
  let magic ← Store.readDword
  let codeSize ← Store.readQword
  let dataSize ← Store.readQword
  let stackSize ← Store.readQword
  return { magic, codeSize, dataSize, stackSize }

/-- The header at the start of a store; the cursor plays no part. -/
def read (store : Store) : Except Fault Header :=
  match fields { store with cursor := 0 } with
  | .error _ _ => .error .truncatedHeader
  | .ok header _ =>
    if header.magic = expectedMagic then .ok header else .error (.badMagic header.magic)

/-- Writes the header at the start of a store, field by field, and leaves the
cursor on the first instruction. In a store that is too short the fields that fit
are written nevertheless. -/
def write (header : Header) : Access Unit := do
  Store.seek 0
  Store.writeDword header.magic
  Store.writeQword header.codeSize
  Store.writeQword header.dataSize
  Store.writeQword header.stackSize

end Header

/-! ## Writing images -/

/-- An executable image; its cursor is the program counter. -/
abbrev Image := Store

/-- An image longer than addresses reach. -/
structure ImageTooLarge where
  size : Nat
  deriving DecidableEq, Repr

/-- The text shown to the user. -/
def ImageTooLarge.message (error : ImageTooLarge) : String :=
  s!"image of {error.size} bytes exceeds the 65536 byte limit"

/-- The code emitted so far. -/
structure Writer where
  code : Array UInt8
  deriving DecidableEq, Repr

namespace Writer

/-- The largest image: nothing behind it has an address of one word. -/
def maxImageSize : Nat := 0x10000

def empty : Writer := ⟨#[]⟩

/-- The length of the image if it ended here. -/
def size (writer : Writer) : Nat := Header.length + writer.code.size

/-- The offset of the next byte, which must fit a word. -/
def offset (writer : Writer) : Except ImageTooLarge Word :=
  if writer.size < maxImageSize then
    .ok (UInt16.ofNat writer.size)
  else
    .error ⟨writer.size⟩

def emitByte (writer : Writer) (byte : UInt8) : Writer := ⟨writer.code.push byte⟩

def emitBytes (writer : Writer) (bytes : List UInt8) : Writer := bytes.foldl emitByte writer

def emitWord (writer : Writer) (word : Word) : Writer :=
  writer.emitBytes (LittleEndian.encode 2 word.toNat)

def emitOpcode (writer : Writer) (opcode : Opcode) : Writer := writer.emitByte opcode.toByte

def emitModes (writer : Writer) (dst src : Mode) : Writer := writer.emitByte (Mode.pack dst src)

/-- Emits an operand's field at the width its mode calls for. -/
def emitField (writer : Writer) (argument : Argument) : Writer :=
  writer.emitBytes argument.encode

/-- Emits a whole instruction. -/
def emit (writer : Writer) (instruction : Instruction) : Writer :=
  let writer := writer.emitOpcode instruction.opcode
  if instruction.opcode.shape = .bare then
    writer
  else
    let writer := writer.emitModes instruction.dst.mode instruction.src.mode
    let writer := writer.emitField instruction.dst
    let writer := writer.emitField instruction.src
    writer.emitBytes instruction.trailing.toList

/-- The finished image, its cursor on the first instruction. -/
def finish (writer : Writer) (dataSize stackSize : UInt64) : Except ImageTooLarge Image :=
  if maxImageSize < writer.size then
    .error ⟨writer.size⟩
  else
    let header : Header :=
      { magic := Header.expectedMagic
        codeSize := UInt64.ofNat writer.code.size
        dataSize
        stackSize }
    match header.write (.ofBytes (Array.replicate Header.length 0 ++ writer.code)) with
    | .ok () image => .ok image
    | .error _ _ => .error ⟨writer.size⟩

@[simp] theorem code_emitBytes (writer : Writer) (bytes : List UInt8) :
    (writer.emitBytes bytes).code.toList = writer.code.toList ++ bytes := by
  induction bytes generalizing writer with
  | nil => simp [emitBytes]
  | cons byte rest ih =>
      have unfolded : writer.emitBytes (byte :: rest) = (writer.emitByte byte).emitBytes rest := rfl
      simp [unfolded, ih, emitByte]

theorem code_emit (writer : Writer) (instruction : Instruction) :
    (writer.emit instruction).code.toList = writer.code.toList ++ instruction.encode := by
  simp only [emit, Instruction.encode, Instruction.encodeOperands]
  split <;> simp [emitField, emitModes, emitOpcode, emitByte]

end Writer

end WordMachine
