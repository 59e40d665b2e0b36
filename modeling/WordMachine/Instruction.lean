import WordMachine.Word

/-!
# Instructions and their encoding

The thirty-three operations of the machine, the byte that encodes each of them,
the lower-case mnemonics that spell them in source text, and the shape of their
operands. `ofByte?_toByte` and `toByte_of_ofByte?` say that the byte determines
the opcode and the opcode the byte.

A mode says how the field of an operand is read: as a register, an address, an
offset or a literal. The modes of both operands share one byte, the destination
in the low half and the source in the high half.

In an image an instruction is its opcode, a byte with the modes of both operands,
the field of the destination, the field of the source and a trailing byte. Only
divisions and pushes have the trailing byte, and an opcode without operands stands
alone. A field is as wide as its mode says, lowest byte first.
-/

namespace WordMachine

/-! ## Opcodes -/

/-- What an instruction does. -/
inductive Opcode where
  | mov | addrof | add | mul | inc | dec | neg | not
  | xor | or | and | tst | cmp | je | imul | div
  | idiv | sub | jmp | jne | jg | jge | jl | jle
  | cmove | cmovne | cmovg | cmovge | cmovl | cmovle | push | pop
  | nop
  deriving DecidableEq, Repr, Inhabited

/-- Which operands an instruction has, in the order of source text. -/
inductive Shape where
  /-- No operand: the bare opcode. -/
  | bare
  /-- One destination. -/
  | dst
  /-- One source, followed in the image by a size byte. -/
  | srcSized
  /-- A source, then a destination. -/
  | srcDst
  /-- A source, a destination and the register that receives the remainder. -/
  | srcDstRemainder
  deriving DecidableEq, Repr

namespace Shape

/-- How many operands source text gives. -/
def operandCount : Shape → Nat
  | .bare => 0
  | .dst | .srcSized => 1
  | .srcDst => 2
  | .srcDstRemainder => 3

def hasDst : Shape → Bool
  | .dst | .srcDst | .srcDstRemainder => true
  | .bare | .srcSized => false

def hasSrc : Shape → Bool
  | .srcSized | .srcDst | .srcDstRemainder => true
  | .bare | .dst => false

/-- Whether the encoding ends in a byte of its own: the size of a push or the
remainder register of a division. -/
def hasTrailing : Shape → Bool
  | .srcSized | .srcDstRemainder => true
  | .bare | .dst | .srcDst => false

end Shape

namespace Opcode

/-- Every opcode, in the order of its byte. -/
def all : Array Opcode := #[
  mov, addrof, add, mul, inc, dec, neg, not,
  xor, or, and, tst, cmp, je, imul, div,
  idiv, sub, jmp, jne, jg, jge, jl, jle,
  cmove, cmovne, cmovg, cmovge, cmovl, cmovle, push, pop,
  nop]

/-- The byte that opens the encoding. -/
def toByte : Opcode → UInt8
  | mov => 0 | addrof => 1 | add => 2 | mul => 3
  | inc => 4 | dec => 5 | neg => 6 | not => 7
  | xor => 8 | or => 9 | and => 10 | tst => 11
  | cmp => 12 | je => 13 | imul => 14 | div => 15
  | idiv => 16 | sub => 17 | jmp => 18 | jne => 19
  | jg => 20 | jge => 21 | jl => 22 | jle => 23
  | cmove => 24 | cmovne => 25 | cmovg => 26 | cmovge => 27
  | cmovl => 28 | cmovle => 29 | push => 30 | pop => 31
  | nop => 32

/-- The opcode a byte stands for. -/
def ofByte? (byte : UInt8) : Option Opcode := all[byte.toNat]?

@[simp] theorem ofByte?_toByte (opcode : Opcode) : ofByte? opcode.toByte = some opcode := by
  cases opcode <;> rfl

theorem toByte_of_ofByte? {byte : UInt8} {opcode : Opcode}
    (known : ofByte? byte = some opcode) : opcode.toByte = byte := by
  have inRange : byte.toNat < 33 := (Array.getElem?_eq_some_iff.mp known).1
  have every : ∀ n : Fin 33, ∀ found, all[n.val]? = some found →
      found.toByte = UInt8.ofNat n.val := by decide
  have match_ := every ⟨byte.toNat, inRange⟩ opcode known
  simpa using match_

/-- The operands an opcode takes. -/
def shape : Opcode → Shape
  | mov | addrof | add | sub | mul | imul | xor | or | and | tst | cmp
  | cmove | cmovne | cmovg | cmovge | cmovl | cmovle => .srcDst
  | div | idiv => .srcDstRemainder
  | inc | dec | neg | not | jmp | je | jne | jg | jge | jl | jle | pop => .dst
  | push => .srcSized
  | nop => .bare

/-- Every lower-case spelling. The tests for zero have a second name each. -/
def spellings : List (List Char × Opcode) :=
  [("mov", mov), ("addrof", addrof), ("add", add), ("sub", sub), ("mul", mul),
   ("imul", imul), ("div", div), ("idiv", idiv), ("inc", inc), ("dec", dec),
   ("neg", neg), ("not", not), ("xor", xor), ("or", or), ("and", and),
   ("tst", tst), ("cmp", cmp), ("jmp", jmp), ("je", je), ("jz", je),
   ("jne", jne), ("jnz", jne), ("jg", jg), ("jge", jge), ("jl", jl),
   ("jle", jle), ("cmove", cmove), ("cmovz", cmove), ("cmovne", cmovne),
   ("cmovnz", cmovne), ("cmovg", cmovg), ("cmovge", cmovge), ("cmovl", cmovl),
   ("cmovle", cmovle), ("push", push), ("pop", pop), ("nop", nop)].map
    fun (spelling, opcode) => (spelling.toList, opcode)

/-- The opcode spelled by a lower-case mnemonic. -/
def ofMnemonic? (mnemonic : List Char) : Option Opcode := spellings.lookup mnemonic

end Opcode

/-! ## Operand modes -/

/-- How an operand field maps to a value or an address. -/
inductive Mode where
  /-- No operand, no field. -/
  | absent
  /-- A sixteen-bit register. -/
  | register
  /-- An absolute data address. -/
  | pointer
  /-- An offset into the code; a write lands in the code itself. -/
  | label
  /-- An immediate number, never a destination. -/
  | number
  /-- The data address that a register holds. -/
  | registerPointer
  /-- The data address given to a global variable. -/
  | global
  /-- An offset from the frame base, given to a local variable. -/
  | frame
  deriving DecidableEq, Repr, Inhabited

namespace Mode

/-- The name that messages use. -/
def name : Mode → String
  | .absent => "None"
  | .register => "Register"
  | .pointer => "Pointer"
  | .label => "Label"
  | .number => "Number"
  | .registerPointer => "RegPointer"
  | .global => "Variable"
  | .frame => "Local"

/-- The half byte that encodes a mode. -/
def toNibble : Mode → UInt8
  | .absent => 0
  | .register => 1
  | .pointer => 2
  | .label => 3
  | .number => 4
  | .registerPointer => 5
  | .global => 6
  | .frame => 7

def ofNibble? : UInt8 → Option Mode
  | 0 => some .absent
  | 1 => some .register
  | 2 => some .pointer
  | 3 => some .label
  | 4 => some .number
  | 5 => some .registerPointer
  | 6 => some .global
  | 7 => some .frame
  | _ => none

/-- The width of the field in bytes. -/
def width : Mode → Nat
  | .absent => 0
  | .register | .registerPointer => 1
  | .pointer | .label | .number | .global | .frame => 2

/-- Whether the field is a register number. -/
def isRegisterField (mode : Mode) : Bool := mode.width == 1

/-- The byte that holds both modes. -/
def pack (dst src : Mode) : UInt8 := src.toNibble <<< 4 ||| dst.toNibble

/-- The low and the high half of a mode byte. -/
def nibbles (byte : UInt8) : UInt8 × UInt8 := (byte &&& 0x0F, byte >>> 4)

@[simp] theorem ofNibble?_toNibble (mode : Mode) : ofNibble? mode.toNibble = some mode := by
  cases mode <;> rfl

@[simp] theorem nibbles_pack (dst src : Mode) :
    nibbles (pack dst src) = (dst.toNibble, src.toNibble) := by
  cases dst <;> cases src <;> rfl

end Mode

/-! ## Instructions -/

/-- One operand: how its field is read, and what the field holds. -/
structure Argument where
  mode : Mode
  value : Word
  deriving DecidableEq, Repr

namespace Argument

/-- The operand an instruction does not have. -/
def absent : Argument := ⟨.absent, 0⟩

/-- The bytes of the operand's field. -/
def encode (argument : Argument) : List UInt8 :=
  LittleEndian.encode argument.mode.width argument.value.toNat

@[simp] theorem length_encode (argument : Argument) :
    argument.encode.length = argument.mode.width := by
  simp [encode]

end Argument

/-- An instruction, wherever it stands. -/
structure Instruction where
  opcode : Opcode
  dst : Argument
  src : Argument
  trailing : Option UInt8
  deriving DecidableEq, Repr

namespace Instruction

/-- The bytes behind the opcode. -/
def encodeOperands (instruction : Instruction) : List UInt8 :=
  if instruction.opcode.shape = .bare then
    []
  else
    Mode.pack instruction.dst.mode instruction.src.mode ::
      (instruction.dst.encode ++ instruction.src.encode ++ instruction.trailing.toList)

/-- The bytes of an instruction. -/
def encode (instruction : Instruction) : List UInt8 :=
  instruction.opcode.toByte :: instruction.encodeOperands

end Instruction

end WordMachine
