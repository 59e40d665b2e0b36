import WordMachine.Diagnostics
import WordMachine.Instruction

/-!
# Fetching instructions

Reads the instruction under the cursor of a store and leaves the cursor on the one
behind it. A fetched instruction knows where it stands and where the fields of its
operands stand, so that faults can name the place and labels can be patched.
-/

namespace WordMachine

/-- An operand together with the offset of its field. -/
structure Operand extends Argument where
  offset : Nat
  deriving DecidableEq, Repr

/-- An instruction read from a store, and the offset of its opcode. -/
structure Fetched where
  opcode : Opcode
  offset : Nat
  dst : Option Operand
  src : Option Operand
  /-- The remainder register of a division or the size of a push. -/
  trailing : Option UInt8
  deriving DecidableEq, Repr

namespace Fetched

/-- The destination, which must be there. -/
def requireDst (fetched : Fetched) : Except Fault Operand :=
  match fetched.dst with
  | some operand => .ok operand
  | none => .error (.missingOperand fetched.offset)

/-- The source, which must be there. -/
def requireSrc (fetched : Fetched) : Except Fault Operand :=
  match fetched.src with
  | some operand => .ok operand
  | none => .error (.missingOperand fetched.offset)

end Fetched

/-- Reading code: the store's cursor moves, also on the way to a fault. -/
abbrev Fetch := EStateM Fault Store

namespace Fetch

/-- A store operation that has one fault for every failure. -/
def orFault {α : Type} (access : Access α) (fault : Fault) : Fetch α :=
  access.adaptExcept fun _ => fault

/-- Reads the field that a mode calls for. -/
def operand (offset : Nat) (mode : Mode) : Fetch Operand := do
  let place := (← get).cursor
  match mode.width with
  | 0 => throw (.missingOperand offset)
  | 1 =>
    let value ← orFault Store.readByte (.truncatedInstruction offset)
    return { mode, value := value.toUInt16, offset := place }
  | _ =>
    let value ← orFault Store.readWord (.truncatedInstruction offset)
    return { mode, value, offset := place }

/-- Reads an operand that the shape may lack. -/
def operandIf (carried : Bool) (offset : Nat) (mode : Mode) : Fetch (Option Operand) :=
  if carried then some <$> operand offset mode else return none

/-- Reads the opcode under the cursor. -/
def opcode (offset : Nat) : Fetch Opcode := do
  let byte ← orFault Store.readByte (.truncatedInstruction offset)
  match Opcode.ofByte? byte with
  | some opcode => return opcode
  | none => throw (.invalidOpcode byte)

/-- Reads a mode from half a byte. -/
def mode (nibble : UInt8) : Fetch Mode :=
  match Mode.ofNibble? nibble with
  | some mode => return mode
  | none => throw (.invalidMode nibble)

/-- Reads the instruction under the cursor. Both modes have to be modes, even of
operands that the shape lacks. -/
def instruction : Fetch Fetched := do
  let offset := (← get).cursor
  let opcode ← opcode offset
  let shape := opcode.shape
  if shape = .bare then
    return { opcode, offset, dst := none, src := none, trailing := none }
  let (low, high) := Mode.nibbles (← orFault Store.readByte (.truncatedInstruction offset))
  let dstMode ← mode low
  let srcMode ← mode high
  let dst ← operandIf shape.hasDst offset dstMode
  let src ← operandIf shape.hasSrc offset srcMode
  let trailing ←
    if shape.hasTrailing then
      some <$> orFault Store.readByte (.truncatedInstruction offset)
    else
      pure none
  return { opcode, offset, dst, src, trailing }

end Fetch

end WordMachine
