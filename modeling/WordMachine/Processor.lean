import WordMachine.Registers
import WordMachine.Image
import WordMachine.Instruction.Fetch

/-!
# The processor

One program in execution: its registers and flags, its code with the program
counter as cursor, and its data with the stack pointer as cursor. Global variables
lie below the frame base, the stack lies from the frame base on.

`execute` carries out one instruction, `runFor` repeats fetching and executing
until the program counter reaches the end of the code or an allowance of
instructions is used up.
-/

namespace WordMachine

/-- A program in execution. -/
structure Processor where
  registers : Registers
  flags : Flags
  code : Store
  data : Store
  frameBase : Nat
  deriving DecidableEq, Repr

/-- A change of the processor that may end in a fault. The state it ends in is part
of the answer in either case. -/
abbrev Step := EStateM Fault Processor

namespace Processor

/-- Lets code be read, moving the program counter. -/
@[inline] def onCode {α : Type} (fetch : Fetch α) : Step α := fun processor =>
  let code := processor.code
  let rest := { processor with code := default }
  match fetch code with
  | .ok value code => .ok value { rest with code }
  | .error fault code => .error fault { rest with code }

/-- Runs a store operation on the data. -/
@[inline] def onData {α : Type} (fault : Fault) (access : Access α) : Step α := fun processor =>
  let data := processor.data
  let rest := { processor with data := default }
  match access data with
  | .ok value data => .ok value { rest with data }
  | .error _ data => .error fault { rest with data }

/-- The word at a data address. -/
def load (address : Nat) : Step Word := do
  match (← get).data.wordAt address with
  | .ok word => return word
  | .error _ => throw (.dataOutOfBounds address)

/-- The data address that an operand denotes. -/
def address (operand : Operand) : Step Nat := do
  match operand.mode with
  | .pointer | .global => return operand.value.toNat
  | .registerPointer => return ((← get).registers.get16 operand.value.toNat).toNat
  | .frame => return Header.addSizes (← get).frameBase operand.value.toNat
  | .absent | .register | .label | .number =>
      throw (.invalidDestination operand.mode operand.offset)

/-- The value of an operand. -/
def read (operand : Operand) : Step Word := do
  match operand.mode with
  | .register => return (← get).registers.get16 operand.value.toNat
  | .label | .number => return operand.value
  | .absent => throw (.missingOperand operand.offset)
  | .pointer | .global | .registerPointer | .frame => load (← address operand)

/-- Sets a register of sixteen bits. -/
def setRegister (index : Nat) (value : Word) : Step Unit :=
  modify fun processor => { processor with registers := processor.registers.set16 index value }

/-- Writes a word into the code. The program counter is moved there and put back,
so the instructions that follow are not disturbed. -/
def writeCode (offset : Nat) (value : Word) : Step Unit := do
  let resume := (← get).code.cursor
  let fault := Fault.codeOutOfBounds offset
  try
    onCode (Fetch.orFault (do Store.seek offset; Store.writeWord value) fault)
  finally
    onCode (Fetch.orFault (Store.seek resume) fault)

/-- Stores a value where an operand denotes. -/
def write (operand : Operand) (value : Word) : Step Unit := do
  match operand.mode with
  | .register => setRegister operand.value.toNat value
  | .label => writeCode operand.value.toNat value
  | .absent | .number | .pointer | .global | .registerPointer | .frame =>
    let address ← address operand
    onData (.dataOutOfBounds address) (Store.setWordAt address value)

/-- The destination of an instruction. -/
def dst (fetched : Fetched) : Step Operand := MonadExcept.ofExcept fetched.requireDst

/-- The source of an instruction. -/
def src (fetched : Fetched) : Step Operand := MonadExcept.ofExcept fetched.requireSrc

/-- The values of destination and source, in this order. -/
def readPair (fetched : Fetched) : Step (Word × Word) := do
  let left ← read (← dst fetched)
  let right ← read (← src fetched)
  return (left, right)

/-- Lets an operation decide a result and new flags. -/
def withFlags (operation : Flags → Word × Flags) : Step Word :=
  modifyGet fun processor =>
    let (result, flags) := operation processor.flags
    (result, { processor with flags })

/-- Source to destination. -/
def move (fetched : Fetched) : Step Unit := do
  let value ← read (← src fetched)
  write (← dst fetched) value

/-- The address of a global variable to the destination; any other source leaves
everything as it was. -/
def addressOf (fetched : Fetched) : Step Unit := do
  let source ← src fetched
  if source.mode = .global then
    write (← dst fetched) source.value

/-- A result of destination and source to the destination. -/
def binary (operation : Flags → Word → Word → Word × Flags) (fetched : Fetched) :
    Step Unit := do
  let (left, right) ← readPair fetched
  let result ← withFlags fun flags => operation flags left right
  write (← dst fetched) result

/-- A result of destination and source of which only the flags are kept. -/
def compare (operation : Flags → Word → Word → Word × Flags) (fetched : Fetched) :
    Step Unit := do
  let (left, right) ← readPair fetched
  discard (withFlags fun flags => operation flags left right)

/-- A result of the destination to the destination. -/
def unary (operation : Flags → Word → Word × Flags) (fetched : Fetched) : Step Unit := do
  let operand ← dst fetched
  let value ← read operand
  let result ← withFlags fun flags => operation flags value
  write operand result

/-- Quotient and remainder of unsigned words. -/
def divideUnsigned (dividend divisor : Word) : Word × Word :=
  (dividend / divisor, dividend % divisor)

/-- Quotient and remainder of signed words, rounded towards zero. The one quotient
that does not fit, 32768, wraps to -32768. -/
def divideSigned (dividend divisor : Word) : Word × Word :=
  ((dividend.toInt16 / divisor.toInt16).toUInt16, (dividend.toInt16 % divisor.toInt16).toUInt16)

/-- Quotient to the destination, then remainder to the trailing register. The flags
stay as they were. -/
def divide (division : Word → Word → Word × Word) (fetched : Fetched) : Step Unit := do
  let (dividend, divisor) ← readPair fetched
  if divisor = 0 then
    throw (.divisionByZero fetched.offset)
  let (quotient, remainder) := division dividend divisor
  match fetched.trailing with
  | none => throw (.missingOperand fetched.offset)
  | some register =>
    write (← dst fetched) quotient
    setRegister register.toNat remainder

/-- Moves the program counter to the value of the destination. -/
def jump (fetched : Fetched) : Step Unit := do
  let target ← read (← dst fetched)
  onCode (Fetch.orFault (Store.seek target.toNat) (.truncatedInstruction target.toNat))

/-- Carries out a step if the flags pass a test. -/
def whenFlags (test : Flags → Bool) (step : Step Unit) : Step Unit := do
  if test (← get).flags then step

/-- Puts the source on the stack, as one byte or as a word. -/
def push (fetched : Fetched) : Step Unit := do
  let value ← read (← src fetched)
  match fetched.trailing with
  | none => throw (.missingOperand fetched.offset)
  | some size =>
    unless size = 1 ∨ size = 2 do
      throw (.invalidPushSize size)
    let data := (← get).data
    unless data.Holds data.cursor size.toNat do
      throw .stackOverflow
    if size = 1 then
      onData .stackOverflow (Store.writeByte value.lowByte)
    else
      onData .stackOverflow (Store.writeWord value)

/-- Takes a word from the stack; nothing is taken from below the frame base. -/
def pop (fetched : Fetched) : Step Unit := do
  let processor ← get
  unless processor.frameBase + 2 ≤ processor.data.cursor do
    throw .stackUnderflow
  let slot := processor.data.cursor - 2
  let value ← load slot
  onData .stackUnderflow (Store.seek slot)
  write (← dst fetched) value

/-- Carries out one instruction. -/
def execute (fetched : Fetched) : Step Unit :=
  match fetched.opcode with
  | .mov => move fetched
  | .addrof => addressOf fetched
  | .add => binary Flags.add fetched
  | .sub => binary Flags.subtract fetched
  | .mul => binary Flags.mul fetched
  | .imul => binary Flags.imul fetched
  | .xor => binary Flags.xor fetched
  | .or => binary Flags.or fetched
  | .and => binary Flags.and fetched
  | .tst => compare Flags.and fetched
  | .cmp => compare Flags.subtract fetched
  | .div => divide divideUnsigned fetched
  | .idiv => divide divideSigned fetched
  | .inc => unary Flags.inc fetched
  | .dec => unary Flags.dec fetched
  | .neg => unary Flags.negate fetched
  | .not => unary Flags.not fetched
  | .jmp => jump fetched
  | .je => whenFlags Flags.equal (jump fetched)
  | .jne => whenFlags (fun flags => !flags.equal) (jump fetched)
  | .jg => whenFlags Flags.greater (jump fetched)
  | .jge => whenFlags Flags.greaterOrEqual (jump fetched)
  | .jl => whenFlags Flags.less (jump fetched)
  | .jle => whenFlags Flags.lessOrEqual (jump fetched)
  | .cmove => whenFlags Flags.equal (move fetched)
  | .cmovne => whenFlags (fun flags => !flags.equal) (move fetched)
  | .cmovg => whenFlags Flags.greater (move fetched)
  | .cmovge => whenFlags Flags.greaterOrEqual (move fetched)
  | .cmovl => whenFlags Flags.less (move fetched)
  | .cmovle => whenFlags Flags.lessOrEqual (move fetched)
  | .push => push fetched
  | .pop => pop fetched
  | .nop => pure ()

/-- Fetches the instruction at the program counter and carries it out. -/
def cycle : Step Unit := do
  execute (← onCode Fetch.instruction)

/-- Puts the stack pointer on the frame base and the program counter on the first
instruction, and clears registers and flags. -/
def boot : Step Unit := do
  onData .stackOverflow (Store.seek (← get).frameBase)
  onCode (Fetch.orFault (Store.seek Header.length) .truncatedHeader)
  modify fun processor =>
    { processor with registers := processor.registers.clear, flags := .clear }

/-- Runs until the program counter reaches `codeEnd`, for `allowance` instructions at
most. The answer is the number of instructions carried out, `done` among them, or
`none` if the allowance was used up before the end. -/
def runFor (codeEnd : Nat) : (allowance done : Nat) → Step (Option Nat)
  | 0, done => do
    return if (← get).code.cursor < codeEnd then none else some done
  | allowance + 1, done => do
    if (← get).code.cursor < codeEnd then
      cycle
      runFor codeEnd allowance (done + 1)
    else
      return some done

end Processor

end WordMachine
