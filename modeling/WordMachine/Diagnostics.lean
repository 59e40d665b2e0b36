import WordMachine.Instruction
import WordMachine.Pool

/-!
# Faults and reports

Everything that can stop a program: an image that is none, a data segment that
does not fit the memory, code that decodes to nothing, and what an instruction can
do wrong when it is executed. Errors of the assembler and of runs are reported, oldest first,
for a person to read, those of the assembler with the line they are found on.
-/

namespace WordMachine

/-- The number of a line, counted from one. Numbers end before lines need to: from the last one
on all lines have the same. -/
structure LineNumber where
  toNat : Nat
  toNat_le : toNat ≤ 0xFFFFFFFF
  deriving DecidableEq, Repr

namespace LineNumber

/-- The last number. -/
def last : Nat := 0xFFFFFFFF

/-- The number of the line that is the `count`-th; zero stands in front of the first. -/
def nth (count : Nat) : LineNumber := ⟨min count last, Nat.min_le_right ..⟩

instance (count : Nat) : OfNat LineNumber count := ⟨nth count⟩

instance : NatCast LineNumber := ⟨nth⟩

instance : CoeOut LineNumber Nat := ⟨toNat⟩

/-- Counts on, and stays at the last number. -/
instance : Add LineNumber := ⟨fun line more => nth (line.toNat + more.toNat)⟩

/-- Numbers are those of the lines as long as there are enough. -/
theorem toNat_nth {count : Nat} (few : count ≤ last) : (nth count).toNat = count :=
  Nat.min_eq_left few

theorem eq_of_toNat {line other : LineNumber} (same : line.toNat = other.toNat) : line = other := by
  cases line
  cases other
  cases same
  rfl

theorem nth_toNat (line : LineNumber) : nth line.toNat = line :=
  eq_of_toNat (Nat.min_eq_left line.toNat_le)

theorem nth_add_nth (count more : Nat) : nth count + nth more = nth (count + more) := by
  apply eq_of_toNat
  change min (min count last + min more last) last = min (count + more) last
  omega

theorem nth_succ (count : Nat) : nth count + 1 = nth (count + 1) := nth_add_nth count 1

theorem add_zero (line : LineNumber) : line + 0 = line := by
  change nth line.toNat = line
  exact nth_toNat line

theorem add_assoc (line more further : LineNumber) :
    line + more + further = line + (more + further) := by
  rw [← nth_toNat line, ← nth_toNat more, ← nth_toNat further]
  simp only [nth_add_nth, Nat.add_assoc]

end LineNumber

/-- Why an image does not run, or why a run stopped before the end of the code. -/
inductive Fault where
  | badMagic (magic : UInt32)
  | truncatedHeader
  | allocationRefused (cause : Pool.Refusal)
  | invalidOpcode (byte : UInt8)
  | invalidMode (nibble : UInt8)
  /-- The instruction at this offset runs past the end of the image. -/
  | truncatedInstruction (offset : Nat)
  | missingOperand (offset : Nat)
  /-- The operand whose field is at this offset can not be written. -/
  | invalidDestination (mode : Mode) (offset : Nat)
  | divisionByZero (offset : Nat)
  | stackOverflow
  | stackUnderflow
  | invalidPushSize (size : UInt8)
  | dataOutOfBounds (address : Nat)
  | codeOutOfBounds (offset : Nat)
  | budgetExhausted (budget : Nat)
  deriving DecidableEq, Repr

namespace Fault

/-- A number in hexadecimal, with `0x` in front and zeros up to `digits` digits. -/
def hexadecimal (digits value : Nat) : String :=
  let text := String.ofList (Nat.toDigits 16 value)
  "0x" ++ "".pushn '0' (digits - text.length) ++ text

/-- The text shown to the user. -/
def message : Fault → String
  | .badMagic magic => s!"bad executable, magic was {hexadecimal 8 magic.toNat}"
  | .truncatedHeader => "the image is shorter than its header"
  | .allocationRefused cause => s!"could not allocate the data segment: {cause.message}"
  | .invalidOpcode byte => s!"the value {byte.toNat} is an invalid opcode"
  | .invalidMode nibble => s!"the value {nibble.toNat} is an invalid operand mode"
  | .truncatedInstruction offset =>
      s!"instruction at {offset} runs past the end of the image"
  | .missingOperand offset => s!"instruction at {offset} is missing an operand"
  | .invalidDestination mode offset =>
      s!"operand mode {mode.name} can not be written at {offset}"
  | .divisionByZero offset => s!"division by zero at {offset}"
  | .stackOverflow => "attempted push would overflow the stack"
  | .stackUnderflow => "attempted pop would underflow the stack"
  | .invalidPushSize size => s!"the value {size.toNat} is an invalid push size"
  | .dataOutOfBounds address => s!"data access at {address} is out of bounds"
  | .codeOutOfBounds offset => s!"code write at {offset} is out of bounds"
  | .budgetExhausted budget =>
      s!"the step budget of {budget} instructions was exhausted"

end Fault

/-- One error as shown to the user, with the source line it belongs to. -/
structure Report where
  message : String
  line : Option LineNumber
  deriving DecidableEq, Repr

/-- All reports so far. -/
structure Diagnostics where
  reports : Array Report
  deriving DecidableEq, Repr

namespace Diagnostics

def empty : Diagnostics := ⟨#[]⟩

def isEmpty (diagnostics : Diagnostics) : Bool := diagnostics.reports.isEmpty

def count (diagnostics : Diagnostics) : Nat := diagnostics.reports.size

/-- Adds one report. -/
def report (diagnostics : Diagnostics) (message : String) (line : Option LineNumber) :
    Diagnostics :=
  ⟨diagnostics.reports.push ⟨message, line⟩⟩

end Diagnostics

end WordMachine
