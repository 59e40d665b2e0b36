import WordMachine.Word

/-!
# Registers and status flags

Three banks of registers, of sixteen, thirty-two and sixty-four bits. A register
outside its bank reads as all ones, and what is written to it is lost.

Every arithmetic or logic operation takes two words, or one, to a result of
sixteen bits and to new flags. It sets each flag it owns afresh: `inc` and `dec`
do not own the carry, all others own all four.

The relations `equal`, `greater`, `less` and their kin read the flags that a
comparison left. They are the usual ones for signed numbers, but with the overflow
of `subtract` they order words of different sign as unsigned numbers.
-/

namespace WordMachine

/-- The contents of the three banks. -/
structure Registers where
  bank16 : Array Word
  bank32 : Array UInt32
  bank64 : Array UInt64
  deriving DecidableEq, Repr

namespace Registers

/-- The most registers of sixteen bits. -/
def max16 : Nat := 12

/-- The most registers of thirty-two bits. -/
def max32 : Nat := 24

/-- The most registers of sixty-four bits. -/
def max64 : Nat := 32

/-- Zeroed banks of the given sizes; a bank larger than its maximum is cut to it. -/
def ofSizes (count16 count32 count64 : Nat) : Registers where
  bank16 := Array.replicate (min count16 max16) 0
  bank32 := Array.replicate (min count32 max32) 0
  bank64 := Array.replicate (min count64 max64) 0

def get16 (registers : Registers) (index : Nat) : Word := registers.bank16.getD index 0xFFFF

def get32 (registers : Registers) (index : Nat) : UInt32 :=
  registers.bank32.getD index 0xFFFFFFFF

def get64 (registers : Registers) (index : Nat) : UInt64 :=
  registers.bank64.getD index 0xFFFFFFFFFFFFFFFF

def set16 (registers : Registers) (index : Nat) (value : Word) : Registers :=
  { registers with bank16 := registers.bank16.setIfInBounds index value }

def set32 (registers : Registers) (index : Nat) (value : UInt32) : Registers :=
  { registers with bank32 := registers.bank32.setIfInBounds index value }

def set64 (registers : Registers) (index : Nat) (value : UInt64) : Registers :=
  { registers with bank64 := registers.bank64.setIfInBounds index value }

/-- Sets every register to zero. -/
def clear (registers : Registers) : Registers where
  bank16 := Array.replicate registers.bank16.size 0
  bank32 := Array.replicate registers.bank32.size 0
  bank64 := Array.replicate registers.bank64.size 0

end Registers

/-! ## Flags -/

/-- The flags of the last arithmetic or logic operation. -/
structure Flags where
  carry : Bool
  zero : Bool
  sign : Bool
  overflow : Bool
  deriving DecidableEq, Repr

namespace Flags

/-- All flags off. -/
def clear : Flags := ⟨false, false, false, false⟩

/-- Sets the flags that every result decides. -/
def setResult (flags : Flags) (result : Word) : Flags :=
  { flags with zero := result == 0, sign := result.isNegative }

/-- `dst + src`. The carry is the bit that does not fit; the overflow says that two
operands of one sign have a sum of the other. -/
def add (flags : Flags) (dst src : Word) : Word × Flags :=
  let wide := dst.toUInt32 + src.toUInt32
  let result : Word := wide.toUInt16
  (result, { flags.setResult result with
    carry := wide &&& 0x10000 != 0
    overflow := dst.isNegative == src.isNegative && result.isNegative != dst.isNegative })

/-- `dst - src`. The carry is the borrow; the overflow says that the operands differ
in sign and the result does not have the sign of `src`. -/
def subtract (flags : Flags) (dst src : Word) : Word × Flags :=
  let wide := dst.toUInt32 - src.toUInt32
  let result : Word := wide.toUInt16
  (result, { flags.setResult result with
    carry := wide &&& 0x10000 != 0
    overflow := dst.isNegative != src.isNegative && result.isNegative != src.isNegative })

/-- `-value`, with the flags of `0 - value`. -/
def negate (flags : Flags) (value : Word) : Word × Flags := flags.subtract 0 value

/-- The low word of the unsigned product. Carry and overflow say that the high word
is not zero, and the zero flag is that of the whole product. -/
def mul (flags : Flags) (dst src : Word) : Word × Flags :=
  let wide := dst.toUInt32 * src.toUInt32
  let result : Word := wide.toUInt16
  let lost := wide >>> 16 != 0
  (result, { flags.setResult result with carry := lost, overflow := lost, zero := wide == 0 })

/-- The low word of the signed product. Carry and overflow say that the product
does not fit sixteen bits, and the zero flag is that of the whole product. -/
def imul (flags : Flags) (dst src : Word) : Word × Flags :=
  let wide := dst.toInt16.toInt32 * src.toInt16.toInt32
  let result : Word := wide.toUInt32.toUInt16
  let lost := wide != result.toInt16.toInt32
  (result, { flags.setResult result with carry := lost, overflow := lost, zero := wide == 0 })

/-- The flags of a logic operation: no carry and no overflow. -/
def logic (flags : Flags) (result : Word) : Word × Flags :=
  (result, { flags.setResult result with carry := false, overflow := false })

def and (flags : Flags) (dst src : Word) : Word × Flags := flags.logic (dst &&& src)

def or (flags : Flags) (dst src : Word) : Word × Flags := flags.logic (dst ||| src)

def xor (flags : Flags) (dst src : Word) : Word × Flags := flags.logic (dst ^^^ src)

def not (flags : Flags) (value : Word) : Word × Flags := flags.logic (~~~value)

/-- `value + 1`; the carry stays as it was. -/
def inc (flags : Flags) (value : Word) : Word × Flags :=
  let result := value + 1
  (result, { flags.setResult result with overflow := result == 0x8000 })

/-- `value - 1`; the carry stays as it was. -/
def dec (flags : Flags) (value : Word) : Word × Flags :=
  let result := value - 1
  (result, { flags.setResult result with overflow := result == 0x7FFF })

def equal (flags : Flags) : Bool := flags.zero

def greater (flags : Flags) : Bool := !flags.zero && flags.sign == flags.overflow

def greaterOrEqual (flags : Flags) : Bool := flags.sign == flags.overflow

def less (flags : Flags) : Bool := flags.sign != flags.overflow

def lessOrEqual (flags : Flags) : Bool := flags.zero || flags.sign != flags.overflow

end Flags

end WordMachine
