/-!
# Words and their bytes

All arithmetic of the machine is done on sixteen-bit words. A word has two
readings: the unsigned one is its value as a natural number, the signed one is
two's complement.

Numbers of a fixed width are stored lowest byte first. `LittleEndian.encode` spells a
number in as many bytes as asked for, and `LittleEndian.decode` reads bytes as a number.
-/

namespace WordMachine

/-- The unit of arithmetic and of memory operands: sixteen bits. -/
abbrev Word := UInt16

namespace Word

/-- The two's complement reading, between -32768 and 32767. -/
def signed (word : Word) : Int := word.toBitVec.toInt

/-- The word whose two's complement reading is `value` modulo 65536. -/
def ofSigned (value : Int) : Word := ⟨BitVec.ofInt 16 value⟩

/-- Bit 15, the sign of the two's complement reading. -/
def isNegative (word : Word) : Bool := word.toBitVec.msb

/-- The low byte; the high byte is dropped. -/
def lowByte (word : Word) : UInt8 := word.toUInt8

theorem ofSigned_signed (word : Word) : ofSigned word.signed = word := by
  apply UInt16.toBitVec_inj.mp
  simp [ofSigned, signed]

theorem isNegative_iff (word : Word) : word.isNegative = true ↔ 0x8000 ≤ word.toNat := by
  simp [isNegative, BitVec.msb_eq_decide]

theorem signed_eq (word : Word) :
    word.signed = if word.isNegative then (word.toNat : Int) - 65536 else word.toNat := by
  simp only [signed, isNegative, BitVec.toInt_eq_msb_cond]
  rfl

end Word

namespace LittleEndian

/-- The `width` lowest bytes of `value`, lowest first. -/
def encode : (width value : Nat) → List UInt8
  | 0, _ => []
  | width + 1, value => UInt8.ofNat value :: encode width (value / 256)

/-- The number whose bytes, lowest first, are the given ones. -/
def decode : List UInt8 → Nat
  | [] => 0
  | byte :: rest => byte.toNat + 256 * decode rest

@[simp] theorem length_encode (width value : Nat) : (encode width value).length = width := by
  induction width generalizing value with
  | zero => rfl
  | succ width ih => simp [encode, ih]

end LittleEndian

end WordMachine
