import Mathlib.Data.Nat.Bitwise
import WordMachine.Proofs.Execution.Comparison

/-!
# What the flags say about numbers

An operation answers with its exact result modulo 65536. The carry says that the result is no
unsigned word, the overflow that it is no signed one (`flags_tell_arithmetic`). The products
have one condition for both flags. The overflow of a subtraction is an exception: it says that
the operands differ in sign and that their difference is a signed word nevertheless. With it the
conditions behind a subtraction order the words as the carry does (`subtraction_orders_words`).
-/

namespace WordMachine

namespace Word

/-- Whether a number is a word, read as signed. -/
def Signed (number : Int) : Prop := -0x8000 ≤ number ∧ number < 0x8000

theorem signed_signed (word : Word) : Signed word.signed := by
  rw [Signed]
  rcases word.sign_cases with ⟨-, bound, signed⟩ | ⟨-, bound, limit, signed⟩
  · omega
  · omega

/-- The sign is bit 15. -/
theorem isNegative_eq_testBit (word : Word) : word.isNegative = word.toNat.testBit 15 := by
  rw [isNegative, BitVec.msb_eq_getLsbD_last]
  rfl

theorem isNegative_eq_decide (word : Word) : word.isNegative = decide (0x8000 ≤ word.toNat) := by
  rw [Bool.eq_iff_iff, isNegative_iff, decide_eq_true_iff]

/-- A word that is a number modulo 65536 is the number itself when read as signed if and only
if the number is a signed word. -/
theorem signed_eq_iff_of_emod {word : Word} {number : Int}
    (wraps : (word.toNat : Int) = number % 0x10000) : word.signed = number ↔ Signed number := by
  rw [Signed]
  rcases word.sign_cases with ⟨-, bound, signed⟩ | ⟨-, bound, limit, signed⟩
  · omega
  · omega

/-- Modulo 65536 both readings of a word are the same. -/
theorem signed_emod (word : Word) : word.signed % 0x10000 = word.toNat := by
  rcases word.sign_cases with ⟨-, bound, signed⟩ | ⟨-, bound, limit, signed⟩
  · omega
  · omega

end Word

/-- Of two numbers exactly one is less, or they are equal. -/
theorem Relation.existsUnique_holds (left right : Int) :
    ∃! relation, relation ∈ [less, equal, greater] ∧ relation.Holds left right := by
  obtain ⟨relation, listed, holds⟩ : ∃ relation ∈ [less, equal, greater],
      relation.Holds left right := by
    rcases Int.lt_trichotomy left right with below | same | above
    · exact ⟨less, by decide, below⟩
    · exact ⟨equal, by decide, same⟩
    · exact ⟨greater, by decide, above⟩
  refine ⟨relation, ⟨listed, holds⟩, ?_⟩
  rintro other ⟨member, also⟩
  simp only [List.mem_cons, List.not_mem_nil, or_false] at listed member
  -- Any two of the three exclude each other.
  rcases listed with rfl | rfl | rfl <;>
  rcases member with rfl | rfl | rfl <;>
  simp only [Holds] at holds also <;>
  first
  | rfl
  | omega

open Word

/-- What an operation is to say: its exact result, of which it answers the word, and when it
sets carry, zero and overflow. -/
structure Meaning where
  exact : Int
  carry : Prop
  zero : Prop
  overflow : Prop

/-- The meaning of a logic operation: the word it computes, neither carry nor overflow. -/
def Meaning.ofWord (word : Word) : Meaning where
  exact := word.toNat
  carry := False
  zero := word = 0
  overflow := False

/-- Whether a word and flags say what they are to say. The sign always is bit 15 of the word. -/
structure Tells (answer : Word × Flags) (meaning : Meaning) : Prop where
  word : (answer.1.toNat : Int) = meaning.exact % 0x10000
  carry : answer.2.carry = true ↔ meaning.carry
  zero : answer.2.zero = true ↔ meaning.zero
  overflow : answer.2.overflow = true ↔ meaning.overflow
  sign : answer.2.sign = answer.1.toNat.testBit 15

namespace Flags

variable (flags : Flags) (dst src value : Word)

/-- A carry is bit 16 of what is computed with thirty-two bits. -/
theorem carryBit_iff (wide : UInt32) :
    (wide &&& 0x10000 != 0) = true ↔ wide.toNat / 0x10000 % 2 = 1 := by
  have bit : (wide &&& 0x10000).toNat = (wide.toNat.testBit 16).toNat * 2 ^ 16 :=
    Nat.and_two_pow wide.toNat 16
  rw [bne_iff_ne, ne_eq, ← UInt32.toNat_inj, bit, Nat.testBit_eq_decide_div_mod_eq]
  cases set : decide (wide.toNat / 2 ^ 16 % 2 = 1) with
  | true => simpa using set
  | false => simpa using set

/-! ## Addition and subtraction -/

theorem add_tells :
    Tells (flags.add dst src)
      { exact := dst.toNat + src.toNat
        carry := 0x10000 ≤ dst.toNat + src.toNat
        zero := (flags.add dst src).1 = 0
        overflow := ¬ Signed (dst.signed + src.signed) } := by
  have dstLimit := dst.toNat_lt
  have srcLimit := src.toNat_lt
  have wide : (dst.toUInt32 + src.toUInt32).toNat = dst.toNat + src.toNat := by
    rw [UInt32.toNat_add, UInt16.toNat_toUInt32, UInt16.toNat_toUInt32]
    omega
  have word : (flags.add dst src).1.toNat = (dst.toNat + src.toNat) % 0x10000 := by
    rw [add, UInt32.toNat_toUInt16, wide]
  constructor
  case word => rw [word]; rfl
  case carry =>
    have bit : (flags.add dst src).2.carry = ((dst.toUInt32 + src.toUInt32) &&& 0x10000 != 0) :=
      rfl
    rw [bit, carryBit_iff, wide]
    omega
  case zero => exact beq_iff_eq
  case overflow =>
    have decided : (flags.add dst src).2.overflow = (dst.isNegative == src.isNegative &&
        (flags.add dst src).1.isNegative != dst.isNegative) := rfl
    have dstCases := dst.sign_cases
    have srcCases := src.sign_cases
    rw [decided, Bool.and_eq_true, beq_iff_eq, bne_iff_ne, Signed]
    simp only [isNegative_eq_decide, word, ne_eq, decide_eq_decide]
    omega
  case sign => exact isNegative_eq_testBit _

theorem subtract_tells :
    Tells (flags.subtract dst src)
      { exact := dst.toNat - src.toNat
        carry := dst.toNat < src.toNat
        zero := (flags.subtract dst src).1 = 0
        overflow := dst.isNegative ≠ src.isNegative ∧ Signed (dst.signed - src.signed) } := by
  have dstLimit := dst.toNat_lt
  have srcLimit := src.toNat_lt
  have wide : (dst.toUInt32 - src.toUInt32).toNat =
      (dst.toNat + (0x100000000 - src.toNat)) % 0x100000000 := by
    rw [UInt32.toNat_sub, UInt16.toNat_toUInt32, UInt16.toNat_toUInt32]
    omega
  have word := toNat_subtract flags dst src
  constructor
  case word =>
    change ((flags.subtract dst src).1.toNat : Int) = ((dst.toNat : Int) - src.toNat) % 0x10000
    omega
  case carry =>
    have bit : (flags.subtract dst src).2.carry =
        ((dst.toUInt32 - src.toUInt32) &&& 0x10000 != 0) := rfl
    rw [bit, carryBit_iff, wide]
    omega
  case zero => exact beq_iff_eq
  case overflow =>
    have decided : (flags.subtract dst src).2.overflow = (dst.isNegative != src.isNegative &&
        (flags.subtract dst src).1.isNegative != src.isNegative) := rfl
    have dstCases := dst.sign_cases
    have srcCases := src.sign_cases
    rw [decided, Bool.and_eq_true, bne_iff_ne, bne_iff_ne, Signed]
    simp only [isNegative_eq_decide, word, ne_eq, decide_eq_decide]
    omega
  case sign => exact isNegative_eq_testBit _

/-! ## Multiplication -/

theorem mul_tells :
    Tells (flags.mul dst src)
      { exact := dst.toNat * src.toNat
        carry := 0x10000 ≤ dst.toNat * src.toNat
        zero := dst.toNat * src.toNat = 0
        overflow := 0x10000 ≤ dst.toNat * src.toNat } := by
  have fits : dst.toNat * src.toNat < 2 ^ 16 * 2 ^ 16 :=
    Nat.mul_lt_mul'' dst.toNat_lt src.toNat_lt
  have wide : (dst.toUInt32 * src.toUInt32).toNat = dst.toNat * src.toNat := by
    rw [UInt32.toNat_mul, UInt16.toNat_toUInt32, UInt16.toNat_toUInt32]
    exact Nat.mod_eq_of_lt fits
  have lost : ((dst.toUInt32 * src.toUInt32) >>> 16 != 0) = true ↔
      0x10000 ≤ dst.toNat * src.toNat := by
    have high : ((dst.toUInt32 * src.toUInt32) >>> 16).toNat = dst.toNat * src.toNat / 2 ^ 16 := by
      rw [UInt32.toNat_shiftRight, wide, Nat.shiftRight_eq_div_pow]
      rfl
    rw [bne_iff_ne, ne_eq, ← UInt32.toNat_inj, high, UInt32.toNat_zero]
    omega
  constructor
  case word =>
    change ((dst.toUInt32 * src.toUInt32).toUInt16.toNat : Int) = _
    rw [UInt32.toNat_toUInt16, wide]
    rfl
  case carry => exact lost
  case zero =>
    change (dst.toUInt32 * src.toUInt32 == 0) = true ↔ _
    rw [beq_iff_eq, ← UInt32.toNat_inj, wide]
    rfl
  case overflow => exact lost
  case sign => exact isNegative_eq_testBit _

theorem imul_tells :
    Tells (flags.imul dst src)
      { exact := dst.signed * src.signed
        carry := ¬ Signed (dst.signed * src.signed)
        zero := dst.signed * src.signed = 0
        overflow := ¬ Signed (dst.signed * src.signed) } := by
  have wide : (dst.toInt16.toInt32 * src.toInt16.toInt32).toInt = dst.signed * src.signed := by
    obtain ⟨dstLow, dstHigh⟩ := dst.signed_signed
    obtain ⟨srcLow, srcHigh⟩ := src.signed_signed
    have small : (dst.signed * src.signed).natAbs ≤ 0x8000 * 0x8000 := by
      rw [Int.natAbs_mul]
      exact Nat.mul_le_mul (by omega) (by omega)
    rw [Int32.toInt_mul, Int16.toInt_toInt32, Int16.toInt_toInt32]
    change (dst.signed * src.signed).bmod (2 ^ 32) = dst.signed * src.signed
    exact Int.bmod_eq_of_le (by omega) (by omega)
  have word : ((flags.imul dst src).1.toNat : Int) = dst.signed * src.signed % 0x10000 := by
    have low : (flags.imul dst src).1.toNat =
        (dst.toInt16.toInt32 * src.toInt16.toInt32).toBitVec.toNat % 2 ^ 16 :=
      UInt32.toNat_toUInt16 _
    have product : (dst.toInt16.toInt32 * src.toInt16.toInt32).toBitVec.toInt =
        dst.signed * src.signed := wide
    rw [BitVec.toInt_eq_toNat_cond] at product
    omega
  have lost : (dst.toInt16.toInt32 * src.toInt16.toInt32 !=
      (flags.imul dst src).1.toInt16.toInt32) = true ↔ ¬ Signed (dst.signed * src.signed) := by
    rw [bne_iff_ne, ne_eq, ← Int32.toInt_inj, wide, Int16.toInt_toInt32]
    rw [← signed_eq_iff_of_emod word]
    exact not_congr eq_comm
  constructor
  case word => exact word
  case carry => exact lost
  case zero =>
    change (dst.toInt16.toInt32 * src.toInt16.toInt32 == 0) = true ↔ _
    rw [beq_iff_eq, ← Int32.toInt_inj, wide]
    rfl
  case overflow => exact lost
  case sign => exact isNegative_eq_testBit _

/-- The products of both multiplications have the same low word. -/
theorem imul_word : (flags.imul dst src).1 = (flags.mul dst src).1 := by
  have signed := (imul_tells flags dst src).word
  have unsigned := (mul_tells flags dst src).word
  have same : (dst.signed * src.signed) % 0x10000 =
      ((dst.toNat : Int) * src.toNat) % 0x10000 := by
    rw [← signed_emod dst, ← signed_emod src, ← Int.mul_emod]
  apply UInt16.toNat_inj.mp
  exact Int.natCast_inj.mp (signed.trans (same.trans unsigned.symm))

/-! ## Logic, and steps by one -/

theorem logic_tells : Tells (flags.logic value) (.ofWord value) where
  word := (Int.emod_eq_of_lt (Int.natCast_nonneg _) (Int.ofNat_lt.mpr value.toNat_lt)).symm
  carry := Bool.false_eq_true.to_iff
  zero := beq_iff_eq
  overflow := Bool.false_eq_true.to_iff
  sign := isNegative_eq_testBit _

theorem inc_tells :
    Tells (flags.inc value)
      { exact := value.toNat + 1
        carry := flags.carry = true
        zero := (flags.inc value).1 = 0
        overflow := ¬ Signed (value.signed + 1) } := by
  have word : (flags.inc value).1.toNat = (value.toNat + 1) % 0x10000 :=
    UInt16.toNat_add value 1
  constructor
  case word => rw [word]; rfl
  case carry => exact Iff.rfl
  case zero => exact beq_iff_eq
  case overflow =>
    have decided : (flags.inc value).2.overflow = ((flags.inc value).1 == 0x8000) := rfl
    have limit := value.toNat_lt
    have cases := value.sign_cases
    have highest : (0x8000 : Word).toNat = 0x8000 := rfl
    rw [decided, beq_iff_eq, ← UInt16.toNat_inj, word, highest, Signed]
    omega
  case sign => exact isNegative_eq_testBit _

theorem dec_tells :
    Tells (flags.dec value)
      { exact := value.toNat - 1
        carry := flags.carry = true
        zero := (flags.dec value).1 = 0
        overflow := ¬ Signed (value.signed - 1) } := by
  have limit := value.toNat_lt
  have word : (flags.dec value).1.toNat = (value.toNat + 0xFFFF) % 0x10000 := by
    rw [dec, UInt16.toNat_sub, Nat.add_comm]
    rfl
  constructor
  case word =>
    change ((flags.dec value).1.toNat : Int) = ((value.toNat : Int) - 1) % 0x10000
    omega
  case carry => exact Iff.rfl
  case zero => exact beq_iff_eq
  case overflow =>
    have decided : (flags.dec value).2.overflow = ((flags.dec value).1 == 0x7FFF) := rfl
    have cases := value.sign_cases
    have lowest : (0x7FFF : Word).toNat = 0x7FFF := rfl
    rw [decided, beq_iff_eq, ← UInt16.toNat_inj, word, lowest, Signed]
    omega
  case sign => exact isNegative_eq_testBit _

/-! ## All operations -/

/-- What every operation answers, and what its flags say. But for the carry of a step by one, no
answer depends on the flags before. -/
theorem flags_tell_arithmetic :
    Tells (flags.add dst src)
      { exact := dst.toNat + src.toNat
        carry := 0x10000 ≤ dst.toNat + src.toNat
        zero := (flags.add dst src).1 = 0
        overflow := ¬ Signed (dst.signed + src.signed) } ∧
    Tells (flags.subtract dst src)
      { exact := dst.toNat - src.toNat
        carry := dst.toNat < src.toNat
        zero := (flags.subtract dst src).1 = 0
        overflow := dst.isNegative ≠ src.isNegative ∧ Signed (dst.signed - src.signed) } ∧
    flags.negate dst = flags.subtract 0 dst ∧
    Tells (flags.mul dst src)
      { exact := dst.toNat * src.toNat
        carry := 0x10000 ≤ dst.toNat * src.toNat
        zero := dst.toNat * src.toNat = 0
        overflow := 0x10000 ≤ dst.toNat * src.toNat } ∧
    Tells (flags.imul dst src)
      { exact := dst.signed * src.signed
        carry := ¬ Signed (dst.signed * src.signed)
        zero := dst.signed * src.signed = 0
        overflow := ¬ Signed (dst.signed * src.signed) } ∧
    (flags.imul dst src).1 = (flags.mul dst src).1 ∧
    Tells (flags.and dst src) (.ofWord (dst &&& src)) ∧
    Tells (flags.or dst src) (.ofWord (dst ||| src)) ∧
    Tells (flags.xor dst src) (.ofWord (dst ^^^ src)) ∧
    Tells (flags.not dst) (.ofWord (~~~dst)) ∧
    Tells (flags.inc dst)
      { exact := dst.toNat + 1
        carry := flags.carry = true
        zero := (flags.inc dst).1 = 0
        overflow := ¬ Signed (dst.signed + 1) } ∧
    Tells (flags.dec dst)
      { exact := dst.toNat - 1
        carry := flags.carry = true
        zero := (flags.dec dst).1 = 0
        overflow := ¬ Signed (dst.signed - 1) } ∧
    ∀ before : Flags,
      before.add dst src = flags.add dst src ∧ before.subtract dst src = flags.subtract dst src ∧
      before.mul dst src = flags.mul dst src ∧ before.imul dst src = flags.imul dst src ∧
      before.and dst src = flags.and dst src ∧ before.or dst src = flags.or dst src ∧
      before.xor dst src = flags.xor dst src ∧ before.not dst = flags.not dst ∧
      before.inc dst = ((flags.inc dst).1, { (flags.inc dst).2 with carry := before.carry }) ∧
      before.dec dst = ((flags.dec dst).1, { (flags.dec dst).2 with carry := before.carry }) := by
  refine ⟨add_tells flags dst src, subtract_tells flags dst src, rfl, mul_tells flags dst src,
    imul_tells flags dst src, imul_word flags dst src, logic_tells flags _, logic_tells flags _,
    logic_tells flags _, logic_tells flags _, inc_tells flags dst, dec_tells flags dst, ?_⟩
  intro before
  exact ⟨rfl, rfl, rfl, rfl, rfl, rfl, rfl, rfl, rfl, rfl⟩

/-! ## The order of a subtraction -/

/-- The conditions read sign, zero and overflow only, yet behind a subtraction they decide one total
order of the words, which is that of the carry: the unsigned one. What is less than a word that is
less than another is less than the other, whatever flags the three subtractions found. -/
theorem subtraction_orders_words :
    (∃! relation, relation ∈ [Relation.less, .equal, .greater] ∧
      relation.test (flags.subtract dst src).2 = true) ∧
    (flags.subtract dst src).2.greaterOrEqual = !(flags.subtract dst src).2.less ∧
    (flags.subtract dst src).2.lessOrEqual = !(flags.subtract dst src).2.greater ∧
    ((flags.subtract dst src).2.equal = true ↔ dst = src) ∧
    (flags.subtract dst src).2.less = (flags.subtract dst src).2.carry ∧
    ((flags.subtract dst src).2.carry = true ↔ dst < src) ∧
    ∀ (second third : Flags) (last : Word), (flags.subtract dst src).2.less = true →
      (second.subtract src last).2.less = true → (third.subtract dst last).2.less = true := by
  have carry := (subtract_tells flags dst src).carry
  have less := less_subtract flags dst src
  refine ⟨?_, greaterOrEqual_eq _, lessOrEqual_eq_not_greater _, ?_, ?_, ?_, ?_⟩
  · simp only [Relation.test_subtract]
    exact Relation.existsUnique_holds _ _
  · rw [equal_subtract, Int.natCast_inj, UInt16.toNat_inj]
  · rw [Bool.eq_iff_iff, less, carry, Int.ofNat_lt]
  · rw [carry, UInt16.lt_iff_toNat_lt]
  · intro second third last below above
    rw [less_subtract] at below above ⊢
    exact Int.lt_trans below above

/-- The greatest positive word comes before the least negative one, and so before minus one. -/
theorem order_passes_sign_bit :
    (Flags.clear.subtract 0x7FFF 0x8000).2.less = true ∧
      (Flags.clear.subtract 0x8000 0xFFFF).2.less = true ∧
      (Flags.clear.subtract 0x7FFF 0xFFFF).2.less = true := by
  have first : (Flags.clear.subtract 0x7FFF 0x8000).2.less = true := by decide
  have second : (Flags.clear.subtract 0x8000 0xFFFF).2.less = true := by decide
  obtain ⟨-, -, -, -, -, -, transitive⟩ := subtraction_orders_words .clear 0x7FFF 0x8000
  exact ⟨first, second, transitive .clear .clear 0xFFFF first second⟩

end Flags

end WordMachine
