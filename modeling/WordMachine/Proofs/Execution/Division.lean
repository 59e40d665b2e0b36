import WordMachine.Proofs.Execution.Arithmetic
import WordMachine.Proofs.Execution.Locations

/-!
# Division

A division by zero is refused. Any other has a quotient and a remainder, rounded towards zero,
except that the one signed quotient which is no word wraps (`divideSigned_law`). The quotient is
stored where the destination denotes before the remainder is stored in its register, and no
other word and no flag is touched (`division_law`): if the two are to go to one register, it is
the remainder that stays.
-/

namespace WordMachine

/-- Whether two words are the quotient and the remainder of two others, read as unsigned. -/
structure UnsignedDivision (dividend divisor quotient remainder : Word) : Prop where
  exact : dividend.toNat = quotient.toNat * divisor.toNat + remainder.toNat
  bound : remainder.toNat < divisor.toNat

open Word in
/-- Whether two words are the quotient and the remainder of two others, read as signed. -/
structure SignedDivision (dividend divisor quotient remainder : Word) : Prop where
  exact : ¬ (signed dividend = -32768 ∧ signed divisor = -1) →
    signed dividend = signed quotient * signed divisor + signed remainder
  wrapped : signed dividend = -32768 ∧ signed divisor = -1 →
    signed quotient = -32768 ∧ remainder = 0
  bound : (signed remainder).natAbs < (signed divisor).natAbs
  sign : remainder = 0 ∨ (signed remainder).sign = (signed dividend).sign

namespace Word

theorem eq_zero_of_signed {word : Word} (zero : word.signed = 0) : word = 0 := by
  rw [← ofSigned_signed word, zero]
  rfl

theorem signed_ne_zero {word : Word} (nonzero : word ≠ 0) : word.signed ≠ 0 :=
  fun zero => nonzero (eq_zero_of_signed zero)

/-- A quotient of signed words is one, but for the negation of the least. -/
theorem signed_tdiv {dividend divisor : Int} (bound : Signed dividend)
    (fits : ¬ (dividend = -32768 ∧ divisor = -1)) : Signed (dividend.tdiv divisor) := by
  have smaller := Int.natAbs_tdiv_le_natAbs dividend divisor
  rw [Signed] at bound ⊢
  by_contra outside
  have least : dividend = -32768 ∧ dividend.tdiv divisor = 32768 := by omega
  rcases eq_or_ne divisor 0 with zero | nonzero
  · rw [zero, Int.tdiv_zero] at least
    omega
  · -- Only the divisor -1 leaves a remainder that is smaller than itself.
    have divided := Int.tdiv_mul_add_tmod dividend divisor
    have remainder : (dividend.tmod divisor).natAbs < divisor.natAbs := by
      rw [Int.natAbs_tmod]
      exact Nat.mod_lt _ (Int.natAbs_pos.mpr nonzero)
    rw [least.2, least.1] at divided
    rw [least.1] at remainder
    omega

end Word

namespace Processor

theorem divideUnsigned_law (dividend : Word) {divisor : Word} (nonzero : divisor ≠ 0) :
    UnsignedDivision dividend divisor (divideUnsigned dividend divisor).1
      (divideUnsigned dividend divisor).2 where
  exact := by
    rw [divideUnsigned, UInt16.toNat_div, UInt16.toNat_mod]
    exact (Nat.div_add_mod' ..).symm
  bound := by
    rw [divideUnsigned, UInt16.toNat_mod]
    exact Nat.mod_lt _ (Nat.pos_of_ne_zero fun zero => nonzero (UInt16.toNat_inj.mp zero))

/-- The quotient wraps if it is no word. -/
theorem signed_quotient (dividend divisor : Word) :
    Word.signed (divideSigned dividend divisor).1 =
      (dividend.signed.tdiv divisor.signed).bmod 65536 :=
  Int16.toInt_div dividend.toInt16 divisor.toInt16

theorem signed_remainder (dividend divisor : Word) :
    Word.signed (divideSigned dividend divisor).2 = dividend.signed.tmod divisor.signed :=
  Int16.toInt_mod dividend.toInt16 divisor.toInt16

theorem divideSigned_law (dividend : Word) {divisor : Word} (nonzero : divisor ≠ 0) :
    SignedDivision dividend divisor (divideSigned dividend divisor).1
      (divideSigned dividend divisor).2 where
  exact := by
    intro fits
    have bound := Word.signed_tdiv dividend.signed_signed fits
    rw [Word.Signed] at bound
    rw [signed_quotient, signed_remainder, Int.bmod_eq_of_le (by omega) (by omega),
      Int.tdiv_mul_add_tmod]
  wrapped := by
    intro least
    constructor
    · rw [signed_quotient, least.1, least.2]
      rfl
    · apply Word.eq_zero_of_signed
      rw [signed_remainder, least.1, least.2]
      rfl
  bound := by
    rw [signed_remainder, Int.natAbs_tmod]
    exact Nat.mod_lt _ (Int.natAbs_pos.mpr (Word.signed_ne_zero nonzero))
  sign := by
    have sign := Int.sign_tmod dividend.signed divisor.signed
    rw [← signed_remainder] at sign
    split at sign
    next divides => exact Or.inl (Word.eq_zero_of_signed (Int.sign_eq_zero_iff_zero.mp sign))
    next => exact Or.inr sign

/-! ## Storing quotient and remainder -/

/-- What a processor is like once a quotient has been stored at a location and a remainder in a
register. -/
structure Divided (state : Processor) (location : Location) (register : Nat)
    (quotient remainder : Word) (final : Processor) : Prop where
  remainder : register < state.registers.bank16.size →
    final.wordIn? (.register register) = some remainder
  dropped : state.registers.bank16.size ≤ register → final = state.put location quotient
  quotient : location ≠ .register register →
    (∀ index, location = .register index → index < state.registers.bank16.size) →
    final.wordIn? location = some quotient
  spares : Spares (fun touched => touched = location ∨ touched = .register register) state final

theorem divided_of_put {state : Processor} {location : Location}
    (accepts : state.Accepts location) (register : Nat) (quotient remainder : Word) :
    Divided state location register quotient remainder
      ((state.put location quotient).put (.register register) remainder) := by
  have first : Spares (fun touched => touched = location ∨ touched = .register register) state
      (state.put location quotient) := put_spares state (Or.inl rfl) quotient
  have banks : (state.put location quotient).registers.bank16.size =
      state.registers.bank16.size := congrArg Prod.fst first.sizes.1
  refine ⟨?_, ?_, ?_, first.trans (put_spares _ (Or.inr rfl) remainder)⟩
  · intro inside
    have accepted : (state.put location quotient).Accepts (.register register) := trivial
    apply wordIn?_put accepted
    intro index same
    cases same
    rwa [banks]
  · intro outside
    rw [← banks] at outside
    rw [put, Registers.set16, Array.setIfInBounds_eq_of_size_le outside]
  · intro other inBank
    rw [wordIn?_putRegister other, wordIn?_put accepts inBank]

variable {fetched : Fetched} {state written : Processor} {dst src : Operand}
  {dividend divisor : Word} {division : Word → Word → Word × Word} {register : UInt8}

section

variable (carriedDst : fetched.dst = some dst) (carriedSrc : fetched.src = some src)
  (dividendRead : read dst state = .ok dividend state)
  (divisorRead : read src state = .ok divisor state)

include carriedDst carriedSrc dividendRead divisorRead

theorem readPair_of_reads : readPair fetched state = .ok (dividend, divisor) state := by
  rw [readPair, bind_of_ok (dst_of_carried carriedDst), bind_of_ok dividendRead,
    bind_of_ok (src_of_carried carriedSrc), bind_of_ok divisorRead]
  rfl

theorem divide_of_zero (zero : divisor = 0) :
    divide division fetched state = .error (.divisionByZero fetched.offset) state := by
  rw [divide, bind_of_ok (readPair_of_reads carriedDst carriedSrc dividendRead divisorRead)]
  simp only [if_pos zero]
  rfl

/-- If the destination takes the quotient, the remainder goes to its register. -/
theorem divide_of_written (nonzero : divisor ≠ 0) (trailing : fetched.trailing = some register)
    (stored : write dst (division dividend divisor).1 state = .ok () written) :
    divide division fetched state =
      .ok () (written.put (.register register.toNat) (division dividend divisor).2) := by
  rw [divide, bind_of_ok (readPair_of_reads carriedDst carriedSrc dividendRead divisorRead)]
  simp only [if_neg nonzero, trailing]
  rw [bind_of_ok (dst_of_carried carriedDst), bind_of_ok stored]
  rfl

theorem divide_stores (nonzero : divisor ≠ 0) (trailing : fetched.trailing = some register)
    (stored : write dst (division dividend divisor).1 state = .ok () written) :
    ∃ location final, state.location? dst = some location ∧
      divide division fetched state = .ok () final ∧
      Divided state location register.toNat (division dividend divisor).1
        (division dividend divisor).2 final := by
  have stores : Ends (write dst (division dividend divisor).1) state _ _ := write_stores dst _
  rcases stores.of_ok stored with ⟨location, located, accepts, same⟩
  refine ⟨location, _, located, divide_of_written carriedDst carriedSrc dividendRead divisorRead
    nonzero trailing stored, ?_⟩
  rw [same]
  exact divided_of_put accepts register.toNat _ _

end

/-- A division that can be fetched has all its parts. -/
theorem division_parts {store rest : Store}
    (divides : fetched.opcode = .div ∨ fetched.opcode = .idiv)
    (decoded : Fetch.instruction store = .ok fetched rest) :
    ∃ dst src register, fetched.dst = some dst ∧ fetched.src = some src ∧
      fetched.trailing = some register := by
  have found : Ends Fetch.instruction store _ _ := Fetch.instruction_found
  rcases found.of_ok decoded with ⟨instruction, spare, formed, -, same, -⟩
  have opcode : instruction.opcode = fetched.opcode := by rw [same]; rfl
  have shape : instruction.opcode.shape = .srcDstRemainder := by
    rcases divides with div | idiv
    · rw [opcode, div]
      rfl
    · rw [opcode, idiv]
      rfl
  have trailing := formed.trailing
  rw [shape] at trailing
  rcases Option.isSome_iff_exists.mp trailing with ⟨register, carried⟩
  rw [same, Instruction.locate, shape]
  exact ⟨_, _, register, rfl, rfl, carried⟩

/-- A division with a divisor of zero is refused and changes nothing. Any other has a quotient and
a remainder. If the destination takes the quotient, that is where it is stored, and the
remainder goes to the trailing register, or is lost if there is no such register; if both go to
one register, it holds the remainder. Everything else stays as it was. -/
theorem division_law {store rest : Store}
    (divides : fetched.opcode = .div ∨ fetched.opcode = .idiv)
    (decoded : Fetch.instruction store = .ok fetched rest) :
    ∃ dst src register, fetched.dst = some dst ∧ fetched.src = some src ∧
      fetched.trailing = some register ∧
      ∀ state dividend divisor, read dst state = .ok dividend state →
        read src state = .ok divisor state →
        (divisor = 0 → execute fetched state = .error (.divisionByZero fetched.offset) state) ∧
        (divisor ≠ 0 → ∃ quotient remainder,
          (fetched.opcode = .div → UnsignedDivision dividend divisor quotient remainder) ∧
          (fetched.opcode = .idiv → SignedDivision dividend divisor quotient remainder) ∧
          ∀ written, write dst quotient state = .ok () written →
            ∃ location final, state.location? dst = some location ∧
              execute fetched state = .ok () final ∧
              Divided state location register.toNat quotient remainder final) := by
  rcases division_parts divides decoded with ⟨dst, src, register, carriedDst, carriedSrc, trailing⟩
  refine ⟨dst, src, register, carriedDst, carriedSrc, trailing, ?_⟩
  intro state dividend divisor dividendRead divisorRead
  have refuses (zero : divisor = 0) (division : Word → Word → Word × Word) :
      divide division fetched state = .error (.divisionByZero fetched.offset) state :=
    divide_of_zero carriedDst carriedSrc dividendRead divisorRead zero
  have stores (nonzero : divisor ≠ 0) (division : Word → Word → Word × Word) (written : Processor)
      (stored : write dst (division dividend divisor).1 state = .ok () written) :=
    divide_stores carriedDst carriedSrc dividendRead divisorRead nonzero trailing stored
  rcases divides with div | idiv
  · have executes : execute fetched = divide divideUnsigned fetched := by rw [execute, div]
    rw [executes]
    refine ⟨fun zero => refuses zero _, ?_⟩
    intro nonzero
    exact ⟨_, _, fun _ => divideUnsigned_law dividend nonzero,
      fun idiv => Opcode.noConfusion (div.symm.trans idiv), stores nonzero divideUnsigned⟩
  · have executes : execute fetched = divide divideSigned fetched := by rw [execute, idiv]
    rw [executes]
    refine ⟨fun zero => refuses zero _, ?_⟩
    intro nonzero
    exact ⟨_, _, fun div => Opcode.noConfusion (idiv.symm.trans div),
      fun _ => divideSigned_law dividend nonzero, stores nonzero divideSigned⟩

/-- Minus seven by two, where the register that points to the dividend is to hold the remainder. -/
theorem division_through_remainder_register :
    ∃ fetched code final,
      Fetch.instruction ⟨#[16, 0x15, 0, 1, 0], 0⟩ = .ok fetched code ∧ fetched.opcode = .idiv ∧
      execute fetched ⟨⟨#[0, 2], #[], #[]⟩, .clear, code, ⟨#[0xF9, 0xFF], 2⟩, 0⟩ = .ok () final ∧
      final.wordIn? (.data 0) = some 0xFFFD ∧ final.wordIn? (.register 0) = some 0xFFFF := by
  let fetched : Fetched :=
    ⟨.idiv, 0, some ⟨⟨.registerPointer, 0⟩, 2⟩, some ⟨⟨.register, 1⟩, 3⟩, some 0⟩
  let code : Store := ⟨#[16, 0x15, 0, 1, 0], 5⟩
  let state : Processor := ⟨⟨#[0, 2], #[], #[]⟩, .clear, code, ⟨#[0xF9, 0xFF], 2⟩, 0⟩
  have decoded : Fetch.instruction ⟨#[16, 0x15, 0, 1, 0], 0⟩ = .ok fetched code := rfl
  have accepts : state.data.Holds 0 2 := by decide
  have dividendRead : read ⟨⟨.registerPointer, 0⟩, 2⟩ state = .ok 0xFFF9 state :=
    load_of_holds accepts
  obtain ⟨dst, src, register, carriedDst, carriedSrc, trailing, law⟩ :=
    division_law (Or.inr rfl) decoded
  cases carriedDst
  cases carriedSrc
  cases trailing
  obtain ⟨quotient, remainder, -, divides, stores⟩ :=
    (law state 0xFFF9 2 dividendRead rfl).2 (by decide)
  have located : state.location? ⟨⟨.registerPointer, 0⟩, 2⟩ = some (.data 0) := rfl
  obtain ⟨location, final, located', executed, divided⟩ :=
    stores _ (write_of_accepts (by decide) located accepts quotient)
  rw [located] at located'
  cases located'
  have exact : -7 = quotient.signed * 2 + remainder.signed := (divides rfl).exact (by decide)
  have bound : remainder.signed.natAbs < 2 := (divides rfl).bound
  have sign : remainder = 0 ∨ remainder.signed.sign = -1 := (divides rfl).sign
  have known : quotient.signed = -3 ∧ remainder.signed = -1 := by
    rcases sign with rfl | negative
    · have zero : Word.signed 0 = 0 := rfl
      omega
    · rw [Int.sign_eq_neg_one_iff_neg] at negative
      omega
  refine ⟨fetched, code, final, decoded, rfl, executed, ?_, ?_⟩
  · rw [divided.quotient (by decide) (by rintro _ ⟨⟩), ← Word.ofSigned_signed quotient, known.1]
    rfl
  · rw [← UInt8.toNat_zero, divided.remainder (by decide), ← Word.ofSigned_signed remainder,
      known.2]
    rfl

end Processor

end WordMachine
