import WordMachine.Proofs.Execution.Effects

/-!
# Conditions behind a comparison

A subtraction sets the overflow flag if the operands differ in sign and the result does not
have the sign of the source. Sign and overflow then differ exactly if the subtraction borrows
(`Flags.less_subtract`), so the conditions of jumps and moves behind a comparison decide the
order of two words as unsigned numbers. Words of one sign have the same order as signed
numbers, words of different sign the opposite one (`Relation.holds_signed_iff`).
-/

namespace WordMachine

/-! ## Words as signed and as unsigned numbers -/

namespace Word

variable {left right : Word}

/-- Below half of the range a word is itself when signed, from there on it is negative. -/
theorem sign_cases (word : Word) :
    (word.isNegative = false ∧ word.toNat < 0x8000 ∧ word.signed = word.toNat) ∨
      (word.isNegative = true ∧ 0x8000 ≤ word.toNat ∧ word.toNat < 0x10000 ∧
        word.signed = (word.toNat : Int) - 0x10000) := by
  have negative := word.isNegative_iff
  rw [signed_eq]
  cases sign : word.isNegative with
  | false =>
      rw [sign] at negative
      exact Or.inl ⟨rfl, by simpa using negative, rfl⟩
  | true => exact Or.inr ⟨rfl, negative.mp sign, word.toNat_lt, rfl⟩

/-- Words of one sign have the same order either way. -/
theorem signed_lt_iff_of_same (same : left.isNegative = right.isNegative) :
    left.signed < right.signed ↔ (left.toNat : Int) < right.toNat := by
  rw [signed_eq, signed_eq, same]
  split
  next => omega
  next => omega

/-- Of words that differ in sign, the negative one is the greater unsigned number. -/
theorem isNegative_of_differ (differ : left.isNegative ≠ right.isNegative) :
    right.isNegative = decide (left.toNat < right.toNat) := by
  rcases left.sign_cases with ⟨leftSign, leftBound, -⟩ | ⟨leftSign, leftBound, -⟩ <;>
  rcases right.sign_cases with ⟨rightSign, rightBound, -⟩ | ⟨rightSign, rightBound, -⟩
  · exact absurd (leftSign.trans rightSign.symm) differ
  · rw [rightSign, decide_eq_true (Nat.lt_of_lt_of_le leftBound rightBound)]
  · rw [rightSign, decide_eq_false (Nat.not_lt.mpr
      (Nat.le_of_lt (Nat.lt_of_lt_of_le rightBound leftBound)))]
  · exact absurd (leftSign.trans rightSign.symm) differ

/-- And the lesser signed number. -/
theorem signed_lt_iff_of_differ (differ : left.isNegative ≠ right.isNegative) :
    left.signed < right.signed ↔ (right.toNat : Int) < left.toNat := by
  rcases left.sign_cases with ⟨leftSign, leftBound, leftSigned⟩ |
    ⟨leftSign, leftBound, leftLimit, leftSigned⟩ <;>
  rcases right.sign_cases with ⟨rightSign, rightBound, rightSigned⟩ |
    ⟨rightSign, rightBound, rightLimit, rightSigned⟩
  · exact absurd (leftSign.trans rightSign.symm) differ
  · omega
  · omega
  · exact absurd (leftSign.trans rightSign.symm) differ

end Word

/-! ## The flags of a subtraction -/

namespace Flags

theorem toNat_subtract (flags : Flags) (left right : Word) :
    (flags.subtract left right).1.toNat =
      (left.toNat + (0x10000 - right.toNat)) % 0x10000 := by
  have leftBound := left.toNat_lt
  have rightBound := right.toNat_lt
  simp only [subtract, UInt32.toNat_toUInt16, UInt32.toNat_sub, UInt16.toNat_toUInt32]
  omega

theorem equal_subtract (flags : Flags) (left right : Word) :
    (flags.subtract left right).2.equal = true ↔ (left.toNat : Int) = right.toNat := by
  have wraps := toNat_subtract flags left right
  have leftLimit := left.toNat_lt
  have rightLimit := right.toNat_lt
  have zero : (flags.subtract left right).2.equal = ((flags.subtract left right).1 == 0) := rfl
  rw [zero, beq_iff_eq, ← UInt16.toNat_inj, wraps]
  simp only [UInt16.toNat_zero]
  omega

/-- The difference of words of one sign is negative if and only if it borrows. -/
theorem isNegative_subtract_of_same (flags : Flags) {left right : Word}
    (same : left.isNegative = right.isNegative) :
    (flags.subtract left right).1.isNegative = decide (left.toNat < right.toNat) := by
  have wraps := toNat_subtract flags left right
  have leftLimit := left.toNat_lt
  have rightLimit := right.toNat_lt
  have near : left.toNat < right.toNat + 0x8000 ∧ right.toNat < left.toNat + 0x8000 := by
    rcases left.sign_cases with ⟨leftSign, leftBound, -⟩ | ⟨leftSign, leftBound, -⟩ <;>
    rcases right.sign_cases with ⟨rightSign, rightBound, -⟩ | ⟨rightSign, rightBound, -⟩
    · omega
    · exact absurd (leftSign.symm.trans (same.trans rightSign)) Bool.false_ne_true
    · exact absurd (rightSign.symm.trans (same.symm.trans leftSign)) Bool.false_ne_true
    · omega
  rw [Bool.eq_iff_iff, Word.isNegative_iff, decide_eq_true_iff, wraps]
  omega

/-- Sign and overflow differ if and only if the subtraction borrows. -/
theorem less_subtract (flags : Flags) (left right : Word) :
    (flags.subtract left right).2.less = true ↔ (left.toNat : Int) < right.toNat := by
  have decided : (flags.subtract left right).2.less =
      ((flags.subtract left right).1.isNegative !=
        (left.isNegative != right.isNegative &&
          (flags.subtract left right).1.isNegative != right.isNegative)) := rfl
  have borrows : (flags.subtract left right).2.less = decide (left.toNat < right.toNat) := by
    rw [decided]
    by_cases same : left.isNegative = right.isNegative
    · rw [isNegative_subtract_of_same flags same, same]
      simp
    · -- The sign of the result cancels out, and that of the source is left.
      rw [← Word.isNegative_of_differ same, bne_iff_ne.mpr same]
      simp
  rw [borrows, decide_eq_true_iff, Int.ofNat_lt]

theorem greaterOrEqual_eq (flags : Flags) : flags.greaterOrEqual = !flags.less := by
  rw [greaterOrEqual, less, bne, Bool.not_not]

theorem greater_eq (flags : Flags) : flags.greater = (!flags.equal && !flags.less) := by
  rw [greater, equal, less, bne, Bool.not_not]

theorem lessOrEqual_eq (flags : Flags) : flags.lessOrEqual = (flags.equal || flags.less) := rfl

theorem lessOrEqual_eq_not_greater (flags : Flags) : flags.lessOrEqual = !flags.greater := by
  rw [greater_eq, lessOrEqual_eq, Bool.not_and, Bool.not_not, Bool.not_not]

end Flags

/-! ## Conditions -/

/-- What a condition asks about two numbers. -/
inductive Relation where
  | equal | different | greater | greaterOrEqual | less | lessOrEqual
  deriving DecidableEq, Repr

namespace Relation

/-- Whether two numbers are so related. -/
def Holds : Relation → Int → Int → Prop
  | equal, left, right => left = right
  | different, left, right => left ≠ right
  | greater, left, right => right < left
  | greaterOrEqual, left, right => right ≤ left
  | less, left, right => left < right
  | lessOrEqual, left, right => left ≤ right

instance : (relation : Relation) → (left right : Int) → Decidable (relation.Holds left right)
  | equal, _, _ => inferInstanceAs (Decidable (_ = _))
  | different, _, _ => inferInstanceAs (Decidable (_ ≠ _))
  | greater, _, _ | less, _, _ => inferInstanceAs (Decidable (_ < _))
  | greaterOrEqual, _, _ | lessOrEqual, _, _ => inferInstanceAs (Decidable (_ ≤ _))

/-- How a condition is read off the flags. -/
def test : Relation → Flags → Bool
  | equal => Flags.equal
  | different => fun flags => !flags.equal
  | greater => Flags.greater
  | greaterOrEqual => Flags.greaterOrEqual
  | less => Flags.less
  | lessOrEqual => Flags.lessOrEqual

/-- Behind a subtraction a condition holds if and only if it does for the operands as unsigned
numbers. -/
theorem test_subtract (relation : Relation) (flags : Flags) (left right : Word) :
    relation.test (flags.subtract left right).2 = true ↔
      relation.Holds left.toNat right.toNat := by
  have equal := Flags.equal_subtract flags left right
  have less := Flags.less_subtract flags left right
  cases relation with
  | equal => exact equal
  | different => simp only [test, Holds, ne_eq, ← equal, Bool.not_eq_true', Bool.not_eq_true]
  | greater =>
      simp only [test, Holds, Flags.greater_eq, Bool.and_eq_true, Bool.not_eq_true',
        ← Bool.not_eq_true, equal, less]
      omega
  | greaterOrEqual =>
      simp only [test, Holds, Flags.greaterOrEqual_eq, Bool.not_eq_true', ← Bool.not_eq_true, less]
      omega
  | less => exact less
  | lessOrEqual =>
      simp only [test, Holds, Flags.lessOrEqual_eq, Bool.or_eq_true, equal, less]
      omega

/-- A relation depends on nothing but which number is the lesser one. -/
theorem holds_congr (relation : Relation) {left right left' right' : Int}
    (less : left < right ↔ left' < right') (greater : right < left ↔ right' < left') :
    relation.Holds left right ↔ relation.Holds left' right' := by
  cases relation with
  | equal | different | greater | greaterOrEqual | less | lessOrEqual =>
      simp only [Holds]
      omega

/-- Different numbers may be swapped if and only if the relation is not one of order. -/
theorem holds_swap_iff (relation : Relation) {left right : Int} (differ : left ≠ right) :
    (relation.Holds left right ↔ relation.Holds right left) ↔
      relation = equal ∨ relation = different := by
  cases relation with
  | equal | different | greater | greaterOrEqual | less | lessOrEqual =>
      simp [Holds]
      omega

/-- A relation is the same between unsigned and between signed numbers if they are of one sign
or their order does not matter; otherwise the order is the opposite one. -/
theorem holds_signed_iff (relation : Relation) (left right : Word) :
    (relation.Holds left.toNat right.toNat ↔ relation.Holds left.signed right.signed) ↔
      left.isNegative = right.isNegative ∨ relation = equal ∨ relation = different := by
  by_cases same : left.isNegative = right.isNegative
  · have agree := relation.holds_congr (Word.signed_lt_iff_of_same same)
      (Word.signed_lt_iff_of_same same.symm)
    exact iff_of_true agree.symm (Or.inl same)
  · have opposite := relation.holds_congr (Word.signed_lt_iff_of_differ same)
      (Word.signed_lt_iff_of_differ (Ne.symm same))
    have differ : (left.toNat : Int) ≠ right.toNat := by
      intro equal
      exact same (congrArg Word.isNegative (UInt16.toNat_inj.mp (Int.ofNat_inj.mp equal)))
    rw [opposite, relation.holds_swap_iff differ]
    simp only [same, false_or]

end Relation

namespace Opcode

/-- The condition of a conditional jump or move, and what it does if the condition holds. -/
def condition? : Opcode → Option (Relation × Opcode)
  | je => some (.equal, jmp)
  | jne => some (.different, jmp)
  | jg => some (.greater, jmp)
  | jge => some (.greaterOrEqual, jmp)
  | jl => some (.less, jmp)
  | jle => some (.lessOrEqual, jmp)
  | cmove => some (.equal, mov)
  | cmovne => some (.different, mov)
  | cmovg => some (.greater, mov)
  | cmovge => some (.greaterOrEqual, mov)
  | cmovl => some (.less, mov)
  | cmovle => some (.lessOrEqual, mov)
  | _ => none

end Opcode

namespace Processor

section Instructions

variable {compared conditional : Fetched} {state final : Processor} {left right : Word}
  {relation : Relation} {taken : Opcode}

/-- A comparison sets the flags of a subtraction, and does nothing else. -/
theorem execute_cmp (compares : compared.opcode = .cmp)
    (values : readPair compared state = .ok (left, right) final) :
    execute compared state =
      .ok () { state with flags := (state.flags.subtract left right).2 } := by
  have reads : Ends (readPair compared) state (fun _ final => final = state)
      (Fails compared state) :=
    ends_readPair (by rw [compares]; rfl) (by rw [compares]; rfl) fun _ => rfl
  have same : final = state := reads.of_ok values
  rw [same] at values
  have executed : execute compared state = compare Flags.subtract compared state := by
    rw [execute, compares]
  rw [executed, compare, bind_of_ok values]
  rfl

/-- A conditional instruction tests its condition and then does what is conditional. -/
theorem execute_conditional (condition : conditional.opcode.condition? = some (relation, taken)) :
    execute conditional =
      whenFlags relation.test (execute { conditional with opcode := taken }) := by
  rcases conditional with ⟨opcode, offset, dst, src, trailing⟩
  cases opcode <;> cases condition <;> rfl

theorem whenFlags_eq (test : Flags → Bool) (step : Step Unit) :
    whenFlags test step state = if test state.flags then step state else .ok () state := by
  rw [whenFlags, get_bind]
  split
  next => rfl
  next => rfl

/-- Behind a comparison of two words, and as long as its flags are there, a conditional jump or
move is taken if and only if its condition holds for the words as unsigned numbers. For the
words as signed numbers that is right if they are of one sign or the condition is not one of
order; otherwise it is wrong. -/
theorem conditions_decide_unsigned_order (compares : compared.opcode = .cmp)
    (values : readPair compared state = .ok (left, right) final) :
    execute compared state =
        .ok () { state with flags := (state.flags.subtract left right).2 } ∧
      ∀ (later : Processor) (conditional : Fetched) (relation : Relation) (taken : Opcode),
        later.flags = (state.flags.subtract left right).2 →
        conditional.opcode.condition? = some (relation, taken) →
        (execute conditional later =
          if relation.Holds left.toNat right.toNat then
            execute { conditional with opcode := taken } later
          else .ok () later) ∧
        ((relation.Holds left.toNat right.toNat ↔ relation.Holds left.signed right.signed) ↔
          left.isNegative = right.isNegative ∨ relation = .equal ∨ relation = .different) := by
  constructor
  · exact execute_cmp compares values
  · intro later conditional relation taken flags condition
    constructor
    · rw [execute_conditional condition, whenFlags_eq, flags]
      simp only [Relation.test_subtract]
    · exact relation.holds_signed_iff left right

end Instructions

namespace MixedSigns

/-- A comparison of a positive register with a negative one. -/
def compared : Fetched :=
  ⟨.cmp, 28, some ⟨⟨.register, 0⟩, 30⟩, some ⟨⟨.register, 1⟩, 31⟩, none⟩

/-- A jump back to the comparison if the first register was less. -/
def jump : Fetched := ⟨.jl, 32, some ⟨⟨.label, 28⟩, 34⟩, none, none⟩

/-- The processor in front of the comparison. -/
def before : Processor where
  registers := ⟨#[1, 0xFFFF], #[], #[]⟩
  flags := .clear
  code := ⟨Array.replicate 36 0, 36⟩
  data := .zeros 0
  frameBase := 0

/-- The processor behind the comparison. -/
def after : Processor := { before with flags := ⟨true, false, false, true⟩ }

theorem values : readPair compared before = .ok (1, 0xFFFF) before := rfl

theorem executed : execute compared before = .ok () after := rfl

/-- The processor where the jump goes. -/
def back : Processor := { after with code := { after.code with cursor := 28 } }

theorem jumped : execute jump after = .ok () back := rfl

end MixedSigns

/-- One is found to be less than minus one. -/
theorem one_less_than_minus_one :
    ∃ (compared conditional : Fetched) (state next : Processor),
      compared.opcode = .cmp ∧ readPair compared state = .ok (1, 0xFFFF) state ∧
        execute compared state = .ok () next ∧
        conditional.opcode.condition? = some (.less, .jmp) ∧
        (1 : Word).signed = 1 ∧ (0xFFFF : Word).signed = -1 ∧
        execute conditional next = execute { conditional with opcode := .jmp } next ∧
        execute conditional next ≠ .ok () next := by
  refine ⟨MixedSigns.compared, MixedSigns.jump, MixedSigns.before, MixedSigns.after, rfl,
    MixedSigns.values, MixedSigns.executed, rfl, by decide, by decide, rfl, ?_⟩
  rw [MixedSigns.jumped]
  intro same
  cases same

/-- The same comparison orders the words rightly as unsigned numbers. -/
theorem one_less_than_greatest :
    execute MixedSigns.jump MixedSigns.after =
        execute { MixedSigns.jump with opcode := .jmp } MixedSigns.after ∧
      ¬ (Relation.less.Holds (1 : Word).toNat (0xFFFF : Word).toNat ↔
        Relation.less.Holds (1 : Word).signed (0xFFFF : Word).signed) := by
  have compares : MixedSigns.compared.opcode = .cmp := rfl
  rcases conditions_decide_unsigned_order compares MixedSigns.values with ⟨-, conditions⟩
  rcases conditions MixedSigns.after MixedSigns.jump .less .jmp rfl rfl with ⟨taken, agrees⟩
  constructor
  · rw [taken, if_pos (by decide)]
  · rw [agrees]
    decide

end Processor

end WordMachine
