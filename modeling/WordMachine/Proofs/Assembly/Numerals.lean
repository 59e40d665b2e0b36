import Mathlib.Data.Nat.Digits.Defs
import Mathlib.Tactic.MkIffOfInductiveProp
import WordMachine.Assembly.Token

/-!
# The grammar of numerals

A numeral is written as digits, or as digits behind `0x`, and a word also as decimal digits
behind a minus sign (`WordNumeral`). All of these are read, each with the value it denotes, and
nothing else but unsigned numerals with a plus sign in front of their digits
(`Unsigned.read_iff`).
-/

namespace WordMachine.Assembly.Numeral

/-- Whether a character, of either case, is a digit of a base up to sixteen. -/
def IsDigit (base : Nat) (char : Char) (digit : Nat) : Prop :=
  digit < base ∧ ("0123456789abcdef".toList[digit]? = some char ∨
    "0123456789ABCDEF".toList[digit]? = some char)

/-- Whether characters are one or more digits, the first of the highest value, that denote a
number. -/
def Spells (base : Nat) (chars : List Char) (number : Nat) : Prop :=
  chars ≠ [] ∧ ∃ digits, List.Forall₂ (IsDigit base) chars digits ∧
    number = Nat.ofDigits base digits.reverse

/-- Decimal or hexadecimal numerals of numbers below a limit, with a sign in front of the
digits. -/
@[mk_iff]
inductive Unsigned (sign : List Char) (limit : Nat) : List Char → Nat → Prop where
  | decimal {digits : List Char} {number : Nat} (spells : Spells 10 digits number)
      (below : number < limit) : Unsigned sign limit (sign ++ digits) number
  | hexadecimal {mark : Char} {digits : List Char} {number : Nat} (marked : mark = 'x' ∨ mark = 'X')
      (spells : Spells 16 digits number) (below : number < limit) :
      Unsigned sign limit ('0' :: mark :: (sign ++ digits)) number

/-- The numerals of words: unsigned ones without a sign, and negative decimal ones in two's
complement. -/
inductive WordNumeral : List Char → Word → Prop where
  | unsigned {chars : List Char} {number : Nat} (spells : Unsigned [] 0x10000 chars number) :
      WordNumeral chars (UInt16.ofNat number)
  | negative {digits : List Char} {magnitude : Nat} (spells : Spells 10 digits magnitude)
      (small : magnitude ≤ 32768) :
      WordNumeral ('-' :: digits) (UInt16.ofNat ((65536 - magnitude) % 65536))

/-- The numerals of sizes. -/
inductive SizeNumeral : List Char → UInt64 → Prop where
  | unsigned {chars : List Char} {number : Nat} (spells : Unsigned [] (2 ^ 64) chars number) :
      SizeNumeral chars (UInt64.ofNat number)

/-! ## Digits -/

/-- A hexadecimal digit stands before `g` in the order of characters. -/
theorem toNat_lt_of_digitValue? {char : Char} {digit : Nat}
    (found : digitValue? char = some digit) : char.toNat < 103 := by
  have below {last : Char} (small : last.toNat < 103) (before : char ≤ last) :
      char.toNat < 103 := by
    rw [Char.le_def, UInt32.le_iff_toNat_le] at before
    exact Nat.lt_of_le_of_lt before small
  rw [digitValue?] at found
  split at found
  next decimal => exact below (by decide) decimal.2
  next =>
    split at found
    next lower => exact below (by decide) lower.2
    next =>
      split at found
      next upper => exact below (by decide) upper.2
      next => cases found

theorem digitValue?_eq_some_iff {char : Char} {digit : Nat} :
    digitValue? char = some digit ↔ IsDigit 16 char digit := by
  have values : ∀ digit : Fin 16,
      ("0123456789abcdef".toList[digit.val]?).bind digitValue? = some digit.val ∧
        ("0123456789ABCDEF".toList[digit.val]?).bind digitValue? = some digit.val := by decide
  have letters : ∀ code : Fin 103, ∀ digit ∈ digitValue? (Char.ofNat code.val),
      digit < 16 ∧ ("0123456789abcdef".toList[digit]? = some (Char.ofNat code.val) ∨
        "0123456789ABCDEF".toList[digit]? = some (Char.ofNat code.val)) := by decide
  constructor
  · intro found
    have isDigit := letters ⟨char.toNat, toNat_lt_of_digitValue? found⟩ digit
    rw [Char.ofNat_toNat] at isDigit
    exact isDigit found
  · rintro ⟨small, lower | upper⟩
    · have value := (values ⟨digit, small⟩).1
      rwa [lower] at value
    · have value := (values ⟨digit, small⟩).2
      rwa [upper] at value

theorem digit?_eq_some_iff {base : Nat} (small : base ≤ 16) {char : Char} {digit : Nat} :
    digit? base char = some digit ↔ IsDigit base char digit := by
  rw [digit?, Option.filter_eq_some_iff, digitValue?_eq_some_iff, decide_eq_true_eq, IsDigit,
    IsDigit]
  constructor
  · rintro ⟨⟨-, spelled⟩, below⟩
    exact ⟨below, spelled⟩
  · rintro ⟨below, spelled⟩
    exact ⟨⟨Nat.lt_of_lt_of_le below small, spelled⟩, below⟩

/-- Reading goes on from the number that the characters in front denote. -/
theorem foldlM_digit?_eq_some_iff {base : Nat} (small : base ≤ 16) {chars : List Char}
    {front number : Nat} :
    chars.foldlM (fun value char => (digit? base char).map (base * value + ·)) front =
        some number ↔
      ∃ digits, List.Forall₂ (IsDigit base) chars digits ∧
        number = digits.foldl (fun value digit => base * value + digit) front := by
  induction chars generalizing front with
  | nil =>
      constructor
      · intro same
        cases same
        exact ⟨[], .nil, rfl⟩
      · rintro ⟨digits, spelled, rfl⟩
        cases spelled
        rfl
  | cons char rest ih =>
      rw [List.foldlM_cons, Option.bind_eq_bind, Option.bind_eq_some_iff]
      constructor
      · rintro ⟨value, first, others⟩
        rw [Option.map_eq_some_iff] at first
        rcases first with ⟨digit, found, rfl⟩
        rcases ih.mp others with ⟨digits, spelled, rfl⟩
        exact ⟨digit :: digits, .cons ((digit?_eq_some_iff small).mp found) spelled, rfl⟩
      · rintro ⟨_, spelled, rfl⟩
        cases spelled with
        | @cons _ digit _ digits isDigit spelled =>
            refine ⟨base * front + digit, ?_, ih.mpr ⟨digits, spelled, rfl⟩⟩
            rw [(digit?_eq_some_iff small).mpr isDigit]
            rfl

theorem digits?_eq_some_iff {base : Nat} (small : base ≤ 16) {chars : List Char} {number : Nat} :
    digits? base chars = some number ↔ Spells base chars number := by
  have positional (digits : List Nat) :
      digits.foldl (fun value digit => base * value + digit) 0 =
        Nat.ofDigits base digits.reverse := by
    rw [Nat.ofDigits_eq_foldr, List.foldr_reverse]
    congr 1
    funext value digit
    exact Nat.add_comm _ _
  cases chars with
  | nil =>
      constructor
      · intro found
        cases found
      · intro spells
        exact absurd rfl spells.1
  | cons char rest =>
      change List.foldlM _ _ _ = _ ↔ _
      rw [foldlM_digit?_eq_some_iff small, Spells]
      simp only [positional, ne_eq, reduceCtorEq, not_false_eq_true, true_and]

/-- What is no digit stands in no number. -/
theorem Spells.not_mem {base : Nat} (small : base ≤ 16) {chars : List Char} {number : Nat}
    (spells : Spells base chars number) {char : Char} (noDigit : digitValue? char = none) :
    char ∉ chars := by
  rcases spells with ⟨-, digits, spelled, -⟩
  induction spelled with
  | nil => exact List.not_mem_nil
  | @cons first digit rest _ isDigit _ ih =>
      intro member
      rcases List.mem_cons.mp member with rfl | later
      · have found : digitValue? char = some digit :=
          digitValue?_eq_some_iff.mpr ⟨Nat.lt_of_lt_of_le isDigit.1 small, isDigit.2⟩
        rw [noDigit] at found
        cases found
      · exact ih later

/-! ## Unsigned numerals -/

/-- The signs that unsigned numerals are read with: none, or a plus. -/
def ReadSign (sign : List Char) : Prop := sign = [] ∨ sign = ['+']

theorem unsigned?_eq_some_iff {base limit : Nat} (small : base ≤ 16) {chars : List Char}
    {number : Nat} :
    unsigned? base limit chars = some number ↔
      ∃ sign, ReadSign sign ∧ ∃ digits, chars = sign ++ digits ∧ Spells base digits number ∧
        number < limit := by
  rw [unsigned?, Option.filter_eq_some_iff, digits?_eq_some_iff small, decide_eq_true_eq]
  constructor
  · rintro ⟨spells, below⟩
    unfold withoutPlus at spells
    split at spells
    next rest => exact ⟨['+'], Or.inr rfl, rest, rfl, spells, below⟩
    next => exact ⟨[], Or.inl rfl, chars, rfl, spells, below⟩
  · rintro ⟨_, rfl | rfl, digits, rfl, spells, below⟩
    · refine ⟨?_, below⟩
      unfold withoutPlus
      split
      next => exact absurd (List.mem_cons_self ..) (spells.not_mem small rfl)
      next => exact spells
    · exact ⟨spells, below⟩

theorem decimalOrHex?_eq_some_iff {limit : Nat} {chars : List Char} {number : Nat} :
    decimalOrHex? limit chars = some number ↔
      ∃ sign, ReadSign sign ∧ Unsigned sign limit chars number := by
  have marked {mark : Char} {rest : List Char} (isMark : mark = 'x' ∨ mark = 'X') :
      unsigned? 16 limit rest = some number ↔
        ∃ sign, ReadSign sign ∧ Unsigned sign limit ('0' :: mark :: rest) number := by
    rw [unsigned?_eq_some_iff (Nat.le_refl 16)]
    constructor
    · rintro ⟨sign, read, digits, rfl, spells, below⟩
      exact ⟨sign, read, .hexadecimal isMark spells below⟩
    · rintro ⟨sign, read, unsigned⟩
      rcases (unsigned_iff ..).mp unsigned with
        ⟨digits, spells, below, same⟩ | ⟨_, digits, _, spells, below, same⟩
      · have noDigit : digitValue? mark = none := by
          rcases isMark with rfl | rfl <;> rfl
        rcases read with rfl | rfl
        · rw [List.nil_append] at same
          rw [← same] at spells
          exact absurd (List.mem_cons_of_mem _ (List.mem_cons_self ..))
            (spells.not_mem (by decide) noDigit)
        · cases same
      · cases same
        exact ⟨sign, read, digits, rfl, spells, below⟩
  unfold decimalOrHex?
  split
  next rest => exact marked (Or.inl rfl)
  next rest => exact marked (Or.inr rfl)
  next noLower noUpper =>
    rw [unsigned?_eq_some_iff (by decide)]
    constructor
    · rintro ⟨sign, read, digits, rfl, spells, below⟩
      exact ⟨sign, read, .decimal spells below⟩
    · rintro ⟨sign, read, unsigned⟩
      cases unsigned with
      | decimal spells below => exact ⟨sign, read, _, rfl, spells, below⟩
      | hexadecimal isMark spells below =>
          rcases isMark with rfl | rfl
          · exact absurd rfl (noLower _)
          · exact absurd rfl (noUpper _)

/-- A numeral with a plus sign in front of its digits is none without. -/
theorem Unsigned.not_plus {limit limit' : Nat} {chars : List Char} {number number' : Nat}
    (unsigned : Unsigned [] limit chars number) : ¬ Unsigned ['+'] limit' chars number' := by
  have noPlus {base : Nat} (small : base ≤ 16) {digits : List Char} {value : Nat} :
      ¬ Spells base ('+' :: digits) value :=
    fun spells => spells.not_mem small rfl (List.mem_cons_self ..)
  intro plus
  rcases (unsigned_iff ..).mp unsigned with
    ⟨digits, spells, _, rfl⟩ | ⟨mark, digits, _, spells, _, rfl⟩
  · rcases (unsigned_iff ..).mp plus with ⟨others, _, _, same⟩ | ⟨mark, others, isMark, _, _, same⟩
    · rw [same] at spells
      exact noPlus (by decide) spells
    · rw [same] at spells
      have noDigit : digitValue? mark = none := by
        rcases isMark with rfl | rfl <;> rfl
      exact spells.not_mem (by decide) noDigit (List.mem_cons_of_mem _ (List.mem_cons_self ..))
  · rcases (unsigned_iff ..).mp plus with ⟨others, _, _, same⟩ | ⟨_, others, _, _, _, same⟩
    · cases same
    · cases same
      exact noPlus (Nat.le_refl 16) spells

/-- An unsigned numeral begins with a digit or a plus. -/
theorem Unsigned.not_minus {sign : List Char} (read : ReadSign sign) {limit : Nat}
    {rest : List Char} {number : Nat} : ¬ Unsigned sign limit ('-' :: rest) number := by
  intro unsigned
  rcases (unsigned_iff ..).mp unsigned with ⟨digits, spells, _, same⟩ | ⟨_, _, _, _, _, same⟩
  · rcases read with rfl | rfl
    · rw [List.nil_append] at same
      rw [← same] at spells
      exact spells.not_mem (by decide) rfl (List.mem_cons_self ..)
    · cases same
  · cases same

/-! ## Words and sizes -/

theorem ofSigned_neg {magnitude : Nat} (small : magnitude ≤ 32768) :
    Word.ofSigned (-magnitude) = UInt16.ofNat ((65536 - magnitude) % 65536) := by
  apply UInt16.toBitVec_inj.mp
  apply BitVec.eq_of_toNat_eq
  rw [Word.ofSigned, BitVec.toNat_ofInt, UInt16.toNat_toBitVec, UInt16.toNat_ofNat']
  omega

theorem negative?_eq_some_iff {chars : List Char} {value : Word} :
    negative? chars = some value ↔ WordNumeral ('-' :: chars) value := by
  have read : negative? chars = some value ↔ ∃ magnitude : Nat, Spells 10 chars magnitude ∧
      magnitude ≤ 32768 ∧ Word.ofSigned (-magnitude) = value := by
    simp only [← digits?_eq_some_iff (show 10 ≤ 16 by decide)]
    simp [negative?, Option.bind_eq_some_iff, Option.filter_eq_some_iff, and_assoc]
  rw [read]
  constructor
  · rintro ⟨magnitude, spells, small, rfl⟩
    rw [ofSigned_neg small]
    exact .negative spells small
  · intro numeral
    cases numeral with
    | unsigned spells => exact absurd spells (Unsigned.not_minus (Or.inl rfl))
    | negative spells small => exact ⟨_, spells, small, ofSigned_neg small⟩

theorem word?_eq_some_iff {chars : List Char} {value : Word} :
    word? chars = some value ↔ WordNumeral chars value ∨
      ∃ number, Unsigned ['+'] 0x10000 chars number ∧ value = UInt16.ofNat number := by
  unfold word?
  split
  next rest =>
    rw [negative?_eq_some_iff]
    constructor
    · exact Or.inl
    · rintro (numeral | ⟨_, plus, -⟩)
      · exact numeral
      · exact absurd plus (Unsigned.not_minus (Or.inr rfl))
  next noMinus =>
    rw [Option.map_eq_some_iff]
    simp only [decimalOrHex?_eq_some_iff]
    constructor
    · rintro ⟨number, ⟨_, rfl | rfl, unsigned⟩, rfl⟩
      · exact Or.inl (.unsigned unsigned)
      · exact Or.inr ⟨number, unsigned, rfl⟩
    · rintro (numeral | ⟨number, plus, rfl⟩)
      · cases numeral with
        | unsigned spells => exact ⟨_, ⟨[], Or.inl rfl, spells⟩, rfl⟩
        | negative _ _ => exact absurd rfl (noMinus _)
      · exact ⟨number, ⟨['+'], Or.inr rfl, plus⟩, rfl⟩

theorem size?_eq_some_iff {chars : List Char} {value : UInt64} :
    size? chars = some value ↔ SizeNumeral chars value ∨
      ∃ number, Unsigned ['+'] (2 ^ 64) chars number ∧ value = UInt64.ofNat number := by
  rw [size?, Option.map_eq_some_iff]
  simp only [decimalOrHex?_eq_some_iff]
  constructor
  · rintro ⟨number, ⟨_, rfl | rfl, unsigned⟩, rfl⟩
    · exact Or.inl (.unsigned unsigned)
    · exact Or.inr ⟨number, unsigned, rfl⟩
  · rintro (numeral | ⟨number, plus, rfl⟩)
    · cases numeral with
      | unsigned spells => exact ⟨_, ⟨[], Or.inl rfl, spells⟩, rfl⟩
    · exact ⟨number, ⟨['+'], Or.inr rfl, plus⟩, rfl⟩

/-- A numeral of a word has no plus sign in front of its digits. -/
theorem WordNumeral.not_plus {chars : List Char} {value : Word} (numeral : WordNumeral chars value)
    {limit number : Nat} : ¬ Unsigned ['+'] limit chars number := by
  cases numeral with
  | unsigned spells => exact spells.not_plus
  | negative _ _ => exact Unsigned.not_minus (Or.inr rfl)

theorem SizeNumeral.not_plus {chars : List Char} {value : UInt64}
    (numeral : SizeNumeral chars value) {limit number : Nat} :
    ¬ Unsigned ['+'] limit chars number := by
  cases numeral with
  | unsigned spells => exact spells.not_plus

/-- A token is read as a word or as a size if it is a numeral of one, with the value that it
denotes. The only other tokens that are read are unsigned numerals with one plus sign in front of
their digits, and none of them is a numeral. -/
theorem numerals_are_read (token : List Char) :
    (∀ value, word? token = some value ↔ WordNumeral token value ∨
        ∃ number, Unsigned ['+'] 0x10000 token number ∧ value = UInt16.ofNat number) ∧
      (∀ value, size? token = some value ↔ SizeNumeral token value ∨
        ∃ number, Unsigned ['+'] (2 ^ 64) token number ∧ value = UInt64.ofNat number) ∧
      ¬ ((∃ limit number, Unsigned ['+'] limit token number) ∧
        ((∃ value, WordNumeral token value) ∨ ∃ value, SizeNumeral token value)) := by
  refine ⟨fun _ => word?_eq_some_iff, fun _ => size?_eq_some_iff, ?_⟩
  rintro ⟨⟨_, _, plus⟩, ⟨_, numeral⟩ | ⟨_, numeral⟩⟩
  · exact numeral.not_plus plus
  · exact numeral.not_plus plus

/-- A hexadecimal literal with a plus sign is read as a word and as a size, which no numeral
is. -/
theorem plus_is_read :
    word? "0x+f".toList = some 15 ∧ size? "0x+f".toList = some 15 ∧
      (¬ ∃ value, WordNumeral "0x+f".toList value) ∧
      ¬ ∃ value, SizeNumeral "0x+f".toList value := by
  have plus : Unsigned ['+'] 0x10000 "0x+f".toList 15 := by
    have spells : Spells 16 ['f'] 15 := (digits?_eq_some_iff (Nat.le_refl 16)).mp rfl
    exact .hexadecimal (Or.inl rfl) spells (by decide)
  refine ⟨rfl, rfl, ?_, ?_⟩
  · rintro ⟨_, numeral⟩
    exact numeral.not_plus plus
  · rintro ⟨_, numeral⟩
    exact numeral.not_plus plus

end WordMachine.Assembly.Numeral
