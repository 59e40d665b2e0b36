import WordMachine.Proofs.Assembly.Collecting
import WordMachine.Proofs.Assembly.Renaming

/-!
# Upper and lower case

Nothing but names is told apart by upper and lower case. So registers, numerals in hexadecimal and
the keywords of types mean the same in lower case, and so does what comes first in a statement: the
mnemonic of an instruction, the keyword of a declaration, or the name of a pragma. A line with all
of these in lower case (`Line.folded`) declares what it declared
(`Declarations.addStatement_folded`) and has the same operands (`Draft.argument_folded`).
-/

namespace WordMachine.Assembly

/-! ## Letters -/

theorem toLower_of_not_isUpper {char : Char} (noUpper : ¬ char.isUpper = true) :
    char.toLower = char := dif_neg fun upper => noUpper (decide_eq_true_iff.mpr upper)

/-- The letters in upper case are twenty-six, and each of them has one in lower case. -/
theorem toLower_cases (char : Char) :
    char.toLower = char ∧ char.isUpper = false ∨
      ∃ index < 26, char = Char.ofNat (65 + index) ∧ char.toLower = Char.ofNat (97 + index) := by
  by_cases upper : char.isUpper = true
  · right
    rw [isUpper_iff] at upper
    have same : char = Char.ofNat (65 + (char.toNat - 65)) := by
      rw [Nat.add_sub_cancel' upper.1, Char.ofNat_toNat]
    have every : ∀ index < 26, (Char.ofNat (65 + index)).toLower = Char.ofNat (97 + index) := by
      decide
    refine ⟨char.toNat - 65, by omega, same, ?_⟩
    rw [← every (char.toNat - 65) (by omega), ← same]
  · left
    exact ⟨toLower_of_not_isUpper upper, Bool.not_eq_true _ ▸ upper⟩

/-- What holds of every letter in upper case with the same in lower case, and of any other
character with itself, holds of every character with its lower case. -/
theorem toLower_induction {motive : Char → Char → Prop}
    (other : ∀ char : Char, char.isUpper = false → motive char char)
    (upper : ∀ index < 26, motive (Char.ofNat (65 + index)) (Char.ofNat (97 + index)))
    (char : Char) : motive char char.toLower := by
  rcases toLower_cases char with ⟨same, noUpper⟩ | ⟨index, small, same, lower⟩
  · rw [same]
    exact other char noUpper
  · rw [lower, same]
    exact upper index small

section

variable (char : Char)

@[simp] theorem toLower_toLower : char.toLower.toLower = char.toLower := by
  refine toLower_induction (motive := fun _ lower => lower.toLower = lower) ?_ (by decide) char
  exact fun char noUpper => toLower_of_not_isUpper (Bool.not_eq_true _ ▸ noUpper)

@[simp] theorem isDigit_toLower : char.toLower.isDigit = char.isDigit :=
  toLower_induction (motive := fun char lower => lower.isDigit = char.isDigit) (fun _ _ => rfl)
    (by decide) char

@[simp] theorem isAlpha_toLower : char.toLower.isAlpha = char.isAlpha :=
  toLower_induction (motive := fun char lower => lower.isAlpha = char.isAlpha) (fun _ _ => rfl)
    (by decide) char

@[simp] theorem digitValue?_toLower :
    Numeral.digitValue? char.toLower = Numeral.digitValue? char :=
  toLower_induction
    (motive := fun char lower => Numeral.digitValue? lower = Numeral.digitValue? char)
    (fun _ _ => rfl) (by decide) char

/-- No letter becomes another character in lower case. -/
theorem toLower_eq_iff {other : Char} (noLetter : other.isAlpha = false) :
    char.toLower = other ↔ char = other := by
  refine toLower_induction (motive := fun char lower => lower = other ↔ char = other)
    (fun _ _ => Iff.rfl) ?_ char
  have letters : ∀ index < 26, (Char.ofNat (65 + index)).isAlpha = true ∧
      (Char.ofNat (97 + index)).isAlpha = true := by
    decide
  intro index small
  have apart {letter : Char} (isLetter : letter.isAlpha = true) : letter ≠ other := by
    rintro rfl
    rw [noLetter] at isLetter
    cases isLetter
  exact iff_of_false (apart (letters index small).2) (apart (letters index small).1)

theorem toLower_eq_x_iff : char.toLower = 'x' ↔ char = 'x' ∨ char = 'X' := by
  refine toLower_induction (motive := fun char lower => lower = 'x' ↔ char = 'x' ∨ char = 'X') ?_
    (by decide) char
  intro char noUpper
  constructor
  · exact Or.inl
  · rintro (rfl | rfl)
    · rfl
    · cases noUpper

end

/-! ## Tokens -/

namespace Token

variable (token : Token)

@[simp] theorem lowerCase_lowerCase : token.lowerCase.lowerCase = token.lowerCase := by
  simp [lowerCase, Function.comp_def]

@[simp] theorem spells_lowerCase (word : String) :
    token.lowerCase.spells word = token.spells word := by
  simp [spells]

@[simp] theorem ofKeyword?_lowerCase :
    VariableType.ofKeyword? token.lowerCase = VariableType.ofKeyword? token := by
  simp [VariableType.ofKeyword?]

theorem getLast?_lowerCase_iff {last : Char} (noLetter : last.isAlpha = false) :
    token.lowerCase.getLast? = some last ↔ token.getLast? = some last := by
  rw [lowerCase, List.getLast?_map]
  cases token.getLast? with
  | none => simp
  | some char => simp [toLower_eq_iff char noLetter]

theorem head?_lowerCase_iff {first : Char} (noLetter : first.isAlpha = false) :
    token.lowerCase.head? = some first ↔ token.head? = some first := by
  rw [lowerCase, List.head?_map]
  cases token.head? with
  | none => simp
  | some char => simp [toLower_eq_iff char noLetter]

/-- Whether a token opens like a number does not depend on case. -/
theorem opensNumber_lowerCase :
    (token.lowerCase.head?.any fun char => char.isDigit || char == '-') =
      token.head?.any fun char => char.isDigit || char == '-' := by
  have minus (char : Char) : (char.toLower == '-') = (char == '-') :=
    Bool.eq_iff_iff.mpr (by simpa using toLower_eq_iff char rfl)
  rw [lowerCase, List.head?_map]
  cases token.head? with
  | none => rfl
  | some char => simp [minus]

@[simp] theorem dropLast_lowerCase : token.lowerCase.dropLast = lowerCase token.dropLast := by
  simp [lowerCase, List.map_dropLast]

theorem drop_lowerCase (count : Nat) :
    token.lowerCase.drop count = (token.drop count).map Char.toLower := List.map_drop.symm

@[simp] theorem hasRegisterPrefix_lowerCase :
    Name.hasRegisterPrefix token.lowerCase = Name.hasRegisterPrefix token := by
  have front : token.lowerCase.take 3 = lowerCase (token.take 3) := List.map_take.symm
  rw [Name.hasRegisterPrefix, front, spells_lowerCase, Name.hasRegisterPrefix]

@[simp] theorem isRegister_lowerCase : Name.isRegister token.lowerCase = Name.isRegister token := by
  have digits : ((token.drop 3).map Char.toLower).all Char.isDigit =
      (token.drop 3).all Char.isDigit := by
    rw [List.all_map]
    exact congrArg (token.drop 3).all (funext isDigit_toLower)
  rw [Name.isRegister, Name.isRegister, hasRegisterPrefix_lowerCase, drop_lowerCase,
    List.isEmpty_map, digits]

@[simp] theorem digits?_map_toLower (base : Nat) :
    Numeral.digits? base (token.map Char.toLower) = Numeral.digits? base token := by
  cases token with
  | nil => rfl
  | cons first rest =>
      rw [List.map_cons, Numeral.digits?, Numeral.digits?, ← List.map_cons, List.foldlM_map]
      · simp only [Numeral.digit?, digitValue?_toLower]
      · exact nofun
      · exact nofun

@[simp] theorem register?_lowerCase : Name.register? token.lowerCase = Name.register? token := by
  rw [Name.register?, Name.register?, isRegister_lowerCase, drop_lowerCase, digits?_map_toLower]

theorem unsigned?_map_toLower (base limit : Nat) :
    Numeral.unsigned? base limit (token.map Char.toLower) = Numeral.unsigned? base limit token := by
  have plus : Numeral.withoutPlus (token.map Char.toLower) =
      (Numeral.withoutPlus token).map Char.toLower := by
    cases token with
    | nil => rfl
    | cons first rest =>
        by_cases isPlus : first = '+'
        · subst isPlus
          rfl
        · have noPlus := mt (toLower_eq_iff first rfl).mp isPlus
          rw [List.map_cons, Numeral.withoutPlus, Numeral.withoutPlus]
          · rfl
          · simpa using isPlus
          · simpa using noPlus
  rw [Numeral.unsigned?, Numeral.unsigned?, plus, digits?_map_toLower]

/-- Numerals are read alike in upper and in lower case. -/
theorem decimalOrHex?_lowerCase (limit : Nat) :
    Numeral.decimalOrHex? limit token.lowerCase = Numeral.decimalOrHex? limit token := by
  by_cases hexadecimal : ∃ mark digits, token = '0' :: mark :: digits ∧ (mark = 'x' ∨ mark = 'X')
  · obtain ⟨mark, digits, rfl, rfl | rfl⟩ := hexadecimal
    · exact unsigned?_map_toLower digits 16 limit
    · exact unsigned?_map_toLower digits 16 limit
  · have decimal : Numeral.decimalOrHex? limit token = Numeral.unsigned? 10 limit token := by
      rw [Numeral.decimalOrHex?]
      · exact fun digits same => hexadecimal ⟨'x', digits, same, Or.inl rfl⟩
      · exact fun digits same => hexadecimal ⟨'X', digits, same, Or.inr rfl⟩
    rw [decimal, Numeral.decimalOrHex?]
    · exact unsigned?_map_toLower token 10 limit
    · intro lowered same
      obtain ⟨first, rest, rfl, zero, same⟩ := List.map_eq_cons_iff.mp same
      obtain ⟨mark, digits, rfl, isMark, -⟩ := List.map_eq_cons_iff.mp same
      obtain rfl := (toLower_eq_iff first rfl).mp zero
      exact hexadecimal ⟨mark, digits, rfl, (toLower_eq_x_iff mark).mp isMark⟩
    · intro lowered same
      obtain ⟨first, rest, rfl, -, same⟩ := List.map_eq_cons_iff.mp same
      obtain ⟨mark, digits, rfl, isMark, -⟩ := List.map_eq_cons_iff.mp same
      have isLower := toLower_toLower mark
      rw [isMark] at isLower
      exact absurd isLower (by decide)

@[simp] theorem size?_lowerCase : Numeral.size? token.lowerCase = Numeral.size? token := by
  rw [Numeral.size?, Numeral.size?, decimalOrHex?_lowerCase]

@[simp] theorem word?_lowerCase : Numeral.word? token.lowerCase = Numeral.word? token := by
  cases token with
  | nil => rfl
  | cons first rest =>
      by_cases minus : first = '-'
      · subst minus
        have negative : Numeral.negative? (rest.map Char.toLower) = Numeral.negative? rest := by
          rw [Numeral.negative?, Numeral.negative?, digits?_map_toLower]
        exact negative
      · have unsigned {first : Char} {rest : List Char} (noMinus : first ≠ '-') :
            Numeral.word? (first :: rest) =
              (Numeral.decimalOrHex? 0x10000 (first :: rest)).map UInt16.ofNat := by
          rw [Numeral.word?]
          rintro chars same
          exact noMinus (List.cons.inj same).1
        rw [unsigned minus, ← decimalOrHex?_lowerCase, lowerCase, List.map_cons]
        exact unsigned (mt (toLower_eq_iff first rfl).mp minus)

@[simp] theorem isIdentifier_lowerCase :
    Name.isIdentifier token.lowerCase = Name.isIdentifier token := by
  have word (char : Char) : (char.toLower.isAlphanum || char.toLower == '_') =
      (char.isAlphanum || char == '_') := by
    have underscore : (char.toLower == '_') = (char == '_') :=
      Bool.eq_iff_iff.mpr (by simpa using toLower_eq_iff char rfl)
    rw [Char.isAlphanum, Char.isAlphanum, isAlpha_toLower, isDigit_toLower, underscore]
  have isWord : Name.isWord token.lowerCase = Name.isWord token := by
    rw [Name.isWord, Name.isWord, lowerCase, List.head?_map, List.all_map]
    simp only [Function.comp_def, word]
    cases token.head? with
    | none => rfl
    | some first => simp
  rw [Name.isIdentifier, Name.isIdentifier, isWord, ofKeyword?_lowerCase, isRegister_lowerCase]

/-- Whether a token begins like a numeral in hexadecimal. -/
def isHexadecimal : Token → Bool
  | '0' :: 'x' :: _ | '0' :: 'X' :: _ => true
  | _ => false

/-- What stands between the brackets of a token. -/
def inBrackets? : Token → Option Token
  | '[' :: inner => if inner.getLast? = some ']' then some inner.dropLast else none
  | _ => none

/-- Whether a token is a register or a numeral in hexadecimal, in brackets or not, or the keyword
of a type. -/
def isCaseless (token : Token) : Bool :=
  let isRegisterOrHexadecimal (token : Token) := Name.isRegister token || isHexadecimal token
  isRegisterOrHexadecimal token || (inBrackets? token).any isRegisterOrHexadecimal ||
    (VariableType.ofKeyword? token).isSome

/-- The token in lower case, if it is one of those that mean the same then. -/
def folded (token : Token) : Token := if isCaseless token then token.lowerCase else token

theorem folded_cases : token.folded = token.lowerCase ∧ token.isCaseless = true ∨
    token.folded = token := by
  rw [folded]
  split
  next caseless => exact Or.inl ⟨rfl, caseless⟩
  next => exact Or.inr rfl

/-- No name is changed. -/
theorem folded_of_isIdentifier {token : Token} (identifier : Name.isIdentifier token = true) :
    token.folded = token := by
  rw [Name.isIdentifier, Bool.and_eq_true, Bool.and_eq_true, Name.isWord, Bool.and_eq_true,
    Bool.not_eq_true', Option.isNone_iff_eq_none] at identifier
  obtain ⟨⟨⟨letter, -⟩, noKeyword⟩, noRegister⟩ := identifier
  have noHexadecimal : token.isHexadecimal = false := by
    unfold isHexadecimal
    split
    · cases letter
    · cases letter
    · rfl
  have noBrackets : token.inBrackets? = none := by
    unfold inBrackets?
    split
    · cases letter
    · rfl
  rw [folded, if_neg]
  simp [isCaseless, noKeyword, noRegister, noHexadecimal, noBrackets]

@[simp] theorem isIdentifier_folded : Name.isIdentifier token.folded = Name.isIdentifier token := by
  rcases token.folded_cases with ⟨lower, -⟩ | same
  · rw [lower, isIdentifier_lowerCase]
  · rw [same]

@[simp] theorem ofKeyword?_folded :
    VariableType.ofKeyword? token.folded = VariableType.ofKeyword? token := by
  rcases token.folded_cases with ⟨lower, -⟩ | same
  · rw [lower, ofKeyword?_lowerCase]
  · rw [same]

@[simp] theorem register?_folded : Name.register? token.folded = Name.register? token := by
  rcases token.folded_cases with ⟨lower, -⟩ | same
  · rw [lower, register?_lowerCase]
  · rw [same]

@[simp] theorem size?_folded : Numeral.size? token.folded = Numeral.size? token := by
  rcases token.folded_cases with ⟨lower, -⟩ | same
  · rw [lower, size?_lowerCase]
  · rw [same]

/-- A token is a good name in lower case if it is one as it is written. -/
theorem isName_folded : Declarations.isName token.folded = Declarations.isName token := by
  have length : token.folded.length = token.length := by
    rcases token.folded_cases with ⟨lower, -⟩ | same
    · rw [lower, lowerCase, List.length_map]
    · rw [same]
  have fits : Name.Fits token.folded ↔ Name.Fits token := by
    rw [Name.Fits, Name.Fits, length]
  rw [Declarations.isName, Declarations.isName, isIdentifier_folded, decide_eq_decide.mpr fits]

end Token

/-! ## Operands -/

namespace Draft

variable {draft : Draft}

/-- Whether nothing but good names is in the tables of a draft. -/
def WellNamed (draft : Draft) : Prop :=
  ∀ table, ∀ name ∈ draft.names table, Declarations.isName name = true

theorem registerArgument_lowerCase (mode : Mode) (token : Token) :
    registerArgument mode token.lowerCase = registerArgument mode token := by
  rw [registerArgument, registerArgument, Token.register?_lowerCase]

theorem bracketed_lowerCase (inner : Token) : bracketed inner.lowerCase = bracketed inner := by
  have closed : inner.lowerCase.getLast? = some ']' ↔ inner.getLast? = some ']' :=
    inner.getLast?_lowerCase_iff rfl
  have digit (token : Token) :
      token.lowerCase.head?.any Char.isDigit = token.head?.any Char.isDigit := by
    cases token with
    | nil => rfl
    | cons first rest => exact isDigit_toLower first
  simp only [bracketed, closed, Token.dropLast_lowerCase, Token.isRegister_lowerCase,
    registerArgument_lowerCase, digit, Token.word?_lowerCase]

/-- The keyword of a type names nothing. -/
theorem named_of_keyword (wellNamed : draft.WellNamed) {token : Token}
    (keyword : (VariableType.ofKeyword? token).isSome = true) :
    draft.named token = .error .unknownToken := by
  have unnamed (table : Table) : token ∉ draft.names table := by
    intro member
    have good := wellNamed table token member
    rw [Declarations.isName, Name.isIdentifier, ← Option.not_isSome, keyword] at good
    simp at good
  have noLabel : findLabel? draft.labels token = none := by
    rw [findLabel?_eq_idxOf?]
    exact List.idxOf?_eq_none_iff.mpr (unnamed .labels)
  have noGlobal : (draft.globals.find? fun global => global.name == token) = none := by
    rw [Array.find?_eq_none]
    intro global member same
    rw [beq_iff_eq] at same
    refine unnamed .globals ?_
    rw [names, globalNames, globalAddresses, List.map_map, ← same]
    exact List.mem_map_of_mem (Array.mem_toList_iff.mpr member)
  have noLocal : (draft.locals.find? fun slot => slot.name == token) = none := by
    rw [Array.find?_eq_none]
    intro slot member same
    rw [beq_iff_eq] at same
    refine unnamed .locals ?_
    rw [names, localNames, localOffsets, List.map_map, ← same]
    exact List.mem_map_of_mem (Array.mem_toList_iff.mpr member)
  have noPrefix : Name.hasRegisterPrefix token = false := by
    have spelled : ¬ ∀ word ∈ ["byte", "int16", "uint16"], token.spells word = false := by
      rw [← ofKeyword?_isNone_iff, ← Option.not_isSome, keyword]
      simp
    simp only [not_forall, Bool.not_eq_false] at spelled
    obtain ⟨word, isKeyword, isWord⟩ := spelled
    rw [← Token.hasRegisterPrefix_lowerCase, beq_iff_eq.mp isWord]
    clear isWord
    revert word
    decide
  rw [named, noLabel, noGlobal, noLocal, noPrefix]
  rfl

theorem argument_lowerCase {token : Token}
    (named : token.head? ≠ some '[' →
      (token.head?.any fun char => char.isDigit || char == '-') = false →
      Name.isRegister token = false → draft.named token.lowerCase = draft.named token) :
    draft.argument token.lowerCase = draft.argument token := by
  by_cases bracket : token.head? = some '['
  · obtain ⟨inner, rfl⟩ := List.head?_eq_some_iff.mp bracket
    exact bracketed_lowerCase inner
  · have lowerBracket := mt (token.head?_lowerCase_iff rfl).mp bracket
    rw [draft.argument_of_unbracketed bracket, draft.argument_of_unbracketed lowerBracket,
      Token.opensNumber_lowerCase, Token.word?_lowerCase, Token.isRegister_lowerCase,
      registerArgument_lowerCase]
    split
    next => rfl
    next noNumber =>
      split
      next => rfl
      next noRegister =>
        exact named bracket (Bool.not_eq_true _ ▸ noNumber) (Bool.not_eq_true _ ▸ noRegister)

/-- Operands mean the same in lower case. -/
theorem argument_folded (wellNamed : draft.WellNamed) (token : Token) :
    draft.argument token.folded = draft.argument token := by
  rcases token.folded_cases with ⟨lower, caseless⟩ | same
  · rw [lower]
    apply argument_lowerCase
    intro unbracketed noNumber noRegister
    have noHexadecimal : token.isHexadecimal = false := by
      unfold Token.isHexadecimal
      split
      · cases noNumber
      · cases noNumber
      · rfl
    have noBrackets : token.inBrackets? = none := by
      unfold Token.inBrackets?
      split
      · exact absurd rfl unbracketed
      · rfl
    have keyword : (VariableType.ofKeyword? token).isSome = true := by
      simpa [Token.isCaseless, noRegister, noHexadecimal, noBrackets] using caseless
    rw [named_of_keyword wellNamed keyword, named_of_keyword wellNamed]
    rwa [Token.ofKeyword?_lowerCase]
  · rw [same]

theorem destination_folded (wellNamed : draft.WellNamed) (token : Token) :
    draft.destination token.folded = draft.destination token := by
  rw [destination, destination, argument_folded wellNamed]

theorem remainderRegister_folded (token : Token) :
    remainderRegister token.folded = remainderRegister token := by
  rw [remainderRegister, remainderRegister, Token.register?_folded]

theorem instruction_folded (wellNamed : draft.WellNamed) (opcode : Opcode) (operands : List Token) :
    draft.instruction opcode (operands.map Token.folded) = draft.instruction opcode operands := by
  unfold instruction
  cases opcode.shape with
  | bare => cases operands <;> rfl
  | dst =>
      rcases operands with _ | ⟨dst, _ | ⟨more, rest⟩⟩
      · rfl
      · simp only [List.map_cons, List.map_nil, destination_folded wellNamed]
      · rfl
  | srcSized =>
      rcases operands with _ | ⟨src, _ | ⟨more, rest⟩⟩
      · rfl
      · simp only [List.map_cons, List.map_nil, argument_folded wellNamed]
      · rfl
  | srcDst =>
      rcases operands with _ | ⟨src, _ | ⟨dst, _ | ⟨more, rest⟩⟩⟩
      · rfl
      · rfl
      · simp only [List.map_cons, List.map_nil, destination_folded wellNamed,
          argument_folded wellNamed]
      · rfl
  | srcDstRemainder =>
      rcases operands with _ | ⟨src, _ | ⟨dst, _ | ⟨remainder, _ | ⟨more, rest⟩⟩⟩⟩
      · rfl
      · rfl
      · rfl
      · simp only [List.map_cons, List.map_nil, destination_folded wellNamed,
          argument_folded wellNamed, remainderRegister_folded]
      · rfl

end Draft

/-! ## Statements -/

/-- The first of the tokens in lower case, and of the others those that mean the same then. -/
def foldFirst : List Token → List Token
  | [] => []
  | first :: rest => first.lowerCase :: rest.map Token.folded

namespace Line

/-- The tokens of a line in lower case, where that does not change what they mean: not the label
in front, but the first token behind it. -/
def folded : List Token → List Token
  | [] => []
  | first :: rest =>
    if (Statement.labelName? first).isSome then first :: foldFirst rest
    else if first.spells "#pragma" then first.lowerCase :: foldFirst rest
    else foldFirst (first :: rest)

theorem length_folded (tokens : List Token) : (folded tokens).length = tokens.length := by
  have foldFirst (tokens : List Token) : (foldFirst tokens).length = tokens.length := by
    cases tokens with
    | nil => rfl
    | cons first rest => simp [Assembly.foldFirst]
  cases tokens with
  | nil => rfl
  | cons first rest =>
      rw [folded]
      split
      · simp [foldFirst]
      · split
        · simp [foldFirst]
        · exact foldFirst _

end Line

namespace Statement

/-- The statement with the same meaning in lower case. -/
def folded : Statement → Statement
  | .blank => .blank
  | .label name rest => .label name (foldFirst rest)
  | .pragma arguments => .pragma (foldFirst arguments)
  | .localVariable arguments => .localVariable (arguments.map Token.folded)
  | .globals type names => .globals type (names.map Token.folded)
  | .instruction mnemonic operands =>
    .instruction mnemonic.lowerCase (operands.map Token.folded)

theorem labelName?_lowerCase_eq_none {first : Token} (noLabel : labelName? first = none) :
    labelName? first.lowerCase = none := by
  rw [labelName?] at noLabel ⊢
  rw [if_neg]
  intro colon
  rw [if_pos ((first.getLast?_lowerCase_iff rfl).mp colon)] at noLabel
  cases noLabel

/-- A line in lower case has the statement in lower case. -/
theorem ofTokens_folded (tokens : List Token) :
    ofTokens (Line.folded tokens) = (ofTokens tokens).folded := by
  cases tokens with
  | nil => rfl
  | cons first rest =>
      cases labelled : labelName? first with
      | some name =>
          rw [Line.folded, if_pos (by rw [labelled]; rfl), ofTokens, ofTokens, labelled]
          rfl
      | none =>
          have noLabel := labelName?_lowerCase_eq_none labelled
          rw [Line.folded, if_neg (by rw [labelled]; exact Bool.false_ne_true)]
          by_cases pragma : first.spells "#pragma" = true
          · rw [if_pos pragma]
            simp only [ofTokens, labelled, noLabel, pragma, Token.spells_lowerCase, if_true, folded]
          · rw [if_neg pragma]
            simp only [ofTokens, foldFirst, labelled, noLabel, pragma, Token.spells_lowerCase,
              Token.ofKeyword?_lowerCase, Bool.false_eq_true, if_false]
            split
            · rfl
            · cases VariableType.ofKeyword? first <;> rfl

end Statement

namespace Declarations

variable (found : Declarations)

theorem addGlobal_folded (type : VariableType) (name : Token) :
    addGlobal type found name.folded = addGlobal type found name := by
  by_cases good : isName name = true
  · rw [Token.folded_of_isIdentifier (Bool.and_eq_true_iff.mp good).1]
  · rw [addGlobal_of_not_fresh fun fresh => good fresh.1,
      addGlobal_of_not_fresh fun fresh => good (name.isName_folded ▸ fresh.1)]

/-- A statement in lower case declares what it declared. -/
theorem addStatement_folded (statement : Statement) :
    found.addStatement statement.folded = found.addStatement statement := by
  cases statement with
  | globals type names =>
      rw [Statement.folded, addStatement, addStatement, List.foldl_map]
      simp only [addGlobal_folded]
  | blank => rfl
  | label name rest => rfl
  | pragma arguments => rfl
  | localVariable arguments => rfl
  | instruction mnemonic operands => rfl

end Declarations

namespace Draft

/-- A token that is no name is turned down before it is looked at otherwise. -/
theorem checkName_bind {token : Token} (noIdentifier : Name.isIdentifier token ≠ true)
    (next : Unit → Drafting Unit) : (checkName token >>= next) = throw .malformed := by
  simp only [checkName, noIdentifier, Bool.false_eq_true, if_false]
  rfl

theorem declareGlobal_folded (name : Token) : declareGlobal name.folded = declareGlobal name := by
  by_cases identifier : Name.isIdentifier name = true
  · rw [Token.folded_of_isIdentifier identifier]
  · have folded : Name.isIdentifier name.folded ≠ true := name.isIdentifier_folded ▸ identifier
    exact (checkName_bind folded _).trans (checkName_bind identifier _).symm

theorem declareGlobals_folded (names : List Token) :
    declareGlobals (names.map Token.folded) = declareGlobals names := by
  have forM : (names.map Token.folded).forM declareGlobal = names.forM declareGlobal := by
    induction names with
    | nil => rfl
    | cons name rest ih =>
        rw [List.map_cons, List.forM, List.forM, declareGlobal_folded, ih]
  rw [declareGlobals, declareGlobals, List.isEmpty_map, forM]

theorem declareLocal_folded (arguments : List Token) :
    declareLocal (arguments.map Token.folded) = declareLocal arguments := by
  rcases arguments with _ | ⟨keyword, _ | ⟨name, _ | ⟨more, rest⟩⟩⟩
  · rfl
  · rfl
  · by_cases identifier : Name.isIdentifier name = true
    · simp only [declareLocal, List.map_cons, List.map_nil, Token.ofKeyword?_folded,
        Token.folded_of_isIdentifier identifier]
    · have folded : Name.isIdentifier name.folded ≠ true := name.isIdentifier_folded ▸ identifier
      simp only [declareLocal, List.map_cons, List.map_nil, Token.ofKeyword?_folded,
        checkName_bind identifier, checkName_bind folded]
  · rfl

theorem setSize_folded (set : UInt64 → Draft → Draft) (arguments : List Token) :
    setSize set (arguments.map Token.folded) = setSize set arguments := by
  rcases arguments with _ | ⟨value, _ | ⟨more, rest⟩⟩
  · rfl
  · simp only [setSize, List.map_cons, List.map_nil, Token.size?_folded]
  · rfl

end Draft

end WordMachine.Assembly
