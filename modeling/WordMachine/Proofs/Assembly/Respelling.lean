import Mathlib.Data.List.Forall2
import WordMachine.Proofs.Assembly.Texts

/-!
# Other tokens in a text

The tokens of a text can be exchanged while everything around them stays: separators, comments
and line endings (`Line.respell`, `respell`). If every token is left or exchanged for one of
letters, digits, underscores and colons, the lines that come of it have the new tokens
(`Line.tokens_respell`), and the text is cut into lines where it was (`Source.lines_respell`).
-/

namespace WordMachine.Assembly

/-- Whether a character may stand in a label, its colon included. -/
def Plain (char : Char) : Prop := char.isAlphanum = true ∨ char = '_' ∨ char = ':'

theorem not_plain_of_mem {char : Char} (other : char ∈ [' ', '\t', ',', '/', '\n', '\r']) :
    ¬ Plain char := by
  have checked : ([' ', '\t', ',', '/', '\n', '\r'].all fun char =>
      !(char.isAlphanum || char == '_' || char == ':')) = true := by decide
  have here := List.all_eq_true.mp checked char other
  rw [Bool.not_eq_true', Bool.or_eq_false_iff, Bool.or_eq_false_iff, beq_eq_false_iff_ne,
    beq_eq_false_iff_ne] at here
  rintro (word | line | colon)
  · exact Bool.false_ne_true (here.1.1.symm.trans word)
  · exact here.1.2 line
  · exact here.2 colon

theorem Plain.not_isSeparator {char : Char} (plain : Plain char) :
    Line.isSeparator char = false := by
  rw [← Bool.not_eq_true]
  intro separator
  rw [Line.isSeparator, Bool.or_eq_true, Bool.or_eq_true, beq_iff_eq, beq_iff_eq,
    beq_iff_eq] at separator
  rcases separator with (rfl | rfl) | rfl
  · exact not_plain_of_mem (by decide) plain
  · exact not_plain_of_mem (by decide) plain
  · exact not_plain_of_mem (by decide) plain

theorem plain_of_isName {name : Token} (good : Declarations.isName name = true) :
    name ≠ [] ∧ ∀ char ∈ name, Plain char := by
  rw [Declarations.isName, Bool.and_eq_true, Name.isIdentifier, Bool.and_eq_true,
    Bool.and_eq_true, Name.isWord, Bool.and_eq_true] at good
  obtain ⟨⟨⟨⟨letter, chars⟩, -⟩, -⟩, -⟩ := good
  constructor
  · rintro rfl
    cases letter
  · intro char member
    have isChar := List.all_eq_true.mp chars char member
    rw [Bool.or_eq_true, beq_iff_eq] at isChar
    exact isChar.imp id Or.inl

/-- Whether a token is left, or exchanged for a plain one. -/
def Respells (token respelled : Token) : Prop :=
  respelled = token ∨ respelled ≠ [] ∧ ∀ char ∈ respelled, Plain char

/-- Whether no comment starts inside a text. -/
def Bare (chars : List Char) : Prop :=
  chars.IsChain fun first second => ¬ (first = '/' ∧ second = '/')

/-- Whether one text can stand in place of another: it brings in plain characters only, and no
comment, wherever it stands. -/
structure Alike (old new : List Char) : Prop where
  nonempty : new = [] → old = []
  mem : ∀ char ∈ new, Plain char ∨ char ∈ old
  last : ∀ char, new.getLast? = some char → Plain char ∨ old.getLast? = some char
  bare : ∀ front back, Bare (front ++ old ++ back) → Bare (front ++ new ++ back)

namespace Alike

variable {old new : List Char}

theorem refl (chars : List Char) : Alike chars chars where
  nonempty := id
  mem _ member := Or.inr member
  last _ last := Or.inr last
  bare _ _ bare := bare

theorem append {moreOld moreNew : List Char} (first : Alike old new)
    (second : Alike moreOld moreNew) : Alike (old ++ moreOld) (new ++ moreNew) where
  nonempty := by
    intro empty
    rw [List.append_eq_nil_iff] at empty ⊢
    exact ⟨first.nonempty empty.1, second.nonempty empty.2⟩
  mem := by
    intro char member
    rw [List.mem_append]
    rcases List.mem_append.mp member with inFirst | inSecond
    · exact (first.mem char inFirst).imp id Or.inl
    · exact (second.mem char inSecond).imp id Or.inr
  last := by
    intro char last
    rcases List.eq_nil_or_concat moreNew with none | ⟨front, final, same⟩
    · rw [none, List.append_nil] at last
      rw [second.nonempty none, List.append_nil]
      exact first.last char last
    · rw [List.getLast?_append, same, List.concat_eq_append, List.getLast?_concat,
        Option.some_or, Option.some.injEq] at last
      subst last
      rcases second.last final (by rw [same, List.concat_eq_append, List.getLast?_concat]) with
        plain | oldLast
      · exact Or.inl plain
      · right
        rw [List.getLast?_append, oldLast, Option.some_or]
  bare := by
    intro front back bare
    have firstDone := first.bare front (moreOld ++ back) (by simpa using bare)
    have secondDone := second.bare (front ++ new) back (by simpa using firstDone)
    simpa using secondDone

theorem of_plain (nonempty : new ≠ []) (plain : ∀ char ∈ new, Plain char) : Alike old new where
  nonempty empty := absurd empty nonempty
  mem char member := Or.inl (plain char member)
  last char last := Or.inl (plain char (List.mem_of_getLast? last))
  bare := by
    intro front back bare
    have noSlash {char : Char} (member : char ∈ new) : char ≠ '/' := by
      rintro rfl
      exact not_plain_of_mem (by decide) (plain _ member)
    rw [Bare, List.append_assoc, List.isChain_append, List.isChain_append] at bare ⊢
    refine ⟨bare.1, ⟨?_, bare.2.1.2.1, ?_⟩, ?_⟩
    · exact List.Pairwise.isChain (List.pairwise_iff_forall_sublist.mpr fun sublist both =>
        noSlash (sublist.subset List.mem_cons_self) both.1)
    · intro char last _ _ both
      exact noSlash (List.mem_of_getLast? last) both.1
    · intro _ _ char first both
      obtain ⟨head, rest, rfl⟩ := List.exists_cons_of_ne_nil nonempty
      cases first
      exact noSlash List.mem_cons_self both.2

theorem of_respells {token respelled : Token} (respells : Respells token respelled) :
    Alike token respelled := by
  rcases respells with rfl | ⟨nonempty, plain⟩
  · exact refl respelled
  · exact of_plain nonempty plain

end Alike

namespace Line

/-- Pieces with separators between them. -/
def weave : (pieces : List (List Char)) → (separators : List Char) → List Char
  | [], _ => []
  | piece :: _, [] => piece
  | piece :: rest, separator :: separators => piece ++ separator :: weave rest separators

/-- Pieces with tokens in place of those that are not empty, as long as there are tokens. -/
def refill : (pieces : List (List Char)) → (tokens : List Token) → List (List Char)
  | [], _ => []
  | [] :: rest, tokens => [] :: refill rest tokens
  | piece :: rest, [] => piece :: rest
  | (_ :: _) :: rest, token :: tokens => token :: refill rest tokens

/-- The code of a line: the text in front of its comment and its ending. -/
def code (line : List Char) : List Char := withoutComment (content line)

/-- The line with other tokens. -/
def respell (tokens : List Token) (line : List Char) : List Char :=
  weave (refill ((code line).splitOnP isSeparator) tokens) ((code line).filter isSeparator) ++
    line.drop (code line).length

/-! ## Pieces -/

theorem length_splitOnP (chars : List Char) :
    (chars.splitOnP isSeparator).length = (chars.filter isSeparator).length + 1 := by
  induction chars with
  | nil => rfl
  | cons char rest ih =>
      rw [List.splitOnP_cons_eq_if_modifyHead]
      by_cases separator : isSeparator char = true
      · rw [if_pos separator, List.filter_cons_of_pos separator, List.length_cons, ih,
          List.length_cons]
      · rw [if_neg separator, List.filter_cons_of_neg separator, List.length_modifyHead, ih]

theorem not_isSeparator_of_mem {chars piece : List Char}
    (member : piece ∈ chars.splitOnP isSeparator) : ∀ char ∈ piece, isSeparator char = false := by
  induction chars generalizing piece with
  | nil =>
      rw [List.splitOnP_nil, List.mem_singleton] at member
      rw [member]
      intro char none
      cases none
  | cons char rest ih =>
      obtain ⟨head, others, split⟩ :=
        List.exists_cons_of_ne_nil (List.splitOnP_ne_nil isSeparator rest)
      rw [List.splitOnP_cons_eq_if_modifyHead] at member
      split at member
      · rcases List.mem_cons.mp member with rfl | later
        · intro char none
          cases none
        · exact ih later
      next noSeparator =>
        rw [split, List.modifyHead_cons] at member
        rcases List.mem_cons.mp member with rfl | later
        · intro other inPiece
          rcases List.mem_cons.mp inPiece with rfl | inHead
          · exact Bool.not_eq_true _ ▸ noSeparator
          · exact ih (by rw [split]; exact List.mem_cons_self) other inHead
        · exact ih (by rw [split]; exact List.mem_cons_of_mem _ later)

theorem weave_splitOnP (chars : List Char) :
    weave (chars.splitOnP isSeparator) (chars.filter isSeparator) = chars := by
  induction chars with
  | nil => rfl
  | cons char rest ih =>
      obtain ⟨head, others, split⟩ :=
        List.exists_cons_of_ne_nil (List.splitOnP_ne_nil isSeparator rest)
      rw [List.splitOnP_cons_eq_if_modifyHead]
      by_cases separator : isSeparator char = true
      · rw [if_pos separator, List.filter_cons_of_pos separator, weave, ih, List.nil_append]
      · rw [if_neg separator, List.filter_cons_of_neg separator, split, List.modifyHead_cons]
        rw [split] at ih
        cases separators : rest.filter isSeparator with
        | nil =>
            rw [separators, weave] at ih
            rw [weave, ih]
        | cons first later =>
            rw [separators, weave] at ih
            rw [weave, List.cons_append, ih]

/-- Pieces are found again in what is woven of them. -/
theorem splitOnP_weave {pieces : List (List Char)} {separators : List Char}
    (plain : ∀ piece ∈ pieces, ∀ char ∈ piece, isSeparator char = false)
    (between : ∀ char ∈ separators, isSeparator char = true)
    (length : pieces.length = separators.length + 1) :
    (weave pieces separators).splitOnP isSeparator = pieces := by
  induction separators generalizing pieces with
  | nil =>
      obtain ⟨piece, rfl⟩ := List.length_eq_one_iff.mp length
      exact List.splitOnP_eq_singleton (plain piece List.mem_cons_self)
  | cons separator separators ih =>
      cases pieces with
      | nil => cases length
      | cons piece rest =>
          rw [List.forall_mem_cons] at plain between
          rw [weave, List.splitOnP_append_cons_of_forall_mem plain.1 separator between.1,
            ih plain.2 between.2 (Nat.succ.inj length)]

theorem alike_weave {pieces others : List (List Char)} (alike : List.Forall₂ Alike pieces others)
    (separators : List Char) : Alike (weave pieces separators) (weave others separators) := by
  induction alike generalizing separators with
  | nil => exact .refl []
  | cons here _ ih =>
      cases separators with
      | nil => exact here
      | cons separator separators =>
          exact here.append ((Alike.refl [separator]).append (ih separators))

section

variable {pieces : List (List Char)} {tokens : List Token}

/-- Whether a piece is a token. -/
def isToken (piece : List Char) : Bool := !piece.isEmpty

theorem forall₂_refill (respells : List.Forall₂ Respells (pieces.filter isToken) tokens) :
    List.Forall₂ Respells pieces (refill pieces tokens) := by
  induction pieces generalizing tokens with
  | nil => exact .nil
  | cons piece rest ih =>
      cases piece with
      | nil => exact .cons (Or.inl rfl) (ih respells)
      | cons first others =>
          rw [List.filter_cons_of_pos rfl] at respells
          cases respells with
          | cons here later => exact .cons here (ih later)

theorem filter_refill (respells : List.Forall₂ Respells (pieces.filter isToken) tokens) :
    (refill pieces tokens).filter isToken = tokens := by
  induction pieces generalizing tokens with
  | nil =>
      cases respells
      rfl
  | cons piece rest ih =>
      cases piece with
      | nil => exact ih respells
      | cons first others =>
          rw [List.filter_cons_of_pos rfl] at respells
          cases respells with
          | cons here later =>
              have isToken {token : Token} (here : Respells (first :: others) token) :
                  isToken token = true := by
                rcases here with rfl | ⟨nonempty, -⟩
                · rfl
                · rw [Line.isToken, Bool.not_eq_true', List.isEmpty_eq_false_iff]
                  exact nonempty
              rw [refill, List.filter_cons_of_pos (isToken here), ih later]

end

/-! ## Comments -/

theorem commentStart_eq (before : Nat) (chars : List Char) :
    commentStart before chars = before + commentStart 0 chars := by
  induction chars generalizing before with
  | nil => rfl
  | cons char rest ih =>
      by_cases mark : ∃ later, char = '/' ∧ rest = '/' :: later
      · obtain ⟨later, rfl, rfl⟩ := mark
        rfl
      · have noMark (later : List Char) (slash : char = '/') (more : rest = '/' :: later) : False :=
          mark ⟨later, slash, more⟩
        rw [commentStart, ih, commentStart, ih 1, Nat.add_assoc]
        · exact noMark
        · exact noMark

theorem withoutComment_mark (rest : List Char) : withoutComment ('/' :: '/' :: rest) = [] := rfl

theorem withoutComment_cons {char : Char} {rest : List Char}
    (noMark : ∀ next ∈ rest.head?, ¬ (char = '/' ∧ next = '/')) :
    withoutComment (char :: rest) = char :: withoutComment rest := by
  rw [withoutComment, commentStart, commentStart_eq, Nat.add_comm, List.take_succ_cons,
    withoutComment]
  rintro later rfl rfl
  exact noMark '/' rfl ⟨rfl, rfl⟩

/-- Whether text is a comment, or nothing. -/
def IsComment (chars : List Char) : Prop := chars = [] ∨ ∃ rest, chars = '/' :: '/' :: rest

theorem withoutComment_append_drop (chars : List Char) :
    withoutComment chars ++ chars.drop (withoutComment chars).length = chars := by
  rw [withoutComment, List.length_take]
  rcases Nat.le_total (commentStart 0 chars) chars.length with inside | beyond
  · rw [Nat.min_eq_left inside, List.take_append_drop]
  · rw [Nat.min_eq_right beyond, List.drop_length, List.append_nil, List.take_of_length_le beyond]

theorem head?_append_take (front back : List Char) :
    (front ++ back.take 1).head? = (front ++ back).head? := by
  cases front with
  | nil => cases back <;> rfl
  | cons => rfl

/-- What is cut off from code is a comment, and none starts before it. -/
theorem withoutComment_spec (chars : List Char) :
    IsComment (chars.drop (withoutComment chars).length) ∧
      Bare (withoutComment chars ++ (chars.drop (withoutComment chars).length).take 1) := by
  induction chars with
  | nil => exact ⟨Or.inl rfl, .nil⟩
  | cons char rest ih =>
      by_cases noMark : ∀ next ∈ rest.head?, ¬ (char = '/' ∧ next = '/')
      · rw [withoutComment_cons noMark, List.length_cons, List.drop_succ_cons, List.cons_append,
          Bare, List.isChain_cons, head?_append_take, withoutComment_append_drop]
        exact ⟨ih.1, noMark, ih.2⟩
      · simp only [not_forall, not_not] at noMark
        obtain ⟨next, head, rfl, rfl⟩ := noMark
        obtain ⟨later, rfl⟩ : ∃ later, rest = '/' :: later := by
          cases rest with
          | nil => cases head
          | cons first later =>
              cases head
              exact ⟨later, rfl⟩
        exact ⟨Or.inr ⟨later, rfl⟩, .singleton _⟩

theorem withoutComment_append {chars comment : List Char} (isComment : IsComment comment)
    (bare : Bare (chars ++ comment.take 1)) : withoutComment (chars ++ comment) = chars := by
  induction chars with
  | nil =>
      rcases isComment with rfl | ⟨rest, rfl⟩
      · rfl
      · exact withoutComment_mark rest
  | cons char rest ih =>
      rw [List.cons_append, Bare, List.isChain_cons, head?_append_take] at bare
      rw [List.cons_append, withoutComment_cons bare.1, ih bare.2]

/-! ## Endings -/

theorem content_of_unended {line : List Char} (unended : line.getLast? ≠ some '\n') :
    content line = line := by
  rw [content, if_neg unended]

theorem content_newline {line : List Char} (noReturn : line.getLast? ≠ some '\r') :
    content (line ++ ['\n']) = line := by
  rw [content, if_pos List.getLast?_concat, List.dropLast_concat, if_neg noReturn]

theorem content_return (line : List Char) : content (line ++ ['\r'] ++ ['\n']) = line := by
  rw [content, if_pos List.getLast?_concat, List.dropLast_concat, if_pos List.getLast?_concat,
    List.dropLast_concat]

/-- A line ends in a newline, with or without a carriage return before it, or nowhere. -/
theorem ending_cases (line : List Char) :
    line.getLast? ≠ some '\n' ∨
      (∃ text, line = text ++ ['\n'] ∧ text.getLast? ≠ some '\r') ∨
      ∃ text, line = text ++ ['\r'] ++ ['\n'] := by
  by_cases ended : line.getLast? = some '\n'
  · obtain ⟨front, rfl⟩ := List.getLast?_eq_some_iff.mp ended
    by_cases before : front.getLast? = some '\r'
    · obtain ⟨text, rfl⟩ := List.getLast?_eq_some_iff.mp before
      exact Or.inr (Or.inr ⟨text, rfl⟩)
    · exact Or.inr (Or.inl ⟨front, rfl, before⟩)
  · exact Or.inl ended

theorem content_append_drop (line : List Char) :
    content line ++ line.drop (content line).length = line := by
  rcases ending_cases line with unended | ⟨text, rfl, noReturn⟩ | ⟨text, rfl⟩
  · rw [content_of_unended unended, List.drop_length, List.append_nil]
  · rw [content_newline noReturn, List.drop_left]
  · rw [content_return, List.append_assoc, List.drop_left]

/-- A text that ends as that of a line, or in a plain character, can stand in its place. -/
theorem content_append {line text : List Char}
    (last : ∀ char, text.getLast? = some char →
      Plain char ∨ (content line).getLast? = some char) :
    content (text ++ line.drop (content line).length) = text := by
  have kept {char : Char} (other : char ∈ [' ', '\t', ',', '/', '\n', '\r'])
      (unended : (content line).getLast? ≠ some char) : text.getLast? ≠ some char := by
    intro same
    rcases last char same with plain | lineLast
    · exact not_plain_of_mem other plain
    · exact unended lineLast
  rcases ending_cases line with unended | ⟨old, rfl, noReturn⟩ | ⟨old, rfl⟩
  · rw [content_of_unended unended] at kept ⊢
    rw [List.drop_length, List.append_nil]
    exact content_of_unended (kept (by decide) unended)
  · rw [content_newline noReturn] at kept ⊢
    rw [List.drop_left]
    exact content_newline (kept (by decide) noReturn)
  · have split : text ++ ['\r', '\n'] = text ++ ['\r'] ++ ['\n'] := by simp
    rw [content_return, List.append_assoc, List.drop_left]
    exact (congrArg content split).trans (content_return text)

/-- Where a line has a newline, the newline stands behind its text. -/
theorem getLast?_drop_content {line : List Char} (ended : line.getLast? = some '\n') :
    (line.drop (content line).length).getLast? = some '\n' := by
  rcases ending_cases line with unended | ⟨text, rfl, noReturn⟩ | ⟨text, rfl⟩
  · exact absurd ended unended
  · rw [content_newline noReturn, List.drop_left]
    rfl
  · rw [content_return, List.append_assoc, List.drop_left]
    rfl

/-! ## Lines -/

/-- What stands behind the code of a line: its comment and its ending. -/
theorem drop_code (line : List Char) :
    line.drop (code line).length =
      (content line).drop (code line).length ++ line.drop (content line).length := by
  have short : (code line).length ≤ (content line).length := by
    rw [code, withoutComment, List.length_take]
    exact Nat.min_le_right _ _
  have behind : (content line ++ line.drop (content line).length).drop (code line).length =
      (content line).drop (code line).length ++ line.drop (content line).length :=
    List.drop_append_of_le_length short
  rwa [content_append_drop] at behind

section

variable {line other : List Char}

/-- The text of a line with other code in place of its own. -/
theorem content_of_alike (alike : Alike (code line) other) :
    content (other ++ line.drop (code line).length) =
      other ++ (content line).drop (code line).length := by
  rw [drop_code, ← List.append_assoc]
  apply content_append
  have whole : Alike (content line) (other ++ (content line).drop (code line).length) := by
    have inFront := alike.append (.refl ((content line).drop (code line).length))
    rwa [code, withoutComment_append_drop, ← code] at inFront
  exact whole.last

theorem code_of_alike (alike : Alike (code line) other) :
    code (other ++ line.drop (code line).length) = other := by
  obtain ⟨isComment, bare⟩ := withoutComment_spec (content line)
  rw [code, content_of_alike alike]
  exact withoutComment_append isComment (alike.bare [] _ bare)

theorem code_append_drop (line : List Char) :
    code line ++ line.drop (code line).length = line := by
  rw [drop_code, ← List.append_assoc, code, withoutComment_append_drop, content_append_drop]

/-- Lines with other code are cut as they were. -/
theorem cutBehind_of_alike {lines : List (List Char)} {change : List Char → List Char}
    (lined : CutBehind '\n' lines) (alike : ∀ line, Alike (code line) (change line)) :
    CutBehind '\n' (lines.map fun line => change line ++ line.drop (code line).length) := by
  have ended {line : List Char} (last : line.getLast? = some '\n') :
      (line.drop (code line).length).getLast? = some '\n' := by
    rw [drop_code, List.getLast?_append, getLast?_drop_content last, Option.some_or]
  apply lined.map
  · intro line member empty
    rw [List.append_eq_nil_iff] at empty
    have none : code line ++ line.drop (code line).length = [] := by
      rw [empty.2, List.append_nil]
      exact (alike line).nonempty empty.1
    rw [code_append_drop] at none
    rw [none] at member
    exact lined.nonempty member
  · intro line member inner
    have noNewline := lined.inner line member
    have inCode (inChange : '\n' ∈ change line) : '\n' ∈ code line :=
      ((alike line).mem _ inChange).resolve_left (not_plain_of_mem (by decide))
    by_cases bare : line.drop (code line).length = []
    · -- Such a line has no newline, or one would stand behind its code.
      rw [bare, List.append_nil] at inner
      have inLine : '\n' ∈ line := by
        rw [← code_append_drop line]
        exact List.mem_append_left _ (inCode (List.dropLast_subset _ inner))
      have last : line.getLast? = some '\n' := by
        rcases List.eq_nil_or_concat line with rfl | ⟨front, final, rfl⟩
        · cases inLine
        · rw [List.concat_eq_append, List.dropLast_concat] at noNewline
          rw [List.concat_eq_append, List.mem_append, List.mem_singleton] at inLine
          rw [List.concat_eq_append, List.getLast?_concat, inLine.resolve_left noNewline]
      have behind := ended last
      rw [bare] at behind
      cases behind
    · rw [List.dropLast_append_of_ne_nil bare, List.mem_append] at inner
      rw [← code_append_drop line, List.dropLast_append_of_ne_nil bare,
        List.mem_append] at noNewline
      exact noNewline (inner.imp_left inCode)
  · intro line _ last
    rw [List.getLast?_append, ended last, Option.some_or]

/-! ## Tokens -/

theorem tokens_content (line : List Char) :
    tokens (content line) = ((code line).splitOnP isSeparator).filter isToken := rfl

section

variable {others : List Token}

/-- Tokens that are left or exchanged for plain ones have no separators if they had none. -/
theorem not_isSeparator_of_respells {pieces : List (List Char)}
    (respells : List.Forall₂ Respells pieces others)
    (unseparated : ∀ piece ∈ pieces, ∀ char ∈ piece, isSeparator char = false) :
    ∀ piece ∈ others, ∀ char ∈ piece, isSeparator char = false := by
  induction respells with
  | nil => exact unseparated
  | cons here _ ih =>
      rw [List.forall_mem_cons] at unseparated ⊢
      refine ⟨?_, ih unseparated.2⟩
      rcases here with rfl | ⟨-, plain⟩
      · exact unseparated.1
      · exact fun char member => (plain char member).not_isSeparator

theorem alike_refill (respells : List.Forall₂ Respells (tokens (content line)) others) :
    Alike (code line) (weave (refill ((code line).splitOnP isSeparator) others)
      ((code line).filter isSeparator)) := by
  have refilled : List.Forall₂ Respells ((code line).splitOnP isSeparator)
      (refill ((code line).splitOnP isSeparator) others) := forall₂_refill respells
  have woven := alike_weave (refilled.imp fun _ _ => Alike.of_respells)
    ((code line).filter isSeparator)
  rwa [weave_splitOnP] at woven

/-- A line that is spelled with other tokens has these. -/
theorem tokens_respell (respells : List.Forall₂ Respells (tokens (content line)) others) :
    tokens (content (respell others line)) = others := by
  have refilled : List.Forall₂ Respells ((code line).splitOnP isSeparator)
      (refill ((code line).splitOnP isSeparator) others) := forall₂_refill respells
  have noSeparator := not_isSeparator_of_respells refilled fun _ member =>
    not_isSeparator_of_mem member
  have between : ∀ char ∈ (code line).filter isSeparator, isSeparator char = true :=
    fun char member => (List.mem_filter.mp member).2
  have length := length_splitOnP (code line)
  rw [refilled.length_eq] at length
  rw [tokens_content, respell, code_of_alike (alike_refill respells),
    splitOnP_weave noSeparator between length]
  exact filter_refill respells

end

end

end Line

/-- The text with other tokens in every line. -/
def respell (change : List Token → List Token) (text : String) : String :=
  String.ofList ((Line.cut text.toList).flatMap fun line =>
    Line.respell (change (Line.tokens (Line.content line))) line)

variable {change : List Token → List Token}

/-- A text with other tokens is cut into lines where it was. -/
theorem Source.lines_respell (respells : ∀ tokens, List.Forall₂ Respells tokens (change tokens))
    (text : String) :
    (ofString (respell change text)).lines = (Line.cut text.toList).map fun line =>
      Line.bytes (Line.respell (change (Line.tokens (Line.content line))) line) := by
  have lined := Line.cutBehind_of_alike (cutBehind_splitBy text.toList)
    fun line => Line.alike_refill (respells (Line.tokens (Line.content line)))
  have found := Source.lines_ofLines lined
  rw [List.map_map] at found
  exact found

/-- The statements of a text with other tokens are those of its tokens. -/
theorem Source.statements_respell {text : String} {recast : Statement → Statement}
    {statements : List Statement}
    (respells : ∀ tokens, List.Forall₂ Respells tokens (change tokens))
    (recasts : ∀ tokens, Statement.ofTokens (change tokens) = recast (.ofTokens tokens))
    (onLines : (ofString text).lines.map statement? = statements.map some) :
    (ofString (respell change text)).lines.map statement? =
      (statements.map recast).map some := by
  have each (line : List Char) :
      statement? (Line.bytes (Line.respell (change (Line.tokens (Line.content line))) line)) =
        (statement? (Line.bytes line)).map recast := by
    have here := respells (Line.tokens (Line.content line))
    rw [statement?_bytes, statement?_bytes, Statement.ofText?, Statement.ofText?, Line.tokens?,
      Line.tokens?, Line.tokens_respell here, ← here.length_eq]
    by_cases few : (Line.tokens (Line.content line)).length ≤ Token.maxPerLine
    · simp only [if_pos few, Option.map_some, recasts]
    · simp only [if_neg few, Option.map_none]
  have recasted := congrArg (List.map (Option.map recast)) onLines
  rw [lines_ofString, List.map_map, List.map_map, List.map_map] at recasted
  rw [lines_respell respells, List.map_map, List.map_map]
  exact (List.map_congr_left fun line _ => each line).trans recasted

end WordMachine.Assembly
