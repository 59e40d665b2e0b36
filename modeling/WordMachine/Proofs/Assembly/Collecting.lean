import WordMachine.Proofs.Assembly.Statements

/-!
# What the first reading collects

Of a text the first reading keeps the good names that are declared, each where it is declared
first: labels with the numbers of their lines, globals with their types and one behind the other
from the first address on (`Declarations.Collects`). A line adds to the tables what it declares
and no name twice (`Declarations.Collects.addTokens`), so in the end the tables are those of the
whole text (`Declarations.collects_ofStatements`), whatever the assembler did before
(`Assembler.prescan_collects`).
-/

namespace WordMachine

namespace Assembly

section

variable {α κ : Type} [DecidableEq κ] {key : α → κ}

/-- The first entry of each key, in order. -/
def firsts (key : α → κ) : List α → List α
  | [] => []
  | entry :: rest => entry :: (firsts key rest).filter fun other => key other ≠ key entry

/-- One entry more is a first one if no other has its key. -/
theorem firsts_concat (entries : List α) (last : α) :
    firsts key (entries ++ [last]) =
      firsts key entries ++ if key last ∈ entries.map key then [] else [last] := by
  induction entries with
  | nil => rfl
  | cons entry rest ih =>
      rw [List.cons_append, firsts, ih, firsts, List.filter_append, List.map_cons, List.cons_append]
      by_cases later : key last ∈ rest.map key
      · rw [if_pos later, if_pos (List.mem_cons_of_mem _ later), List.filter_nil]
      · by_cases same : key last = key entry
        · simp [same]
        · simp [later, same]

theorem mem_map_firsts_iff {entries : List α} {wanted : κ} :
    wanted ∈ (firsts key entries).map key ↔ wanted ∈ entries.map key := by
  induction entries using List.reverseRecOn with
  | nil => exact Iff.rfl
  | append_singleton entries last ih =>
      rw [firsts_concat, List.map_append, List.map_append, List.mem_append, List.mem_append, ih]
      by_cases old : key last ∈ entries.map key
      · rw [if_pos old, List.map_nil, List.map_singleton, List.mem_singleton]
        constructor
        · rintro (earlier | none)
          · exact Or.inl earlier
          · cases none
        · rintro (earlier | rfl)
          · exact Or.inl earlier
          · exact Or.inl old
      · rw [if_neg old]

end

/-! ## Names -/

/-- What can name something: a letter, then letters, digits or underscores, at most 32 bytes in
all, and neither the keyword of a type nor a register, in upper or in lower case. -/
structure GoodName (name : Token) : Prop where
  letter : ∃ char ∈ name.head?, char.isAlpha = true
  word : ∀ char ∈ name, char.isAlphanum = true ∨ char = '_'
  noKeyword : ∀ keyword ∈ ["byte", "int16", "uint16"], name.spells keyword = false
  noRegister : ∀ front digits : List Char, name = front ++ digits →
    Token.spells front "reg" = true → digits = [] ∨ ∃ char ∈ digits, char.isDigit = false
  short : (Line.bytes name).length ≤ 32

/-- Characters of ASCII take up a byte each. -/
theorem length_bytes_of_ascii {chars : List Char} (ascii : ∀ char ∈ chars, char.toNat < 128) :
    (Line.bytes chars).length = chars.length := by
  induction chars with
  | nil => rfl
  | cons char rest ih =>
      rw [List.forall_mem_cons] at ascii
      rw [Line.bytes, List.flatMap_cons, Line.utf8EncodeChar_of_ascii ascii.1, ← Line.bytes,
        List.length_append, ih ascii.2, List.length_singleton, List.length_cons, Nat.add_comm]

theorem ofKeyword?_isNone_iff {token : Token} :
    (VariableType.ofKeyword? token).isNone = true ↔
      ∀ keyword ∈ ["byte", "int16", "uint16"], token.spells keyword = false := by
  simp only [List.forall_mem_cons, VariableType.ofKeyword?]
  cases token.spells "byte" <;> cases token.spells "int16" <;> cases token.spells "uint16" <;> simp

theorem isRegister_eq_false_iff {token : Token} :
    Name.isRegister token = false ↔ ∀ front digits : List Char, token = front ++ digits →
      Token.spells front "reg" = true → digits = [] ∨ ∃ char ∈ digits, char.isDigit = false := by
  have cut {front : List Char} (spelled : Token.spells front "reg" = true) : front.length = 3 := by
    have same := congrArg List.length (beq_iff_eq.mp spelled)
    rwa [Token.lowerCase, List.length_map] at same
  rw [Name.isRegister, Name.hasRegisterPrefix, ← Bool.not_eq_true]
  simp only [Bool.and_eq_true, Bool.not_eq_true', List.isEmpty_eq_false_iff, List.all_eq_true]
  constructor
  · rintro noRegister front digits rfl spelled
    rw [← cut spelled, List.take_left, List.drop_left] at noRegister
    by_contra isRegister
    simp only [not_or, not_exists, not_and, Bool.not_eq_false] at isRegister
    exact noRegister ⟨⟨spelled, isRegister.1⟩, isRegister.2⟩
  · rintro noRegister ⟨⟨spelled, nonempty⟩, digits⟩
    rcases noRegister _ _ (List.take_append_drop 3 token).symm spelled with
      none | ⟨char, member, other⟩
    · exact nonempty none
    · rw [digits char member] at other
      cases other

/-- The first reading keeps good names. -/
theorem isName_iff {name : Token} : Declarations.isName name = true ↔ GoodName name := by
  rw [Declarations.isName, Bool.and_eq_true, Name.isIdentifier, Bool.and_eq_true,
    Bool.and_eq_true, Name.isWord, Bool.and_eq_true, Option.any_eq_true, List.all_eq_true,
    ofKeyword?_isNone_iff, Bool.not_eq_true', isRegister_eq_false_iff, decide_eq_true_eq]
  simp only [Bool.or_eq_true, beq_iff_eq]
  constructor
  · rintro ⟨⟨⟨⟨letter, word⟩, noKeyword⟩, noRegister⟩, short⟩
    refine ⟨letter, word, noKeyword, noRegister, ?_⟩
    rwa [length_bytes_of_ascii fun char member => isAscii_of_word (word char member)]
  · rintro ⟨letter, word, noKeyword, noRegister, short⟩
    refine ⟨⟨⟨⟨letter, word⟩, noKeyword⟩, noRegister⟩, ?_⟩
    rwa [length_bytes_of_ascii fun char member => isAscii_of_word (word char member)] at short

instance (name : Token) : Decidable (GoodName name) := decidable_of_iff _ isName_iff

/-! ## Declarations of a text -/

namespace Line

/-- The name that the tokens of a line declare as a label, if it is a good one: what stands in
front of the colon of the first of them. -/
def label? (tokens : List Token) : Option Token :=
  (tokens.head?.bind Statement.labelName?).filter fun name => decide (GoodName name)

/-- The good names behind the keyword of a type, which comes first on its line. -/
def globals : List Token → List (Token × VariableType)
  | [] => []
  | first :: names =>
    match VariableType.ofKeyword? first with
    | none => []
    | some type => (names.filter fun name => decide (GoodName name)).map fun name => (name, type)

end Line

namespace Text

/-- The tokens on each line of a text; none where there are more than sixteen. -/
def tokens (text : String) : List (List Token) :=
  (Line.cut text.toList).map fun line => (Line.tokens? (Line.content line)).getD []

/-- The labels that lines declare, with the numbers of these, which are exact as far as there are
numbers (`LineNumber.toNat_nth`). -/
def labelsOn (lines : List (List Token)) : List (Token × LineNumber) :=
  (lines.zipIdx 1).flatMap fun (tokens, count) =>
    (Line.label? tokens).toList.map fun name => (name, .nth count)

/-- The labels of a text, each with the line that declares it first. -/
def labels (text : String) : List (Token × LineNumber) := firsts Prod.fst (labelsOn (tokens text))

/-- The globals of a text, each with the type that it is declared with first. -/
def globals (text : String) : List (Token × VariableType) :=
  firsts Prod.fst ((tokens text).flatMap Line.globals)

end Text

/-- The bytes that globals take up. -/
def sizes (globals : List (Token × VariableType)) : Nat :=
  (globals.map fun global => global.2.size).sum

/-- Whether globals that lie one behind the other all begin where a word can point to. -/
def InReach (globals : List (Token × VariableType)) : Prop :=
  ∀ index < globals.length, 8 + sizes (globals.take index) < 0x10000

instance (globals : List (Token × VariableType)) : Decidable (InReach globals) :=
  inferInstanceAs (Decidable (∀ index < globals.length, _))

theorem InReach.front {globals : List (Token × VariableType)} {last : Token × VariableType}
    (inReach : InReach (globals ++ [last])) :
    InReach globals ∧ 8 + sizes globals < 0x10000 := by
  constructor
  · intro index inside
    have reached := inReach index (by rw [List.length_append]; omega)
    rwa [List.take_append_of_le_length (Nat.le_of_lt inside)] at reached
  · have inside : globals.length < (globals ++ [last]).length := by
      rw [List.length_append, List.length_singleton]
      omega
    have reached := inReach globals.length inside
    rwa [List.take_left] at reached

/-- The keyword of a type comes first on no line of another kind. -/
theorem ofTokens_of_keyword {first : Token} {type : VariableType}
    (keyword : VariableType.ofKeyword? first = some type) (names : List Token) :
    Statement.ofTokens (first :: names) = .globals type names := by
  have spelled : first.spells "byte" = true ∨ first.spells "int16" = true ∨
      first.spells "uint16" = true := by
    by_contra other
    simp only [not_or, Bool.not_eq_true] at other
    rw [VariableType.ofKeyword?, other.1, other.2.1, other.2.2] at keyword
    cases keyword
  have noLabel : Statement.labelName? first = none := by
    rw [Statement.labelName?, if_neg]
    intro colon
    have last (word : String) (isWord : first.spells word = true) :
        word.toList.getLast? = some ':' := by
      rw [← beq_iff_eq.mp isWord, Token.lowerCase, List.getLast?_map, colon]
      rfl
    rcases spelled with isWord | isWord | isWord
    · exact absurd (last _ isWord) (by decide)
    · exact absurd (last _ isWord) (by decide)
    · exact absurd (last _ isWord) (by decide)
  have other (word : String) (noKeyword : word ∉ ["byte", "int16", "uint16"]) :
      first.spells word = false := by
    rw [← Bool.not_eq_true]
    intro isWord
    simp only [List.mem_cons, List.not_mem_nil, or_false, not_or] at noKeyword
    rcases spelled with spelled | spelled | spelled
    · exact noKeyword.1 (Draft.eq_of_spells isWord spelled)
    · exact noKeyword.2.1 (Draft.eq_of_spells isWord spelled)
    · exact noKeyword.2.2 (Draft.eq_of_spells isWord spelled)
  rw [Statement.ofTokens, noLabel]
  simp only [other "#pragma" (by decide), other "local" (by decide), Bool.false_eq_true, if_false,
    keyword]

namespace Declarations

variable {found : Declarations} {labels : List (Token × LineNumber)}
  {globals : List (Token × VariableType)}

theorem line_addStatement (found : Declarations) (statement : Statement) :
    (found.addStatement statement).line = found.line := by
  cases statement with
  | label name rest =>
      rw [addStatement, addLabel]
      split
      · rfl
      · rfl
  | globals type names => exact (line_foldl_addGlobal type names found).1
  | blank => rfl
  | pragma arguments => rfl
  | localVariable arguments => rfl
  | instruction mnemonic operands => rfl

theorem line_ofStatements (statements : List Statement) :
    (ofStatements statements).line = .nth statements.length := by
  induction statements using List.reverseRecOn with
  | nil => rfl
  | append_singleton front last ih =>
      rw [ofStatements_concat, line_addStatement, nextLine, ih, List.length_append,
        List.length_singleton, LineNumber.nth_succ]

/-- The tables have the first of the labels and of the globals, and an address is left as long as
one behind all globals is a word. -/
structure Collects (labels : List (Token × LineNumber)) (globals : List (Token × VariableType))
    (found : Declarations) : Prop where
  tidy : found.Tidy
  labels : found.labels.toList = (firsts Prod.fst labels).map fun site => ⟨site.1, site.2, none⟩
  globals : InReach (firsts Prod.fst globals) → found.globalTypes = firsts Prod.fst globals
  room : found.endOfGlobals < 0x10000 → found.nextAddress.isSome

theorem collects_empty : Collects [] [] empty where
  tidy := tidy_empty
  labels := rfl
  globals := fun _ => rfl
  room := fun _ => rfl

namespace Collects

theorem nextLine (collects : Collects labels globals found) :
    Collects labels globals found.nextLine where
  tidy := { collects.tidy with }
  labels := collects.labels
  globals := collects.globals
  room := collects.room

theorem mem_labelNames_iff (collects : Collects labels globals found) {name : Token} :
    name ∈ found.labelNames ↔ name ∈ labels.map Prod.fst := by
  rw [labelNames, collects.labels, List.map_map]
  exact mem_map_firsts_iff

/-- A label of a good name is added unless there is one already. -/
theorem addLabel (collects : Collects labels globals found) {name : Token}
    (good : isName name = true) :
    Collects (labels ++ [(name, found.line)]) globals (found.addLabel name) := by
  by_cases old : name ∈ found.labelNames
  · rw [addLabel_of_not_fresh fun fresh => fresh.2 old]
    refine { collects with labels := ?_ }
    rw [firsts_concat, if_pos (collects.mem_labelNames_iff.mp old), List.append_nil]
    exact collects.labels
  · have tidy := tidy_addLabel collects.tidy name
    rw [addLabel_of_fresh good old] at tidy ⊢
    refine { collects with tidy, labels := ?_ }
    rw [firsts_concat, if_neg (mt collects.mem_labelNames_iff.mpr old), List.map_append,
      ← collects.labels]
    exact Array.toList_push

/-- A global of a good name is added unless there is one already, if it is in reach. -/
theorem addGlobal (collects : Collects labels globals found) (type : VariableType) {name : Token}
    (good : isName name = true) :
    Collects labels (globals ++ [(name, type)]) (addGlobal type found name) := by
  have tidy := tidy_addGlobal collects.tidy type name
  have mem_iff (inReach : InReach (firsts Prod.fst globals)) :
      name ∈ found.globalNames ↔ name ∈ globals.map Prod.fst := by
    rw [← mem_map_firsts_iff, ← collects.globals inReach, globalTypes, List.map_map]
    rfl
  have lengthened (new : name ∉ globals.map Prod.fst)
      (inReach : InReach (firsts Prod.fst (globals ++ [(name, type)]))) :
      InReach (firsts Prod.fst globals) ∧ found.nextAddress.isSome := by
    rw [firsts_concat, if_neg new] at inReach
    obtain ⟨front, reached⟩ := inReach.front
    refine ⟨front, collects.room ?_⟩
    rw [endOfGlobals, collects.globals front]
    exact reached
  by_cases fresh : isName name = true ∧ name ∉ found.globalNames ∧ found.nextAddress.isSome
  · obtain ⟨-, new, some⟩ := fresh
    obtain ⟨address, next⟩ := Option.isSome_iff_exists.mp some
    rw [addGlobal_of_fresh good new next] at tidy ⊢
    refine { collects with tidy, globals := ?_, room := ?_ }
    · intro inReach
      by_cases old : name ∈ globals.map Prod.fst
      · rw [firsts_concat, if_pos old, List.append_nil] at inReach
        exact absurd ((mem_iff inReach).mpr old) new
      · rw [globalTypes_pushGlobal, collects.globals (lengthened old inReach).1, firsts_concat,
          if_neg old]
    · intro below
      rw [endOfGlobals, globalTypes_pushGlobal, List.map_append, List.sum_append, ← Nat.add_assoc,
        ← endOfGlobals, ← collects.tidy.next address next] at below
      have isWord : address.toNat + type.size < 0x10000 := below
      rw [pushGlobal, addressAfter?, if_pos isWord]
      rfl
  · rw [addGlobal_of_not_fresh fresh] at tidy ⊢
    refine { collects with globals := ?_ }
    intro inReach
    by_cases old : name ∈ globals.map Prod.fst
    · rw [firsts_concat, if_pos old, List.append_nil] at inReach ⊢
      exact collects.globals inReach
    · obtain ⟨front, some⟩ := lengthened old inReach
      exact absurd ⟨good, mt (mem_iff front).mp old, some⟩ fresh

/-- Of the names behind the keyword of a type the good ones are added. -/
theorem addGlobals (collects : Collects labels globals found) (type : VariableType)
    (names : List Token) :
    Collects labels
      (globals ++ (names.filter fun name => decide (GoodName name)).map fun name => (name, type))
      (names.foldl (Declarations.addGlobal type) found) := by
  induction names generalizing globals found with
  | nil =>
      rw [List.filter_nil, List.map_nil, List.append_nil]
      exact collects
  | cons name rest ih =>
      rw [List.foldl_cons]
      by_cases good : GoodName name
      · rw [List.filter_cons, if_pos (decide_eq_true good), List.map_cons, List.append_cons]
        exact ih (collects.addGlobal type (isName_iff.mpr good))
      · rw [List.filter_cons, if_neg (mt of_decide_eq_true good),
          addGlobal_of_not_fresh fun fresh => good (isName_iff.mp fresh.1)]
        exact ih collects

/-- One line more adds its label and its globals. -/
theorem addTokens (collects : Collects labels globals found) (tokens : List Token) :
    Collects (labels ++ (Line.label? tokens).toList.map fun name => (name, found.line))
      (globals ++ Line.globals tokens) (found.addStatement (.ofTokens tokens)) := by
  have nothing (noLabel : Line.label? tokens = none) (noGlobals : Line.globals tokens = [])
      (same : found.addStatement (.ofTokens tokens) = found) :
      Collects (labels ++ (Line.label? tokens).toList.map fun name => (name, found.line))
        (globals ++ Line.globals tokens) (found.addStatement (.ofTokens tokens)) := by
    rw [noLabel, noGlobals, same, Option.toList_none, List.map_nil, List.append_nil,
      List.append_nil]
    exact collects
  cases tokens with
  | nil => exact nothing rfl rfl rfl
  | cons first rest =>
      cases keyword : VariableType.ofKeyword? first with
      | some type =>
          have globalLine := ofTokens_of_keyword keyword rest
          have noLabel : Line.label? (first :: rest) = none := by
            rw [Line.label?, List.head?_cons, Option.bind_some]
            cases labelled : Statement.labelName? first with
            | none => rfl
            | some name =>
                rw [Statement.ofTokens, labelled] at globalLine
                cases globalLine
          rw [noLabel, Option.toList_none, List.map_nil, List.append_nil, globalLine, addStatement,
            Line.globals, keyword]
          exact collects.addGlobals type rest
      | none =>
          have noGlobals : Line.globals (first :: rest) = [] := by
            rw [Line.globals, keyword]
          cases labelled : Statement.labelName? first with
          | some name =>
              have labelLine : Statement.ofTokens (first :: rest) = .label name rest := by
                rw [Statement.ofTokens, labelled]
              rw [Line.label?, List.head?_cons, Option.bind_some, labelled, noGlobals,
                List.append_nil, labelLine, addStatement]
              by_cases good : GoodName name
              · rw [Option.filter_some, if_pos (decide_eq_true good)]
                exact collects.addLabel (isName_iff.mpr good)
              · rw [Option.filter_some, if_neg (mt of_decide_eq_true good),
                  addLabel_of_not_fresh fun fresh => good (isName_iff.mp fresh.1),
                  Option.toList_none, List.map_nil, List.append_nil]
                exact collects
          | none =>
              refine nothing ?_ noGlobals ?_
              · rw [Line.label?, List.head?_cons, Option.bind_some, labelled]
                rfl
              · rw [Statement.ofTokens, labelled]
                simp only [keyword]
                split
                · rfl
                · split
                  · rfl
                  · rfl

end Collects

/-- The lines of a text add what they declare, one behind the other. -/
theorem collects_ofStatements (lines : List (List Token)) :
    Collects (Text.labelsOn lines) (lines.flatMap Line.globals)
      (ofStatements (lines.map Statement.ofTokens)) := by
  induction lines using List.reverseRecOn with
  | nil => exact collects_empty
  | append_singleton front last ih =>
      have line : (ofStatements (front.map Statement.ofTokens)).nextLine.line =
          .nth (1 + front.length) := by
        rw [Declarations.nextLine, line_ofStatements, List.length_map, LineNumber.nth_succ,
          Nat.add_comm]
      have onNext := ih.nextLine.addTokens last
      rw [line] at onNext
      rw [Text.labelsOn, List.zipIdx_append, List.flatMap_append, ← Text.labelsOn,
        List.zipIdx_singleton, List.flatMap_singleton, List.flatMap_append,
        List.flatMap_singleton, List.map_append, List.map_singleton, ofStatements_concat]
      exact onNext

theorem ofTexts_eq (texts : List (List Char)) :
    ofTexts texts = ofStatements
      ((texts.map fun text => (Line.tokens? text).getD []).map Statement.ofTokens) := by
  induction texts using List.reverseRecOn with
  | nil => rfl
  | append_singleton front last ih =>
      rw [ofTexts, List.foldl_concat, ← ofTexts, ih, List.map_append, List.map_append,
        List.map_singleton, List.map_singleton, ofStatements_concat, addLine]
      cases Line.tokens? last <;> rfl

end Declarations

namespace Source

theorem texts_ofString (text : String) :
    (ofString text).texts = (Line.cut text.toList).map Line.content := by
  rw [texts, lines_ofString, List.filterMap_map, ← List.filterMap_eq_map]
  exact List.filterMap_congr fun line _ => Line.text?_bytes line

/-- Bytes behind which a text stands have its lines. -/
theorem lines_ofBytes {content : List UInt8} {start : Nat} {text : String}
    (behind : content.drop start = text.toUTF8.data.toList) :
    (ofBytes content start).lines = (ofString text).lines :=
  congrArg Line.split behind

end Source

end Assembly

open Assembly

namespace Assembler

/-- The first reading of bytes that are a text from the start on, whose globals are in reach,
collects the first declarations of good names and changes nothing else. -/
theorem prescan_collects (assembler : Assembler) {content : List UInt8} {start : Nat}
    {text : String} (behind : content.drop start = text.toUTF8.data.toList)
    (inReach : InReach (Text.globals text)) :
    ∃ left, assembler.prescan (.ofBytes content start) = (none, .ofBytes content start, left) ∧
      left.labels.toList = (Text.labels text).map (fun site => ⟨site.1, site.2, none⟩) ∧
      (left.globals.toList.map fun global => (global.name, global.type)) = Text.globals text ∧
      (∀ index global, left.globals[index]? = some global →
        global.address.toNat = 8 + sizes ((Text.globals text).take index) ∧
          global.declared = false) ∧
      left = { assembler with labels := left.labels, globals := left.globals } ∧
      left.prescan (.ofBytes content start) = (none, .ofBytes content start, left) := by
  have lines := Source.lines_ofBytes behind
  have readable : (Source.ofBytes content start).Readable := by
    rw [Source.Readable, lines]
    exact Source.readable_ofString text
  have scanned := Declarations.scan_of_readable rfl rfl rfl readable
  have tokens : ((Source.ofBytes content start).texts.map fun text =>
      (Line.tokens? text).getD []) = Text.tokens text := by
    rw [Source.texts, lines, ← Source.texts, Source.texts_ofString, List.map_map]
    rfl
  rw [Declarations.ofTexts_eq, tokens] at scanned
  have collects := Declarations.collects_ofStatements (Text.tokens text)
  have globals := collects.globals inReach
  generalize Declarations.ofStatements ((Text.tokens text).map Statement.ofTokens) = found
    at collects globals scanned
  have prescanned (anyone : Assembler) : anyone.prescan (.ofBytes content start) =
      (none, .ofBytes content start,
        { anyone with labels := found.labels, globals := found.globals }) := by
    rw [prescan, scanned]
    rfl
  refine ⟨_, prescanned assembler, collects.labels, globals, ?_, rfl, prescanned _⟩
  intro index global entry
  constructor
  · have range : (found.globals.toList.map fun global =>
        (global.address.toNat, global.type.size))[index]? =
          some (global.address.toNat, global.type.size) := by
      rw [List.getElem?_map, Array.getElem?_toList, entry]
      rfl
    have table : Text.globals text = found.globalTypes := globals.symm
    rw [collects.tidy.contiguous.place_eq range, table, sizes, Declarations.globalTypes,
      ← List.map_take, ← List.map_take, List.map_map, List.map_map]
    rfl
  · exact collects.tidy.undeclared global (Array.mem_toList_iff.mpr (Array.mem_of_getElem? entry))

/-- Names that are declared twice, or are no good. -/
def scattered : String :=
  "a: // b:\nBYTE b, reg1 2c\ta // d\r\n\nint16 b c\na: nop\n\tint16: b: local byte d\nc:"

theorem prescan_collects_scattered :
    ∃ left, empty.prescan (.ofBytes (0xFF :: scattered.toUTF8.data.toList) 1) =
        (none, .ofBytes (0xFF :: scattered.toUTF8.data.toList) 1, left) ∧
      left.labels.toList = [⟨['a'], 1, none⟩, ⟨['c'], 7, none⟩] ∧
      (left.globals.toList.map fun global => (global.name, global.type)) =
        [(['b'], .byte), (['a'], .byte), (['c'], .int16)] ∧
      ∀ global, left.globals[2]? = some global → global.address.toNat = 10 := by
  have inReach : InReach (Text.globals scattered) := by
    decide +kernel
  have labels : Text.labels scattered = [(['a'], 1), (['c'], 7)] := by
    decide +kernel
  have globals : Text.globals scattered =
      [(['b'], .byte), (['a'], .byte), (['c'], .int16)] := by
    decide +kernel
  have behind : (0xFF :: scattered.toUTF8.data.toList).drop 1 = scattered.toUTF8.data.toList := rfl
  obtain ⟨left, prescanned, foundLabels, foundGlobals, places, -⟩ :=
    empty.prescan_collects behind inReach
  rw [labels] at foundLabels
  rw [globals] at foundGlobals places
  exact ⟨left, prescanned, foundLabels, foundGlobals, fun global entry => (places 2 global entry).1⟩

end Assembler

end WordMachine
