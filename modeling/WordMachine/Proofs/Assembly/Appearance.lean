import WordMachine.Proofs.Agreement
import WordMachine.Proofs.Assembly.Folding

/-!
# What a text looks like

Nothing of a text matters but the tokens of its lines, and in most tokens neither upper nor lower
case does (`Assembler.assemble_eq_of_folded`). There are four reasons. A line is cut into the tokens
that it shows, however it is laid out (`Line.shows_iff`). It does and declares in lower case what it
does and declares as it is, for its parts mean the same. Without tokens it does nothing. And its
number shows in nothing but errors: two drafts that differ in the numbers of lines (`Draft.Alike`)
stay so whatever is added to both, turn down the same for the same cause, and come to the same
image.
-/

namespace WordMachine

namespace Assembly

/-- The label without the number of its line. -/
def Label.unnumbered (label : Label) : Label := { label with line := 0 }

namespace Draft

/-- Whether two drafts differ in nothing but the numbers of lines, and in the pragmas that were
passed over, and have good names only. -/
structure Alike (one other : Draft) : Prop where
  labels : one.labels.map Label.unnumbered = other.labels.map Label.unnumbered
  globals : one.globals = other.globals
  locals : one.locals = other.locals
  writer : one.writer = other.writer
  frameSize : one.frameSize = other.frameSize
  stackUsed : one.stackUsed = other.stackUsed
  dataSize : one.dataSize = other.dataSize
  stackSize : one.stackSize = other.stackSize
  wellNamed : one.WellNamed

/-- Whether two operations on drafts agree if lines have other numbers. -/
abbrev Agrees (first second : Drafting Unit) : Prop :=
  Agree Alike Eq (fun _ _ => True) first second

namespace Alike

variable {one other : Draft}

theorem labelNames (alike : one.Alike other) : one.labelNames = other.labelNames := by
  have names := congrArg (fun labels => labels.toList.map Label.name) alike.labels
  simp only [Array.toList_map, List.map_map] at names
  exact names

theorem findLabel? (alike : one.Alike other) (name : Token) :
    Assembly.findLabel? one.labels name = Assembly.findLabel? other.labels name := by
  rw [findLabel?_eq_idxOf?, findLabel?_eq_idxOf?]
  exact congrArg _ alike.labelNames

/-- Labels in the same place have the same address. -/
theorem address (alike : one.Alike other) (index : Nat) :
    one.labels[index]?.bind Label.address = other.labels[index]?.bind Label.address := by
  have addresses := congrArg (fun labels => labels[index]?.bind Label.address) alike.labels
  simpa [Option.bind_map, Function.comp_def, Label.unnumbered] using addresses

theorem names (alike : one.Alike other) (table : Table) : one.names table = other.names table := by
  cases table with
  | labels => exact alike.labelNames
  | globals => rw [Draft.names, Draft.names, globalNames, globalNames, globalAddresses,
      globalAddresses, alike.globals]
  | locals => rw [Draft.names, Draft.names, localNames, localNames, localOffsets, localOffsets,
      alike.locals]

theorem wellNamed_other (alike : one.Alike other) : other.WellNamed :=
  fun table name member => alike.wellNamed table name (alike.names table ▸ member)

theorem instruction (alike : one.Alike other) : one.instruction = other.instruction := by
  have named (name : Token) : one.named name = other.named name := by
    simp only [Draft.named, alike.findLabel?, alike.globals, alike.locals]
  have argument : one.argument = other.argument := by
    funext token
    unfold Draft.argument
    simp only [named]
  have destination : one.destination = other.destination := by
    funext token
    rw [Draft.destination, Draft.destination, argument]
  funext opcode operands
  unfold Draft.instruction
  simp only [argument, destination]

theorem placeLabel (alike : one.Alike other) (index : Nat) (address : Word) :
    Alike
      { one with
        labels := one.labels.modify index fun label => { label with address := some address } }
      { other with
        labels := other.labels.modify index fun label =>
          { label with address := some address } } := by
  have commute (labels : Array Label) : (labels.modify index fun label =>
      { label with address := some address }).map Label.unnumbered =
      (labels.map Label.unnumbered).modify index fun label =>
        { label with address := some address } := map_modify _ _ _ _ _ fun _ => rfl
  refine { alike with labels := ?_, wellNamed := ?_ }
  · rw [commute, commute, alike.labels]
  · intro table name member
    refine alike.wellNamed table name ?_
    cases table with
    | labels =>
        have same := map_key_modify one.labels index Label.name
          (fun label => { label with address := some address }) fun _ => rfl
        rw [Draft.names, Draft.labelNames, same] at member
        exact member
    | globals => exact member
    | locals => exact member

theorem declareGlobal (alike : one.Alike other) (index : Nat) :
    Alike
      { one with
        globals := one.globals.modify index fun global => { global with declared := true } }
      { other with
        globals := other.globals.modify index fun global =>
          { global with declared := true } } := by
  refine { alike with globals := ?_, wellNamed := ?_ }
  · rw [alike.globals]
  · intro table name member
    refine alike.wellNamed table name ?_
    cases table with
    | labels => exact member
    | globals =>
        have same := map_key_modify one.globals index (fun global => (global.name, global.address))
          (fun global => { global with declared := true }) fun _ => rfl
        rw [Draft.names, globalNames, globalAddresses, same] at member
        exact member
    | locals => exact member

theorem declareLocal (alike : one.Alike other) {name : Token}
    (good : Declarations.isName name = true) (type : VariableType) (frameSize : Word) :
    Alike
      { one with locals := one.locals.push ⟨name, one.frameSize, type⟩, frameSize }
      { other with locals := other.locals.push ⟨name, other.frameSize, type⟩, frameSize } := by
  refine { alike with locals := ?_, frameSize := rfl, wellNamed := ?_ }
  · rw [alike.locals, alike.frameSize]
  · intro table known member
    cases table with
    | labels => exact alike.wellNamed .labels known member
    | globals => exact alike.wellNamed .globals known member
    | locals =>
        rw [Draft.names, localNames, localOffsets, Array.toList_push, List.map_append,
          List.map_append, List.mem_append] at member
        rcases member with before | last
        · exact alike.wellNamed .locals known before
        · rw [List.mem_singleton.mp last]
          exact good

end Alike

/-! ## Operations -/

/-- A token is a good name, or is turned down. -/
theorem checkName_cases (token : Token) :
    Declarations.isName token = true ∧ checkName token = pure () ∨
      ∃ cause, checkName token = throw cause := by
  by_cases identifier : Name.isIdentifier token = true
  · by_cases fits : Name.Fits token
    · left
      simp [checkName, Declarations.isName, identifier, fits]
    · right
      refine ⟨.nameTooLong, ?_⟩
      simp only [checkName, identifier, fits, if_true, if_false]
  · right
    refine ⟨.malformed, ?_⟩
    simp only [checkName, identifier, Bool.false_eq_true, if_false]
    rfl

theorem checkName_agrees (name : Token) : Agrees (checkName name) (checkName name) := by
  rcases checkName_cases name with ⟨-, good⟩ | ⟨cause, turnedDown⟩
  · rw [good]
    exact .pure trivial
  · rw [turnedDown]
    exact .throw rfl

theorem emit_agrees (instruction : Instruction) : Agrees (emit instruction) (emit instruction) := by
  refine .modify fun one other alike => ?_
  exact { alike with writer := congrArg (Writer.emit · instruction) alike.writer }

theorem placeLabel_agrees (name : Token) : Agrees (placeLabel name) (placeLabel name) := by
  refine .bind (checkName_agrees name) fun _ _ _ => .get_bind fun one other alike => ?_
  rw [alike.writer, alike.findLabel?]
  cases other.writer.offset with
  | error error => exact .throw_bind rfl
  | ok address =>
      refine .bind (.pure rfl) fun address _ same => ?_
      subst same
      cases findLabel? other.labels name with
      | none => exact .throw rfl
      | some index =>
          simp only [alike.address]
          refine .ite Iff.rfl (fun _ => .throw_bind rfl) fun _ => ?_
          exact .modify fun one other alike => alike.placeLabel index address

theorem declareGlobal_agrees (name : Token) : Agrees (declareGlobal name) (declareGlobal name) := by
  refine .bind (checkName_agrees name) fun _ _ _ => .get_bind fun one other alike => ?_
  rw [alike.globals, alike.dataSize]
  cases findGlobal? other.globals name with
  | none => exact .throw rfl
  | some index =>
      refine .ite Iff.rfl (fun _ => .throw_bind rfl) fun _ => ?_
      refine .ite Iff.rfl (fun _ => ?_) fun _ => .throw_bind rfl
      exact .modify fun one other alike => alike.declareGlobal index

theorem declareLocal_agrees (arguments : List Token) :
    Agrees (declareLocal arguments) (declareLocal arguments) := by
  unfold declareLocal
  split
  next keyword name =>
    cases VariableType.ofKeyword? keyword with
    | none => exact .throw_bind rfl
    | some type =>
        refine .bind (.pure rfl) fun type _ same => .get_bind fun one other alike => ?_
        subst same
        rw [alike.stackUsed]
        refine .ite Iff.rfl (fun _ => .throw_bind rfl) fun _ => ?_
        rcases checkName_cases name with ⟨isName, good⟩ | ⟨cause, turnedDown⟩
        · rw [good]
          refine .bind (.pure rfl) fun _ _ _ => .get_bind fun one other alike => ?_
          rw [alike.locals, alike.frameSize]
          refine .ite Iff.rfl (fun _ => .throw_bind rfl) fun _ => ?_
          cases Declarations.addressAfter? other.frameSize type.size with
          | none => exact .throw rfl
          | some frameSize =>
              refine .bind (.modify fun one other alike => ?_) fun _ _ _ => emit_agrees _
              exact alike.declareLocal isName type frameSize
        · rw [turnedDown]
          exact .throw_bind rfl
  next => exact .throw rfl

theorem setSize_agrees {set : UInt64 → Draft → Draft}
    (keeps : ∀ size one other, Alike one other → Alike (set size one) (set size other))
    (arguments : List Token) :
    Agrees (setSize set arguments) (setSize set arguments) := by
  unfold setSize
  split
  next value =>
    cases Numeral.size? value with
    | none => exact .throw rfl
    | some size =>
        refine .bind (.modify (keeps size)) fun _ _ _ => .get_bind fun one other alike => ?_
        rw [alike.globals, alike.dataSize]
        exact .ite Iff.rfl (fun _ => .throw rfl) fun _ => .pure trivial
  next => exact .throw rfl

theorem addInstruction_agrees (mnemonic : Token) (operands : List Token) :
    Agrees (addInstruction mnemonic operands)
      (addInstruction mnemonic.lowerCase (operands.map Token.folded)) := by
  rw [addInstruction, addInstruction, Token.lowerCase_lowerCase]
  cases Opcode.ofMnemonic? mnemonic.lowerCase with
  | none => exact .throw rfl
  | some opcode =>
      refine .get_bind fun one other alike => ?_
      rw [instruction_folded alike.wellNamed_other, alike.instruction]
      refine .bind .ofExcept fun _ written same => ?_
      subst same
      refine .ite Iff.rfl (fun _ => ?_) fun _ => emit_agrees _
      refine .bind (.modify fun one other alike => ?_) fun _ _ _ => emit_agrees _
      exact { alike with stackUsed := rfl }

theorem ignorePragma_agrees (first second : Option Token) :
    Agrees (ignorePragma first) (ignorePragma second) :=
  .modify fun _ _ alike => { alike with }

theorem pragma_agrees (arguments : List Token) :
    Agrees (pragma arguments) (pragma (foldFirst arguments)) := by
  cases arguments with
  | nil => exact ignorePragma_agrees none none
  | cons name arguments =>
      simp only [pragma, foldFirst, Token.spells_lowerCase, setSize_folded]
      refine .ite Iff.rfl (fun _ => setSize_agrees ?_ arguments) fun _ => ?_
      · exact fun size one other alike => { alike with dataSize := rfl }
      · refine .ite Iff.rfl (fun _ => setSize_agrees ?_ arguments) fun _ => ?_
        · exact fun size one other alike => { alike with stackSize := rfl }
        · exact ignorePragma_agrees _ _

/-- A statement in lower case does what it does. -/
theorem addStatement_agrees (statement : Statement) :
    Agrees (addStatement statement) (addStatement statement.folded) := by
  cases statement with
  | blank => exact .pure trivial
  | label name rest =>
      cases rest with
      | nil => exact placeLabel_agrees name
      | cons mnemonic operands =>
          exact .bind (placeLabel_agrees name) fun _ _ _ => addInstruction_agrees mnemonic operands
  | pragma arguments => exact pragma_agrees arguments
  | localVariable arguments =>
      rw [Statement.folded, addStatement, addStatement, declareLocal_folded]
      exact declareLocal_agrees arguments
  | globals type names =>
      rw [Statement.folded, addStatement, addStatement, declareGlobals_folded, declareGlobals]
      refine .ite Iff.rfl (fun _ => .throw_bind rfl) fun _ => ?_
      exact .forM_same declareGlobal_agrees names
  | instruction mnemonic operands => exact addInstruction_agrees mnemonic operands

/-- Encodes the tokens of a line. -/
def addTokens (tokens : List Token) : Drafting Unit :=
  if tokens.length ≤ Token.maxPerLine then addStatement (.ofTokens tokens) else throw .tooManyTokens

theorem addText_eq_addTokens (text : List Char) : addText text = addTokens (Line.tokens text) := by
  rw [addText, addTokens, Line.tokens?]
  by_cases few : (Line.tokens text).length ≤ Token.maxPerLine
  · simp only [if_pos few]
  · simp only [if_neg few]

/-- A line in lower case does what it does. -/
theorem addTokens_agrees (tokens : List Token) :
    Agrees (addTokens tokens) (addTokens (Line.folded tokens)) := by
  rw [addTokens, addTokens, Line.length_folded, Statement.ofTokens_folded]
  exact .ite Iff.rfl (fun _ => addStatement_agrees _) fun _ => .throw rfl

/-- A line does what its tokens do, but for its number. -/
theorem addLine_agrees (text : List Char) :
    Agree Alike (fun error cause => error.cause = cause) (fun _ _ => True)
      (addLine text) (addTokens (Line.folded (Line.tokens text))) := by
  intro one other alike
  have numbered : Agree Alike (fun error cause => error.cause = cause) (fun _ _ => True)
      ((addTokens (Line.tokens text)).adaptExcept fun cause =>
        (⟨some (one.line + 1), cause⟩ : Error))
      ((addTokens (Line.folded (Line.tokens text))).adaptExcept id) :=
    (addTokens_agrees _).adaptExcept fun _ _ same => same
  have unchanged (operation : Drafting Unit) : operation.adaptExcept id = operation := by
    funext draft
    rw [EStateM.adaptExcept]
    cases operation draft <;> rfl
  rw [← addText_eq_addTokens, unchanged] at numbered
  have onNextLine : Alike { one with line := one.line + 1 } other := { alike with }
  exact numbered _ _ onNextLine

end Draft

/-! ## Declarations -/

namespace Declarations

variable (found : Declarations)

/-- The declarations without the numbers of lines. -/
def unnumbered : Declarations :=
  { found with labels := found.labels.map Label.unnumbered, line := 0 }

/-- Adds what the tokens of a line declare, on the current line. -/
def addTokens (tokens : List Token) : Declarations :=
  if tokens.length ≤ Token.maxPerLine then found.addStatement (.ofTokens tokens) else found

theorem unnumbered_addLabel (name : Token) :
    (found.addLabel name).unnumbered = found.unnumbered.addLabel name := by
  have known : findLabel? found.unnumbered.labels name = findLabel? found.labels name := by
    rw [findLabel?_eq_idxOf?, findLabel?_eq_idxOf?, unnumbered, Array.toList_map, List.map_map]
    rfl
  rw [addLabel, addLabel, known]
  split
  · simp only [unnumbered, Array.map_push]
    rfl
  · rfl

theorem unnumbered_addGlobal (type : VariableType) (name : Token) :
    (addGlobal type found name).unnumbered = addGlobal type found.unnumbered name := by
  have globals : found.unnumbered.globals = found.globals := rfl
  have next : found.unnumbered.nextAddress = found.nextAddress := rfl
  rw [addGlobal, addGlobal, globals, next]
  split
  · cases found.nextAddress <;> rfl
  · rfl

theorem unnumbered_addStatement (statement : Statement) :
    (found.addStatement statement).unnumbered = found.unnumbered.addStatement statement := by
  cases statement with
  | label name rest => exact found.unnumbered_addLabel name
  | globals type names =>
      exact (List.foldl_hom unnumbered fun found name =>
        (found.unnumbered_addGlobal type name).symm).symm
  | blank => rfl
  | pragma arguments => rfl
  | localVariable arguments => rfl
  | instruction mnemonic operands => rfl

/-- A line in lower case declares what it declared. -/
theorem addTokens_folded (tokens : List Token) :
    found.addTokens (Line.folded tokens) = found.addTokens tokens := by
  rw [addTokens, addTokens, Line.length_folded, Statement.ofTokens_folded, addStatement_folded]

/-- A line declares what its tokens do, but for its number. -/
theorem unnumbered_addLine (text : List Char) :
    (found.addLine text).unnumbered =
      found.unnumbered.addTokens (Line.folded (Line.tokens text)) := by
  have next : found.nextLine.unnumbered = found.unnumbered := rfl
  rw [addTokens_folded, addTokens, ← next, addLine, Line.tokens?]
  by_cases few : (Line.tokens text).length ≤ Token.maxPerLine
  · simp only [if_pos few]
    exact found.nextLine.unnumbered_addStatement _
  · simp only [if_neg few]
    rfl

theorem unnumbered_ofTexts (texts : List (List Char)) :
    (ofTexts texts).unnumbered =
      (texts.map fun text => Line.folded (Line.tokens text)).foldl addTokens empty := by
  have start : empty = empty.unnumbered := by
    rw [unnumbered, empty, Array.map_empty]
  rw [List.foldl_map, start]
  exact (List.foldl_hom unnumbered fun found text => (found.unnumbered_addLine text).symm).symm

/-- Names that were found are good ones. -/
theorem wellNamed_ofTexts (texts : List (List Char)) :
    (Draft.ofDeclarations (ofTexts texts)).WellNamed := by
  rw [ofTexts_eq]
  intro table name member
  cases table with
  | labels => exact (words_of_names (Or.inl member)).1
  | globals =>
      rw [Draft.names, Draft.globalNames, Draft.globalAddresses, List.map_map] at member
      exact (words_of_names (Or.inr member)).1
  | locals => cases member

end Declarations

namespace Draft

theorem alike_ofDeclarations (texts : List (List Char)) :
    (ofDeclarations (.ofTexts texts)).Alike
      (ofDeclarations (Declarations.ofTexts texts).unnumbered) where
  labels := by
    rw [ofDeclarations, ofDeclarations, Declarations.unnumbered, Array.map_map]
    rfl
  globals := rfl
  locals := rfl
  writer := rfl
  frameSize := rfl
  stackUsed := rfl
  dataSize := rfl
  stackSize := rfl
  wellNamed := Declarations.wellNamed_ofTexts texts

end Draft

/-! ## Linking -/

namespace Linking

/-- Whether two ways of linking an image differ in nothing but the lines of errors. -/
abbrev Agrees (first second : Linking Unit) : Prop :=
  Agree Eq (fun error other => error.cause = other.cause) (fun _ _ => True) first second

variable {one other : Draft} (alike : one.Alike other) (line line' : LineNumber)

include alike

theorem resolve_agrees (fetched : Fetched) (operand : Operand) :
    Agrees (resolve one.labels line fetched operand)
      (resolve other.labels line' fetched operand) := by
  rw [resolve, resolve]
  refine .ite Iff.rfl (fun _ => ?_) fun _ => .pure trivial
  have address : labelAddress? one.labels operand = labelAddress? other.labels operand :=
    alike.address _
  rw [address]
  cases labelAddress? other.labels operand with
  | none => exact .throw rfl
  | some address =>
      refine .adaptExcept (.refl (fun _ => trivial) _) fun _ _ same => ?_
      rfl

theorem instruction_agrees :
    Agrees (instruction one.labels line) (instruction other.labels line') := by
  rw [instruction, instruction]
  have fetch : Agree Eq (fun error other : Error => error.cause = other.cause) Eq
      (Fetch.instruction.adaptExcept fun fault => (⟨some line, .undecodable fault⟩ : Error))
      (Fetch.instruction.adaptExcept fun fault => (⟨some line', .undecodable fault⟩ : Error)) :=
    .adaptExcept (.refl (fun _ => rfl) _) fun _ _ same => congrArg Cause.undecodable same
  refine .bind fetch fun fetched _ same => ?_
  subst same
  exact .forM_same (resolve_agrees alike _ _ fetched) _

theorem instructions_agrees (lastLine lastLine' : LineNumber) (count : Nat)
    (lines lines' : List LineNumber) :
    Agrees (instructions one.labels lastLine count lines)
      (instructions other.labels lastLine' count lines') := by
  induction count generalizing lines lines' with
  | zero => exact .pure trivial
  | succ count ih =>
      refine .get_bind fun image _ same => ?_
      subst same
      refine .ite Iff.rfl (fun _ => ?_) fun _ => .pure trivial
      exact .bind (instruction_agrees alike _ _) fun _ _ _ => ih _ _

end Linking

/-! ## Texts -/

namespace Source

variable {σ : Type}

/-- What is fed of the lines of a text is what the lines come to, one after the other. -/
theorem feedLines_bytes {ε : Type} (step : List Char → EStateM ε σ Unit) (unreadable : ε)
    (lines : List (List Char)) (position : Nat) (state : σ) :
    ∃ behind, feedLines step unreadable (lines.map Line.bytes) position state =
      match (lines.map Line.content).forM step state with
      | .ok _ final => (none, behind, final)
      | .error error final => (some error, behind, final) := by
  induction lines generalizing position state with
  | nil => exact ⟨position, rfl⟩
  | cons line rest ih =>
      rw [List.map_cons, List.map_cons, feedLines, Line.text?_bytes, List.forM]
      cases stepped : step (Line.content line) state with
      | ok _ next =>
          rw [bind_of_ok stepped]
          simp only [stepped]
          exact ih _ next
      | error error final =>
          rw [bind_of_error stepped]
          exact ⟨_, by simp only [stepped]; rfl⟩

theorem feed_ofString {ε : Type} (step : List Char → EStateM ε σ Unit)
    (unreadable : ReadFailure → ε) (text : String) (state : σ) :
    ∃ rest, (ofString text).revisited.feed step unreadable state =
      match (ofString text).texts.forM step state with
      | .ok _ final => (none, rest, final)
      | .error error final => (some error, rest, final) := by
  obtain ⟨behind, fed⟩ := feedLines_bytes step (unreadable .invalidData) (Line.cut text.toList)
    0 state
  rw [← lines_ofString, ← texts_ofString] at fed
  have start : (ofString text).revisited.feed step unreadable state =
      let (failure, position, final) :=
        feedLines step (unreadable .invalidData) (ofString text).lines 0 state
      (failure, { ofString text with position }, final) := rfl
  refine ⟨{ ofString text with position := behind }, ?_⟩
  rw [start, fed]
  cases (ofString text).texts.forM step state <;> rfl

end Source

namespace Line

/-- Whether tokens are what a line shows: they stand on it in order, with at least one separator
between two of them and any others in front and behind, a comment may follow, and the line may have
an ending. -/
def Shows (line : List Char) (tokens : List Token) : Prop :=
  ∃ (pieces : List (List Char)) (separators comment : List Char),
    content line = weave pieces separators ++ comment ∧
    pieces.length = separators.length + 1 ∧
    (∀ piece ∈ pieces, ∀ char ∈ piece, isSeparator char = false) ∧
    (∀ char ∈ separators, isSeparator char = true) ∧
    IsComment comment ∧ Bare (weave pieces separators ++ comment.take 1) ∧
    tokens = pieces.filter isToken

/-- Every line shows the tokens that it is cut into, and no others. -/
theorem shows_iff {line : List Char} {shown : List Token} :
    Shows line shown ↔ shown = tokens (content line) := by
  constructor
  · rintro ⟨pieces, separators, comment, laidOut, length, plain, between, isComment, bare, rfl⟩
    rw [tokens, laidOut, withoutComment_append isComment bare, splitOnP_weave plain between length]
    rfl
  · intro same
    obtain ⟨isComment, bare⟩ := withoutComment_spec (content line)
    have woven := weave_splitOnP (code line)
    refine ⟨(code line).splitOnP isSeparator, (code line).filter isSeparator,
      (content line).drop (code line).length, ?_, length_splitOnP _,
      fun piece => not_isSeparator_of_mem, fun char member => (List.mem_filter.mp member).2,
      isComment, ?_, same⟩
    · rw [woven]
      exact (withoutComment_append_drop (content line)).symm
    · rw [woven]
      exact bare

end Line

namespace Text

/-- Whether the lines of a text show tokens, those of one line after the other. -/
def Shows (text : String) (lines : List (List Token)) : Prop :=
  List.Forall₂ Line.Shows (Line.cut text.toList) lines

/-- The tokens that each line of a text is cut into. -/
def shown (text : String) : List (List Token) :=
  (Line.cut text.toList).map fun line => Line.tokens (Line.content line)

/-- Every text shows the tokens that its lines are cut into, and no others. -/
theorem shows_iff {text : String} {lines : List (List Token)} :
    Shows text lines ↔ lines = shown text := by
  have onEach : Line.Shows = fun line tokens => Line.tokens (Line.content line) = tokens := by
    funext line tokens
    exact propext (Line.shows_iff.trans eq_comm)
  have cutInto : List.Forall₂ Eq (shown text) lines ↔ Shows text lines := by
    rw [shown, List.forall₂_map_left_iff, Shows, onEach]
  rw [← cutInto, List.forall₂_eq_eq_eq]
  exact eq_comm

theorem shows_shown (text : String) : Shows text (shown text) := shows_iff.mpr rfl

/-- The lines that have tokens, in lower case where that does not change what they mean. -/
def folded (lines : List (List Token)) : List (List Token) :=
  (lines.map Line.folded).filter fun tokens => !tokens.isEmpty

/-- Lines without tokens declare nothing. -/
theorem foldl_addTokens_filter (lines : List (List Token)) (found : Declarations) :
    (lines.filter fun tokens => !tokens.isEmpty).foldl Declarations.addTokens found =
      lines.foldl Declarations.addTokens found := by
  induction lines generalizing found with
  | nil => rfl
  | cons tokens rest ih =>
      cases tokens with
      | nil => exact ih found
      | cons first others => exact ih _

/-- Lines without tokens do nothing. -/
theorem forM_addTokens_filter (lines : List (List Token)) :
    (lines.filter fun tokens => !tokens.isEmpty).forM Draft.addTokens =
      lines.forM Draft.addTokens := by
  induction lines with
  | nil => rfl
  | cons tokens rest ih =>
      cases tokens with
      | nil => exact ih
      | cons first others => exact congrArg (Draft.addTokens (first :: others) >>= fun _ => ·) ih

end Text

end Assembly

open Assembly

namespace Assembler

theorem link_agrees {one other : Draft} (alike : one.Alike other) (image : Image) :
    (one.link image).mapError Error.cause = (other.link image).mapError Error.cause := by
  have agreed := Linking.instructions_agrees alike one.line other.line image.size
    one.instructionLines.toList other.instructionLines.toList image image rfl
  rw [Draft.link, Draft.link]
  split at agreed
  next returned returned' =>
    rw [returned, returned']
    exact congrArg Except.ok agreed.2
  next failed failed' =>
    rw [failed, failed']
    exact congrArg Except.error agreed
  next => cases agreed

theorem outcome_finish (draft : Draft) :
    (finish draft).1 =
      match draft.writer.finish draft.dataSize draft.stackSize with
      | .error error => .error ⟨none, .imageTooLarge error⟩
      | .ok image => draft.link image := by
  rw [finish]
  cases draft.writer.finish draft.dataSize draft.stackSize with
  | error error => rfl
  | ok image =>
      simp only
      cases draft.link image <;> rfl

/-- Drafts that differ in nothing but the numbers of lines come to the same image. -/
theorem finish_agrees {one other : Draft} (alike : one.Alike other) :
    (finish one).1.mapError Error.cause = (finish other).1.mapError Error.cause := by
  rw [outcome_finish, outcome_finish, alike.writer, alike.dataSize, alike.stackSize]
  cases other.writer.finish other.dataSize other.stackSize with
  | error error => rfl
  | ok image => exact link_agrees alike image

/-- What comes of the tokens of lines. -/
def imageOf (lines : List (List Token)) : Except Cause Image :=
  match lines.forM Draft.addTokens (.ofDeclarations (lines.foldl .addTokens .empty)) with
  | .ok _ draft => (finish draft).1.mapError Error.cause
  | .error cause _ => .error cause

/-- What comes of a text is what comes of the tokens that it shows, in lower case. -/
theorem assemble_eq_imageOf (assembler : Assembler) {text : String} {lines : List (List Token)}
    (shown : Text.Shows text lines) :
    (assembler.assemble (.ofString text)).outcome.mapError Error.cause =
      imageOf (Text.folded lines) := by
  have scanned := Source.scan_ofString text
  have folded : lines.map Line.folded =
      (Source.ofString text).texts.map fun text => Line.folded (Line.tokens text) := by
    rw [Text.shows_iff.mp shown, Text.shown, Source.texts_ofString, List.map_map, List.map_map]
    rfl
  rw [imageOf, Text.folded, folded, Text.forM_addTokens_filter, Text.foldl_addTokens_filter,
    ← Declarations.unnumbered_ofTexts]
  obtain ⟨rest, fed⟩ := Source.feed_ofString Draft.addLine
    (fun failure => ⟨none, .unreadable failure⟩) text
    (.ofDeclarations (.ofTexts (Source.ofString text).texts))
  have onEach : List.Forall₂ (fun text tokens =>
      Agree Draft.Alike (fun error cause => error.cause = cause) (fun _ _ => True)
        (Draft.addLine text) (Draft.addTokens tokens))
      (Source.ofString text).texts
      ((Source.ofString text).texts.map fun text => Line.folded (Line.tokens text)) :=
    List.forall₂_map_right_iff.mpr (List.forall₂_same.mpr fun text _ => Draft.addLine_agrees text)
  have agreed := Agree.forM onEach _ _ (Draft.alike_ofDeclarations (Source.ofString text).texts)
  split at agreed
  next _ draft _ other encoded encoded' =>
    rw [encoded] at fed
    rw [encoded', (attempt_of_read scanned fed assembler).1]
    exact finish_agrees agreed.2
  next error _ cause _ turnedDown turnedDown' =>
    rw [turnedDown] at fed
    rw [turnedDown', outcome_of_turnedDown scanned fed assembler]
    exact congrArg Except.error agreed
  next => cases agreed

/-- Texts that show the same tokens come to the same image, or are turned down for the same cause.
Lines without tokens do not count, nor does upper and lower case but in names. -/
theorem assemble_eq_of_folded (first second : Assembler) {text other : String}
    {lines others : List (List Token)} (shown : Text.Shows text lines)
    (otherShown : Text.Shows other others) (same : Text.folded lines = Text.folded others) :
    (first.assemble (.ofString text)).outcome.mapError Error.cause =
      (second.assemble (.ofString other)).outcome.mapError Error.cause := by
  rw [assemble_eq_imageOf first shown, assemble_eq_imageOf second otherShown, same]

/-! ### A text that is dressed up -/

def plain : String :=
  "#pragma datapagesize 0x40\nbyte x\nlocal uint16 y\na: mov [0x1f] reg01\nmov x [reg1]\njmp a"

def dressed : String :=
  "\n#PRAGMA\tDataPageSize,0X40\r\n// names\r\nBYTE x\nLocal UINT16 ,, y // of the frame\n" ++
    "a: MOV [0X1F], REG01\r\n\n  Mov x, [Reg1]//\njMP a\n"

def broken : String := "mov 1 2\nnop"

def brokenLater : String := "\n// one to two\r\n\tMOV 1, 2\r\nNop"

theorem dressed_up_alike :
    (∃ image, (empty.assemble (.ofString plain)).outcome = .ok image ∧
      (empty.assemble (.ofString dressed)).outcome.mapError Error.cause = .ok image ∧
      image.toList.drop Header.length =
        [30, 64, 0, 0, 2, 0, 33, 1, 31, 0, 0, 101, 1, 8, 0, 18, 3, 33, 0]) ∧
    (empty.assemble (.ofString broken)).outcome = .error ⟨some 1, .numberAsDestination⟩ ∧
    (empty.assemble (.ofString brokenLater)).outcome.mapError Error.cause =
      .error .numberAsDestination := by
  have samePlain : Text.folded (Text.shown plain) = Text.folded (Text.shown dressed) := by
    decide +kernel
  have sameBroken : Text.folded (Text.shown broken) =
      Text.folded (Text.shown brokenLater) := by
    decide +kernel
  have code : ((empty.assemble (.ofString plain)).outcome.toOption.map fun image =>
      image.toList.drop Header.length) =
        some [30, 64, 0, 0, 2, 0, 33, 1, 31, 0, 0, 101, 1, 8, 0, 18, 3, 33, 0] := by
    decide +kernel
  have turnedDown : (empty.assemble (.ofString broken)).outcome =
      .error ⟨some 1, .numberAsDestination⟩ := rfl
  refine ⟨?_, turnedDown, ?_⟩
  · rw [← assemble_eq_of_folded empty empty (Text.shows_shown plain)
      (Text.shows_shown dressed) samePlain]
    cases outcome : (empty.assemble (.ofString plain)).outcome with
    | error error =>
        rw [outcome] at code
        cases code
    | ok image =>
        rw [outcome] at code
        exact ⟨image, rfl, rfl, Option.some.inj code⟩
  · rw [← assemble_eq_of_folded empty empty (Text.shows_shown broken)
      (Text.shows_shown brokenLater) sameBroken, turnedDown]
    rfl

end Assembler

end WordMachine
