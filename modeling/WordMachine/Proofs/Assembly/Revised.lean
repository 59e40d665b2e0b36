import WordMachine.Proofs.Assembly.Assembled
import WordMachine.Proofs.Assembly.Following
import WordMachine.Proofs.Assembly.Reuse

/-!
# Sources that are revised between the readings

The names of the labels come from the first text, their addresses and the code from the second. No
position of the table is left in an image all the same: where the second text does not declare a
label that it uses, linking stops at the first instruction that uses it, and where it declares a
label that the first text did not, its line is turned down (`revised_labels_resolve`).
-/

namespace WordMachine

open Assembly

/-- The operands of an instruction that was read, each with what is written for it. -/
def Fetched.pairs (fetched : Fetched) (symbolic : Symbolic) : List (Operand × Term) :=
  (fetched.dst.map fun operand => (operand, symbolic.dst)).toList ++
    (fetched.src.map fun operand => (operand, symbolic.src)).toList

/-- Whether an operand has the address of a label: the one it has in a table and in a listing,
where an instruction begins or the image ends. -/
structure Operand.Refers (operand : Operand) (labels : List Label) (listing : Listing)
    (decoded : List Fetched) (image : Image) (name : Token) : Prop where
  declared : name ∈ listing.labelNames
  listed : operand.value.toNat = listing.address name
  recorded : ∃ label ∈ labels, label.name = name ∧ label.address = some operand.value
  boundary : operand.value.toNat ∈ decoded.map Fetched.offset ∨ operand.value.toNat = image.size

namespace Assembly

/-- An operand of a located instruction is what is written for it, with the addresses of labels. -/
theorem Symbolic.Sound.of_mem_pairs {scope : Scope} {symbolic : Symbolic} {address : Token → Word}
    {offset : Nat} {operand : Operand} {term : Term} (sound : symbolic.Sound scope)
    (member : (operand, term) ∈ ((symbolic.resolve address).locate offset).pairs symbolic) :
    term ∈ symbolic.terms ∧ operand.toArgument = term.resolve address ∧ term.Sound scope := by
  rw [Fetched.pairs, List.mem_append, Option.mem_toList, Option.mem_toList,
    Option.map_eq_some_iff, Option.map_eq_some_iff] at member
  rcases member with ⟨_, carried, same⟩ | ⟨_, carried, same⟩
  · cases same
    obtain ⟨dst, takesDst⟩ := Instruction.dst_of_locate carried
    exact ⟨List.mem_cons_self, dst, (sound.of_hasDst takesDst).1⟩
  · cases same
    obtain ⟨src, takesSrc⟩ := Instruction.src_of_locate carried
    exact ⟨List.mem_cons_of_mem _ List.mem_cons_self, src, sound.of_hasSrc takesSrc⟩

/-- The instructions of a program are those of its listing, each at its place. -/
theorem Listing.getElem?_locate_program {listing : Listing} {offset index : Nat}
    {symbolic : Symbolic} {fetched : Fetched} (written : listing.codes[index]? = some symbolic)
    (read : (listing.program.locate offset)[index]? = some fetched) :
    fetched = (symbolic.resolve fun name => UInt16.ofNat (listing.address name)).locate
      (offset + Program.size (listing.program.take index)) := by
  have here : listing.program[index]? =
      some (symbolic.resolve fun name => UInt16.ofNat (listing.address name)) := by
    rw [program, programWith_eq, List.getElem?_map, written]
    rfl
  rw [Program.getElem?_locate, here] at read
  exact (Option.some.inj read).symm

/-- A label operand of a linked image refers to the label that is written for it. -/
theorem Linked.refers {scope : Scope} {listing : Listing} {header : Header} {image : Image}
    (linked : Linked scope listing header image) {labels : List Label}
    (places : ∀ symbolic ∈ listing.codes, listing.Places symbolic)
    (table : ∀ name ∈ listing.labelNames, ∃ label ∈ labels, label.name = name ∧
      label.address = some (UInt16.ofNat (listing.address name)))
    {index : Nat} {symbolic : Symbolic} {fetched : Fetched} {operand : Operand} {term : Term}
    (written : listing.codes[index]? = some symbolic)
    (read : (listing.program.locate Header.length)[index]? = some fetched)
    (member : (operand, term) ∈ fetched.pairs symbolic) (isLabel : operand.mode = .label) :
    ∃ name, term = .label name ∧
      operand.Refers labels listing (listing.program.locate Header.length) image name := by
  have coded : symbolic ∈ listing.codes := List.mem_of_getElem? written
  have sound := linked.sound symbolic (Listing.mem_codes_iff.mp coded)
  rw [Listing.getElem?_locate_program written read] at member
  obtain ⟨among, same, termSound⟩ := sound.of_mem_pairs member
  cases term with
  | plain argument =>
      rw [same] at isLabel
      exact absurd isLabel termSound.1
  | label name =>
      have declared := places symbolic coded name among
      have value : operand.value = UInt16.ofNat (listing.address name) :=
        congrArg Argument.value same
      refine ⟨name, rfl, declared, ?_, ?_, ?_⟩
      · rw [value]
        exact UInt16.toNat_ofNat_of_lt' (linked.inReach name declared)
      · rw [value]
        exact table name declared
      · rw [value]
        exact linked.address_boundary declared

/-- If a listing lacks the label of an instruction, there is a first such instruction. -/
theorem Listing.exists_first_missing (listing : Listing) {items : List Item}
    (missing : ∃ symbolic, Item.code symbolic ∈ items ∧ ¬ listing.Places symbolic) :
    ∃ front symbolic back, items = front ++ .code symbolic :: back ∧
      (∀ other, Item.code other ∈ front → listing.Places other) ∧ ¬ listing.Places symbolic := by
  induction items with
  | nil =>
      rcases missing with ⟨symbolic, member, -⟩
      cases member
  | cons item rest ih =>
      by_cases here : ∃ symbolic, item = .code symbolic ∧ ¬ listing.Places symbolic
      · rcases here with ⟨symbolic, rfl, misses⟩
        exact ⟨[], symbolic, rest, rfl, fun _ member => (List.not_mem_nil member).elim, misses⟩
      · have later : ∃ symbolic, Item.code symbolic ∈ rest ∧ ¬ listing.Places symbolic := by
          rcases missing with ⟨symbolic, member, missing⟩
          rcases List.mem_cons.mp member with first | behind
          · exact absurd ⟨symbolic, first.symm, missing⟩ here
          · exact ⟨symbolic, behind, missing⟩
        obtain ⟨front, symbolic, back, split, places, misses⟩ := ih later
        refine ⟨item :: front, symbolic, back, by rw [split]; rfl, ?_, misses⟩
        intro other member
        rcases List.mem_cons.mp member with first | behind
        · by_contra notPlaced
          exact here ⟨other, first.symm, notPlaced⟩
        · exact places other behind

theorem Source.statements_revisited {source : Source} (steady : source.Steady) :
    source.revisited.statements = source.statements := by
  rw [statements, statements, lines_revisited steady]

/-- The statement on a line stands among the statements where the line stands among the lines. -/
theorem Source.split_statements {lines before after : List (List UInt8)} {line : List UInt8}
    {statements : List Statement} {statement : Statement}
    (onLines : lines.map statement? = statements.map some) (split : lines = before ++ line :: after)
    (spelled : statement? line = some statement) :
    ∃ front back, statements = front ++ statement :: back ∧
      before.map statement? = front.map some := by
  rw [split, List.map_append, List.map_cons, spelled] at onLines
  obtain ⟨front, rest, rfl, onFront, onRest⟩ := List.map_eq_append_iff.mp onLines.symm
  obtain ⟨_, back, rfl, same, -⟩ := List.map_eq_cons_iff.mp onRest
  cases same
  exact ⟨front, back, rfl, onFront.symm⟩

/-- The labels that a line uses, that were found before and that the source does not declare. -/
def Source.missedOn (found : Declarations) (source : Source) (line : List UInt8) : List Token :=
  (((statement? line).map Statement.operands).getD []).filter fun name =>
    decide (name ∈ found.labelNames ∧
      name ∉ source.statements.filterMap Statement.declaredLabel?)

theorem Source.mem_missedOn_iff {found : Declarations} {source : Source} {line : List UInt8}
    {name : Token} :
    name ∈ source.missedOn found line ↔ ∃ statement, statement? line = some statement ∧
      name ∈ statement.operands ∧ name ∈ found.labelNames ∧
      name ∉ source.statements.filterMap Statement.declaredLabel? := by
  cases spelled : statement? line <;> simp [missedOn, spelled]

namespace Draft

/-- Whether the second reading turns none of the lines down, and what draft they come to. -/
def Accepts (found : Declarations) (start : Nat) (lines : List (List UInt8)) (draft : Draft) :
    Prop :=
  ∃ position, Source.feedLines addLine ⟨none, .unreadable .invalidData⟩ lines start
    (ofDeclarations found) = (none, position, draft)

variable {found : Declarations} {statements : List Statement} {listing : Listing} {draft : Draft}
  {symbolic : Symbolic}

/-- The table has the address of every label that the second text declares. -/
theorem Follows.table (follows : Follows found statements listing draft) {name : Token}
    (declared : name ∈ listing.labelNames) :
    ∃ label ∈ draft.labels.toList, label.name = name ∧
      label.address = some (UInt16.ofNat (listing.address name)) := by
  rcases follows.agreed with ⟨before, agreed⟩
  obtain ⟨label, member, named⟩ := List.mem_map.mp (follows.recorded declared)
  refine ⟨{ label with address := listing.placed? label.name }, ?_, named, ?_⟩
  · rw [agreed.labels]
    exact List.mem_map_of_mem member
  · simp [named, Listing.placed?, declared]

/-- Where a label is used that was found before but is not declared again, the draft does not
link, and the error has the line of the first such use. -/
theorem Follows.link_misses (follows : Follows found statements listing draft)
    (tidy : found.Tidy) {header : Header} {image : Image}
    (bytes : image.toList = header.encode ++ draft.writer.code.toList)
    (cursor : image.cursor = Header.length) {before after : List Statement}
    {statement : Statement} {name : Token} (split : statements = before ++ statement :: after)
    (used : name ∈ statement.operands) (known : name ∈ found.labelNames)
    (missing : name ∉ statements.filterMap Statement.declaredLabel?)
    (first : ∀ earlier ∈ before, ∀ other ∈ earlier.operands, other ∈ found.labelNames →
      other ∈ statements.filterMap Statement.declaredLabel?) :
    draft.link image = .error ⟨some (.nth (before.length + 1)), .unresolvedLabel⟩ := by
  rcases follows.agreed with ⟨declared, agreed⟩
  have built := follows.built
  have tracks := Listing.tracks_of_foldlM built
  have code := Statement.makesCode_of_operands used
  rw [split] at built
  obtain ⟨earlier, symbolic, front, rest, builtEarlier, emitted, -, items, inFront⟩ :=
    Listing.code_of_split built code
  have placesFront : ∀ other, Item.code other ∈ front → listing.Places other := by
    intro other member label named
    have coded : other ∈ earlier.codes := by
      rw [← inFront]
      exact List.mem_filterMap.mpr ⟨_, member, rfl⟩
    obtain ⟨statement, inBefore, _, emittedThere⟩ :=
      Listing.mem_codes_of_foldlM builtEarlier coded
    obtain ⟨written, recorded⟩ := Listing.label_of_emitted? emittedThere named
    rw [tracks.labelNames]
    exact first statement inBefore label written recorded
  have missed : ¬ listing.Places symbolic := by
    intro places
    apply missing
    rw [← tracks.labelNames]
    exact places name (Listing.label_mem_terms emitted (tidy.goodLabels name known) known used)
  rw [agreed.link_strands items placesFront missed bytes cursor, inFront,
    (Listing.tracks_of_foldlM builtEarlier).codes, follows.instructionLines, split,
    Statement.headD_drop_codeLines code]

/-- A good name that is not in the table can not be placed. -/
theorem placeLabel_of_unknown {name : Token} (good : Declarations.isName name = true)
    (unknown : findLabel? draft.labels name = none)
    (room : draft.writer.size < Writer.maxImageSize) :
    placeLabel name draft = .error .unresolvedLabel draft := by
  rw [Declarations.isName, Bool.and_eq_true, decide_eq_true_eq] at good
  have checked : checkName name draft = .ok () draft := by
    simp only [checkName, good.1, good.2, if_true]
    rfl
  have offset : draft.writer.offset = .ok (UInt16.ofNat draft.writer.size) := if_pos room
  rw [placeLabel, bind_of_ok checked, get_bind, offset]
  simp only [unknown]
  rfl

theorem addStatement_of_unknown {name : Token} (rest : List Token)
    (good : Declarations.isName name = true) (unknown : findLabel? draft.labels name = none)
    (room : draft.writer.size < Writer.maxImageSize) :
    addStatement (.label name rest) draft = .error .unresolvedLabel draft := by
  have turnedDown := placeLabel_of_unknown good unknown room
  cases rest with
  | nil => exact turnedDown
  | cons mnemonic operands => exact bind_of_error turnedDown

/-- A line is turned down with the cause of its statement, and with its number. -/
theorem addLine_of_turnedDown {text : List Char} {statement : Statement} {cause : Cause}
    {final : Draft} (spelled : Statement.ofText? text = some statement)
    (turnedDown : addStatement statement { draft with line := draft.line + 1 } =
      .error cause final) :
    addLine text draft = .error ⟨some (draft.line + 1), cause⟩ final := by
  have ofText : addText text { draft with line := draft.line + 1 } = .error cause final := by
    rw [addText_eq, spelled]
    exact turnedDown
  have numbered : ((addText text).adaptExcept fun cause =>
      (⟨some (draft.line + 1), cause⟩ : Error)) { draft with line := draft.line + 1 } =
      .error ⟨some (draft.line + 1), cause⟩ final := by
    simp only [EStateM.adaptExcept, ofText]
  exact numbered

end Draft

end Assembly

namespace Assembler

variable {assembler : Assembler} {source : Source} {image : Image}

/-- Behind a first reading, what comes of a line that is turned down. -/
theorem outcome_of_turnedDown {found : Declarations} {rest : Source} {draft : Draft} {error : Error}
    (scanned : Declarations.scan source = (none, source.revisited, found))
    (fed : source.revisited.feed Draft.addLine (fun failure => ⟨none, .unreadable failure⟩)
      (Draft.ofDeclarations found) = (some error, rest, draft)) (assembler : Assembler) :
    (assembler.assemble source).outcome = .error error := by
  rw [assemble_of_scanned scanned, encode, reset_known, fed]

/-- Behind a first reading, what comes of a statement that is turned down in the second: its cause
and the number of its line. -/
theorem outcome_of_statement {before after : List (List UInt8)} {line : List UInt8}
    {statement : Statement} {draft final : Draft} {cause : Cause}
    (scanned : Declarations.scan source = (none, source.revisited, .ofTexts source.texts))
    (split : source.revisited.delivered = before ++ line :: after)
    (accepts : Draft.Accepts (.ofTexts source.texts) source.position before draft)
    (spelled : Source.statement? line = some statement)
    (turnedDown : Draft.addStatement statement { draft with line := draft.line + 1 } =
      .error cause final)
    (assembler : Assembler) :
    (assembler.assemble source).outcome = .error ⟨some (.nth (before.length + 1)), cause⟩ := by
  have tidy := Declarations.tidy_ofTexts source.texts
  rcases accepts with ⟨behind, accepted⟩
  obtain ⟨statements, listing, onLines, follows⟩ :=
    Draft.feedLines_follows (Draft.follows_nil tidy) tidy accepted
  have length : draft.line = .nth before.length := by
    rw [follows.line, ← List.length_map Source.statement?, onLines, List.length_map]
    rfl
  obtain ⟨text, isText, spelledText⟩ := Option.bind_eq_some_iff.mp spelled
  have lineTurnedDown := Draft.addLine_of_turnedDown spelledText turnedDown
  rw [length, LineNumber.nth_succ] at lineTurnedDown
  have failure : (source.revisited.feed Draft.addLine (fun failure => ⟨none, .unreadable failure⟩)
      (Draft.ofDeclarations (.ofTexts source.texts))).1 =
        some ⟨some (.nth (before.length + 1)), cause⟩ :=
    Source.feed_of_turnedDown split accepted isText lineTurnedDown
  rcases fed : source.revisited.feed Draft.addLine (fun failure => ⟨none, .unreadable failure⟩)
    (Draft.ofDeclarations (.ofTexts source.texts)) with ⟨outcome, rewound, last⟩
  rw [fed] at failure
  cases failure
  exact outcome_of_turnedDown scanned fed assembler

/-- Behind a first reading, what comes of a second one that goes to the end. -/
theorem attempt_of_read {found : Declarations} {rest : Source} {draft : Draft}
    (scanned : Declarations.scan source = (none, source.revisited, found))
    (fed : source.revisited.feed Draft.addLine (fun failure => ⟨none, .unreadable failure⟩)
      (Draft.ofDeclarations found) = (none, rest, draft)) (assembler : Assembler) :
    (assembler.assemble source).outcome = (finish draft).1 ∧
      (assembler.assemble source).assembler.toDraft = { draft with writer := .empty } := by
  rw [assemble_of_scanned scanned, encode, reset_known, fed]
  rcases finished : finish draft with ⟨outcome, stages⟩
  simp only [finished, toDraft_reportError, and_self]

section

variable {found : Declarations} {statements : List Statement} {listing : Listing} {draft : Draft}

/-- An image is finished only if every label that is used has been declared again. -/
theorem finish_of_follows (follows : draft.Follows found statements listing)
    (finished : (finish draft).1 = .ok image) :
    (∀ symbolic ∈ listing.codes, listing.Places symbolic) ∧
      ∃ header, Linked found.scope listing header image ∧ Header.read image = .ok header := by
  rcases follows.agreed with ⟨before, agreed⟩
  rw [finish] at finished
  cases written : draft.writer.finish draft.dataSize draft.stackSize with
  | error error =>
      rw [written] at finished
      cases finished
  | ok unlinked =>
      simp only [written] at finished
      obtain ⟨header, magic, -, -, -, bytes, cursor, -⟩ := Writer.finish_bytes written
      have places : ∀ symbolic ∈ listing.codes, listing.Places symbolic := by
        by_contra missing
        simp only [not_forall] at missing
        obtain ⟨symbolic, coded, missing⟩ := missing
        obtain ⟨front, first, back, split, placesFront, misses⟩ :=
          listing.exists_first_missing ⟨symbolic, Listing.mem_codes_iff.mp coded, missing⟩
        rw [agreed.link_strands split placesFront misses bytes cursor] at finished
        cases finished
      obtain ⟨linked, outcome, linkedBytes⟩ := agreed.link_places places bytes cursor
      rw [outcome] at finished
      cases finished
      exact ⟨places, header, ⟨agreed.sound, agreed.inReach, linkedBytes⟩,
        Header.read_header linkedBytes magic⟩

/-- A draft that is no larger than an image is linked. -/
theorem finish_of_link (fits : draft.writer.size ≤ Writer.maxImageSize) :
    ∃ (header : Header) (unlinked : Image),
      unlinked.toList = header.encode ++ draft.writer.code.toList ∧
      unlinked.cursor = Header.length ∧ (finish draft).1 = draft.link unlinked := by
  obtain ⟨unlinked, written⟩ := Writer.finish_of_fits draft.dataSize draft.stackSize fits
  obtain ⟨header, -, -, -, -, bytes, cursor, -⟩ := Writer.finish_bytes written
  refine ⟨header, unlinked, bytes, cursor, ?_⟩
  rw [finish, written]
  cases linked : draft.link unlinked with
  | error error => simp only [linked]
  | ok image => simp only [linked]

end

/-- Where the first reading does not fail, it has found good names. -/
theorem scan_of_ok (assembled : (assembler.assemble source).outcome = .ok image) :
    ∃ found, Declarations.scan source = (none, source.revisited, found) ∧ found.Tidy := by
  rcases scanned : Declarations.scan source with ⟨failure, rest, found⟩
  cases failure with
  | some failure =>
      rw [assemble_of_failure scanned] at assembled
      cases assembled
  | none =>
      obtain ⟨-, rfl, rfl⟩ := Declarations.scan_of_none scanned
      exact ⟨_, rfl, Declarations.tidy_ofTexts source.texts⟩

/-- The draft of a source that assembles, its listing, and how they are linked. -/
theorem follows_of_ok (assembled : (assembler.assemble source).outcome = .ok image) :
    ∃ (found : Declarations) (draft : Draft) (listing : Listing) (header : Header),
      Declarations.scan source = (none, source.revisited, found) ∧ found.Tidy ∧
      source.revisited.delivered = source.revisited.lines ∧
      source.revisited.lines.map Source.statement? = source.revisited.statements.map some ∧
      draft.Follows found source.revisited.statements listing ∧
      (∀ symbolic ∈ listing.codes, listing.Places symbolic) ∧
      Linked found.scope listing header image ∧ Header.read image = .ok header ∧
      (assembler.assemble source).assembler.toDraft = { draft with writer := .empty } := by
  obtain ⟨found, scanned, tidy⟩ := scan_of_ok assembled
  rcases fed : source.revisited.feed Draft.addLine (fun failure => ⟨none, .unreadable failure⟩)
    (Draft.ofDeclarations found) with ⟨failure, rest, draft⟩
  cases failure with
  | some error =>
      rw [outcome_of_turnedDown scanned fed assembler] at assembled
      cases assembled
  | none =>
      obtain ⟨outcome, left⟩ := attempt_of_read scanned fed assembler
      obtain ⟨delivered, position, accepted⟩ := Source.feedLines_of_feed fed
      obtain ⟨statements, listing, onLines, follows⟩ :=
        Draft.feedLines_follows (Draft.follows_nil tidy) tidy accepted
      obtain ⟨-, rfl⟩ := Source.statements_of_map onLines
      rw [outcome] at assembled
      obtain ⟨places, header, linked, headed⟩ := finish_of_follows follows assembled
      exact ⟨found, draft, listing, header, scanned, tidy, delivered, onLines, follows, places,
        linked, headed, left⟩

/-- Every label operand of an image refers to a label that the second text declares. -/
theorem revised_operands_refer (assembled : (assembler.assemble source).outcome = .ok image) :
    source.revisited.Legible ∧
    ∃ (listing : Listing) (header : Header) (decoded : List Fetched),
      source.revisited.statements.foldlM
        (Listing.add (Declarations.scan source).2.2.scope) .empty = some listing ∧
      image.toList = header.encode ++ listing.program.encode ∧
      Header.read image = .ok header ∧
      Fetch.instructions image.size { image with cursor := Header.length } =
        .ok decoded { image with cursor := image.size } ∧
      decoded.length = listing.codes.length ∧
      ∀ (index : Nat) symbolic fetched, listing.codes[index]? = some symbolic →
        decoded[index]? = some fetched →
        ∀ operand term, (operand, term) ∈ fetched.pairs symbolic → operand.mode = .label →
          ∃ name, term = .label name ∧
            operand.Refers (assembler.assemble source).assembler.labels.toList listing decoded
              image name := by
  obtain ⟨found, draft, listing, header, scanned, -, -, onLines, follows, places, linked, headed,
    left⟩ := follows_of_ok assembled
  have labels : (assembler.assemble source).assembler.labels = draft.labels := by
    rw [left]
  rw [scanned, labels]
  refine ⟨(Source.statements_of_map onLines).1, listing, header, _, follows.built, linked.bytes,
    headed, linked.decodes, ?_, ?_⟩
  · rw [Program.length_locate, Listing.program, Listing.programWith_eq, List.length_map]
  · intro index symbolic fetched written read operand term member isLabel
    exact linked.refers places (fun name => follows.table) written read member isLabel

/-- A label that was found before, and is used but not declared in the second text, is reported
where it is used first, unless another fault comes before that. -/
theorem missed_label_fails (assembler : Assembler) {before after : List (List UInt8)}
    {line : List UInt8} {name : Token}
    (split : source.revisited.delivered = before ++ line :: after)
    (misses : name ∈ source.revisited.missedOn (Declarations.scan source).2.2 line) :
    (∃ error, (assembler.assemble source).outcome = .error error) ∧
    ∀ draft, (Declarations.scan source).1 = none → source.revisited.readFailure = none →
      Draft.Accepts (Declarations.scan source).2.2 source.position source.revisited.lines draft →
      draft.writer.size ≤ Writer.maxImageSize →
      (∀ earlier ∈ before,
        source.revisited.missedOn (Declarations.scan source).2.2 earlier = []) →
      (assembler.assemble source).outcome =
        .error ⟨some (.nth (before.length + 1)), .unresolvedLabel⟩ := by
  obtain ⟨statement, spelled, used, known, missing⟩ := Source.mem_missedOn_iff.mp misses
  constructor
  · cases outcome : (assembler.assemble source).outcome with
    | error error => exact ⟨error, rfl⟩
    | ok image =>
        obtain ⟨found, draft, listing, -, scanned, tidy, whole, onLines, follows, places, -⟩ :=
          follows_of_ok outcome
        rw [scanned] at known
        rw [whole] at split
        obtain ⟨front, back, statements, -⟩ := Source.split_statements onLines split spelled
        have built := follows.built
        rw [statements] at built
        obtain ⟨earlier, symbolic, -, emitted, -, coded⟩ :=
          Listing.codes_of_split built (Statement.makesCode_of_operands used)
        have named := Listing.label_mem_terms emitted (tidy.goodLabels name known) known used
        rw [← (Listing.tracks_of_foldlM follows.built).labelNames] at missing
        exact absurd (places symbolic (List.mem_of_getElem? coded) name named) missing
  · intro draft readOnce whole accepts fits first
    rcases scanned : Declarations.scan source with ⟨failure, rest, found⟩
    rw [scanned] at known readOnce accepts first
    cases readOnce
    obtain ⟨-, rfl, rfl⟩ := Declarations.scan_of_none scanned
    have tidy := Declarations.tidy_ofTexts source.texts
    rcases accepts with ⟨position, accepted⟩
    have fed : source.revisited.feed Draft.addLine (fun failure => ⟨none, .unreadable failure⟩)
        (Draft.ofDeclarations (.ofTexts source.texts)) =
          (none, { source.revisited with position }, draft) :=
      Source.feed_of_feedLines whole accepted
    have delivered : source.revisited.delivered = source.revisited.lines := by
      rw [Source.delivered, whole, Option.isNone_none, if_pos rfl]
    obtain ⟨statements, listing, onLines, follows⟩ :=
      Draft.feedLines_follows (Draft.follows_nil tidy) tidy accepted
    obtain ⟨-, rfl⟩ := Source.statements_of_map onLines
    rw [delivered] at split
    obtain ⟨front, back, statements, onFront⟩ := Source.split_statements onLines split spelled
    obtain ⟨header, unlinked, bytes, cursor, finished⟩ := finish_of_link fits
    rw [(attempt_of_read scanned fed assembler).1, finished]
    have firstUse : ∀ earlier ∈ front, ∀ other ∈ earlier.operands,
        other ∈ (Declarations.ofTexts source.texts).labelNames →
        other ∈ source.revisited.statements.filterMap Statement.declaredLabel? := by
      intro earlier member other usedThere knownThere
      by_contra missed
      have there : some earlier ∈ before.map Source.statement? := by
        rw [onFront]
        exact List.mem_map_of_mem member
      obtain ⟨earlierLine, lineMember, spelledThere⟩ := List.mem_map.mp there
      have missedThere := Source.mem_missedOn_iff.mpr
        ⟨earlier, spelledThere, usedThere, knownThere, missed⟩
      rw [first earlierLine lineMember] at missedThere
      cases missedThere
    have length : before.length = front.length := by
      rw [← List.length_map Source.statement?, onFront, List.length_map]
    rw [length]
    exact follows.link_misses tidy bytes cursor statements used known missing firstUse

/-- A label that was not found before is reported where the second text declares it, unless another
fault comes before that. -/
theorem unknown_label_fails (assembler : Assembler) {before after : List (List UInt8)}
    {line : List UInt8} {name : Token} {rest : List Token}
    (split : source.revisited.delivered = before ++ line :: after)
    (spelled : Source.statement? line = some (.label name rest))
    (unknown : name ∉ (Declarations.scan source).2.2.labelNames) :
    (∃ error, (assembler.assemble source).outcome = .error error) ∧
    ∀ draft, (Declarations.scan source).1 = none →
      Draft.Accepts (Declarations.scan source).2.2 source.position before draft →
      Declarations.isName name = true → draft.writer.size < Writer.maxImageSize →
      (assembler.assemble source).outcome =
        .error ⟨some (.nth (before.length + 1)), .unresolvedLabel⟩ := by
  constructor
  · cases outcome : (assembler.assemble source).outcome with
    | error error => exact ⟨error, rfl⟩
    | ok image =>
        obtain ⟨found, draft, listing, -, scanned, -, whole, onLines, follows, -⟩ :=
          follows_of_ok outcome
        rw [scanned] at unknown
        rw [whole] at split
        obtain ⟨front, back, statements, -⟩ := Source.split_statements onLines split spelled
        have declared : name ∈ listing.labelNames := by
          rw [(Listing.tracks_of_foldlM follows.built).labelNames, statements]
          exact List.mem_filterMap.mpr
            ⟨_, List.mem_append_right _ List.mem_cons_self, rfl⟩
        exact absurd (follows.recorded declared) unknown
  · intro draft readOnce accepts good room
    rcases scanned : Declarations.scan source with ⟨failure, rewound, found⟩
    rw [scanned] at unknown readOnce accepts
    cases readOnce
    obtain ⟨-, rfl, rfl⟩ := Declarations.scan_of_none scanned
    have tidy := Declarations.tidy_ofTexts source.texts
    rcases accepts with ⟨behind, accepted⟩
    obtain ⟨statements, listing, onLines, follows⟩ :=
      Draft.feedLines_follows (Draft.follows_nil tidy) tidy accepted
    rcases follows.agreed with ⟨declared, agreed⟩
    have notInTable : findLabel? draft.labels name = none := by
      rw [agreed.findLabel?]
      exact List.idxOf?_eq_none_iff.mpr unknown
    exact outcome_of_statement scanned split ⟨behind, accepted⟩ spelled
      (Draft.addStatement_of_unknown rest good notInTable room) assembler

/-- The first text of a source gives the names of its labels, the second one the code. If the
source assembles, every label operand of its image has the address at which the second text has
the label that is written there, where an instruction begins or the image ends. If the second text
uses a label of the first that it does not declare, the source does not assemble, and unless
another fault comes before that, the error is on the line of the first such use; if it declares a
label that the first does not, on the line of that declaration. -/
theorem revised_labels_resolve (assembler : Assembler) (source : Source) :
    let found := (Declarations.scan source).2.2
    let second := source.revisited
    let attempt := assembler.assemble source
    (∀ image, attempt.outcome = .ok image →
      second.Legible ∧ ∃ (listing : Listing) (header : Header) (decoded : List Fetched),
        second.statements.foldlM (Listing.add found.scope) .empty = some listing ∧
        image.toList = header.encode ++ listing.program.encode ∧
        Header.read image = .ok header ∧
        Fetch.instructions image.size { image with cursor := Header.length } =
          .ok decoded { image with cursor := image.size } ∧
        decoded.length = listing.codes.length ∧
        ∀ (index : Nat) symbolic fetched, listing.codes[index]? = some symbolic →
          decoded[index]? = some fetched →
          ∀ operand term, (operand, term) ∈ fetched.pairs symbolic → operand.mode = .label →
            ∃ name, term = .label name ∧
              operand.Refers attempt.assembler.labels.toList listing decoded image name) ∧
    (∀ before line after name, second.delivered = before ++ line :: after →
      name ∈ second.missedOn found line →
      (∃ error, attempt.outcome = .error error) ∧
      ∀ draft, (Declarations.scan source).1 = none → second.readFailure = none →
        Draft.Accepts found second.position second.lines draft →
        draft.writer.size ≤ Writer.maxImageSize →
        (∀ earlier ∈ before, second.missedOn found earlier = []) →
        attempt.outcome = .error ⟨some (.nth (before.length + 1)), .unresolvedLabel⟩) ∧
    (∀ before line after name rest, second.delivered = before ++ line :: after →
      Source.statement? line = some (.label name rest) → name ∉ found.labelNames →
      (∃ error, attempt.outcome = .error error) ∧
      ∀ draft, (Declarations.scan source).1 = none →
        Draft.Accepts found second.position before draft →
        Declarations.isName name = true → draft.writer.size < Writer.maxImageSize →
        attempt.outcome = .error ⟨some (.nth (before.length + 1)), .unresolvedLabel⟩) := by
  intro found second attempt
  refine ⟨?_, ?_, ?_⟩
  · exact fun image assembled => revised_operands_refer assembled
  · exact fun before line after name split misses => missed_label_fails assembler split misses
  · exact fun before line after name rest split spelled unknown =>
      unknown_label_fails assembler split spelled unknown

/-! ### A label that has moved, one that is gone and one that is new -/

namespace Revision

def bytesOf (text : String) : List UInt8 := text.toUTF8.data.toList

/-- A text that is found to be another when it is read again. -/
def revise (first second : String) : Source :=
  { Source.ofString first with revised := some (bytesOf second) }

def moved : Source := revise "a: jmp a\n" "nop\na: jmp a\n"

def gone : Source := revise "a: nop\n" "nop\njmp a\n"

def added : Source := revise "nop\n" "nop\nb: nop\n"

/-- The draft that the second reading comes to if it turns down none of the lines. -/
def draftOf (source : Source) (lines : List (List UInt8)) : Option Error × Nat × Draft :=
  Source.feedLines Draft.addLine ⟨none, .unreadable .invalidData⟩ lines source.revisited.position
    (Draft.ofDeclarations (Declarations.scan source).2.2)

theorem accepts_draftOf {lines : List (List UInt8)} (accepted : (draftOf source lines).1 = none) :
    Draft.Accepts (Declarations.scan source).2.2 source.revisited.position lines
      (draftOf source lines).2.2 :=
  ⟨_, Prod.ext accepted rfl⟩

end Revision

open Revision

theorem label_moved_gone_or_new :
    (∃ image listing decoded symbolic fetched, (empty.assemble moved).outcome = .ok image ∧
      image.toList.drop Header.length = [32, 18, 3, 29, 0] ∧
      Fetch.instructions image.size { image with cursor := Header.length } =
        .ok decoded { image with cursor := image.size } ∧
      listing.codes[1]? = some symbolic ∧ decoded[1]? = some fetched ∧
      ∀ operand term, (operand, term) ∈ fetched.pairs symbolic → operand.mode = .label →
        ∃ name, term = .label name ∧ operand.Refers
          (empty.assemble moved).assembler.labels.toList listing decoded image name) ∧
    (empty.assemble gone).outcome = .error ⟨some 2, .unresolvedLabel⟩ ∧
    (empty.assemble added).outcome = .error ⟨some 2, .unresolvedLabel⟩ := by
  refine ⟨?_, ?_, ?_⟩
  · have code : ((empty.assemble moved).outcome.toOption.map fun image =>
        image.toList.drop Header.length) = some [32, 18, 3, 29, 0] := by
      decide +kernel
    have two : moved.revisited.statements.countP Statement.makesCode = 2 := by
      decide +kernel
    cases outcome : (empty.assemble moved).outcome with
    | error error =>
        rw [outcome] at code
        cases code
    | ok image =>
        rw [outcome] at code
        obtain ⟨-, listing, -, decoded, built, -, -, reads, length, refers⟩ :=
          (revised_labels_resolve empty moved).1 image outcome
        have codes : listing.codes.length = 2 := (Listing.tracks_of_foldlM built).codes.trans two
        have inListing : 1 < listing.codes.length := by
          rw [codes]
          decide
        have inDecoded : 1 < decoded.length := by
          rwa [length]
        have written := List.getElem?_eq_getElem inListing
        have read := List.getElem?_eq_getElem inDecoded
        exact ⟨image, listing, decoded, _, _, rfl, Option.some.inj code, reads, written, read,
          refers 1 _ _ written read⟩
  · obtain ⟨-, missed, -⟩ := revised_labels_resolve empty gone
    have split : gone.revisited.delivered =
        [bytesOf "nop\n"] ++ bytesOf "jmp a\n" :: [] := by
      decide +kernel
    have misses : "a".toList ∈ gone.revisited.missedOn (Declarations.scan gone).2.2
        (bytesOf "jmp a\n") := by
      decide +kernel
    exact (missed _ _ _ _ split misses).2 _ (by decide +kernel) rfl
      (accepts_draftOf (by decide +kernel)) (by decide +kernel) (by decide +kernel)
  · obtain ⟨-, -, unknown⟩ := revised_labels_resolve empty added
    have split : added.revisited.delivered =
        [bytesOf "nop\n"] ++ bytesOf "b: nop\n" :: [] := by
      decide +kernel
    have declares : Source.statement? (bytesOf "b: nop\n") =
        some (.label "b".toList ["nop".toList]) := by
      decide +kernel
    exact (unknown _ _ _ _ _ split declares (by decide +kernel)).2 _ (by decide +kernel)
      (accepts_draftOf (by decide +kernel)) (by decide +kernel) (by decide +kernel)

end Assembler

end WordMachine
