import WordMachine.Proofs.Assembly.Acceptance
import WordMachine.Proofs.Assembly.Revised
import WordMachine.Proofs.Assembly.Rewinding
import WordMachine.Proofs.Assembly.Texts

/-!
# Assembling statements

Nothing of a line matters but its statement. What a source comes to is therefore what its
statements come to, declared one after the other (`Declarations.ofStatements`) and then encoded
one after the other (`Draft.addAll`): a text assembles if its lines have statements that are all
encoded and whose draft makes an image (`Assembler.statements_of_assembled` and
`Assembler.assemble_of_statements`).
-/

namespace WordMachine

namespace Assembly

namespace Declarations

/-- What statements declare, each on a line of its own. -/
def ofStatements (statements : List Statement) : Declarations :=
  statements.foldl (fun found statement => found.nextLine.addStatement statement) empty

/-- The last statement is declared on the line behind the others. -/
theorem ofStatements_concat (front : List Statement) (last : Statement) :
    ofStatements (front ++ [last]) = (ofStatements front).nextLine.addStatement last :=
  List.foldl_concat ..

theorem ofTexts_eq_ofStatements {texts : List (List Char)} {statements : List Statement}
    (spelled : texts.map Statement.ofText? = statements.map some) :
    ofTexts texts = ofStatements statements := by
  have anywhere (start : Declarations) : texts.foldl addLine start =
      statements.foldl (fun found statement => found.nextLine.addStatement statement) start := by
    induction texts generalizing statements start with
    | nil =>
        rw [List.map_nil, eq_comm, List.map_eq_nil_iff] at spelled
        rw [spelled]
        rfl
    | cons text rest ih =>
        cases statements with
        | nil => cases spelled
        | cons statement later =>
            rw [List.map_cons, List.map_cons, List.cons.injEq] at spelled
            rw [List.foldl_cons, List.foldl_cons, addLine_eq, spelled.1]
            exact ih spelled.2 _
  exact anywhere empty

end Declarations

namespace Draft

variable {draft final : Draft}

/-- Encodes a statement on the next line. -/
def addNext (statement : Statement) : Drafting Unit := do
  modify fun draft => { draft with line := draft.line + 1 }
  addStatement statement

/-- Encodes statements, each on a line of its own. -/
def addAll (statements : List Statement) : Drafting Unit := statements.forM addNext

theorem addNext_eq (statement : Statement) :
    addNext statement draft = addStatement statement { draft with line := draft.line + 1 } := rfl

theorem addAll_cons (statement : Statement) (rest : List Statement) :
    addAll (statement :: rest) draft =
      (addNext statement >>= fun _ => addAll rest) draft := rfl

/-- The first of the statements that are encoded leaves a draft for the others. -/
theorem addAll_cons_iff {statement : Statement} {rest : List Statement} :
    addAll (statement :: rest) draft = .ok () final ↔
      ∃ middle, addNext statement draft = .ok () middle ∧ addAll rest middle = .ok () final := by
  rw [addAll_cons, bind_eq_ok_iff]
  constructor
  · rintro ⟨_, middle, first, later⟩
    exact ⟨middle, first, later⟩
  · rintro ⟨middle, first, later⟩
    exact ⟨(), middle, first, later⟩

theorem addAll_append_iff {front back : List Statement} :
    addAll (front ++ back) draft = .ok () final ↔
      ∃ middle, addAll front draft = .ok () middle ∧ addAll back middle = .ok () final := by
  induction front generalizing draft with
  | nil =>
      constructor
      · exact fun encoded => ⟨draft, rfl, encoded⟩
      · rintro ⟨_, same, encoded⟩
        cases same
        exact encoded
  | cons statement front ih =>
      rw [List.cons_append, addAll_cons_iff]
      simp only [ih, addAll_cons_iff]
      constructor
      · rintro ⟨first, outcome, middle, rest, encoded⟩
        exact ⟨middle, ⟨first, outcome, rest⟩, encoded⟩
      · rintro ⟨middle, ⟨first, outcome, rest⟩, encoded⟩
        exact ⟨first, outcome, middle, rest, encoded⟩

/-- A line is encoded if its statement is. -/
theorem addLine_eq_ok_iff {text : List Char} :
    addLine text draft = .ok () final ↔
      ∃ statement, Statement.ofText? text = some statement ∧
        addNext statement draft = .ok () final := by
  have unfolded : addLine text draft = ((addText text).adaptExcept fun cause =>
      (⟨some (draft.line + 1), cause⟩ : Error)) { draft with line := draft.line + 1 } := rfl
  rw [unfolded, addText_eq, EStateM.adaptExcept]
  cases Statement.ofText? text with
  | none =>
      constructor
      · intro encoded
        cases encoded
      · rintro ⟨_, none, -⟩
        cases none
  | some statement =>
      simp only [addNext_eq]
      constructor
      · intro encoded
        refine ⟨statement, rfl, ?_⟩
        cases outcome : addStatement statement { draft with line := draft.line + 1 } with
        | ok _ _ =>
            rw [outcome] at encoded
            cases encoded
            rfl
        | error _ _ =>
            rw [outcome] at encoded
            cases encoded
      · rintro ⟨_, same, encoded⟩
        cases same
        rw [encoded]

/-- Lines are encoded if they have statements and these are. -/
theorem feedLines_addLine_iff {unreadable : Error} {lines : List (List UInt8)} {position : Nat} :
    (∃ behind, Source.feedLines addLine unreadable lines position draft = (none, behind, final)) ↔
      ∃ statements : List Statement, lines.map Source.statement? = statements.map some ∧
        addAll statements draft = .ok () final := by
  induction lines generalizing position draft with
  | nil =>
      constructor
      · rintro ⟨_, same⟩
        cases same
        exact ⟨[], rfl, rfl⟩
      · rintro ⟨statements, none, encoded⟩
        rw [List.map_nil, eq_comm, List.map_eq_nil_iff] at none
        rw [none] at encoded
        cases encoded
        exact ⟨position, rfl⟩
  | cons line rest ih =>
      constructor
      · rintro ⟨behind, fed⟩
        rw [Source.feedLines] at fed
        cases isText : Line.text? line with
        | none =>
            rw [isText] at fed
            cases fed
        | some text =>
            rw [isText] at fed
            cases outcome : addLine text draft with
            | error error middle =>
                simp only [outcome] at fed
                cases fed
            | ok _ middle =>
                simp only [outcome] at fed
                obtain ⟨statement, spelled, first⟩ := addLine_eq_ok_iff.mp outcome
                obtain ⟨statements, others, later⟩ := ih.mp ⟨behind, fed⟩
                refine ⟨statement :: statements, ?_, addAll_cons_iff.mpr ⟨middle, first, later⟩⟩
                rw [List.map_cons, List.map_cons, others, Source.statement?, isText,
                  Option.bind_some, spelled]
      · rintro ⟨statements, spelled, encoded⟩
        cases statements with
        | nil => cases spelled
        | cons statement statements =>
            rw [List.map_cons, List.map_cons, List.cons.injEq] at spelled
            rcases spelled with ⟨first, others⟩
            rw [addAll_cons_iff] at encoded
            rcases encoded with ⟨middle, here, later⟩
            rw [Source.statement?, Option.bind_eq_some_iff] at first
            rcases first with ⟨text, isText, spelled⟩
            obtain ⟨behind, fed⟩ := ih.mpr ⟨statements, others, later⟩
            refine ⟨behind, ?_⟩
            rw [Source.feedLines, isText]
            simp only [addLine_eq_ok_iff.mpr ⟨statement, spelled, here⟩]
            exact fed

end Draft

namespace Source

/-- Every line of a text can be read. -/
theorem readable_ofString (text : String) : (ofString text).Readable := by
  intro line member
  rw [lines_ofString, List.mem_map] at member
  rcases member with ⟨chars, -, rfl⟩
  rw [Line.text?_bytes]
  rfl

/-- The first reading of a text does not fail. -/
theorem scan_ofString (text : String) :
    Declarations.scan (ofString text) =
      (none, (ofString text).revisited, .ofTexts (ofString text).texts) :=
  Declarations.scan_of_readable rfl rfl rfl (readable_ofString text)

theorem map_ofText? {lines : List (List UInt8)} {statements : List Statement}
    (onLines : lines.map statement? = statements.map some) :
    (lines.filterMap Line.text?).map Statement.ofText? = statements.map some := by
  induction lines generalizing statements with
  | nil => exact onLines
  | cons line rest ih =>
      cases statements with
      | nil => cases onLines
      | cons statement later =>
          rw [List.map_cons, List.map_cons, List.cons.injEq, statement?,
            Option.bind_eq_some_iff] at onLines
          rcases onLines with ⟨⟨text, isText, spelled⟩, others⟩
          rw [List.filterMap_cons, isText, List.map_cons, spelled, List.map_cons, ih others]

end Source

end Assembly

open Assembly

namespace Assembler

variable {text : String} {statements : List Statement} {draft : Draft} {image : Image}

/-- A text whose statements are encoded comes to what is finished of their draft, and leaves
the tables of the draft. -/
theorem assemble_of_statements (assembler : Assembler)
    (onLines : (Source.ofString text).lines.map Source.statement? = statements.map some)
    (encoded : Draft.addAll statements (.ofDeclarations (.ofStatements statements)) =
      .ok () draft) :
    (assembler.assemble (.ofString text)).outcome = (finish draft).1 ∧
      (assembler.assemble (.ofString text)).assembler.toDraft =
        { draft with writer := .empty } := by
  have scanned := Source.scan_ofString text
  rw [Source.texts, Declarations.ofTexts_eq_ofStatements (Source.map_ofText? onLines)] at scanned
  obtain ⟨behind, fed⟩ : ∃ behind, Source.feedLines Draft.addLine
      ⟨none, .unreadable .invalidData⟩ (Source.ofString text).lines 0
      (.ofDeclarations (.ofStatements statements)) = (none, behind, draft) :=
    Draft.feedLines_addLine_iff.mpr ⟨statements, onLines, encoded⟩
  have whole : (Source.ofString text).revisited.readFailure = none := rfl
  exact attempt_of_read scanned (Source.feed_of_feedLines whole fed) assembler

/-- A text comes to the cause for which its first bad statement is turned down, with the number of
the line. -/
theorem assemble_of_turnedDown (assembler : Assembler) {before after : List Statement}
    {statement : Statement} {final : Draft} {cause : Cause}
    (onLines : (Source.ofString text).lines.map Source.statement? =
      (before ++ statement :: after).map some)
    (encoded :
      Draft.addAll before (.ofDeclarations (.ofStatements (before ++ statement :: after))) =
        .ok () draft)
    (turnedDown : Draft.addStatement statement { draft with line := draft.line + 1 } =
      .error cause final) :
    (assembler.assemble (.ofString text)).outcome =
      .error ⟨some (.nth (before.length + 1)), cause⟩ := by
  have scanned := Source.scan_ofString text
  have found : Declarations.ofTexts (Source.ofString text).texts =
      .ofStatements (before ++ statement :: after) :=
    Declarations.ofTexts_eq_ofStatements (Source.map_ofText? onLines)
  rw [List.map_append, List.map_cons] at onLines
  obtain ⟨front, others, split, onFront, onOthers⟩ := List.map_eq_append_iff.mp onLines
  obtain ⟨line, back, rfl, spelled, -⟩ := List.map_eq_cons_iff.mp onOthers
  have accepts : Draft.Accepts (.ofTexts (Source.ofString text).texts) 0 front draft := by
    rw [found]
    exact Draft.feedLines_addLine_iff.mpr ⟨before, onFront, encoded⟩
  have length : front.length = before.length := by
    rw [← List.length_map Source.statement?, onFront, List.length_map]
  rw [← length]
  exact outcome_of_statement scanned split accepts spelled turnedDown assembler

/-- A text that assembles has statements that are encoded, and their draft makes the image. -/
theorem statements_of_assembled {assembler : Assembler}
    (assembled : (assembler.assemble (.ofString text)).outcome = .ok image) :
    ∃ (statements : List Statement) (draft : Draft),
      (Source.ofString text).lines.map Source.statement? = statements.map some ∧
      Draft.addAll statements (.ofDeclarations (.ofStatements statements)) = .ok () draft ∧
      (finish draft).1 = .ok image ∧
      (assembler.assemble (.ofString text)).assembler.toDraft =
        { draft with writer := .empty } := by
  have scanned := Source.scan_ofString text
  rcases fed : (Source.ofString text).revisited.feed Draft.addLine
    (fun failure => ⟨none, .unreadable failure⟩)
    (.ofDeclarations (.ofTexts (Source.ofString text).texts)) with ⟨failure, rest, draft⟩
  cases failure with
  | some error =>
      rw [outcome_of_turnedDown scanned fed] at assembled
      cases assembled
  | none =>
      obtain ⟨outcome, tables⟩ := attempt_of_read scanned fed assembler
      obtain ⟨statements, onLines, encoded⟩ :=
        Draft.feedLines_addLine_iff.mp (Source.feedLines_of_feed fed).2
      have same : (Source.ofString text).revisited.lines = (Source.ofString text).lines := rfl
      rw [same] at onLines
      rw [Source.texts,
        Declarations.ofTexts_eq_ofStatements (Source.map_ofText? onLines)] at encoded
      rw [outcome] at assembled
      exact ⟨statements, draft, onLines, encoded, assembled, tables⟩

/-- Statements that are encoded have a listing that their draft matches. -/
theorem encodes_of_statements
    (onLines : (Source.ofString text).lines.map Source.statement? = statements.map some)
    (encoded : Draft.addAll statements (.ofDeclarations (.ofStatements statements)) =
      .ok () draft) :
    ∃ listing, draft.Encodes (.ofTexts (Source.ofString text).texts) (Source.ofString text).texts
      statements listing := by
  have onTexts := Source.map_ofText? onLines
  obtain ⟨behind, fed⟩ : ∃ behind, Source.feedLines Draft.addLine
      ⟨none, .unreadable .invalidData⟩ (Source.ofString text).lines 0
      (.ofDeclarations (.ofStatements statements)) = (none, behind, draft) :=
    Draft.feedLines_addLine_iff.mpr ⟨statements, onLines, encoded⟩
  rw [← Declarations.ofTexts_eq_ofStatements onTexts] at fed
  have whole : (Source.ofString text).readFailure = none := rfl
  obtain ⟨others, listing, encodes⟩ := Draft.feed_encodes (Source.readable_ofString text) rfl
    (Source.feed_of_feedLines whole fed)
  obtain rfl : others = statements := by
    have same : others.map some = statements.map some := encodes.legible.symm.trans onTexts
    exact (List.map_inj_right fun _ _ equal => Option.some.inj equal).mp same
  exact ⟨listing, encodes⟩

/-- What a text that assembles comes to: statements that are encoded, the draft that they leave,
and the image of the listing that the draft matches. -/
structure Spells (assembler : Assembler) (text : String) (statements : List Statement)
    (draft : Draft) (listing : Listing) (header : Header) (image : Image) : Prop where
  onLines : (Source.ofString text).lines.map Source.statement? = statements.map some
  encoded : Draft.addAll statements (.ofDeclarations (.ofStatements statements)) = .ok () draft
  encodes : draft.Encodes (.ofTexts (Source.ofString text).texts) (Source.ofString text).texts
    statements listing
  assembled : Assembled (.ofString text) listing header image
  tables : (assembler.assemble (.ofString text)).assembler.toDraft = { draft with writer := .empty }

theorem spells_of_assembled {assembler : Assembler}
    (assembled : (assembler.assemble (.ofString text)).outcome = .ok image) :
    ∃ statements draft listing header,
      assembler.Spells text statements draft listing header image := by
  obtain ⟨statements, draft, onLines, encoded, finished, tables⟩ :=
    statements_of_assembled assembled
  obtain ⟨listing, encodes⟩ := encodes_of_statements onLines encoded
  rcases finish_of_encodes (Source.readable_ofString text) rfl encodes with
    ⟨error, failed, -⟩ | ⟨done, header, outcome, spelled⟩
  · rw [finished] at failed
    cases failed
  · rw [finished] at outcome
    cases outcome
    exact ⟨statements, draft, listing, header, onLines, encoded, encodes, spelled, tables⟩

/-- Statements that are encoded assemble if their code fits an image. -/
theorem spells_of_statements (assembler : Assembler)
    (onLines : (Source.ofString text).lines.map Source.statement? = statements.map some)
    (encoded : Draft.addAll statements (.ofDeclarations (.ofStatements statements)) =
      .ok () draft)
    (fits : draft.writer.size ≤ Writer.maxImageSize) :
    ∃ listing header image, (assembler.assemble (.ofString text)).outcome = .ok image ∧
      assembler.Spells text statements draft listing header image := by
  obtain ⟨listing, encodes⟩ := encodes_of_statements onLines encoded
  obtain ⟨outcome, tables⟩ := assembler.assemble_of_statements onLines encoded
  rcases finish_of_encodes (Source.readable_ofString text) rfl encodes with
    ⟨error, -, -, large⟩ | ⟨image, header, finished, spelled⟩
  · exact absurd fits (Nat.not_le.mpr large)
  · exact ⟨listing, header, image, outcome.trans finished, onLines, encoded, encodes, spelled,
      tables⟩

namespace Spells

variable {assembler : Assembler} {listing : Listing} {header : Header}
  (spelled : assembler.Spells text statements draft listing header image)

include spelled

theorem statements_eq : (Source.ofString text).statements = statements :=
  (Source.statements_of_map spelled.onLines).2

theorem knows : draft.Knows (.ofStatements statements) listing := by
  have known := spelled.encodes.agreed.knows
  rwa [spelled.encodes.scope rfl] at known

theorem built :
    statements.foldlM (Listing.add (.ofStatements statements)) .empty = some listing := by
  have known := spelled.encodes.built
  rwa [spelled.encodes.scope rfl] at known

theorem sound : ∀ symbolic ∈ listing.codes, symbolic.Sound (.ofStatements statements) := by
  intro symbolic member
  have known := spelled.encodes.agreed.sound symbolic (Listing.mem_codes_iff.mp member)
  rwa [spelled.encodes.scope rfl] at known

theorem labelNames : draft.labelNames = listing.labelNames :=
  spelled.knows.labels.trans (Listing.tracks_of_foldlM spelled.built).labelNames.symm

theorem codeSize : draft.writer.code.size = listing.program.size := by
  have size := spelled.encodes.agreed.writer_size
  rw [Writer.size] at size
  rw [Listing.program, Listing.size_programWith]
  omega

/-- A label that an operand names has a position of one word. -/
theorem position_of_operand {statement : Statement} (member : statement ∈ statements)
    {token : Token} (written : token ∈ statement.operands) {index : Nat}
    (found : draft.labelNames.idxOf? token = some index) : index < 0x10000 := by
  obtain ⟨before, after, rfl⟩ := List.append_of_mem member
  obtain ⟨earlier, symbolic, -, emitted, -, coded⟩ :=
    Listing.codes_of_split spelled.built (Statement.makesCode_of_operands written)
  have labels : draft.labelNames = (Scope.ofStatements (before ++ statement :: after)).labels :=
    spelled.knows.labels
  have known : token ∈ (Scope.ofStatements (before ++ statement :: after)).labels :=
    labels ▸ mem_of_idxOf? found
  have good : Declarations.isName token = true := by
    refine (Declarations.tidy_ofTexts (Source.ofString text).texts).goodLabels token ?_
    rwa [← spelled.encodes.scope rfl] at known
  have named := Listing.label_mem_terms emitted good known written
  obtain ⟨position, here, small⟩ :=
    (spelled.sound symbolic (List.mem_of_getElem? coded)).label named
  rw [← labels, found] at here
  cases here
  exact small

end Spells

end Assembler

end WordMachine
