import WordMachine.Proofs.Assembly.Contributions
import WordMachine.Proofs.Assembly.Linking
import WordMachine.Proofs.Headers

/-!
# Assembled images

The readings, the writer and the linker put together: an attempt to assemble a steady
source fails for a cause that lies in the source, or leaves the image that its listing
spells and tables that match the listing (`assemble_cases`).
-/

namespace WordMachine.Assembly

/-- Whether an image is a header and the program of a listing, the operands of every instruction
sound and every label within reach. -/
structure Linked (scope : Scope) (listing : Listing) (header : Header) (image : Image) : Prop where
  sound : ∀ symbolic, Item.code symbolic ∈ listing.items → symbolic.Sound scope
  inReach : ∀ name ∈ listing.labelNames, listing.address name < 0x10000
  bytes : image.toList = header.encode ++ listing.program.encode

namespace Linked

variable {scope : Scope} {listing : Listing} {header : Header} {image : Image}

/-- Every instruction of a linked listing can be read back. -/
theorem wellFormed (linked : Linked scope listing header image) :
    ∀ instruction ∈ listing.program, instruction.WellFormed := by
  intro instruction member
  obtain ⟨item, itemMember, resolved⟩ := List.mem_filterMap.mp member
  cases item with
  | label name => cases resolved
  | code symbolic =>
      cases resolved
      exact (linked.sound symbolic itemMember).wellFormed _

theorem size (linked : Linked scope listing header image) :
    image.size = Header.length + listing.program.size := by
  rw [← Store.length_toList, linked.bytes, List.length_append, Header.length_encode,
    Program.size]

/-- A label has the address of an instruction, or of the end of the image. -/
theorem address_boundary (linked : Linked scope listing header image) {name : Token}
    (member : name ∈ listing.labelNames) :
    (UInt16.ofNat (listing.address name)).toNat ∈ listing.program.starts Header.length ∨
      (UInt16.ofNat (listing.address name)).toNat = image.size := by
  rw [UInt16.toNat_ofNat_of_lt' (linked.inReach name member), linked.size]
  exact listing.address_mem_starts member

/-- Behind the header of a linked image stands its program. -/
theorem drop_header (linked : Linked scope listing header image) :
    image.toList.drop Header.length = listing.program.encode := by
  rw [linked.bytes, ← header.length_encode, List.drop_left]

/-- Reading a linked image from its first instruction on gives its program. -/
theorem decodes (linked : Linked scope listing header image) :
    Fetch.instructions image.size { image with cursor := Header.length } =
      .ok (listing.program.locate Header.length) { image with cursor := image.size } := by
  have inside : Header.length ≤ image.size := by
    rw [linked.size]
    exact Nat.le_add_right _ _
  have enough : listing.program.length ≤ image.size := by
    rw [linked.size]
    exact Nat.le_add_left_of_le listing.program.length_le_size
  exact Fetch.instructions_of_ahead linked.wellFormed linked.drop_header inside enough

end Linked

/-- Whether an image is what a source spells: a header and the program of its listing. -/
structure Assembled (source : Source) (listing : Listing) (header : Header) (image : Image) :
    Prop extends Linked (.ofStatements source.statements) listing header image where
  legible : source.Legible
  listed : Listing.ofStatements? source.statements = some listing
  labelNames : listing.labelNames = source.statements.filterMap Statement.declaredLabel?
  magic : header.magic = Header.expectedMagic
  codeSize : header.codeSize.toNat = listing.program.size
  fits : Header.length + listing.program.size ≤ Writer.maxImageSize
  dataSize : header.dataSize =
    finalSetting "datapagesize" Draft.defaultDataSize source.statements
  stackSize : header.stackSize =
    finalSetting "stacksize" Draft.defaultStackSize source.statements

/-- The code ends where the image does. -/
theorem Assembled.codeEnd {source : Source} {listing : Listing} {header : Header} {image : Image}
    (assembled : Assembled source listing header image) : header.codeEnd = image.size := by
  have fits := assembled.fits
  rw [assembled.size, Header.codeEnd, Header.addSizes, assembled.codeSize,
    Header.sizeLimit, UInt64.size]
  rw [Writer.maxImageSize] at fits
  omega

/-- A label operand of a sound instruction has a position of one word. -/
theorem Symbolic.Sound.label {scope : Scope} {symbolic : Symbolic} (sound : symbolic.Sound scope)
    {name : Token} (member : .label name ∈ symbolic.terms) : (Term.label name).Sound scope := by
  simp only [Symbolic.terms, List.mem_cons, List.not_mem_nil, or_false] at member
  rcases member with isDst | isSrc
  · have dst := sound.dst
    rw [← isDst] at dst
    split at dst
    · exact dst.1
    · cases dst
  · have src := sound.src
    rw [← isSrc] at src
    split at src
    · exact src
    · cases src

/-- Whether a listing has every label that an instruction names. -/
def Listing.Places (listing : Listing) (symbolic : Symbolic) : Prop :=
  ∀ name, .label name ∈ symbolic.terms → name ∈ listing.labelNames

/-! ## Linking a draft -/

namespace Draft.Matches

open Linking

variable {found before : Declarations} {listing : Listing} {draft : Draft} {symbolic : Symbolic}
  {header : Header} {image : Image}

/-- The table has the address of a label where the operand says, if the label has been placed. -/
theorem address_of_sound (agreed : draft.Matches found before listing) {name : Token}
    (sound : (Term.label name).Sound found.scope) :
    draft.labels[(found.scope.index name).toNat]?.bind Label.address = listing.placed? name := by
  rcases sound with ⟨index, place, small⟩
  obtain ⟨inside, here, -⟩ := List.idxOf?_eq_some_iff.mp place
  have inTable : index < found.labels.toList.length := by
    rwa [← List.length_map]
  have named : found.labels.toList[index].name = name := by
    rw [← here]
    exact (List.getElem_map Label.name).symm
  rw [Scope.index, place, Option.getD_some, UInt16.toNat_ofNat_of_lt' small,
    ← Array.getElem?_toList, agreed.labels, List.getElem?_map, List.getElem?_eq_getElem inTable,
    Option.map_some, Option.bind_some, named]

theorem settled (agreed : draft.Matches found before listing)
    (sound : symbolic.Sound found.scope) {term : Term} (member : term ∈ symbolic.terms)
    (placed : ∀ name, term = .label name → name ∈ listing.labelNames) :
    Settled found.scope draft.labels (fun name => UInt16.ofNat (listing.address name)) term := by
  cases term with
  | plain argument => trivial
  | label name =>
      rw [Settled, agreed.address_of_sound (sound.label member), Listing.placed?,
        if_pos (placed name rfl)]

theorem stranded (agreed : draft.Matches found before listing)
    (sound : symbolic.Sound found.scope) {name : Token} (member : .label name ∈ symbolic.terms)
    (missing : name ∉ listing.labelNames) :
    Stranded found.scope draft.labels (.label name) := by
  rw [Stranded, agreed.address_of_sound (sound.label member), Listing.placed?, if_neg missing]

theorem settled_of_places (agreed : draft.Matches found before listing)
    (sound : symbolic.Sound found.scope) (places : listing.Places symbolic) :
    Settled found.scope draft.labels (fun name => UInt16.ofNat (listing.address name))
        symbolic.dst ∧
      Settled found.scope draft.labels (fun name => UInt16.ofNat (listing.address name))
        symbolic.src := by
  have dst : symbolic.dst ∈ symbolic.terms := by simp [Symbolic.terms]
  have src : symbolic.src ∈ symbolic.terms := by simp [Symbolic.terms]
  exact ⟨agreed.settled sound dst fun name same => places name (same ▸ dst),
    agreed.settled sound src fun name same => places name (same ▸ src)⟩

theorem strands_of_missing (agreed : draft.Matches found before listing)
    (sound : symbolic.Sound found.scope) (missing : ¬ listing.Places symbolic) :
    Strands found.scope draft.labels (fun name => UInt16.ofNat (listing.address name))
      symbolic := by
  simp only [Listing.Places, not_forall] at missing
  obtain ⟨name, member, unplaced⟩ := missing
  have dst : symbolic.dst ∈ symbolic.terms := by simp [Symbolic.terms]
  by_cases placed : ∀ other, symbolic.dst = .label other → other ∈ listing.labelNames
  · -- The destination is settled, so the label that is missing stands in the source.
    refine Or.inr ⟨agreed.settled sound dst placed, ?_⟩
    have isSrc : symbolic.src = .label name := by
      simp only [Symbolic.terms, List.mem_cons, List.not_mem_nil, or_false] at member
      rcases member with isDst | isSrc
      · exact absurd (placed name isDst.symm) unplaced
      · exact isSrc.symm
    rw [isSrc]
    exact agreed.stranded sound member unplaced
  · simp only [not_forall] at placed
    obtain ⟨other, isDst, otherUnplaced⟩ := placed
    rw [Strands, isDst]
    exact Or.inl (agreed.stranded sound (isDst ▸ dst) otherUnplaced)

/-- What linking starts from: the code with positions, and steps enough for all of it. -/
theorem unlinked (agreed : draft.Matches found before listing)
    (bytes : image.toList = header.encode ++ draft.writer.code.toList) :
    image.toList =
        header.encode ++ Program.encode (listing.items.filterMap
          (Item.instruction? found.scope.index)) ∧
      Listing.size listing.items ≤ image.size := by
  rw [agreed.code] at bytes
  refine ⟨bytes, ?_⟩
  rw [← Store.length_toList, bytes, List.length_append, ← Program.size, Listing.size_programWith]
  omega

/-- Linking the finished image of a draft puts the program of the listing into it, if every label
that is named has been placed. -/
theorem link_places (agreed : draft.Matches found before listing)
    (places : ∀ symbolic ∈ listing.codes, listing.Places symbolic)
    (bytes : image.toList = header.encode ++ draft.writer.code.toList)
    (cursor : image.cursor = Header.length) :
    ∃ linked, draft.link image = .ok linked ∧
      linked.toList = header.encode ++ listing.program.encode := by
  obtain ⟨unlinked, enough⟩ := agreed.unlinked bytes
  rw [← header.length_encode] at cursor
  obtain ⟨linked, outcome, linkedBytes, -⟩ := instructions_link draft.line image.size
    draft.instructionLines.toList agreed.sound
    (fun symbolic member => agreed.settled_of_places (agreed.sound symbolic member)
      (places symbolic (Listing.mem_codes_iff.mpr member))) unlinked cursor enough
  refine ⟨linked, ?_, linkedBytes⟩
  rw [link]
  simp only [outcome]

/-- Linking ends at the first instruction with a label that has not been placed. -/
theorem link_strands (agreed : draft.Matches found before listing) {front back : List Item}
    (split : listing.items = front ++ .code symbolic :: back)
    (places : ∀ other, Item.code other ∈ front → listing.Places other)
    (missing : ¬ listing.Places symbolic)
    (bytes : image.toList = header.encode ++ draft.writer.code.toList)
    (cursor : image.cursor = Header.length) :
    draft.link image = .error
      ⟨some ((draft.instructionLines.toList.drop (front.filterMap Item.code?).length).headD
        draft.line), .unresolvedLabel⟩ := by
  obtain ⟨unlinked, enough⟩ := agreed.unlinked bytes
  have sound := agreed.sound
  rw [← header.length_encode] at cursor
  rw [split] at unlinked enough sound
  have here : symbolic.Sound found.scope :=
    sound symbolic (List.mem_append_right _ List.mem_cons_self)
  obtain ⟨final, failed⟩ := instructions_strand draft.line image.size
    draft.instructionLines.toList sound
    (fun other member => agreed.settled_of_places (sound other (List.mem_append_left _ member))
      (places other member)) (agreed.strands_of_missing here missing) unlinked cursor enough
  rw [link]
  simp only [failed, Listing.filterMap_instruction?, List.length_map]

end Draft.Matches

namespace Source

theorem map_statement? {lines : List (List UInt8)} {statements : List Statement}
    (readable : ∀ line ∈ lines, (Line.text? line).isSome)
    (legible : (lines.filterMap Line.text?).map Statement.ofText? = statements.map some) :
    lines.map statement? = statements.map some := by
  rw [← legible]
  clear legible
  induction lines with
  | nil => rfl
  | cons line rest ih =>
      obtain ⟨text, isText⟩ := Option.isSome_iff_exists.mp (readable line List.mem_cons_self)
      rw [List.map_cons, List.filterMap_cons, isText,
        ih fun other later => readable other (List.mem_cons_of_mem _ later), statement?, isText]
      rfl

/-- A source whose lines have statements is legible and made of these statements. -/
theorem statements_of_map {source : Source} {statements : List Statement}
    (spelled : source.lines.map statement? = statements.map some) :
    source.Legible ∧ source.statements = statements := by
  constructor
  · intro line member
    have some : statement? line ∈ statements.map some := by
      rw [← spelled]
      exact List.mem_map_of_mem member
    obtain ⟨statement, -, equal⟩ := List.mem_map.mp some
    rw [← equal]
    rfl
  · have collected : source.statements = (source.lines.map statement?).filterMap id := by
      rw [List.filterMap_map]
      rfl
    rw [collected, spelled, List.filterMap_map]
    exact List.filterMap_some

/-- When every text spells a statement, so does every line. -/
theorem statements_of_legible {source : Source} {statements : List Statement}
    (readable : source.Readable)
    (legible : source.texts.map Statement.ofText? = statements.map some) :
    source.Legible ∧ source.statements = statements :=
  statements_of_map (map_statement? readable legible)

end Source

namespace Statement

/-- The names of the labels that statements declare. -/
theorem labels_names (statements : List Statement) :
    (labels statements).map Label.name = statements.filterMap declaredLabel? := by
  have numbered : ((statements.zipIdx 1).map Prod.fst).filterMap declaredLabel? =
      (labels statements).map Label.name := by
    rw [List.filterMap_map, labels, List.map_filterMap]
    apply List.filterMap_congr
    intro entry _
    rcases entry with ⟨statement, line⟩
    cases known : statement.declaredLabel? <;> simp [known]
  rw [← numbered, List.zipIdx_map_fst]

end Statement

namespace Draft

variable {found : Declarations} {source : Source} {statements : List Statement}
  {listing : Listing} {draft : Draft}

/-- After the whole source the names declared are the names found. -/
theorem Encodes.labelNames (encoded : Encodes found source.texts statements listing draft)
    (all : found = .ofTexts source.texts) : found.labelNames = listing.labelNames := by
  have agreed := encoded.agreed.labelNames
  rwa [← all] at agreed

/-- The names found stand for what the statements declare. -/
theorem Encodes.scope (encoded : Encodes found source.texts statements listing draft)
    (all : found = .ofTexts source.texts) : found.scope = .ofStatements statements := by
  have labels : found.labelNames = statements.filterMap Statement.declaredLabel? := by
    rw [Declarations.labelNames, all, encoded.labels, Statement.labels_names]
  have types := encoded.globalTypes
  have layout := (Declarations.tidy_ofTexts source.texts).layout
  rw [← all] at types layout
  rw [types] at layout
  have whole : found.scope = ⟨found.labelNames, found.scope.globals⟩ := rfl
  rw [whole, labels, layout]
  rfl

/-- In the draft of a whole source every label is placed that an instruction names. -/
theorem Encodes.places (encoded : Encodes found source.texts statements listing draft)
    (all : found = .ofTexts source.texts) :
    ∀ symbolic ∈ listing.codes, listing.Places symbolic := by
  intro symbolic member name named
  have sound := (encoded.agreed.sound symbolic (Listing.mem_codes_iff.mp member)).label named
  rcases sound with ⟨index, place, -⟩
  rw [← encoded.labelNames all]
  exact mem_of_idxOf? place

end Draft

end WordMachine.Assembly

namespace WordMachine

open Assembly

namespace Assembler

/-- A draft that matches its source is too large for an image, or becomes the image that
the listing spells. -/
theorem finish_of_encodes {found : Declarations} {source : Source} {listing : Listing}
    {draft : Draft} (readable : source.Readable) (all : found = .ofTexts source.texts)
    {statements : List Statement}
    (encoded : draft.Encodes found source.texts statements listing) :
    (∃ error, (finish draft).1 = .error error ∧ ¬ error.cause.Internal ∧
      Writer.maxImageSize < draft.writer.size) ∨
      ∃ image header, (finish draft).1 = .ok image ∧ Assembled source listing header image := by
  obtain ⟨legible, same⟩ := Source.statements_of_legible readable encoded.legible
  subst same
  rw [finish]
  cases finished : draft.writer.finish draft.dataSize draft.stackSize with
  | error error =>
      refine Or.inl ⟨_, rfl, id, Nat.lt_of_not_le ?_⟩
      intro fits
      obtain ⟨image, done⟩ := Writer.finish_of_fits draft.dataSize draft.stackSize fits
      rw [finished] at done
      cases done
  | ok image =>
      obtain ⟨header, magic, codeSize, dataSize, stackSize, bytes, cursor, fits⟩ :=
        Writer.finish_bytes finished
      obtain ⟨linked, outcome, linkedBytes⟩ :=
        encoded.agreed.link_places (encoded.places all) bytes cursor
      refine Or.inr ⟨linked, header, ?_, ?_⟩
      · simp only [outcome]
      · have scope := encoded.scope all
        refine
          { sound := ?_
            inReach := encoded.agreed.inReach
            bytes := linkedBytes
            legible
            listed := ?_
            labelNames := ?_
            magic
            codeSize := ?_
            fits := ?_
            dataSize := dataSize.trans encoded.dataSize
            stackSize := stackSize.trans encoded.stackSize }
        · rw [← scope]
          exact encoded.agreed.sound
        · rw [Listing.ofStatements?, ← scope]
          exact encoded.built
        · rw [← encoded.labelNames all, Declarations.labelNames, all, encoded.labels,
            Statement.labels_names]
        · rw [codeSize, ← Array.length_toList, encoded.agreed.code, ← Program.size,
            Listing.size_programWith, Listing.program, Listing.size_programWith]
        · rw [Listing.program, Listing.size_programWith, ← encoded.agreed.writer_size]
          exact fits

/-- A draft that starts over with the names of a source is a new draft for them. -/
theorem reset_declared (draft : Draft) (found : Declarations) :
    { draft with labels := found.labels, globals := found.globals }.reset =
      Draft.ofDeclarations found := rfl

/-- Assembling a steady source fails for a cause that lies in the source, or leaves the
image that its listing spells. -/
theorem assemble_cases (assembler : Assembler) {source : Source} (steady : source.Steady) :
    (∃ error, (assembler.assemble source).outcome = .error error ∧ ¬ error.cause.Internal) ∨
      ∃ (image : Image) (listing : Listing) (header : Header) (draft : Draft),
        (assembler.assemble source).outcome = .ok image ∧
        Assembled source listing header image ∧
        draft.Encodes (.ofTexts source.texts) source.texts source.statements listing ∧
        (assembler.assemble source).assembler.labels = draft.labels ∧
        (assembler.assemble source).assembler.globals = draft.globals := by
  rcases scanned : Declarations.scan source with ⟨failure, rewound, found⟩
  rw [assemble, prescan, scanned]
  cases failure with
  | some failure => exact Or.inl ⟨_, rfl, id⟩
  | none =>
      obtain ⟨readable, all, rfl⟩ := Declarations.scan_of_none scanned
      have sameLines := Source.lines_revisited steady
      have sameTexts : source.revisited.texts = source.texts := by
        rw [Source.texts, Source.texts, sameLines]
      have readableAgain : source.revisited.Readable := by
        rw [Source.Readable, sameLines]
        exact readable
      rcases fed : source.revisited.feed Draft.addLine (fun failure => ⟨none, .unreadable failure⟩)
        (Draft.ofDeclarations found) with ⟨failure, rest, draft⟩
      have reading := Draft.feed_encodes readableAgain (by rw [sameTexts]; exact all) fed
      simp only [encode, reset_declared, fed]
      cases failure with
      | some error => exact Or.inl ⟨error, rfl, reading⟩
      | none =>
          rcases reading with ⟨statements, listing, encoded⟩
          rw [sameTexts] at encoded
          have same := (Source.statements_of_legible readable encoded.legible).2
          rcases finish_of_encodes readable all encoded with ⟨error, failed, notInternal, -⟩ | done
          · exact Or.inl ⟨error, failed, notInternal⟩
          · rcases done with ⟨image, header, finished, assembled⟩
            refine Or.inr ⟨image, listing, header, draft, finished, assembled, ?_, ?_, ?_⟩
            · rw [← all, same]
              exact encoded
            · simp only [finished]
              rfl
            · simp only [finished]
              rfl

/-- What is left of a source that assembles: the image that its listing spells, and the
tables of the second reading. -/
theorem assembled_of_ok (assembler : Assembler) {source : Source} {image : Image}
    (steady : source.Steady) (assembled : (assembler.assemble source).outcome = .ok image) :
    ∃ (listing : Listing) (header : Header) (draft : Draft),
      Assembled source listing header image ∧ Header.read image = .ok header ∧
      draft.Encodes (.ofTexts source.texts) source.texts source.statements listing ∧
      (assembler.assemble source).assembler.labels = draft.labels ∧
      (assembler.assemble source).assembler.globals = draft.globals := by
  rcases assembler.assemble_cases steady with ⟨error, failed, -⟩ | done
  · rw [assembled] at failed
    cases failed
  · rcases done with ⟨linked, listing, header, draft, outcome, spelled, encoded, tables⟩
    rw [assembled] at outcome
    cases outcome
    exact ⟨listing, header, draft, spelled, Header.read_header spelled.bytes spelled.magic,
      encoded, tables⟩

/-- Reading twice, emitting positions and patching them comes to the same as writing
every instruction once, with the address of every label in its place: the image is the
header and the encoding of the listing, and decoding it instruction by instruction gives
the instructions of the listing back. -/
theorem assemble_encodes_listing (assembler : Assembler) {source : Source} {image : Image}
    (steady : source.Steady) (assembled : (assembler.assemble source).outcome = .ok image) :
    source.Legible ∧ ∃ listing header,
      Listing.ofStatements? source.statements = some listing ∧
      (∀ name ∈ listing.labelNames, listing.address name < 0x10000) ∧
      image.toList = header.encode ++ listing.program.encode ∧
      Header.read image = .ok header ∧
      header.magic = Header.expectedMagic ∧
      header.codeSize.toNat + Header.length = image.size ∧
      header.dataSize =
        finalSetting "datapagesize" Draft.defaultDataSize source.statements ∧
      header.stackSize =
        finalSetting "stacksize" Draft.defaultStackSize source.statements ∧
      Fetch.instructions image.size { image with cursor := Header.length } =
        .ok (listing.program.locate Header.length) { image with cursor := image.size } := by
  obtain ⟨listing, header, -, spelled, headed, -⟩ := assembler.assembled_of_ok steady assembled
  have codeSize : header.codeSize.toNat + Header.length = image.size := by
    rw [spelled.codeSize, spelled.size, Nat.add_comm]
  exact ⟨spelled.legible, listing, header, spelled.listed, spelled.inReach, spelled.bytes, headed,
    spelled.magic, codeSize, spelled.dataSize, spelled.stackSize, spelled.decodes⟩

/-- A jump forward and a jump back. -/
theorem assemble_encodes_two_jumps :
    ∃ image listing,
      (empty.assemble (.ofString "start: jmp end\nend: jmp start\n")).outcome = .ok image ∧
      Listing.ofStatements? (Source.ofString "start: jmp end\nend: jmp start\n").statements =
        some listing ∧
      image.toList.drop Header.length = [18, 3, 32, 0, 18, 3, 28, 0] ∧
      listing.program.encode = [18, 3, 32, 0, 18, 3, 28, 0] := by
  have code : ((empty.assemble (.ofString "start: jmp end\nend: jmp start\n")).outcome.toOption.map
      fun image => image.toList.drop Header.length) = some [18, 3, 32, 0, 18, 3, 28, 0] := by
    decide +kernel
  cases outcome : (empty.assemble (.ofString "start: jmp end\nend: jmp start\n")).outcome with
  | error error =>
      rw [outcome] at code
      cases code
  | ok image =>
      rw [outcome] at code
      have bytes : image.toList.drop Header.length = [18, 3, 32, 0, 18, 3, 28, 0] :=
        Option.some.inj code
      obtain ⟨-, listing, header, listed, -, spelled, -⟩ :=
        assemble_encodes_listing empty (Source.steady_ofString _) outcome
      refine ⟨image, listing, rfl, listed, bytes, ?_⟩
      rw [← bytes, spelled, ← header.length_encode, List.drop_left]

end Assembler

end WordMachine
