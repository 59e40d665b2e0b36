import WordMachine.Proofs.Assembly.Behind
import WordMachine.Proofs.Assembly.LabelLines

/-!
# One text behind another

A text without declarations of variables and without pragmas can be put behind another text. The
lines of both are those of the one and then those of the other (`Source.statements_append`), so the
code of the second is encoded behind that of the first. As long as the positions of its labels fit
a word it is relocated, and that is all; the first line that needs one that does not is turned down
(`Assembler.assemble_append`).
-/

namespace WordMachine

namespace Assembly

/-- Statements that set nothing leave a setting what it was. -/
theorem finalSetting_append_code {front back : List Statement}
    (code : ∀ statement ∈ back, statement.isCode = true) (setting : String) (default : UInt64) :
    finalSetting setting default (front ++ back) = finalSetting setting default front := by
  have none : back.filterMap (Statement.setting? setting) = [] :=
    List.filterMap_eq_nil_iff.mpr fun statement member =>
      Statement.setting?_of_isCode (code statement member) setting
  rw [finalSetting, finalSetting, List.filterMap_append, none, List.append_nil]

/-! ## Lines -/

namespace Line

theorem flatten_cut (chars : List Char) : (cut chars).flatten = chars := List.flatten_splitBy ..

/-- Behind a newline lines are cut as they would be alone. -/
theorem cut_append {front : List Char} (ended : front = [] ∨ front.getLast? = some '\n')
    (back : List Char) : cut (front ++ back) = cut front ++ cut back := by
  have lastEnded : ∀ line ∈ (cut front).getLast?, line.getLast? = some '\n' := by
    intro line last
    obtain ⟨lines, split⟩ := List.getLast?_eq_some_iff.mp last
    have nonempty : line ≠ [] := by
      rintro rfl
      have cutFront : CutBehind '\n' (cut front) := cutBehind_splitBy front
      exact cutFront.nonempty (List.mem_of_getLast? last)
    have whole : front = lines.flatten ++ line := by
      rw [← flatten_cut front, split, List.flatten_append, List.flatten_singleton]
    rcases ended with none | newline
    · rw [none] at whole
      exact absurd (List.append_eq_nil_iff.mp whole.symm).2 nonempty
    · rwa [whole, List.getLast?_append_of_ne_nil _ nonempty] at newline
  have both : CutBehind '\n' (cut front ++ cut back) :=
    (cutBehind_splitBy front).append (cutBehind_splitBy back) lastEnded
  have found := both.splitBy_flatten
  rwa [List.flatten_append, flatten_cut, flatten_cut] at found

end Line

/-- The statements of texts stand one behind the other. -/
theorem Source.statements_append {front back : String}
    {frontStatements backStatements : List Statement}
    (ended : front.toList = [] ∨ front.toList.getLast? = some '\n')
    (onFront : (ofString front).lines.map statement? = frontStatements.map some)
    (onBack : (ofString back).lines.map statement? = backStatements.map some) :
    (ofString (front ++ back)).lines.map statement? =
      (frontStatements ++ backStatements).map some := by
  rw [lines_ofString] at onFront onBack ⊢
  rw [String.toList_append, Line.cut_append ended, List.map_append, List.map_append, onFront,
    onBack, List.map_append]

/-! ## Listings -/

namespace Listing

variable {scope wider : Scope} {own longer : Listing}

/-- More labels leave the names of a listing what they are, unless they have the name of a
variable. -/
theorem shares_of_more {more : List Token}
    (fresh : ∀ name ∈ more, name ∉ scope.globals.map Prod.fst ∧ name ∉ own.locals.map Prod.fst) :
    Shares scope own ⟨scope.labels ++ more, scope.globals⟩ own := by
  intro name term read
  rw [named?] at read ⊢
  by_cases known : name ∈ scope.labels
  · rw [if_pos known] at read
    rwa [if_pos (List.mem_append_left _ known)]
  · rw [if_neg known] at read
    have isVariable : name ∉ more := by
      intro isMore
      obtain ⟨noGlobal, noLocal⟩ := fresh name isMore
      split at read
      next address found => exact noGlobal (mem_keys_of_lookup found)
      next =>
        obtain ⟨offset, found, -⟩ := Option.map_eq_some_iff.mp read
        exact noLocal (mem_keys_of_lookup found)
    rwa [if_neg (mt List.mem_append.mp (not_or.mpr ⟨known, isVariable⟩))]

/-- Where all names are labels they mean the same wherever these labels are known. -/
theorem shares_of_labels (noGlobals : scope.globals = []) (noLocals : own.locals = [])
    (labels : scope.labels ⊆ wider.labels) : Shares scope own wider longer := by
  intro name term read
  rw [named?, noGlobals, noLocals] at read
  by_cases known : name ∈ scope.labels
  · rw [if_pos known] at read
    rwa [named?, if_pos (labels known)]
  · rw [if_neg known] at read
    cases read

end Listing

end Assembly

open Assembly

namespace Assembler

variable {assembler : Assembler}

/-! ## The whole -/

section

variable {front back : String} {first second : Image}
  {firstStatements secondStatements : List Statement}
  {firstDraft secondDraft : Draft} {firstListing secondListing : Listing}
  {firstHeader secondHeader : Header}

theorem scope_append (code : ∀ statement ∈ secondStatements, statement.isCode = true) :
    Scope.ofStatements (firstStatements ++ secondStatements) =
      ⟨(Scope.ofStatements firstStatements).labels ++ (Scope.ofStatements secondStatements).labels,
        (Scope.ofStatements firstStatements).globals⟩ := by
  have noGlobals := Statement.flatMap_declaredGlobals code
  simp only [Scope.ofStatements, List.filterMap_append, List.flatMap_append, noGlobals,
    List.append_nil]

/-- Without declarations of variables all names are labels. -/
theorem nothing_but_labels (code : ∀ statement ∈ secondStatements, statement.isCode = true)
    (spelled :
      assembler.Spells back secondStatements secondDraft secondListing secondHeader second) :
    (Scope.ofStatements secondStatements).globals = [] ∧ secondListing.locals = [] := by
  have noGlobals := Statement.flatMap_declaredGlobals code
  have noLocals : secondStatements.filterMap Statement.declaredLocal? = [] :=
    List.filterMap_eq_nil_iff.mpr fun statement member =>
      Statement.declaredLocal?_of_isCode (code statement member)
  constructor
  · rw [Scope.ofStatements, noGlobals]
    rfl
  · rw [(Listing.tracks_of_foldlM spelled.built).locals, noLocals]
    rfl

/-- Without declarations of variables the tables of variables stay empty. -/
theorem no_variables (code : ∀ statement ∈ secondStatements, statement.isCode = true)
    (spelled :
      assembler.Spells back secondStatements secondDraft secondListing secondHeader second) :
    secondDraft.globalAddresses = [] ∧ secondDraft.localOffsets = [] := by
  obtain ⟨noGlobals, noLocals⟩ := nothing_but_labels code spelled
  exact ⟨spelled.knows.globals.trans noGlobals, spelled.knows.locals.trans noLocals⟩

/-- What assembles of both texts has the statements of both. -/
theorem spells_append {image : Image}
    (spelledFirst :
      assembler.Spells front firstStatements firstDraft firstListing firstHeader first)
    (spelledSecond :
      assembler.Spells back secondStatements secondDraft secondListing secondHeader second)
    (ended : front.toList = [] ∨ front.toList.getLast? = some '\n')
    (assembled : (assembler.assemble (.ofString (front ++ back))).outcome = .ok image) :
    ∃ draft listing header,
      assembler.Spells (front ++ back) (firstStatements ++ secondStatements) draft listing header
        image := by
  obtain ⟨statements, draft, listing, header, spelled⟩ := spells_of_assembled assembled
  obtain rfl : statements = firstStatements ++ secondStatements :=
    spelled.statements_eq.symm.trans (Source.statements_of_map
      (Source.statements_append ended spelledFirst.onLines spelledSecond.onLines)).2
  exact ⟨draft, listing, header, spelled⟩

variable (code : ∀ statement ∈ secondStatements, statement.isCode = true)
  (spelledFirst :
    assembler.Spells front firstStatements firstDraft firstListing firstHeader first)
  (spelledSecond :
    assembler.Spells back secondStatements secondDraft secondListing secondHeader second)
  (apart : ∀ name ∈ secondDraft.labelNames, name ∉ firstDraft.labelNames ∧
    name ∉ firstDraft.globalNames ∧ name ∉ firstDraft.localNames)

include code spelledFirst spelledSecond apart

/-- The listing of both texts is that of the second behind that of the first. -/
theorem built_append :
    (firstStatements ++ secondStatements).foldlM
        (Listing.add (.ofStatements (firstStatements ++ secondStatements))) .empty =
      some (firstListing.behind secondListing) := by
  obtain ⟨noGlobals, noLocals⟩ := nothing_but_labels code spelledSecond
  have noneDeclared : ∀ statement ∈ secondStatements, statement.declaredLocal? = none :=
    fun statement member => Statement.declaredLocal?_of_isCode (code statement member)
  have inFront : firstStatements.foldlM
      (Listing.add (.ofStatements (firstStatements ++ secondStatements))) .empty =
        some (Listing.empty.behind firstListing) := by
    -- Locals keep their offsets behind an empty listing only, so the first text is put there.
    refine Listing.foldlM_behind spelledFirst.built (fun between within => ?_) (Or.inl rfl)
    rw [Listing.empty_behind, scope_append code]
    apply Listing.shares_of_more
    intro name isSecond
    rw [← spelledSecond.knows.labels] at isSecond
    obtain ⟨-, noGlobal, noLocal⟩ := apart name isSecond
    rw [← spelledFirst.knows.globals]
    refine ⟨noGlobal, fun early => noLocal ?_⟩
    have isLocal := (within.map Prod.fst).subset early
    rwa [← spelledFirst.knows.locals] at isLocal
  rw [List.foldlM_append, inFront, Listing.empty_behind]
  refine Listing.foldlM_behind spelledSecond.built (fun between within => ?_) (Or.inr noneDeclared)
  rw [noLocals, List.prefix_nil] at within
  rw [scope_append code]
  exact Listing.shares_of_labels noGlobals within (List.subset_append_right _ _)

/-- The image of both texts has the sizes of the first, its code, and behind that the code of the
second, relocated. -/
theorem image_append {image : Image} {draft : Draft} {listing : Listing} {header : Header}
    (spelled : assembler.Spells (front ++ back) (firstStatements ++ secondStatements) draft listing
      header image) :
    header.dataSize = firstHeader.dataSize ∧ header.stackSize = firstHeader.stackSize ∧
      image.toList.drop Header.length = first.toList.drop Header.length ++
        (secondListing.program.relocate firstListing.program.size).encode ∧
      ∀ instruction ∈ secondListing.program, ∀ argument ∈ [instruction.dst, instruction.src],
        argument.mode = .label → argument.value.toNat + firstListing.program.size < 0x10000 := by
  obtain rfl : firstListing.behind secondListing = listing :=
    Option.some.inj ((built_append code spelledFirst spelledSecond apart).symm.trans spelled.built)
  have apartListed : ∀ name ∈ secondListing.labelNames, name ∉ firstListing.labelNames := by
    intro name member
    rw [← spelledSecond.labelNames] at member
    rw [← spelledFirst.labelNames]
    exact (apart name member).1
  refine ⟨?_, ?_, ?_, ?_⟩
  · rw [spelled.assembled.dataSize, spelledFirst.assembled.dataSize, spelled.statements_eq,
      spelledFirst.statements_eq, finalSetting_append_code code]
  · rw [spelled.assembled.stackSize, spelledFirst.assembled.stackSize, spelled.statements_eq,
      spelledFirst.statements_eq, finalSetting_append_code code]
  · rw [spelled.assembled.drop_header, spelledFirst.assembled.drop_header,
      Listing.program_behind (spelledFirst.encodes.places rfl) (spelledSecond.encodes.places rfl)
        apartListed spelledSecond.sound spelledSecond.assembled.inReach, Program.encode_append]
  · exact fun _ member _ => Listing.label_lt_behind (spelledSecond.encodes.places rfl) apartListed
      spelledSecond.sound spelled.assembled.inReach member

/-- Both texts declare what the first does, and the labels of the second behind. -/
theorem declarations_append :
    Declarations.ofStatements (firstStatements ++ secondStatements) =
      (Declarations.ofStatements firstStatements).behind (.ofStatements secondStatements) := by
  have firstNames :
      (Declarations.ofStatements firstStatements).labelNames = firstDraft.labelNames :=
    (Draft.within_of_addAll spelledFirst.encoded).labels
  refine Declarations.ofStatements_append code fun statement member name isLabel => ?_
  have isName : name ∈ (Scope.ofStatements secondStatements).labels :=
    List.mem_filterMap.mpr ⟨statement, member, isLabel⟩
  rw [← spelledSecond.knows.labels] at isName
  rw [firstNames]
  exact (apart name isName).1

/-- Behind the first text the second is encoded as it was, up to any place before which operands
name labels with positions of one word, if both images fit one. -/
theorem encoded_append {before after : List Statement} (split : secondStatements = before ++ after)
    (positions : ∀ statement ∈ before,
      statement.LabelsFit secondDraft.labelNames firstDraft.labelNames.length)
    (fits : Header.length + firstDraft.writer.code.size + secondDraft.writer.code.size <
      Writer.maxImageSize) :
    ∃ middle draft, Draft.addAll after middle = .ok () secondDraft ∧
      Draft.addAll (firstStatements ++ before)
        (.ofDeclarations (.ofStatements (firstStatements ++ secondStatements))) = .ok () draft ∧
      firstDraft.Behind middle draft := by
  have within := Draft.within_of_addAll spelledSecond.encoded
  have tidy := Declarations.tidy_ofTexts (Source.ofString back).texts
  rw [Source.texts,
    Declarations.ofTexts_eq_ofStatements (Source.map_ofText? spelledSecond.onLines)] at tidy
  have noGlobals : (Declarations.ofStatements secondStatements).scope.globals = [] :=
    within.globals.trans (no_variables code spelledSecond).1
  have declared : ∀ name ∈ (Declarations.ofStatements secondStatements).labelNames,
      name ∉ firstDraft.labelNames := fun name member => (apart name (within.labels ▸ member)).1
  have fresh : ∀ label ∈ ((Declarations.ofStatements secondStatements).labels.map fun label =>
      { label with line := (Declarations.ofStatements firstStatements).line + label.line }).toList,
      label.name ∉ firstDraft.labelNames ∧ label.name ∉ firstDraft.globalNames ∧
        label.name ∉ firstDraft.localNames := by
    intro label member
    rw [Array.toList_map, List.mem_map] at member
    obtain ⟨original, isLabel, rfl⟩ := member
    exact apart original.name (within.labels ▸ List.mem_map_of_mem isLabel)
  -- Both texts are read for names before either is encoded: the labels of the second are known
  -- while the first is encoded, and placed only behind it.
  have inFront := Draft.addAll_withLabels fresh spelledFirst.encoded
  have start := firstDraft.behind_of_declarations tidy noGlobals declared
    (Declarations.ofStatements firstStatements).line
  have alone : Draft.addAll (before ++ after) (.ofDeclarations (.ofStatements secondStatements)) =
      .ok () secondDraft :=
    (congrArg (fun statements => Draft.addAll statements _) split.symm).trans spelledSecond.encoded
  obtain ⟨middle, earlier, later⟩ := Draft.addAll_append_iff.mp alone
  have grown := Draft.codeSize_le_of_addAll
    (fun statement member => code statement (split ▸ List.mem_append_right _ member)) later
  obtain ⟨draft, encoded, behind⟩ := Draft.addAll_behind start
    (fun statement member => code statement (split ▸ List.mem_append_left _ member))
    (within.labels.symm ▸ positions) (by omega) earlier
  refine ⟨middle, draft, later, ?_, behind⟩
  rw [declarations_append code spelledFirst spelledSecond apart]
  exact Draft.addAll_append_iff.mpr ⟨_, inFront, encoded⟩

/-- Behind the first text the first statement of the second is turned down in which an operand
names a label that has no position of one word there. -/
theorem turnedDown_append (ended : front.toList = [] ∨ front.toList.getLast? = some '\n')
    {before after : List Statement} {statement : Statement}
    (split : secondStatements = before ++ statement :: after)
    (positions : ∀ earlier ∈ before,
      earlier.LabelsFit secondDraft.labelNames firstDraft.labelNames.length)
    (misses : ¬ statement.LabelsFit secondDraft.labelNames firstDraft.labelNames.length)
    (fits : Header.length + firstDraft.writer.code.size + secondDraft.writer.code.size <
      Writer.maxImageSize) :
    (assembler.assemble (.ofString (front ++ back))).outcome =
      .error ⟨some (.nth (firstStatements.length + before.length + 1)), .invalidAddress⟩ := by
  obtain ⟨middle, draft, later, encoded, behind⟩ :=
    encoded_append code spelledFirst spelledSecond apart split positions fits
  have names : middle.labelNames = secondDraft.labelNames := (Draft.within_of_addAll later).labels
  have isCode : ∀ other ∈ statement :: after, other.isCode = true :=
    fun other member => code other (split ▸ List.mem_append_right _ member)
  rw [List.forall_mem_cons] at isCode
  obtain ⟨next, here, rest⟩ := Draft.addAll_cons_iff.mp later
  have grown := Draft.codeSize_le_of_addAll isCode.2 rest
  rw [Draft.addNext_eq] at here
  obtain ⟨final, turnedDown⟩ := Draft.addStatement_out_of_reach behind.nextLine isCode.1
    (names ▸ misses) (by omega) here
  have onLines := Source.statements_append ended spelledFirst.onLines spelledSecond.onLines
  rw [split, ← List.append_assoc] at onLines encoded
  rw [← List.length_append]
  exact assembler.assemble_of_turnedDown onLines encoded turnedDown

/-- What assembles behind the first text names labels with positions of one word there. -/
theorem positions_of_append {image : Image} {draft : Draft} {listing : Listing} {header : Header}
    (spelled : assembler.Spells (front ++ back) (firstStatements ++ secondStatements) draft listing
      header image) :
    ∀ statement ∈ secondStatements,
      statement.LabelsFit secondDraft.labelNames firstDraft.labelNames.length := by
  intro statement member token written index found
  have labels : draft.labelNames = firstDraft.labelNames ++ secondDraft.labelNames := by
    have all : draft.labelNames =
        (Scope.ofStatements (firstStatements ++ secondStatements)).labels := spelled.knows.labels
    rw [all, scope_append code, ← spelledFirst.knows.labels, ← spelledSecond.knows.labels]
    rfl
  have fresh : token ∉ firstDraft.labelNames := (apart token (mem_of_idxOf? found)).1
  refine spelled.position_of_operand (List.mem_append_right _ member) written ?_
  rw [labels, idxOf?_append_right fresh, Option.mem_def.mp found, Option.map_some]

end

/-- A text of labels and instructions assembles behind another text with other names, if both
images fit one and every label that it names has a position of one word there; if not, the first
line that names one without is turned down for its address. The image has the sizes of the first,
its code as it was, and behind that the code of the second, in which only the addresses of labels
have moved, by the length of the code in front. -/
theorem assemble_append (assembler : Assembler) {front back : String} {first second : Image}
    (assembledFront : (assembler.assemble (.ofString front)).outcome = .ok first)
    (assembledBack : (assembler.assemble (.ofString back)).outcome = .ok second)
    (ended : front.toList = [] ∨ front.toList.getLast? = some '\n')
    (code : ∀ statement ∈ (Source.ofString back).statements, statement.isCode = true)
    (apart : ∀ name ∈ (assembler.assemble (.ofString back)).assembler.labelNames,
      name ∉ (assembler.assemble (.ofString front)).assembler.labelNames ∧
      name ∉ (assembler.assemble (.ofString front)).assembler.globalNames ∧
      name ∉ (assembler.assemble (.ofString front)).assembler.localNames)
    (fits : first.size + second.size ≤ 0xFFFF + Header.length) :
    ((∃ image, (assembler.assemble (.ofString (front ++ back))).outcome = .ok image) ↔
      ∀ statement ∈ (Source.ofString back).statements,
        statement.LabelsFit (assembler.assemble (.ofString back)).assembler.labelNames
          (assembler.assemble (.ofString front)).assembler.labelNames.length) ∧
    (∀ before statement after,
      (Source.ofString back).statements = before ++ statement :: after →
      (∀ earlier ∈ before,
        earlier.LabelsFit (assembler.assemble (.ofString back)).assembler.labelNames
          (assembler.assemble (.ofString front)).assembler.labelNames.length) →
      ¬ statement.LabelsFit (assembler.assemble (.ofString back)).assembler.labelNames
        (assembler.assemble (.ofString front)).assembler.labelNames.length →
      (assembler.assemble (.ofString (front ++ back))).outcome =
        .error ⟨some (.nth ((Source.ofString front).statements.length + before.length + 1)),
          .invalidAddress⟩) ∧
    ∀ image, (assembler.assemble (.ofString (front ++ back))).outcome = .ok image →
      ∃ (firstHeader header : Header) (program : Program),
        Header.read first = .ok firstHeader ∧ Header.read image = .ok header ∧
        header.dataSize = firstHeader.dataSize ∧ header.stackSize = firstHeader.stackSize ∧
        Fetch.instructions second.size { second with cursor := Header.length } =
          .ok (program.locate Header.length) { second with cursor := second.size } ∧
        second.toList.drop Header.length = program.encode ∧
        image.toList.drop Header.length = first.toList.drop Header.length ++
          (program.relocate (first.size - Header.length)).encode ∧
        ∀ instruction ∈ program, ∀ argument ∈ [instruction.dst, instruction.src],
          argument.mode = .label →
            argument.value.toNat + (first.size - Header.length) < 0x10000 := by
  obtain ⟨firstStatements, firstDraft, firstListing, firstHeader, spelledFirst⟩ :=
    spells_of_assembled assembledFront
  obtain ⟨secondStatements, secondDraft, secondListing, secondHeader, spelledSecond⟩ :=
    spells_of_assembled assembledBack
  rw [spelledSecond.statements_eq] at code ⊢
  rw [spelledFirst.statements_eq]
  rw [spelledFirst.tables, spelledSecond.tables] at apart ⊢
  have apartDrafts : ∀ name ∈ secondDraft.labelNames, name ∉ firstDraft.labelNames ∧
      name ∉ firstDraft.globalNames ∧ name ∉ firstDraft.localNames := apart
  have onLines := Source.statements_append ended spelledFirst.onLines spelledSecond.onLines
  have length : first.size - Header.length = firstListing.program.size := by
    rw [spelledFirst.assembled.size, Nat.add_sub_cancel_left]
  rw [length]
  rw [spelledFirst.assembled.size, spelledSecond.assembled.size, ← spelledFirst.codeSize,
    ← spelledSecond.codeSize] at fits
  have room : Header.length + firstDraft.writer.code.size + secondDraft.writer.code.size <
      Writer.maxImageSize := by
    rw [Writer.maxImageSize]
    omega
  refine ⟨⟨?_, ?_⟩, ?_, ?_⟩
  · rintro ⟨image, assembled⟩
    obtain ⟨draft, listing, header, spelled⟩ :=
      spells_append spelledFirst spelledSecond ended assembled
    change ∀ statement ∈ secondStatements,
      statement.LabelsFit secondDraft.labelNames firstDraft.labelNames.length
    exact positions_of_append code spelledFirst spelledSecond apartDrafts spelled
  · intro positions
    obtain ⟨middle, draft, same, encoded, behind⟩ := encoded_append code spelledFirst spelledSecond
      apartDrafts (List.append_nil _).symm positions room
    cases same
    obtain ⟨-, -, image, assembled, -⟩ := assembler.spells_of_statements onLines encoded (by
      rw [Writer.size, behind.size, ← Nat.add_assoc]
      exact Nat.le_of_lt room)
    exact ⟨image, assembled⟩
  · intro before statement after split positions misses
    exact turnedDown_append code spelledFirst spelledSecond apartDrafts ended split positions misses
      room
  · intro image assembled
    obtain ⟨draft, listing, header, spelled⟩ :=
      spells_append spelledFirst spelledSecond ended assembled
    obtain ⟨dataSize, stackSize, bytes, inReach⟩ :=
      image_append code spelledFirst spelledSecond apartDrafts spelled
    exact ⟨firstHeader, header, secondListing.program,
      Header.read_header spelledFirst.assembled.bytes spelledFirst.assembled.magic,
      Header.read_header spelled.assembled.bytes spelled.assembled.magic, dataSize, stackSize,
      spelledSecond.assembled.decodes, spelledSecond.assembled.drop_header, bytes, inReach⟩

/-- A jump to itself behind another one: its label moves, the one in front does not. -/
theorem assemble_append_jumps :
    ∃ (image : Image) (program : Program),
      (empty.assemble (.ofString ("byte n\nagain: jmp again\n" ++ "end: jmp end\n"))).outcome =
        .ok image ∧
      program.encode = [18, 3, 28, 0] ∧
      image.toList.drop Header.length = [18, 3, 28, 0] ++ (program.relocate 4).encode := by
  have codes :
      ((empty.assemble (.ofString "byte n\nagain: jmp again\n")).outcome.toOption.map
        fun image => (image.size, image.toList.drop Header.length)) = some (32, [18, 3, 28, 0]) ∧
      ((empty.assemble (.ofString "end: jmp end\n")).outcome.toOption.map
        fun image => (image.size, image.toList.drop Header.length)) =
          some (32, [18, 3, 28, 0]) := by
    decide +kernel
  cases front : (empty.assemble (.ofString "byte n\nagain: jmp again\n")).outcome with
  | error error =>
      rw [front] at codes
      cases codes.1
  | ok first =>
      cases back : (empty.assemble (.ofString "end: jmp end\n")).outcome with
      | error error =>
          rw [back] at codes
          cases codes.2
      | ok second =>
          rw [front, back] at codes
          obtain ⟨firstSize, firstCode⟩ := Prod.mk.inj (Option.some.inj codes.1)
          obtain ⟨secondSize, secondCode⟩ := Prod.mk.inj (Option.some.inj codes.2)
          obtain ⟨assembles, -, relocates⟩ := empty.assemble_append front back
            (Or.inr (by decide +kernel)) (by decide +kernel) (by decide +kernel) (by
              rw [firstSize, secondSize]
              decide)
          obtain ⟨image, assembled⟩ := assembles.mpr (by decide +kernel)
          obtain ⟨-, -, program, -, -, -, -, -, encoded, bytes, -⟩ := relocates image assembled
          refine ⟨image, program, assembled, encoded.symm.trans secondCode, ?_⟩
          rw [bytes, firstCode, firstSize]
          rfl

/-- Labels in front may leave those behind without a position of one word: behind so many labels a
text that assembles does not, for it names one. -/
theorem not_assemble_append_of_many_labels :
    ∃ first second : Image,
      (empty.assemble (.ofString (labelLines (numberedNames 0x10000)))).outcome = .ok first ∧
      (empty.assemble (.ofString "x: mov x, reg00\n")).outcome = .ok second ∧
      ((labelLines (numberedNames 0x10000)).toList = [] ∨
        (labelLines (numberedNames 0x10000)).toList.getLast? = some '\n') ∧
      (∀ statement ∈ (Source.ofString "x: mov x, reg00\n").statements, statement.isCode = true) ∧
      (∀ name ∈ (empty.assemble (.ofString "x: mov x, reg00\n")).assembler.labelNames,
        name ∉ (empty.assemble
          (.ofString (labelLines (numberedNames 0x10000)))).assembler.labelNames ∧
        name ∉ (empty.assemble
          (.ofString (labelLines (numberedNames 0x10000)))).assembler.globalNames ∧
        name ∉ (empty.assemble
          (.ofString (labelLines (numberedNames 0x10000)))).assembler.localNames) ∧
      first.size + second.size ≤ 0xFFFF + Header.length ∧
      ∀ image, (empty.assemble
        (.ofString (labelLines (numberedNames 0x10000) ++ "x: mov x, reg00\n"))).outcome ≠
          .ok image := by
  obtain ⟨firstDraft, firstListing, firstHeader, first, assembledFirst, spelledFirst, names,
      size⟩ :=
    empty.spells_labelLines (fun _ member => isName_of_numberedNames member)
      (nodup_numberedNames (by decide : 0x10000 ≤ 52 ^ 3))
  have ends : (empty.assemble (.ofString "x: mov x, reg00\n")).outcome.toOption.map Store.size =
        some 33 ∧
      (Source.ofString "x: mov x, reg00\n").statements =
        [.label "x".toList ["mov".toList, "x".toList, "reg00".toList]] ∧
      (empty.assemble (.ofString "x: mov x, reg00\n")).assembler.labelNames = ["x".toList] := by
    decide +kernel
  obtain ⟨secondSize, oneStatement, oneLabel⟩ := ends
  cases assembledSecond : (empty.assemble (.ofString "x: mov x, reg00\n")).outcome with
  | error error =>
      rw [assembledSecond] at secondSize
      cases secondSize
  | ok second =>
      rw [assembledSecond] at secondSize
      obtain ⟨secondStatements, secondDraft, secondListing, secondHeader, spelledSecond⟩ :=
        spells_of_assembled assembledSecond
      rw [spelledSecond.statements_eq] at oneStatement
      rw [spelledSecond.tables] at oneLabel
      have oneName : secondDraft.labelNames = ["x".toList] := oneLabel
      have code : ∀ statement ∈ secondStatements, statement.isCode = true := by
        rw [oneStatement]
        decide
      obtain ⟨noGlobals, noLocals⟩ :=
        no_variables (List.forall_mem_map.mpr fun _ _ => rfl) spelledFirst
      have apart : ∀ name ∈ secondDraft.labelNames, name ∉ firstDraft.labelNames ∧
          name ∉ firstDraft.globalNames ∧ name ∉ firstDraft.localNames := by
        intro name isSecond
        rw [oneName, List.mem_singleton] at isSecond
        rw [names, Draft.globalNames, noGlobals, Draft.localNames, noLocals, isSecond]
        refine ⟨fun member => ?_, List.not_mem_nil, List.not_mem_nil⟩
        obtain ⟨number, -, same⟩ := List.mem_map.mp member
        cases congrArg List.length same
      refine ⟨first, second, assembledFirst, rfl, labelLines_ended _, ?_, ?_, ?_, ?_⟩
      · rwa [spelledSecond.statements_eq]
      · rw [spelledFirst.tables, spelledSecond.tables]
        exact apart
      · rw [size, Option.some.inj secondSize]
        decide
      · intro image assembled
        obtain ⟨draft, listing, header, spelled⟩ :=
          spells_append spelledFirst spelledSecond (labelLines_ended _) assembled
        have fit := positions_of_append code spelledFirst spelledSecond apart spelled
          (.label "x".toList ["mov".toList, "x".toList, "reg00".toList]) (by
            rw [oneStatement]
            exact List.mem_singleton_self _) "x".toList (by decide) 0 (by
            rw [oneName]
            rfl)
        rw [names, numberedNames, List.length_map, List.length_range] at fit
        exact absurd fit (by decide)

end Assembler

end WordMachine
