import WordMachine.Proofs.Assembly.Renaming
import WordMachine.Proofs.Assembly.SymbolTables

/-!
# What names stand for

The three tables of names are told apart by nothing but the order in which they are looked up. So
a name may be declared once in each of them, and operands stand for the first of these
declarations (`Draft.Assigns`): a label, else a global, else a local. Where a text assembles, no
name is declared twice in a table, and every operand that is written as a declared name is encoded
with the mode and the address of the declaration that it stands for
(`Assembler.names_stand_for_first_table`).
-/

namespace WordMachine

open Assembly

/-- The operands that an instruction has, as they are written: the source comes first. -/
def Fetched.written (fetched : Fetched) : List Operand :=
  fetched.src.toList ++ fetched.dst.toList

namespace Assembly

/-- The operands that an instruction takes, as they are written: the source comes first. -/
def Symbolic.written (symbolic : Symbolic) : List Term :=
  (if symbolic.opcode.shape.hasSrc then [symbolic.src] else []) ++
    if symbolic.opcode.shape.hasDst then [symbolic.dst] else []

theorem Symbolic.written_subset (symbolic : Symbolic) : symbolic.written ⊆ symbolic.terms := by
  rw [written, terms]
  split <;> split <;> simp

/-- The operands of an instruction at its place are those that are written, labels as addresses. -/
theorem Symbolic.written_locate (symbolic : Symbolic) (address : Token → Word) (offset : Nat) :
    ((symbolic.resolve address).locate offset).written.map Operand.toArgument =
      symbolic.written.map (Term.resolve address) := by
  rw [Fetched.written, Instruction.locate, written, resolve]
  by_cases takesSrc : symbolic.opcode.shape.hasSrc
  · by_cases takesDst : symbolic.opcode.shape.hasDst
    · simp [takesSrc, takesDst]
    · simp [takesSrc, takesDst]
  · by_cases takesDst : symbolic.opcode.shape.hasDst
    · simp [takesSrc, takesDst]
    · simp [takesSrc, takesDst]

namespace Listing

variable {scope : Scope} {listing : Listing} {symbolic : Symbolic}

/-- Operands are read one by one; behind them there is at most the register of a remainder. -/
theorem written_of_instruction? {opcode : Opcode} {operands : List Token}
    (spelled : listing.instruction? scope opcode operands = some symbolic) :
    ∃ read registers, operands = read ++ registers ∧
      List.Forall₂ (fun token term => listing.operand? scope token = some term) read
        symbolic.written ∧
      ∀ token ∈ registers, (Name.register? token).isSome := by
  unfold instruction? at spelled
  split at spelled
  next bare =>
    cases spelled
    exact ⟨[], [], rfl, by simp [Symbolic.written, bare, Shape.hasSrc, Shape.hasDst], by simp⟩
  next dst takesDst =>
    rcases Option.bind_eq_some_iff.mp spelled with ⟨dstTerm, dstRead, same⟩
    cases same
    have dstRead := operand?_of_destination? dstRead
    exact ⟨[dst], [], rfl,
      by simp [Symbolic.written, takesDst, Shape.hasSrc, Shape.hasDst, dstRead], by simp⟩
  next src takesSrc =>
    rcases Option.bind_eq_some_iff.mp spelled with ⟨srcTerm, srcRead, same⟩
    cases same
    exact ⟨[src], [], rfl,
      by simp [Symbolic.written, takesSrc, Shape.hasSrc, Shape.hasDst, srcRead], by simp⟩
  next src dst takesBoth =>
    rcases Option.bind_eq_some_iff.mp spelled with ⟨dstTerm, dstRead, later⟩
    rcases Option.bind_eq_some_iff.mp later with ⟨srcTerm, srcRead, same⟩
    cases same
    have dstRead := operand?_of_destination? dstRead
    exact ⟨[src, dst], [], rfl,
      by simp [Symbolic.written, takesBoth, Shape.hasSrc, Shape.hasDst, dstRead, srcRead], by simp⟩
  next src dst remainder takesBoth =>
    rcases Option.bind_eq_some_iff.mp spelled with ⟨dstTerm, dstRead, later⟩
    rcases Option.bind_eq_some_iff.mp later with ⟨srcTerm, srcRead, last⟩
    rcases Option.bind_eq_some_iff.mp last with ⟨register, known, same⟩
    cases same
    have dstRead := operand?_of_destination? dstRead
    exact ⟨[src, dst], [remainder], rfl,
      by simp [Symbolic.written, takesBoth, Shape.hasSrc, Shape.hasDst, dstRead, srcRead],
      by simp [known]⟩
  next => cases spelled

/-- An operand that is no register is read where it is written. -/
theorem written_of_emitted? {statement : Statement} {place : Nat} {token : Token}
    (emitted : listing.emitted? scope statement = some symbolic)
    (operand : statement.operands[place]? = some token)
    (noRegister : Name.register? token = none) :
    ∃ term, symbolic.written[place]? = some term ∧ listing.operand? scope token = some term := by
  have ofInstruction {mnemonic : Token} {operands : List Token}
      (operand : operands[place]? = some token)
      (spelled : ((Opcode.ofMnemonic? mnemonic.lowerCase).bind fun opcode =>
        listing.instruction? scope opcode operands) = some symbolic) :
      ∃ term, symbolic.written[place]? = some term ∧
        listing.operand? scope token = some term := by
    rcases Option.bind_eq_some_iff.mp spelled with ⟨opcode, -, spelled⟩
    obtain ⟨read, registers, rfl, each, areRegisters⟩ := written_of_instruction? spelled
    rcases Nat.lt_or_ge place read.length with inside | behind
    · rw [List.getElem?_append_left inside, List.getElem?_eq_getElem inside,
        Option.some.injEq] at operand
      obtain ⟨length, every⟩ := List.forall₂_iff_get.mp each
      have alsoInside : place < symbolic.written.length := by
        rwa [← length]
      refine ⟨symbolic.written[place], List.getElem?_eq_getElem alsoInside, ?_⟩
      rw [← operand]
      exact every place inside alsoInside
    · rw [List.getElem?_append_right behind] at operand
      have isRegister := areRegisters token (List.mem_of_getElem? operand)
      rw [noRegister] at isRegister
      cases isRegister
  cases statement with
  | instruction mnemonic operands => exact ofInstruction operand emitted
  | label name rest =>
      cases rest with
      | nil => cases emitted
      | cons mnemonic operands => exact ofInstruction operand emitted
  | blank => cases emitted
  | pragma arguments => cases emitted
  | globals type names => cases emitted
  | localVariable arguments => cases operand

end Listing

namespace Draft

/-- Whether an operand has what a name stands for by the tables of a draft: the address of the label
of this name, else that of the global, else the offset of the local. -/
structure Assigns (draft : Draft) (name : Token) (argument : Argument) : Prop where
  label : ∀ label ∈ draft.labels.toList, label.name = name →
    argument.mode = .label ∧ label.address = some argument.value
  global : name ∉ draft.labelNames → ∀ global ∈ draft.globals.toList, global.name = name →
    argument = ⟨.global, global.address⟩
  frame : name ∉ draft.labelNames → name ∉ draft.globalNames →
    ∀ slot ∈ draft.locals.toList, slot.name = name → argument = ⟨.frame, slot.offset⟩

variable {found : Declarations} {statements : List Statement} {listing earlier : Listing}
  {draft : Draft}

/-- In a table without repeated names a name has one value. -/
theorem value_unique {entries : List (Token × Word)} {name : Token} {first second : Word}
    (nodup : (entries.map Prod.fst).Nodup) (firstMember : (name, first) ∈ entries)
    (secondMember : (name, second) ∈ entries) : first = second :=
  congrArg Prod.snd (List.inj_on_of_nodup_map nodup firstMember secondMember rfl)

/-- What a name is read as in front of further locals is what it stands for by the tables in the
end. -/
theorem Follows.assigns (follows : Follows found statements listing draft)
    (nodup : ∀ table, (draft.names table).Nodup) (grown : earlier.locals <+: listing.locals)
    {name : Token} {term : Term} (read : earlier.named? found.scope name = some term)
    (placed : ∀ label, term = .label label → label ∈ listing.labelNames) :
    draft.Assigns name (term.resolve fun name => UInt16.ofNat (listing.address name)) := by
  rcases follows.agreed with ⟨before, agreed⟩
  have labels : draft.labelNames = found.scope.labels := agreed.knows.labels
  have globals : draft.globalAddresses = found.scope.globals := agreed.knows.globals
  have locals : draft.localOffsets = listing.locals := agreed.locals
  have isLabel {label : Label} (member : label ∈ draft.labels.toList) (same : label.name = name) :
      name ∈ found.scope.labels := by
    rw [← labels, ← same]
    exact List.mem_map_of_mem member
  have isGlobal {global : Global} (member : global ∈ draft.globals.toList)
      (same : global.name = name) : (name, global.address) ∈ draft.globalAddresses := by
    rw [← same]
    exact List.mem_map_of_mem member
  have meant := read
  unfold Listing.named? at meant
  split at meant
  next known =>
    have placedHere : name ∈ listing.labelNames := by
      cases meant
      exact placed name rfl
    cases meant
    constructor
    case label =>
      intro label member same
      rw [agreed.labels] at member
      obtain ⟨old, -, rfl⟩ := List.mem_map.mp member
      refine ⟨rfl, ?_⟩
      rw [show old.name = name from same, Listing.placed?, if_pos placedHere]
      rfl
    case global => exact fun noLabel => absurd (labels ▸ known) noLabel
    case frame => exact fun noLabel => absurd (labels ▸ known) noLabel
  next noLabel =>
    split at meant
    next address located =>
      cases meant
      constructor
      case label => exact fun label member same => absurd (isLabel member same) noLabel
      case global =>
        intro _ global member same
        have here := Listing.global_of_named? read
        rw [← globals] at here
        rw [value_unique (nodup .globals) here (isGlobal member same)]
        rfl
      case frame =>
        intro _ noGlobal
        rw [globalNames, globals] at noGlobal
        exact absurd (mem_keys_of_lookup located) noGlobal
    next unknown =>
      obtain ⟨offset, -, rfl⟩ := Option.map_eq_some_iff.mp meant
      constructor
      case label => exact fun label member same => absurd (isLabel member same) noLabel
      case global =>
        intro _ global member same
        have known := isGlobal member same
        rw [globals] at known
        exact absurd (List.mem_map_of_mem known) (not_mem_keys_of_lookup unknown)
      case frame =>
        intro _ _ slot member same
        have here : (name, offset) ∈ draft.localOffsets := by
          rw [locals]
          exact grown.subset (Listing.local_of_named? read)
        have there : (name, slot.offset) ∈ draft.localOffsets := by
          rw [← same]
          exact List.mem_map_of_mem member
        rw [value_unique (nodup .locals) here there]
        rfl

theorem Follows.nodup_names (follows : Follows found statements listing draft)
    (tidy : found.Tidy) (table : Table) : (draft.names table).Nodup := by
  rcases follows.agreed with ⟨before, agreed⟩
  cases table with
  | labels =>
      rw [names, labelNames, agreed.knows.labels]
      exact tidy.labelNames
  | globals =>
      rw [names, globalNames, globalAddresses, List.map_map]
      exact agreed.globalNames ▸ tidy.globalNames
  | locals =>
      rw [names, Draft.localNames, localOffsets, List.map_map]
      exact follows.localNames

/-- An operand that is written as a good name stands for it in the image. -/
theorem Follows.operand_assigned (follows : Follows found statements listing draft)
    (tidy : found.Tidy) (places : ∀ symbolic ∈ listing.codes, listing.Places symbolic)
    {before after : List Statement} {statement : Statement} {place offset : Nat} {token : Token}
    (split : statements = before ++ statement :: after)
    (written : statement.operands[place]? = some token)
    (good : Declarations.isName token = true) :
    ∃ fetched operand,
      (listing.program.locate offset)[before.countP Statement.makesCode]? = some fetched ∧
        fetched.written[place]? = some operand ∧ draft.Assigns token operand.toArgument := by
  have built := follows.built
  rw [split] at built
  obtain ⟨earlier, symbolic, -, emitted, grown, coded⟩ :=
    Listing.codes_of_split built (Statement.makesCode_of_operands (List.mem_of_getElem? written))
  obtain ⟨noRegister, byName⟩ := Listing.operand?_of_isName found.scope earlier good
  obtain ⟨term, atPlace, read⟩ := Listing.written_of_emitted? emitted written noRegister
  rw [byName] at read
  have member : symbolic ∈ listing.codes := List.mem_of_getElem? coded
  have assigned := follows.assigns (follows.nodup_names tidy) grown read fun label same =>
    places symbolic member label (same ▸ symbolic.written_subset (List.mem_of_getElem? atPlace))
  have inside : before.countP Statement.makesCode < (listing.program.locate offset).length := by
    rw [Program.length_locate, Listing.program, Listing.programWith_eq, List.length_map]
    exact (List.getElem?_eq_some_iff.mp coded).1
  have located := List.getElem?_eq_getElem inside
  have fetched := Listing.getElem?_locate_program coded located
  have operands := symbolic.written_locate (fun name => UInt16.ofNat (listing.address name))
    (offset + Program.size (listing.program.take (before.countP Statement.makesCode)))
  rw [← fetched] at operands
  have here := congrArg (fun written => written[place]?) operands
  rw [List.getElem?_map, List.getElem?_map, atPlace] at here
  obtain ⟨operand, carried, same⟩ := Option.map_eq_some_iff.mp here
  refine ⟨_, operand, located, carried, ?_⟩
  rw [same]
  exact assigned

end Draft

/-- The names that a statement declares, by their table. -/
def Statement.declares (table : Table) (statement : Statement) : List Token :=
  match table with
  | .labels => statement.declaredLabel?.toList
  | .globals => statement.declaredGlobals.map Prod.fst
  | .locals => (statement.declaredLocal?.map Prod.fst).toList

end Assembly

open Assembly

namespace Assembler

variable {assembler : Assembler} {text : String} {image : Image}

/-- Where a text assembles, each table has the names that are declared for it. -/
theorem names_of_assembled (assembled : (assembler.assemble (.ofString text)).outcome = .ok image)
    (table : Table) :
    (assembler.assemble (.ofString text)).assembler.names table =
      (Source.ofString text).statements.flatMap (Statement.declares table) := by
  have steady := Source.steady_ofString text
  cases table with
  | labels =>
      obtain ⟨_, _, first, -, -, encodes, sameLabels, -⟩ :=
        assembler.assembled_of_ok steady assembled
      have labels : (assembler.assemble (.ofString text)).assembler.labelNames =
          (Source.ofString text).statements.filterMap Statement.declaredLabel? := by
        rw [Draft.labelNames, sameLabels, encodes.agreed.knows.labels, encodes.scope rfl]
        rfl
      rw [Draft.names, labels, List.filterMap_eq_flatMap_toList]
      rfl
  | globals =>
      obtain ⟨_, _, first, -, -, encodes, -, sameGlobals⟩ :=
        assembler.assembled_of_ok steady assembled
      have names := congrArg (List.map Prod.fst) encodes.globalEntries
      rw [List.map_map, List.map_flatMap] at names
      rw [Draft.names, Draft.globalNames, Draft.globalAddresses, List.map_map, sameGlobals]
      exact names
  | locals =>
      obtain ⟨found, second, listing, header, -, -, -, -, follows, -, -, -, left⟩ :=
        follows_of_ok assembled
      rw [Source.statements_revisited steady] at follows
      have names := congrArg (List.map Prod.fst) follows.locals
      rw [List.map_map, List.map_filterMap, List.filterMap_eq_flatMap_toList] at names
      rw [left, Draft.names, Draft.localNames, Draft.localOffsets, List.map_map]
      exact names

/-- Where a text assembles, nothing but good names is in its tables. -/
theorem isName_of_assembled (assembled : (assembler.assemble (.ofString text)).outcome = .ok image)
    {table : Table} {name : Token}
    (member : name ∈ (assembler.assemble (.ofString text)).assembler.names table) :
    Declarations.isName name = true := by
  obtain ⟨statements, draft, -, encoded, -, left⟩ := statements_of_assembled assembled
  have same : (assembler.assemble (.ofString text)).assembler.names table = draft.names table := by
    rw [left]
    cases table <;> rfl
  rw [same] at member
  exact (Draft.words_of_names encoded member).1

/-- Where a text assembles, each table has the names that are declared for it and none of them
twice, and every operand that is written as a name of a table has in the image what the name stands
for. -/
theorem names_stand_for_first_table (assembler : Assembler) {text : String} {image : Image}
    (assembled : (assembler.assemble (.ofString text)).outcome = .ok image) :
    let draft := (assembler.assemble (.ofString text)).assembler.toDraft
    let statements := (Source.ofString text).statements
    (∀ table, draft.names table = statements.flatMap (Statement.declares table) ∧
      (draft.names table).Nodup) ∧
    ∃ decoded : List Fetched, Fetch.instructions image.size { image with cursor := Header.length } =
        .ok decoded { image with cursor := image.size } ∧
      ∀ before statement after, statements = before ++ statement :: after →
        ∀ (place : Nat) (token : Token), statement.operands[place]? = some token →
          (∃ table, token ∈ draft.names table) →
          ∃ (fetched : Fetched) (operand : Operand),
            decoded[before.countP Statement.makesCode]? = some fetched ∧
            fetched.written[place]? = some operand ∧ draft.Assigns token operand.toArgument := by
  intro draft statements
  obtain ⟨found, second, listing, header, -, tidy, -, -, follows, places, linked, -, left⟩ :=
    follows_of_ok assembled
  rw [Source.statements_revisited (Source.steady_ofString text)] at follows
  refine ⟨fun table => ⟨names_of_assembled assembled table, ?_⟩, _, linked.decodes, ?_⟩
  · have same : draft.names table = second.names table := by
      simp only [draft, left]
      cases table <;> rfl
    rw [same]
    exact follows.nodup_names tidy table
  · intro before statement after split place token written declared
    obtain ⟨table, member⟩ := declared
    obtain ⟨fetched, operand, located, carried, assigned⟩ :=
      follows.operand_assigned tidy places split written (isName_of_assembled assembled member)
    refine ⟨fetched, operand, located, carried, ?_⟩
    simp only [draft, left]
    exact ⟨assigned.label, assigned.global, assigned.frame⟩

/-- A global, a local of the same name, and an operand that stands for the global. -/
def shadowed : String := "byte a\nlocal byte a\nmov a, reg00\n"

/-- A text may assemble although a name is declared in two of its tables, and then no operand stands
for the later one. -/
theorem local_shadowed_by_global :
    let attempt := empty.assemble (.ofString shadowed)
    ['a'] ∈ attempt.assembler.names .globals ∧ ['a'] ∈ attempt.assembler.names .locals ∧
      (attempt.outcome.toOption.bind fun image =>
        match Fetch.instructions image.size { image with cursor := Header.length } with
        | .ok decoded _ => decoded[1]?.map fun fetched => fetched.written.map Operand.toArgument
        | .error _ _ => none) = some [⟨.global, 8⟩, ⟨.register, 0⟩] := by
  decide +kernel

theorem names_stand_for_first_table_shadowed :
    ∃ (image : Image) (decoded : List Fetched) (fetched : Fetched) (operand : Operand),
      (empty.assemble (.ofString shadowed)).outcome = .ok image ∧
      Fetch.instructions image.size { image with cursor := Header.length } =
        .ok decoded { image with cursor := image.size } ∧
      decoded[1]? = some fetched ∧ fetched.written[0]? = some operand ∧
      operand.toArgument = ⟨.global, 8⟩ := by
  have ends : (empty.assemble (.ofString shadowed)).outcome.toOption.isSome := by
    decide +kernel
  have global : (⟨['a'], 8, .byte, true⟩ : Global) ∈
      (empty.assemble (.ofString shadowed)).assembler.globals.toList := by
    decide +kernel
  have noLabel : ['a'] ∉ (empty.assemble (.ofString shadowed)).assembler.labelNames := by
    decide +kernel
  have declared : ['a'] ∈ (empty.assemble (.ofString shadowed)).assembler.names .globals := by
    decide +kernel
  have statements : (Source.ofString shadowed).statements =
      [.globals .byte [['a']], .localVariable ["byte".toList, ['a']]] ++
        .instruction "mov".toList [['a'], "reg00".toList] :: [] := by
    decide +kernel
  cases outcome : (empty.assemble (.ofString shadowed)).outcome with
  | error error =>
      rw [outcome] at ends
      cases ends
  | ok image =>
      obtain ⟨-, decoded, reads, assigns⟩ := names_stand_for_first_table empty outcome
      obtain ⟨fetched, operand, read, written, assigned⟩ :=
        assigns _ _ _ statements 0 ['a'] rfl ⟨.globals, declared⟩
      exact ⟨image, decoded, fetched, operand, rfl, reads, read, written,
        assigned.global noLabel _ global rfl⟩

end Assembler

end WordMachine
