import WordMachine.Proofs.Assembly.Recasting
import WordMachine.Proofs.Assembly.Relocation

/-!
# Encoding behind a front

Labels and instructions can be encoded behind other statements. Both are read for their names at
once, so the labels behind stand in the table from the start: what is in front is encoded as it was
without them (`Draft.addAll_withLabels`). What is behind is encoded as it was without a front, with
labels at other positions (`Draft.Behind`), as long as these fit a word (`Draft.addAll_behind`). A
statement that names a label whose position does not is turned down
(`Draft.addStatement_out_of_reach`).
-/

namespace WordMachine

namespace Assembly

namespace Statement

/-- Whether a statement is no pragma and declares no variable. -/
def isCode : Statement → Bool
  | .blank | .label _ _ | .instruction _ _ => true
  | .pragma _ | .localVariable _ | .globals _ _ => false

/-- Whether the operands that name one of these labels name it by a position of one word, with
`ahead` other labels in front. -/
def LabelsFit (labels : List Token) (ahead : Nat) (statement : Statement) : Prop :=
  ∀ token ∈ statement.operands, ∀ index ∈ labels.idxOf? token, ahead + index < 0x10000

instance (labels : List Token) (ahead : Nat) (statement : Statement) :
    Decidable (statement.LabelsFit labels ahead) :=
  inferInstanceAs (Decidable (∀ _ ∈ _, ∀ _ ∈ List.idxOf? _ _, _))

variable {statement : Statement}

theorem declaredGlobals_of_isCode (code : statement.isCode = true) :
    statement.declaredGlobals = [] := by
  cases statement with
  | globals type names => cases code
  | _ => rfl

theorem flatMap_declaredGlobals {statements : List Statement}
    (code : ∀ statement ∈ statements, statement.isCode = true) :
    statements.flatMap declaredGlobals = [] :=
  List.flatMap_eq_nil_iff.mpr fun statement member =>
    declaredGlobals_of_isCode (code statement member)

theorem declaredLocal?_of_isCode (code : statement.isCode = true) :
    statement.declaredLocal? = none := by
  cases statement with
  | localVariable arguments => cases code
  | _ => rfl

theorem setting?_of_isCode (code : statement.isCode = true) (setting : String) :
    statement.setting? setting = none := by
  cases statement with
  | pragma arguments => cases code
  | _ => rfl

end Statement

/-! ## Declarations -/

namespace Declarations

/-- Declarations with the labels of others behind their own, on lines further on. -/
def behind (front own : Declarations) : Declarations :=
  { front with
    labels := front.labels ++ own.labels.map fun label =>
      { label with line := front.line + label.line }
    line := front.line + own.line }

theorem labelNames_behind (front own : Declarations) :
    (front.behind own).labelNames = front.labelNames ++ own.labelNames := by
  rw [labelNames, behind, Array.toList_append, Array.toList_map, List.map_append, List.map_map]
  rfl

theorem addStatement_behind {front own : Declarations} {statement : Statement}
    (code : statement.isCode = true)
    (apart : ∀ name ∈ statement.declaredLabel?, name ∉ front.labelNames) :
    (front.behind own).nextLine.addStatement statement =
      front.behind (own.nextLine.addStatement statement) := by
  have next : (front.behind own).nextLine = front.behind own.nextLine := by
    simp only [nextLine, behind, LineNumber.add_assoc]
  rw [next]
  cases statement with
  | blank => rfl
  | instruction mnemonic operands => rfl
  | pragma arguments => cases code
  | localVariable arguments => cases code
  | globals type names => cases code
  | label name rest =>
      have freshIff : (isName name = true ∧ name ∉ (front.behind own.nextLine).labelNames) ↔
          isName name = true ∧ name ∉ own.nextLine.labelNames := by
        rw [labelNames_behind, List.mem_append, not_or]
        exact and_congr_right fun _ => and_iff_right (apart name rfl)
      rw [addStatement, addStatement]
      by_cases fresh : isName name = true ∧ name ∉ own.nextLine.labelNames
      · have freshThen := freshIff.mpr fresh
        rw [addLabel_of_fresh fresh.1 fresh.2, addLabel_of_fresh freshThen.1 freshThen.2]
        simp only [pushLabel, behind, Array.map_push, Array.push_append]
      · rw [addLabel_of_not_fresh fresh, addLabel_of_not_fresh (mt freshIff.mp fresh)]

/-- What statements behind others declare stands behind what these declare. -/
theorem ofStatements_append {front back : List Statement}
    (code : ∀ statement ∈ back, statement.isCode = true)
    (apart : ∀ statement ∈ back, ∀ name ∈ statement.declaredLabel?,
      name ∉ (ofStatements front).labelNames) :
    ofStatements (front ++ back) = (ofStatements front).behind (ofStatements back) := by
  induction back using List.reverseRecOn with
  | nil =>
      simp only [List.append_nil, behind, ofStatements, List.foldl_nil, empty, Array.map_empty,
        Array.append_empty, LineNumber.add_zero]
  | append_singleton earlier last ih =>
      have isLast : last ∈ earlier ++ [last] := List.mem_append_right _ (List.mem_singleton_self _)
      have before := ih (fun statement member => code statement (List.mem_append_left _ member))
        fun statement member => apart statement (List.mem_append_left _ member)
      rw [← List.append_assoc, ofStatements_concat, ofStatements_concat, before]
      exact addStatement_behind (code last isLast) (apart last isLast)

end Declarations

/-! ## The front -/

namespace Draft

/-- The draft with further labels behind its own. -/
def withLabels (draft : Draft) (more : Array Label) : Draft :=
  { draft with labels := draft.labels ++ more }

end Draft

namespace Recast

/-- Names as they are, and labels behind. -/
def extend (more : Array Label) : Recast := ⟨id, id, id, id, more⟩

theorem extend_draft (more : Array Label) (start : Draft) :
    (extend more).draft start = start.withLabels more := by
  simp only [Recast.draft, extend, Draft.withLabels, id_eq, Array.map_id']

theorem extend_statement (more : Array Label) (statement : Statement) :
    (extend more).statement statement = statement := by
  cases statement with
  | label name rest => cases rest <;> simp [Recast.statement, extend, code]
  | localVariable arguments =>
      rw [Recast.statement, localArguments.eq_def]
      split <;> rfl
  | globals type names => simp [Recast.statement, extend]
  | instruction mnemonic operands => simp [Recast.statement, extend]
  | blank => rfl
  | pragma arguments => rfl

theorem finds_id (names : List Token) (name : Token) : Finds id names name name :=
  ⟨fun _ => rfl, fun _ _ same => same⟩

theorem extend_suits (more : Array Label) (final : Draft) : (extend more).Suits final where
  good _ good := ⟨good, good, good⟩
  labels _ _ _ _ same := same
  globals _ _ _ _ same := same
  locals _ _ _ _ same := same
  registers _ _ := rfl

/-- Labels with other names than those that are known change nothing for operands. -/
theorem extend_reads {more : Array Label} {between final : Draft}
    (fresh : ∀ label ∈ more.toList, label.name ∉ final.labelNames ∧
      label.name ∉ final.globalNames ∧ label.name ∉ final.localNames)
    (within : between.Within final) (token : Token) : (extend more).Reads between token := by
  intro argument read
  change ((extend more).draft between).argument token = .ok argument
  rcases Draft.argument_cases token with named | ⟨outcome, same, -⟩
  · rw [named] at read ⊢
    refine named_draft (finds_id _ token) ?_ (fun _ => finds_id _ token)
      (fun _ _ => finds_id _ token) read
    intro isMore
    obtain ⟨label, member, rfl⟩ := List.mem_map.mp isMore
    obtain ⟨noLabel, noGlobal, noLocal⟩ := fresh label member
    rw [← within.labels] at noLabel
    rw [← within.globalNames] at noGlobal
    rcases Draft.named_eq_ok_iff.mp read with ⟨index, found, -⟩ | ⟨-, address, found, -⟩ |
      ⟨-, -, offset, found, -⟩
    · exact mem_of_idxOf? found
    · exact absurd (mem_keys_of_lookup found) noGlobal
    · exact absurd (within.localNames_subset (mem_keys_of_lookup found)) noLocal
  · rwa [same] at read ⊢

end Recast

namespace Draft

variable {start final : Draft}

/-- Labels behind those of a draft make no difference to statements that were encoded, unless
one has the name of something else. -/
theorem addAll_withLabels {statements : List Statement} {more : Array Label}
    (fresh : ∀ label ∈ more.toList, label.name ∉ final.labelNames ∧
      label.name ∉ final.globalNames ∧ label.name ∉ final.localNames)
    (encoded : addAll statements start = .ok () final) :
    addAll statements (start.withLabels more) = .ok () (final.withLabels more) := by
  have recast := Recast.addAll_draft (Recast.extend_suits more final)
    (fun _ _ token _ _ within => Recast.extend_reads fresh within token) encoded
  have unchanged : statements.map (Recast.extend more).statement = statements :=
    (List.map_congr_left fun statement _ => Recast.extend_statement more statement).trans
      (List.map_id' statements)
  rwa [unchanged, Recast.extend_draft, Recast.extend_draft] at recast

/-! ## Behind the front -/

/-- Encoding never takes code away. -/
theorem codeSize_le_of_addStatement {statement : Statement} (code : statement.isCode = true)
    (encoded : addStatement statement start = .ok () final) :
    start.writer.code.size ≤ final.writer.code.size := by
  have ofInstruction {mnemonic : Token} {operands : List Token} {middle : Draft}
      (added : addInstruction mnemonic operands middle = .ok () final) :
      middle.writer.code.size ≤ final.writer.code.size := by
    obtain ⟨opcode, instruction, -, -, rfl⟩ := addInstruction_eq_ok_iff.mp added
    simp only [← Array.length_toList, Writer.code_emit, List.length_append]
    exact Nat.le_add_right _ _
  cases statement with
  | blank =>
      cases encoded
      exact Nat.le_refl _
  | label name rest =>
      cases rest with
      | nil =>
          obtain ⟨-, _, _, -, -, -, rfl⟩ := placeLabel_eq_ok_iff.mp encoded
          exact Nat.le_refl _
      | cons mnemonic operands =>
          obtain ⟨middle, placed, added⟩ := addStatement_label_eq_ok_iff.mp encoded
          obtain ⟨-, _, _, -, -, -, rfl⟩ := placeLabel_eq_ok_iff.mp placed
          have grown := ofInstruction added
          exact grown
  | instruction mnemonic operands => exact ofInstruction encoded
  | pragma arguments => cases code
  | localVariable arguments => cases code
  | globals type names => cases code

theorem codeSize_le_of_addAll {statements : List Statement}
    (code : ∀ statement ∈ statements, statement.isCode = true)
    (encoded : addAll statements start = .ok () final) :
    start.writer.code.size ≤ final.writer.code.size := by
  induction statements generalizing start with
  | nil =>
      cases encoded
      exact Nat.le_refl _
  | cons statement rest ih =>
      rw [List.forall_mem_cons] at code
      obtain ⟨middle, first, later⟩ := addAll_cons_iff.mp encoded
      rw [addNext_eq] at first
      exact (codeSize_le_of_addStatement code.1 first).trans (ih code.2 later)

/-- Whether a draft has the labels and the code of another behind a front, with nothing but
labels and code in the other, and no name in both. -/
structure Behind (front draft other : Draft) : Prop where
  labels : other.labelNames = front.labelNames ++ draft.labelNames
  apart : ∀ name ∈ draft.labelNames, name ∉ front.labelNames
  good : ∀ name ∈ draft.labelNames, Declarations.isName name = true
  placed : ∀ index : Nat,
    (other.labels[front.labels.size + index]?.bind Label.address).isSome =
      (draft.labels[index]?.bind Label.address).isSome
  globals : draft.globalAddresses = []
  locals : draft.localOffsets = []
  size : other.writer.code.size = front.writer.code.size + draft.writer.code.size

/-- A draft that starts with labels only stands behind the front when the front has these labels
too, wherever they are declared. -/
theorem behind_of_declarations (front : Draft) {found : Declarations} (tidy : found.Tidy)
    (noGlobals : found.scope.globals = [])
    (apart : ∀ name ∈ found.labelNames, name ∉ front.labelNames) (line : LineNumber) :
    Behind front (.ofDeclarations found) (front.withLabels
      (found.labels.map fun label => { label with line := line + label.line })) where
  labels := by
    rw [withLabels, labelNames, Array.toList_append, List.map_append, Array.toList_map,
      List.map_map]
    rfl
  apart := apart
  good := tidy.goodLabels
  placed := by
    intro index
    rw [withLabels, Array.getElem?_append_right (Nat.le_add_right _ _), Nat.add_sub_cancel_left,
      Array.getElem?_map, ofDeclarations]
    cases found.labels[index]? <;> rfl
  globals := noGlobals
  locals := rfl
  size := rfl

variable {front draft other after : Draft}

theorem Behind.isIdentifier (behind : Behind front draft other) {name : Token}
    (known : name ∈ draft.labelNames) : Name.isIdentifier name = true :=
  (Bool.and_eq_true_iff.mp (behind.good name known)).1

/-- What is read as an operand is read behind the front, up to the position of a label; a label
that has no position of one word there is turned down. -/
theorem argument_behind (behind : Behind front draft other) {token : Token} {argument : Argument}
    (read : draft.argument token = .ok argument) :
    other.argument token =
      if ∀ index ∈ draft.labelNames.idxOf? token, front.labelNames.length + index < 0x10000 then
        .ok (argument.relocate front.labelNames.length)
      else .error .invalidAddress := by
  cases found : draft.labelNames.idxOf? token with
  | some index =>
      have known := mem_of_idxOf? found
      have identifier := behind.isIdentifier known
      have foundThen : other.labelNames.idxOf? token = some (front.labelNames.length + index) := by
        rw [behind.labels, idxOf?_append_right (behind.apart token known), found, Option.map_some]
      rw [argument_of_isIdentifier identifier, named_of_label found] at read
      rw [argument_of_isIdentifier identifier, named_of_label foundThen]
      split at read
      next small =>
        cases read
        simp only [Option.mem_some_iff, forall_eq', Argument.relocate, if_pos,
          UInt16.toNat_ofNat_of_lt' small, Nat.add_comm]
      next => cases read
  | none =>
      rw [if_pos fun index member => by cases member]
      rcases argument_cases token with named | ⟨outcome, same, noLabel⟩
      · rw [named] at read
        rcases named_eq_ok_iff.mp read with ⟨index, label, -⟩ | ⟨-, address, global, -⟩ |
          ⟨-, -, offset, slot, -⟩
        · rw [found] at label
          cases label
        · rw [behind.globals] at global
          cases global
        · rw [behind.locals] at slot
          cases slot
      · rw [same] at read ⊢
        rw [read, Argument.relocate_of_plain (noLabel argument read)]

theorem addInstruction_behind (behind : Behind front draft other) {mnemonic : Token}
    {operands : List Token}
    (reaches : Statement.LabelsFit draft.labelNames front.labelNames.length
      (.instruction mnemonic operands))
    (encoded : addInstruction mnemonic operands draft = .ok () after) :
    ∃ otherAfter, addInstruction mnemonic operands other = .ok () otherAfter ∧
      Behind front after otherAfter := by
  obtain ⟨opcode, instruction, known, read, rfl⟩ := addInstruction_eq_ok_iff.mp encoded
  have reads : ∀ token ∈ operands, ∀ argument, draft.argument token = .ok argument →
      other.argument (id token) = .ok (argument.relocate front.labelNames.length) := by
    intro token member argument found
    rw [id_eq, argument_behind behind found, if_pos (reaches token member)]
  have readThen := instruction_of_reads (Argument.mode_relocate _) rfl reads (fun _ _ _ => rfl) read
  rw [List.map_id] at readThen
  refine ⟨_, addInstruction_eq_ok_iff.mpr ⟨opcode, _, known, readThen, rfl⟩, behind.labels,
    behind.apart, behind.good, behind.placed, behind.globals, behind.locals, ?_⟩
  have size := Instruction.size_mapOperands (Argument.mode_relocate front.labelNames.length)
    instruction
  rw [Instruction.size, Instruction.size] at size
  simp only [← Array.length_toList, Writer.code_emit, List.length_append, size]
  simp only [Array.length_toList, behind.size, Nat.add_assoc]

/-- An instruction is turned down behind the front if an operand names a label that has no position
of one word there. -/
theorem addInstruction_out_of_reach (behind : Behind front draft other) {mnemonic : Token}
    {operands : List Token}
    (misses : ¬ Statement.LabelsFit draft.labelNames front.labelNames.length
      (.instruction mnemonic operands))
    (encoded : addInstruction mnemonic operands draft = .ok () after) :
    addInstruction mnemonic operands other = .error .invalidAddress other := by
  obtain ⟨opcode, instruction, known, read, rfl⟩ := addInstruction_eq_ok_iff.mp encoded
  have reads : ∀ token ∈ operands, ∀ argument readThen, draft.argument token = .ok argument →
      other.argument (id token) = .ok readThen →
      readThen = argument.relocate front.labelNames.length := by
    intro token member argument readThen found foundThen
    rw [id_eq, argument_behind behind found] at foundThen
    split at foundThen
    · cases foundThen
      rfl
    · cases foundThen
  rcases instruction_yieldsOr (Argument.mode_relocate _) rfl reads (fun _ _ _ => rfl) read with
    readThen | ⟨cause, ⟨token, member, ⟨argument, found⟩, turnedDown⟩, turnedDownThen⟩
  · -- The label out of reach is no register, so it was read as an operand in both drafts.
    refine absurd (fun token member index isLabel => ?_) misses
    rw [List.map_id] at readThen
    have noRegister : ¬ (Name.register? token).isSome := by
      rw [register?_of_isIdentifier (behind.isIdentifier (mem_of_idxOf? isLabel))]
      exact Bool.false_ne_true
    obtain ⟨argument, found⟩ := (reads_of_instruction read token member).resolve_left noRegister
    obtain ⟨argumentThen, foundThen⟩ :=
      (reads_of_instruction readThen token member).resolve_left noRegister
    rw [argument_behind behind found] at foundThen
    split at foundThen
    next reaches => exact reaches index isLabel
    next => cases foundThen
  · rw [List.map_id] at turnedDownThen
    rw [id_eq, argument_behind behind found] at turnedDown
    split at turnedDown
    · cases turnedDown
    · cases turnedDown
      exact addInstruction_of_error known turnedDownThen

/-- A label is placed behind the front, if the code still fits an image there. -/
theorem placeLabel_behind (behind : Behind front draft other) {name : Token}
    (fits : Header.length + front.writer.code.size + draft.writer.code.size < Writer.maxImageSize)
    (encoded : placeLabel name draft = .ok () after) :
    ∃ otherAfter, placeLabel name other = .ok () otherAfter ∧ Behind front after otherAfter := by
  obtain ⟨good, address, index, offset, found, unplaced, rfl⟩ := placeLabel_eq_ok_iff.mp encoded
  have size : other.writer.size < Writer.maxImageSize := by
    rw [Writer.size, behind.size]
    omega
  have length : front.labelNames.length = front.labels.size := by
    rw [labelNames, List.length_map, Array.length_toList]
  have foundThen : findLabel? other.labels name = some (front.labels.size + index) := by
    rw [findLabel?_eq_idxOf?] at found ⊢
    change other.labelNames.idxOf? name = _
    change draft.labelNames.idxOf? name = _ at found
    rw [behind.labels, idxOf?_append_right (behind.apart name (mem_of_idxOf? found)), found,
      Option.map_some, length]
  have unplacedThen : other.labels[front.labels.size + index]?.bind Label.address = none := by
    have same := behind.placed index
    rw [unplaced, Option.isSome_none] at same
    exact Option.not_isSome_iff_eq_none.mp (by rw [same]; exact Bool.false_ne_true)
  have placed := placeLabel_eq_ok_iff.mpr
    ⟨good, UInt16.ofNat other.writer.size, _, if_pos size, foundThen, unplacedThen, rfl⟩
  have names := (within_of_placeLabel encoded).labels
  refine ⟨_, placed, ?_, names ▸ behind.apart, names ▸ behind.good, ?_, behind.globals,
    behind.locals, behind.size⟩
  · rw [← (within_of_placeLabel placed).labels, ← names]
    exact behind.labels
  · intro place
    obtain ⟨inside, -⟩ := Array.findIdx?_eq_some_iff_getElem.mp found
    obtain ⟨insideThen, -⟩ := Array.findIdx?_eq_some_iff_getElem.mp foundThen
    simp only [Array.getElem?_modify, Nat.add_left_cancel_iff]
    by_cases here : index = place
    · subst here
      rw [if_pos rfl, if_pos rfl, Array.getElem?_eq_getElem inside,
        Array.getElem?_eq_getElem insideThen]
      rfl
    · rw [if_neg here, if_neg here]
      exact behind.placed place

/-- A statement is encoded behind the front as it was without it, if its operands name labels that
have positions of one word there. -/
theorem addStatement_behind (behind : Behind front draft other) {statement : Statement}
    (code : statement.isCode = true)
    (reaches : statement.LabelsFit draft.labelNames front.labelNames.length)
    (fits : Header.length + front.writer.code.size + after.writer.code.size < Writer.maxImageSize)
    (encoded : addStatement statement draft = .ok () after) :
    ∃ otherAfter, addStatement statement other = .ok () otherAfter ∧
      Behind front after otherAfter := by
  cases statement with
  | blank =>
      cases encoded
      exact ⟨other, rfl, behind⟩
  | instruction mnemonic operands => exact addInstruction_behind behind reaches encoded
  | label name rest =>
      have grown := codeSize_le_of_addStatement code encoded
      cases rest with
      | nil => exact placeLabel_behind behind (by omega) encoded
      | cons mnemonic operands =>
          obtain ⟨middle, placed, added⟩ := addStatement_label_eq_ok_iff.mp encoded
          obtain ⟨otherMiddle, otherPlaced, middleBehind⟩ :=
            placeLabel_behind behind (by omega) placed
          have names := (within_of_placeLabel placed).labels
          obtain ⟨otherAfter, otherAdded, afterBehind⟩ :=
            addInstruction_behind middleBehind (names ▸ reaches) added
          exact ⟨otherAfter,
            addStatement_label_eq_ok_iff.mpr ⟨otherMiddle, otherPlaced, otherAdded⟩, afterBehind⟩
  | pragma arguments => cases code
  | localVariable arguments => cases code
  | globals type names => cases code

/-- A statement is turned down behind the front if an operand names a label that has no position of
one word there. -/
theorem addStatement_out_of_reach (behind : Behind front draft other) {statement : Statement}
    (code : statement.isCode = true)
    (misses : ¬ statement.LabelsFit draft.labelNames front.labelNames.length)
    (fits : Header.length + front.writer.code.size + after.writer.code.size < Writer.maxImageSize)
    (encoded : addStatement statement draft = .ok () after) :
    ∃ otherAfter, addStatement statement other = .error .invalidAddress otherAfter := by
  have noOperands : ∀ token ∈ ([] : List Token), ∀ index ∈ draft.labelNames.idxOf? token,
      front.labelNames.length + index < 0x10000 :=
    fun token member => (List.not_mem_nil member).elim
  cases statement with
  | blank => exact absurd noOperands misses
  | instruction mnemonic operands =>
      exact ⟨other, addInstruction_out_of_reach behind misses encoded⟩
  | label name rest =>
      have grown := codeSize_le_of_addStatement code encoded
      cases rest with
      | nil => exact absurd noOperands misses
      | cons mnemonic operands =>
          obtain ⟨middle, placed, added⟩ := addStatement_label_eq_ok_iff.mp encoded
          obtain ⟨otherMiddle, otherPlaced, middleBehind⟩ :=
            placeLabel_behind behind (by omega) placed
          have names := (within_of_placeLabel placed).labels
          have turnedDown := addInstruction_out_of_reach middleBehind (names ▸ misses) added
          exact ⟨otherMiddle, (bind_of_ok otherPlaced).trans turnedDown⟩
  | pragma arguments => cases code
  | localVariable arguments => cases code
  | globals type names => cases code

/-- Behind stays what it is on the next line. -/
theorem Behind.nextLine (behind : Behind front draft other) :
    Behind front { draft with line := draft.line + 1 } { other with line := other.line + 1 } :=
  { behind with }

/-- Statements are encoded behind the front as they were without it. -/
theorem addAll_behind (behind : Behind front draft other) {statements : List Statement}
    (code : ∀ statement ∈ statements, statement.isCode = true)
    (reaches : ∀ statement ∈ statements,
      statement.LabelsFit draft.labelNames front.labelNames.length)
    (fits : Header.length + front.writer.code.size + after.writer.code.size < Writer.maxImageSize)
    (encoded : addAll statements draft = .ok () after) :
    ∃ otherAfter, addAll statements other = .ok () otherAfter ∧
      Behind front after otherAfter := by
  induction statements generalizing draft other with
  | nil =>
      cases encoded
      exact ⟨other, rfl, behind⟩
  | cons statement rest ih =>
      rw [List.forall_mem_cons] at code reaches
      obtain ⟨middle, first, later⟩ := addAll_cons_iff.mp encoded
      have grown := codeSize_le_of_addAll code.2 later
      have names := (within_of_addNext first).labels
      rw [addNext_eq] at first
      obtain ⟨otherMiddle, otherFirst, middleBehind⟩ :=
        addStatement_behind behind.nextLine code.1 reaches.1 (by omega) first
      obtain ⟨otherAfter, otherLater, afterBehind⟩ :=
        ih middleBehind code.2 (names ▸ reaches.2) later
      exact ⟨otherAfter, addAll_cons_iff.mpr ⟨otherMiddle, otherFirst, otherLater⟩, afterBehind⟩

end Draft

end Assembly

end WordMachine
