import WordMachine.Proofs.Assembly.Contributions

/-!
# What it takes to encode a statement

For each operation on a draft the drafts that it accepts, and the draft it leaves of each. An
operand that is written as a name is looked up in the names of the labels, the addresses of the
globals and the offsets of the locals (`Draft.named_eq_ok_iff`), and nothing else of a draft
matters to it. So where names are found alike in two drafts, instructions are read alike
(`Draft.instruction_of_reads`), and where one is not found alike, the instruction is turned down
for it (`Draft.instruction_yieldsOr`).
-/

namespace WordMachine

namespace Instruction

/-- The instruction with its operands changed. -/
def mapOperands (change : Argument → Argument) (instruction : Instruction) : Instruction :=
  { instruction with dst := change instruction.dst, src := change instruction.src }

/-- An instruction stays as long as it is if its operands keep their modes. -/
theorem size_mapOperands {change : Argument → Argument}
    (keepsMode : ∀ argument, (change argument).mode = argument.mode) (instruction : Instruction) :
    (instruction.mapOperands change).size = instruction.size := by
  simp only [size, encode, encodeOperands, mapOperands]
  by_cases bare : instruction.opcode.shape = .bare
  · simp [bare]
  · simp [bare, keepsMode]

end Instruction

namespace Assembly.Draft

variable {draft final : Draft}

/-- The names of the labels, in the order of the table. -/
def labelNames (draft : Draft) : List Token := draft.labels.toList.map Label.name

/-- The globals with their addresses, in the order of the table. -/
def globalAddresses (draft : Draft) : List (Token × Word) :=
  draft.globals.toList.map fun global => (global.name, global.address)

/-- The locals with their offsets, in the order of the table. -/
def localOffsets (draft : Draft) : List (Token × Word) :=
  draft.locals.toList.map fun slot => (slot.name, slot.offset)

/-! ## Declarations -/

theorem checkName_eq_ok_iff {name : Token} :
    checkName name draft = .ok () final ↔ Declarations.isName name = true ∧ final = draft := by
  constructor
  · intro accepted
    have ended := (checkName_ends name).of_ok accepted
    exact ⟨ended.2, ended.1⟩
  · rintro ⟨good, rfl⟩
    rw [Declarations.isName, Bool.and_eq_true, decide_eq_true_eq] at good
    simp only [checkName, good.1, good.2, if_true]
    rfl

theorem placeLabel_eq_ok_iff {name : Token} :
    placeLabel name draft = .ok () final ↔
      Declarations.isName name = true ∧ ∃ address index,
        draft.writer.offset = .ok address ∧ findLabel? draft.labels name = some index ∧
        draft.labels[index]?.bind Label.address = none ∧
        final = { draft with
          labels := draft.labels.modify index fun label =>
            { label with address := some address } } := by
  constructor
  · exact fun accepted => (placeLabel_ends name).of_ok accepted
  · rintro ⟨good, address, index, offset, found, unplaced, rfl⟩
    rw [placeLabel, bind_of_ok (checkName_eq_ok_iff.mpr ⟨good, rfl⟩), get_bind, offset]
    simp only [found, unplaced, pure_bind, Option.isSome_none, Bool.false_eq_true, if_false]
    rfl

theorem declareGlobal_eq_ok_iff {name : Token} :
    declareGlobal name draft = .ok () final ↔
      Declarations.isName name = true ∧ ∃ index global,
        findGlobal? draft.globals name = some index ∧ draft.globals[index]? = some global ∧
        global.declared = false ∧ global.fits draft.dataSize = true ∧
        final = { draft with
          globals := draft.globals.modify index fun global =>
            { global with declared := true } } := by
  constructor
  · exact fun accepted => (declareGlobal_ends name).of_ok accepted
  · rintro ⟨good, index, global, found, here, undeclared, fits, rfl⟩
    rw [declareGlobal, bind_of_ok (checkName_eq_ok_iff.mpr ⟨good, rfl⟩), get_bind]
    simp only [found, here, Option.any_some, undeclared, Option.all_some, fits,
      Bool.false_eq_true, if_false, if_true]
    rfl

theorem declareLocal_eq_ok_iff {arguments : List Token} :
    declareLocal arguments draft = .ok () final ↔
      ∃ keyword name type frameSize, arguments = [keyword, name] ∧
        VariableType.ofKeyword? keyword = some type ∧ draft.stackUsed = false ∧
        Declarations.isName name = true ∧ name ∉ draft.locals.toList.map Local.name ∧
        Declarations.addressAfter? draft.frameSize type.size = some frameSize ∧
        final = { draft with
          locals := draft.locals.push ⟨name, draft.frameSize, type⟩
          frameSize
          instructionLines := draft.instructionLines.push draft.line
          writer := draft.writer.emit ((Listing.pushZero type).resolve fun _ => 0) } := by
  constructor
  · intro accepted
    exact (declareLocal_ends ⟨[], []⟩ arguments).of_ok accepted
  · rintro ⟨keyword, name, type, frameSize, rfl, known, unused, good, fresh, next, rfl⟩
    have unknown : (draft.locals.any fun other => other.name == name) = false := by
      rw [Array.any_eq_false']
      intro slot member same
      exact fresh (List.mem_map.mpr ⟨slot, Array.mem_toList_iff.mpr member, beq_iff_eq.mp same⟩)
    conv_lhs =>
      simp only [declareLocal, known, pure_bind, get_bind, unused, Bool.false_eq_true, if_false,
        bind_of_ok (checkName_eq_ok_iff.mpr ⟨good, rfl⟩), unknown, next]
    rfl

theorem setSize_eq_ok_iff {set : UInt64 → Draft → Draft} {arguments : List Token} :
    setSize set arguments draft = .ok () final ↔
      ∃ value size, arguments = [value] ∧ Numeral.size? value = some size ∧
        final = set size draft ∧ final.Fitting := by
  constructor
  · exact fun accepted => (setSize_ends arguments).of_ok accepted
  · rintro ⟨value, size, rfl, known, rfl, fitting⟩
    have allFit : ((set size draft).globals.any fun global =>
        global.declared && !global.fits (set size draft).dataSize) = false := by
      rw [Array.any_eq_false']
      intro global member unfit
      rw [Bool.and_eq_true, Bool.not_eq_true'] at unfit
      exact Bool.false_ne_true (unfit.2.symm.trans (fitting global member unfit.1))
    have unfolded : setSize set [value] draft =
        (if ((set size draft).globals.any fun global =>
            global.declared && !global.fits (set size draft).dataSize) = true then
          throw .invalidAddress else pure () : Drafting Unit) (set size draft) := by
      simp only [setSize, known]
      rfl
    rw [unfolded, allFit]
    rfl

/-! ## Operands -/

/-- A name that is read is the first label of that name, else the first global, else the first
local. -/
theorem named_eq_ok_iff {name : Token} {argument : Argument} :
    draft.named name = .ok argument ↔
      (∃ index, draft.labelNames.idxOf? name = some index ∧ index < 0x10000 ∧
        argument = ⟨.label, UInt16.ofNat index⟩) ∨
      (name ∉ draft.labelNames ∧ ∃ address, draft.globalAddresses.lookup name = some address ∧
        argument = ⟨.global, address⟩) ∨
      (name ∉ draft.labelNames ∧ draft.globalAddresses.lookup name = none ∧
        ∃ offset, draft.localOffsets.lookup name = some offset ∧ argument = ⟨.frame, offset⟩) := by
  rw [named, findLabel?_eq_idxOf?, ← List.idxOf?_eq_none_iff, ← labelNames]
  cases draft.labelNames.idxOf? name with
  | some index =>
      by_cases small : index < 0x10000
      · simp [small, eq_comm]
      · simp [small]
  | none =>
      rw [globalAddresses, localOffsets, lookup_map_eq_find?, lookup_map_eq_find?,
        Array.find?_toList, Array.find?_toList]
      cases draft.globals.find? fun global => global.name == name with
      | some global => simp [eq_comm]
      | none =>
          cases draft.locals.find? fun slot => slot.name == name with
          | some slot => simp [eq_comm]
          | none =>
              by_cases likeRegister : Name.hasRegisterPrefix name = true
              · simp [likeRegister]
              · simp [likeRegister]

/-- A label is read if it has a position of one word. -/
theorem named_of_label {name : Token} {index : Nat}
    (found : draft.labelNames.idxOf? name = some index) :
    draft.named name =
      if index < 0x10000 then .ok ⟨.label, UInt16.ofNat index⟩ else .error .invalidAddress := by
  rw [named, findLabel?_eq_idxOf?, ← labelNames, found]

/-- What is not in brackets is a number, a register or a name. -/
theorem argument_of_unbracketed (draft : Draft) {token : Token}
    (unbracketed : token.head? ≠ some '[') :
    draft.argument token =
      if token.head?.any fun char => char.isDigit || char == '-' then
        match Numeral.word? token with
        | some value => .ok ⟨.number, value⟩
        | none => .error .invalidNumber
      else if Name.isRegister token then registerArgument .register token
      else draft.named token := by
  unfold argument
  split
  next => exact absurd rfl unbracketed
  next => rfl

/-- An operand is read by its name, or means the same to every draft and is no label. -/
theorem argument_cases (token : Token) :
    (∀ draft : Draft, draft.argument token = draft.named token) ∨
      ∃ outcome, (∀ draft : Draft, draft.argument token = outcome) ∧
        ∀ argument, outcome = .ok argument → argument.mode ≠ .label := by
  have ofRegister (mode : Mode) (noLabel : mode ≠ .label) (token : Token) (argument : Argument)
      (read : registerArgument mode token = .ok argument) : argument.mode ≠ .label := by
    rw [registerArgument] at read
    split at read
    · cases read
      exact noLabel
    · cases read
  by_cases opened : token.head? = some '['
  · obtain ⟨inner, rfl⟩ := List.head?_eq_some_iff.mp opened
    refine Or.inr ⟨bracketed inner, fun _ => rfl, ?_⟩
    intro argument read
    rw [bracketed] at read
    split at read
    · simp only at read
      split at read
      · exact ofRegister .registerPointer Mode.noConfusion _ argument read
      · split at read
        · split at read
          · cases read
            exact Mode.noConfusion
          · cases read
        · cases read
    · cases read
  · have noBracket (draft : Draft) := draft.argument_of_unbracketed opened
    by_cases numeral : (token.head?.any fun char => char.isDigit || char == '-') = true
    · refine Or.inr ⟨_, fun draft => by rw [noBracket, if_pos numeral], ?_⟩
      intro argument read
      split at read
      · cases read
        exact Mode.noConfusion
      · cases read
    · by_cases isRegister : Name.isRegister token = true
      · refine Or.inr ⟨_, fun draft => by rw [noBracket, if_neg numeral, if_pos isRegister], ?_⟩
        exact ofRegister .register Mode.noConfusion token
      · exact Or.inl fun draft => by rw [noBracket, if_neg numeral, if_neg isRegister]

theorem register?_of_isIdentifier {token : Token} (identifier : Name.isIdentifier token = true) :
    Name.register? token = none := by
  rw [Name.isIdentifier, Bool.and_eq_true, Bool.not_eq_true'] at identifier
  rw [Name.register?, identifier.2]
  rfl

/-- An identifier is read by its name. -/
theorem argument_of_isIdentifier {token : Token} (identifier : Name.isIdentifier token = true)
    (draft : Draft) : draft.argument token = draft.named token := by
  rw [Name.isIdentifier, Bool.and_eq_true, Bool.and_eq_true, Name.isWord, Bool.and_eq_true,
    Bool.not_eq_true'] at identifier
  rcases identifier with ⟨⟨⟨letter, -⟩, -⟩, noRegister⟩
  cases token with
  | nil => cases letter
  | cons first rest =>
      rw [List.head?_cons, Option.any_some] at letter
      have noBracket : first ≠ '[' := by
        rintro rfl
        cases letter
      have noNumeral : ¬ ((first.isDigit || first == '-') = true) := by
        intro numeral
        rw [Bool.or_eq_true, beq_iff_eq] at numeral
        rcases numeral with digit | rfl
        · exact Bool.false_ne_true ((isDigit_of_isAlpha letter).symm.trans digit)
        · cases letter
      rw [argument]
      · rw [List.head?_cons, Option.any_some, if_neg noNumeral, noRegister]
        rfl
      · intro inner same
        exact noBracket (List.cons.inj same).1

/-! ## Instructions -/

theorem except_bind_eq_ok_iff {ε α β : Type} {outcome : Except ε α} {next : α → Except ε β}
    {value : β} :
    (outcome >>= next) = .ok value ↔ ∃ middle, outcome = .ok middle ∧ next middle = .ok value := by
  cases outcome with
  | ok middle =>
      constructor
      · exact fun found => ⟨middle, rfl, found⟩
      · rintro ⟨_, same, found⟩
        cases same
        exact found
  | error error =>
      constructor
      · intro found
        cases found
      · rintro ⟨_, same, -⟩
        cases same

theorem destination_eq_ok_iff {token : Token} {argument : Argument} :
    draft.destination token = .ok argument ↔
      draft.argument token = .ok argument ∧ argument.mode ≠ .number := by
  rw [destination]
  cases draft.argument token with
  | error cause =>
      constructor
      · intro read
        cases read
      · rintro ⟨read, -⟩
        cases read
  | ok found =>
      change (if found.mode = .number then throw .numberAsDestination else pure found :
        Except Cause Argument) = .ok argument ↔ _
      split
      next number =>
        constructor
        · intro read
          cases read
        · rintro ⟨same, noNumber⟩
          cases same
          exact absurd number noNumber
      next noNumber =>
        constructor
        · intro same
          cases same
          exact ⟨rfl, noNumber⟩
        · rintro ⟨same, -⟩
          exact same

/-- Whether a result is this value, or turned down with one of some causes. -/
def YieldsOr {α : Type} (outcome : Except Cause α) (value : α) (causes : Cause → Prop) : Prop :=
  outcome = .ok value ∨ ∃ cause, causes cause ∧ outcome = .error cause

theorem YieldsOr.bind {α β : Type} {outcome : Except Cause α} {next : α → Except Cause β}
    {middle : α} {value : β} {causes : Cause → Prop} (first : YieldsOr outcome middle causes)
    (second : YieldsOr (next middle) value causes) :
    YieldsOr (outcome >>= next) value causes := by
  rcases first with rfl | ⟨cause, possible, rfl⟩
  · exact second
  · exact Or.inr ⟨cause, possible, rfl⟩

theorem isSome_register?_of_remainder {token : Token} {register : UInt8}
    (read : remainderRegister token = .ok register) : (Name.register? token).isSome := by
  rw [remainderRegister] at read
  split at read
  next known =>
    rw [known]
    rfl
  next => cases read

theorem destination_of_error {token : Token} {cause : Cause}
    (turnedDown : draft.argument token = .error cause) :
    draft.destination token = .error cause := by
  rw [destination, turnedDown]
  rfl

section

variable {other : Draft} {respell : Token → Token} {change : Argument → Argument}

/-- Whether a cause is that of an operand which is read here, but turned down there. -/
def Misses (draft other : Draft) (respell : Token → Token) (operands : List Token)
    (cause : Cause) : Prop :=
  ∃ token ∈ operands, (∃ argument, draft.argument token = .ok argument) ∧
    other.argument (respell token) = .error cause

/-- Where operands are read, after a change of spelling, as what they were up to a change that
keeps modes, if they are read at all, an instruction is read as what it was up to that change of
its operands, or turned down with the cause of one of them. -/
theorem instruction_yieldsOr (keepsMode : ∀ argument, (change argument).mode = argument.mode)
    (keepsAbsent : change .absent = .absent) {opcode : Opcode} {operands : List Token}
    (reads : ∀ token ∈ operands, ∀ argument readThen, draft.argument token = .ok argument →
      other.argument (respell token) = .ok readThen → readThen = change argument)
    (registers : ∀ token ∈ operands, (Name.register? token).isSome → respell token = token)
    {instruction : Instruction} (read : draft.instruction opcode operands = .ok instruction) :
    YieldsOr (other.instruction opcode (operands.map respell)) (instruction.mapOperands change)
      (Misses draft other respell operands) := by
  have argumentReads {token : Token} (member : token ∈ operands) {argument : Argument}
      (found : draft.argument token = .ok argument) :
      YieldsOr (other.argument (respell token)) (change argument)
        (Misses draft other respell operands) := by
    cases outcome : other.argument (respell token) with
    | ok readThen => exact Or.inl (by rw [reads token member argument readThen found outcome])
    | error cause => exact Or.inr ⟨cause, ⟨token, member, ⟨argument, found⟩, outcome⟩, rfl⟩
  have destinationReads {token : Token} (member : token ∈ operands) {argument : Argument}
      (found : draft.destination token = .ok argument) :
      YieldsOr (other.destination (respell token)) (change argument)
        (Misses draft other respell operands) := by
    rw [destination_eq_ok_iff] at found
    rcases argumentReads member found.1 with reads | ⟨cause, misses, turnedDown⟩
    · exact Or.inl (destination_eq_ok_iff.mpr ⟨reads, by rw [keepsMode]; exact found.2⟩)
    · exact Or.inr ⟨cause, misses, destination_of_error turnedDown⟩
  unfold Draft.instruction at read
  split at read
  next shape =>
    cases read
    simp only [List.map_nil, Draft.instruction.eq_def, shape, Instruction.mapOperands, keepsAbsent]
    exact Or.inl rfl
  next dst shape =>
    obtain ⟨dstRead, foundDst, same⟩ := except_bind_eq_ok_iff.mp read
    cases same
    simp only [List.map_cons, List.map_nil, Draft.instruction.eq_def, shape,
      Instruction.mapOperands, keepsAbsent]
    exact (destinationReads List.mem_cons_self foundDst).bind (Or.inl rfl)
  next src shape =>
    obtain ⟨srcRead, foundSrc, same⟩ := except_bind_eq_ok_iff.mp read
    cases same
    simp only [List.map_cons, List.map_nil, Draft.instruction.eq_def, shape,
      Instruction.mapOperands, keepsAbsent]
    exact (argumentReads List.mem_cons_self foundSrc).bind (Or.inl rfl)
  next src dst shape =>
    obtain ⟨dstRead, foundDst, later⟩ := except_bind_eq_ok_iff.mp read
    obtain ⟨srcRead, foundSrc, same⟩ := except_bind_eq_ok_iff.mp later
    cases same
    have srcReads := argumentReads List.mem_cons_self foundSrc
    have dstReads := destinationReads (List.mem_cons_of_mem _ List.mem_cons_self) foundDst
    simp only [List.map_cons, List.map_nil, Draft.instruction.eq_def, shape]
    exact dstReads.bind (srcReads.bind (Or.inl rfl))
  next src dst remainder shape =>
    obtain ⟨dstRead, foundDst, later⟩ := except_bind_eq_ok_iff.mp read
    obtain ⟨srcRead, foundSrc, last⟩ := except_bind_eq_ok_iff.mp later
    obtain ⟨register, foundRegister, same⟩ := except_bind_eq_ok_iff.mp last
    cases same
    have srcReads := argumentReads List.mem_cons_self foundSrc
    have dstReads := destinationReads (List.mem_cons_of_mem _ List.mem_cons_self) foundDst
    have sameRemainder : respell remainder = remainder :=
      registers remainder (by simp) (isSome_register?_of_remainder foundRegister)
    simp only [List.map_cons, List.map_nil, sameRemainder, Draft.instruction.eq_def, shape]
    exact dstReads.bind (srcReads.bind (YieldsOr.bind (Or.inl foundRegister) (Or.inl rfl)))
  next => cases read

/-- Where all of them are read, the instruction is read as what it was up to the change. -/
theorem instruction_of_reads (keepsMode : ∀ argument, (change argument).mode = argument.mode)
    (keepsAbsent : change .absent = .absent) {opcode : Opcode} {operands : List Token}
    (reads : ∀ token ∈ operands, ∀ argument, draft.argument token = .ok argument →
      other.argument (respell token) = .ok (change argument))
    (registers : ∀ token ∈ operands, (Name.register? token).isSome → respell token = token)
    {instruction : Instruction} (read : draft.instruction opcode operands = .ok instruction) :
    other.instruction opcode (operands.map respell) = .ok (instruction.mapOperands change) := by
  have same : ∀ token ∈ operands, ∀ argument readThen, draft.argument token = .ok argument →
      other.argument (respell token) = .ok readThen → readThen = change argument := by
    intro token member argument readThen found readsThen
    exact Except.ok.inj (readsThen.symm.trans (reads token member argument found))
  rcases instruction_yieldsOr keepsMode keepsAbsent same registers read with
    readAgain | ⟨cause, ⟨token, member, ⟨argument, found⟩, turnedDown⟩, -⟩
  · exact readAgain
  · rw [reads token member argument found] at turnedDown
    cases turnedDown

/-- The operands of an instruction that is read are read, or registers. -/
theorem reads_of_instruction {opcode : Opcode} {operands : List Token} {instruction : Instruction}
    (read : draft.instruction opcode operands = .ok instruction) :
    ∀ token ∈ operands, (Name.register? token).isSome ∨
      ∃ argument, draft.argument token = .ok argument := by
  have ofDestination {token : Token} {argument : Argument}
      (found : draft.destination token = .ok argument) :
      ∃ argument, draft.argument token = .ok argument :=
    ⟨argument, (destination_eq_ok_iff.mp found).1⟩
  unfold Draft.instruction at read
  split at read
  next => exact fun token member => (List.not_mem_nil member).elim
  next dst shape =>
    obtain ⟨dstRead, foundDst, -⟩ := except_bind_eq_ok_iff.mp read
    rw [List.forall_mem_singleton]
    exact Or.inr (ofDestination foundDst)
  next src shape =>
    obtain ⟨srcRead, foundSrc, -⟩ := except_bind_eq_ok_iff.mp read
    rw [List.forall_mem_singleton]
    exact Or.inr ⟨srcRead, foundSrc⟩
  next src dst shape =>
    obtain ⟨dstRead, foundDst, later⟩ := except_bind_eq_ok_iff.mp read
    obtain ⟨srcRead, foundSrc, -⟩ := except_bind_eq_ok_iff.mp later
    rw [List.forall_mem_cons, List.forall_mem_singleton]
    exact ⟨Or.inr ⟨srcRead, foundSrc⟩, Or.inr (ofDestination foundDst)⟩
  next src dst remainder shape =>
    obtain ⟨dstRead, foundDst, later⟩ := except_bind_eq_ok_iff.mp read
    obtain ⟨srcRead, foundSrc, last⟩ := except_bind_eq_ok_iff.mp later
    obtain ⟨register, foundRegister, -⟩ := except_bind_eq_ok_iff.mp last
    rw [List.forall_mem_cons, List.forall_mem_cons, List.forall_mem_singleton]
    exact ⟨Or.inr ⟨srcRead, foundSrc⟩, Or.inr (ofDestination foundDst),
      Or.inl (isSome_register?_of_remainder foundRegister)⟩
  next => cases read

end

theorem addInstruction_eq_ok_iff {mnemonic : Token} {operands : List Token} :
    addInstruction mnemonic operands draft = .ok () final ↔
      ∃ opcode instruction, Opcode.ofMnemonic? mnemonic.lowerCase = some opcode ∧
        draft.instruction opcode operands = .ok instruction ∧
        final = { draft with
          stackUsed := draft.stackUsed || opcode.usesStack
          instructionLines := draft.instructionLines.push draft.line
          writer := draft.writer.emit instruction } := by
  cases known : Opcode.ofMnemonic? mnemonic.lowerCase with
  | none =>
      constructor
      · intro accepted
        simp only [addInstruction, known] at accepted
        cases accepted
      · rintro ⟨_, _, none, -⟩
        cases none
  | some opcode =>
      cases read : draft.instruction opcode operands with
      | error cause =>
          constructor
          · intro accepted
            simp only [addInstruction, known, get_bind, read] at accepted
            cases accepted
          · rintro ⟨_, _, same, found, -⟩
            cases same
            rw [read] at found
            cases found
      | ok instruction =>
          have encoded : addInstruction mnemonic operands draft = .ok () { draft with
              stackUsed := draft.stackUsed || opcode.usesStack
              instructionLines := draft.instructionLines.push draft.line
              writer := draft.writer.emit instruction } := by
            simp only [addInstruction, known, get_bind, read]
            by_cases uses : opcode = .push ∨ opcode = .pop
            · simp only [if_pos uses, Opcode.usesStack, decide_eq_true uses, Bool.or_true]
              rfl
            · simp only [if_neg uses, Opcode.usesStack, decide_eq_false uses, Bool.or_false]
              rfl
          constructor
          · intro accepted
            rw [encoded] at accepted
            cases accepted
            exact ⟨opcode, instruction, rfl, read, rfl⟩
          · rintro ⟨_, _, same, found, rfl⟩
            cases same
            rw [read] at found
            cases found
            exact encoded

/-- An instruction is turned down with the cause of its operands. -/
theorem addInstruction_of_error {mnemonic : Token} {operands : List Token} {opcode : Opcode}
    {cause : Cause} (known : Opcode.ofMnemonic? mnemonic.lowerCase = some opcode)
    (turnedDown : draft.instruction opcode operands = .error cause) :
    addInstruction mnemonic operands draft = .error cause draft := by
  simp only [addInstruction, known, get_bind, turnedDown]
  rfl


end Assembly.Draft

end WordMachine
