import WordMachine.Proofs.Assembly.Layout
import WordMachine.Proofs.Execution.Control

/-!
# Locals lie where the stack pointer stands

A program without jumps that writes no code is executed from its first instruction to its last,
and until the first pop the stack holds what the pushes in front have put there
(`Machine.Visits.behind`). No push or pop is written in front of a local, so the stack pointer
stands at the offset of the local when its push is executed (`Assembler.locals_take_their_place`).
-/

namespace WordMachine

/-! ## Straight programs -/

/-- How many bytes an instruction puts on the stack. -/
def Instruction.pushed (instruction : Instruction) : Nat :=
  if instruction.opcode = .push then (instruction.trailing.getD 0).toNat else 0

/-- How many bytes a program puts on the stack. -/
def Program.pushed (program : Program) : Nat := (program.map Instruction.pushed).sum

@[simp] theorem Program.pushed_append (first second : Program) :
    Program.pushed (first ++ second) = first.pushed + second.pushed := by
  simp [Program.pushed]

@[simp] theorem Program.pushed_singleton (instruction : Instruction) :
    Program.pushed [instruction] = instruction.pushed := by
  simp [Program.pushed]

/-- Whether an instruction can be executed wherever it stands in the code, and the next one is
executed after it. -/
structure Instruction.Straight (instruction : Instruction) (codeSize : Nat) : Prop where
  wellFormed : instruction.WellFormed
  tame : ∀ offset, (instruction.locate offset).Tame codeSize
  noJump : instruction.opcode.isJump = false

namespace Processor

variable {program front back : Program} {instruction : Instruction} {image : Image}
  {state final : Processor}

/-- Whether the front of a program has been executed: the program counter stands behind it, and so
does the stack pointer behind what it has pushed, as long as nothing was popped. -/
structure Behind (program : Program) (image : Image) (front back : Program)
    (state : Processor) : Prop where
  split : program = front ++ back
  bytes : state.code.bytes = image.bytes
  counter : state.code.cursor = Header.length + front.size
  stack : (∀ instruction ∈ front, instruction.opcode ≠ .pop) →
    state.data.cursor = state.frameBase + front.pushed

/-- An instruction other than a pop moves the stack pointer by the bytes that it pushes. -/
theorem execute_stack {offset : Nat} (noPop : instruction.opcode ≠ .pop) :
    Ends (execute (instruction.locate offset)) state
      (fun _ final => final.data.cursor = state.data.cursor + instruction.pushed)
      (fun _ _ => True) := by
  by_cases pushes : instruction.opcode = .push
  · have isPush : execute (instruction.locate offset) = push (instruction.locate offset) := by
      have same : (instruction.locate offset).opcode = .push := pushes
      rw [execute, same]
    rw [isPush]
    apply (push_ends pushes).mono
    · intro _ final ended
      rcases ended with ⟨operand, value, size, -, -, trailing, -, rfl⟩
      have sized : instruction.trailing = some size := trailing
      rw [Instruction.pushed, if_pos pushes, sized]
      rfl
    · exact fun _ _ _ => trivial
  · apply (execute_acts state fun push => absurd push pushes).mono
    · intro _ final effect
      rw [effect.stack pushes noPop, Instruction.pushed, if_neg pushes, Nat.add_zero]
    · exact fun _ _ _ => trivial

/-- The next instruction is fetched where the program counter stands. -/
theorem Behind.fetch (behind : state.Behind program image front (instruction :: back))
    (code : image.toList.drop Header.length = program.encode)
    (straight : instruction.Straight image.size) :
    Fetch.instruction state.code =
      .ok (instruction.locate state.code.cursor) (state.code.skip instruction.size) := by
  refine Fetch.instruction_of_ahead straight.wellFormed ⟨Program.encode back, ?_⟩
  rw [behind.split] at code
  rw [Store.toList, behind.bytes, behind.counter]
  exact (Program.drop_of_split code).symm

/-- A cycle executes the next instruction. -/
theorem Behind.executes (behind : state.Behind program image front (instruction :: back))
    (code : image.toList.drop Header.length = program.encode)
    (straight : instruction.Straight image.size) (executed : Processor.cycle state = .ok () final) :
    execute (instruction.locate state.code.cursor)
      { state with code := state.code.skip instruction.size } = .ok () final := by
  have begun : onCode Fetch.instruction state =
      .ok (instruction.locate state.code.cursor)
        { state with code := state.code.skip instruction.size } := by
    rw [onCode, behind.fetch code straight]
  rwa [Processor.cycle, bind_of_ok begun] at executed

/-- A cycle takes the next instruction to the front. -/
theorem Behind.cycle (behind : state.Behind program image front (instruction :: back))
    (code : image.toList.drop Header.length = program.encode)
    (straight : instruction.Straight image.size) (executed : Processor.cycle state = .ok () final) :
    final.Behind program image (front ++ [instruction]) back := by
  have done := behind.executes code straight executed
  have noDst : instruction.opcode = .push → (instruction.locate state.code.cursor).dst = none := by
    intro pushes
    rw [Instruction.locate, pushes]
    rfl
  have effect := (execute_acts _ noDst).of_ok done
  have tame : (instruction.locate state.code.cursor).Tame
      (state.code.skip instruction.size).size := by
    rw [Store.size_skip, Store.size, behind.bytes]
    exact straight.tame state.code.cursor
  constructor
  case split => rw [behind.split, List.append_assoc, List.singleton_append]
  case bytes =>
    rw [effect.code tame]
    exact behind.bytes
  case counter =>
    rcases effect.counter tame with onward | ⟨jumps, -⟩
    · rw [onward, Store.cursor_skip, behind.counter, Program.size_append, Program.size_cons,
        Program.size_nil, Nat.add_assoc, Nat.add_zero]
    · have noJump : (instruction.locate state.code.cursor).opcode.isJump = false := straight.noJump
      rw [noJump] at jumps
      cases jumps
  case stack =>
    intro noPop
    have here := noPop instruction (List.mem_append_right _ (List.mem_singleton_self _))
    have inFront := behind.stack fun other member => noPop other (List.mem_append_left _ member)
    rw [(execute_stack here).of_ok done, effect.frameBase, Program.pushed_append,
      Program.pushed_singleton, ← Nat.add_assoc, ← inFront]

end Processor

open Assembly Processor

/-- Every state of a run is between two parts of a straight program. -/
theorem Machine.Visits.behind {machine : Machine} {header : Header} {image : Image}
    {program : Program} {state : Processor} (visited : Machine.Visits machine header image state)
    (code : image.toList.drop Header.length = program.encode)
    (size : image.size = Header.length + program.size) (codeEnd : header.codeEnd = image.size)
    (straight : ∀ instruction ∈ program, instruction.Straight image.size) :
    ∃ front back, state.Behind program image front back := by
  have inside : Header.length ≤ image.size := size ▸ Nat.le_add_right _ _
  apply visited.keeps
  case first =>
    intro first booted
    rw [(Machine.boot_ends inside).of_ok booted]
    exact ⟨[], program, rfl, rfl, rfl, fun _ => rfl⟩
  case oneCycle =>
    intro state next kept more executed
    obtain ⟨front, back, behind⟩ := kept
    cases back with
    | nil =>
        have atEnd := behind.split
        rw [List.append_nil] at atEnd
        rw [behind.counter, ← atEnd, codeEnd, size] at more
        exact absurd more (Nat.lt_irrefl _)
    | cons instruction rest =>
        have member : instruction ∈ program := by
          rw [behind.split]
          exact List.mem_append_right _ List.mem_cons_self
        exact ⟨_, rest, behind.cycle code (straight instruction member) executed⟩

/-- Where a run comes to the place of an instruction, the instructions in front have been
executed. -/
theorem Machine.Visits.behind_of_counter {machine : Machine} {header : Header} {image : Image}
    {front back : Program} {state : Processor}
    (visited : Machine.Visits machine header image state)
    (code : image.toList.drop Header.length = Program.encode (front ++ back))
    (size : image.size = Header.length + Program.size (front ++ back))
    (codeEnd : header.codeEnd = image.size)
    (straight : ∀ instruction ∈ front ++ back, instruction.Straight image.size)
    (counter : state.code.cursor = Header.length + front.size) :
    state.Behind (front ++ back) image front back := by
  obtain ⟨front', back', behind⟩ := visited.behind code size codeEnd straight
  have sameSize : front.size = front'.size := by
    have same := behind.counter
    rw [counter] at same
    exact Nat.add_left_cancel same
  obtain ⟨rfl, rfl⟩ := Program.front_unique behind.split sameSize
  exact behind

/-! ## Pushing a zero -/

/-- A push of zero that succeeds leaves zeros where the stack pointer stood, and the stack pointer
behind them. -/
theorem Processor.execute_pushZero {fetched : Fetched} {operand : Operand} {size : UInt8}
    {state final : Processor} (pushes : fetched.opcode = .push)
    (carried : fetched.src = some operand) (zero : operand.toArgument = ⟨.number, 0⟩)
    (sized : fetched.trailing = some size) (executed : execute fetched state = .ok () final) :
    final.data.cursor = state.data.cursor + size.toNat ∧
      ∀ place, state.data.cursor ≤ place → place < state.data.cursor + size.toNat →
        final.data.bytes[place]? = some 0 := by
  have isPush : execute fetched = push fetched := by
    rw [execute, pushes]
  rw [isPush] at executed
  obtain ⟨operand', value, size', carried', reads, sized', fits, rfl⟩ :=
    (push_ends pushes).of_ok executed
  rw [carried] at carried'
  cases carried'
  rw [sized] at sized'
  cases sized'
  have isZero : value = 0 := by
    have number : operand.mode = .number := congrArg Argument.mode zero
    have none : operand.value = 0 := congrArg Argument.value zero
    have same : read operand state = .ok operand.value state := by
      rw [read, number]
      rfl
    rw [same, none] at reads
    cases reads
    rfl
  refine ⟨rfl, ?_⟩
  intro place above below
  have zeros : LittleEndian.encode size.toNat value.toNat = List.replicate size.toNat 0 := by
    rw [isZero]
    exact LittleEndian.encode_zero size.toNat
  rw [stacked, zeros]
  have length : (List.replicate size.toNat (0 : UInt8)).length = size.toNat :=
    List.length_replicate
  rw [Store.getElem?_overwrite_of_inside (by rw [length]; exact fits) above
    (by rw [length]; exact below), List.getElem?_replicate, if_pos (by omega)]

/-- Whether the stack pointer stands where a local belongs, and a cycle that succeeds leaves zeros
in the local and the stack pointer behind it. -/
structure Processor.Reserves (slot : Local) (state : Processor) : Prop where
  pointer : state.data.cursor = state.frameBase + slot.offset.toNat
  zeros : ∀ final, cycle state = .ok () final → ∀ place,
    state.frameBase + slot.offset.toNat ≤ place →
    place < state.frameBase + slot.offset.toNat + slot.type.size →
    final.data.bytes[place]? = some 0
  onward : ∀ final, cycle state = .ok () final →
    final.data.cursor = state.frameBase + slot.offset.toNat + slot.type.size

namespace Assembly

theorem VariableType.toNat_size (type : VariableType) :
    (UInt8.ofNat type.size).toNat = type.size := by
  cases type <;> rfl

/-- The push for a local reserves it, if what is pushed in front comes to its offset. -/
theorem reserves_of_behind {front back : Program} {program : Program} {image : Image}
    {state : Processor} {address : Token → Word} {slot : Local}
    (behind : state.Behind program image front
      ((Listing.pushZero slot.type).resolve address :: back))
    (code : image.toList.drop Header.length = program.encode)
    (straight : ((Listing.pushZero slot.type).resolve address).Straight image.size)
    (noPop : ∀ instruction ∈ front, instruction.opcode ≠ .pop)
    (place : front.pushed = slot.offset.toNat) : state.Reserves slot := by
  have pointer : state.data.cursor = state.frameBase + slot.offset.toNat := by
    rw [behind.stack noPop, place]
  have reserved (final : Processor) (executed : cycle state = .ok () final) :=
    execute_pushZero rfl rfl rfl rfl (behind.executes code straight executed)
  rw [slot.type.toNat_size] at reserved
  constructor
  case pointer => exact pointer
  case zeros =>
    intro final executed
    rw [← pointer]
    exact (reserved final executed).2
  case onward =>
    intro final executed
    rw [← pointer]
    exact (reserved final executed).1

/-! ## What declarations push -/

namespace Listing

variable {scope : Scope} {listing : Listing} {statement : Statement} {statements : List Statement}
  {symbolic : Symbolic}

/-- A written instruction of a statement that does not use the stack is no push and no pop. -/
theorem noStack_of_emitted? {mnemonic : Token} {operands : List Token}
    (emitted : listing.emitted? scope (.instruction mnemonic operands) = some symbolic)
    (unused : (Statement.instruction mnemonic operands).usesStack = false) :
    symbolic.opcode ≠ .push ∧ symbolic.opcode ≠ .pop := by
  rcases Option.bind_eq_some_iff.mp emitted with ⟨opcode, known, spelled⟩
  rw [Statement.usesStack, known, Option.any_some, Opcode.usesStack, decide_eq_false_iff_not,
    not_or] at unused
  rwa [Draft.opcode_of_instruction? spelled]

/-- Where the stack is not used, a statement pushes as much as it declares. -/
theorem pushed_of_emitted? (scope : Scope) (listing : Listing) (address : Token → Word)
    (unused : statement.usesStack = false) :
    (∀ symbolic ∈ listing.emitted? scope statement, symbolic.opcode ≠ .pop) ∧
      Program.pushed ((listing.emitted? scope statement).toList.map (Symbolic.resolve address)) =
        (statement.declaredLocal?.toList.map fun slot => slot.2.size).sum := by
  have written {mnemonic : Token} {operands : List Token}
      (unused : (Statement.instruction mnemonic operands).usesStack = false) :
      (∀ symbolic ∈ listing.emitted? scope (.instruction mnemonic operands),
        symbolic.opcode ≠ .pop) ∧
      Program.pushed ((listing.emitted? scope (.instruction mnemonic operands)).toList.map
        (Symbolic.resolve address)) = 0 := by
    cases emitted : listing.emitted? scope (.instruction mnemonic operands) with
    | none => exact ⟨by simp, rfl⟩
    | some symbolic =>
        obtain ⟨noPush, noPop⟩ := noStack_of_emitted? emitted unused
        constructor
        · intro other member
          cases member
          exact noPop
        · exact (Program.pushed_singleton _).trans (if_neg noPush)
  cases statement with
  | blank => exact ⟨by simp [emitted?], rfl⟩
  | pragma arguments => exact ⟨by simp [emitted?], rfl⟩
  | globals type names => exact ⟨by simp [emitted?], rfl⟩
  | instruction mnemonic operands => exact written unused
  | label name rest =>
      cases rest with
      | nil => exact ⟨by simp [emitted?], rfl⟩
      | cons mnemonic operands => exact written unused
  | localVariable arguments =>
      rw [emitted?]
      cases (Statement.localVariable arguments).declaredLocal? with
      | none => exact ⟨by simp, rfl⟩
      | some slot =>
          constructor
          · intro symbolic member
            cases member
            exact Opcode.noConfusion
          · exact (Program.pushed_singleton _).trans slot.2.toNat_size

/-- Statements that do not use the stack push as much as the frame of their locals takes. -/
theorem pushed_of_foldlM (address : Token → Word)
    (built : statements.foldlM (add scope) empty = some listing)
    (unused : ∀ statement ∈ statements, statement.usesStack = false) :
    (∀ instruction ∈ listing.programWith address, instruction.opcode ≠ .pop) ∧
      (listing.programWith address).pushed = listing.frameSize := by
  induction statements using List.reverseRecOn generalizing listing with
  | nil =>
      cases built
      exact ⟨List.forall_mem_nil _, rfl⟩
  | append_singleton statements statement ih =>
      obtain ⟨earlier, builtEarlier, added⟩ := last_of_foldlM built
      have adds := adds_of_add added
      obtain ⟨noPop, pushed⟩ := ih builtEarlier fun other member =>
        unused other (List.mem_append_left _ member)
      obtain ⟨noPopHere, pushedHere⟩ := pushed_of_emitted? scope earlier address
        (unused statement (List.mem_append_right _ (List.mem_singleton_self _)))
      rw [programWith_eq, adds.codes, adds.frameSize, List.map_append, Program.pushed_append,
        ← programWith_eq, pushed, pushedHere]
      refine ⟨?_, rfl⟩
      intro instruction member
      rcases List.mem_append.mp member with old | new
      · exact noPop instruction old
      · obtain ⟨symbolic, emitted, rfl⟩ := List.mem_map.mp new
        exact noPopHere symbolic (Option.mem_toList.mp emitted)

end Listing

namespace Draft

variable {found : Declarations} {listing : Listing} {draft : Draft}
  {statements before after : List Statement} {arguments : List Token}

/-- A declaration has its entry in the table of locals, at an offset behind the locals declared in
front of it. -/
theorem Follows.slot_of_split (follows : Follows found statements listing draft)
    (split : statements = before ++ .localVariable arguments :: after)
    {entry : Token × VariableType}
    (declared : (Statement.localVariable arguments).declaredLocal? = some entry) :
    ∃ slot, draft.locals.toList[(before.filterMap Statement.declaredLocal?).length]? = some slot ∧
      (slot.name, slot.type) = entry ∧
      slot.offset.toNat =
        ((before.filterMap Statement.declaredLocal?).map fun entry => entry.2.size).sum := by
  have declarations : statements.filterMap Statement.declaredLocal? =
      before.filterMap Statement.declaredLocal? ++
        entry :: after.filterMap Statement.declaredLocal? := by
    rw [split, List.filterMap_append, List.filterMap_cons_some declared]
  have listed : (draft.locals.toList.map fun slot => (slot.name, slot.type))[
      (before.filterMap Statement.declaredLocal?).length]? = some entry := by
    rw [follows.locals, declarations, List.getElem?_append_right (Nat.le_refl _), Nat.sub_self]
    rfl
  rw [List.getElem?_map] at listed
  obtain ⟨slot, here, same⟩ := Option.map_eq_some_iff.mp listed
  refine ⟨slot, here, same, ?_⟩
  have range : (draft.locals.toList.map fun slot => (slot.offset.toNat, slot.type.size))[
      (before.filterMap Statement.declaredLocal?).length]? =
        some (slot.offset.toNat, slot.type.size) := by
    rw [List.getElem?_map, here]
    rfl
  have inFront : (draft.locals.toList.take (before.filterMap Statement.declaredLocal?).length).map
      (fun slot => (slot.name, slot.type)) = before.filterMap Statement.declaredLocal? := by
    rw [List.map_take, follows.locals, declarations, List.take_left]
  have sizes := congrArg (List.map fun entry => entry.2.size) inFront
  rw [List.map_map] at sizes
  rw [follows.frame.place_eq range, Nat.zero_add, ← List.map_take, List.map_map]
  exact congrArg List.sum sizes

/-- No push or pop is written in front of a declaration. -/
theorem Follows.unused_before (follows : Follows found statements listing draft)
    (split : statements = before ++ .localVariable arguments :: after)
    (declared : (Statement.localVariable arguments).declaredLocal?.isSome = true) :
    ∀ statement ∈ before, statement.usesStack = false := by
  intro statement member
  have first := follows.localsFirst
  rw [split] at first
  exact (List.pairwise_append.mp first).2.2 statement member _ List.mem_cons_self declared

end Draft

/-! ## Straight sources -/

/-- Whether an instruction neither jumps nor writes to a label. -/
def Symbolic.Straight (symbolic : Symbolic) : Prop :=
  symbolic.opcode.isJump = false ∧
    (symbolic.opcode.writesDst symbolic.src.mode = true → symbolic.dst.mode ≠ .label)

instance (symbolic : Symbolic) : Decidable symbolic.Straight :=
  inferInstanceAs (Decidable (_ ∧ _))

/-- Whether a source has no other instructions than these. -/
def Source.Straight (source : Source) : Prop :=
  ∀ listing ∈ Listing.ofStatements? source.statements,
    ∀ symbolic ∈ listing.codes, symbolic.Straight

instance (source : Source) : Decidable source.Straight :=
  inferInstanceAs (Decidable (∀ listing ∈ Listing.ofStatements? source.statements,
    ∀ symbolic ∈ listing.codes, symbolic.Straight))

theorem Symbolic.Straight.disciplined {symbolic : Symbolic} (straight : symbolic.Straight) :
    symbolic.Disciplined := by
  refine ⟨straight.2, ?_⟩
  intro jumps
  rw [straight.1] at jumps
  cases jumps

/-- Every instruction of a straight source is executed in its turn. -/
theorem Assembled.straight {source : Source} {listing : Listing} {header : Header} {image : Image}
    (assembled : Assembled source listing header image) (straight : source.Straight) :
    ∀ instruction ∈ listing.program, instruction.Straight image.size := by
  intro instruction member
  have wellFormed := assembled.wellFormed instruction member
  rw [Listing.program, Listing.programWith_eq] at member
  obtain ⟨symbolic, coded, rfl⟩ := List.mem_map.mp member
  have isStraight := straight listing assembled.listed symbolic coded
  exact ⟨wellFormed, assembled.tame (Listing.mem_codes_iff.mp coded) isStraight.disciplined,
    isStraight.1⟩

end Assembly

namespace Assembler

/-- The listing of a steady source that assembles is the one that its draft follows. -/
theorem assembled_follows (assembler : Assembler) {source : Source} {image : Image}
    (steady : source.Steady) (assembled : (assembler.assemble source).outcome = .ok image) :
    ∃ (found : Declarations) (draft : Draft) (listing : Listing) (header : Header),
      Assembled source listing header image ∧ Header.read image = .ok header ∧
      draft.Follows found source.statements listing ∧
      (assembler.assemble source).assembler.locals = draft.locals := by
  obtain ⟨listing, header, firstDraft, spelled, headed, encoded, -⟩ :=
    assembler.assembled_of_ok steady assembled
  obtain ⟨found, draft, sameListing, -, scanned, -, -, -, follows, -, -, -, left⟩ :=
    follows_of_ok assembled
  obtain ⟨-, all, -⟩ := Declarations.scan_of_none scanned
  rw [Source.statements_revisited steady] at follows
  have built := follows.built
  rw [all, encoded.built] at built
  cases built
  exact ⟨found, draft, listing, header, spelled, headed, follows, by rw [left]⟩

/-- In a run of a source that assembles, does not jump and writes to no label, the stack pointer
stands at the offset of a local whenever the push for its declaration is executed. If the push
succeeds, the local is zero and the stack pointer is behind it. -/
theorem locals_take_their_place (assembler : Assembler) {source : Source} {image : Image}
    (steady : source.Steady) (assembled : (assembler.assemble source).outcome = .ok image)
    (straight : source.Straight) :
    ∃ (header : Header) (decoded : List Fetched), Header.read image = .ok header ∧
      Fetch.instructions image.size { image with cursor := Header.length } =
        .ok decoded { image with cursor := image.size } ∧
      ∀ (before : List Statement) arguments after,
        source.statements = before ++ .localVariable arguments :: after →
        ∃ slot fetched,
          (assembler.assemble source).assembler.locals.toList[
            (before.filterMap Statement.declaredLocal?).length]? = some slot ∧
          (Statement.localVariable arguments).declaredLocal? = some (slot.name, slot.type) ∧
          decoded[before.countP Statement.makesCode]? = some fetched ∧ fetched.opcode = .push ∧
          ∀ machine state, Machine.Visits machine header image state →
            state.code.cursor = fetched.offset → state.Reserves slot := by
  obtain ⟨found, draft, listing, header, spelled, headed, follows, sameLocals⟩ :=
    assembler.assembled_follows steady assembled
  refine ⟨header, _, headed, spelled.decodes, ?_⟩
  intro before arguments after split
  have built := follows.built
  rw [split] at built
  obtain ⟨address, resolved⟩ : ∃ address, listing.program = listing.programWith address := ⟨_, rfl⟩
  obtain ⟨earlier, symbolic, back, builtEarlier, emitted, program⟩ :=
    Listing.programWith_of_split address built rfl
  rw [← resolved] at program
  obtain ⟨entry, declared, rfl⟩ := Option.map_eq_some_iff.mp emitted
  obtain ⟨slot, here, rfl, offset⟩ := follows.slot_of_split split declared
  have unused := follows.unused_before split (by rw [declared]; rfl)
  obtain ⟨noPop, pushed⟩ := Listing.pushed_of_foldlM address builtEarlier unused
  have tracks := Listing.tracks_of_foldlM builtEarlier
  have count : (earlier.programWith address).length = before.countP Statement.makesCode := by
    rw [Listing.programWith_eq, List.length_map, tracks.codes]
  have located := Program.getElem?_locate_split (earlier.programWith address) back
    ((Listing.pushZero slot.type).resolve address) Header.length
  rw [count, ← program] at located
  have code := spelled.drop_header
  have size := spelled.size
  have straightCode := spelled.straight straight
  rw [program] at code size straightCode
  refine ⟨slot, _, sameLocals ▸ here, declared, located, rfl, ?_⟩
  intro machine state visited counter
  have behind := visited.behind_of_counter code size spelled.codeEnd straightCode counter
  apply reserves_of_behind behind code
    (straightCode _ (List.mem_append_right _ List.mem_cons_self)) noPop
  rw [pushed, offset, tracks.frameSize]

namespace TwoLocals

/-- Two locals with an instruction between them. -/
def source : Source :=
  .ofString ("#pragma datapagesize 10\n#pragma stacksize 4\nlocal byte flag\nmov 9, reg00\n" ++
    "local uint16 count\n")

def header : Header := ⟨Header.expectedMagic, 15, 10, 4⟩

def image : Image :=
  ⟨#[0x0D, 0xF0, 0x0C, 0xF0, 15, 0, 0, 0, 0, 0, 0, 0, 10, 0, 0, 0, 0, 0, 0, 0,
    4, 0, 0, 0, 0, 0, 0, 0, 30, 0x40, 0, 0, 1, 0, 0x41, 0, 9, 0, 30, 0x40, 0, 0, 2], 43⟩

def machine : Machine := .ofConfig ⟨1, 0, 0, none⟩

/-- Where an instruction of an image begins. -/
def offsetOf (image : Image) (index : Nat) : Option Nat :=
  match Fetch.instructions image.size { image with cursor := Header.length } with
  | .ok decoded _ => decoded[index]?.map Fetched.offset
  | .error _ _ => none

/-- The processor with so much on the stack and in a register, in front of the instruction at
`counter`. -/
def stateAt (counter pushed : Nat) (register : Word) : Processor where
  registers := ⟨#[register], #[], #[]⟩
  flags := .clear
  code := { image with cursor := counter }
  data := { Store.zeros 14 with cursor := 10 + pushed }
  frameBase := 10

theorem assembled : (empty.assemble source).outcome = .ok image := by
  have linked : (empty.assemble source).outcome.toOption = some image := by
    decide +kernel
  cases outcome : (empty.assemble source).outcome with
  | error error =>
      rw [outcome] at linked
      cases linked
  | ok image =>
      rw [outcome] at linked
      exact congrArg Except.ok (Option.some.inj linked)

theorem headed : Header.read image = .ok header := by
  have split : image.toList = header.encode ++ image.toList.drop Header.length := by
    decide +kernel
  exact Header.read_header split rfl

theorem visited : Machine.Visits machine header image (stateAt 38 1 9) := by
  have booted : boot (machine.launch header image) = .ok () (stateAt 28 0 0) := rfl
  have pushed : cycle (stateAt 28 0 0) = .ok () (stateAt 33 1 0) := rfl
  have moved : cycle (stateAt 33 1 0) = .ok () (stateAt 38 1 9) := rfl
  exact .cycle (.cycle (.boot booted) (by decide) pushed) (by decide) moved

end TwoLocals

open TwoLocals

theorem count_takes_its_place :
    (empty.assemble source).outcome = .ok image ∧ Header.read image = .ok header ∧
      Machine.Visits machine header image (stateAt 38 1 9) ∧
      (stateAt 38 1 9).Reserves ⟨"count".toList, 1, .uint16⟩ ∧
      cycle (stateAt 38 1 9) = .ok () (stateAt 43 3 9) := by
  have steady : source.Steady := Source.steady_ofString _
  obtain ⟨sameHeader, decoded, sameHeaded, reads, places⟩ :=
    locals_take_their_place empty steady assembled (by decide +kernel)
  rw [headed] at sameHeaded
  cases sameHeaded
  have split : source.statements = source.statements.take 4 ++
      .localVariable ["uint16".toList, "count".toList] :: [] := by
    decide +kernel
  obtain ⟨slot, fetched, here, -, read, -, reserves⟩ := places _ _ _ split
  have isCount : (empty.assemble source).assembler.locals.toList[
      ((source.statements.take 4).filterMap Statement.declaredLocal?).length]? =
        some ⟨"count".toList, 1, .uint16⟩ := by
    decide +kernel
  rw [isCount] at here
  cases here
  have offset : fetched.offset = 38 := by
    have third : offsetOf image ((source.statements.take 4).countP Statement.makesCode) =
        some 38 := by
      decide +kernel
    simp only [offsetOf, reads, read] at third
    exact Option.some.inj third
  exact ⟨assembled, headed, visited, reserves machine _ visited offset.symm, rfl⟩

end Assembler

end WordMachine
