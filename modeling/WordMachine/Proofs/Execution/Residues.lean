import WordMachine.Proofs.InstructionFormat
import WordMachine.Proofs.Execution.Bounds

/-!
# What a fault leaves behind

An instruction stores last, and a store that is refused changes nothing: a write into the code
that does not fit puts the program counter back (`writeCode_resumes`), and any other write is
checked first (`write_refuses`). A fault therefore leaves the state that the instruction found,
but for the flags of an operation and the stack pointer of a pop, which are set before the
destination is written (`execute_stops`).
-/

namespace WordMachine

/-- The operation that an opcode carries out before it stores the result: it takes the flags,
the destination and the source, of which the opcodes with one operand have none. -/
def Opcode.operation? : Opcode → Option (Flags → Word → Word → Word × Flags)
  | add => some Flags.add
  | sub => some Flags.subtract
  | mul => some Flags.mul
  | imul => some Flags.imul
  | xor => some Flags.xor
  | or => some Flags.or
  | and => some Flags.and
  | inc => some fun flags value _ => flags.inc value
  | dec => some fun flags value _ => flags.dec value
  | neg => some fun flags value _ => flags.negate value
  | not => some fun flags value _ => flags.not value
  | mov | addrof | tst | cmp | je | div | idiv | jmp | jne | jg | jge | jl | jle
  | cmove | cmovne | cmovg | cmovge | cmovl | cmovle | push | pop | nop => none

/-- A fetched instruction has the destination that its shape calls for. -/
theorem Fetch.dst_of_instruction {store rest : Store} {fetched : Fetched}
    (decoded : Fetch.instruction store = .ok fetched rest)
    (takesDst : fetched.opcode.shape.hasDst = true) : ∃ operand, fetched.dst = some operand := by
  have found : Ends Fetch.instruction store _ _ := Fetch.instruction_found
  rcases found.of_ok decoded with ⟨instruction, _, _, _, same, _⟩
  rw [same, Instruction.locate] at takesDst ⊢
  rw [if_pos takesDst]
  exact ⟨_, rfl⟩

namespace Processor

variable {fetched : Fetched} {state final : Processor} {fault : Fault}

/-! ## Writing -/

/-- A write into the code that does not fit leaves the bytes alone, but may have moved the
program counter. -/
theorem overwriteCode_ends (offset : Nat) (value : Word) :
    Ends (overwriteCode offset value) state
      (fun _ final => state.code.Holds offset 2 ∧ final = { state with
        code := ⟨Store.overwrite state.code.bytes offset (LittleEndian.encode 2 value.toNat),
          offset + 2⟩ })
      (fun fault final => ¬ state.code.Holds offset 2 ∧ fault = .codeOutOfBounds offset ∧
        ∃ cursor, final = { state with code := { state.code with cursor } }) := by
  rw [overwriteCode, ends_onCode, Fetch.orFault, ends_adaptExcept, ends_bind]
  apply (Store.seek_ends offset).mono
  · intro _ moved ended
    rcases ended with ⟨-, rfl⟩
    apply (Store.write_ends 2 value.toNat).mono
    · intro _ code ended
      rcases ended with ⟨inside, rfl⟩
      exact ⟨inside, rfl⟩
    · intro _ code ended
      rcases ended with ⟨outside, rfl⟩
      exact ⟨outside, rfl, offset, rfl⟩
  · intro _ code ended
    rcases ended with ⟨outside, rfl⟩
    refine ⟨?_, rfl, state.code.cursor, rfl⟩
    intro inside
    exact outside (Nat.le_trans (Nat.le_add_right _ _) inside)

/-- A write into the code overwrites a word or changes nothing, and leaves the program counter
where it was. -/
theorem writeCode_resumes (counterInside : state.code.cursor ≤ state.code.size) (offset : Nat)
    (value : Word) :
    Ends (writeCode offset value) state
      (fun _ final => state.code.Holds offset 2 ∧ final = { state with
        code := { state.code with
          bytes := Store.overwrite state.code.bytes offset
            (LittleEndian.encode 2 value.toNat) } })
      (fun fault final => ¬ state.code.Holds offset 2 ∧ fault = .codeOutOfBounds offset ∧
        final = state) := by
  rw [writeCode_eq, ends_bind, ends_get, ends_tryFinally]
  apply (overwriteCode_ends offset value).mono
  · intro _ after ended
    rcases ended with ⟨inside, rfl⟩
    have kept : state.code.cursor ≤ (Store.overwrite state.code.bytes offset
        (LittleEndian.encode 2 value.toNat)).size := by
      rw [Store.size_overwrite]
      exact counterInside
    exact .intro_ok (resumeAt_of_inside kept offset) ⟨inside, rfl⟩
  · intro fault after ended
    rcases ended with ⟨outside, known, cursor, rfl⟩
    have resumed : resumeAt offset state.code.cursor
        { state with code := { state.code with cursor } } = .ok () state :=
      resumeAt_of_inside (by exact counterInside) offset
    exact .intro_ok resumed ⟨outside, known, rfl⟩

/-- A write that is refused leaves everything as it was. -/
theorem write_refuses (counterInside : state.code.cursor ≤ state.code.size) (operand : Operand)
    (value : Word) :
    Ends (write operand value) state (fun _ _ => True) (fun _ final => final = state) := by
  have inMemory : Ends
      (do
        let place ← address operand
        onData (.dataOutOfBounds place) (Store.setWordAt place value)) state
      (fun _ _ => True) (fun _ final => final = state) := by
    rw [ends_bind]
    apply (address_ends operand).mono
    · intro place _ ended
      rcases ended with ⟨-, rfl⟩
      rw [ends_onData, Store.setWordAt]
      apply (Store.save_ends 2 place value.toNat).mono
      · exact fun _ _ _ => trivial
      · intro _ data ended
        rcases ended with ⟨-, rfl⟩
        exact rfl
    · intro _ _ ended
      exact ended.2.2
  unfold write
  cases operand.mode with
  | register => exact trivial
  | label =>
      apply (writeCode_resumes counterInside operand.value.toNat value).mono
      · exact fun _ _ _ => trivial
      · exact fun _ _ ended => ended.2.2
  | absent | number | pointer | global | registerPointer | frame => exact inMemory

/-! ## Instructions -/

/-- The state that a fault of an instruction leaves: the one it found, the one it found with the
flags of its operation, or the one it found with a word taken from the stack. In the last two
cases it is the destination that refuses the word. -/
inductive Residue (fetched : Fetched) (state : Processor) (fault : Fault) : Processor → Prop where
  | untouched (underflows : fetched.opcode = .pop → fault = .stackUnderflow) :
      Residue fetched state fault state
  | flagged {operation : Flags → Word → Word → Word × Flags} {left right : Word} {dst : Operand}
      (known : fetched.opcode.operation? = some operation) (carried : fetched.dst = some dst)
      (refused : write dst (operation state.flags left right).1
          { state with flags := (operation state.flags left right).2 } =
        .error fault { state with flags := (operation state.flags left right).2 }) :
      Residue fetched state fault { state with flags := (operation state.flags left right).2 }
  | popped {value : Word} {dst : Operand} (pops : fetched.opcode = .pop)
      (room : state.frameBase + 2 ≤ state.data.cursor) (carried : fetched.dst = some dst)
      (refused : write dst value
          { state with data := { state.data with cursor := state.data.cursor - 2 } } =
        .error fault { state with data := { state.data with cursor := state.data.cursor - 2 } }) :
      Residue fetched state fault
        { state with data := { state.data with cursor := state.data.cursor - 2 } }

/-- Whether a step that ends in a fault leaves a residue of the instruction. -/
def Stops (fetched : Fetched) (step : Step Unit) (state : Processor) : Prop :=
  Ends step state (fun _ _ => True) (Residue fetched state)

theorem Residue.of_noPop (noPop : fetched.opcode ≠ .pop) : Residue fetched state fault state :=
  .untouched fun pops => absurd pops noPop

theorem Residue.of_operation {operation : Flags → Word → Word → Word × Flags}
    (known : fetched.opcode.operation? = some operation) :
    Residue fetched state fault state := by
  apply Residue.of_noPop
  intro pops
  rw [pops] at known
  cases known

theorem ends_write_of_refused {operand : Operand} {value : Word}
    {failed : Fault → Processor → Prop} (counterInside : state.code.cursor ≤ state.code.size)
    (refused : ∀ fault, write operand value state = .error fault state → failed fault state) :
    Ends (write operand value) state (fun _ _ => True) failed := by
  cases outcome : write operand value state with
  | ok _ final => exact .intro_ok outcome trivial
  | error fault final =>
      have same := (write_refuses counterInside operand value).of_error outcome
      rw [Ends, outcome]
      rw [same] at outcome ⊢
      exact refused fault outcome

/-- Storing in the destination, which may lack or refuse the word. -/
theorem ends_storeDst {value : Word} {failed : Fault → Processor → Prop}
    (counterInside : state.code.cursor ≤ state.code.size)
    (missing : ∀ fault, fetched.dst = none → failed fault state)
    (refused : ∀ operand fault, fetched.dst = some operand →
      write operand value state = .error fault state → failed fault state) :
    Ends (dst fetched) state
      (fun operand middle => Ends (write operand value) middle (fun _ _ => True) failed)
      failed := by
  apply dst_ends.mono
  · intro operand middle ended
    rcases ended with ⟨carried, same⟩
    rw [same]
    exact ends_write_of_refused counterInside fun fault => refused operand fault carried
  · intro fault final ended
    rcases ended with ⟨none, same⟩
    rw [same]
    exact missing fault none

/-- Reading the source goes on in the same state. -/
theorem ends_readSrc_of_same {returned : Word → Processor → Prop}
    {failed : Fault → Processor → Prop} (unread : ∀ fault, failed fault state)
    (next : ∀ value, returned value state) :
    Ends (src fetched) state (fun operand middle => Ends (read operand) middle returned failed)
      failed := by
  apply src_ends.mono
  · intro operand middle ended
    rw [ended.2]
    apply (read_ends operand).mono
    · intro value final ended
      rw [ended.1]
      exact next value
    · intro fault final ended
      rw [ended.2]
      exact unread fault
  · intro fault final ended
    rw [ended.2]
    exact unread fault

/-- So does reading the destination, which then is there. -/
theorem ends_readDst_of_same {returned : Operand → Word → Processor → Prop}
    {failed : Fault → Processor → Prop} (unread : ∀ fault, failed fault state)
    (next : ∀ operand value, fetched.dst = some operand → returned operand value state) :
    Ends (dst fetched) state
      (fun operand middle => Ends (read operand) middle (returned operand) failed) failed := by
  apply dst_ends.mono
  · intro operand middle ended
    rcases ended with ⟨carried, same⟩
    rw [same]
    apply (read_ends operand).mono
    · intro value final ended
      rw [ended.1]
      exact next operand value carried
    · intro fault final ended
      rw [ended.2]
      exact unread fault
  · intro fault final ended
    rw [ended.2]
    exact unread fault

theorem ends_readPair_of_same {returned : Word × Word → Processor → Prop}
    {failed : Fault → Processor → Prop} (unread : ∀ fault, failed fault state)
    (next : ∀ left right, fetched.dst ≠ none → returned (left, right) state) :
    Ends (readPair fetched) state returned failed := by
  simp only [readPair, ends_bind, ends_pure]
  apply ends_readDst_of_same unread
  intro operand left carried
  apply ends_readSrc_of_same unread
  intro right
  apply next left right
  rw [carried]
  exact Option.some_ne_none operand

theorem move_stops (noPop : fetched.opcode ≠ .pop)
    (counterInside : state.code.cursor ≤ state.code.size) :
    Stops fetched (move fetched) state := by
  have untouched (fault : Fault) : Residue fetched state fault state := .of_noPop noPop
  simp only [Stops, move, ends_bind]
  apply ends_readSrc_of_same untouched
  intro value
  exact ends_storeDst counterInside (fun fault _ => untouched fault)
    fun _ fault _ _ => untouched fault

theorem addressOf_stops (noPop : fetched.opcode ≠ .pop)
    (counterInside : state.code.cursor ≤ state.code.size) :
    Stops fetched (addressOf fetched) state := by
  have untouched (fault : Fault) : Residue fetched state fault state := .of_noPop noPop
  simp only [Stops, addressOf, ends_bind, ends_ite, ends_pure]
  apply src_ends.mono
  · intro operand middle ended
    rw [ended.2]
    split
    · exact ends_storeDst counterInside (fun fault _ => untouched fault)
        fun _ fault _ _ => untouched fault
    · trivial
  · intro fault final ended
    rw [ended.2]
    exact untouched fault

/-- The flags are set before the destination is written. -/
theorem binary_stops {operation : Flags → Word → Word → Word × Flags}
    (known : fetched.opcode.operation? = some operation)
    (counterInside : state.code.cursor ≤ state.code.size) :
    Stops fetched (binary operation fetched) state := by
  simp only [Stops, binary, withFlags, ends_bind]
  apply ends_readPair_of_same fun fault => .of_operation known
  intro left right present
  rw [ends_modifyGet]
  exact ends_storeDst counterInside (fun _ missing => absurd missing present)
    fun _ _ carried refused => .flagged known carried refused

theorem compare_stops (noPop : fetched.opcode ≠ .pop)
    (operation : Flags → Word → Word → Word × Flags) :
    Stops fetched (compare operation fetched) state := by
  simp only [Stops, compare, withFlags, ends_bind, discard]
  exact ends_readPair_of_same (fun _ => .of_noPop noPop) fun _ _ _ => trivial

theorem unary_stops {operation : Flags → Word → Word × Flags}
    (known : fetched.opcode.operation? = some fun flags value _ => operation flags value)
    (counterInside : state.code.cursor ≤ state.code.size) :
    Stops fetched (unary operation fetched) state := by
  simp only [Stops, unary, withFlags, ends_bind, ends_modifyGet]
  apply ends_readDst_of_same fun fault => .of_operation known
  intro operand value carried
  exact ends_write_of_refused (by exact counterInside) fun fault refused =>
    @Residue.flagged fetched state fault _ value 0 operand known carried refused

/-- The remainder is stored after the quotient, but a register refuses nothing. -/
theorem divide_stops (noPop : fetched.opcode ≠ .pop)
    (counterInside : state.code.cursor ≤ state.code.size)
    (division : Word → Word → Word × Word) :
    Stops fetched (divide division fetched) state := by
  have untouched (fault : Fault) : Residue fetched state fault state := .of_noPop noPop
  simp only [Stops, divide, ends_bind]
  apply ends_readPair_of_same untouched
  intro dividend divisor _
  simp only [ends_ite, ends_bind, ends_throw]
  split
  · exact untouched _
  · cases fetched.trailing with
    | none => exact untouched _
    | some register =>
        simp only [ends_bind]
        exact ends_storeDst counterInside (fun fault _ => untouched fault)
          fun _ fault _ _ => untouched fault

theorem jump_stops (noPop : fetched.opcode ≠ .pop) : Stops fetched (jump fetched) state := by
  have untouched (fault : Fault) : Residue fetched state fault state := .of_noPop noPop
  simp only [Stops, jump, ends_bind]
  apply ends_readDst_of_same untouched
  intro operand target _
  rw [ends_onCode, Fetch.orFault, ends_adaptExcept]
  apply (Store.seek_ends target.toNat).mono
  · exact fun _ _ _ => trivial
  · intro _ code ended
    rw [ended.2]
    exact untouched _

theorem whenFlags_stops (test : Flags → Bool) {step : Step Unit}
    (stops : Stops fetched step state) :
    Stops fetched (whenFlags test step) state := by
  simp only [Stops, whenFlags, ends_bind, ends_get, ends_ite, ends_pure]
  split
  · exact stops
  · trivial

theorem push_stops (noPop : fetched.opcode ≠ .pop) : Stops fetched (push fetched) state := by
  have untouched (fault : Fault) : Residue fetched state fault state := .of_noPop noPop
  simp only [Stops, push, ends_bind]
  apply ends_readSrc_of_same untouched
  intro value
  cases fetched.trailing with
  | none => exact untouched _
  | some size =>
      have stored (width number : Nat) :
          Ends (onData .stackOverflow (Store.write width number)) state (fun _ _ => True)
            (Residue fetched state) := by
        rw [ends_onData]
        apply (Store.write_ends width number).mono
        · exact fun _ _ _ => trivial
        · intro _ data ended
          rw [ended.2]
          exact untouched _
      simp only [ends_ite, ends_bind, ends_throw, ends_get]
      split
      · split
        · split
          · exact stored 1 value.lowByte.toNat
          · exact stored 2 value.toNat
        · exact untouched _
      · exact untouched _

/-- A pop that does not underflow takes its word, and only then may its destination refuse it. -/
theorem pop_stops (pops : fetched.opcode = .pop) (present : fetched.dst ≠ none)
    (counterInside : state.code.cursor ≤ state.code.size)
    (stackInside : state.data.cursor ≤ state.data.size) :
    Stops fetched (pop fetched) state := by
  simp only [Stops, pop, ends_bind, ends_get, ends_ite, ends_throw]
  split
  next room =>
    have inside : state.data.Holds (state.data.cursor - 2) 2 := by
      rw [Store.Holds]
      omega
    have lowered : Store.seek (state.data.cursor - 2) state.data =
        .ok () { state.data with cursor := state.data.cursor - 2 } :=
      Store.seek_of_le (Nat.le_trans (Nat.sub_le ..) stackInside)
    refine .intro_ok (load_of_holds inside) ?_
    rw [ends_onData]
    refine .intro_ok lowered ?_
    exact ends_storeDst counterInside (fun _ missing => absurd missing present)
      fun _ _ carried refused => .popped pops room carried refused
  next => exact .untouched fun _ => rfl

/-- A fault of an instruction leaves a residue of it. -/
theorem execute_stops (present : fetched.opcode = .pop → fetched.dst ≠ none)
    (counterInside : state.code.cursor ≤ state.code.size)
    (stackInside : state.data.cursor ≤ state.data.size) :
    Stops fetched (execute fetched) state := by
  rcases fetched with ⟨opcode, offset, dst, src, trailing⟩
  unfold execute
  cases opcode with
  | mov => exact move_stops Opcode.noConfusion counterInside
  | addrof => exact addressOf_stops Opcode.noConfusion counterInside
  | add | sub | mul | imul | xor | or | and => exact binary_stops rfl counterInside
  | tst | cmp => exact compare_stops Opcode.noConfusion _
  | div | idiv => exact divide_stops Opcode.noConfusion counterInside _
  | inc | dec | neg | not => exact unary_stops rfl counterInside
  | jmp => exact jump_stops Opcode.noConfusion
  | je | jne | jg | jge | jl | jle => exact whenFlags_stops _ (jump_stops Opcode.noConfusion)
  | cmove | cmovne | cmovg | cmovge | cmovl | cmovle =>
      exact whenFlags_stops _ (move_stops Opcode.noConfusion counterInside)
  | push => exact push_stops Opcode.noConfusion
  | pop => exact pop_stops rfl (present rfl) counterInside stackInside
  | nop => exact trivial

/-- A fault leaves registers, data bytes, code and program counter as the instruction found them.
The stack pointer is where it was, unless it is below the word that a pop has taken and its
destination has refused; the flags are what they were, unless they are those of an operation whose
result the destination has refused. -/
theorem execute_stores_nothing {store rest : Store}
    (decoded : Fetch.instruction store = .ok fetched rest)
    (counterInside : state.code.cursor ≤ state.code.size)
    (stackInside : state.data.cursor ≤ state.data.size)
    (faulted : execute fetched state = .error fault final) :
    final.registers = state.registers ∧ final.data.bytes = state.data.bytes ∧
      final.code = state.code ∧ final.frameBase = state.frameBase ∧
      (final.data.cursor = state.data.cursor ∧
          (fetched.opcode = .pop → fault = .stackUnderflow) ∨
        final.data.cursor + 2 = state.data.cursor ∧ fetched.opcode = .pop ∧
          ∃ dst value, fetched.dst = some dst ∧ write dst value final = .error fault final) ∧
      (final.flags = state.flags ∨
        ∃ operation left right dst, fetched.opcode.operation? = some operation ∧
          fetched.dst = some dst ∧ final.flags = (operation state.flags left right).2 ∧
          write dst (operation state.flags left right).1 final = .error fault final) := by
  have present (pops : fetched.opcode = .pop) : fetched.dst ≠ none := by
    obtain ⟨operand, carried⟩ := Fetch.dst_of_instruction decoded (by rw [pops]; rfl)
    rw [carried]
    exact Option.some_ne_none operand
  have stops : Stops fetched (execute fetched) state :=
    execute_stops present counterInside stackInside
  cases stops.of_error faulted with
  | untouched underflows =>
      exact ⟨rfl, rfl, rfl, rfl, Or.inl ⟨rfl, underflows⟩, Or.inl rfl⟩
  | flagged known carried refused =>
      have noPop (pops : fetched.opcode = .pop) : fault = .stackUnderflow := by
        rw [pops] at known
        cases known
      exact ⟨rfl, rfl, rfl, rfl, Or.inl ⟨rfl, noPop⟩,
        Or.inr ⟨_, _, _, _, known, carried, rfl, refused⟩⟩
  | popped pops room carried refused =>
      have lowered : state.data.cursor - 2 + 2 = state.data.cursor := by omega
      exact ⟨rfl, rfl, rfl, rfl, Or.inr ⟨lowered, pops, _, _, carried, refused⟩, Or.inl rfl⟩

/-- A pop into a number takes its word and stores it nowhere. -/
theorem refused_pop_stores_nothing :
    ∃ fetched code final,
      Fetch.instruction ⟨#[31, 4, 5, 0], 0⟩ = .ok fetched code ∧
      execute fetched ⟨.ofSizes 4 0 0, .clear, code, ⟨#[1, 2, 3, 4], 4⟩, 0⟩ =
        .error (.invalidDestination .number 2) final ∧
      final.registers = .ofSizes 4 0 0 ∧ final.data.bytes = #[1, 2, 3, 4] ∧ final.code = code ∧
      final.data.cursor + 2 = 4 ∧ final.flags = .clear := by
  let fetched : Fetched := ⟨.pop, 0, some ⟨⟨.number, 5⟩, 2⟩, none, none⟩
  let code : Store := ⟨#[31, 4, 5, 0], 4⟩
  let state : Processor := ⟨.ofSizes 4 0 0, .clear, code, ⟨#[1, 2, 3, 4], 4⟩, 0⟩
  have decoded : Fetch.instruction ⟨#[31, 4, 5, 0], 0⟩ = .ok fetched code := rfl
  have faulted : execute fetched state = .error (.invalidDestination .number 2)
      { state with data := { state.data with cursor := 2 } } := rfl
  obtain ⟨registers, data, sameCode, -, stack, flags⟩ :=
    execute_stores_nothing decoded (by decide) (by decide) faulted
  refine ⟨fetched, code, _, decoded, faulted, registers, data, sameCode, ?_, ?_⟩
  · rcases stack with ⟨-, underflows⟩ | ⟨lowered, -⟩
    · cases underflows rfl
    · exact lowered
  · rcases flags with same | ⟨operation, _, _, _, known, -⟩
    · exact same
    · cases known

end Processor

end WordMachine
