import WordMachine.Proofs.Execution.Cursors
import WordMachine.Proofs.Execution.Start

/-!
# Bounds that every instruction keeps

Code is never longer or shorter than it was, nor are the data and the register banks; the
program counter stays inside the code and the stack pointer between the frame base and
the end of the data. Every instruction keeps these bounds, whatever it is fetched from and
also when it ends in a fault (`cycle_keeps`). Some accesses of the machine therefore can not
fail (`Bounded.unfailing`).
-/

namespace WordMachine

open Store

/-- What of a processor stays the same in a run: the lengths of code and data, the frame
base, and the sizes of the register banks. -/
structure Extent where
  code : Nat
  data : Nat
  frameBase : Nat
  banks : Nat × Nat × Nat
  deriving DecidableEq, Repr

/-- Whether a processor has an extent, its program counter inside the code, and its stack
pointer between the frame base and the end of the data. -/
structure Processor.Bounded (extent : Extent) (state : Processor) : Prop where
  code : state.code.Between 0 extent.code
  data : state.data.Between extent.frameBase extent.data
  frameBase : state.frameBase = extent.frameBase
  banks : state.registers.sizes = extent.banks

namespace Processor

variable {extent : Extent} {state : Processor}

theorem onCode_keeps {α : Type} {fetch : Fetch α}
    (keeps : Keeps (Between 0 extent.code) Fault.OfInstruction fetch) :
    Keeps (Bounded extent) Fault.OfInstruction (onCode fetch) := by
  intro state bounded
  rw [ends_onCode]
  apply (keeps state.code bounded.code).mono
  · exact fun _ code between => { bounded with code := between }
  · exact fun _ code failed => ⟨failed.1, { bounded with code := failed.2 }⟩

theorem onData_keeps {α : Type} {fault : Fault} {access : Access α}
    (keeps : Keeps (Between extent.frameBase extent.data) (fun _ => True) access)
    (known : fault.OfInstruction) :
    Keeps (Bounded extent) Fault.OfInstruction (onData fault access) := by
  intro state bounded
  rw [ends_onData]
  apply (keeps state.data bounded.data).mono
  · exact fun _ data between => { bounded with data := between }
  · exact fun _ data failed => ⟨known, { bounded with data := failed.2 }⟩

/-! ## Operands -/

theorem load_of_holds {address : Nat} (inside : state.data.Holds address 2) :
    load address state =
      .ok (UInt16.ofNat (LittleEndian.decode (state.data.slice 2 address))) state := by
  have found : state.data.wordAt address =
      .ok (UInt16.ofNat (LittleEndian.decode (state.data.slice 2 address))) := by
    rw [wordAt, Store.load_of_holds inside]
    rfl
  rw [load, get_bind, found]
  rfl

theorem load_keeps (address : Nat) :
    Keeps (Bounded extent) Fault.OfInstruction (load address) := by
  apply Keeps.get.bind
  intro state
  cases state.data.wordAt address with
  | ok word => exact .pure word
  | error error => exact .throw trivial

theorem address_keeps (operand : Operand) :
    Keeps (Bounded extent) Fault.OfInstruction (address operand) := by
  unfold address
  cases operand.mode with
  | pointer | global => exact .pure _
  | registerPointer | frame => exact Keeps.get.bind fun _ => .pure _
  | absent | register | label | number => exact .throw trivial

theorem read_keeps (operand : Operand) :
    Keeps (Bounded extent) Fault.OfInstruction (read operand) := by
  unfold read
  cases operand.mode with
  | register => exact Keeps.get.bind fun _ => .pure _
  | label | number => exact .pure _
  | absent => exact .throw trivial
  | pointer | global | registerPointer | frame =>
      exact (address_keeps operand).bind load_keeps

theorem setRegister_keeps (index : Nat) (value : Word) :
    Keeps (Bounded extent) Fault.OfInstruction (setRegister index value) := by
  apply Keeps.modify
  intro state bounded
  exact { bounded with banks := (Registers.sizes_set16 ..).trans bounded.banks }

/-! ## Writing into the code -/

/-- Writes a word into the code, and leaves the program counter behind it. -/
def overwriteCode (offset : Nat) (value : Word) : Step Unit :=
  onCode (Fetch.orFault (do seek offset; writeWord value) (.codeOutOfBounds offset))

/-- Puts the program counter where it stood before a write into the code. -/
def resumeAt (offset place : Nat) : Step Unit :=
  onCode (Fetch.orFault (seek place) (.codeOutOfBounds offset))

theorem writeCode_eq (offset : Nat) (value : Word) :
    writeCode offset value = (do
      let state ← get
      tryFinally (overwriteCode offset value) (resumeAt offset state.code.cursor)) := rfl

theorem overwriteCode_keeps (offset : Nat) (value : Word) :
    Keeps (Bounded extent) Fault.OfInstruction (overwriteCode offset value) :=
  onCode_keeps <| Fetch.orFault_keeps
    ((seek_keeps (Nat.zero_le offset)).bind fun _ => Store.write_keeps 2 value.toNat) trivial

/-- The program counter can be put back to a place inside the code. -/
theorem resumeAt_of_inside {place : Nat} (inside : place ≤ state.code.size) (offset : Nat) :
    resumeAt offset place state =
      .ok () { state with code := { state.code with cursor := place } } := by
  have moved : Fetch.orFault (seek place) (.codeOutOfBounds offset) state.code =
      .ok () { state.code with cursor := place } := by
    rw [Fetch.orFault, EStateM.adaptExcept, seek_of_le inside]
  rw [resumeAt, onCode, moved]

/-- The program counter can be put back to where it stood, since the code is as long as it
was. -/
theorem resumeAt_of_bounded {after : Processor} (bounded : state.Bounded extent)
    (afterBounded : after.Bounded extent) (offset : Nat) :
    resumeAt offset state.code.cursor after =
      .ok () { after with code := { after.code with cursor := state.code.cursor } } := by
  apply resumeAt_of_inside
  rw [afterBounded.code.sized]
  exact bounded.code.below

theorem writeCode_keeps (offset : Nat) (value : Word) :
    Keeps (Bounded extent) Fault.OfInstruction (writeCode offset value) := by
  intro state bounded
  have resumed {after : Processor} (afterBounded : after.Bounded extent) :
      Bounded extent { after with code := { after.code with cursor := state.code.cursor } } :=
    { afterBounded with
      code := ⟨afterBounded.code.sized, Nat.zero_le _, bounded.code.below⟩ }
  rw [writeCode_eq, ends_bind, ends_get, ends_tryFinally]
  apply (overwriteCode_keeps offset value state bounded).mono
  · intro _ after afterBounded
    rw [Ends, resumeAt_of_bounded bounded afterBounded]
    exact resumed afterBounded
  · intro fault after failed
    rcases failed with ⟨known, afterBounded⟩
    rw [Ends, resumeAt_of_bounded bounded afterBounded]
    exact ⟨known, resumed afterBounded⟩

/-! ## Destinations -/

theorem write_keeps (operand : Operand) (value : Word) :
    Keeps (Bounded extent) Fault.OfInstruction (write operand value) := by
  unfold write
  cases operand.mode with
  | register => exact setRegister_keeps operand.value.toNat value
  | label => exact writeCode_keeps operand.value.toNat value
  | absent | number | pointer | global | registerPointer | frame =>
      apply (address_keeps operand).bind
      intro address
      exact onData_keeps (save_keeps 2 address value.toNat) trivial

theorem dst_keeps (fetched : Fetched) :
    Keeps (Bounded extent) Fault.OfInstruction (dst fetched) := by
  apply Keeps.ofExcept
  intro fault missing
  rw [Fetched.requireDst] at missing
  cases carried : fetched.dst with
  | some operand =>
      rw [carried] at missing
      cases missing
  | none =>
      rw [carried] at missing
      cases missing
      trivial

theorem src_keeps (fetched : Fetched) :
    Keeps (Bounded extent) Fault.OfInstruction (src fetched) := by
  apply Keeps.ofExcept
  intro fault missing
  rw [Fetched.requireSrc] at missing
  cases carried : fetched.src with
  | some operand =>
      rw [carried] at missing
      cases missing
  | none =>
      rw [carried] at missing
      cases missing
      trivial

theorem writeDst_keeps (fetched : Fetched) (value : Word) :
    Keeps (Bounded extent) Fault.OfInstruction (do write (← dst fetched) value) :=
  (dst_keeps fetched).bind fun operand => write_keeps operand value

theorem readPair_keeps (fetched : Fetched) :
    Keeps (Bounded extent) Fault.OfInstruction (readPair fetched) := by
  apply (dst_keeps fetched).bind
  intro dst
  apply (read_keeps dst).bind
  intro left
  apply (src_keeps fetched).bind
  intro src
  exact (read_keeps src).bind fun _ => .pure _

theorem withFlags_keeps (operation : Flags → Word × Flags) :
    Keeps (Bounded extent) Fault.OfInstruction (withFlags operation) :=
  fun _ bounded => { bounded with }

/-! ## Instructions -/

variable (fetched : Fetched)

theorem move_keeps : Keeps (Bounded extent) Fault.OfInstruction (move fetched) := by
  apply (src_keeps fetched).bind
  intro src
  exact (read_keeps src).bind (writeDst_keeps fetched)

theorem addressOf_keeps : Keeps (Bounded extent) Fault.OfInstruction (addressOf fetched) := by
  apply (src_keeps fetched).bind
  intro source
  exact .ite (writeDst_keeps fetched source.value) (.pure ())

theorem binary_keeps (operation : Flags → Word → Word → Word × Flags) :
    Keeps (Bounded extent) Fault.OfInstruction (binary operation fetched) := by
  apply (readPair_keeps fetched).bind
  intro pair
  exact (withFlags_keeps _).bind (writeDst_keeps fetched)

theorem compare_keeps (operation : Flags → Word → Word → Word × Flags) :
    Keeps (Bounded extent) Fault.OfInstruction (compare operation fetched) := by
  apply (readPair_keeps fetched).bind
  intro pair
  exact fun _ bounded => { bounded with }

theorem unary_keeps (operation : Flags → Word → Word × Flags) :
    Keeps (Bounded extent) Fault.OfInstruction (unary operation fetched) := by
  apply (dst_keeps fetched).bind
  intro operand
  apply (read_keeps operand).bind
  intro value
  exact (withFlags_keeps _).bind (write_keeps operand)

theorem divide_keeps (division : Word → Word → Word × Word) :
    Keeps (Bounded extent) Fault.OfInstruction (divide division fetched) := by
  apply (readPair_keeps fetched).bind
  intro pair
  apply Keeps.ite
  · exact .throw_bind trivial
  · cases fetched.trailing with
    | none => exact .throw trivial
    | some register =>
        apply (dst_keeps fetched).bind
        intro operand
        exact (write_keeps operand _).bind fun _ => setRegister_keeps _ _

theorem jump_keeps : Keeps (Bounded extent) Fault.OfInstruction (jump fetched) := by
  apply (dst_keeps fetched).bind
  intro operand
  apply (read_keeps operand).bind
  intro target
  exact onCode_keeps (Fetch.orFault_keeps (seek_keeps (Nat.zero_le _)) trivial)

theorem whenFlags_keeps (test : Flags → Bool) {step : Step Unit}
    (keeps : Keeps (Bounded extent) Fault.OfInstruction step) :
    Keeps (Bounded extent) Fault.OfInstruction (whenFlags test step) :=
  Keeps.get.bind fun _ => .ite keeps (.pure ())

theorem push_keeps : Keeps (Bounded extent) Fault.OfInstruction (push fetched) := by
  apply (src_keeps fetched).bind
  intro src
  apply (read_keeps src).bind
  intro value
  cases fetched.trailing with
  | none => exact .throw trivial
  | some size =>
      apply Keeps.ite
      · apply Keeps.get.bind
        intro state
        apply Keeps.ite
        · apply Keeps.ite
          · exact onData_keeps (Store.write_keeps 1 value.lowByte.toNat) trivial
          · exact onData_keeps (Store.write_keeps 2 value.toNat) trivial
        · exact .throw_bind trivial
      · exact .throw_bind trivial

theorem pop_keeps : Keeps (Bounded extent) Fault.OfInstruction (pop fetched) := by
  intro state bounded
  simp only [pop, ends_bind, ends_get, ends_ite]
  split
  next room =>
    have above : extent.frameBase ≤ state.data.cursor - 2 := by
      rw [← bounded.frameBase]
      omega
    have lowered : Keeps (Bounded extent) Fault.OfInstruction
        (onData .stackUnderflow (seek (state.data.cursor - 2))) :=
      onData_keeps (seek_keeps above) trivial
    have taken := (load_keeps (state.data.cursor - 2)).bind fun value =>
      lowered.bind fun _ => writeDst_keeps fetched value
    simpa only [ends_bind] using taken state bounded
  next => exact ⟨trivial, bounded⟩

/-- Every instruction keeps the bounds. -/
theorem execute_keeps : Keeps (Bounded extent) Fault.OfInstruction (execute fetched) := by
  unfold execute
  cases fetched.opcode with
  | mov => exact move_keeps fetched
  | addrof => exact addressOf_keeps fetched
  | add | sub | mul | imul | xor | or | and => exact binary_keeps fetched _
  | tst | cmp => exact compare_keeps fetched _
  | div | idiv => exact divide_keeps fetched _
  | inc | dec | neg | not => exact unary_keeps fetched _
  | jmp => exact jump_keeps fetched
  | je | jne | jg | jge | jl | jle => exact whenFlags_keeps _ (jump_keeps fetched)
  | cmove | cmovne | cmovg | cmovge | cmovl | cmovle =>
      exact whenFlags_keeps _ (move_keeps fetched)
  | push => exact push_keeps fetched
  | pop => exact pop_keeps fetched
  | nop => exact .pure ()

/-- A cycle keeps the bounds, whatever the code holds, and ends in a fault of its
instruction if in any. -/
theorem cycle_keeps : Keeps (Bounded extent) Fault.OfInstruction cycle :=
  (onCode_keeps Fetch.instruction_keeps).bind execute_keeps

/-- The accesses that can not fail in a state: putting the program counter back after a
write into the code, whether that failed or not, storing what fits the stack, and taking
what lies above the frame base. -/
structure Unfailing (state : Processor) : Prop where
  resumes : ∀ offset value,
    Ends (overwriteCode offset value) state
      (fun _ after => Succeeds (resumeAt offset state.code.cursor) after)
      (fun _ after => Succeeds (resumeAt offset state.code.cursor) after)
  stores : ∀ width value, state.data.Holds state.data.cursor width →
    Succeeds (onData .stackOverflow (Store.write width value)) state
  takes : state.frameBase + 2 ≤ state.data.cursor →
    Succeeds (load (state.data.cursor - 2)) state ∧
      Succeeds (onData .stackUnderflow (seek (state.data.cursor - 2))) state

theorem Bounded.unfailing (bounded : state.Bounded extent) : state.Unfailing := by
  constructor
  · intro offset value
    apply (overwriteCode_keeps offset value state bounded).mono
    · exact fun _ after afterBounded => ⟨(), _, resumeAt_of_bounded bounded afterBounded offset⟩
    · exact fun _ after failed => ⟨(), _, resumeAt_of_bounded bounded failed.2 offset⟩
  · intro width value inside
    exact ⟨(), _, by rw [onData, write_of_holds value inside]⟩
  · intro room
    have top : state.data.cursor ≤ state.data.size := by
      rw [bounded.data.sized]
      exact bounded.data.below
    have inside : state.data.Holds (state.data.cursor - 2) 2 := by
      rw [Holds]
      omega
    constructor
    · exact ⟨_, state, load_of_holds inside⟩
    · exact ⟨(), _, by rw [onData, seek_of_le (Nat.le_trans (Nat.sub_le ..) top)]⟩

end Processor

end WordMachine
