import WordMachine.Proofs.Execution.Memory

/-!
# What an instruction can do

An instruction changes no data outside the word that its destination denotes, and leaves the
stack pointer where it is unless it is a push or a pop. If it has the operands its opcode
calls for and does not write into the code, it leaves the code as it was, the program counter
goes on or to the label it jumps to, and the faults are those of data and arithmetic
(`execute_acts`). A push puts its source on the stack (`push_ends`).
-/

namespace WordMachine

namespace Opcode

/-- Whether the instruction stores a result in its destination. The address of a source
is stored only if the source is a global. -/
def writesDst (opcode : Opcode) (source : Mode) : Bool :=
  match opcode with
  | addrof => decide (source = .global)
  | mov | add | mul | inc | dec | neg | not | xor | or | and | imul | div | idiv | sub
  | cmove | cmovne | cmovg | cmovge | cmovl | cmovle | pop => true
  | tst | cmp | je | jmp | jne | jg | jge | jl | jle | push | nop => false

/-- Whether the instruction may set the program counter. -/
def isJump : Opcode → Bool
  | je | jmp | jne | jg | jge | jl | jle => true
  | _ => false

theorem hasDst_of_writesDst {opcode : Opcode} {source : Mode}
    (writes : opcode.writesDst source = true) : opcode.shape.hasDst = true := by
  cases opcode <;> first | rfl | cases writes

theorem hasDst_of_isJump {opcode : Opcode} (jumps : opcode.isJump = true) :
    opcode.shape.hasDst = true := by
  cases opcode <;> first | rfl | cases jumps

end Opcode

namespace Fetched

/-- The mode of the source, which is absent where there is none. -/
def srcMode (fetched : Fetched) : Mode :=
  match fetched.src with
  | some operand => operand.mode
  | none => .absent

/-- Whether an instruction stores a result in its destination. -/
def writesDst (fetched : Fetched) : Bool := fetched.opcode.writesDst fetched.srcMode

/-- Whether an instruction has what its opcode calls for, writes no code, and jumps
nowhere but to a label inside the code. -/
structure Tame (fetched : Fetched) (codeSize : Nat) : Prop where
  dst : fetched.opcode.shape.hasDst = true →
    ∃ operand, fetched.dst = some operand ∧ operand.mode ≠ .absent
  src : fetched.opcode.shape.hasSrc = true →
    ∃ operand, fetched.src = some operand ∧ operand.mode ≠ .absent
  trailing : fetched.opcode.shape.hasTrailing = true → fetched.trailing ≠ none
  pushSize : fetched.opcode = .push → fetched.trailing = some 1 ∨ fetched.trailing = some 2
  writable : fetched.writesDst = true →
    ∀ operand, fetched.dst = some operand → operand.Writable
  target : fetched.opcode.isJump = true →
    ∀ operand, fetched.dst = some operand →
      operand.mode = .label ∧ operand.value.toNat ≤ codeSize

end Fetched

namespace Processor

variable {state final : Processor} {fetched : Fetched}

/-- What an instruction leaves alone. -/
structure Effect (fetched : Fetched) (state final : Processor) : Prop where
  frameBase : final.frameBase = state.frameBase
  size : final.data.size = state.data.size
  stack : fetched.opcode ≠ .push → fetched.opcode ≠ .pop →
    final.data.cursor = state.data.cursor
  data : ∀ dst, fetched.dst = some dst → ∀ place, ¬ state.Denotes dst place →
    final.data.bytes[place]? = state.data.bytes[place]?
  code : fetched.Tame state.code.size → final.code.bytes = state.code.bytes
  counter : fetched.Tame state.code.size → final.code.cursor = state.code.cursor ∨
    fetched.opcode.isJump = true ∧
      ∃ dst, fetched.dst = some dst ∧ final.code.cursor = dst.value.toNat

/-- What is known when an instruction ends in a fault. -/
def Fails (fetched : Fetched) (state : Processor) (fault : Fault) (final : Processor) : Prop :=
  (fetched.Tame state.code.size → fault.Expected) ∧ Effect fetched state final

/-- Whether a step has the effect of an instruction, also when it ends in a fault. -/
def Acts (fetched : Fetched) (step : Step Unit) (state : Processor) : Prop :=
  Ends step state (fun _ final => Effect fetched state final) (Fails fetched state)

theorem Effect.refl (fetched : Fetched) (state : Processor) : Effect fetched state state :=
  ⟨rfl, rfl, fun _ _ => rfl, fun _ _ _ _ => rfl, fun _ => rfl, fun _ => Or.inl rfl⟩

theorem Effect.of_writes {operand : Operand} (carried : fetched.dst = some operand)
    (writesDst : fetched.writesDst = true) (writes : Writes operand state final) :
    Effect fetched state final where
  frameBase := writes.frameBase
  size := writes.size
  stack := fun _ _ => writes.stack
  data := by
    intro dst carried' place outside
    rw [carried] at carried'
    cases carried'
    exact writes.data place outside
  code := by
    intro tame
    rw [writes.code (tame.writable writesDst operand carried).noLabel]
  counter := by
    intro tame
    rw [writes.code (tame.writable writesDst operand carried).noLabel]
    exact Or.inl rfl

theorem dst_ends :
    Ends (dst fetched) state
      (fun operand final => fetched.dst = some operand ∧ final = state)
      (fun _ final => fetched.dst = none ∧ final = state) := by
  rw [dst, Fetched.requireDst]
  cases fetched.dst with
  | some operand => exact ⟨rfl, rfl⟩
  | none => exact ⟨rfl, rfl⟩

theorem src_ends :
    Ends (src fetched) state
      (fun operand final => fetched.src = some operand ∧ final = state)
      (fun _ final => fetched.src = none ∧ final = state) := by
  rw [src, Fetched.requireSrc]
  cases fetched.src with
  | some operand => exact ⟨rfl, rfl⟩
  | none => exact ⟨rfl, rfl⟩

/-- Whether what an instruction reads and writes is the same in both states. Only a pop moves the
stack pointer before it writes. -/
structure Alike (fetched : Fetched) (state before : Processor) : Prop where
  registers : before.registers = state.registers
  code : before.code = state.code
  frameBase : before.frameBase = state.frameBase
  bytes : before.data.bytes = state.data.bytes
  stack : fetched.opcode ≠ .pop → before.data.cursor = state.data.cursor

theorem Alike.refl (state : Processor) : Alike fetched state state :=
  ⟨rfl, rfl, rfl, rfl, fun _ => rfl⟩

/-- Flags are neither read nor written through operands. -/
theorem Alike.of_flags (state : Processor) (flags : Flags) :
    Alike fetched state { state with flags } :=
  ⟨rfl, rfl, rfl, rfl, fun _ => rfl⟩

/-- The stack pointer is no data. -/
theorem Alike.of_cursor (pops : fetched.opcode = .pop) (state : Processor) (cursor : Nat) :
    Alike fetched state { state with data := { state.data with cursor } } :=
  ⟨rfl, rfl, rfl, rfl, fun other => absurd pops other⟩

theorem Effect.of_alike {before : Processor} (alike : Alike fetched state before) :
    Effect fetched state before where
  frameBase := alike.frameBase
  size := by rw [Store.size, Store.size, alike.bytes]
  stack := fun _ noPop => alike.stack noPop
  data := by
    intro _ _ place _
    rw [alike.bytes]
  code := by
    intro _
    rw [alike.code]
  counter := by
    intro _
    rw [alike.code]
    exact Or.inl rfl

/-- An effect on a state is the same on any that is alike. -/
theorem Effect.after_alike {before : Processor} (alike : Alike fetched state before)
    (effect : Effect fetched before final) : Effect fetched state final where
  frameBase := effect.frameBase.trans alike.frameBase
  size := by
    rw [effect.size, Store.size, Store.size, alike.bytes]
  stack := fun noPush noPop => (effect.stack noPush noPop).trans (alike.stack noPop)
  data := by
    intro dst carried place outside
    have same : before.denoted? dst = state.denoted? dst := by
      rw [denoted?, denoted?, alike.registers, alike.frameBase]
    rw [effect.data dst carried place (by rw [Denotes, same]; exact outside), alike.bytes]
  code := by
    rw [← alike.code]
    exact effect.code
  counter := by
    rw [← alike.code]
    exact effect.counter

section

variable {before : Processor}

/-- A fault for want of a source does not come to an instruction that has one. -/
theorem fails_without_src {fault : Fault} (alike : Alike fetched state before)
    (takesSrc : fetched.opcode.shape.hasSrc = true) (none : fetched.src = none) :
    Fails fetched state fault before := by
  constructor
  · intro tame
    obtain ⟨operand, carried, -⟩ := tame.src takesSrc
    rw [none] at carried
    cases carried
  · exact Effect.of_alike alike

theorem fails_without_dst {fault : Fault} (alike : Alike fetched state before)
    (takesDst : fetched.opcode.shape.hasDst = true) (none : fetched.dst = none) :
    Fails fetched state fault before := by
  constructor
  · intro tame
    obtain ⟨operand, carried, -⟩ := tame.dst takesDst
    rw [none] at carried
    cases carried
  · exact Effect.of_alike alike

/-- Reading the source goes on in the same state. -/
theorem ends_readSrc {returned : Word → Processor → Prop} (alike : Alike fetched state before)
    (takesSrc : fetched.opcode.shape.hasSrc = true)
    (next : ∀ operand value, fetched.src = some operand →
      read operand before = .ok value before → returned value before) :
    Ends (src fetched) before
      (fun operand middle => Ends (read operand) middle returned (Fails fetched state))
      (Fails fetched state) := by
  apply src_ends.mono
  · intro operand middle ended
    rcases ended with ⟨carried, same⟩
    rw [same]
    have reads : Ends (read operand) before _ _ := read_ends operand
    cases outcome : read operand before with
    | ok value final =>
        obtain ⟨rfl, -⟩ := reads.of_ok outcome
        rw [Ends, outcome]
        exact next operand value carried outcome
    | error fault final =>
        obtain ⟨expected, rfl⟩ := reads.of_error outcome
        rw [Ends, outcome]
        refine ⟨?_, Effect.of_alike alike⟩
        intro tame
        obtain ⟨operand', carried', present⟩ := tame.src takesSrc
        rw [carried] at carried'
        cases carried'
        exact expected present
  · intro fault final ended
    rcases ended with ⟨none, same⟩
    rw [same]
    exact fails_without_src alike takesSrc none

/-- Reading the destination goes on in the same state; the value of a label is its
address. -/
theorem ends_readDst {returned : Operand → Word → Processor → Prop}
    (alike : Alike fetched state before) (takesDst : fetched.opcode.shape.hasDst = true)
    (next : ∀ operand value, fetched.dst = some operand →
      (operand.mode = .label → value = operand.value) → returned operand value before) :
    Ends (dst fetched) before
      (fun operand middle =>
        Ends (read operand) middle (returned operand) (Fails fetched state))
      (Fails fetched state) := by
  apply dst_ends.mono
  · intro operand middle ended
    rcases ended with ⟨carried, same⟩
    rw [same]
    apply (read_ends operand).mono
    · intro value final ended
      rcases ended with ⟨same, ofLabel⟩
      rw [same]
      exact next operand value carried ofLabel
    · intro fault final ended
      rcases ended with ⟨expected, same⟩
      rw [same]
      refine ⟨?_, Effect.of_alike alike⟩
      intro tame
      obtain ⟨operand', carried', present⟩ := tame.dst takesDst
      rw [carried] at carried'
      cases carried'
      exact expected present
  · intro fault final ended
    rcases ended with ⟨none, same⟩
    rw [same]
    exact fails_without_dst alike takesDst none

/-- Writing a destination has the effect of the instruction. -/
theorem ends_write {returned : Unit → Processor → Prop} (alike : Alike fetched state before)
    {operand : Operand} (carried : fetched.dst = some operand)
    (writesDst : fetched.writesDst = true) (value : Word)
    (next : ∀ final, Effect fetched state final → returned () final) :
    Ends (write operand value) before returned (Fails fetched state) := by
  apply (write_ends operand value).mono
  · intro _ final writes
    exact next final ((Effect.of_writes carried writesDst writes).after_alike alike)
  · intro fault final ended
    rcases ended with ⟨expected, writes⟩
    exact ⟨fun tame => expected (tame.writable writesDst operand carried),
      (Effect.of_writes carried writesDst writes).after_alike alike⟩

/-- The same where the destination is looked up first. -/
theorem ends_writeDst {returned : Unit → Processor → Prop} (alike : Alike fetched state before)
    (writesDst : fetched.writesDst = true) (value : Word)
    (next : ∀ final, Effect fetched state final → returned () final) :
    Ends (dst fetched) before
      (fun operand middle => Ends (write operand value) middle returned (Fails fetched state))
      (Fails fetched state) := by
  apply dst_ends.mono
  · intro operand middle ended
    rcases ended with ⟨carried, same⟩
    rw [same]
    exact ends_write alike carried writesDst value next
  · intro fault final ended
    rcases ended with ⟨none, same⟩
    rw [same]
    exact fails_without_dst alike (Opcode.hasDst_of_writesDst writesDst) none

end

/-! ## Instructions -/

theorem move_acts (writesDst : fetched.writesDst = true)
    (takesSrc : fetched.opcode.shape.hasSrc = true) : Acts fetched (move fetched) state := by
  simp only [Acts, move, ends_bind]
  apply ends_readSrc (.refl state) takesSrc
  intro _ value _ _
  exact ends_writeDst (.refl state) writesDst value fun _ effect => effect

theorem addressOf_acts (addresses : fetched.opcode = .addrof) :
    Acts fetched (addressOf fetched) state := by
  have takesSrc : fetched.opcode.shape.hasSrc = true := by
    rw [addresses]
    rfl
  simp only [Acts, addressOf, ends_bind, ends_ite, ends_pure]
  apply src_ends.mono
  · intro operand middle ended
    rcases ended with ⟨carried, same⟩
    rw [same]
    split
    next isGlobal =>
      have writesDst : fetched.writesDst = true := by
        rw [Fetched.writesDst, Fetched.srcMode, addresses, carried]
        exact decide_eq_true isGlobal
      exact ends_writeDst (.refl state) writesDst operand.value fun _ effect => effect
    next => exact Effect.refl fetched state
  · intro fault final ended
    rcases ended with ⟨none, same⟩
    rw [same]
    exact fails_without_src (.refl state) takesSrc none

theorem ends_readPair {returned : Word × Word → Processor → Prop}
    (takesDst : fetched.opcode.shape.hasDst = true)
    (takesSrc : fetched.opcode.shape.hasSrc = true)
    (next : ∀ pair, returned pair state) :
    Ends (readPair fetched) state returned (Fails fetched state) := by
  simp only [readPair, ends_bind, ends_pure]
  apply ends_readDst (.refl state) takesDst
  intro operand left carried _
  apply ends_readSrc (.refl state) takesSrc
  intro _ right _ _
  exact next (left, right)

theorem binary_acts (operation : Flags → Word → Word → Word × Flags)
    (writesDst : fetched.writesDst = true)
    (takesSrc : fetched.opcode.shape.hasSrc = true) :
    Acts fetched (binary operation fetched) state := by
  simp only [Acts, binary, withFlags, ends_bind]
  apply ends_readPair (Opcode.hasDst_of_writesDst writesDst) takesSrc
  intro pair
  rcases pair with ⟨left, right⟩
  rw [ends_modifyGet]
  exact ends_writeDst (.of_flags state _) writesDst _ fun _ effect => effect

theorem compare_acts (operation : Flags → Word → Word → Word × Flags)
    (takesDst : fetched.opcode.shape.hasDst = true)
    (takesSrc : fetched.opcode.shape.hasSrc = true) :
    Acts fetched (compare operation fetched) state := by
  simp only [Acts, compare, withFlags, ends_bind, discard]
  apply ends_readPair takesDst takesSrc
  intro pair
  rcases pair with ⟨left, right⟩
  exact Effect.of_alike (.of_flags state _)

theorem unary_acts (operation : Flags → Word → Word × Flags)
    (writesDst : fetched.writesDst = true) :
    Acts fetched (unary operation fetched) state := by
  simp only [Acts, unary, withFlags, ends_bind, ends_modifyGet]
  apply ends_readDst (.refl state) (Opcode.hasDst_of_writesDst writesDst)
  intro operand value carried _
  exact ends_write (.of_flags state _) carried writesDst _ fun _ effect => effect

theorem divide_acts (division : Word → Word → Word × Word)
    (writesDst : fetched.writesDst = true)
    (takesSrc : fetched.opcode.shape.hasSrc = true)
    (takesTrailing : fetched.opcode.shape.hasTrailing = true) :
    Acts fetched (divide division fetched) state := by
  simp only [Acts, divide, ends_bind]
  apply ends_readPair (Opcode.hasDst_of_writesDst writesDst) takesSrc
  intro pair
  rcases pair with ⟨dividend, divisor⟩
  simp only [ends_ite, ends_bind, ends_throw]
  split
  · exact ⟨fun _ => trivial, Effect.refl fetched state⟩
  · cases carried : fetched.trailing with
    | none =>
        refine ⟨?_, Effect.refl fetched state⟩
        intro tame
        exact absurd carried (tame.trailing takesTrailing)
    | some register =>
        simp only [ends_bind]
        apply ends_writeDst (.refl state) writesDst
        intro final effect
        exact ⟨effect.frameBase, effect.size, effect.stack, effect.data, effect.code,
          effect.counter⟩

theorem jump_acts (jumps : fetched.opcode.isJump = true) :
    Acts fetched (jump fetched) state := by
  simp only [Acts, jump, ends_bind]
  apply ends_readDst (.refl state) (Opcode.hasDst_of_isJump jumps)
  intro operand value carried ofLabel
  have ofTame (tame : fetched.Tame state.code.size) :
      value = operand.value ∧ operand.value.toNat ≤ state.code.size := by
    obtain ⟨label, inside⟩ := tame.target jumps operand carried
    exact ⟨ofLabel label, inside⟩
  rw [ends_onCode, Fetch.orFault, ends_adaptExcept]
  apply (Store.seek_ends value.toNat).mono
  · intro _ code ended
    rcases ended with ⟨-, same⟩
    rw [same]
    refine ⟨rfl, rfl, fun _ _ => rfl, fun _ _ _ _ => rfl, fun _ => rfl, ?_⟩
    intro tame
    exact Or.inr ⟨jumps, operand, carried, by rw [(ofTame tame).1]⟩
  · intro _ code ended
    rcases ended with ⟨outside, same⟩
    rw [same]
    refine ⟨?_, Effect.refl fetched state⟩
    intro tame
    obtain ⟨same, inside⟩ := ofTame tame
    rw [same] at outside
    exact absurd inside outside

theorem whenFlags_acts (test : Flags → Bool) {step : Step Unit} (acts : Acts fetched step state) :
    Acts fetched (whenFlags test step) state := by
  simp only [Acts, whenFlags, ends_bind, ends_get, ends_ite, ends_pure]
  split
  · exact acts
  · exact Effect.refl fetched state

theorem encode_lowByte (value : Word) :
    LittleEndian.encode 1 value.lowByte.toNat = LittleEndian.encode 1 value.toNat := by
  have same : UInt8.ofNat value.lowByte.toNat = UInt8.ofNat value.toNat := by
    apply UInt8.toNat_inj.mp
    simp [Word.lowByte]
  rw [LittleEndian.encode, LittleEndian.encode, same]
  rfl

/-- What a push leaves that puts the lowest bytes of a value on the stack. -/
def stacked (state : Processor) (size : UInt8) (value : Word) : Processor :=
  { state with
    data := ⟨Store.overwrite state.data.bytes state.data.cursor
      (LittleEndian.encode size.toNat value.toNat), state.data.cursor + size.toNat⟩ }

/-- A push puts as many of the lowest bytes of its source on the stack as its size says, if they
fit. -/
theorem push_ends (pushes : fetched.opcode = .push) :
    Ends (push fetched) state
      (fun _ final => ∃ operand value size, fetched.src = some operand ∧
        read operand state = .ok value state ∧ fetched.trailing = some size ∧
        state.data.Holds state.data.cursor size.toNat ∧ final = state.stacked size value)
      (Fails fetched state) := by
  have takesSrc : fetched.opcode.shape.hasSrc = true := by
    rw [pushes]
    rfl
  simp only [push, ends_bind]
  apply ends_readSrc (.refl state) takesSrc
  intro operand value carried reads
  cases trailing : fetched.trailing with
  | none =>
      refine ⟨?_, Effect.refl fetched state⟩
      intro tame
      exact absurd trailing (tame.trailing (by rw [pushes]; rfl))
  | some size =>
      have overflows : Fails fetched state .stackOverflow state :=
        ⟨fun _ => trivial, Effect.refl fetched state⟩
      have stores {number : Nat}
          (same : LittleEndian.encode size.toNat number =
            LittleEndian.encode size.toNat value.toNat) :
          Ends (onData .stackOverflow (Store.write size.toNat number)) state
            (fun _ final => ∃ operand value size', fetched.src = some operand ∧
              read operand state = .ok value state ∧ some size = some size' ∧
              state.data.Holds state.data.cursor size'.toNat ∧ final = state.stacked size' value)
            (Fails fetched state) := by
        rw [ends_onData]
        apply (Store.write_ends size.toNat number).mono
        · intro _ data ended
          rcases ended with ⟨inside, rfl⟩
          rw [same]
          exact ⟨operand, value, size, carried, reads, rfl, inside, rfl⟩
        · intro _ data ended
          rcases ended with ⟨-, rfl⟩
          exact overflows
      simp only [ends_ite, ends_bind, ends_throw, ends_get]
      split
      next known =>
        split
        next =>
          split
          next byte =>
            rw [byte] at stores ⊢
            exact stores (encode_lowByte value)
          next noByte =>
            rw [known.resolve_left noByte] at stores ⊢
            exact stores rfl
        next => exact overflows
      next other =>
        refine ⟨?_, Effect.refl fetched state⟩
        intro tame
        have known := tame.pushSize pushes
        rw [trailing] at known
        exact absurd (known.imp Option.some.inj Option.some.inj) other

/-- A push has no destination, and data outside the stack is not what it is about. -/
theorem push_acts (pushes : fetched.opcode = .push) (noDst : fetched.dst = none) :
    Acts fetched (push fetched) state := by
  apply (push_ends pushes).mono
  · intro _ final ended
    rcases ended with ⟨operand, value, size, -, -, -, -, same⟩
    rw [same]
    refine ⟨rfl, Store.size_overwrite _ _ _, fun noPush => absurd pushes noPush, ?_,
      fun _ => rfl, fun _ => Or.inl rfl⟩
    intro dst carried
    rw [noDst] at carried
    cases carried
  · exact fun _ _ fails => fails

theorem pop_acts (pops : fetched.opcode = .pop) : Acts fetched (pop fetched) state := by
  have writesDst : fetched.writesDst = true := by
    rw [Fetched.writesDst, pops]
    rfl
  simp only [Acts, pop, ends_bind, ends_get, ends_ite, ends_throw]
  split
  · apply (load_ends _).mono
    · intro value middle same
      rw [same, ends_onData]
      apply (Store.seek_ends _).mono
      · intro _ data ended
        rcases ended with ⟨-, same⟩
        rw [same]
        exact ends_writeDst (.of_cursor pops state _) writesDst value fun _ effect => effect
      · intro _ data ended
        rcases ended with ⟨-, same⟩
        rw [same]
        exact ⟨fun _ => trivial, Effect.refl fetched state⟩
    · intro _ final ended
      rcases ended with ⟨rfl, same⟩
      rw [same]
      exact ⟨fun _ => trivial, Effect.refl fetched state⟩
  · exact ⟨fun _ => trivial, Effect.refl fetched state⟩

/-- Every instruction has no other effect than that on its destination. -/
theorem execute_acts (state : Processor) (noDst : fetched.opcode = .push → fetched.dst = none) :
    Acts fetched (execute fetched) state := by
  rcases fetched with ⟨opcode, offset, dst, src, trailing⟩
  unfold execute
  cases opcode with
  | mov => exact move_acts rfl rfl
  | addrof => exact addressOf_acts rfl
  | add | sub | mul | imul | xor | or | and => exact binary_acts _ rfl rfl
  | tst | cmp => exact compare_acts _ rfl rfl
  | div | idiv => exact divide_acts _ rfl rfl rfl
  | inc | dec | neg | not => exact unary_acts _ rfl
  | jmp => exact jump_acts rfl
  | je | jne | jg | jge | jl | jle => exact whenFlags_acts _ (jump_acts rfl)
  | cmove | cmovne | cmovg | cmovge | cmovl | cmovle =>
      exact whenFlags_acts _ (move_acts rfl rfl)
  | push => exact push_acts rfl (noDst rfl)
  | pop => exact pop_acts rfl
  | nop => exact Effect.refl _ state

end Processor

end WordMachine
