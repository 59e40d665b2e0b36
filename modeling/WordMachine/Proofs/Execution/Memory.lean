import WordMachine.Processor
import WordMachine.Store.Lemmas
import WordMachine.Proofs.Outcome

/-!
# What reading and writing operands does

Reading an operand leaves the processor as it is. Writing one changes no data outside
the word that the operand denotes, and no code unless the operand is a label
(`write_ends`). A fault of either is one that assembled programs can come to, as long as
the operand can be read or written at all.
-/

namespace WordMachine

/-- Whether a fault is one that an assembled program can come to without changing its
own code. -/
def Fault.Expected : Fault → Prop
  | .allocationRefused _ | .divisionByZero _ | .stackOverflow | .stackUnderflow
  | .dataOutOfBounds _ | .budgetExhausted _ => True
  | .badMagic _ | .truncatedHeader | .invalidOpcode _ | .invalidMode _
  | .truncatedInstruction _ | .missingOperand _ | .invalidDestination _ _
  | .invalidPushSize _ | .codeOutOfBounds _ => False

/-- Whether an operand can be written, and not in the code. -/
structure Operand.Writable (operand : Operand) : Prop where
  present : operand.mode ≠ .absent
  noLabel : operand.mode ≠ .label
  noNumber : operand.mode ≠ .number

namespace Store

/-- Bytes outside those overwritten stay as they were. -/
theorem getElem?_overwrite_of_outside {bytes : Array UInt8} {address place : Nat}
    {new : List UInt8} (outside : place < address ∨ address + new.length ≤ place) :
    (overwrite bytes address new)[place]? = bytes[place]? := by
  induction new generalizing bytes address with
  | nil => rfl
  | cons byte rest ih =>
      rw [List.length_cons] at outside
      rw [overwrite, ih (by omega), Array.getElem?_setIfInBounds_ne (by omega)]

theorem read_ends {store : Store} (width : Nat) :
    Ends (read width) store
      (fun _ final => store.Holds store.cursor width ∧
        final = { store with cursor := store.cursor + width })
      (fun _ final => ¬ store.Holds store.cursor width ∧ final = store) := by
  by_cases inside : store.Holds store.cursor width
  · rw [Ends, read_of_holds inside]
    exact ⟨inside, rfl⟩
  · rw [Ends, read_of_not_holds inside]
    exact ⟨inside, rfl⟩

theorem save_ends {store : Store} (width address value : Nat) :
    Ends (save width address value) store
      (fun _ final => store.Holds address width ∧
        final = ⟨overwrite store.bytes address (LittleEndian.encode width value), store.cursor⟩)
      (fun _ final => ¬ store.Holds address width ∧ final = store) := by
  by_cases inside : store.Holds address width
  · rw [Ends, save_of_holds value inside]
    exact ⟨inside, rfl⟩
  · rw [Ends, save_of_not_holds value inside]
    exact ⟨inside, rfl⟩

theorem seek_ends {store : Store} (position : Nat) :
    Ends (seek position) store
      (fun _ final => position ≤ store.size ∧ final = { store with cursor := position })
      (fun _ final => ¬ position ≤ store.size ∧ final = store) := by
  by_cases inside : position ≤ store.size
  · rw [Ends, seek_of_le inside]
    exact ⟨inside, rfl⟩
  · rw [Ends, seek_of_not_le inside]
    exact ⟨inside, rfl⟩

theorem write_ends {store : Store} (width value : Nat) :
    Ends (write width value) store
      (fun _ final => store.Holds store.cursor width ∧
        final = ⟨overwrite store.bytes store.cursor (LittleEndian.encode width value),
          store.cursor + width⟩)
      (fun _ final => ¬ store.Holds store.cursor width ∧ final = store) := by
  by_cases inside : store.Holds store.cursor width
  · rw [Ends, write_of_holds value inside]
    exact ⟨inside, rfl⟩
  · rw [Ends, write_of_not_holds value inside]
    exact ⟨inside, rfl⟩

end Store

namespace Processor

variable {state : Processor}

@[simp] theorem ends_onData {α : Type} {fault : Fault} {access : Access α}
    {returned : α → Processor → Prop} {failed : Fault → Processor → Prop} :
    Ends (onData fault access) state returned failed ↔
      Ends access state.data (fun value data => returned value { state with data })
        (fun _ data => failed fault { state with data }) := by
  simp only [Ends, onData]
  cases access state.data with
  | ok value data => rfl
  | error error data => rfl

@[simp] theorem ends_onCode {α : Type} {fetch : Fetch α}
    {returned : α → Processor → Prop} {failed : Fault → Processor → Prop} :
    Ends (onCode fetch) state returned failed ↔
      Ends fetch state.code (fun value code => returned value { state with code })
        (fun fault code => failed fault { state with code }) := by
  simp only [Ends, onCode]
  cases fetch state.code with
  | ok value code => rfl
  | error error code => rfl

/-- The data address that an operand denotes, if it denotes one. -/
def denoted? (state : Processor) (operand : Operand) : Option Nat :=
  match operand.mode with
  | .pointer | .global => some operand.value.toNat
  | .registerPointer => some (state.registers.get16 operand.value.toNat).toNat
  | .frame => some (Header.addSizes state.frameBase operand.value.toNat)
  | .absent | .register | .label | .number => none

/-- Whether a data address lies in the word that an operand denotes. -/
def Denotes (state : Processor) (operand : Operand) (place : Nat) : Prop :=
  ∃ address, state.denoted? operand = some address ∧ address ≤ place ∧ place < address + 2

theorem address_ends (operand : Operand) :
    Ends (address operand) state
      (fun address final => state.denoted? operand = some address ∧ final = state)
      (fun fault final => fault = .invalidDestination operand.mode operand.offset ∧
        state.denoted? operand = none ∧ final = state) := by
  rw [address, denoted?]
  cases operand.mode with
  | pointer | global | registerPointer | frame => exact ⟨rfl, rfl⟩
  | absent | register | label | number => exact ⟨rfl, rfl, rfl⟩

theorem load_ends (address : Nat) :
    Ends (load address) state (fun _ final => final = state)
      (fun fault final => fault = .dataOutOfBounds address ∧ final = state) := by
  simp only [load, ends_bind, ends_get]
  cases state.data.wordAt address with
  | ok word => exact rfl
  | error error => exact ⟨rfl, rfl⟩

/-- Reading leaves everything as it was. -/
theorem read_ends (operand : Operand) :
    Ends (read operand) state
      (fun value final => final = state ∧ (operand.mode = .label → value = operand.value))
      (fun fault final => (operand.mode ≠ .absent → fault.Expected) ∧ final = state) := by
  have fromMemory (memory : operand.mode ≠ .label) (denotes : state.denoted? operand ≠ none) :
      Ends (address operand >>= load) state
        (fun value final => final = state ∧ (operand.mode = .label → value = operand.value))
        (fun fault final => (operand.mode ≠ .absent → fault.Expected) ∧ final = state) := by
    rw [ends_bind]
    apply (address_ends operand).mono
    · intro address _ ended
      rcases ended with ⟨-, rfl⟩
      apply (load_ends address).mono
      · intro value _ same
        cases same
        exact ⟨rfl, fun label => absurd label memory⟩
      · intro _ _ ended
        rcases ended with ⟨rfl, rfl⟩
        exact ⟨fun _ => trivial, rfl⟩
    · intro fault final ended
      rcases ended with ⟨-, none, -⟩
      exact absurd none denotes
  unfold read
  cases mode : operand.mode with
  | register => exact ⟨rfl, Mode.noConfusion⟩
  | label | number => exact ⟨rfl, fun _ => rfl⟩
  | absent => exact ⟨fun present => absurd rfl present, rfl⟩
  | pointer | global | registerPointer | frame =>
      rw [mode] at fromMemory
      exact fromMemory Mode.noConfusion (by rw [denoted?, mode]; exact Option.some_ne_none _)

/-- What an operand that is written leaves alone. -/
structure Writes (operand : Operand) (state final : Processor) : Prop where
  code : operand.mode ≠ .label → final.code = state.code
  frameBase : final.frameBase = state.frameBase
  size : final.data.size = state.data.size
  stack : final.data.cursor = state.data.cursor
  data : ∀ place, ¬ state.Denotes operand place →
    final.data.bytes[place]? = state.data.bytes[place]?

theorem Writes.refl (operand : Operand) (state : Processor) : Writes operand state state :=
  ⟨fun _ => rfl, rfl, rfl, rfl, fun _ _ => rfl⟩

/-- Writing into the code leaves the data as it was. -/
theorem writeCode_ends (offset : Nat) (value : Word) :
    Ends (writeCode offset value) state
      (fun _ final => final.frameBase = state.frameBase ∧ final.data = state.data)
      (fun _ final => final.frameBase = state.frameBase ∧ final.data = state.data) := by
  have kept {α : Type} {fetch : Fetch α} {before : Processor}
      (same : before.frameBase = state.frameBase ∧ before.data = state.data) :
      Ends (onCode fetch) before
        (fun _ final => final.frameBase = state.frameBase ∧ final.data = state.data)
        (fun _ final => final.frameBase = state.frameBase ∧ final.data = state.data) := by
    rw [ends_onCode, Ends]
    split
    · exact same
    · exact same
  simp only [writeCode, ends_bind, ends_get, ends_tryFinally]
  apply (kept ⟨rfl, rfl⟩).mono
  · exact fun _ middle same => kept same
  · exact fun _ middle same => kept same

/-- Storing a word at the address of an operand changes that word only. -/
theorem setWord_ends {operand : Operand} {address : Nat} (value : Word)
    (denoted : state.denoted? operand = some address) :
    Ends (onData (.dataOutOfBounds address) (Store.setWordAt address value)) state
      (fun _ final => Writes operand state final)
      (fun fault final => fault.Expected ∧ Writes operand state final) := by
  rw [ends_onData, Store.setWordAt]
  apply (Store.save_ends 2 address value.toNat).mono
  · intro _ data ended
    rcases ended with ⟨-, same⟩
    rw [same]
    refine ⟨fun _ => rfl, rfl, Store.size_overwrite _ _ _, rfl, ?_⟩
    intro place outside
    apply Store.getElem?_overwrite_of_outside
    rw [LittleEndian.length_encode]
    rcases Nat.lt_or_ge place address with below | above
    · exact Or.inl below
    · rcases Nat.lt_or_ge place (address + 2) with inside | behind
      · exact absurd ⟨address, denoted, above, inside⟩ outside
      · exact Or.inr behind
  · intro _ data ended
    rcases ended with ⟨-, same⟩
    rw [same]
    exact ⟨trivial, Writes.refl operand state⟩

/-- Writing where an operand points to, which an operand does that can be written and is
no register. -/
theorem writeData_ends (operand : Operand) (value : Word) :
    Ends
      (do
        let address ← address operand
        onData (.dataOutOfBounds address) (Store.setWordAt address value)) state
      (fun _ final => Writes operand state final)
      (fun fault final => (operand.Writable → operand.mode ≠ .register → fault.Expected) ∧
        Writes operand state final) := by
  rw [ends_bind]
  apply (address_ends operand).mono
  · intro address final ended
    rcases ended with ⟨denoted, same⟩
    rw [same]
    apply (setWord_ends value denoted).mono
    · exact fun _ _ writes => writes
    · intro fault final ended
      exact ⟨fun _ _ => ended.1, ended.2⟩
  · intro fault final ended
    rcases ended with ⟨-, none, same⟩
    rw [same]
    refine ⟨?_, Writes.refl operand state⟩
    intro writable notRegister
    rcases writable with ⟨notAbsent, notLabel, notNumber⟩
    rw [denoted?] at none
    cases mode : operand.mode with
    | absent => exact absurd mode notAbsent
    | register => exact absurd mode notRegister
    | label => exact absurd mode notLabel
    | number => exact absurd mode notNumber
    | pointer | global | registerPointer | frame =>
        rw [mode] at none
        cases none

/-- Writing an operand. -/
theorem write_ends (operand : Operand) (value : Word) :
    Ends (write operand value) state
      (fun _ final => Writes operand state final)
      (fun fault final => (operand.Writable → fault.Expected) ∧ Writes operand state final) := by
  unfold write
  cases mode : operand.mode with
  | register => exact ⟨fun _ => rfl, rfl, rfl, rfl, fun _ _ => rfl⟩
  | label =>
      have writes (final : Processor)
          (kept : final.frameBase = state.frameBase ∧ final.data = state.data) :
          Writes operand state final := by
        rcases kept with ⟨frameBase, data⟩
        refine ⟨fun other => absurd mode other, frameBase, ?_, ?_, ?_⟩
        · rw [data]
        · rw [data]
        · intro place _
          rw [data]
      apply (writeCode_ends operand.value.toNat value).mono
      · exact fun _ final kept => writes final kept
      · intro fault final kept
        exact ⟨fun writable => absurd mode writable.noLabel, writes final kept⟩
  | absent | number | pointer | global | registerPointer | frame =>
      apply (writeData_ends operand value).mono
      · exact fun _ _ writes => writes
      · intro fault final ended
        rcases ended with ⟨expected, writes⟩
        exact ⟨fun writable => expected writable (by rw [mode]; exact Mode.noConfusion), writes⟩

end Processor

end WordMachine
