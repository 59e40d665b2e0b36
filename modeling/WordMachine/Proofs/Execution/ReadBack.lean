import WordMachine.Proofs.Execution.Locations

/-!
# Reading back what was written

A register of the bank and the four kinds of data operands are storage: what is written to one of
them is read from it, and from every other operand that denotes the same data address
(`storage_is_read_back`). Operands apart from it read as before (`ReadsAlike.of_same`). A word of
the data is refused within the same bounds to a write and to a read (`write_fails_iff` and
`read_fails_iff`).
-/

namespace WordMachine

namespace Registers

variable {registers : Registers} {index other : Nat}

theorem get16_set16 (inside : index < registers.bank16.size) (value : Word) :
    (registers.set16 index value).get16 index = value := by
  simp [get16, set16, inside]

theorem get16_set16_of_ne (differ : index ≠ other) (value : Word) :
    (registers.set16 index value).get16 other = registers.get16 other := by
  simp [get16, set16, Array.getD_eq_getD_getElem?, Array.getElem?_setIfInBounds_ne differ]

end Registers

namespace Store

variable {store : Store} {address place : Nat}

/-- A word that has no byte in common with the one that is put somewhere stays as it was. -/
theorem wordAt_putWord_of_apart (apart : place + 2 ≤ address ∨ address + 2 ≤ place)
    (value : Word) : (store.putWord address value).wordAt place = store.wordAt place := by
  by_cases inside : store.Holds place 2
  · have kept : (store.putWord address value).Holds place 2 := by
      rwa [Holds, size_putWord]
    have same : (store.putWord address value).slice 2 place = store.slice 2 place := by
      apply slice_congr
      intro byte above below
      exact getElem?_putWord value (by omega)
    rw [wordAt_of_holds kept, wordAt_of_holds inside, same]
  · have kept : ¬ (store.putWord address value).Holds place 2 := by
      rwa [Holds, size_putWord]
    rw [wordAt, wordAt, load_of_not_holds kept, load_of_not_holds inside, size_putWord]

end Store

namespace Processor

variable {state final : Processor} {operand other : Operand} {address : Nat} {value : Word}

/-- Whether words can be kept in what an operand denotes: a register that there is, or data. -/
def IsStorage (state : Processor) (operand : Operand) : Prop :=
  match operand.mode with
  | .register => operand.value.toNat < state.registers.bank16.size
  | .pointer | .global | .registerPointer | .frame => True
  | .absent | .label | .number => False

/-- Whether an operand depends on nothing that is stored when another one is written: not on a byte
of the word, and not on the register, be it for its value or for its address. -/
structure Apart (state : Processor) (written other : Operand) : Prop where
  data : ∀ address place, state.denoted? written = some address →
    state.denoted? other = some place → place + 2 ≤ address ∨ address + 2 ≤ place
  register : written.mode = .register → other.mode.isRegisterField = true →
    written.value ≠ other.value

/-- Whether reading an operand comes to the same in two states, and changes neither. -/
def ReadsAlike (operand : Operand) (state final : Processor) : Prop :=
  (∃ value, read operand state = .ok value state ∧ read operand final = .ok value final) ∨
    ∃ fault, read operand state = .error fault state ∧ read operand final = .error fault final

/-! ## Data operands -/

theorem mode_of_denoted (denoted : state.denoted? operand = some address) :
    operand.mode = .pointer ∨ operand.mode = .global ∨ operand.mode = .registerPointer ∨
      operand.mode = .frame := by
  unfold denoted? at denoted
  cases mode : operand.mode with
  | pointer | global | registerPointer | frame => simp
  | absent | register | label | number =>
      rw [mode] at denoted
      cases denoted

theorem load_eq (address : Nat) : load address state =
    match state.data.wordAt address with
    | .ok value => .ok value state
    | .error _ => .error (.dataOutOfBounds address) state := by
  rw [load, get_bind]
  cases state.data.wordAt address with
  | ok value => rfl
  | error fault => rfl

/-- A data operand reads as the word at its address. -/
theorem read_of_denoted (denoted : state.denoted? operand = some address) :
    read operand state = load address state := by
  have loads : (Processor.address operand >>= load) state = load address state :=
    bind_of_ok (address_of_denoted denoted)
  rw [← loads, read]
  rcases mode_of_denoted denoted with mode | mode | mode | mode <;> rw [mode]

/-- And is written as the word at its address. -/
theorem write_of_denoted (denoted : state.denoted? operand = some address) (value : Word) :
    write operand value state =
      if state.data.Holds address 2 then .ok () (state.put (.data address) value)
      else .error (.dataOutOfBounds address) state := by
  have stores : write operand value state =
      onData (.dataOutOfBounds address) (Store.setWordAt address value) state := by
    have steps : (do
        let address ← Processor.address operand
        onData (.dataOutOfBounds address) (Store.setWordAt address value) : Step Unit) state =
          onData (.dataOutOfBounds address) (Store.setWordAt address value) state :=
      bind_of_ok (address_of_denoted denoted)
    rw [← steps, write]
    rcases mode_of_denoted denoted with mode | mode | mode | mode <;> rw [mode]
  rw [stores]
  split
  next inside =>
    simp only [onData, Store.setWordAt_of_holds value inside]
    rfl
  next outside =>
    simp only [onData, Store.setWordAt, Store.save_of_not_holds _ outside]

theorem refusal_of_write {fault : Fault} (denoted : state.denoted? operand = some address)
    (failed : write operand value state = .error fault final) :
    fault = .dataOutOfBounds address ∧ final = state := by
  rw [write_of_denoted denoted] at failed
  split at failed
  next => cases failed
  next =>
    cases failed
    exact ⟨rfl, rfl⟩

theorem write_fails_iff (denoted : state.denoted? operand = some address) (value : Word) :
    (∃ fault final, write operand value state = .error fault final) ↔
      ¬ state.data.Holds address 2 := by
  rw [write_of_denoted denoted]
  split
  next inside =>
    apply iff_of_false _ (not_not_intro inside)
    rintro ⟨_, _, failed⟩
    cases failed
  next outside => exact iff_of_true ⟨_, _, rfl⟩ outside

theorem read_fails_iff (denoted : state.denoted? operand = some address) :
    (∃ fault final, read operand state = .error fault final) ↔ ¬ state.data.Holds address 2 := by
  rw [read_of_denoted denoted, load_eq]
  by_cases inside : state.data.Holds address 2
  · rw [Store.wordAt_of_holds inside]
    apply iff_of_false _ (not_not_intro inside)
    rintro ⟨_, _, failed⟩
    cases failed
  · rw [Store.wordAt, Store.load_of_not_holds inside]
    exact iff_of_true ⟨_, _, rfl⟩ inside

/-- A word put in the data moves no operand to another address. -/
theorem denoted?_put_data (address : Nat) (value : Word) (other : Operand) :
    (state.put (.data address) value).denoted? other = state.denoted? other := rfl

/-! ## What is read elsewhere -/

/-- Reading depends on a register, the frame base or a word of the data, and on nothing else. -/
theorem ReadsAlike.of_same
    (register : other.mode.isRegisterField = true →
      final.registers.get16 other.value.toNat = state.registers.get16 other.value.toNat)
    (frameBase : final.frameBase = state.frameBase)
    (data : ∀ place, state.denoted? other = some place →
      final.data.wordAt place = state.data.wordAt place) :
    ReadsAlike other state final := by
  have fromMemory {place : Nat} (before : state.denoted? other = some place)
      (after : final.denoted? other = some place) : ReadsAlike other state final := by
    rw [ReadsAlike, read_of_denoted before, read_of_denoted after, load_eq, load_eq,
      data place before]
    cases state.data.wordAt place with
    | ok value => exact Or.inl ⟨value, rfl, rfl⟩
    | error fault => exact Or.inr ⟨.dataOutOfBounds place, rfl, rfl⟩
  cases mode : other.mode with
  | register =>
      left
      refine ⟨state.registers.get16 other.value.toNat, ?_, ?_⟩
      · rw [read, mode]
        rfl
      · rw [read, mode, ← register (by rw [mode]; rfl)]
        rfl
  | label | number =>
      left
      refine ⟨other.value, ?_, ?_⟩
      · rw [read, mode]
        rfl
      · rw [read, mode]
        rfl
  | absent =>
      right
      refine ⟨.missingOperand other.offset, ?_, ?_⟩
      · rw [read, mode]
        rfl
      · rw [read, mode]
        rfl
  | pointer | global =>
      apply fromMemory
      · rw [denoted?, mode]
      · rw [denoted?, mode]
  | registerPointer =>
      apply fromMemory
      · rw [denoted?, mode]
      · rw [denoted?, mode, register (by rw [mode]; rfl)]
  | frame =>
      apply fromMemory
      · rw [denoted?, mode]
      · rw [denoted?, mode, frameBase]

/-! ## Storage -/

/-- What is read once a word has been written: the word where it was written, what was there before
everywhere else. Flags, code, program counter and stack pointer have no part in it. -/
structure ReadsBack (written : Operand) (value : Word) (state final : Processor) : Prop where
  own : read written final = .ok value final
  same : ∀ address, state.denoted? written = some address → ∀ other,
    final.denoted? other = state.denoted? other ∧
      (state.denoted? other = some address → read other final = .ok value final)
  apart : ∀ other, state.Apart written other → ReadsAlike other state final
  flags : final.flags = state.flags
  code : final.code = state.code
  stack : final.data.cursor = state.data.cursor

theorem IsStorage.cases (storage : state.IsStorage operand) :
    (operand.mode = .register ∧ operand.value.toNat < state.registers.bank16.size) ∨
      operand.mode ≠ .register ∧ ∃ address, state.denoted? operand = some address := by
  unfold IsStorage at storage
  cases mode : operand.mode with
  | register =>
      rw [mode] at storage
      exact Or.inl ⟨rfl, storage⟩
  | pointer | global | registerPointer | frame =>
      right
      rw [denoted?, mode]
      exact ⟨by decide, _, rfl⟩
  | absent | label | number =>
      rw [mode] at storage
      cases storage

theorem write_register (register : operand.mode = .register) (value : Word) :
    write operand value state = .ok () (state.put (.register operand.value.toNat) value) := by
  rw [write, register]
  rfl

theorem readsBack_register (register : operand.mode = .register)
    (inside : operand.value.toNat < state.registers.bank16.size) (value : Word) :
    ReadsBack operand value state (state.put (.register operand.value.toNat) value) where
  own := by
    rw [read, register]
    exact congrArg₂ _ (Registers.get16_set16 inside value) rfl
  same := by
    intro address denoted
    rw [denoted?, register] at denoted
    cases denoted
  apart := by
    intro other apart
    apply ReadsAlike.of_same
    · intro field
      apply Registers.get16_set16_of_ne
      intro same
      exact apart.register register field (UInt16.toNat_inj.mp same)
    · rfl
    · exact fun _ _ => rfl
  flags := rfl
  code := rfl
  stack := rfl

theorem readsBack_data (denoted : state.denoted? operand = some address)
    (inside : state.data.Holds address 2) (value : Word) :
    ReadsBack operand value state (state.put (.data address) value) := by
  have found {other : Operand} (same : state.denoted? other = some address) :
      read other (state.put (.data address) value) =
        .ok value (state.put (.data address) value) := by
    have stored : (state.put (.data address) value).data.wordAt address = .ok value :=
      Store.wordAt_putWord value inside
    have moved : (state.put (.data address) value).denoted? other = some address :=
      (denoted?_put_data address value other).trans same
    rw [read_of_denoted moved, load_eq, stored]
  refine ⟨found denoted, ?_, ?_, rfl, rfl, rfl⟩
  · intro place placed other
    rw [denoted] at placed
    cases placed
    exact ⟨rfl, found⟩
  · intro other apart
    apply ReadsAlike.of_same
    · exact fun _ => rfl
    · rfl
    · intro place placed
      exact Store.wordAt_putWord_of_apart (apart.data address place denoted placed) value

theorem readsBack_of_written (denoted : state.denoted? operand = some address)
    (written : write operand value state = .ok () final) :
    ReadsBack operand value state final := by
  rw [write_of_denoted denoted] at written
  split at written
  next inside =>
    cases written
    exact readsBack_data denoted inside value
  next => cases written

/-- A word that is written to storage is read back from it, and from every operand that denotes the
same data; operands apart from it read as before. Writing a register never fails. Writing data
fails exactly if reading it does, then names the address that the operand denotes, and changes
nothing. -/
theorem storage_is_read_back (storage : state.IsStorage operand) (value : Word) :
    (∀ final, write operand value state = .ok () final → ReadsBack operand value state final) ∧
    (operand.mode = .register → ∃ final, write operand value state = .ok () final) ∧
    (operand.mode ≠ .register → ∃ address, state.denoted? operand = some address ∧
      ((∃ fault final, write operand value state = .error fault final) ↔
        ∃ fault final, read operand state = .error fault final) ∧
      ∀ fault final, write operand value state = .error fault final →
        fault = .dataOutOfBounds address ∧ final = state) := by
  rcases storage.cases with ⟨register, inside⟩ | ⟨memory, address, denoted⟩
  · have writes : write operand value state = _ := write_register register value
    refine ⟨?_, fun _ => ⟨_, writes⟩, fun other => absurd register other⟩
    intro final written
    rw [writes] at written
    cases written
    exact readsBack_register register inside value
  · refine ⟨fun _ written => readsBack_of_written denoted written,
      fun register => absurd register memory, fun _ => ⟨address, denoted, ?_, ?_⟩⟩
    · exact (write_fails_iff denoted value).trans (read_fails_iff denoted).symm
    · exact fun _ _ failed => refusal_of_write denoted failed

namespace Overlap

/-- Eight bytes of data, a frame base of two, and a register that points to address five. -/
def before : Processor :=
  ⟨⟨#[5], #[], #[]⟩, .clear, .ofBytes #[], ⟨#[1, 2, 3, 4, 5, 6, 7, 8], 4⟩, 2⟩

def throughRegister : Operand := ⟨⟨.registerPointer, 0⟩, 0⟩

def inFrame : Operand := ⟨⟨.frame, 3⟩, 0⟩

def absolute (address : Word) : Operand := ⟨⟨.pointer, address⟩, 0⟩

def after : Processor := before.put (.data 5) 0x1234

theorem written : write throughRegister 0x1234 before = .ok () after := rfl

theorem refused : write (absolute 7) 0x1234 before = .error (.dataOutOfBounds 7) before := rfl

end Overlap

open Overlap in
/-- What is written where a register points is read as a local that lies there, and the word in
front of it reads as before. The last byte has no room for a word, neither to write nor to read. -/
theorem pointed_word_is_read_back :
    before.IsStorage throughRegister ∧ before.IsStorage (absolute 7) ∧
    read throughRegister after = .ok 0x1234 after ∧ read inFrame after = .ok 0x1234 after ∧
    ReadsAlike (absolute 3) before after ∧
    ∃ fault final, read (absolute 7) before = .error fault final := by
  have pointed : before.IsStorage throughRegister := trivial
  have last : before.IsStorage (absolute 7) := trivial
  have back := (storage_is_read_back pointed 0x1234).1 after written
  obtain ⟨-, -, data⟩ := storage_is_read_back last 0x1234
  obtain ⟨-, -, fails, -⟩ := data nofun
  have front : before.Apart throughRegister (absolute 3) := by
    refine ⟨?_, nofun⟩
    rintro _ _ ⟨⟩ ⟨⟩
    exact Or.inl (by decide)
  exact ⟨pointed, last, back.own, (back.same 5 rfl inFrame).2 rfl, back.apart _ front,
    fails.mp ⟨_, _, refused⟩⟩

end Processor

end WordMachine
