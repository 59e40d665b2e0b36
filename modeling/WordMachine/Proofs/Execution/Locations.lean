import WordMachine.Proofs.Execution.Residues

/-!
# Where operands store

An operand that can be written denotes a register, a word of the data or a word of the code.
Writing it stores the word there and changes nothing else (`write_stores`), and it is refused
only where the word does not fit (`write_of_accepts`). What was stored is found again
(`wordIn?_put`), and everything else is as it was (`put_spares`).
-/

namespace WordMachine

namespace Store

variable {store : Store} {address place : Nat} {value : Word}

/-- The store with a word at an address. -/
def putWord (store : Store) (address : Nat) (value : Word) : Store :=
  { store with bytes := overwrite store.bytes address (LittleEndian.encode 2 value.toNat) }

@[simp] theorem size_putWord (store : Store) (address : Nat) (value : Word) :
    (store.putWord address value).size = store.size :=
  size_overwrite _ _ _

theorem setWordAt_of_holds (value : Word) (inside : store.Holds address 2) :
    setWordAt address value store = .ok () (store.putWord address value) :=
  save_of_holds value.toNat inside

theorem wordAt_of_holds (inside : store.Holds address 2) :
    store.wordAt address =
      .ok (UInt16.ofNat (LittleEndian.decode (store.slice 2 address))) := by
  rw [wordAt, load_of_holds inside]
  rfl

/-- The word put somewhere is found there. -/
theorem wordAt_putWord (value : Word) (inside : store.Holds address 2) :
    (store.putWord address value).wordAt address = .ok value := by
  have kept : (store.putWord address value).Holds address 2 := by
    rwa [Holds, size_putWord]
  have found : (store.putWord address value).slice 2 address =
      LittleEndian.encode 2 value.toNat := by
    have length := LittleEndian.length_encode 2 value.toNat
    have same := slice_overwrite store address (LittleEndian.encode 2 value.toNat)
      (by rwa [length])
    rwa [length] at same
  rw [wordAt_of_holds kept, found, LittleEndian.decode_encode value.toNat_lt, UInt16.ofNat_toNat]

/-- Bytes in front of the word and behind it stay as they were. -/
theorem getElem?_putWord (value : Word) (outside : place < address ∨ address + 2 ≤ place) :
    (store.putWord address value).bytes[place]? = store.bytes[place]? :=
  getElem?_overwrite_of_outside outside

end Store

/-- Where an operand can store a word. -/
inductive Location where
  | register (index : Nat)
  | data (address : Nat)
  | code (offset : Nat)
  deriving DecidableEq, Repr

namespace Processor

variable {state final : Processor} {operand : Operand} {location : Location} {value : Word}

/-- The location that an operand denotes, if it denotes one. -/
def location? (state : Processor) (operand : Operand) : Option Location :=
  match operand.mode with
  | .register => some (.register operand.value.toNat)
  | .label => some (.code operand.value.toNat)
  | .absent | .number | .pointer | .global | .registerPointer | .frame =>
    (state.denoted? operand).map .data

/-- Whether there is room for a word. A register outside its bank takes the word and loses it. -/
def Accepts (state : Processor) : Location → Prop
  | .register _ => True
  | .data address => state.data.Holds address 2
  | .code offset => state.code.Holds offset 2

/-- The processor with a word stored. -/
def put (state : Processor) (location : Location) (value : Word) : Processor :=
  match location with
  | .register index => { state with registers := state.registers.set16 index value }
  | .data address => { state with data := state.data.putWord address value }
  | .code offset => { state with code := state.code.putWord offset value }

/-- The word at a location; there is none in a register outside its bank. -/
def wordIn? (state : Processor) : Location → Option Word
  | .register index => state.registers.bank16[index]?
  | .data address => (state.data.wordAt address).toOption
  | .code offset => (state.code.wordAt offset).toOption

theorem dst_of_carried {fetched : Fetched} (carried : fetched.dst = some operand) :
    dst fetched state = .ok operand state := by
  rw [dst, Fetched.requireDst, carried]
  rfl

theorem src_of_carried {fetched : Fetched} (carried : fetched.src = some operand) :
    src fetched state = .ok operand state := by
  rw [src, Fetched.requireSrc, carried]
  rfl

/-! ## Writing -/

/-- A write into the code that succeeds has put the program counter back. -/
theorem writeCode_stores (offset : Nat) (value : Word) :
    Ends (writeCode offset value) state
      (fun _ final => state.code.Holds offset 2 ∧ final = state.put (.code offset) value)
      (fun _ _ => True) := by
  rw [writeCode_eq, ends_bind, ends_get, ends_tryFinally]
  apply (overwriteCode_ends offset value).mono
  · intro _ after ended
    rcases ended with ⟨inside, rfl⟩
    rw [resumeAt, ends_onCode, Fetch.orFault, ends_adaptExcept]
    apply (Store.seek_ends state.code.cursor).mono
    · intro _ code ended
      rcases ended with ⟨-, rfl⟩
      exact ⟨inside, rfl⟩
    · exact fun _ _ _ => trivial
  · exact fun _ _ _ => Ends.of_all (fun _ _ => trivial) fun _ _ => trivial

theorem writeData_stores (operand : Operand) (value : Word) :
    Ends
      (do
        let address ← address operand
        onData (.dataOutOfBounds address) (Store.setWordAt address value)) state
      (fun _ final => ∃ address, state.denoted? operand = some address ∧
        state.data.Holds address 2 ∧ final = state.put (.data address) value)
      (fun _ _ => True) := by
  rw [ends_bind]
  apply (address_ends operand).mono
  · intro address _ ended
    rcases ended with ⟨denoted, rfl⟩
    rw [ends_onData]
    apply (Store.save_ends 2 address value.toNat).mono
    · intro _ data ended
      rcases ended with ⟨inside, rfl⟩
      exact ⟨address, denoted, inside, rfl⟩
    · exact fun _ _ _ => trivial
  · exact fun _ _ _ => trivial

/-- A write that succeeds stores the word where the operand denotes, and does nothing else. -/
theorem write_stores (operand : Operand) (value : Word) :
    Ends (write operand value) state
      (fun _ final => ∃ location, state.location? operand = some location ∧
        state.Accepts location ∧ final = state.put location value)
      (fun _ _ => True) := by
  unfold write location?
  cases mode : operand.mode with
  | register => exact ⟨_, rfl, trivial, rfl⟩
  | label =>
      apply (writeCode_stores operand.value.toNat value).mono
      · exact fun _ final stored => ⟨_, rfl, stored⟩
      · exact fun _ _ _ => trivial
  | absent | number | pointer | global | registerPointer | frame =>
      apply (writeData_stores operand value).mono
      · intro _ final ended
        rcases ended with ⟨address, denoted, stored⟩
        exact ⟨.data address, by rw [denoted]; rfl, stored⟩
      · exact fun _ _ _ => trivial

/-- A word that fits into the code is written there, and the program counter is where it was. -/
theorem writeCode_of_holds {offset : Nat} (counterInside : state.code.cursor ≤ state.code.size)
    (inside : state.code.Holds offset 2) (value : Word) :
    writeCode offset value state = .ok () (state.put (.code offset) value) := by
  have ends : Ends (writeCode offset value) state _ _ :=
    writeCode_resumes counterInside offset value
  cases outcome : writeCode offset value state with
  | ok _ final =>
      rw [(ends.of_ok outcome).2]
      rfl
  | error fault final => exact absurd inside (ends.of_error outcome).1

/-- One that does not fit is refused. -/
theorem writeCode_of_not_holds {offset : Nat} (counterInside : state.code.cursor ≤ state.code.size)
    (outside : ¬ state.code.Holds offset 2) (value : Word) :
    writeCode offset value state = .error (.codeOutOfBounds offset) state := by
  have ends : Ends (writeCode offset value) state _ _ :=
    writeCode_resumes counterInside offset value
  cases outcome : writeCode offset value state with
  | ok _ final => exact absurd (ends.of_ok outcome).1 outside
  | error fault final =>
      rcases ends.of_error outcome with ⟨-, rfl, rfl⟩
      rfl

theorem address_of_denoted {address : Nat} (denoted : state.denoted? operand = some address) :
    Processor.address operand state = .ok address state := by
  have ends : Ends (Processor.address operand) state _ _ := address_ends operand
  cases outcome : Processor.address operand state with
  | ok found final =>
      rcases ends.of_ok outcome with ⟨denoted', rfl⟩
      rw [denoted] at denoted'
      cases denoted'
      rfl
  | error fault final =>
      rcases ends.of_error outcome with ⟨-, none, -⟩
      rw [denoted] at none
      cases none

/-- A write is not refused where there is room for the word. -/
theorem write_of_accepts (counterInside : state.code.cursor ≤ state.code.size)
    (located : state.location? operand = some location) (accepts : state.Accepts location)
    (value : Word) : write operand value state = .ok () (state.put location value) := by
  unfold location? at located
  unfold write
  cases mode : operand.mode with
  | register =>
      rw [mode] at located
      cases located
      rfl
  | label =>
      rw [mode] at located
      cases located
      exact writeCode_of_holds counterInside accepts value
  | absent | number | pointer | global | registerPointer | frame =>
      rw [mode] at located
      rcases Option.map_eq_some_iff.mp located with ⟨address, denoted, rfl⟩
      simp only [bind_of_ok (address_of_denoted denoted), onData,
        Store.setWordAt_of_holds value accepts]
      rfl

/-- A write is refused for want of room, or because its operand can not be written. -/
theorem write_faults (counterInside : state.code.cursor ≤ state.code.size) (operand : Operand)
    (value : Word) :
    Ends (write operand value) state (fun _ _ => True)
      (fun fault _ => ∃ place, fault = .codeOutOfBounds place ∨ fault = .dataOutOfBounds place ∨
        fault = .invalidDestination operand.mode place) := by
  unfold write
  cases mode : operand.mode with
  | register => exact trivial
  | label =>
      apply (writeCode_resumes counterInside operand.value.toNat value).mono
      · exact fun _ _ _ => trivial
      · exact fun _ _ ended => ⟨_, Or.inl ended.2.1⟩
  | absent | number | pointer | global | registerPointer | frame =>
      rw [ends_bind]
      apply (address_ends operand).mono
      · intro address _ _
        rw [ends_onData]
        exact Ends.of_all (fun _ _ => trivial) fun _ _ => ⟨address, Or.inr (Or.inl rfl)⟩
      · intro fault _ ended
        rw [mode] at ended
        exact ⟨_, Or.inr (Or.inr ended.1)⟩

/-! ## What was stored -/

/-- The word put at a location is found there, unless it was lost. -/
theorem wordIn?_put (accepts : state.Accepts location)
    (inBank : ∀ index, location = .register index → index < state.registers.bank16.size)
    (value : Word) : (state.put location value).wordIn? location = some value := by
  cases location with
  | register index =>
      have inside := inBank index rfl
      simp [put, wordIn?, Registers.set16, inside]
  | data address =>
      rw [put, wordIn?, Store.wordAt_putWord value accepts]
      rfl
  | code offset =>
      rw [put, wordIn?, Store.wordAt_putWord value accepts]
      rfl

/-- A register holds no part of any other location. -/
theorem wordIn?_putRegister {index : Nat} (other : location ≠ .register index) (value : Word) :
    (state.put (.register index) value).wordIn? location = state.wordIn? location := by
  cases location with
  | register other' =>
      have differ : index ≠ other' := fun same => other (congrArg _ same.symm)
      exact Array.getElem?_setIfInBounds_ne differ
  | data address => rfl
  | code offset => rfl

/-! ## What stays as it was -/

/-- Whether bytes of data and code are the same but for the words at some locations. -/
structure SparesBytes (touched : Location → Prop) (state final : Processor) : Prop where
  data : ∀ place, (∀ address, touched (.data address) → place < address ∨ address + 2 ≤ place) →
    final.data.bytes[place]? = state.data.bytes[place]?
  code : ∀ place, (∀ offset, touched (.code offset) → place < offset ∨ offset + 2 ≤ place) →
    final.code.bytes[place]? = state.code.bytes[place]?

/-- Whether a processor is the same but for the words at some locations. -/
structure Spares (touched : Location → Prop) (state final : Processor) : Prop
    extends SparesBytes touched state final where
  flags : final.flags = state.flags
  frameBase : final.frameBase = state.frameBase
  counter : final.code.cursor = state.code.cursor
  stack : final.data.cursor = state.data.cursor
  sizes : final.registers.sizes = state.registers.sizes ∧ final.data.size = state.data.size ∧
    final.code.size = state.code.size
  registers : ∀ index, ¬ touched (.register index) →
    final.registers.bank16[index]? = state.registers.bank16[index]?
  wide : final.registers.bank32 = state.registers.bank32 ∧
    final.registers.bank64 = state.registers.bank64

variable {touched : Location → Prop}

theorem SparesBytes.of_same {middle : Processor} (data : middle.data.bytes = state.data.bytes)
    (code : middle.code.bytes = state.code.bytes) : SparesBytes touched state middle where
  data := fun _ _ => by rw [data]
  code := fun _ _ => by rw [code]

theorem SparesBytes.trans {middle : Processor} (first : SparesBytes touched state middle)
    (second : SparesBytes touched middle final) : SparesBytes touched state final where
  data := fun place outside => (second.data place outside).trans (first.data place outside)
  code := fun place outside => (second.code place outside).trans (first.code place outside)

theorem Spares.trans {middle : Processor} (first : Spares touched state middle)
    (second : Spares touched middle final) : Spares touched state final where
  toSparesBytes := first.toSparesBytes.trans second.toSparesBytes
  flags := second.flags.trans first.flags
  frameBase := second.frameBase.trans first.frameBase
  counter := second.counter.trans first.counter
  stack := second.stack.trans first.stack
  sizes := ⟨second.sizes.1.trans first.sizes.1, second.sizes.2.1.trans first.sizes.2.1,
    second.sizes.2.2.trans first.sizes.2.2⟩
  registers := fun index outside =>
    (second.registers index outside).trans (first.registers index outside)
  wide := ⟨second.wide.1.trans first.wide.1, second.wide.2.trans first.wide.2⟩

/-- Storing a word at a location changes nothing but this word. -/
theorem put_spares (state : Processor) (stored : touched location) (value : Word) :
    Spares touched state (state.put location value) := by
  cases location with
  | register index =>
      refine ⟨.of_same rfl rfl, rfl, rfl, rfl, rfl, ⟨Registers.sizes_set16 .., rfl, rfl⟩, ?_,
        ⟨rfl, rfl⟩⟩
      intro other differ
      apply Array.getElem?_setIfInBounds_ne
      intro same
      rw [same] at stored
      exact differ stored
  | data address =>
      exact ⟨⟨fun place outside => Store.getElem?_putWord value (outside address stored),
        fun _ _ => rfl⟩, rfl, rfl, rfl, rfl, ⟨rfl, Store.size_putWord .., rfl⟩, fun _ _ => rfl,
        ⟨rfl, rfl⟩⟩
  | code offset =>
      exact ⟨⟨fun _ _ => rfl, fun place outside => Store.getElem?_putWord value
        (outside offset stored)⟩, rfl, rfl, rfl, rfl, ⟨rfl, rfl, Store.size_putWord ..⟩,
        fun _ _ => rfl, ⟨rfl, rfl⟩⟩

end Processor

end WordMachine
