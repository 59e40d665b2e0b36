import WordMachine.Proofs.Execution.Histories

/-!
# Code that changes itself

A write through a label overwrites two bytes of the code and nothing else, or it is refused. What
was written is what every later instruction is decoded from, until it is stored over
(`History.sees`). Where the code ends and where the stack begins is read from the header once:
storing over the header changes neither (`run_returns_iff`). `label_write_exact` puts these
together.
-/

namespace WordMachine

namespace Word

/-- The high byte; the low byte is dropped. -/
def highByte (word : Word) : UInt8 := (word >>> 8).toUInt8

/-- A word is stored low byte first. -/
theorem encode_eq_bytes (word : Word) :
    LittleEndian.encode 2 word.toNat = [word.lowByte, word.highByte] := by
  have low : UInt8.ofNat word.toNat = word.lowByte := by
    apply UInt8.toNat_inj.mp
    simp [lowByte]
  have high : UInt8.ofNat (word.toNat / 256) = word.highByte := by
    apply UInt8.toNat_inj.mp
    simp [highByte, Nat.shiftRight_eq_div_pow]
  rw [LittleEndian.encode, LittleEndian.encode, LittleEndian.encode, low, high]

end Word

namespace Store

variable {store : Store} {address place : Nat} {value : Word} {byte : UInt8}

theorem lowByte_putWord (inside : store.Holds address 2) :
    (store.putWord address value).bytes[address]? = some value.lowByte := by
  have fits : address + [value.lowByte, value.highByte].length ≤ store.bytes.size := inside
  rw [putWord, Word.encode_eq_bytes]
  simp only [getElem?_overwrite_of_inside fits (Nat.le_refl address) (Nat.lt_add_of_pos_right
    Nat.two_pos), Nat.sub_self, List.getElem?_cons_zero]

theorem highByte_putWord (inside : store.Holds address 2) :
    (store.putWord address value).bytes[address + 1]? = some value.highByte := by
  have fits : address + [value.lowByte, value.highByte].length ≤ store.bytes.size := inside
  rw [putWord, Word.encode_eq_bytes]
  simp only [getElem?_overwrite_of_inside fits (Nat.le_add_right address 1) (Nat.lt_succ_self
    (address + 1)), Nat.add_sub_cancel_left, List.getElem?_cons_succ, List.getElem?_cons_zero]

/-- Bytes ahead stand in the store from the cursor on. -/
theorem Ahead.getElem? {bytes : List UInt8} (ahead : store.Ahead bytes) {index : Nat}
    (within : index < bytes.length) : bytes[index]? = store.bytes[store.cursor + index]? := by
  rcases ahead with ⟨rest, whole⟩
  have found : (bytes ++ rest)[index]? = bytes[index]? := List.getElem?_append_left within
  rw [whole, List.getElem?_drop] at found
  rw [← found, toList, Array.getElem?_toList]

/-- Whether decoding sees a byte at a place: the byte stands there, an instruction that is decoded
from bytes around it has it in its encoding, and one that can not be decoded is malformed. -/
structure Sees (store : Store) (place : Nat) (byte : UInt8) : Prop where
  stands : store.bytes[place]? = some byte
  decodes : ∀ fetched rest, Fetch.instruction store = .ok fetched rest →
    ∃ (instruction : Instruction) (spare : Mode), fetched = instruction.locate store.cursor ∧
      rest = store.skip instruction.size ∧
      ∀ index, store.cursor + index = place → index < instruction.size →
        (instruction.encodeWith spare)[index]? = some byte
  refuses : ∀ fault rest, Fetch.instruction store = .error fault rest → store.Malformed fault

theorem sees_of_stands (stands : store.bytes[place]? = some byte) : store.Sees place byte where
  stands := stands
  decodes := by
    intro fetched rest decoded
    have found : Ends Fetch.instruction store _ _ := Fetch.instruction_found
    rcases found.of_ok decoded with ⟨instruction, spare, -, ahead, located, skipped⟩
    refine ⟨instruction, spare, located, skipped, ?_⟩
    intro index here within
    rw [ahead.getElem? (by rwa [Instruction.length_encodeWith]), here, stands]
  refuses := by
    intro fault rest failed
    have found : Ends Fetch.instruction store _ _ := Fetch.instruction_found
    exact found.of_error failed

end Store

open Processor

/-- A byte that stands in the code is seen as long as no instruction stores over it. -/
theorem History.sees {codeEnd place : Nat} {start later : Processor} {past : List Executed}
    {byte : UInt8} (history : History codeEnd start past later)
    (stands : start.code.bytes[place]? = some byte)
    (unstored : ∀ executed ∈ past, ∀ offset, executed.StoresAt (.code offset) →
      place < offset ∨ offset + 2 ≤ place) : later.code.Sees place byte :=
  Store.sees_of_stands ((history.code_kept unstored).trans stands)

namespace Machine

variable {machine : Machine} {header : Header} {image : Image} {pool granted : Pool}
  {segment : PageId} {patience : Nat} {past : List Executed} {later : Processor}

/-- A run that has come to a state returns there if and only if the program counter is at the end
that the header gave when the run started. -/
theorem run_returns_iff (headed : Header.read image = .ok header)
    (allocated : pool.allocate header.segmentSize = .ok (segment, granted))
    (history : History header.codeEnd (machine.booted header image) past later)
    (within : past.length ≤ machine.config.maxSteps.getD patience) :
    (∃ run, machine.run patience image pool = some run ∧ run.outcome = .ok past.length) ↔
      header.codeEnd ≤ later.code.cursor := by
  rw [run_of_allocated headed allocated, ← Nat.add_sub_of_le within,
    runFor_of_cycles history.cycles, Nat.zero_add]
  rcases Nat.lt_or_ge later.code.cursor header.codeEnd with more | atEnd
  · refine iff_of_false ?_ (Nat.not_le.mpr more)
    rintro ⟨run, ran, outcome⟩
    rcases cycles_cases header.codeEnd
        (machine.config.maxSteps.getD patience - past.length) later with
      ⟨count, final, left, cycles, atEnd⟩ |
      ⟨count, middle, fault, final, left, cycles, more', failed⟩ | ⟨final, cycles, more'⟩
    · rw [runFor_of_returned cycles atEnd left] at ran
      cases ran
      have none : count = 0 := by
        have same : past.length + count = past.length := Except.ok.inj outcome
        omega
      rw [none] at cycles
      cases cycles
      exact Nat.not_le.mpr more atEnd
    · rw [runFor_of_faulted cycles more' failed left] at ran
      cases ran
      cases outcome
    · rw [runFor_of_exhausted cycles more'] at ran
      rcases Option.map_eq_some_iff.mp ran with ⟨budget, -, rfl⟩
      cases outcome
  · rw [runFor_of_end _ _ atEnd]
    exact iff_of_true ⟨_, rfl, rfl⟩ atEnd

end Machine

namespace Processor

/-- A write through a label changes exactly two bytes of the code, to the low and the high byte of
the value, or is refused and changes nothing. The new bytes are what is decoded from then on,
unless they are stored over in their turn. However the header is stored over, the frame base and
the end of the code are for the whole of a run those that were read when it started. (The program
counter never is behind the end of the code, so it can be put back.) -/
theorem label_write_exact {state : Processor} {operand : Operand} (label : operand.mode = .label)
    (counterInside : state.code.cursor ≤ state.code.size) (value : Word) :
    (operand.value.toNat + 2 ≤ state.code.size →
      ∃ bytes, write operand value state = .ok () { state with code := { state.code with bytes } } ∧
        bytes.size = state.code.size ∧
        bytes[operand.value.toNat]? = some value.lowByte ∧
        bytes[operand.value.toNat + 1]? = some value.highByte ∧
        (∀ place, place ≠ operand.value.toNat → place ≠ operand.value.toNat + 1 →
          bytes[place]? = state.code.bytes[place]?) ∧
        ∀ codeEnd (resumed later : Processor) past place byte, resumed.code.bytes = bytes →
          History codeEnd resumed past later → bytes[place]? = some byte →
          (∀ executed ∈ past, ∀ offset, executed.StoresAt (.code offset) →
            place < offset ∨ offset + 2 ≤ place) →
          later.code.Sees place byte) ∧
      (¬ operand.value.toNat + 2 ≤ state.code.size →
        write operand value state = .error (.codeOutOfBounds operand.value.toNat) state) ∧
      ∀ (machine : Machine) (header : Header) (image : Image) past later,
        Header.read image = .ok header →
        History header.codeEnd (machine.booted header image) past later →
        later.frameBase = header.dataSize.toNat ∧
        ∀ pool segment granted patience,
          pool.allocate header.segmentSize = .ok (segment, granted) →
          past.length ≤ machine.config.maxSteps.getD patience →
          ((∃ run, machine.run patience image pool = some run ∧ run.outcome = .ok past.length) ↔
            header.codeEnd ≤ later.code.cursor) := by
  have writes : write operand value = writeCode operand.value.toNat value := by
    rw [write, label]
  rw [writes]
  refine ⟨?_, fun outside => writeCode_of_not_holds counterInside outside value, ?_⟩
  · intro inside
    refine ⟨_, writeCode_of_holds counterInside inside value, Store.size_putWord ..,
      Store.lowByte_putWord inside, Store.highByte_putWord inside, ?_, ?_⟩
    · intro place notLow notHigh
      exact Store.getElem?_putWord value (by omega)
    · intro codeEnd resumed later past place byte same history stands unstored
      rw [← same] at stands
      exact history.sees stands unstored
  · intro machine header image past later headed history
    constructor
    · exact ((Machine.visits_of_cycles headed history.cycles).bounded headed).frameBase
    · intro pool segment granted patience allocated within
      exact Machine.run_returns_iff headed allocated history within

namespace CodeSizeCleared

/-- Clears the length of the code in its own header, then does nothing. -/
def image : Image :=
  ⟨#[0x0D, 0xF0, 0x0C, 0xF0, 7, 0, 0, 0, 0, 0, 0, 0, 0, 0, 0, 0, 0, 0, 0, 0,
    0, 0, 0, 0, 0, 0, 0, 0, 0, 0x43, 4, 0, 0, 0, 32], 0⟩

def header : Header := ⟨Header.expectedMagic, 7, 0, 0⟩

def machine : Machine := .ofConfig ⟨0, 0, 0, none⟩

def pool : Pool := .ofSeed 0 true 1

/-- The length of the code, as the first instruction names it. -/
def operand : Operand := ⟨⟨.label, 4⟩, 30⟩

def store : Fetched := ⟨.mov, 28, some operand, some ⟨⟨.number, 0⟩, 32⟩, none⟩

/-- The processor with the store fetched. -/
def before : Processor := { machine.booted header image with code := { image with cursor := 34 } }

/-- The processor behind the store. -/
def after : Processor := before.put (.code 4) 0

/-- The processor at the end. -/
def finished : Processor := { after with code := { after.code with cursor := 35 } }

theorem history : History header.codeEnd (machine.booted header image)
    [⟨store, before⟩, ⟨⟨.nop, 34, none, none, none⟩, finished⟩] finished :=
  (History.none.next (by decide) rfl rfl).next (by decide) rfl rfl

theorem allocated : ∃ segment granted,
    pool.allocate header.segmentSize = .ok (segment, granted) :=
  Pool.exists_of_allocate_isOk (by decide +kernel)

end CodeSizeCleared

open CodeSizeCleared in
/-- A program that clears the length of its code in its header still runs to its end. -/
theorem run_outlives_header :
    operand.mode = .label ∧ before.code.cursor ≤ before.code.size ∧
      image.bytes[4]? = some 7 ∧
      (∃ bytes, write operand 0 before =
          .ok () { before with code := { before.code with bytes } } ∧ bytes[4]? = some 0) ∧
      ∃ run, machine.run 2 image pool = some run ∧ run.outcome = .ok 2 := by
  have label : operand.mode = .label := rfl
  have counterInside : before.code.cursor ≤ before.code.size := by decide
  obtain ⟨stores, -, runs⟩ := label_write_exact label counterInside 0
  obtain ⟨bytes, written, -, low, -⟩ := stores (by decide)
  obtain ⟨segment, granted, allocated⟩ := CodeSizeCleared.allocated
  obtain ⟨-, returns⟩ := runs machine header image _ finished rfl history
  exact ⟨label, counterInside, rfl, ⟨bytes, written, low⟩,
    (returns pool segment granted 2 allocated (by decide)).mpr (by decide)⟩

end Processor

end WordMachine
