import WordMachine.Proofs.Execution.Memory

/-!
# Stores as bounded memory

Whatever is asked of a store, it has as many bytes afterwards, and if the operation fails it is
the same store (`Operation.perform_contained`). An operation moves the cursor, fills the store, or
reads or writes some bytes, which are found through the cursor or at an address
(`Operation.purpose`). It does so in whatever store it is asked of, as far as the bytes lie inside,
and else it does nothing (`Operation.met`). What was written is read back in any way that reads the
same bytes (`Operation.found_again`). So whatever was asked of a store, it has its length and its
cursor inside, and the next operation does what it is for (`store_is_bounded_memory`).
-/

namespace WordMachine.Store

/-! ## Operations leave a store its size -/

section

variable {α β : Type}

/-- Whether an access leaves as many bytes, and the whole store if it fails. -/
def Contained (access : Access α) : Prop :=
  ∀ store, Ends access store (fun _ final => final.size = store.size)
    (fun _ final => final = store)

theorem Contained.map {access : Access β} (image : β → α) (contained : Contained access) :
    Contained (image <$> access) :=
  fun store => ends_map.mpr (contained store)

theorem Contained.of_ends {access : Access α} {inside : Store → Prop} {changed : Store → Store}
    (ends : ∀ store, Ends access store (fun _ final => inside store ∧ final = changed store)
      (fun _ final => ¬ inside store ∧ final = store))
    (sized : ∀ store, (changed store).size = store.size) : Contained access := by
  intro store
  apply (ends store).mono
  · rintro _ _ ⟨-, rfl⟩
    exact sized store
  · exact fun _ _ failed => failed.2

theorem seek_contained (position : Nat) : Contained (seek position) :=
  .of_ends (fun _ => seek_ends position) fun _ => rfl

theorem read_contained (width : Nat) : Contained (read width) :=
  .of_ends (fun _ => read_ends width) fun _ => rfl

theorem write_contained (width value : Nat) : Contained (write width value) :=
  .of_ends (fun _ => write_ends width value) fun _ => size_overwrite _ _ _

theorem save_contained (width address value : Nat) : Contained (save width address value) :=
  .of_ends (fun _ => save_ends width address value) fun _ => size_overwrite _ _ _

theorem look_contained (at? : Store → Except OutOfBounds α) : Contained (look at?) := by
  intro store
  rw [look, ends_bind, ends_get, ends_ofExcept]
  split
  · rfl
  · rfl

theorem fill_contained (value : UInt8) : Contained (modify (fill value)) :=
  fun _ => Array.size_replicate

theorem Operation.perform_contained (operation : Operation) : Contained operation.perform := by
  cases operation with
  | seek position => exact (seek_contained position).map _
  | fill value => exact (fill_contained value).map _
  | readByte => exact ((read_contained 1).map _).map _
  | readWord => exact ((read_contained 2).map _).map _
  | readDword => exact ((read_contained 4).map _).map _
  | readQword => exact ((read_contained 8).map _).map _
  | writeByte value => exact (write_contained 1 _).map _
  | writeWord value => exact (write_contained 2 _).map _
  | writeDword value => exact (write_contained 4 _).map _
  | writeQword value => exact (write_contained 8 _).map _
  | byteAt address => exact (look_contained _).map _
  | wordAt address => exact (look_contained _).map _
  | setByteAt address value => exact (save_contained 1 address _).map _
  | setWordAt address value => exact (save_contained 2 address _).map _

end

/-! ## What operations are for -/

/-- Where an operation finds its bytes. -/
inductive Place where
  | cursor
  | address (position : Nat)
  deriving DecidableEq, Repr

namespace Place

/-- The address of the first byte. -/
def start (store : Store) : Place → Nat
  | cursor => store.cursor
  | address position => position

/-- Where the cursor is left once `width` bytes were accessed. -/
def behind (store : Store) (width : Nat) : Place → Nat
  | cursor => store.cursor + width
  | address _ => store.cursor

variable {place : Place} {store : Store} {width : Nat}

theorem behind_le (holds : store.Holds (place.start store) width)
    (inside : store.cursor ≤ store.size) : place.behind store width ≤ store.size := by
  cases place with
  | cursor => exact holds
  | address position => exact inside

end Place

/-- What an operation is for. -/
inductive Purpose where
  | seek (position : Nat)
  | fill (value : UInt8)
  | read (place : Place) (width : Nat)
  | write (place : Place) (width number : Nat)
  deriving DecidableEq, Repr

def Operation.purpose : Operation → Purpose
  | seek position => .seek position
  | fill value => .fill value
  | readByte => .read .cursor 1
  | readWord => .read .cursor 2
  | readDword => .read .cursor 4
  | readQword => .read .cursor 8
  | writeByte value => .write .cursor 1 value.toNat
  | writeWord value => .write .cursor 2 value.toNat
  | writeDword value => .write .cursor 4 value.toNat
  | writeQword value => .write .cursor 8 value.toNat
  | byteAt address => .read (.address address) 1
  | wordAt address => .read (.address address) 2
  | setByteAt address value => .write (.address address) 1 value.toNat
  | setWordAt address value => .write (.address address) 2 value.toNat

namespace Reading

/-- How many bytes a reading stands for. -/
def width : Reading → Nat
  | nothing => 0
  | byte _ => 1
  | word _ => 2
  | dword _ => 4
  | qword _ => 8

/-- The number that was read. -/
def number : Reading → Nat
  | nothing => 0
  | byte value => value.toNat
  | word value => value.toNat
  | dword value => value.toNat
  | qword value => value.toNat

end Reading

/-- Whether an access returns if `width` bytes from `address` on lie inside the store, and else
names them and leaves the store as it is. -/
def Accesses {α : Type} (access : Access α) (store : Store) (address width : Nat)
    (accessed : α → Store → Prop) : Prop :=
  Ends access store
    (fun value final => store.Holds address width ∧ accessed value final)
    (fun fault final => ¬ store.Holds address width ∧
      fault = ⟨address, width, store.size⟩ ∧ final = store)

/-- What a read gives back and leaves. -/
structure Reads (place : Place) (width : Nat) (store : Store) (reading : Reading)
    (final : Store) : Prop where
  sized : reading.width = width
  number : reading.number = LittleEndian.decode (store.slice width (place.start store))
  bytes : final.bytes = store.bytes
  cursor : final.cursor = place.behind store width

/-- What a write leaves. -/
structure Writes (place : Place) (width number : Nat) (store final : Store) : Prop where
  size : final.size = store.size
  inside : final.slice width (place.start store) = LittleEndian.encode width number
  outside : ∀ address, address < place.start store ∨ place.start store + width ≤ address →
    final.bytes[address]? = store.bytes[address]?
  cursor : final.cursor = place.behind store width

/-- What filling leaves. -/
structure Fills (value : UInt8) (store final : Store) : Prop where
  size : final.size = store.size
  bytes : ∀ address, address < store.size → final.bytes[address]? = some value
  cursor : final.cursor = store.cursor

namespace Purpose

/-- Whether an access does in a store what it is for. -/
def Met (access : Access Reading) (store : Store) : Purpose → Prop
  | seek position => Accesses access store position 0 fun reading final =>
      reading = .nothing ∧ final = { store with cursor := position }
  | fill value => Ends access store
      (fun reading final => reading = .nothing ∧ Fills value store final) fun _ _ => False
  | read place width => Accesses access store (place.start store) width (Reads place width store)
  | write place width number => Accesses access store (place.start store) width
      fun reading final => reading = .nothing ∧ Writes place width number store final

/-- Whether the number that an access puts somewhere is given back by every operation that reads
the same bytes later, wherever the cursor stands by then. -/
def FoundAgain (access : Access Reading) (store : Store) : Purpose → Prop
  | write place width number => Ends access store
      (fun _ final => ∀ (later : Store) (again : Operation) (source : Place),
        later.bytes = final.bytes → again.purpose = .read source width →
        source.start later = place.start store →
        Ends again.perform later (fun reading _ => reading.number = number) fun _ _ => False)
      fun _ _ => True
  | seek _ | fill _ | read _ _ => True

end Purpose

variable {α β : Type} {access : Access α} {store : Store} {place : Place}
  {address width number : Nat}

theorem Accesses.map {image : β → α} {access : Access β} {accessed : α → Store → Prop}
    (accesses : Accesses access store address width fun value => accessed (image value)) :
    Accesses (image <$> access) store address width accessed :=
  ends_map.mpr accesses

theorem Accesses.mono {accessed accessed' : α → Store → Prop}
    (accesses : Accesses access store address width accessed)
    (onReturn : ∀ value final, store.Holds address width → accessed value final →
      accessed' value final) : Accesses access store address width accessed' := by
  apply Ends.mono accesses
  · exact fun value final returned => ⟨returned.1, onReturn value final returned.1 returned.2⟩
  · exact fun _ _ failed => failed

theorem Accesses.of_outcomes {value : α} {final : Store}
    (inside : store.Holds address width → access store = .ok value final)
    (outside : ¬ store.Holds address width →
      access store = .error ⟨address, width, store.size⟩ store) :
    Accesses access store address width
      fun returned left => returned = value ∧ left = final := by
  by_cases holds : store.Holds address width
  · rw [Accesses, Ends, inside holds]
    exact ⟨holds, rfl, rfl⟩
  · rw [Accesses, Ends, outside holds]
    exact ⟨holds, rfl, rfl⟩

/-- A number that is read as a value of its width is that value's number. -/
theorem Reads.of_decoded (image : Nat → Reading) {final : Store}
    (holds : store.Holds (place.start store) width)
    (sized : ∀ number, (image number).width = width)
    (kept : ∀ number, number < 256 ^ width → (image number).number = number)
    (bytes : final.bytes = store.bytes) (cursor : final.cursor = place.behind store width) :
    Reads place width store
      (image (LittleEndian.decode (store.slice width (place.start store)))) final where
  sized := sized _
  number := by
    apply kept
    have small := LittleEndian.decode_lt (store.slice width (place.start store))
    rwa [length_slice holds] at small
  bytes := bytes
  cursor := cursor

theorem Writes.of_overwrite {final : Store} (holds : store.Holds (place.start store) width)
    (bytes : final.bytes =
      overwrite store.bytes (place.start store) (LittleEndian.encode width number))
    (cursor : final.cursor = place.behind store width) :
    Writes place width number store final where
  size := by rw [Store.size, bytes, size_overwrite, Store.size]
  inside := by
    have found := slice_overwrite store (place.start store) (LittleEndian.encode width number)
      (by rwa [LittleEndian.length_encode])
    rw [LittleEndian.length_encode, ← bytes] at found
    exact found
  outside := by
    intro address outside
    rw [bytes]
    apply getElem?_overwrite_of_outside
    rwa [LittleEndian.length_encode]
  cursor := cursor

section

variable {narrow : Nat → α} {image : α → Reading}
  (sized : ∀ number, (image (narrow number)).width = width)
  (kept : ∀ number, number < 256 ^ width → (image (narrow number)).number = number)

include sized kept

theorem read_met :
    Purpose.Met (image <$> narrow <$> Store.read width) store (.read .cursor width) := by
  apply Accesses.map
  apply Accesses.map
  apply (Accesses.of_outcomes read_of_holds read_of_not_holds).mono
  rintro _ _ holds ⟨rfl, rfl⟩
  exact .of_decoded (fun number => image (narrow number)) holds sized kept rfl rfl

theorem look_met :
    Purpose.Met (image <$> look fun store => narrow <$> store.load width address) store
      (.read (.address address) width) := by
  have accesses : Accesses (look fun store => narrow <$> store.load width address) store
      address width _ :=
    .of_outcomes
      (fun inside => by rw [look, get_bind, load_of_holds inside]; rfl)
      (fun outside => by rw [look, get_bind, load_of_not_holds outside]; rfl)
  apply Accesses.map
  apply accesses.mono
  rintro _ _ holds ⟨rfl, rfl⟩
  exact .of_decoded (fun number => image (narrow number)) holds sized kept rfl rfl

end

theorem write_met :
    Purpose.Met ((fun _ => .nothing) <$> Store.write width number) store
      (.write .cursor width number) := by
  apply Accesses.map
  apply (Accesses.of_outcomes (write_of_holds number) (write_of_not_holds number)).mono
  rintro _ _ holds ⟨rfl, rfl⟩
  exact ⟨rfl, .of_overwrite holds rfl rfl⟩

theorem save_met :
    Purpose.Met ((fun _ => .nothing) <$> Store.save width address number) store
      (.write (.address address) width number) := by
  apply Accesses.map
  apply (Accesses.of_outcomes (save_of_holds number) (save_of_not_holds number)).mono
  rintro _ _ holds ⟨rfl, rfl⟩
  exact ⟨rfl, .of_overwrite holds rfl rfl⟩

theorem seek_met {position : Nat} :
    Purpose.Met ((fun _ => .nothing) <$> Store.seek position) store (.seek position) := by
  have accesses : Accesses (Store.seek position) store position 0 _ :=
    .of_outcomes seek_of_le seek_of_not_le
  apply Accesses.map
  apply accesses.mono
  rintro _ _ - ⟨-, rfl⟩
  exact ⟨rfl, rfl⟩

theorem fill_met {value : UInt8} :
    Purpose.Met ((fun _ => .nothing) <$> (modify (Store.fill value) : Access Unit)) store
      (.fill value) := by
  rw [Purpose.Met, ends_map, ends_modify]
  refine ⟨rfl, Array.size_replicate, ?_, rfl⟩
  intro address inside
  rw [fill, Array.getElem?_replicate, if_pos inside]

namespace Operation

/-- Every operation does what it is for. -/
theorem met (operation : Operation) (store : Store) :
    operation.purpose.Met operation.perform store := by
  cases operation with
  | seek position => exact seek_met
  | fill value => exact fill_met
  | readByte => exact read_met (fun _ => rfl) fun _ => UInt8.toNat_ofNat_of_lt'
  | readWord => exact read_met (fun _ => rfl) fun _ => UInt16.toNat_ofNat_of_lt'
  | readDword => exact read_met (fun _ => rfl) fun _ => UInt32.toNat_ofNat_of_lt'
  | readQword => exact read_met (fun _ => rfl) fun _ => UInt64.toNat_ofNat_of_lt'
  | writeByte value => exact write_met
  | writeWord value => exact write_met
  | writeDword value => exact write_met
  | writeQword value => exact write_met
  | byteAt address => exact look_met (fun _ => rfl) fun _ => UInt8.toNat_ofNat_of_lt'
  | wordAt address => exact look_met (fun _ => rfl) fun _ => UInt16.toNat_ofNat_of_lt'
  | setByteAt address value => exact save_met
  | setWordAt address value => exact save_met

/-- What is written has the width it is written with. -/
theorem number_lt {operation : Operation}
    (purpose : operation.purpose = .write place width number) :
    number < 256 ^ width := by
  cases operation with
  | writeByte value | setByteAt _ value => cases purpose; exact value.toNat_lt
  | writeWord value | setWordAt _ value => cases purpose; exact value.toNat_lt
  | writeDword value => cases purpose; exact value.toNat_lt
  | writeQword value => cases purpose; exact value.toNat_lt
  | _ => cases purpose

/-- What an operation writes is found again. -/
theorem found_again (operation : Operation) (store : Store) :
    operation.purpose.FoundAgain operation.perform store := by
  cases purpose : operation.purpose with
  | write place width number =>
      have met := operation.met store
      rw [purpose] at met
      apply Ends.mono met
      · rintro _ final ⟨holds, -, writes⟩ later again source sameBytes reads sameStart
        have rereads := again.met later
        rw [reads] at rereads
        have sameSize : later.size = store.size :=
          (congrArg Array.size sameBytes).trans writes.size
        have laterHolds : later.Holds (source.start later) width := by
          rwa [sameStart, Holds, sameSize]
        apply Ends.mono rereads
        · rintro reading _ ⟨-, read⟩
          have slices : later.slice width (place.start store) =
              final.slice width (place.start store) :=
            slice_congr fun _ _ _ => by rw [sameBytes]
          rw [read.number, sameStart, slices, writes.inside,
            LittleEndian.decode_encode (number_lt purpose)]
        · exact fun _ _ failed => failed.1 laterHolds
      · exact fun _ _ _ => trivial
  | seek _ => trivial
  | fill _ => trivial
  | read _ _ => trivial

end Operation

/-- The store after an operation, whether it has failed or not. -/
def next (operation : Operation) (store : Store) : Store :=
  match operation.perform store with
  | .ok _ final => final
  | .error _ final => final

/-- The store after one operation after the other. -/
def after : List Operation → Store → Store
  | [], store => store
  | operation :: operations, store => after operations (store.next operation)

/-- What an operation leaves in either outcome is left by it. -/
theorem next_of_ends {operation : Operation} (kept : Store → Prop)
    (ends : Ends operation.perform store (fun _ final => kept final) fun _ final => kept final) :
    kept (store.next operation) := by
  rw [Ends] at ends
  rw [next]
  cases outcome : operation.perform store with
  | ok reading final =>
      rw [outcome] at ends
      exact ends
  | error fault final =>
      rw [outcome] at ends
      exact ends

theorem size_next (operation : Operation) : (store.next operation).size = store.size := by
  apply next_of_ends fun final => final.size = store.size
  apply (operation.perform_contained store).mono
  · exact fun _ _ same => same
  · rintro _ _ rfl
    rfl

theorem Accesses.cursor_le {accessed : α → Store → Prop}
    (accesses : Accesses access store address width accessed) (inside : store.cursor ≤ store.size)
    (onReturn : ∀ value final, store.Holds address width → accessed value final →
      final.cursor ≤ store.size) :
    Ends access store (fun _ final => final.cursor ≤ store.size)
      fun _ final => final.cursor ≤ store.size := by
  apply Ends.mono accesses
  · exact fun value final returned => onReturn value final returned.1 returned.2
  · rintro _ _ ⟨-, -, rfl⟩
    exact inside

/-- A cursor that is inside stays inside. -/
theorem cursor_next_le (operation : Operation) (inside : store.cursor ≤ store.size) :
    (store.next operation).cursor ≤ store.size := by
  apply next_of_ends fun final => final.cursor ≤ store.size
  have met := operation.met store
  cases purpose : operation.purpose with
  | seek position =>
      rw [purpose] at met
      apply Accesses.cursor_le met inside
      rintro _ _ holds ⟨-, rfl⟩
      exact holds
  | fill value =>
      rw [purpose] at met
      apply Ends.mono met
      · rintro _ _ ⟨-, fills⟩
        exact fills.cursor ▸ inside
      · exact fun _ _ => False.elim
  | read place width =>
      rw [purpose] at met
      apply Accesses.cursor_le met inside
      intro _ _ holds reads
      exact reads.cursor ▸ place.behind_le holds inside
  | write place width number =>
      rw [purpose] at met
      apply Accesses.cursor_le met inside
      rintro _ _ holds ⟨-, writes⟩
      exact writes.cursor ▸ place.behind_le holds inside

theorem after_bounded (operations : List Operation) (inside : store.cursor ≤ store.size) :
    (store.after operations).size = store.size ∧ (store.after operations).cursor ≤ store.size := by
  induction operations generalizing store with
  | nil => exact ⟨rfl, inside⟩
  | cons operation operations ih =>
      have stays := cursor_next_le operation inside
      rw [← size_next operation] at stays
      have run := ih stays
      rwa [size_next] at run

/-- Whatever was asked of a store, it has the length of its first bytes and its cursor inside, the
next operation does what it is for, and what it writes is found again. -/
theorem store_is_bounded_memory (bytes : Array UInt8) (past : List Operation)
    (operation : Operation) :
    ((ofBytes bytes).after past).size = bytes.size ∧
      ((ofBytes bytes).after past).cursor ≤ bytes.size ∧
      operation.purpose.Met operation.perform ((ofBytes bytes).after past) ∧
      operation.purpose.FoundAgain operation.perform ((ofBytes bytes).after past) := by
  have inside : (ofBytes bytes).cursor ≤ (ofBytes bytes).size := Nat.zero_le _
  obtain ⟨size, cursor⟩ := after_bounded past inside
  exact ⟨size, cursor, operation.met _, operation.found_again _⟩

end WordMachine.Store
