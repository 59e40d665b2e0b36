import WordMachine.Proofs.Decoding

/-!
# Headers at the start of images

A header is four numbers, and numbers are written one behind the other. Where there is room for all
of them their bytes are put over as many old ones (`write_of_holds`). In a store that is too short
those in front of the first one without room are (`write_of_short`). A header is read back field by
field (`read_of_encode`), so a finished image is the header followed by the code (`finish_bytes`).
-/

namespace WordMachine

/-- A number, and with how many bytes it is written. -/
structure Field where
  width : Nat
  value : Nat
  deriving DecidableEq, Repr

namespace Field

def encode (field : Field) : List UInt8 := LittleEndian.encode field.width field.value

/-- Writes a number at the cursor. -/
def write (field : Field) : Access Unit := Store.write field.width field.value

/-- The bytes of numbers one behind the other. -/
def spell (fields : List Field) : List UInt8 := fields.flatMap encode

@[simp] theorem length_encode (field : Field) : field.encode.length = field.width :=
  LittleEndian.length_encode ..

theorem spell_cons (field : Field) (fields : List Field) :
    spell (field :: fields) = field.encode ++ spell fields := rfl

theorem length_spell_cons (field : Field) (fields : List Field) :
    (spell (field :: fields)).length = field.width + (spell fields).length := by
  rw [spell_cons, List.length_append, length_encode]

variable {fields written unwritten : List Field} {refused : Field} {store : Store}

/-- Numbers that have room are written as one piece. -/
theorem forM_write_of_holds (inside : store.Holds store.cursor (spell fields).length) :
    forM fields write store =
      .ok () ⟨Store.overwrite store.bytes store.cursor (spell fields),
        store.cursor + (spell fields).length⟩ := by
  induction fields generalizing store with
  | nil => rfl
  | cons field fields ih =>
      rw [Store.Holds, length_spell_cons] at inside
      have first : store.Holds store.cursor field.width := by
        rw [Store.Holds]
        omega
      have rest : Store.Holds
          ⟨Store.overwrite store.bytes store.cursor field.encode, store.cursor + field.width⟩
          (store.cursor + field.width) (spell fields).length := by
        rw [Store.Holds, Store.size, Store.size_overwrite]
        rwa [Nat.add_assoc]
      have written : write field store = _ := Store.write_of_holds field.value first
      rw [List.forM_cons, bind_of_ok written, length_spell_cons, spell_cons,
        Store.overwrite_append, length_encode, ← Nat.add_assoc]
      exact ih rest

/-- Of numbers that have no room altogether those are written that stand in front of the first one
without room. -/
theorem forM_write_of_short (fits : store.Holds store.cursor (spell written).length)
    (short : ¬ store.Holds (store.cursor + (spell written).length) refused.width) :
    forM (written ++ refused :: unwritten) write store =
      .error ⟨store.cursor + (spell written).length, refused.width, store.size⟩
        ⟨Store.overwrite store.bytes store.cursor (spell written),
          store.cursor + (spell written).length⟩ := by
  have stays : ¬ Store.Holds
      ⟨Store.overwrite store.bytes store.cursor (spell written),
        store.cursor + (spell written).length⟩
      (store.cursor + (spell written).length) refused.width := by
    rwa [Store.Holds, Store.size, Store.size_overwrite]
  have fails : write refused _ = _ := Store.write_of_not_holds refused.value stays
  rw [List.forM_append, bind_of_ok (forM_write_of_holds fits), List.forM_cons,
    bind_of_error fails, Store.size, Store.size_overwrite]
  rfl

/-- Numbers that have no room altogether have a first one that has none. -/
theorem exists_refused {room : Nat} (short : room < (spell fields).length) :
    ∃ written refused unwritten, fields = written ++ refused :: unwritten ∧
      (spell written).length ≤ room ∧ room < (spell written).length + refused.width := by
  induction fields generalizing room with
  | nil => exact absurd short (Nat.not_lt_zero room)
  | cons field fields ih =>
      rw [length_spell_cons] at short
      by_cases fits : field.width ≤ room
      · have less : room - field.width < (spell fields).length := by omega
        obtain ⟨written, refused, unwritten, split, within, without⟩ := ih less
        refine ⟨field :: written, refused, unwritten, ?_, ?_, ?_⟩
        · rw [split, List.cons_append]
        · rw [length_spell_cons]
          omega
        · rw [length_spell_cons]
          omega
      · exact ⟨[], field, fields, rfl, Nat.zero_le room, by simpa [spell] using fits⟩

end Field

namespace Header

/-- The bytes of a header. -/
def encode (header : Header) : List UInt8 :=
  LittleEndian.encode 4 header.magic.toNat ++ LittleEndian.encode 8 header.codeSize.toNat ++
    LittleEndian.encode 8 header.dataSize.toNat ++ LittleEndian.encode 8 header.stackSize.toNat

/-- The fields of a header in their order. -/
def layout (header : Header) : List Field :=
  [⟨4, header.magic.toNat⟩, ⟨8, header.codeSize.toNat⟩, ⟨8, header.dataSize.toNat⟩,
    ⟨8, header.stackSize.toNat⟩]

@[simp] theorem length_encode (header : Header) : header.encode.length = length := by
  simp [encode, length]

theorem spell_layout (header : Header) : Field.spell header.layout = header.encode := by
  simp [Field.spell, layout, encode, Field.encode]

theorem write_eq (header : Header) :
    header.write = (do Store.seek 0; forM header.layout Field.write) := by
  simp [write, layout, Field.write, Store.writeDword, Store.writeQword]

variable {header : Header} {store : Store}

/-- Where there is room for it, a header is written over the first bytes, and the cursor is left
behind it. -/
theorem write_of_holds (header : Header) (inside : length ≤ store.size) :
    ∃ final, header.write store = .ok () final ∧
      final.toList = header.encode ++ store.toList.drop length ∧ final.cursor = length := by
  have holds : Store.Holds { store with cursor := 0 } 0 (Field.spell header.layout).length := by
    rwa [spell_layout, length_encode, Store.Holds, Nat.zero_add]
  refine ⟨⟨Store.overwrite store.bytes 0 header.encode, length⟩, ?_, ?_, rfl⟩
  · rw [write_eq, bind_of_ok (Store.seek_of_le (Nat.zero_le store.size)),
      Field.forM_write_of_holds holds, spell_layout, length_encode, Nat.zero_add]
  · rw [← header.length_encode] at inside ⊢
    exact Store.toList_overwrite_front inside

/-- In a store that is too short the fields that fit are written nevertheless, and the cursor is
left behind them. -/
theorem write_of_short (header : Header) (short : store.size < length) :
    ∃ written refused unwritten final, header.layout = written ++ refused :: unwritten ∧
      (Field.spell written).length ≤ store.size ∧
      store.size < (Field.spell written).length + refused.width ∧
      header.write store =
        .error ⟨(Field.spell written).length, refused.width, store.size⟩ final ∧
      final.toList = Field.spell written ++ store.toList.drop (Field.spell written).length ∧
      final.cursor = (Field.spell written).length := by
  rw [← header.length_encode, ← spell_layout] at short
  obtain ⟨written, refused, unwritten, split, within, without⟩ := Field.exists_refused short
  have fits : Store.Holds { store with cursor := 0 } 0 (Field.spell written).length := by
    rwa [Store.Holds, Nat.zero_add]
  have outside : ¬ Store.Holds { store with cursor := 0 } (0 + (Field.spell written).length)
      refused.width := by
    rw [Store.Holds, Nat.zero_add]
    exact Nat.not_le.mpr without
  refine ⟨written, refused, unwritten,
    ⟨Store.overwrite store.bytes 0 (Field.spell written), (Field.spell written).length⟩,
    split, within, without, ?_, Store.toList_overwrite_front within, rfl⟩
  rw [write_eq, bind_of_ok (Store.seek_of_le (Nat.zero_le store.size)), split,
    Field.forM_write_of_short fits outside, Nat.zero_add]
  rfl

/-- Over the place kept free for it a header is written in front of the rest. -/
theorem write_header (header : Header) {rest : List UInt8}
    (room : store.toList = List.replicate length 0 ++ rest) :
    ∃ final, header.write store = .ok () final ∧ final.toList = header.encode ++ rest ∧
      final.cursor = length := by
  have inside : length ≤ store.size := by
    rw [← Store.length_toList, room, List.length_append, List.length_replicate]
    exact Nat.le_add_right ..
  obtain ⟨final, written, bytes, cursor⟩ := header.write_of_holds inside
  refine ⟨final, written, ?_, cursor⟩
  rw [bytes, room, List.drop_left' List.length_replicate]

/-- A header that opens a store is read back, or refused for its magic number. -/
theorem read_of_encode {rest : List UInt8} (bytes : store.toList = header.encode ++ rest) :
    Header.read store =
      if header.magic = expectedMagic then .ok header else .error (.badMagic header.magic) := by
  have magicAhead : ({ store with cursor := 0 } : Store).Ahead
      (LittleEndian.encode 4 header.magic.toNat ++
        (LittleEndian.encode 8 header.codeSize.toNat ++
          (LittleEndian.encode 8 header.dataSize.toNat ++
            LittleEndian.encode 8 header.stackSize.toNat))) := by
    refine ⟨rest, ?_⟩
    have whole : ({ store with cursor := 0 } : Store).toList = header.encode ++ rest := bytes
    rw [whole, encode]
    simp
  have codeAhead := magicAhead.right
  have dataAhead := codeAhead.right
  have stackAhead := dataAhead.right
  have readMagic := Store.read_of_ahead (by decide) header.magic.toNat_lt magicAhead.left
  have readCode := Store.read_of_ahead (by decide) header.codeSize.toNat_lt codeAhead.left
  have readData := Store.read_of_ahead (by decide) header.dataSize.toNat_lt dataAhead.left
  have readStack := Store.read_of_ahead (by decide) header.stackSize.toNat_lt stackAhead
  simp only [LittleEndian.length_encode] at readCode readData readStack
  have found : ∃ final, fields { store with cursor := 0 } = .ok header final := by
    refine ⟨((((⟨store.bytes, 0⟩ : Store).skip 4).skip 8).skip 8).skip 8, ?_⟩
    rw [fields, Store.readDword, bind_of_ok (map_of_ok readMagic), Store.readQword,
      bind_of_ok (map_of_ok readCode), bind_of_ok (map_of_ok readData),
      bind_of_ok (map_of_ok readStack), UInt32.ofNat_toNat, UInt64.ofNat_toNat,
      UInt64.ofNat_toNat, UInt64.ofNat_toNat]
    rfl
  rcases found with ⟨final, found⟩
  rw [Header.read, found]

theorem read_header {rest : List UInt8} (bytes : store.toList = header.encode ++ rest)
    (magic : header.magic = expectedMagic) : Header.read store = .ok header :=
  (read_of_encode bytes).trans (if_pos magic)

end Header

namespace Writer

/-- A finished image is the header and the code behind it, its cursor on the first
instruction. -/
theorem finish_bytes {writer : Writer} {dataSize stackSize : UInt64} {image : Image}
    (finished : writer.finish dataSize stackSize = .ok image) :
    ∃ header : Header, header.magic = Header.expectedMagic ∧
      header.codeSize.toNat = writer.code.size ∧ header.dataSize = dataSize ∧
      header.stackSize = stackSize ∧ image.toList = header.encode ++ writer.code.toList ∧
      image.cursor = Header.length ∧ writer.size ≤ maxImageSize := by
  rw [finish] at finished
  split at finished
  next => cases finished
  next fits =>
    have small : writer.code.size < 2 ^ 64 := by
      simp only [size, maxImageSize] at fits
      omega
    have room : (Store.ofBytes (Array.replicate Header.length 0 ++ writer.code)).toList =
        List.replicate Header.length 0 ++ writer.code.toList := by
      simp [Store.toList, Store.ofBytes]
    obtain ⟨final, written, bytes, cursor⟩ := Header.write_header
      ⟨Header.expectedMagic, UInt64.ofNat writer.code.size, dataSize, stackSize⟩ room
    simp only [written] at finished
    cases finished
    exact ⟨_, rfl, UInt64.toNat_ofNat_of_lt' small, rfl, rfl, bytes, cursor, Nat.le_of_not_lt fits⟩

/-- Code that does not reach too far is finished to an image. -/
theorem finish_of_fits {writer : Writer} (dataSize stackSize : UInt64)
    (fits : writer.size ≤ maxImageSize) :
    ∃ image, writer.finish dataSize stackSize = .ok image := by
  have room : (Store.ofBytes (Array.replicate Header.length 0 ++ writer.code)).toList =
      List.replicate Header.length 0 ++ writer.code.toList := by
    simp [Store.toList, Store.ofBytes]
  obtain ⟨final, written, -⟩ := Header.write_header
    ⟨Header.expectedMagic, UInt64.ofNat writer.code.size, dataSize, stackSize⟩ room
  refine ⟨final, ?_⟩
  rw [finish, if_neg (Nat.not_lt.mpr fits)]
  simp only [written]

end Writer

end WordMachine
