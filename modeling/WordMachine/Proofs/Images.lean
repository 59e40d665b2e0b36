import WordMachine.Proofs.Headers

/-!
# Writing images

Whatever is emitted stands in the code in its order (`Writer.code_emitAll`). As long as the image is
shorter than 65536 bytes, a word has the offset of the next byte; an image of that length can still
be finished, a longer one can not. A finished image is a header and the code, and the header is read
back from it. A header itself can be written to any store, from which it is read back if it has room
there (`finished_images_read_back`).
-/

namespace WordMachine

/-- What can be emitted. -/
inductive Emission where
  | byte (value : UInt8)
  | word (value : Word)
  | opcode (code : Opcode)
  | modes (dst src : Mode)
  | field (argument : Argument)
  deriving DecidableEq, Repr

namespace Emission

/-- The bytes that something emitted has in an image. -/
def bytes : Emission → List UInt8
  | byte value => [value]
  | word value => LittleEndian.encode 2 value.toNat
  | opcode code => [code.toByte]
  | modes dst src => [Mode.pack dst src]
  | field argument => LittleEndian.encode argument.mode.width argument.value.toNat

/-- Emits what there is to emit. -/
def emit (writer : Writer) : Emission → Writer
  | byte value => writer.emitByte value
  | word value => writer.emitWord value
  | opcode code => writer.emitOpcode code
  | modes dst src => writer.emitModes dst src
  | field argument => writer.emitField argument

theorem code_emit (writer : Writer) (emission : Emission) :
    (emission.emit writer).code.toList = writer.code.toList ++ emission.bytes := by
  cases emission with
  | byte value => exact Array.toList_push
  | opcode code => exact Array.toList_push
  | modes dst src => exact Array.toList_push
  | word value => exact writer.code_emitBytes _
  | field argument => exact writer.code_emitBytes _

end Emission

namespace Writer

/-- The writer after one emission behind the other. -/
def emitAll (emissions : List Emission) : Writer := emissions.foldl Emission.emit .empty

theorem code_foldl_emission (writer : Writer) (emissions : List Emission) :
    (emissions.foldl Emission.emit writer).code.toList =
      writer.code.toList ++ emissions.flatMap Emission.bytes := by
  induction emissions generalizing writer with
  | nil => simp
  | cons emission emissions ih =>
      rw [List.foldl_cons, ih, Emission.code_emit, List.flatMap_cons, List.append_assoc]

theorem code_emitAll (emissions : List Emission) :
    (emitAll emissions).code.toList = emissions.flatMap Emission.bytes := by
  rw [emitAll, code_foldl_emission]
  rfl

variable {writer : Writer}

theorem offset_of_fits (fits : writer.size ≤ 65535) :
    ∃ word, writer.offset = .ok word ∧ word.toNat = writer.size := by
  have below : writer.size < maxImageSize := Nat.lt_succ_of_le fits
  refine ⟨_, if_pos below, ?_⟩
  exact UInt16.toNat_ofNat_of_lt' below

theorem offset_of_not_fits (large : ¬ writer.size ≤ 65535) :
    writer.offset = .error ⟨writer.size⟩ :=
  if_neg fun below => large (Nat.le_of_lt_succ below)

theorem finish_of_not_fits (dataSize stackSize : UInt64) (large : ¬ writer.size ≤ 65536) :
    writer.finish dataSize stackSize = .error ⟨writer.size⟩ :=
  if_pos (Nat.lt_of_not_le large)

/-- What there is to say about an image finished behind `code`. -/
structure Finishes (code : List UInt8) (dataSize stackSize : UInt64) (image : Image) : Prop where
  bytes : ∃ front, front.length = 28 ∧ image.toList = front ++ code
  cursor : image.cursor = 28
  header : ∃ header, Header.read image = .ok header ∧ header.magic = 0xF00CF00D ∧
    header.codeSize.toNat = code.length ∧ header.dataSize = dataSize ∧
    header.stackSize = stackSize ∧ header.codeEnd = image.size

theorem finish_finishes (dataSize stackSize : UInt64) (fits : writer.size ≤ 65536) :
    ∃ image, writer.finish dataSize stackSize = .ok image ∧
      Finishes writer.code.toList dataSize stackSize image := by
  obtain ⟨image, finished⟩ := finish_of_fits dataSize stackSize fits
  obtain ⟨header, magic, codeSize, sameData, sameStack, bytes, cursor, -⟩ := finish_bytes finished
  have size : image.size = writer.size := by
    rw [← Store.length_toList, bytes, List.length_append, header.length_encode, Array.length_toList,
      Writer.size]
  have codeEnd : header.codeEnd = image.size := by
    rw [Header.codeEnd, Header.addSizes, codeSize, size, Writer.size, Nat.add_comm]
    apply Nat.min_eq_left
    rw [Writer.size] at fits
    exact Nat.le_trans fits (by decide)
  refine ⟨image, finished, ⟨header.encode, header.length_encode, bytes⟩, cursor, header, ?_, magic,
    ?_, sameData, sameStack, codeEnd⟩
  · exact Header.read_header bytes magic
  · rw [codeSize, Array.length_toList]

end Writer

namespace Header

/-- What becomes of a store that a header is written to: it has the header in front and is the same
behind, and the header is read back, unless it is refused for its magic number. -/
structure StandsIn (header : Header) (store final : Store) : Prop where
  bytes : final.toList = header.encode ++ store.toList.drop 28
  read : Header.read final =
    if header.magic = 0xF00CF00D then .ok header else .error (.badMagic header.magic)

/-- What becomes of a store that is too short for a header: the fields in front of the first one
without room are written, each of them whole, and the rest stays the same. -/
structure BreaksOff (header : Header) (store final : Store) : Prop where
  bytes : ∃ written refused unwritten, header.layout = written ++ refused :: unwritten ∧
    (Field.spell written).length ≤ store.size ∧
    store.size < (Field.spell written).length + refused.width ∧
    final.toList = Field.spell written ++ store.toList.drop (Field.spell written).length

end Header

/-- Whatever is emitted, the image is limited at 65536 bytes, offsets one byte before. A finished
image is a header and what was emitted, its cursor in between, and the header is read back with the
length of the code and the sizes that were asked for. A header is written to every store that has
room for it, and read back from there; in any other store the fields that fit are written. -/
theorem finished_images_read_back (emissions : List Emission) (dataSize stackSize : UInt64) :
    (if 28 + (emissions.flatMap Emission.bytes).length ≤ 65535 then
      ∃ word, (Writer.emitAll emissions).offset = .ok word ∧
        word.toNat = 28 + (emissions.flatMap Emission.bytes).length
    else
      (Writer.emitAll emissions).offset =
        .error ⟨28 + (emissions.flatMap Emission.bytes).length⟩) ∧
    (if 28 + (emissions.flatMap Emission.bytes).length ≤ 65536 then
      ∃ image, (Writer.emitAll emissions).finish dataSize stackSize = .ok image ∧
        Writer.Finishes (emissions.flatMap Emission.bytes) dataSize stackSize image
    else
      (Writer.emitAll emissions).finish dataSize stackSize =
        .error ⟨28 + (emissions.flatMap Emission.bytes).length⟩) ∧
    ∀ (header : Header) (store : Store),
      if 28 ≤ store.size then
        ∃ final, header.write store = .ok () final ∧ header.StandsIn store final
      else
        ∃ fault final, header.write store = .error fault final ∧ header.BreaksOff store final := by
  have size : (Writer.emitAll emissions).size =
      28 + (emissions.flatMap Emission.bytes).length := by
    rw [Writer.size, ← Array.length_toList, Writer.code_emitAll]
    rfl
  rw [← size, ← Writer.code_emitAll]
  refine ⟨?_, ?_, ?_⟩
  · split
    next fits => exact Writer.offset_of_fits fits
    next large => exact Writer.offset_of_not_fits large
  · split
    next fits => exact Writer.finish_finishes dataSize stackSize fits
    next large => exact Writer.finish_of_not_fits dataSize stackSize large
  · intro header store
    split
    next inside =>
      obtain ⟨final, written, bytes, -⟩ := header.write_of_holds inside
      exact ⟨final, written, bytes, Header.read_of_encode bytes⟩
    next short =>
      obtain ⟨front, refused, rest, final, split, within, without, failed, bytes, -⟩ :=
        header.write_of_short (Nat.lt_of_not_le short)
      exact ⟨_, final, failed, front, refused, rest, split, within, without, bytes⟩

end WordMachine
