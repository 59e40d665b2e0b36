import WordMachine.Proofs.Headers

/-!
# The format of instructions

Instructions that are emitted and finished to an image are read back one after the other,
each field at its place. Conversely, whatever bytes a store holds, fetching succeeds on the
encoding of an instruction and on nothing else (`instruction_found`), except that the half of
the mode byte that no operand needs may hold any mode.
-/

namespace WordMachine

namespace Mode

/-- Half a byte that is a mode is the half byte of that mode. -/
theorem toNibble_of_ofNibble? {nibble : UInt8} {mode : Mode}
    (known : ofNibble? nibble = some mode) : mode.toNibble = nibble := by
  unfold ofNibble? at known
  split at known <;> cases known <;> rfl

/-- A byte is made of its two halves. -/
theorem join_nibbles (byte : UInt8) : (nibbles byte).2 <<< 4 ||| (nibbles byte).1 = byte := by
  have every : ∀ n : Fin 256,
      (nibbles (.ofNat n.val)).2 <<< 4 ||| (nibbles (.ofNat n.val)).1 = UInt8.ofNat n.val := by
    decide +kernel
  simpa using every ⟨byte.toNat, byte.toNat_lt⟩

/-- A byte whose halves are modes packs these modes. -/
theorem pack_of_nibbles {byte : UInt8} {dst src : Mode}
    (low : ofNibble? (nibbles byte).1 = some dst) (high : ofNibble? (nibbles byte).2 = some src) :
    pack dst src = byte := by
  rw [pack, toNibble_of_ofNibble? low, toNibble_of_ofNibble? high, join_nibbles]

end Mode

namespace Store

theorem Ahead.append {store : Store} {first second : List UInt8} (here : store.Ahead first)
    (behind : (store.skip first.length).Ahead second) : store.Ahead (first ++ second) := by
  rcases here with ⟨rest, whole⟩
  rcases behind with ⟨last, wholeRest⟩
  refine ⟨last, ?_⟩
  rw [toList_skip, cursor_skip, ← List.drop_drop, ← whole, List.drop_left] at wholeRest
  rw [List.append_assoc, wholeRest, whole]

/-- What is read are the bytes ahead. -/
theorem read_found {store : Store} (width : Nat) :
    Ends (read width) store
      (fun value final => value < 256 ^ width ∧ store.Ahead (LittleEndian.encode width value) ∧
        final = store.skip width)
      (fun _ _ => True) := by
  by_cases inside : store.Holds store.cursor width
  · rw [Ends, read_of_holds inside]
    have length := length_slice inside
    have bound := LittleEndian.decode_lt (store.slice width store.cursor)
    have bytes := LittleEndian.encode_decode (store.slice width store.cursor)
    rw [length] at bound bytes
    refine ⟨bound, ?_, rfl⟩
    rw [bytes]
    exact List.take_prefix width _
  · rw [Ends, read_of_not_holds inside]
    trivial

theorem readByte_found {store : Store} :
    Ends readByte store (fun byte final => store.Ahead [byte] ∧ final = store.skip 1)
      (fun _ _ => True) := by
  rw [readByte, ends_map]
  apply (read_found 1).mono
  · intro value final found
    rcases found with ⟨-, ahead, same⟩
    exact ⟨ahead, same⟩
  · exact fun _ _ _ => trivial

theorem readWord_found {store : Store} :
    Ends readWord store
      (fun word final => store.Ahead (LittleEndian.encode 2 word.toNat) ∧ final = store.skip 2)
      (fun _ _ => True) := by
  rw [readWord, ends_map]
  apply (read_found 2).mono
  · intro value final found
    rcases found with ⟨bound, ahead, same⟩
    rw [UInt16.toNat_ofNat_of_lt' bound]
    exact ⟨ahead, same⟩
  · exact fun _ _ _ => trivial

/-- What is wrong with the bytes at the cursor when fetching an instruction ends in a
fault: they break off, the first byte is no opcode, half of the mode byte is no mode, or
there is no mode for an operand that the opcode calls for. -/
def Malformed (store : Store) : Fault → Prop
  | .truncatedInstruction offset => offset = store.cursor
  | .invalidOpcode byte => store.Ahead [byte] ∧ Opcode.ofByte? byte = none
  | .invalidMode nibble =>
    ∃ (opcode : Opcode) (byte : UInt8), store.Ahead [opcode.toByte, byte] ∧ opcode.shape ≠ .bare ∧
      (nibble = (Mode.nibbles byte).1 ∨ nibble = (Mode.nibbles byte).2) ∧
      Mode.ofNibble? nibble = none
  | .missingOperand offset =>
    offset = store.cursor ∧ ∃ (opcode : Opcode) (dst src : Mode),
      store.Ahead [opcode.toByte, Mode.pack dst src] ∧ opcode.shape ≠ .bare ∧
      (opcode.shape.hasDst = true ∧ dst = .absent ∨ opcode.shape.hasSrc = true ∧ src = .absent)
  | _ => False

end Store

/-- An opcode with operands has a destination or a source. -/
theorem Shape.hasDst_of_not_hasSrc {shape : Shape} (operands : shape ≠ .bare)
    (noSrc : shape.hasSrc = false) : shape.hasDst = true := by
  cases shape with
  | bare => exact absurd rfl operands
  | dst => rfl
  | srcSized | srcDst | srcDstRemainder => cases noSrc

/-- Modes read for both operands, one of which may be lacking, are those of an encoding. -/
theorem Instruction.encodeWith_of_modes {opcode : Opcode} {dst src : Argument}
    {dstMode srcMode : Mode} (trailing : Option UInt8) (operands : opcode.shape ≠ .bare)
    (sameDst : opcode.shape.hasDst = true → dst.mode = dstMode)
    (sameSrc : opcode.shape.hasSrc = true → src.mode = srcMode) :
    ∃ spare, encodeWith spare ⟨opcode, dst, src, trailing⟩ =
      [opcode.toByte, Mode.pack dstMode srcMode] ++
        (dst.encode ++ (src.encode ++ trailing.toList)) := by
  refine ⟨if opcode.shape.hasDst then srcMode else dstMode, ?_⟩
  have low : (if opcode.shape.hasDst then dst.mode
      else if opcode.shape.hasDst then srcMode else dstMode) = dstMode := by
    split
    next carried => exact sameDst carried
    next lacking => rfl
  have high : (if opcode.shape.hasSrc then src.mode
      else if opcode.shape.hasDst then srcMode else dstMode) = srcMode := by
    split
    next carried => exact sameSrc carried
    next lacking =>
      exact if_pos (Shape.hasDst_of_not_hasSrc operands (Bool.eq_false_iff.mpr lacking))
  simp only [encodeWith, encodeOperandsWith, if_neg operands, low, high, List.append_assoc,
    List.cons_append, List.nil_append]

namespace Fetch

variable {store : Store}

theorem ends_orFault {α : Type} {access : Access α} {fault : Fault}
    {returned : α → Store → Prop} {failed : Fault → Store → Prop} :
    Ends (orFault access fault) store returned failed ↔
      Ends access store returned (fun _ final => failed fault final) :=
  ends_adaptExcept

theorem opcode_found (offset : Nat) :
    Ends (Fetch.opcode offset) store
      (fun opcode final => store.Ahead [opcode.toByte] ∧ final = store.skip 1)
      (fun fault _ => fault = .truncatedInstruction offset ∨
        ∃ byte, fault = .invalidOpcode byte ∧ store.Ahead [byte] ∧
          Opcode.ofByte? byte = none) := by
  rw [Fetch.opcode, ends_bind, ends_orFault]
  apply Store.readByte_found.mono
  · intro byte final found
    rcases found with ⟨ahead, same⟩
    cases known : Opcode.ofByte? byte with
    | none => exact Or.inr ⟨byte, rfl, ahead, known⟩
    | some opcode =>
        refine ⟨?_, same⟩
        rw [Opcode.toByte_of_ofByte? known]
        exact ahead
  · exact fun _ _ _ => Or.inl rfl

theorem mode_found (nibble : UInt8) :
    Ends (Fetch.mode nibble) store
      (fun mode final => Mode.ofNibble? nibble = some mode ∧ final = store)
      (fun fault _ => fault = .invalidMode nibble ∧ Mode.ofNibble? nibble = none) := by
  rw [Fetch.mode]
  cases known : Mode.ofNibble? nibble with
  | none => exact ⟨rfl, rfl⟩
  | some mode => exact ⟨rfl, rfl⟩

theorem operand_found (offset : Nat) (mode : Mode) :
    Ends (operand offset mode) store
      (fun operand final => operand.mode = mode ∧ operand.Encodable ∧
        operand.offset = store.cursor ∧ store.Ahead operand.encode ∧
        final = store.skip mode.width)
      (fun fault _ => fault = .truncatedInstruction offset ∨
        mode = .absent ∧ fault = .missingOperand offset) := by
  rw [operand, ends_bind, ends_get]
  cases mode with
  | absent => exact Or.inr ⟨rfl, rfl⟩
  | register | registerPointer =>
      change Ends (orFault Store.readByte _ >>= _) _ _ _
      rw [ends_bind, ends_orFault]
      apply Store.readByte_found.mono
      · intro byte final found
        rcases found with ⟨ahead, same⟩
        have small : byte.toUInt16.toNat < 256 := by
          rw [UInt8.toNat_toUInt16]
          exact byte.toNat_lt
        refine ⟨rfl, ⟨Mode.noConfusion, fun _ => small⟩, rfl, ?_, same⟩
        simpa [Argument.encode, Mode.width, LittleEndian.encode] using ahead
      · exact fun _ _ _ => Or.inl rfl
  | pointer | label | number | global | frame =>
      change Ends (orFault Store.readWord _ >>= _) _ _ _
      rw [ends_bind, ends_orFault]
      apply Store.readWord_found.mono
      · intro word final found
        rcases found with ⟨ahead, same⟩
        exact ⟨rfl, ⟨Mode.noConfusion, Bool.noConfusion⟩, rfl, ahead, same⟩
      · exact fun _ _ _ => Or.inl rfl

theorem operandIf_found (carried : Bool) (offset : Nat) (mode : Mode) :
    Ends (operandIf carried offset mode) store
      (fun found final => ∃ argument : Argument,
        (if carried then argument.Encodable else argument.mode = .absent) ∧
        (carried = true → argument.mode = mode) ∧
        found = (if carried then some ⟨argument, store.cursor⟩ else none) ∧
        store.Ahead argument.encode ∧ final = store.skip argument.mode.width)
      (fun fault _ => fault = .truncatedInstruction offset ∨
        carried = true ∧ mode = .absent ∧ fault = .missingOperand offset) := by
  cases carried with
  | false => exact ⟨.absent, rfl, nofun, rfl, List.nil_prefix, rfl⟩
  | true =>
      rw [operandIf, if_pos rfl, ends_map]
      apply (operand_found offset mode).mono
      · intro operand final found
        rcases operand with ⟨argument, place⟩
        rcases found with ⟨sameMode, encodable, rfl, ahead, same⟩
        simp only at sameMode
        subst sameMode
        exact ⟨argument, encodable, fun _ => rfl, rfl, ahead, same⟩
      · intro fault final failed
        exact failed.imp id fun missing => ⟨rfl, missing⟩

/-- What follows a trailing byte is the same whether or not the shape has one. -/
theorem ends_trailing {α : Type} {carried : Bool} {offset : Nat}
    {next : Option UInt8 → Fetch α} {returned : α → Store → Prop} {failed : Fault → Store → Prop}
    (truncated : ∀ final, failed (.truncatedInstruction offset) final)
    (followed : ∀ byte : Option UInt8, byte.isSome = carried → store.Ahead byte.toList →
      Ends (next byte) (store.skip byte.toList.length) returned failed) :
    Ends (if carried then
        some <$> orFault Store.readByte (.truncatedInstruction offset) >>= next
      else pure none >>= next) store returned failed := by
  cases carried with
  | false => exact followed none rfl List.nil_prefix
  | true =>
      rw [if_pos rfl, ends_bind, ends_map, ends_orFault]
      apply Store.readByte_found.mono
      · intro byte final found
        rcases found with ⟨ahead, rfl⟩
        exact followed (some byte) rfl ahead
      · exact fun _ final _ => truncated final

/-- Fetching finds an encoded instruction, or something is wrong with the bytes. -/
theorem instruction_found :
    Ends Fetch.instruction store
      (fun fetched final => ∃ (instruction : Instruction) (spare : Mode),
        instruction.WellFormed ∧ store.Ahead (instruction.encodeWith spare) ∧
        fetched = instruction.locate store.cursor ∧ final = store.skip instruction.size)
      (fun fault _ => store.Malformed fault) := by
  rw [Fetch.instruction, ends_bind, ends_get, ends_bind]
  apply (opcode_found store.cursor).mono
  case onFailure =>
    intro fault _ failed
    rcases failed with rfl | ⟨byte, rfl, unknown⟩
    · exact rfl
    · exact unknown
  intro opcode _ found
  rcases found with ⟨opcodeAhead, rfl⟩
  rw [ends_ite]
  split
  case isTrue bare =>
    refine ⟨⟨opcode, .absent, .absent, none⟩, .absent, ?_, ?_, ?_, ?_⟩
    · constructor <;> simp [bare, Shape.hasDst, Shape.hasSrc, Shape.hasTrailing, Argument.absent]
    · simpa [Instruction.encodeWith, Instruction.encodeOperandsWith, bare] using opcodeAhead
    · simp [Instruction.locate, bare, Shape.hasDst, Shape.hasSrc]
    · simp [Instruction.size, Instruction.encode, Instruction.encodeOperands, bare]
  case isFalse operands =>
    rw [ends_bind, ends_orFault]
    apply Store.readByte_found.mono
    case onFailure => exact fun _ _ _ => rfl
    intro modes _ found
    rcases found with ⟨modesAhead, rfl⟩
    have opened : store.Ahead [opcode.toByte, modes] := opcodeAhead.append modesAhead
    change Ends (Fetch.mode (Mode.nibbles modes).1 >>= _) _ _ _
    rw [ends_bind]
    apply (mode_found _).mono
    case onFailure =>
      intro fault _ failed
      rcases failed with ⟨rfl, unknown⟩
      exact ⟨opcode, modes, opened, operands, Or.inl rfl, unknown⟩
    intro dstMode _ found
    rcases found with ⟨low, rfl⟩
    rw [ends_bind]
    apply (mode_found _).mono
    case onFailure =>
      intro fault _ failed
      rcases failed with ⟨rfl, unknown⟩
      exact ⟨opcode, modes, opened, operands, Or.inr rfl, unknown⟩
    intro srcMode _ found
    rcases found with ⟨high, rfl⟩
    obtain rfl := Mode.pack_of_nibbles low high
    rw [ends_bind]
    apply (operandIf_found _ _ _).mono
    case onFailure =>
      intro fault _ failed
      rcases failed with rfl | ⟨carried, absent, rfl⟩
      · exact rfl
      · exact ⟨rfl, opcode, dstMode, srcMode, opened, operands, Or.inl ⟨carried, absent⟩⟩
    intro _ _ found
    rcases found with ⟨dst, dstFits, sameDst, rfl, dstAhead, rfl⟩
    rw [ends_bind]
    apply (operandIf_found _ _ _).mono
    case onFailure =>
      intro fault _ failed
      rcases failed with rfl | ⟨carried, absent, rfl⟩
      · exact rfl
      · exact ⟨rfl, opcode, dstMode, srcMode, opened, operands, Or.inr ⟨carried, absent⟩⟩
    intro _ _ found
    rcases found with ⟨src, srcFits, sameSrc, rfl, srcAhead, rfl⟩
    apply ends_trailing
    · exact fun _ => rfl
    intro trailing trailingFits trailingAhead
    obtain ⟨spare, bytes⟩ :=
      Instruction.encodeWith_of_modes trailing operands sameDst sameSrc
    refine ⟨⟨opcode, dst, src, trailing⟩, spare, ⟨dstFits, srcFits, trailingFits⟩, ?_, ?_, ?_⟩
    · rw [bytes]
      rw [← Argument.length_encode] at srcAhead trailingAhead
      rw [← Argument.length_encode src] at trailingAhead
      exact opened.append (dstAhead.append (srcAhead.append trailingAhead))
    · simp only [Instruction.locate, Store.cursor_skip]
    · rw [← Instruction.length_encodeWith spare, bytes]
      simp only [Store.skip_skip, List.length_append, Argument.length_encode, ← Nat.add_assoc]
      rfl

end Fetch

/-! ## Bytes that break off -/

theorem Opcode.toByte_inj {first second : Opcode} (same : first.toByte = second.toByte) :
    first = second := by
  have known := ofByte?_toByte first
  rw [same, ofByte?_toByte] at known
  exact (Option.some.inj known).symm

theorem Mode.pack_inj {dst src otherDst otherSrc : Mode}
    (same : pack dst src = pack otherDst otherSrc) : dst = otherDst ∧ src = otherSrc := by
  have halves := congrArg nibbles same
  rw [nibbles_pack, nibbles_pack] at halves
  rcases Prod.mk.inj halves with ⟨low, high⟩
  have knownDst := ofNibble?_toNibble dst
  have knownSrc := ofNibble?_toNibble src
  rw [low, ofNibble?_toNibble] at knownDst
  rw [high, ofNibble?_toNibble] at knownSrc
  exact ⟨(Option.some.inj knownDst).symm, (Option.some.inj knownSrc).symm⟩

/-- The first two bytes of an encoding with operands. -/
theorem Instruction.eq_of_prefix_encodeWith {instruction : Instruction} {spare : Mode}
    {opcode : Opcode} {modes : UInt8} (operands : opcode.shape ≠ .bare)
    (opened : [opcode.toByte, modes] <+: instruction.encodeWith spare) :
    opcode = instruction.opcode ∧
      modes = Mode.pack (if instruction.opcode.shape.hasDst then instruction.dst.mode else spare)
        (if instruction.opcode.shape.hasSrc then instruction.src.mode else spare) := by
  rw [encodeWith, List.cons_prefix_cons] at opened
  rcases opened with ⟨sameByte, modesOpen⟩
  obtain rfl := Opcode.toByte_inj sameByte
  rw [encodeOperandsWith, if_neg operands, List.cons_prefix_cons] at modesOpen
  exact ⟨rfl, modesOpen.1⟩

/-- Nothing is wrong with the beginning of an encoding but that it breaks off. -/
theorem Store.Malformed.eq_truncated {store : Store} {fault : Fault} {instruction : Instruction}
    {spare : Mode} (malformed : store.Malformed fault) (wellFormed : instruction.WellFormed)
    (short : store.toList.drop store.cursor <+: instruction.encodeWith spare) :
    fault = .truncatedInstruction store.cursor := by
  cases fault with
  | truncatedInstruction offset => exact congrArg _ malformed
  | invalidOpcode byte =>
      rcases malformed with ⟨ahead, unknown⟩
      have first : byte = instruction.opcode.toByte :=
        (List.cons_prefix_cons.mp (ahead.trans short)).1
      rw [first, Opcode.ofByte?_toByte] at unknown
      cases unknown
  | invalidMode nibble =>
      rcases malformed with ⟨opcode, modes, ahead, operands, half, unknown⟩
      obtain ⟨-, rfl⟩ := Instruction.eq_of_prefix_encodeWith operands (ahead.trans short)
      rw [Mode.nibbles_pack] at half
      rcases half with rfl | rfl
      · rw [Mode.ofNibble?_toNibble] at unknown
        cases unknown
      · rw [Mode.ofNibble?_toNibble] at unknown
        cases unknown
  | missingOperand offset =>
      rcases malformed with ⟨-, opcode, dst, src, ahead, operands, lacking⟩
      obtain ⟨rfl, modes⟩ := Instruction.eq_of_prefix_encodeWith operands (ahead.trans short)
      obtain ⟨rfl, rfl⟩ := Mode.pack_inj modes
      rcases lacking with ⟨carried, absent⟩ | ⟨carried, absent⟩
      · have fits := wellFormed.dst
        rw [if_pos carried] at fits absent
        exact absurd absent fits.present
      · have fits := wellFormed.src
        rw [if_pos carried] at fits absent
        exact absurd absent fits.present
  | badMagic | truncatedHeader | allocationRefused | invalidDestination | divisionByZero
  | stackOverflow | stackUnderflow | invalidPushSize | dataOutOfBounds | codeOutOfBounds
  | budgetExhausted => exact malformed.elim

/-- No encoding is the beginning of another. -/
theorem Instruction.size_eq_of_prefix {first second : Instruction} {spare otherSpare : Mode}
    (firstFits : first.WellFormed) (secondFits : second.WellFormed)
    (opened : first.encodeWith spare <+: second.encodeWith otherSpare) :
    first.size = second.size := by
  -- A store that holds the longer encoding is read as either.
  have readFirst : Fetch.instruction (.ofBytes (second.encodeWith otherSpare).toArray) = _ :=
    Fetch.instruction_of_encodeWith firstFits opened
  have readSecond : Fetch.instruction (.ofBytes (second.encodeWith otherSpare).toArray) = _ :=
    Fetch.instruction_of_encodeWith secondFits (List.prefix_refl _)
  rw [readFirst] at readSecond
  have cursors := congrArg Store.cursor (EStateM.Result.ok.inj readSecond).2
  exact Nat.add_left_cancel cursors

/-- Fetching from bytes that break off within an encoding says so. -/
theorem Fetch.instruction_of_cut {store : Store} {instruction : Instruction} {spare : Mode}
    (wellFormed : instruction.WellFormed)
    (short : store.toList.drop store.cursor <+: instruction.encodeWith spare)
    (proper : store.toList.drop store.cursor ≠ instruction.encodeWith spare) :
    ∃ final, Fetch.instruction store = .error (.truncatedInstruction store.cursor) final := by
  have found : Ends Fetch.instruction store _ _ := Fetch.instruction_found
  cases outcome : Fetch.instruction store with
  | error fault final =>
      have malformed := found.of_error outcome
      rw [malformed.eq_truncated wellFormed short]
      exact ⟨final, rfl⟩
  | ok fetched final =>
      rcases found.of_ok outcome with ⟨other, otherSpare, otherFits, ahead, -, -⟩
      have sizes := Instruction.size_eq_of_prefix otherFits wellFormed (ahead.trans short)
      have lower := ahead.length_le
      rw [Instruction.length_encodeWith, sizes, ← Instruction.length_encodeWith spare] at lower
      exact absurd (short.eq_of_length_le lower) proper

/-! ## Programs that are emitted -/

/-- The field of an operand is found at the operand's offset. -/
theorem Instruction.slice_of_ahead {store : Store} {instruction : Instruction}
    (ahead : store.Ahead instruction.encode)
    {operand : Operand}
    (carried : operand ∈ (instruction.locate store.cursor).dst ∨
      operand ∈ (instruction.locate store.cursor).src) :
    store.slice operand.mode.width operand.offset = operand.encode := by
  by_cases bare : instruction.opcode.shape = .bare
  · simp [locate, bare, Shape.hasDst, Shape.hasSrc] at carried
  · rw [encode, encodeOperands, if_neg bare, List.append_assoc] at ahead
    have fields : (store.skip 2).Ahead (instruction.dst.encode ++
        (instruction.src.encode ++ instruction.trailing.toList)) := by
      change store.Ahead ([_, _] ++ _) at ahead
      exact ahead.right
    have dst := fields.left.slice
    have src := fields.right.left.slice
    simp only [Argument.length_encode] at dst src
    rcases carried with found | found
    · simp only [locate] at found
      split at found
      · cases found
        exact dst
      · cases found
    · simp only [locate] at found
      split at found
      · cases found
        exact src
      · cases found

namespace Program

/-- So it is with every operand of a program. -/
theorem slice_of_mem_locate {program : Program} {store : Store}
    (ahead : store.Ahead program.encode) {fetched : Fetched}
    (member : fetched ∈ program.locate store.cursor) {operand : Operand}
    (carried : operand ∈ fetched.dst ∨ operand ∈ fetched.src) :
    store.slice operand.mode.width operand.offset = operand.encode := by
  induction program generalizing store with
  | nil => cases member
  | cons instruction rest ih =>
      rw [encode_cons] at ahead
      rcases List.mem_cons.mp member with rfl | later
      · exact Instruction.slice_of_ahead ahead.left carried
      · have behind := ih ahead.right later
        exact behind

end Program

/-- Emitting a program appends its code. -/
theorem Writer.code_foldl_emit (writer : Writer) (program : Program) :
    (program.foldl emit writer).code.toList = writer.code.toList ++ program.encode := by
  induction program generalizing writer with
  | nil => exact (List.append_nil _).symm
  | cons instruction rest ih =>
      rw [List.foldl_cons, ih, code_emit, Program.encode_cons, List.append_assoc]

/-- A program that is emitted is read back from the image. -/
theorem Writer.finish_reads_back {program : Program} (dataSize stackSize : UInt64)
    (wellFormed : ∀ instruction ∈ program, instruction.WellFormed)
    (fits : Header.length + program.size ≤ maxImageSize) :
    ∃ image, (program.foldl emit .empty).finish dataSize stackSize = .ok image ∧
      image.cursor = Header.length ∧ image.size = Header.length + program.size ∧
      Fetch.instructions image.size image =
        .ok (program.locate Header.length) { image with cursor := image.size } ∧
      ∀ fetched ∈ program.locate Header.length, ∀ operand,
        operand ∈ fetched.dst ∨ operand ∈ fetched.src →
        image.slice operand.mode.width operand.offset = operand.encode := by
  have code : (program.foldl emit .empty).code.toList = program.encode :=
    code_foldl_emit .empty program
  have size : (program.foldl emit .empty).size = Header.length + program.size := by
    rw [Writer.size, ← Array.length_toList, code, Program.size]
  rw [← size] at fits
  obtain ⟨image, finished⟩ := finish_of_fits dataSize stackSize fits
  obtain ⟨header, -, -, -, -, bytes, cursor, -⟩ := finish_bytes finished
  rw [code] at bytes
  have rest : image.toList.drop image.cursor = program.encode := by
    rw [cursor, bytes, ← header.length_encode, List.drop_left]
  have length : image.size = Header.length + program.size := by
    rw [← Store.length_toList, bytes, List.length_append, Header.length_encode, Program.size]
  have short : program.length ≤ image.size := by
    have atMost := program.length_le_size
    omega
  have readBack := Fetch.instructions_of_ahead wellFormed rest (by omega) short
  refine ⟨image, finished, cursor, length, ?_, ?_⟩
  · rw [readBack, cursor]
  · intro fetched member operand carried
    rw [← cursor] at member
    exact Program.slice_of_mem_locate ⟨[], by rw [rest, List.append_nil]⟩ member carried

/-- What is emitted is what is read. A program of instructions that have the operands of
their opcodes and fit an image is finished to one, and reading the image from its first
instruction on gives the program back, every operand with the offset of its field, and ends
at the end of the image. Fetching from any bytes succeeds exactly if an encoding stands at the
cursor, in which the half of the mode byte that no operand needs may be any mode; it gives
the instruction located there and leaves the cursor behind it. Bytes that break off within
an encoding are called truncated, and no fault is without its cause. -/
theorem emitted_code_is_read_back :
    (∀ (program : Program) (dataSize stackSize : UInt64),
      (∀ instruction ∈ program, instruction.WellFormed) →
      Header.length + program.size ≤ Writer.maxImageSize →
      ∃ image, (program.foldl Writer.emit .empty).finish dataSize stackSize = .ok image ∧
        image.cursor = Header.length ∧ image.size = Header.length + program.size ∧
        Fetch.instructions image.size image =
          .ok (program.locate Header.length) { image with cursor := image.size } ∧
        ∀ fetched ∈ program.locate Header.length, ∀ operand,
          operand ∈ fetched.dst ∨ operand ∈ fetched.src →
          image.slice operand.mode.width operand.offset = operand.encode) ∧
    (∀ (store final : Store) (fetched : Fetched),
      Fetch.instruction store = .ok fetched final ↔
        ∃ (instruction : Instruction) (spare : Mode), instruction.WellFormed ∧
          instruction.encodeWith spare <+: store.toList.drop store.cursor ∧
          fetched = instruction.locate store.cursor ∧
          final = store.skip (instruction.encodeWith spare).length) ∧
    (∀ (store : Store) (instruction : Instruction) (spare : Mode), instruction.WellFormed →
      store.toList.drop store.cursor <+: instruction.encodeWith spare →
      store.toList.drop store.cursor ≠ instruction.encodeWith spare →
      ∃ final, Fetch.instruction store =
        .error (.truncatedInstruction store.cursor) final) ∧
    ∀ (store final : Store) (fault : Fault),
      Fetch.instruction store = .error fault final → store.Malformed fault := by
  refine ⟨?_, ?_, ?_, ?_⟩
  · intro program dataSize stackSize wellFormed fits
    exact Writer.finish_reads_back dataSize stackSize wellFormed fits
  · intro store final fetched
    constructor
    · intro outcome
      rcases Fetch.instruction_found.of_ok outcome with
        ⟨instruction, spare, wellFormed, ahead, located, behind⟩
      refine ⟨instruction, spare, wellFormed, ahead, located, ?_⟩
      rw [Instruction.length_encodeWith]
      exact behind
    · rintro ⟨instruction, spare, wellFormed, ahead, rfl, rfl⟩
      rw [Instruction.length_encodeWith]
      exact Fetch.instruction_of_encodeWith wellFormed ahead
  · intro store instruction spare wellFormed short proper
    exact Fetch.instruction_of_cut wellFormed short proper
  · intro store final fault outcome
    exact Fetch.instruction_found.of_error outcome

namespace Division

/-- Does nothing, then divides a global variable by what a register points at. -/
def program : Program :=
  [⟨.nop, .absent, .absent, none⟩, ⟨.div, ⟨.global, 8⟩, ⟨.registerPointer, 1⟩, some 2⟩]

theorem wellFormed : ∀ instruction ∈ program, instruction.WellFormed := by
  intro instruction member
  rcases List.mem_cons.mp member with rfl | last
  · exact ⟨rfl, rfl, rfl⟩
  · obtain rfl := List.mem_singleton.mp last
    exact ⟨⟨nofun, nofun⟩, ⟨nofun, fun _ => by decide⟩, rfl⟩

/-- Adds one to a register, with a mode where the source would have one. -/
theorem increment_wellFormed :
    Instruction.WellFormed ⟨.inc, ⟨.register, 3⟩, .absent, none⟩ :=
  ⟨⟨nofun, fun _ => by decide⟩, rfl, rfl⟩

/-- Moves a number to a register. -/
theorem move_wellFormed :
    Instruction.WellFormed ⟨.mov, ⟨.register, 3⟩, ⟨.number, 5⟩, none⟩ :=
  ⟨⟨nofun, fun _ => by decide⟩, ⟨nofun, nofun⟩, rfl⟩

end Division

/-- A division that follows an instruction without operands is read back, an increment is
read with any mode for the source it lacks, and a move is truncated within its number. -/
theorem division_is_read_back :
    (∃ image, (Division.program.foldl Writer.emit .empty).finish 16 4 = .ok image ∧
      Fetch.instructions image.size image =
        .ok
          [⟨.nop, 28, none, none, none⟩,
            ⟨.div, 29, some ⟨⟨.global, 8⟩, 31⟩, some ⟨⟨.registerPointer, 1⟩, 33⟩, some 2⟩]
          { image with cursor := image.size }) ∧
    Fetch.instruction (.ofBytes #[4, 0x71, 3]) =
      .ok ⟨.inc, 0, some ⟨⟨.register, 3⟩, 2⟩, none, none⟩ ⟨#[4, 0x71, 3], 3⟩ ∧
    (∃ final, Fetch.instruction (.ofBytes #[0, 0x41, 3, 5]) =
      .error (.truncatedInstruction 0) final) ∧
    (Store.ofBytes #[200]).Malformed (.invalidOpcode 200) := by
  rcases emitted_code_is_read_back with ⟨emitted, encoded, cut, refused⟩
  refine ⟨?_, ?_, ?_, ?_⟩
  · rcases emitted Division.program 16 4 Division.wellFormed (by decide) with
      ⟨image, finished, -, -, readBack, -⟩
    exact ⟨image, finished, readBack⟩
  · exact (encoded _ _ _).mpr
      ⟨_, .frame, Division.increment_wellFormed, by decide, rfl, rfl⟩
  · exact cut (.ofBytes #[0, 0x41, 3, 5]) _ .absent Division.move_wellFormed (by decide)
      (by decide)
  · exact refused (.ofBytes #[200]) _ _ rfl

end WordMachine
