import WordMachine.Store.Lemmas
import WordMachine.Image
import WordMachine.Instruction.Fetch
import WordMachine.Proofs.Outcome

/-!
# Decoding encoded programs

A program is a list of instructions, and its code is one encoding after the other.
Reading it instruction by instruction finds exactly the instructions it was made of,
each at the place where its encoding begins: `instruction_of_ahead` for one
instruction, `instructions_of_ahead` for a whole program.
-/

namespace WordMachine

namespace Store

/-- The bytes from the cursor on begin with the given ones. -/
def Ahead (store : Store) (bytes : List UInt8) : Prop :=
  bytes <+: store.toList.drop store.cursor

/-- The store with its cursor `count` bytes further on. -/
def skip (store : Store) (count : Nat) : Store :=
  { store with cursor := store.cursor + count }

@[simp] theorem cursor_skip (store : Store) (count : Nat) :
    (store.skip count).cursor = store.cursor + count := rfl

@[simp] theorem toList_skip (store : Store) (count : Nat) :
    (store.skip count).toList = store.toList := rfl

@[simp] theorem size_skip (store : Store) (count : Nat) :
    (store.skip count).size = store.size := rfl

@[simp] theorem skip_skip (store : Store) (first second : Nat) :
    (store.skip first).skip second = store.skip (first + second) := by
  simp only [skip, Nat.add_assoc]

theorem Ahead.left {store : Store} {first second : List UInt8}
    (ahead : store.Ahead (first ++ second)) : store.Ahead first :=
  (List.prefix_append first second).trans ahead

/-- Behind the first bytes ahead stand the others. -/
theorem Ahead.right {store : Store} {first second : List UInt8}
    (ahead : store.Ahead (first ++ second)) : (store.skip first.length).Ahead second := by
  rcases ahead with ⟨rest, whole⟩
  refine ⟨rest, ?_⟩
  rw [toList_skip, cursor_skip, ← List.drop_drop, ← whole, List.append_assoc,
    List.drop_left]

/-- Bytes ahead, one at least, lie inside the store. -/
theorem Ahead.holds {store : Store} {bytes : List UInt8} (ahead : store.Ahead bytes)
    (nonempty : 0 < bytes.length) : store.Holds store.cursor bytes.length := by
  have shorter := ahead.length_le
  rw [List.length_drop, length_toList] at shorter
  rw [Holds]
  omega

theorem Ahead.slice {store : Store} {bytes : List UInt8} (ahead : store.Ahead bytes) :
    store.slice bytes.length store.cursor = bytes :=
  (List.prefix_iff_eq_take.mp ahead).symm

/-- Reading finds the number whose bytes are ahead. -/
theorem read_of_ahead {store : Store} {width value : Nat} (nonempty : 0 < width)
    (fits : value < 256 ^ width) (ahead : store.Ahead (LittleEndian.encode width value)) :
    read width store = .ok value (store.skip width) := by
  have inside := ahead.holds (by rwa [LittleEndian.length_encode])
  have found := ahead.slice
  rw [LittleEndian.length_encode] at inside found
  rw [read_of_holds inside, found, LittleEndian.decode_encode fits]
  rfl

theorem readByte_of_ahead {store : Store} {byte : UInt8} (ahead : store.Ahead [byte]) :
    readByte store = .ok byte (store.skip 1) := by
  have encoded : [byte] = LittleEndian.encode 1 byte.toNat := by
    simp [LittleEndian.encode]
  have readNumber := read_of_ahead Nat.one_pos byte.toNat_lt (encoded ▸ ahead)
  simp only [readByte, Functor.map, EStateM.map, readNumber, UInt8.ofNat_toNat]

theorem readWord_of_ahead {store : Store} {word : Word}
    (ahead : store.Ahead (LittleEndian.encode 2 word.toNat)) :
    readWord store = .ok word (store.skip 2) := by
  have readNumber := read_of_ahead Nat.two_pos word.toNat_lt ahead
  simp only [readWord, Functor.map, EStateM.map, readNumber, UInt16.ofNat_toNat]

end Store

namespace Argument

/-- Whether the field can be read back: there is one, and a register number fits its
byte. -/
structure Encodable (argument : Argument) : Prop where
  present : argument.mode ≠ .absent
  register : argument.mode.isRegisterField = true → argument.value.toNat < 256

end Argument

namespace Instruction

/-- Whether an instruction has the operands that its opcode calls for, and no others. -/
structure WellFormed (instruction : Instruction) : Prop where
  dst : if instruction.opcode.shape.hasDst then instruction.dst.Encodable
    else instruction.dst.mode = .absent
  src : if instruction.opcode.shape.hasSrc then instruction.src.Encodable
    else instruction.src.mode = .absent
  trailing : instruction.trailing.isSome = instruction.opcode.shape.hasTrailing

/-- The length of the encoding. -/
def size (instruction : Instruction) : Nat := instruction.encode.length

/-- The bytes behind the opcode if `spare` stands in the half of the mode byte that no
operand needs. -/
def encodeOperandsWith (spare : Mode) (instruction : Instruction) : List UInt8 :=
  if instruction.opcode.shape = .bare then
    []
  else
    Mode.pack (if instruction.opcode.shape.hasDst then instruction.dst.mode else spare)
        (if instruction.opcode.shape.hasSrc then instruction.src.mode else spare) ::
      (instruction.dst.encode ++ instruction.src.encode ++ instruction.trailing.toList)

/-- The bytes of an instruction if `spare` stands in the half of the mode byte that no
operand needs. -/
def encodeWith (spare : Mode) (instruction : Instruction) : List UInt8 :=
  instruction.opcode.toByte :: instruction.encodeOperandsWith spare

@[simp] theorem length_encodeWith (spare : Mode) (instruction : Instruction) :
    (instruction.encodeWith spare).length = instruction.size := by
  simp only [encodeWith, encodeOperandsWith, size, encode, encodeOperands, List.length_cons]
  split <;> rfl

/-- An operand that is lacking has the mode of no operand. -/
theorem mode_eq_of_fits {carried : Bool} {argument : Argument}
    (fits : if carried then argument.Encodable else argument.mode = .absent) :
    (if carried then argument.mode else .absent) = argument.mode := by
  cases carried with
  | true => rfl
  | false => exact fits.symm

theorem WellFormed.encodeWith_absent {instruction : Instruction}
    (wellFormed : instruction.WellFormed) :
    instruction.encodeWith .absent = instruction.encode := by
  simp only [encodeWith, encodeOperandsWith, encode, encodeOperands,
    mode_eq_of_fits wellFormed.dst, mode_eq_of_fits wellFormed.src]

/-- The instruction as it is read at a place: the fields of its operands follow the
opcode and the mode byte. -/
def locate (instruction : Instruction) (offset : Nat) : Fetched where
  opcode := instruction.opcode
  offset
  dst :=
    if instruction.opcode.shape.hasDst then some ⟨instruction.dst, offset + 2⟩ else none
  src :=
    if instruction.opcode.shape.hasSrc then
      some ⟨instruction.src, offset + 2 + instruction.dst.mode.width⟩
    else
      none
  trailing := instruction.trailing

theorem dst_of_locate {instruction : Instruction} {offset : Nat} {operand : Operand}
    (carried : (instruction.locate offset).dst = some operand) :
    operand.toArgument = instruction.dst ∧ instruction.opcode.shape.hasDst = true := by
  obtain ⟨takesDst, same⟩ := Option.ite_none_right_eq_some.mp carried
  cases same
  exact ⟨rfl, takesDst⟩

theorem src_of_locate {instruction : Instruction} {offset : Nat} {operand : Operand}
    (carried : (instruction.locate offset).src = some operand) :
    operand.toArgument = instruction.src ∧ instruction.opcode.shape.hasSrc = true := by
  obtain ⟨takesSrc, same⟩ := Option.ite_none_right_eq_some.mp carried
  cases same
  exact ⟨rfl, takesSrc⟩

theorem size_pos (instruction : Instruction) : 0 < instruction.size :=
  Nat.zero_lt_succ _

end Instruction

namespace Fetch

theorem orFault_of_ok {α : Type} {access : Access α} {fault : Fault} {store final : Store}
    {value : α} (outcome : access store = .ok value final) :
    orFault access fault store = .ok value final := by
  simp only [orFault, EStateM.adaptExcept, outcome]

/-- A field is read at the width of its mode. -/
theorem operand_of_ahead {store : Store} {argument : Argument} (offset : Nat)
    (encodable : argument.Encodable) (ahead : store.Ahead argument.encode) :
    operand offset argument.mode store =
      .ok ⟨argument, store.cursor⟩ (store.skip argument.mode.width) := by
  rcases argument with ⟨mode, value⟩
  have place : (get : Fetch Store) store = .ok store store := rfl
  rw [operand, bind_of_ok place]
  cases mode with
  | absent => exact absurd rfl encodable.present
  | register | registerPointer =>
      have small : value.toNat < 256 := encodable.register rfl
      have narrow : store.Ahead [UInt8.ofNat value.toNat] := ahead
      have widened : (UInt8.ofNat value.toNat).toUInt16 = value := by
        apply UInt16.toNat_inj.mp
        simpa using small
      exact (bind_of_ok (orFault_of_ok (Store.readByte_of_ahead narrow))).trans
        (by rw [widened]; rfl)
  | pointer | label | number | global | frame =>
      exact bind_of_ok (orFault_of_ok (Store.readWord_of_ahead ahead))

theorem operandIf_of_ahead {store : Store} {argument : Argument} {carried : Bool} (offset : Nat)
    (spare : Mode) (encodable : if carried then argument.Encodable else argument.mode = .absent)
    (ahead : store.Ahead argument.encode) :
    operandIf carried offset (if carried then argument.mode else spare) store =
      .ok (if carried then some ⟨argument, store.cursor⟩ else none)
        (store.skip argument.mode.width) := by
  cases carried with
  | true =>
      have found := operand_of_ahead offset encodable ahead
      simp only [operandIf, if_true, Functor.map, EStateM.map, found]
  | false =>
      have absent : argument.mode = .absent := encodable
      rw [absent]
      rfl

theorem opcode_of_ahead {store : Store} (offset : Nat) {opcode : Opcode}
    (ahead : store.Ahead [opcode.toByte]) :
    Fetch.opcode offset store = .ok opcode (store.skip 1) := by
  rw [Fetch.opcode, bind_of_ok (orFault_of_ok (Store.readByte_of_ahead ahead)),
    Opcode.ofByte?_toByte]
  rfl

theorem mode_toNibble (mode : Mode) (store : Store) :
    Fetch.mode mode.toNibble store = .ok mode store := by
  rw [Fetch.mode, Mode.ofNibble?_toNibble]
  rfl

/-- The trailing byte is read where the shape has one. -/
theorem trailing_of_ahead {α : Type} {store : Store} {carried : Bool} {trailing : Option UInt8}
    {next : Option UInt8 → Fetch α} (fault : Fault) (present : trailing.isSome = carried)
    (ahead : store.Ahead trailing.toList) :
    (if carried then some <$> orFault Store.readByte fault >>= next else pure none >>= next)
        store =
      next trailing (store.skip trailing.toList.length) := by
  subst present
  cases trailing with
  | none => rfl
  | some byte =>
      have found : orFault Store.readByte fault store = .ok byte (store.skip 1) :=
        orFault_of_ok (Store.readByte_of_ahead ahead)
      rw [Option.isSome_some, if_pos rfl]
      apply bind_of_ok
      simp only [Functor.map, EStateM.map, found]
      rfl

/-- Reading an instruction gives it back, located where it stands, and leaves the cursor
behind it, whatever mode stands for the operand that it lacks. -/
theorem instruction_of_encodeWith {store : Store} {instruction : Instruction} {spare : Mode}
    (wellFormed : instruction.WellFormed) (ahead : store.Ahead (instruction.encodeWith spare)) :
    Fetch.instruction store =
      .ok (instruction.locate store.cursor) (store.skip instruction.size) := by
  rcases instruction with ⟨opcode, dst, src, trailing⟩
  rcases wellFormed with ⟨dstFits, srcFits, trailingFits⟩
  simp only at dstFits srcFits trailingFits
  have place : (get : Fetch Store) store = .ok store store := rfl
  have opcodeAhead : store.Ahead ([opcode.toByte] ++ Instruction.encodeOperandsWith spare _) :=
    ahead
  rw [Fetch.instruction, bind_of_ok place, bind_of_ok (opcode_of_ahead _ opcodeAhead.left)]
  have operandsAhead := opcodeAhead.right
  by_cases bare : opcode.shape = .bare
  · have none : trailing = none := by
      rw [bare] at trailingFits
      simpa [Shape.hasTrailing] using trailingFits
    subst none
    simp only [Instruction.locate, Instruction.size, Instruction.encode,
      Instruction.encodeOperands, bare, Shape.hasDst, Shape.hasSrc]
    rfl
  · rw [Instruction.encodeOperandsWith, if_neg bare] at operandsAhead
    simp only at operandsAhead
    have modesAhead : (store.skip 1).Ahead
        ([Mode.pack (if opcode.shape.hasDst then dst.mode else spare)
            (if opcode.shape.hasSrc then src.mode else spare)] ++
          (dst.encode ++ (src.encode ++ trailing.toList))) := by
      simpa using operandsAhead
    have dstAhead : (store.skip 2).Ahead (dst.encode ++ (src.encode ++ trailing.toList)) :=
      modesAhead.right
    have srcAhead : (store.skip (2 + dst.mode.width)).Ahead
        (src.encode ++ trailing.toList) := by
      simpa using dstAhead.right
    have trailingAhead : (store.skip (2 + dst.mode.width + src.mode.width)).Ahead
        trailing.toList := by
      simpa using srcAhead.right
    have readModes : orFault Store.readByte (.truncatedInstruction store.cursor)
        (store.skip 1) = .ok _ (store.skip 2) :=
      orFault_of_ok (Store.readByte_of_ahead modesAhead.left)
    have readDst := operandIf_of_ahead store.cursor spare dstFits dstAhead.left
    have readSrc := operandIf_of_ahead store.cursor spare srcFits srcAhead.left
    rw [Store.skip_skip] at readDst readSrc
    have length : (Instruction.encode ⟨opcode, dst, src, trailing⟩).length =
        2 + dst.mode.width + src.mode.width + trailing.toList.length := by
      simp only [Instruction.encode, Instruction.encodeOperands, if_neg bare, List.length_cons,
        List.length_append, Argument.length_encode]
      omega
    rw [if_neg bare, bind_of_ok readModes, Mode.nibbles_pack]
    simp only
    rw [bind_of_ok (mode_toNibble _ _), bind_of_ok (mode_toNibble _ _), bind_of_ok readDst,
      bind_of_ok readSrc, trailing_of_ahead _ trailingFits trailingAhead, Store.skip_skip,
      Instruction.size, length]
    simp only [Store.cursor_skip, Instruction.locate, Nat.add_assoc]
    rfl

/-- Reading an encoded instruction gives it back, located where it stands, and leaves
the cursor behind it. -/
theorem instruction_of_ahead {store : Store} {instruction : Instruction}
    (wellFormed : instruction.WellFormed) (ahead : store.Ahead instruction.encode) :
    Fetch.instruction store =
      .ok (instruction.locate store.cursor) (store.skip instruction.size) := by
  rw [← wellFormed.encodeWith_absent] at ahead
  exact instruction_of_encodeWith wellFormed ahead

/-- Reads instruction after instruction up to the end of the store, `count` of them at
most. -/
def instructions : (count : Nat) → Fetch (List Fetched)
  | 0 => return []
  | count + 1 => do
    let store ← get
    if store.cursor < store.size then
      let first ← Fetch.instruction
      let rest ← instructions count
      return first :: rest
    else
      return []

end Fetch

/-- Instructions that stand one behind the other. -/
abbrev Program := List Instruction

namespace Program

/-- The code of a program. -/
def encode (program : Program) : List UInt8 := program.flatMap Instruction.encode

/-- The length of the code. -/
def size (program : Program) : Nat := program.encode.length

/-- The instructions of a program as they are read from `offset` on. -/
def locate : (offset : Nat) → Program → List Fetched
  | _, [] => []
  | offset, instruction :: rest =>
    instruction.locate offset :: locate (offset + instruction.size) rest

/-- Where the instructions of a program begin that stands at `offset`. -/
def starts (offset : Nat) (program : Program) : List Nat :=
  (program.locate offset).map Fetched.offset

@[simp] theorem size_nil : size [] = 0 := rfl

@[simp] theorem size_cons (instruction : Instruction) (rest : Program) :
    size (instruction :: rest) = instruction.size + size rest := by
  simp [size, encode, Instruction.size]

@[simp] theorem size_append (first second : Program) :
    size (first ++ second) = size first + size second := by
  simp [size, encode]

@[simp] theorem encode_cons (instruction : Instruction) (rest : Program) :
    encode (instruction :: rest) = instruction.encode ++ encode rest := rfl

@[simp] theorem encode_append (first second : Program) :
    encode (first ++ second) = encode first ++ encode second := by
  simp [encode]

@[simp] theorem encode_singleton (instruction : Instruction) :
    encode [instruction] = instruction.encode := by
  simp [encode]

/-- Every instruction takes up a byte at least. -/
theorem length_le_size (program : Program) : program.length ≤ program.size := by
  induction program with
  | nil => exact Nat.le_refl 0
  | cons instruction rest ih =>
      have positive := instruction.size_pos
      rw [List.length_cons, size_cons]
      omega

theorem getElem?_locate (program : Program) (offset index : Nat) :
    (program.locate offset)[index]? =
      program[index]?.map fun instruction =>
        instruction.locate (offset + size (program.take index)) := by
  induction program generalizing offset index with
  | nil => rfl
  | cons instruction rest ih =>
      cases index with
      | zero => rfl
      | succ index => simp [locate, ih, Nat.add_assoc]

/-- Behind the front of a program stands the encoding of the next instruction. -/
theorem drop_of_split {front back : Program} {instruction : Instruction} {bytes : List UInt8}
    {offset : Nat} (code : bytes.drop offset = encode (front ++ instruction :: back)) :
    bytes.drop (offset + front.size) = instruction.encode ++ encode back := by
  rw [← List.drop_drop, code, encode_append, encode_cons, size, List.drop_left]

/-- An instruction is located behind the instructions in front of it. -/
theorem getElem?_locate_split (front back : Program) (instruction : Instruction) (offset : Nat) :
    (locate offset (front ++ instruction :: back))[front.length]? =
      some (instruction.locate (offset + front.size)) := by
  rw [getElem?_locate, List.take_left, List.getElem?_append_right (Nat.le_refl _), Nat.sub_self]
  rfl

/-- A program is split at most once behind so many bytes. -/
theorem front_unique {front front' back back' : Program}
    (same : front ++ back = front' ++ back') (size : front.size = front'.size) :
    front = front' ∧ back = back' := by
  have empty {between : Program} (none : between.size = 0) : between = [] := by
    have length := between.length_le_size
    rw [none] at length
    exact List.eq_nil_of_length_eq_zero (Nat.le_zero.mp length)
  rcases List.append_eq_append_iff.mp same with ⟨between, rfl, rfl⟩ | ⟨between, rfl, rfl⟩
  · rw [size_append] at size
    have none : between = [] := empty (by omega)
    rw [none, List.append_nil]
    exact ⟨rfl, rfl⟩
  · rw [size_append] at size
    have none : between = [] := empty (by omega)
    rw [none, List.append_nil]
    exact ⟨rfl, rfl⟩

@[simp] theorem length_locate (program : Program) (offset : Nat) :
    (program.locate offset).length = program.length := by
  induction program generalizing offset with
  | nil => rfl
  | cons instruction rest ih => simp [locate, ih]

/-- A place where an instruction begins splits the program there. -/
theorem mem_starts_iff {program : Program} {offset place : Nat} :
    place ∈ program.starts offset ↔
      ∃ before instruction after,
        program = before ++ instruction :: after ∧ place = offset + size before := by
  induction program generalizing offset with
  | nil => simp [starts, locate]
  | cons head rest ih =>
      have unfolded : starts offset (head :: rest) =
          offset :: starts (offset + head.size) rest := rfl
      rw [unfolded, List.mem_cons, ih]
      constructor
      · intro start
        rcases start with here | ⟨before, instruction, after, split, there⟩
        · exact ⟨[], head, rest, rfl, here⟩
        · refine ⟨head :: before, instruction, after, by rw [split]; rfl, ?_⟩
          rw [there, size_cons, Nat.add_assoc]
      · intro parts
        rcases parts with ⟨before, instruction, after, split, there⟩
        cases before with
        | nil => exact Or.inl there
        | cons first before =>
            obtain ⟨rfl, rfl⟩ := List.cons.inj split
            refine Or.inr ⟨before, instruction, after, rfl, ?_⟩
            rw [there, size_cons, Nat.add_assoc]

end Program

/-- Reading a program instruction by instruction gives every instruction back and ends
exactly at the end of the store. -/
theorem Fetch.instructions_of_ahead {program : Program} {store : Store} {count : Nat}
    (wellFormed : ∀ instruction ∈ program, instruction.WellFormed)
    (rest : store.toList.drop store.cursor = program.encode)
    (inside : store.cursor ≤ store.size) (enough : program.length ≤ count) :
    Fetch.instructions count store =
      .ok (program.locate store.cursor) { store with cursor := store.size } := by
  induction program generalizing store count with
  | nil =>
      have atEnd : store.cursor = store.size := by
        have shorter := congrArg List.length rest
        rw [List.length_drop, Store.length_toList] at shorter
        exact Nat.le_antisymm inside (Nat.sub_eq_zero_iff_le.mp shorter)
      have final : store = { store with cursor := store.size } := by
        rw [← atEnd]
      cases count with
      | zero => exact congrArg _ final
      | succ count =>
          have place : (get : Fetch Store) store = .ok store store := rfl
          rw [Fetch.instructions, bind_of_ok place, if_neg (by omega)]
          exact congrArg _ final
  | cons instruction program ih =>
      have ahead : store.Ahead (instruction.encode ++ Program.encode program) :=
        ⟨[], (List.append_nil _).trans rest.symm⟩
      have holds : (store.skip instruction.size).cursor ≤ (store.skip instruction.size).size :=
        ahead.left.holds instruction.size_pos
      have readFirst := Fetch.instruction_of_ahead
        (wellFormed instruction List.mem_cons_self) ahead.left
      have restBehind : (store.skip instruction.size).toList.drop
          (store.skip instruction.size).cursor = Program.encode program := by
        rw [Store.toList_skip, Store.cursor_skip, ← List.drop_drop, rest, Program.encode_cons]
        exact List.drop_left
      have positive := instruction.size_pos
      cases count with
      | zero => exact absurd enough (Nat.not_succ_le_zero _)
      | succ count =>
          have readRest := ih (fun other member => wellFormed other (List.mem_cons_of_mem _ member))
            restBehind holds (Nat.le_of_succ_le_succ enough)
          have place : (get : Fetch Store) store = .ok store store := rfl
          have more : store.cursor < store.size := by
            rw [Store.cursor_skip, Store.size_skip] at holds
            omega
          rw [Fetch.instructions, bind_of_ok place, if_pos more, bind_of_ok readFirst,
            bind_of_ok readRest]
          rfl

end WordMachine
