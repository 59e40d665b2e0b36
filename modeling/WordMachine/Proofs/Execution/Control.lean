import WordMachine.Proofs.Assembly.Assembled
import WordMachine.Proofs.Execution.Runs

/-!
# Assembled programs stay on their instructions

A program that writes no code and jumps to labels only is executed as it was assembled:
whenever an instruction is fetched, the image holds the bytes of the assembler and the
program counter stands where an instruction begins (`Visits.intact`). No run therefore
ends in a fault of decoding or control (`Faults.intact`).
-/

namespace WordMachine

namespace Assembly

/-- Whether an instruction does not write to a label, and jumps to one if it jumps. -/
def Symbolic.Disciplined (symbolic : Symbolic) : Prop :=
  (symbolic.opcode.writesDst symbolic.src.mode = true → symbolic.dst.mode ≠ .label) ∧
    (symbolic.opcode.isJump = true → symbolic.dst.mode = .label)

instance (symbolic : Symbolic) : Decidable symbolic.Disciplined :=
  inferInstanceAs (Decidable (_ ∧ _))

/-- The same for an entry of a listing. -/
def Item.Disciplined : Item → Prop
  | .label _ => True
  | .code symbolic => symbolic.Disciplined

instance : (item : Item) → Decidable item.Disciplined
  | .label _ => .isTrue trivial
  | .code symbolic => inferInstanceAs (Decidable symbolic.Disciplined)

/-- Whether no instruction of a source writes to a label, and every jump has one. -/
def Source.Disciplined (source : Source) : Prop :=
  ∀ listing ∈ Listing.ofStatements? source.statements,
    ∀ item ∈ listing.items, item.Disciplined

instance (source : Source) : Decidable source.Disciplined :=
  inferInstanceAs (Decidable (∀ listing ∈ Listing.ofStatements? source.statements,
    ∀ item ∈ listing.items, item.Disciplined))

namespace Assembled

variable {source : Source} {listing : Listing} {header : Header} {image : Image}

/-- A place where an instruction begins, or the end of the image. -/
def Boundary (listing : Listing) (image : Image) (place : Nat) : Prop :=
  place ∈ listing.program.starts Header.length ∨ place = image.size

/-- A label that an operand names is declared, and stands at a boundary. -/
theorem label_boundary (assembled : Assembled source listing header image) {name : Token}
    (sound : (Term.label name).Sound (.ofStatements source.statements)) :
    Boundary listing image (UInt16.ofNat (listing.address name)).toNat := by
  rcases sound with ⟨index, place, -⟩
  obtain ⟨inside, here, -⟩ := List.idxOf?_eq_some_iff.mp place
  apply assembled.address_boundary
  rw [assembled.labelNames, ← here]
  exact List.getElem_mem inside

theorem writesDst_of_locate {symbolic : Symbolic} {address : Token → Word} {offset : Nat}
    (writes : ((symbolic.resolve address).locate offset).writesDst = true) :
    symbolic.opcode.writesDst symbolic.src.mode = true := by
  obtain ⟨opcode, dst, src, trailing⟩ := symbolic
  cases opcode with
  | addrof =>
      rw [← Term.mode_resolve src address]
      exact writes
  | _ => exact writes

/-- The jumps of a disciplined program lead to boundaries. -/
theorem target_boundary (assembled : Assembled source listing header image)
    {symbolic : Symbolic} (member : Item.code symbolic ∈ listing.items)
    (disciplined : symbolic.Disciplined) {offset : Nat} {operand : Operand}
    (jumps : symbolic.opcode.isJump = true)
    (carried : ((symbolic.resolve fun name =>
      UInt16.ofNat (listing.address name)).locate offset).dst = some operand) :
    operand.mode = .label ∧ Boundary listing image operand.value.toNat := by
  obtain ⟨same, takesDst⟩ := Instruction.dst_of_locate carried
  have sound := (assembled.sound symbolic member).of_hasDst takesDst
  have label := disciplined.2 jumps
  have resolved : operand.toArgument =
      symbolic.dst.resolve fun name => UInt16.ofNat (listing.address name) := same
  rw [resolved]
  cases term : symbolic.dst with
  | label name =>
      rw [term] at sound
      exact ⟨rfl, assembled.label_boundary sound.1⟩
  | plain argument =>
      rw [term] at sound label
      exact absurd label sound.1.1

theorem Boundary.le_size (assembled : Assembled source listing header image) {place : Nat}
    (boundary : Boundary listing image place) : place ≤ image.size := by
  rcases boundary with start | atEnd
  · obtain ⟨before, instruction, after, split, there⟩ := Program.mem_starts_iff.mp start
    rw [assembled.size, there, split, Program.size_append]
    omega
  · exact Nat.le_of_eq atEnd

/-- An instruction of a disciplined program can be executed wherever it stands. -/
theorem tame (assembled : Assembled source listing header image) {symbolic : Symbolic}
    (member : Item.code symbolic ∈ listing.items) (disciplined : symbolic.Disciplined)
    (offset : Nat) :
    ((symbolic.resolve fun name => UInt16.ofNat (listing.address name)).locate offset).Tame
      image.size := by
  have sound := assembled.sound symbolic member
  constructor
  · intro takesDst
    exact ⟨_, if_pos takesDst, ((sound.of_hasDst takesDst).1.encodable _).present⟩
  · intro takesSrc
    exact ⟨_, if_pos takesSrc, ((sound.of_hasSrc takesSrc).encodable _).present⟩
  · intro takesTrailing none
    have trailing : symbolic.trailing.isSome = true := sound.trailing.trans takesTrailing
    have absent : symbolic.trailing = .none := none
    rw [absent] at trailing
    cases trailing
  · exact sound.pushSize
  · intro writesDst operand carried
    obtain ⟨same, takesDst⟩ := Instruction.dst_of_locate carried
    obtain ⟨dst, noNumber⟩ := sound.of_hasDst takesDst
    have mode : operand.mode = symbolic.dst.mode := by
      rw [same]
      exact Term.mode_resolve _ _
    constructor
    · rw [same]
      exact (dst.encodable _).present
    · rw [mode]
      exact disciplined.1 (writesDst_of_locate writesDst)
    · rw [mode]
      exact noNumber
  · intro jumps operand carried
    obtain ⟨label, boundary⟩ := assembled.target_boundary member disciplined jumps carried
    exact ⟨label, boundary.le_size assembled⟩

/-- The instruction at a place where one begins, and that the next place is a boundary
again. -/
theorem split_at_start (assembled : Assembled source listing header image) {place : Nat}
    (start : place ∈ listing.program.starts Header.length) :
    ∃ symbolic, Item.code symbolic ∈ listing.items ∧
      (∃ rest, image.toList.drop place =
        (symbolic.resolve fun name => UInt16.ofNat (listing.address name)).encode ++ rest) ∧
      Boundary listing image (place + symbolic.size) := by
  obtain ⟨before, instruction, after, split, there⟩ := Program.mem_starts_iff.mp start
  have member : instruction ∈ listing.program := by
    rw [split]
    exact List.mem_append_right _ List.mem_cons_self
  obtain ⟨item, itemMember, resolved⟩ := List.mem_filterMap.mp member
  cases item with
  | label name => cases resolved
  | code symbolic =>
      cases resolved
      refine ⟨symbolic, itemMember, ⟨Program.encode after, ?_⟩, ?_⟩
      · rw [there]
        exact Program.drop_of_split (by rw [assembled.drop_header, split])
      · have next : place + symbolic.size = Header.length +
            Program.size (before ++ [symbolic.resolve fun name =>
              UInt16.ofNat (listing.address name)]) := by
          rw [there, Program.size_append, Program.size_cons, Symbolic.size_resolve,
            Program.size_nil]
          omega
        rw [next]
        cases after with
        | nil =>
            right
            rw [assembled.size, split]
        | cons following rest =>
            left
            refine Program.mem_starts_iff.mpr ⟨_, following, rest, ?_, rfl⟩
            rw [split, List.append_assoc]
            rfl

/-- The first instruction begins behind the header. -/
theorem header_boundary (assembled : Assembled source listing header image) :
    Boundary listing image Header.length := by
  rw [Boundary, assembled.size]
  cases program : listing.program with
  | nil => exact Or.inr rfl
  | cons first rest => exact Or.inl (Program.mem_starts_iff.mpr ⟨[], first, rest, rfl, rfl⟩)

end Assembled

end Assembly

open Assembly Assembled

namespace Processor

/-- Whether the code is that of an image, and the program counter at a boundary. -/
structure Intact (listing : Listing) (image : Image) (state : Processor) : Prop where
  bytes : state.code.bytes = image.bytes
  counter : Boundary listing image state.code.cursor

variable {source : Source} {listing : Listing} {header : Header} {image : Image}
  {state : Processor}

/-- In front of the end of an intact image an instruction of the program is fetched. -/
theorem Intact.fetch (intact : state.Intact listing image)
    (assembled : Assembled source listing header image)
    (more : state.code.cursor < header.codeEnd) :
    ∃ symbolic, Item.code symbolic ∈ listing.items ∧
      Fetch.instruction state.code =
        .ok ((symbolic.resolve fun name =>
            UInt16.ofNat (listing.address name)).locate state.code.cursor)
          (state.code.skip symbolic.size) ∧
      Boundary listing image (state.code.cursor + symbolic.size) := by
  have start : state.code.cursor ∈ listing.program.starts Header.length := by
    rcases intact.counter with start | atEnd
    · exact start
    · rw [assembled.codeEnd, atEnd] at more
      exact absurd more (Nat.lt_irrefl _)
  obtain ⟨symbolic, member, ⟨rest, behind⟩, boundary⟩ := assembled.split_at_start start
  refine ⟨symbolic, member, ?_, boundary⟩
  have ahead : state.code.Ahead
      (symbolic.resolve fun name => UInt16.ofNat (listing.address name)).encode := by
    refine ⟨rest, ?_⟩
    rw [Store.toList, intact.bytes, ← behind]
    rfl
  have fetched := Fetch.instruction_of_ahead ((assembled.sound symbolic member).wellFormed _) ahead
  rwa [Symbolic.size_resolve] at fetched

/-- A cycle of a disciplined program keeps the image intact, also when it ends in a
fault, and the fault is one of data or arithmetic. -/
theorem Intact.cycle (intact : state.Intact listing image)
    (assembled : Assembled source listing header image) (disciplined : source.Disciplined)
    (more : state.code.cursor < header.codeEnd) :
    Ends Processor.cycle state (fun _ final => final.Intact listing image)
      (fun fault final => fault.Expected ∧ final.Intact listing image) := by
  obtain ⟨symbolic, member, fetch, boundary⟩ := intact.fetch assembled more
  have discipline : symbolic.Disciplined := disciplined listing assembled.listed _ member
  have size : (state.code.skip symbolic.size).size = image.size := by
    rw [Store.size_skip, Store.size, intact.bytes, Store.size]
  have tame := assembled.tame member discipline state.code.cursor
  rw [← size] at tame
  have keeps (final : Processor)
      (effect : Effect ((symbolic.resolve fun name =>
          UInt16.ofNat (listing.address name)).locate state.code.cursor)
        { state with code := state.code.skip symbolic.size } final) :
      final.Intact listing image := by
    constructor
    · rw [effect.code tame]
      exact intact.bytes
    · rcases effect.counter tame with onward | ⟨jumps, operand, carried, jumped⟩
      · rw [onward]
        exact boundary
      · rw [jumped]
        exact (assembled.target_boundary member discipline jumps carried).2
  apply cycle_ends.mono
  · intro _ final ended
    rcases ended with ⟨fetched, code, outcome, effect⟩
    rw [fetch] at outcome
    cases outcome
    exact keeps final effect
  · intro fault final ended
    rcases ended with ⟨code, outcome, -⟩ | ⟨fetched, code, outcome, expected, effect⟩
    · rw [fetch] at outcome
      cases outcome
    · rw [fetch] at outcome
      cases outcome
      exact ⟨expected tame, keeps final effect⟩

end Processor

namespace Machine

open Processor

variable {source : Source} {listing : Listing} {header : Header} {image : Image}
  {machine : Machine}

/-- Every state of a run of a disciplined program has the image intact. -/
theorem Visits.intact {state : Processor} (visited : Visits machine header image state)
    (assembled : Assembled source listing header image) (disciplined : source.Disciplined) :
    state.Intact listing image := by
  apply visited.keeps
  · intro first booted
    have inside : Header.length ≤ image.size := assembled.header_boundary.le_size assembled
    have ready := (boot_ends inside).of_ok booted
    rw [ready]
    exact ⟨rfl, assembled.header_boundary⟩
  · intro state next intact more executed
    exact (intact.cycle assembled disciplined more).of_ok executed

/-- A fault of a disciplined program is one of data or arithmetic, and leaves the image
intact. -/
theorem Faults.intact {fault : Fault} {final : Processor}
    (faulted : Faults machine header image fault final)
    (assembled : Assembled source listing header image) (disciplined : source.Disciplined) :
    fault.Expected ∧ final.Intact listing image := by
  rcases faulted with failed | ⟨state, visited, more, failed⟩
  · have inside : Header.length ≤ image.size := assembled.header_boundary.le_size assembled
    exact ((boot_ends inside).of_error failed).elim
  · exact ((visited.intact assembled disciplined).cycle assembled disciplined more).of_error failed

/-- What a run of a disciplined program leaves behind. -/
theorem run_intact {patience : Nat} {pool : Pool} {result : Run}
    (headed : Header.read image = .ok header)
    (assembled : Assembled source listing header image) (disciplined : source.Disciplined)
    (ran : machine.run patience image pool = some result) :
    result.image.bytes = image.bytes ∧
      ∀ fault, result.outcome = .error fault → fault.Expected := by
  rcases run_cases headed ran with ⟨cause, refused, same⟩ |
    ⟨final, visited, same, ended⟩ | ⟨fault, final, faulted, same, ended⟩
  · constructor
    · rw [same]
    · intro fault failed
      rw [refused] at failed
      cases failed
      trivial
  · constructor
    · rw [same]
      exact (visited.intact assembled disciplined).bytes
    · intro fault failed
      rcases ended with ⟨steps, returned⟩ | ⟨budget, exhausted⟩
      · rw [returned] at failed
        cases failed
      · rw [exhausted] at failed
        cases failed
        trivial
  · obtain ⟨expected, intact⟩ := faulted.intact assembled disciplined
    constructor
    · rw [same]
      exact intact.bytes
    · intro other failed
      rw [ended] at failed
      cases failed
      exact expected

end Machine

namespace Assembler

/-- A source that assembles, writes to no label and jumps to labels only is executed as
it was assembled. In every state of a run, and in what a fault leaves, the image has its
bytes and the program counter is at an instruction or at the end; and a run ends in no
fault of decoding or control. -/
theorem assembled_runs_intact (assembler : Assembler) {source : Source} {image : Image}
    (steady : source.Steady) (assembled : (assembler.assemble source).outcome = .ok image)
    (disciplined : source.Disciplined) :
    ∃ header decoded, Header.read image = .ok header ∧
      Fetch.instructions image.size { image with cursor := Header.length } =
        .ok decoded { image with cursor := image.size } ∧
      (∀ machine state,
        (Machine.Visits machine header image state ∨
          ∃ fault, Machine.Faults machine header image fault state) →
        state.code.bytes = image.bytes ∧
          (state.code.cursor ∈ decoded.map Fetched.offset ∨
            state.code.cursor = image.size)) ∧
      ∀ (machine : Machine) patience pool result,
        machine.run patience image pool = some result →
        result.image.bytes = image.bytes ∧
          ∀ fault, result.outcome = .error fault → fault.Expected := by
  obtain ⟨listing, header, -, spelled, headed, -⟩ := assembler.assembled_of_ok steady assembled
  refine ⟨header, _, headed, spelled.decodes, ?_, ?_⟩
  · intro machine state reached
    rcases reached with visited | ⟨fault, faulted⟩
    · have intact := visited.intact spelled disciplined
      exact ⟨intact.bytes, intact.counter⟩
    · have intact := (faulted.intact spelled disciplined).2
      exact ⟨intact.bytes, intact.counter⟩
  · intro machine patience pool result ran
    exact Machine.run_intact headed spelled disciplined ran

/-- A loop that counts a register down. -/
theorem countdown_runs_intact :
    ∃ image, (empty.assemble (.ofString "loop: dec reg00\njne loop\n")).outcome = .ok image ∧
      ∀ (machine : Machine) patience pool result,
        machine.run patience image pool = some result →
        result.image.bytes = image.bytes ∧
          ∀ fault, result.outcome = .error fault → fault.Expected := by
  have succeeds :
      (empty.assemble (.ofString "loop: dec reg00\njne loop\n")).outcome.toOption.isSome := by
    decide +kernel
  have disciplined : (Source.ofString "loop: dec reg00\njne loop\n").Disciplined := by
    decide +kernel
  cases outcome : (empty.assemble (.ofString "loop: dec reg00\njne loop\n")).outcome with
  | error error =>
      rw [outcome] at succeeds
      cases succeeds
  | ok image =>
      obtain ⟨header, decoded, -, -, -, runs⟩ :=
        assembled_runs_intact empty (Source.steady_ofString _) outcome disciplined
      exact ⟨image, rfl, runs⟩

end Assembler

end WordMachine
