import WordMachine.Proofs.Execution.Histories

/-!
# The stack

A run keeps a list of words in its data, from the frame base up to the stack pointer, as long as
only words are pushed and nothing else is stored in the data: pushing appends the value of the
source to the list and popping takes the last word off it (`History.stacked`). A push overflows
if the list with one more word is longer than the stack that the header asks for, a pop
underflows if the list is empty. Whatever else is pushed or stored, a push leaves alone what is
below the frame base (`execute_push_above`).
-/

namespace WordMachine

/-- The bytes of words, the first one lowest. -/
def wordBytes (words : List Word) : List UInt8 :=
  words.flatMap fun word => LittleEndian.encode 2 word.toNat

@[simp] theorem length_wordBytes (words : List Word) :
    (wordBytes words).length = 2 * words.length := by
  induction words with
  | nil => rfl
  | cons word rest ih =>
      have split : wordBytes (word :: rest) = LittleEndian.encode 2 word.toNat ++ wordBytes rest :=
        rfl
      rw [split, List.length_append, LittleEndian.length_encode, ih, List.length_cons]
      omega

theorem wordBytes_concat (words : List Word) (word : Word) :
    wordBytes (words ++ [word]) = wordBytes words ++ LittleEndian.encode 2 word.toNat := by
  simp [wordBytes]

open Processor

namespace Executed

/-- The value that an instruction reads from its source. -/
def srcValue? (executed : Executed) : Option Word :=
  match executed.fetched.src with
  | none => none
  | some operand =>
    match read operand executed.before with
    | .ok value _ => some value
    | .error _ _ => none

theorem read_of_srcValue? {fetched : Fetched} {state : Processor} {value : Word}
    (source : srcValue? ⟨fetched, state⟩ = some value) :
    ∃ operand, fetched.src = some operand ∧ read operand state = .ok value state := by
  rw [srcValue?] at source
  cases carried : fetched.src with
  | none =>
      rw [carried] at source
      cases source
  | some operand =>
      have reads : Ends (read operand) state _ _ := read_ends operand
      simp only [carried] at source
      cases outcome : read operand state with
      | ok found final =>
          rw [outcome] at source
          cases source
          rw [(reads.of_ok outcome).1] at outcome
          exact ⟨operand, rfl, outcome⟩
      | error fault final =>
          rw [outcome] at source
          cases source

/-- What an instruction makes of a stack of words. -/
def onStack (stack : List Word) (executed : Executed) : List Word :=
  match executed.fetched.opcode with
  | .push => stack ++ executed.srcValue?.toList
  | .pop => stack.dropLast
  | _ => stack

theorem onStack_of_push {executed : Executed} {stack : List Word} {value : Word}
    (pushes : executed.fetched.opcode = .push) (source : executed.srcValue? = some value) :
    executed.onStack stack = stack ++ [value] := by
  simp only [onStack, pushes, source, Option.toList_some]

theorem onStack_of_pop {executed : Executed} {stack : List Word}
    (pops : executed.fetched.opcode = .pop) : executed.onStack stack = stack.dropLast := by
  simp only [onStack, pops]

theorem onStack_of_other {executed : Executed} {stack : List Word}
    (noPush : executed.fetched.opcode ≠ .push) (noPop : executed.fetched.opcode ≠ .pop) :
    executed.onStack stack = stack := by
  rw [onStack]
  split
  next pushes => exact absurd pushes noPush
  next pops => exact absurd pops noPop
  next => rfl

/-- Whether an instruction pushes nothing but a word, and stores nothing in the data. -/
structure Orderly (executed : Executed) : Prop where
  pushesWord : executed.fetched.opcode = .push → executed.fetched.trailing = some 2
  storesNoData : ∀ address, ¬ executed.StoresAt (.data address)

end Executed

/-- The stack of words that instructions leave. -/
def stackOf (past : List Executed) : List Word := past.foldl Executed.onStack []

namespace Processor

variable {fetched : Fetched} {state final : Processor} {stack : List Word} {value top : Word}

/-- Whether the data from the frame base up to the stack pointer are the words of a stack. -/
structure Carries (state : Processor) (stack : List Word) : Prop where
  pointer : state.data.cursor = state.frameBase + 2 * stack.length
  region : state.data.slice (2 * stack.length) state.frameBase = wordBytes stack

/-- The processor with the last word taken off its stack. -/
def lowered (state : Processor) : Processor :=
  { state with data := { state.data with cursor := state.data.cursor - 2 } }

theorem Carries.of_same (carries : state.Carries stack)
    (frameBase : final.frameBase = state.frameBase)
    (pointer : final.data.cursor = state.data.cursor)
    (bytes : ∀ place : Nat, final.data.bytes[place]? = state.data.bytes[place]?) :
    final.Carries stack where
  pointer := by rw [pointer, carries.pointer, frameBase]
  region := by
    rw [frameBase, ← carries.region]
    exact Store.slice_congr fun place _ _ => bytes place

/-- A word that is put behind a stack becomes its last one. -/
theorem Carries.push (carries : state.Carries stack)
    (room : state.data.Holds state.data.cursor 2) (value : Word) :
    (state.stacked 2 value).Carries (stack ++ [value]) where
  pointer := by
    have moved : (state.stacked 2 value).data.cursor = state.data.cursor + 2 := rfl
    rw [moved, carries.pointer, List.length_append, List.length_singleton]
    rfl
  region := by
    have below : (state.stacked 2 value).data.slice (2 * stack.length) state.frameBase =
        state.data.slice (2 * stack.length) state.frameBase := by
      apply Store.slice_congr
      intro place _ below
      rw [← carries.pointer] at below
      exact Store.getElem?_overwrite_of_outside (Or.inl below)
    have above : (state.stacked 2 value).data.slice 2 state.data.cursor =
        LittleEndian.encode 2 value.toNat := by
      have length := LittleEndian.length_encode 2 value.toNat
      have same := Store.slice_overwrite state.data state.data.cursor
        (LittleEndian.encode 2 value.toNat) (by rwa [length])
      rwa [length] at same
    rw [carries.pointer] at above
    rw [List.length_append, List.length_singleton, Nat.mul_add, Store.slice_add, wordBytes_concat]
    exact congrArg₂ _ (below.trans carries.region) above

/-- The last word of a stack is found below the stack pointer, and the others are left when it is
taken. -/
theorem Carries.pop (carries : state.Carries (stack ++ [top]))
    (inside : state.data.cursor ≤ state.data.size) :
    state.lowered.Carries stack ∧ load (state.data.cursor - 2) state = .ok top state := by
  have pointer := carries.pointer
  have region := carries.region
  rw [List.length_append, List.length_singleton, Nat.mul_add, Nat.mul_one] at pointer region
  rw [Store.slice_add, wordBytes_concat] at region
  have slot : state.data.cursor - 2 = state.frameBase + 2 * stack.length := by omega
  have length : (state.data.slice (2 * stack.length) state.frameBase).length =
      (wordBytes stack).length := by
    rw [length_wordBytes]
    apply Store.length_slice
    rw [Store.Holds]
    omega
  obtain ⟨below, above⟩ := List.append_inj region length
  constructor
  · exact ⟨slot, below⟩
  · have holds : state.data.Holds (state.data.cursor - 2) 2 := by
      rw [Store.Holds]
      omega
    rw [load_of_holds holds, slot, above, LittleEndian.decode_encode top.toNat_lt,
      UInt16.ofNat_toNat]

/-! ## Pushing and popping -/

/-- A push of a word is refused if the word does not fit. -/
theorem execute_push {src : Operand} (pushes : fetched.opcode = .push)
    (pushesWord : fetched.trailing = some 2) (carried : fetched.src = some src)
    (reads : read src state = .ok value state) :
    execute fetched state =
      if state.data.Holds state.data.cursor 2 then .ok () (state.stacked 2 value)
      else .error .stackOverflow state := by
  have executes : execute fetched = push fetched := by rw [execute, pushes]
  rw [executes, push, bind_of_ok (src_of_carried carried), bind_of_ok reads]
  have wide : (2 : UInt8) ≠ 1 := by decide
  simp only [pushesWord, or_true, if_true, if_neg wide, get_bind]
  split
  next room =>
    have stored : Store.writeWord value state.data = .ok () (state.stacked 2 value).data :=
      Store.write_of_holds value.toNat room
    simp only [onData, stored]
    exact (if_pos room).symm
  next full => exact (if_neg full).symm

theorem execute_pop_empty (pops : fetched.opcode = .pop) (carries : state.Carries []) :
    execute fetched state = .error .stackUnderflow state := by
  have executes : execute fetched = pop fetched := by rw [execute, pops]
  have pointer : ¬ state.frameBase + 2 ≤ state.data.cursor := by
    rw [carries.pointer, List.length_nil]
    omega
  rw [executes, pop, get_bind]
  simp only [if_neg pointer]
  rfl

/-- A pop writes the last word of a stack to its destination. -/
theorem execute_pop {dst : Operand} (pops : fetched.opcode = .pop)
    (carried : fetched.dst = some dst) (carries : state.Carries (stack ++ [top]))
    (inside : state.data.cursor ≤ state.data.size) :
    execute fetched state = write dst top state.lowered := by
  have executes : execute fetched = pop fetched := by rw [execute, pops]
  have pointer : state.frameBase + 2 ≤ state.data.cursor := by
    rw [carries.pointer, List.length_append, List.length_singleton]
    omega
  rw [executes, pop, get_bind]
  simp only [if_pos pointer]
  have moved : onData .stackUnderflow (Store.seek (state.data.cursor - 2)) state =
      .ok () state.lowered := by
    simp only [onData, Store.seek_of_le (Nat.le_trans (Nat.sub_le ..) inside)]
    rfl
  rw [bind_of_ok (carries.pop inside).2, bind_of_ok moved, bind_of_ok (dst_of_carried carried)]

/-- A push that returns has put its source on the stack. -/
theorem push_of_executed (pushes : fetched.opcode = .push)
    (executed : execute fetched state = .ok () final) :
    ∃ value size, Executed.srcValue? ⟨fetched, state⟩ = some value ∧
      fetched.trailing = some size ∧ state.data.Holds state.data.cursor size.toNat ∧
      final = state.stacked size value := by
  have executes : execute fetched = push fetched := by rw [execute, pushes]
  rw [executes] at executed
  have ends : Ends (push fetched) state _ _ := push_ends pushes
  rcases ends.of_ok executed with ⟨operand, value, size, carried, reads, trailing, room, same⟩
  refine ⟨value, size, ?_, trailing, room, same⟩
  simp only [Executed.srcValue?, carried, reads]

/-- A pop that returns has stored the last word where its destination denotes. -/
theorem pop_of_executed {dst : Operand} (pops : fetched.opcode = .pop)
    (carried : fetched.dst = some dst) (carries : state.Carries (stack ++ [top]))
    (inside : state.data.cursor ≤ state.data.size)
    (executed : execute fetched state = .ok () final) :
    ∃ location, state.location? dst = some location ∧ state.lowered.Accepts location ∧
      final = state.lowered.put location top := by
  rw [execute_pop pops carried carries inside] at executed
  have stores : Ends (write dst top) state.lowered _ _ := write_stores dst top
  exact stores.of_ok executed

theorem Carries.put {location : Location} (carries : state.Carries stack)
    (noData : ∀ address, location ≠ .data address) (value : Word) :
    (state.put location value).Carries stack := by
  cases location with
  | register index => exact ⟨carries.pointer, carries.region⟩
  | data address => exact absurd rfl (noData address)
  | code offset => exact ⟨carries.pointer, carries.region⟩

/-- What pushing a word does to a stack that has so many bytes. -/
structure Pushes (size : Nat) (stack : List Word) (value : Word) (fetched : Fetched)
    (state : Processor) : Prop where
  overflows : size < 2 * (stack.length + 1) →
    execute fetched state = .error .stackOverflow state
  appends : 2 * (stack.length + 1) ≤ size →
    ∃ final, execute fetched state = .ok () final ∧ final.Carries (stack ++ [value])

theorem Carries.pushes {size : Nat} (carries : state.Carries stack)
    (room : state.data.size = state.frameBase + size) (pushes : fetched.opcode = .push)
    (pushesWord : fetched.trailing = some 2)
    (source : Executed.srcValue? ⟨fetched, state⟩ = some value) :
    Pushes size stack value fetched state := by
  rcases Executed.read_of_srcValue? source with ⟨src, carried, reads⟩
  have executes := execute_push pushes pushesWord carried reads
  have fits : state.data.Holds state.data.cursor 2 ↔ 2 * (stack.length + 1) ≤ size := by
    rw [Store.Holds, room, carries.pointer]
    omega
  constructor
  · intro full
    rw [executes, if_neg fun room => Nat.not_le.mpr full (fits.mp room)]
  · intro within
    rw [if_pos (fits.mpr within)] at executes
    exact ⟨_, executes, carries.push (fits.mpr within) value⟩

/-- What popping a word does to a stack: it underflows if it is empty, otherwise its last word is
written where the destination denotes. -/
structure Pops (stack : List Word) (fetched : Fetched) (state : Processor) : Prop where
  underflows : (∃ final, execute fetched state = .error .stackUnderflow final) ↔ stack = []
  takes : ∀ rest top, stack = rest ++ [top] → ∃ dst, fetched.dst = some dst ∧
    execute fetched state = write dst top state.lowered ∧
    ∀ final, execute fetched state = .ok () final →
      ∃ location, state.location? dst = some location ∧
        ((∀ index, location = .register index → index < state.registers.bank16.size) →
          final.wordIn? location = some top) ∧
        ((∀ address, location ≠ .data address) → final.Carries rest)

theorem Carries.pops {dst : Operand} (carries : state.Carries stack)
    (counterInside : state.code.cursor ≤ state.code.size)
    (inside : state.data.cursor ≤ state.data.size) (pops : fetched.opcode = .pop)
    (carried : fetched.dst = some dst) : Pops stack fetched state where
  underflows := by
    constructor
    · rintro ⟨final, underflows⟩
      rcases List.eq_nil_or_concat' stack with empty | ⟨rest, top, rfl⟩
      · exact empty
      · rw [execute_pop pops carried carries inside] at underflows
        have faults : Ends (write dst top) state.lowered _ _ :=
          write_faults (by exact counterInside) dst top
        rcases faults.of_error underflows with ⟨place, code | data | refused⟩
        · cases code
        · cases data
        · cases refused
    · rintro rfl
      exact ⟨state, execute_pop_empty pops carries⟩
  takes := by
    rintro rest top rfl
    refine ⟨dst, carried, execute_pop pops carried carries inside, ?_⟩
    intro final executed
    rcases pop_of_executed pops carried carries inside executed with
      ⟨location, located, accepts, rfl⟩
    exact ⟨location, located, fun inBank => wordIn?_put accepts inBank top,
      fun noData => (carries.pop inside).1.put noData top⟩

/-! ## Runs -/

section Steps

variable (carries : state.Carries stack) (orderly : Executed.Orderly ⟨fetched, state⟩)
  (executed : execute fetched state = .ok () final)

include carries orderly executed

theorem Carries.step_push (pushes : fetched.opcode = .push) :
    final.Carries (Executed.onStack stack ⟨fetched, state⟩) := by
  rcases push_of_executed pushes executed with ⟨value, size, source, trailing, room, rfl⟩
  rw [orderly.pushesWord pushes] at trailing
  cases trailing
  rw [Executed.onStack_of_push pushes source]
  exact carries.push room value

theorem Carries.step_pop {dst : Operand} (inside : state.data.cursor ≤ state.data.size)
    (pops : fetched.opcode = .pop) (carried : fetched.dst = some dst) :
    final.Carries (Executed.onStack stack ⟨fetched, state⟩) := by
  rw [Executed.onStack_of_pop pops]
  rcases List.eq_nil_or_concat' stack with rfl | ⟨rest, top, rfl⟩
  · rw [execute_pop_empty pops carries] at executed
    cases executed
  · rcases pop_of_executed pops carried carries inside executed with ⟨location, located, -, rfl⟩
    rw [List.dropLast_concat]
    apply (carries.pop inside).1.put
    rintro address rfl
    have writes : fetched.writesDst = true := by
      rw [Fetched.writesDst, pops]
      rfl
    have taken : Executed.Taken ⟨fetched, state⟩ := .of_unconditional (by rw [pops]; rfl)
    exact orderly.storesNoData address ⟨writes, taken, dst, carried, located⟩

/-- Any other instruction leaves the data and the stack pointer as they were. -/
theorem Carries.step_other (noPush : fetched.opcode ≠ .push) (noPop : fetched.opcode ≠ .pop) :
    final.Carries (Executed.onStack stack ⟨fetched, state⟩) := by
  have effect := (execute_acts state fun pushes => absurd pushes noPush).of_ok executed
  have spares := (execute_spares noPush).of_ok executed
  rw [Executed.onStack_of_other noPush noPop]
  apply carries.of_same effect.frameBase (effect.stack noPush noPop)
  intro place
  exact spares.data place fun address stores => absurd stores (orderly.storesNoData address)

/-- An instruction that pushes words only, and stores nothing else in the data, does to the data
what it does to the stack of words. -/
theorem Carries.step {store rest : Store} (decoded : Fetch.instruction store = .ok fetched rest)
    (inside : state.data.cursor ≤ state.data.size) :
    final.Carries (Executed.onStack stack ⟨fetched, state⟩) := by
  by_cases pushes : fetched.opcode = .push
  · exact carries.step_push orderly executed pushes
  by_cases pops : fetched.opcode = .pop
  · obtain ⟨dst, carried⟩ := Fetch.dst_of_instruction decoded (by rw [pops]; rfl)
    exact carries.step_pop orderly executed inside pops carried
  · exact carries.step_other orderly executed pushes pops

end Steps

end Processor

section Runs

variable {machine : Machine} {header : Header} {image : Image} {past : List Executed}
  {state : Processor}

/-- In a run that pushes words only, and stores nothing else in the data, the stack is the list of
words that were pushed and not popped. -/
theorem History.carries (headed : Header.read image = .ok header)
    (history : History header.codeEnd (machine.booted header image) past state)
    (orderly : ∀ executed ∈ past, executed.Orderly) : state.Carries (stackOf past) := by
  induction history with
  | none => exact ⟨rfl, rfl⟩
  | @next past state final fetched code earlier _ fetch executed ih =>
      have before := ih fun executed member => orderly executed (List.mem_append_left _ member)
      have bounded := (Machine.visits_of_cycles headed earlier.cycles).bounded headed
      have carries : Processor.Carries { state with code } (stackOf past) :=
        ⟨before.pointer, before.region⟩
      have grown : stackOf (past ++ [⟨fetched, { state with code }⟩]) =
          Executed.onStack (stackOf past) ⟨fetched, { state with code }⟩ := by
        rw [stackOf, List.foldl_append]
        rfl
      rw [grown]
      exact carries.step (orderly _ (List.mem_append_right _ (List.mem_singleton_self _))) executed
        fetch bounded.data.inside

/-- A push changes no data below the frame base, whatever was pushed and stored before. -/
theorem execute_push_above (headed : Header.read image = .ok header)
    (visited : Machine.Visits machine header image state) {fetched : Fetched} {code : Store}
    (fetch : Fetch.instruction state.code = .ok fetched code) (pushes : fetched.opcode = .push) :
    Ends (execute fetched) { state with code }
      (fun _ final => ∀ place, place < header.dataSize.toNat →
        final.data.bytes[place]? = state.data.bytes[place]?)
      (fun _ final => ∀ place, place < header.dataSize.toNat →
        final.data.bytes[place]? = state.data.bytes[place]?) := by
  have bounded := visited.bounded headed
  cases outcome : execute fetched { state with code } with
  | ok _ final =>
      refine .intro_ok outcome ?_
      rcases push_of_executed pushes outcome with ⟨value, size, -, -, -, rfl⟩
      intro place below
      have under : place < state.data.cursor := Nat.lt_of_lt_of_le below bounded.data.above
      exact Store.getElem?_overwrite_of_outside (Or.inl under)
  | error fault final =>
      have counter := (Fetch.instruction_keeps _ bounded.code).of_ok fetch
      obtain ⟨-, same, -⟩ :=
        execute_stores_nothing fetch (by exact counter.inside) (by exact bounded.data.inside)
          outcome
      rw [Ends, outcome]
      intro place _
      rw [same]

/-- In a run that pushes words only, and stores nothing else in the data, the stack is a list of
words between the frame base and the stack pointer. Pushing appends to it, as long as it then
fits into the size that the header asks for, and popping takes off its last word, as long as it
has one. In any run at all, pushing changes no data below the frame base. -/
theorem stack_carries_words (headed : Header.read image = .ok header)
    (history : History header.codeEnd (machine.booted header image) past state) :
    (header.dataSize.toNat + header.stackSize.toNat < 2 ^ 64 →
      (∀ executed ∈ past, executed.Orderly) →
      state.frameBase = header.dataSize.toNat ∧ state.Carries (stackOf past) ∧
      ∀ fetched code, Fetch.instruction state.code = .ok fetched code →
        (fetched.opcode = .push → fetched.trailing = some 2 → ∀ value,
          Executed.srcValue? ⟨fetched, { state with code }⟩ = some value →
          Pushes header.stackSize.toNat (stackOf past) value fetched { state with code }) ∧
        (fetched.opcode = .pop → Pops (stackOf past) fetched { state with code })) ∧
      ∀ fetched code, Fetch.instruction state.code = .ok fetched code → fetched.opcode = .push →
        Ends (execute fetched) { state with code }
          (fun _ final => ∀ place, place < header.dataSize.toNat →
            final.data.bytes[place]? = state.data.bytes[place]?)
          (fun _ final => ∀ place, place < header.dataSize.toNat →
            final.data.bytes[place]? = state.data.bytes[place]?) := by
  have visited := Machine.visits_of_cycles headed history.cycles
  have bounded := visited.bounded headed
  refine ⟨?_, fun fetched code fetch pushes => execute_push_above headed visited fetch pushes⟩
  intro unsaturated orderly
  have carries := history.carries headed orderly
  refine ⟨bounded.frameBase, carries, ?_⟩
  intro fetched code fetch
  have same : Processor.Carries { state with code } (stackOf past) :=
    ⟨carries.pointer, carries.region⟩
  constructor
  · intro pushes pushesWord value source
    apply same.pushes _ pushes pushesWord source
    have segment : header.segmentSize = header.dataSize.toNat + header.stackSize.toNat :=
      Nat.min_eq_left (Nat.le_sub_one_of_lt unsaturated)
    rw [bounded.data.sized, bounded.frameBase]
    exact segment
  · intro pops
    obtain ⟨dst, carried⟩ := Fetch.dst_of_instruction fetch (by rw [pops]; rfl)
    have counter := (Fetch.instruction_keeps _ bounded.code).of_ok fetch
    exact same.pops counter.inside bounded.data.inside pops carried

end Runs

namespace OddStack

/-- Pushes a seven, pops it, pushes a nine, and has no room for an eight: its stack is three bytes
long. -/
def image : Image :=
  ⟨#[0x0D, 0xF0, 0x0C, 0xF0, 18, 0, 0, 0, 0, 0, 0, 0, 1, 0, 0, 0, 0, 0, 0, 0,
    3, 0, 0, 0, 0, 0, 0, 0, 30, 0x40, 7, 0, 2, 31, 1, 0, 30, 0x40, 9, 0, 2, 30, 0x40, 8, 0, 2], 0⟩

def header : Header := ⟨Header.expectedMagic, 18, 1, 3⟩

def machine : Machine := .ofConfig ⟨1, 0, 0, none⟩

/-- The processor with its register, its program counter, the first byte of its stack and its stack
pointer. -/
def processor (register : Word) (counter : Nat) (first : UInt8) (pointer : Nat) : Processor where
  registers := ⟨#[register], #[], #[]⟩
  flags := .clear
  code := { image with cursor := counter }
  data := ⟨#[0, first, 0, 0], pointer⟩
  frameBase := 1

def push (offset : Nat) (value : Word) : Fetched :=
  ⟨.push, offset, none, some ⟨⟨.number, value⟩, offset + 2⟩, some 2⟩

def pop : Fetched := ⟨.pop, 33, some ⟨⟨.register, 0⟩, 35⟩, none, none⟩

def past : List Executed :=
  [⟨push 28 7, processor 0 33 0 1⟩, ⟨pop, processor 0 36 7 3⟩,
    ⟨push 36 9, processor 7 41 7 1⟩]

theorem history :
    History header.codeEnd (machine.booted header image) past (processor 7 41 9 3) := by
  have pushed : History header.codeEnd (machine.booted header image)
      [⟨push 28 7, processor 0 33 0 1⟩] (processor 0 33 7 3) :=
    History.none.next (by decide) rfl rfl
  have popped : History header.codeEnd (machine.booted header image)
      [⟨push 28 7, processor 0 33 0 1⟩, ⟨pop, processor 0 36 7 3⟩] (processor 7 36 7 1) :=
    pushed.next (by decide) rfl rfl
  exact popped.next (by decide) rfl rfl

theorem orderly : ∀ executed ∈ past, executed.Orderly := by
  have pushes (offset : Nat) (value : Word) (before : Processor) :
      Executed.Orderly ⟨push offset value, before⟩ :=
    ⟨fun _ => rfl, fun _ stores => Bool.noConfusion stores.writes⟩
  have pops (before : Processor) : Executed.Orderly ⟨pop, before⟩ := by
    refine ⟨Opcode.noConfusion, ?_⟩
    rintro address ⟨-, -, dst, carried, located⟩
    cases carried
    cases located
  simp only [past, List.mem_cons, List.not_mem_nil, or_false, forall_eq_or_imp, forall_eq]
  exact ⟨pushes 28 7 _, pops _, pushes 36 9 _⟩

end OddStack

open OddStack in
/-- With three bytes for the stack a second word overflows it. -/
theorem odd_stack_overflows :
    Header.read image = .ok header ∧
      History header.codeEnd (machine.booted header image) past (processor 7 41 9 3) ∧
      header.dataSize.toNat + header.stackSize.toNat < 2 ^ 64 ∧
      (∀ executed ∈ past, executed.Orderly) ∧
      (processor 7 41 9 3).Carries [9] ∧
      execute (push 41 8) (processor 7 46 9 3) =
        .error .stackOverflow (processor 7 46 9 3) := by
  have headed : Header.read image = .ok header := rfl
  have unsaturated : header.dataSize.toNat + header.stackSize.toNat < 2 ^ 64 := by decide
  obtain ⟨carried, -⟩ := stack_carries_words headed history
  obtain ⟨-, carries, next⟩ := carried unsaturated orderly
  have left : stackOf past = [9] := rfl
  rw [left] at carries next
  have pushes := (next (push 41 8) { image with cursor := 46 } rfl).1 rfl rfl 8 rfl
  exact ⟨headed, history, unsaturated, orderly, carries, pushes.overflows (by decide)⟩

end WordMachine
