import WordMachine.Proofs.Execution.BoundedRuns
import WordMachine.Proofs.Execution.Comparison
import WordMachine.Proofs.Execution.Locations

/-!
# Histories

A history lists the instructions that were executed from a state on, each with the processor it
found. It says which words were stored since then: an instruction stores a word where its
destination denotes, unless it has no result or its condition does not hold. Nothing else changes
the bytes of data and code, but for the words that are pushed (`execute_spares`), so a byte of the
code that no instruction of a history has stored is what it was (`History.code_kept`).
-/

namespace WordMachine

open Processor

/-- An instruction that was executed, and the processor that it found. The program counter was
behind the instruction already. -/
structure Executed where
  fetched : Fetched
  before : Processor

namespace Executed

/-- Whether an instruction that depends on a condition found it to hold. -/
def Taken (executed : Executed) : Prop :=
  ∀ relation taken, executed.fetched.opcode.condition? = some (relation, taken) →
    relation.test executed.before.flags = true

theorem Taken.of_unconditional {executed : Executed}
    (unconditional : executed.fetched.opcode.condition? = none) : executed.Taken := by
  intro relation taken condition
  rw [unconditional] at condition
  cases condition

/-- Whether an instruction stored its result at a location. -/
structure StoresAt (executed : Executed) (location : Location) : Prop where
  writes : executed.fetched.writesDst = true
  taken : executed.Taken
  target : ∃ dst, executed.fetched.dst = some dst ∧ executed.before.location? dst = some location

end Executed

namespace Processor

variable {fetched : Fetched} {state before : Processor}

/-- Whether a step that returns changes no bytes but those of the word that the instruction
stores. -/
def Stores (fetched : Fetched) (step : Step Unit) (state : Processor) : Prop :=
  Ends step state (fun _ final => SparesBytes (Executed.StoresAt ⟨fetched, state⟩) state final)
    (fun _ _ => True)

theorem location?_of_alike (alike : Alike fetched state before) (operand : Operand) :
    before.location? operand = state.location? operand := by
  rw [location?, location?, denoted?, denoted?, alike.registers, alike.frameBase]

theorem ends_write_of_stores {operand : Operand} (alike : Alike fetched state before)
    (carried : fetched.dst = some operand) (writes : fetched.writesDst = true)
    (taken : Executed.Taken ⟨fetched, state⟩) (value : Word) :
    Ends (write operand value) before
      (fun _ final => SparesBytes (Executed.StoresAt ⟨fetched, state⟩) state final)
      (fun _ _ => True) := by
  apply (write_stores operand value).mono
  · intro _ final stored
    rcases stored with ⟨location, located, -, rfl⟩
    rw [location?_of_alike alike] at located
    have same : SparesBytes (Executed.StoresAt ⟨fetched, state⟩) state before :=
      .of_same alike.bytes (congrArg Store.bytes alike.code)
    have stores : Executed.StoresAt ⟨fetched, state⟩ location :=
      ⟨writes, taken, operand, carried, located⟩
    exact same.trans (put_spares before stores value).toSparesBytes
  · exact fun _ _ _ => trivial

/-- The same where the destination is looked up first. -/
theorem ends_writeDst_of_stores (alike : Alike fetched state before)
    (writes : fetched.writesDst = true) (taken : Executed.Taken ⟨fetched, state⟩) (value : Word) :
    Ends (dst fetched) before
      (fun operand middle => Ends (write operand value) middle
        (fun _ final => SparesBytes (Executed.StoresAt ⟨fetched, state⟩) state final)
        (fun _ _ => True))
      (fun _ _ => True) := by
  apply dst_ends.mono
  · intro operand middle ended
    rcases ended with ⟨carried, same⟩
    rw [same]
    exact ends_write_of_stores alike carried writes taken value
  · exact fun _ _ _ => trivial

/-! ## Instructions -/

theorem move_spares (writes : fetched.writesDst = true) (taken : Executed.Taken ⟨fetched, state⟩) :
    Stores fetched (move fetched) state := by
  simp only [Stores, move, ends_bind]
  apply ends_readSrc_of_same fun _ => trivial
  intro value
  exact ends_writeDst_of_stores (.refl state) writes taken value

theorem addressOf_spares (addresses : fetched.opcode = .addrof) :
    Stores fetched (addressOf fetched) state := by
  have taken : Executed.Taken ⟨fetched, state⟩ := .of_unconditional (by rw [addresses]; rfl)
  simp only [Stores, addressOf, ends_bind, ends_ite, ends_pure]
  apply src_ends.mono
  · intro operand middle ended
    rcases ended with ⟨carried, same⟩
    rw [same]
    split
    next isGlobal =>
      have writes : fetched.writesDst = true := by
        rw [Fetched.writesDst, Fetched.srcMode, addresses, carried]
        exact decide_eq_true isGlobal
      exact ends_writeDst_of_stores (.refl state) writes taken operand.value
    next => exact .of_same rfl rfl
  · exact fun _ _ _ => trivial

theorem binary_spares (operation : Flags → Word → Word → Word × Flags)
    (writes : fetched.writesDst = true) (taken : Executed.Taken ⟨fetched, state⟩) :
    Stores fetched (binary operation fetched) state := by
  simp only [Stores, binary, withFlags, ends_bind]
  apply ends_readPair_of_same fun _ => trivial
  intro left right _
  rw [ends_modifyGet]
  exact ends_writeDst_of_stores (.of_flags state _) writes taken _

theorem compare_spares (operation : Flags → Word → Word → Word × Flags) :
    Stores fetched (compare operation fetched) state := by
  simp only [Stores, compare, withFlags, ends_bind, discard]
  apply ends_readPair_of_same fun _ => trivial
  intro left right _
  exact .of_same rfl rfl

theorem unary_spares (operation : Flags → Word → Word × Flags)
    (writes : fetched.writesDst = true) (taken : Executed.Taken ⟨fetched, state⟩) :
    Stores fetched (unary operation fetched) state := by
  simp only [Stores, unary, withFlags, ends_bind, ends_modifyGet]
  apply ends_readDst_of_same fun _ => trivial
  intro operand value carried
  exact ends_write_of_stores (.of_flags state _) carried writes taken _

/-- The register of the remainder is no part of data and code. -/
theorem divide_spares (division : Word → Word → Word × Word)
    (writes : fetched.writesDst = true) (taken : Executed.Taken ⟨fetched, state⟩) :
    Stores fetched (divide division fetched) state := by
  simp only [Stores, divide, ends_bind]
  apply ends_readPair_of_same fun _ => trivial
  intro dividend divisor _
  simp only [ends_ite, ends_bind, ends_throw]
  split
  · trivial
  · cases fetched.trailing with
    | none => trivial
    | some register =>
        simp only [ends_bind]
        apply (ends_writeDst_of_stores (.refl state) writes taken _).mono
        · intro operand middle ends
          apply ends.mono
          · exact fun _ _ spares => ⟨spares.data, spares.code⟩
          · exact fun _ _ _ => trivial
        · exact fun _ _ _ => trivial

theorem jump_spares : Stores fetched (jump fetched) state := by
  simp only [Stores, jump, ends_bind]
  apply ends_readDst_of_same fun _ => trivial
  intro operand target _
  rw [ends_onCode, Fetch.orFault, ends_adaptExcept]
  apply (Store.seek_ends target.toNat).mono
  · intro _ code ended
    rw [ended.2]
    exact .of_same rfl rfl
  · exact fun _ _ _ => trivial

theorem whenFlags_spares {test : Flags → Bool} {step : Step Unit}
    (spares : test state.flags = true → Stores fetched step state) :
    Stores fetched (whenFlags test step) state := by
  simp only [Stores, whenFlags, ends_bind, ends_get, ends_ite, ends_pure]
  split
  next passed => exact spares passed
  next => exact .of_same rfl rfl

theorem pop_spares (pops : fetched.opcode = .pop) : Stores fetched (pop fetched) state := by
  have writes : fetched.writesDst = true := by
    rw [Fetched.writesDst, pops]
    rfl
  have taken : Executed.Taken ⟨fetched, state⟩ := .of_unconditional (by rw [pops]; rfl)
  simp only [Stores, pop, ends_bind, ends_get, ends_ite, ends_throw]
  split
  · apply (load_ends _).mono
    · intro value middle same
      rw [same, ends_onData]
      apply (Store.seek_ends _).mono
      · intro _ data ended
        rw [ended.2]
        exact ends_writeDst_of_stores (.of_cursor pops state _) writes taken value
      · exact fun _ _ _ => trivial
    · exact fun _ _ _ => trivial
  · trivial

/-- An instruction that is no push changes no bytes but those of the word it stores. -/
theorem execute_spares (noPush : fetched.opcode ≠ .push) :
    Stores fetched (execute fetched) state := by
  rcases fetched with ⟨opcode, offset, dst, src, trailing⟩
  unfold execute
  cases opcode with
  | mov => exact move_spares rfl (.of_unconditional rfl)
  | addrof => exact addressOf_spares rfl
  | add | sub | mul | imul | xor | or | and => exact binary_spares _ rfl (.of_unconditional rfl)
  | tst | cmp => exact compare_spares _
  | div | idiv => exact divide_spares _ rfl (.of_unconditional rfl)
  | inc | dec | neg | not => exact unary_spares _ rfl (.of_unconditional rfl)
  | jmp => exact jump_spares
  | je | jne | jg | jge | jl | jle => exact whenFlags_spares fun _ => jump_spares
  | cmove | cmovne | cmovg | cmovge | cmovl | cmovle =>
      apply whenFlags_spares
      intro passed
      apply move_spares rfl
      intro relation taken condition
      cases condition
      exact passed
  | push => exact absurd rfl noPush
  | pop => exact pop_spares rfl
  | nop => exact SparesBytes.of_same rfl rfl

/-- A push changes no code. -/
theorem execute_push_code (pushes : fetched.opcode = .push) :
    Ends (execute fetched) state (fun _ final => final.code = state.code) (fun _ _ => True) := by
  have executes : execute fetched = push fetched := by rw [execute, pushes]
  rw [executes]
  apply (push_ends pushes).mono
  · intro _ final ended
    rcases ended with ⟨_, _, _, -, -, -, -, rfl⟩
    rfl
  · exact fun _ _ _ => trivial

end Processor

/-! ## From one state to another -/

/-- The instructions executed from one state to another, each in front of the end of the code. -/
inductive History (codeEnd : Nat) (start : Processor) : List Executed → Processor → Prop where
  | none : History codeEnd start [] start
  | next {past : List Executed} {state final : Processor} {fetched : Fetched} {code : Store}
      (earlier : History codeEnd start past state) (more : state.code.cursor < codeEnd)
      (fetch : Fetch.instruction state.code = .ok fetched code)
      (executed : execute fetched { state with code } = .ok () final) :
      History codeEnd start (past ++ [⟨fetched, { state with code }⟩]) final

namespace History

variable {codeEnd : Nat} {start state : Processor} {past : List Executed}

theorem cycle_of_fetch {final : Processor} {fetched : Fetched} {code : Store}
    (fetch : Fetch.instruction state.code = .ok fetched code)
    (executed : execute fetched { state with code } = .ok () final) :
    cycle state = .ok () final := by
  have found : onCode Fetch.instruction state = .ok fetched { state with code } := by
    simp only [onCode, fetch]
  rw [cycle, bind_of_ok found, executed]

theorem fetch_of_cycle {final : Processor} (executed : cycle state = .ok () final) :
    ∃ fetched code, Fetch.instruction state.code = .ok fetched code ∧
      execute fetched { state with code } = .ok () final := by
  rcases bind_eq_ok_iff.mp executed with ⟨fetched, middle, found, executed⟩
  rw [onCode] at found
  cases fetch : Fetch.instruction state.code with
  | ok found' code =>
      simp only [fetch] at found
      cases found
      exact ⟨fetched, code, rfl, executed⟩
  | error fault code =>
      simp only [fetch] at found
      cases found

/-- A history is a count of instructions that also says which they were. -/
theorem cycles (history : History codeEnd start past state) :
    Cycles codeEnd past.length start state := by
  induction history with
  | none => exact .none
  | next _ more fetch executed ih =>
      rw [List.length_append]
      exact ih.snoc more (cycle_of_fetch fetch executed)

/-- Fetching moves the program counter and nothing else. -/
theorem bytes_of_fetch {store code : Store} {fetched : Fetched}
    (fetch : Fetch.instruction store = .ok fetched code) : code.bytes = store.bytes := by
  have found : Ends Fetch.instruction store _ _ := Fetch.instruction_found
  rcases found.of_ok fetch with ⟨_, _, -, -, -, same⟩
  rw [same]
  rfl

/-- A byte of the code that no instruction has stored is what it was. -/
theorem code_kept (history : History codeEnd start past state) {place : Nat}
    (unstored : ∀ executed ∈ past, ∀ offset, executed.StoresAt (.code offset) →
      place < offset ∨ offset + 2 ≤ place) :
    state.code.bytes[place]? = start.code.bytes[place]? := by
  induction history with
  | none => rfl
  | @next past state final fetched code earlier _ fetch executed ih =>
      have before := ih fun executed member => unstored executed (List.mem_append_left _ member)
      have here := unstored _ (List.mem_append_right _ (List.mem_singleton_self _))
      rw [← before, ← bytes_of_fetch fetch]
      by_cases push : fetched.opcode = .push
      · rw [(execute_push_code push).of_ok executed]
      · exact ((execute_spares push).of_ok executed).code place here

end History

/-- The states of a run are those with a history since the machine was booted. -/
theorem Machine.visits_iff_history {machine : Machine} {header : Header} {image : Image}
    (headed : Header.read image = .ok header) {state : Processor} :
    Visits machine header image state ↔
      ∃ past, History header.codeEnd (machine.booted header image) past state := by
  constructor
  · intro visited
    induction visited with
    | boot booted =>
        rw [boot_launch headed] at booted
        cases booted
        exact ⟨[], .none⟩
    | cycle earlier more executed ih =>
        rcases ih with ⟨past, history⟩
        rcases History.fetch_of_cycle executed with ⟨fetched, code, fetch, executed⟩
        exact ⟨_, history.next more fetch executed⟩
  · rintro ⟨past, history⟩
    exact visits_of_cycles headed history.cycles

end WordMachine
