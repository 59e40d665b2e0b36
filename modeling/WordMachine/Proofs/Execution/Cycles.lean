import WordMachine.Proofs.Execution.Start

/-!
# Counting instructions

`Cycles` relates two states of a run that lie so many instructions apart. It knows nothing
of budgets: these only decide how far the loop goes. `runFor_of_cycles` takes the
instructions that have been executed off the allowance, and so gives the answer of the loop
in each of the three ways it can end; `cycles_cases` says that there are no others.
-/

namespace WordMachine

namespace Processor

variable {codeEnd count allowance : Nat} {state middle final : Processor}

/-- So many instructions executed one behind the other, each in front of the end of the
code. -/
inductive Cycles (codeEnd : Nat) : Nat → Processor → Processor → Prop where
  | none {state : Processor} : Cycles codeEnd 0 state state
  | next {count : Nat} {state middle final : Processor} (more : state.code.cursor < codeEnd)
      (executed : cycle state = .ok () middle) (later : Cycles codeEnd count middle final) :
      Cycles codeEnd (count + 1) state final

theorem Cycles.snoc (cycles : Cycles codeEnd count state middle)
    (more : middle.code.cursor < codeEnd) (executed : cycle middle = .ok () final) :
    Cycles codeEnd (count + 1) state final := by
  induction cycles with
  | none => exact .next more executed .none
  | next more' executed' _ ih => exact .next more' executed' (ih more executed)

/-- What every cycle keeps is kept by any number of them. -/
theorem Cycles.keeps {kept : Processor → Prop} (cycles : Cycles codeEnd count state final)
    (oneCycle : ∀ state next, kept state → state.code.cursor < codeEnd →
      cycle state = .ok () next → kept next)
    (start : kept state) : kept final := by
  induction cycles with
  | none => exact start
  | next more executed _ ih => exact ih (oneCycle _ _ start more executed)

/-- A run that may execute so many instructions comes to the end of the code, faults, or
has executed them all with more to come. -/
theorem cycles_cases (codeEnd allowance : Nat) (state : Processor) :
    (∃ count final, count ≤ allowance ∧ Cycles codeEnd count state final ∧
      codeEnd ≤ final.code.cursor) ∨
    (∃ count middle fault final, count < allowance ∧ Cycles codeEnd count state middle ∧
      middle.code.cursor < codeEnd ∧ cycle middle = .error fault final) ∨
    ∃ final, Cycles codeEnd allowance state final ∧ final.code.cursor < codeEnd := by
  induction allowance generalizing state with
  | zero =>
      rcases Nat.lt_or_ge state.code.cursor codeEnd with more | atEnd
      · exact Or.inr (Or.inr ⟨state, .none, more⟩)
      · exact Or.inl ⟨0, state, Nat.le_refl 0, .none, atEnd⟩
  | succ allowance ih =>
      rcases Nat.lt_or_ge state.code.cursor codeEnd with more | atEnd
      · cases executed : cycle state with
        | error fault final =>
            exact Or.inr (Or.inl
              ⟨0, state, fault, final, Nat.zero_lt_succ _, .none, more, executed⟩)
        | ok value next =>
            rcases ih next with ⟨count, final, within, cycles, atEnd⟩ |
              ⟨count, middle, fault, final, within, cycles, moreLater, failed⟩ |
              ⟨final, cycles, moreLater⟩
            · exact Or.inl ⟨count + 1, final, Nat.succ_le_succ within,
                .next more executed cycles, atEnd⟩
            · exact Or.inr (Or.inl ⟨count + 1, middle, fault, final, Nat.succ_lt_succ within,
                .next more executed cycles, moreLater, failed⟩)
            · exact Or.inr (Or.inr ⟨final, .next more executed cycles, moreLater⟩)
      · exact Or.inl ⟨0, state, Nat.zero_le _, .none, atEnd⟩

/-! ## The loop -/

theorem runFor_of_end (allowance done : Nat) (atEnd : codeEnd ≤ state.code.cursor) :
    runFor codeEnd allowance done state = .ok (some done) state := by
  have notMore : ¬ state.code.cursor < codeEnd := Nat.not_lt.mpr atEnd
  cases allowance with
  | zero =>
      rw [runFor, get_bind, if_neg notMore]
      rfl
  | succ allowance =>
      rw [runFor, get_bind, if_neg notMore]
      rfl

theorem runFor_zero (done : Nat) (more : state.code.cursor < codeEnd) :
    runFor codeEnd 0 done state = .ok none state := by
  rw [runFor, get_bind, if_pos more]
  rfl

theorem runFor_succ (allowance done : Nat) (more : state.code.cursor < codeEnd) :
    runFor codeEnd (allowance + 1) done state =
      (do cycle; runFor codeEnd allowance (done + 1)) state := by
  rw [runFor, get_bind, if_pos more]

/-- Instructions that have been executed are taken off the allowance. -/
theorem runFor_of_cycles (cycles : Cycles codeEnd count state middle) (allowance done : Nat) :
    runFor codeEnd (count + allowance) done state =
      runFor codeEnd allowance (done + count) middle := by
  induction cycles generalizing done with
  | none => rw [Nat.zero_add, Nat.add_zero]
  | next more executed later ih =>
      rw [Nat.add_right_comm, runFor_succ _ _ more, bind_of_ok executed, ih, Nat.add_assoc,
        Nat.add_comm 1]

theorem runFor_of_returned (cycles : Cycles codeEnd count state final)
    (atEnd : codeEnd ≤ final.code.cursor) (within : count ≤ allowance) (done : Nat) :
    runFor codeEnd allowance done state = .ok (some (done + count)) final := by
  rw [← Nat.add_sub_of_le within, runFor_of_cycles cycles, runFor_of_end _ _ atEnd]

theorem runFor_of_faulted {fault : Fault} (cycles : Cycles codeEnd count state middle)
    (more : middle.code.cursor < codeEnd) (failed : cycle middle = .error fault final)
    (within : count < allowance) (done : Nat) :
    runFor codeEnd allowance done state = .error fault final := by
  obtain ⟨left, rfl⟩ := Nat.exists_eq_add_of_lt within
  rw [Nat.add_assoc, runFor_of_cycles cycles, runFor_succ _ _ more]
  simp only [bind, EStateM.bind, failed]

theorem runFor_of_exhausted (cycles : Cycles codeEnd allowance state final)
    (more : final.code.cursor < codeEnd) (done : Nat) :
    runFor codeEnd allowance done state = .ok none final :=
  (runFor_of_cycles cycles 0 done).trans (runFor_zero _ more)

/-- The loop returns without another instruction if and only if the program counter has
come to the end, whatever allowance is left. -/
theorem runFor_returns_iff (allowance done : Nat) :
    runFor codeEnd allowance done state = .ok (some done) state ↔
      codeEnd ≤ state.code.cursor := by
  constructor
  · intro returned
    rcases cycles_cases codeEnd allowance state with ⟨count, final, within, cycles, atEnd⟩ |
      ⟨count, middle, fault, final, within, cycles, more, failed⟩ | ⟨final, cycles, more⟩
    · rw [runFor_of_returned cycles atEnd within] at returned
      cases cycles with
      | none => exact atEnd
      | next => simp at returned
    · rw [runFor_of_faulted cycles more failed within] at returned
      cases returned
    · rw [runFor_of_exhausted cycles more] at returned
      cases returned
  · exact runFor_of_end allowance done

end Processor

/-- Whether a run left a state of the processor. -/
structure Run.Leaves (run : Run) (final : Processor) : Prop where
  registers : run.machine.registers = final.registers
  flags : run.machine.flags = final.flags
  image : run.image = final.code
  data : ∃ segment, run.segment = some segment ∧ run.pool.store? segment = some final.data

namespace Machine

open Processor

variable {machine : Machine} {header : Header} {image : Image} {pool granted : Pool}
  {segment : PageId} {count patience : Nat} {middle final : Processor}

/-- The states of a run are those that lie a number of instructions behind the booted
one. -/
theorem visits_of_cycles (headed : Header.read image = .ok header)
    (cycles : Cycles header.codeEnd count (machine.booted header image) final) :
    Visits machine header image final :=
  cycles.keeps (fun _ _ visited more executed => visited.cycle more executed)
    (.boot (boot_launch headed))

/-! ## Runs that got their memory -/

theorem conclude_leaves (allocated : pool.allocate header.segmentSize = .ok (segment, granted))
    (outcome : Except Fault Nat) (final : Processor) :
    (machine.conclude granted segment outcome final).Leaves final := by
  have data := Pool.store?_replace_of_allocate allocated final.data
  cases outcome with
  | ok steps => exact ⟨rfl, rfl, rfl, segment, rfl, data⟩
  | error fault => exact ⟨rfl, rfl, rfl, segment, rfl, data⟩

/-- How a run that got its memory ends: in a state that it is in between two instructions,
with an answer or because its budget is used up, or where it faults. -/
def Concludes (machine : Machine) (header : Header) (image : Image)
    (outcome : Except Fault Nat) (final : Processor) : Prop :=
  (Visits machine header image final ∧
    ((∃ steps, outcome = .ok steps) ∨ ∃ budget, outcome = .error (.budgetExhausted budget))) ∨
    ∃ fault, Faults machine header image fault final ∧ outcome = .error fault

section

variable (headed : Header.read image = .ok header)
  (allocated : pool.allocate header.segmentSize = .ok (segment, granted))

include headed allocated

theorem run_of_returned
    (cycles : Cycles header.codeEnd count (machine.booted header image) final)
    (atEnd : header.codeEnd ≤ final.code.cursor)
    (within : count ≤ machine.config.maxSteps.getD patience) :
    machine.run patience image pool =
      some (machine.conclude granted segment (.ok count) final) := by
  rw [run_of_allocated headed allocated, runFor_of_returned cycles atEnd within, Nat.zero_add]

theorem run_of_faulted {fault : Fault}
    (cycles : Cycles header.codeEnd count (machine.booted header image) middle)
    (more : middle.code.cursor < header.codeEnd) (failed : cycle middle = .error fault final)
    (within : count < machine.config.maxSteps.getD patience) :
    machine.run patience image pool =
      some (machine.conclude granted segment (.error fault) final) := by
  rw [run_of_allocated headed allocated, runFor_of_faulted cycles more failed within]

theorem run_of_exhausted
    (cycles : Cycles header.codeEnd (machine.config.maxSteps.getD patience)
      (machine.booted header image) final)
    (more : final.code.cursor < header.codeEnd) :
    machine.run patience image pool = machine.config.maxSteps.map fun budget =>
      machine.conclude granted segment (.error (.budgetExhausted budget)) final := by
  rw [run_of_allocated headed allocated, runFor_of_exhausted cycles more]

/-- A run that got its memory leaves a state that it is in between two instructions, or where
it faults. -/
theorem run_conclusion {result : Run} (ran : machine.run patience image pool = some result) :
    ∃ outcome final, result = machine.conclude granted segment outcome final ∧
      Concludes machine header image outcome final := by
  rcases cycles_cases header.codeEnd (machine.config.maxSteps.getD patience)
      (machine.booted header image) with ⟨count, final, within, cycles, atEnd⟩ |
    ⟨count, middle, fault, final, within, cycles, more, failed⟩ | ⟨final, cycles, more⟩
  · rw [run_of_returned headed allocated cycles atEnd within] at ran
    exact ⟨_, final, (Option.some.inj ran).symm,
      Or.inl ⟨visits_of_cycles headed cycles, Or.inl ⟨count, rfl⟩⟩⟩
  · rw [run_of_faulted headed allocated cycles more failed within] at ran
    exact ⟨_, final, (Option.some.inj ran).symm,
      Or.inr ⟨fault, Or.inr ⟨middle, visits_of_cycles headed cycles, more, failed⟩, rfl⟩⟩
  · rw [run_of_exhausted headed allocated cycles more] at ran
    rcases Option.map_eq_some_iff.mp ran with ⟨budget, -, concluded⟩
    exact ⟨_, final, concluded.symm,
      Or.inl ⟨visits_of_cycles headed cycles, Or.inr ⟨budget, rfl⟩⟩⟩

end

/-- A run ends before anything is touched, for want of a header or of memory, or it got its
memory and leaves such a state. -/
theorem run_refuses_or_concludes {result : Run}
    (ran : machine.run patience image pool = some result) :
    (∃ fault, result = machine.refuse image pool fault ∧
        (Header.read image = .error fault ∨ ∃ cause, fault = .allocationRefused cause)) ∨
      ∃ header segment granted outcome final, Header.read image = .ok header ∧
        pool.allocate header.segmentSize = .ok (segment, granted) ∧
        result = machine.conclude granted segment outcome final ∧
        Concludes machine header image outcome final := by
  cases headed : Header.read image with
  | error fault =>
      rw [run_of_headless headed] at ran
      exact Or.inl ⟨fault, (Option.some.inj ran).symm, Or.inl rfl⟩
  | ok header =>
      cases allocated : pool.allocate header.segmentSize with
      | error cause =>
          rw [run_of_refused headed allocated] at ran
          exact Or.inl ⟨_, (Option.some.inj ran).symm, Or.inr ⟨cause, rfl⟩⟩
      | ok answer =>
          rcases run_conclusion headed allocated ran with ⟨outcome, final, same, concludes⟩
          exact Or.inr ⟨header, answer.1, answer.2, outcome, final, rfl, allocated, same,
            concludes⟩

end Machine

end WordMachine
