import WordMachine.Proofs.Execution.BoundedRuns

/-!
# Budgets only cut runs short

A run either comes to an `Ending` within its budget, and then every larger budget gives that
run as well, or it is cut short in front of another instruction, in a state from which every
larger budget goes on (`completes_or_cutShort`). A run without a budget has the ending that
any sufficient budget shows (`ends_iff_budget_suffices`, `run_of_sufficient`).
-/

namespace WordMachine

/-- The machine with another budget, or with none. -/
def Machine.withBudget (machine : Machine) (budget : Option Nat) : Machine :=
  { machine with config := { machine.config with maxSteps := budget } }

namespace Run

/-- What the run leaves behind, on the machine with another budget. -/
def withBudget (run : Run) (budget : Option Nat) : Run :=
  { run with machine := run.machine.withBudget budget }

/-- Whether a run ended because its budget was used up. -/
def Exhausted (run : Run) : Prop := ∃ budget, run.outcome = .error (.budgetExhausted budget)

instance (run : Run) : Decidable run.Exhausted :=
  decidable_of_iff ((run.outcome matches .error (.budgetExhausted _)) = true) <| by
    rw [Exhausted]
    split
    next budget outcome => simp [outcome]
    next other =>
      simp only [Bool.false_eq_true, false_iff, not_exists]
      exact other

end Run

namespace Machine

open Processor

section Runs

variable {machine : Machine} {header : Header} {image : Image} {pool granted : Pool}
  {segment : PageId} {budget patience : Nat} {run : Run}

@[simp] theorem withBudget_conclude (limit other : Option Nat) (outcome : Except Fault Nat)
    (final : Processor) :
    ((machine.withBudget limit).conclude granted segment outcome final).withBudget other =
      (machine.withBudget other).conclude granted segment outcome final := by
  cases outcome with
  | ok steps => rfl
  | error fault => rfl

/-- How a run that is not cut short comes to its outcome, and after how many instructions;
one that ends in a fault counts. -/
inductive Ending (codeEnd : Nat) (state : Processor) : Nat → Except Fault Nat → Processor → Prop
  where
  | returned {count : Nat} {final : Processor} (cycles : Cycles codeEnd count state final)
      (atEnd : codeEnd ≤ final.code.cursor) : Ending codeEnd state count (.ok count) final
  | faulted {count : Nat} {middle final : Processor} {fault : Fault}
      (cycles : Cycles codeEnd count state middle) (more : middle.code.cursor < codeEnd)
      (failed : cycle middle = .error fault final) :
      Ending codeEnd state (count + 1) (.error fault) final

/-- Within so many instructions a run comes to an end, or there is more to come. -/
theorem ending_or_more (codeEnd allowance : Nat) (state : Processor) :
    (∃ executed outcome final, executed ≤ allowance ∧
      Ending codeEnd state executed outcome final) ∨
    ∃ final, Cycles codeEnd allowance state final ∧ final.code.cursor < codeEnd := by
  rcases cycles_cases codeEnd allowance state with ⟨count, final, within, cycles, atEnd⟩ |
    ⟨count, middle, fault, final, within, cycles, more, failed⟩ | ⟨final, cycles, more⟩
  · exact Or.inl ⟨count, _, final, within, .returned cycles atEnd⟩
  · exact Or.inl ⟨count + 1, _, final, within, .faulted cycles more failed⟩
  · exact Or.inr ⟨final, cycles, more⟩

/-- A loop that may go on to an ending comes to it. -/
theorem Ending.runFor_eq {codeEnd executed allowance : Nat} {state final : Processor}
    {outcome : Except Fault Nat} (ending : Ending codeEnd state executed outcome final)
    (within : executed ≤ allowance) :
    runFor codeEnd allowance 0 state =
      match outcome with
      | .ok count => .ok (some count) final
      | .error fault => .error fault final := by
  cases ending with
  | returned cycles atEnd =>
      rw [runFor_of_returned cycles atEnd within, Nat.zero_add]
  | faulted cycles more failed => exact runFor_of_faulted cycles more failed within 0

/-- A state has one ending. -/
theorem Ending.unique {codeEnd executed again : Nat} {state final otherFinal : Processor}
    {outcome otherOutcome : Except Fault Nat}
    (ending : Ending codeEnd state executed outcome final)
    (other : Ending codeEnd state again otherOutcome otherFinal) :
    otherOutcome = outcome ∧ otherFinal = final := by
  -- An allowance that is enough for both shows that they are one.
  have agree := (other.runFor_eq (Nat.le_max_right executed again)).symm.trans
    (ending.runFor_eq (Nat.le_max_left executed again))
  cases outcome with
  | ok count =>
      cases otherOutcome with
      | ok otherCount =>
          cases agree
          exact ⟨rfl, rfl⟩
      | error fault => cases agree
  | error fault =>
      cases otherOutcome with
      | ok otherCount => cases agree
      | error otherFault =>
          cases agree
          exact ⟨rfl, rfl⟩

/-- No instruction ends in the fault that stands for a budget. -/
theorem Ending.not_exhausted {executed : Nat} {outcome : Except Fault Nat} {final : Processor}
    (headed : Header.read image = .ok header)
    (ending : Ending header.codeEnd (machine.booted header image) executed outcome final) :
    outcome ≠ .error (.budgetExhausted budget) := by
  intro exhausted
  cases ending with
  | returned cycles atEnd => cases exhausted
  | faulted cycles more failed =>
      cases exhausted
      have visited := visits_of_cycles headed cycles
      exact (Faults.bounded headed (Or.inr ⟨_, visited, more, failed⟩)).1

/-- A run that ends within its budget, in an ending that every larger budget has as well. -/
structure Completes (machine : Machine) (header : Header) (image : Image) (pool : Pool)
    (budget : Nat) (run : Run) (final : Processor) : Prop where
  ending : ∃ executed, executed ≤ budget ∧
    Ending header.codeEnd (machine.booted header image) executed run.outcome final
  unexhausted : ¬ run.Exhausted
  larger : ∀ larger, budget ≤ larger → ∀ patience,
    (machine.withBudget (some larger)).run patience image pool =
      some (run.withBudget (some larger))

/-- A run that has used up its budget with more to come, in a state from which every larger
budget goes on. -/
structure CutShort (machine : Machine) (header : Header) (image : Image)
    (budget : Nat) (run : Run) (final : Processor) : Prop where
  outcome : run.outcome = .error (.budgetExhausted budget)
  cycles : Cycles header.codeEnd budget (machine.booted header image) final
  more : final.code.cursor < header.codeEnd
  larger : ∀ larger, budget ≤ larger →
    runFor header.codeEnd larger 0 (machine.booted header image) =
      runFor header.codeEnd (larger - budget) budget final

section

variable (headed : Header.read image = .ok header)
  (allocated : pool.allocate header.segmentSize = .ok (segment, granted))

include headed allocated

/-- An ending within the allowance is that of the run. -/
theorem run_of_ending {executed : Nat} {outcome : Except Fault Nat} {final : Processor}
    (ending : Ending header.codeEnd (machine.booted header image) executed outcome final)
    (within : executed ≤ machine.config.maxSteps.getD patience) :
    machine.run patience image pool = some (machine.conclude granted segment outcome final) := by
  cases ending with
  | returned cycles atEnd => exact run_of_returned headed allocated cycles atEnd within
  | faulted cycles more failed =>
      exact run_of_faulted headed allocated cycles more failed within

/-- A run whose budget is used up. -/
theorem run_withBudget_of_more {final : Processor}
    (cycles : Cycles header.codeEnd budget (machine.booted header image) final)
    (more : final.code.cursor < header.codeEnd) :
    (machine.withBudget (some budget)).run patience image pool =
      some ((machine.withBudget (some budget)).conclude granted segment
        (.error (.budgetExhausted budget)) final) :=
  run_of_exhausted headed allocated cycles more

/-- A run with a budget completes or is cut short, in either case after no more instructions
than the budget has. -/
theorem completes_or_cutShort (budget patience : Nat) :
    ∃ run final,
      (machine.withBudget (some budget)).run patience image pool = some run ∧ run.Leaves final ∧
        (Completes machine header image pool budget run final ∨
          CutShort machine header image budget run final) := by
  rcases ending_or_more header.codeEnd budget (machine.booted header image) with
    ⟨executed, outcome, final, within, ending⟩ | ⟨final, cycles, more⟩
  · refine ⟨_, final, run_of_ending headed allocated ending within,
      conclude_leaves allocated outcome final, Or.inl ⟨⟨executed, within, ending⟩, ?_, ?_⟩⟩
    · rintro ⟨other, exhausted⟩
      exact ending.not_exhausted headed exhausted
    · intro larger atLeast patience
      rw [withBudget_conclude]
      exact run_of_ending headed allocated ending (Nat.le_trans within atLeast)
  · refine ⟨_, final, run_withBudget_of_more headed allocated cycles more,
      conclude_leaves allocated _ final, Or.inr ⟨rfl, cycles, more, ?_⟩⟩
    intro larger atLeast
    have continued := runFor_of_cycles cycles (larger - budget) 0
    rwa [Nat.add_sub_of_le atLeast, Nat.zero_add] at continued

/-- A run that is not cut short has an ending. -/
theorem ending_of_run (ran : machine.run patience image pool = some run)
    (unexhausted : ¬ run.Exhausted) :
    ∃ executed outcome final,
      Ending header.codeEnd (machine.booted header image) executed outcome final ∧
        run = machine.conclude granted segment outcome final := by
  rcases ending_or_more header.codeEnd (machine.config.maxSteps.getD patience)
      (machine.booted header image) with
    ⟨executed, outcome, final, within, ending⟩ | ⟨final, cycles, more⟩
  · rw [run_of_ending headed allocated ending within] at ran
    exact ⟨executed, outcome, final, ending, (Option.some.inj ran).symm⟩
  · rw [run_of_exhausted headed allocated cycles more] at ran
    rcases Option.map_eq_some_iff.mp ran with ⟨budget, -, concluded⟩
    exact absurd ⟨budget, by rw [← concluded]; rfl⟩ unexhausted

theorem unexhausted_of_unlimited
    (ran : (machine.withBudget none).run patience image pool = some run) : ¬ run.Exhausted := by
  rcases ending_or_more header.codeEnd patience (machine.booted header image) with
    ⟨executed, outcome, final, within, ending⟩ | ⟨final, cycles, more⟩
  · have ended : (machine.withBudget none).run patience image pool =
        some ((machine.withBudget none).conclude granted segment outcome final) :=
      run_of_ending headed allocated ending within
    rw [ended] at ran
    cases ran
    rintro ⟨budget, exhausted⟩
    exact ending.not_exhausted headed exhausted
  · have givenUp : (machine.withBudget none).run patience image pool = none :=
      run_of_exhausted headed allocated cycles more
    rw [givenUp] at ran
    cases ran

/-- A run without a budget ends if and only if some budget suffices. -/
theorem ends_iff_budget_suffices :
    (∃ patience run, (machine.withBudget none).run patience image pool = some run) ↔
      ∃ budget patience run,
        (machine.withBudget (some budget)).run patience image pool = some run ∧
          ¬ run.Exhausted := by
  constructor
  · rintro ⟨patience, run, ran⟩
    have unexhausted := unexhausted_of_unlimited headed allocated ran
    rcases ending_of_run headed allocated ran unexhausted with ⟨executed, outcome, final, ending, -⟩
    refine ⟨executed, 0, _, run_of_ending headed allocated ending (Nat.le_refl executed), ?_⟩
    rintro ⟨budget, exhausted⟩
    exact ending.not_exhausted headed exhausted
  · rintro ⟨budget, patience, run, ran, unexhausted⟩
    rcases ending_of_run headed allocated ran unexhausted with ⟨executed, outcome, final, ending, -⟩
    exact ⟨executed, _, run_of_ending headed allocated ending (Nat.le_refl executed)⟩

/-- A budget that suffices gives the run that there is without one. -/
theorem run_of_sufficient {other : Nat} {cut : Run}
    (ran : (machine.withBudget none).run patience image pool = some run)
    (cutRan : (machine.withBudget (some budget)).run other image pool = some cut)
    (unexhausted : ¬ cut.Exhausted) : cut = run.withBudget (some budget) := by
  rcases ending_of_run headed allocated ran (unexhausted_of_unlimited headed allocated ran) with
    ⟨executed, outcome, final, ending, same⟩
  rcases ending_of_run headed allocated cutRan unexhausted with
    ⟨cutExecuted, cutOutcome, cutFinal, cutEnding, cutSame⟩
  rcases ending.unique cutEnding with ⟨sameOutcome, sameFinal⟩
  rw [cutSame, same, withBudget_conclude, sameOutcome, sameFinal]

/-- A run that ends does so in one way, however long it is waited for. -/
theorem run_unique {later : Nat} {other : Run}
    (ran : machine.run patience image pool = some run)
    (again : machine.run later image pool = some other) : other = run := by
  cases limit : machine.config.maxSteps with
  | some budget =>
      rw [run_of_allocated headed allocated, limit] at ran again
      exact Option.some.inj (again.symm.trans ran)
  | none =>
      have unlimited : machine.withBudget none = machine := by
        rw [withBudget, ← limit]
      rw [← unlimited] at ran again
      rcases ending_of_run headed allocated ran (unexhausted_of_unlimited headed allocated ran) with
        ⟨executed, outcome, final, ending, same⟩
      rcases ending_of_run headed allocated again
          (unexhausted_of_unlimited headed allocated again) with
        ⟨otherExecuted, otherOutcome, otherFinal, otherEnding, otherSame⟩
      rcases ending.unique otherEnding with ⟨sameOutcome, sameFinal⟩
      rw [otherSame, same, sameOutcome, sameFinal]

/-- Budgets do nothing but cut a run short. The loop ends in success in front of an
instruction if and only if the program counter is at the end of the code, whatever budget
is left, so that a budget of as many instructions as a program has suffices. A run
completes within its budget, and then as with every larger one, or it is cut short after
exactly as many instructions, in a state from which every larger budget goes on. Without a
budget a run ends if and only if some budget suffices, and then in the same way. -/
theorem budgets_cut_runs (machine : Machine) :
    (∀ allowance done state,
      runFor header.codeEnd allowance done state = .ok (some done) state ↔
        header.codeEnd ≤ state.code.cursor) ∧
      (∀ count final, Cycles header.codeEnd count (machine.booted header image) final →
        header.codeEnd ≤ final.code.cursor → ∀ patience,
          (machine.withBudget (some count)).run patience image pool =
            some ((machine.withBudget (some count)).conclude granted segment (.ok count) final)) ∧
      (∀ budget patience, ∃ run final,
        (machine.withBudget (some budget)).run patience image pool = some run ∧
          run.Leaves final ∧
          (Completes machine header image pool budget run final ∨
            CutShort machine header image budget run final)) ∧
      ((∃ patience run, (machine.withBudget none).run patience image pool = some run) ↔
        ∃ budget patience run,
          (machine.withBudget (some budget)).run patience image pool = some run ∧
            ¬ run.Exhausted) ∧
      ∀ patience run budget other cut,
        (machine.withBudget none).run patience image pool = some run →
        (machine.withBudget (some budget)).run other image pool = some cut →
        ¬ cut.Exhausted → cut = run.withBudget (some budget) := by
  refine ⟨fun allowance done _ => runFor_returns_iff allowance done, ?_,
    completes_or_cutShort headed allocated, ends_iff_budget_suffices headed allocated, ?_⟩
  · intro count final cycles atEnd patience
    exact run_of_ending headed allocated (.returned cycles atEnd) (Nat.le_refl count)
  · intro patience run budget other cut ran cutRan unexhausted
    exact run_of_sufficient headed allocated ran cutRan unexhausted

end

end Runs

namespace Countdown

/-- Counts a register down from three: seven instructions. -/
def image : Image :=
  ⟨#[0x0D, 0xF0, 0x0C, 0xF0, 12, 0, 0, 0, 0, 0, 0, 0, 0, 0, 0, 0, 0, 0, 0, 0,
    0, 0, 0, 0, 0, 0, 0, 0, 0, 0x41, 0, 3, 0, 5, 1, 0, 0x13, 3, 33, 0], 0⟩

def header : Header := ⟨Header.expectedMagic, 12, 0, 0⟩

def machine : Machine := .ofConfig ⟨1, 0, 0, none⟩

def pool : Pool := .ofSeed 0 true 1

theorem allocated : ∃ segment granted,
    pool.allocate header.segmentSize = .ok (segment, granted) :=
  Pool.exists_of_allocate_isOk (by decide +kernel)

theorem five_too_few :
    ∀ run ∈ (machine.withBudget (some 5)).run 0 image pool, run.Exhausted := by
  decide +kernel

theorem seven_enough :
    ∀ run ∈ (machine.withBudget (some 7)).run 0 image pool, ¬ run.Exhausted := by
  decide +kernel

end Countdown

/-- A budget of five cuts the countdown short, and one of seven lets it complete. -/
theorem countdown_budgets :
    Header.read Countdown.image = .ok Countdown.header ∧
      (∃ segment granted,
        Countdown.pool.allocate Countdown.header.segmentSize = .ok (segment, granted)) ∧
      (∃ run final,
        (Countdown.machine.withBudget (some 5)).run 0 Countdown.image Countdown.pool = some run ∧
          run.Leaves final ∧
          CutShort Countdown.machine Countdown.header Countdown.image 5 run final) ∧
      ∃ run final,
        (Countdown.machine.withBudget (some 7)).run 0 Countdown.image Countdown.pool = some run ∧
          run.Leaves final ∧
          Completes Countdown.machine Countdown.header Countdown.image Countdown.pool 7 run
            final := by
  rcases Countdown.allocated with ⟨segment, granted, allocated⟩
  have headed : Header.read Countdown.image = .ok Countdown.header := rfl
  rcases budgets_cut_runs headed allocated Countdown.machine with ⟨-, -, budgets, -, -⟩
  refine ⟨headed, Countdown.allocated, ?_, ?_⟩
  · rcases budgets 5 0 with ⟨run, final, ran, leaves, completes | cutShort⟩
    · exact absurd (Countdown.five_too_few run ran) completes.unexhausted
    · exact ⟨run, final, ran, leaves, cutShort⟩
  · rcases budgets 7 0 with ⟨run, final, ran, leaves, completes | cutShort⟩
    · exact ⟨run, final, ran, leaves, completes⟩
    · exact absurd ⟨7, cutShort.outcome⟩ (Countdown.seven_enough run ran)

end Machine

end WordMachine
