import WordMachine.Machine
import WordMachine.Proofs.Execution.Effects

/-!
# Runs

The states a run goes through between two instructions, whatever its budget
(`Machine.Visits`), and what a run leaves behind in terms of them (`run_cases`). What the
first state has and every cycle keeps holds in all of them.
-/

namespace WordMachine

namespace Fetch

theorem operandIf_ends {store : Store} (carried : Bool) (offset : Nat) (mode : Mode) :
    Ends (operandIf carried offset mode) store
      (fun operand _ => carried = false → operand = none) (fun _ _ => True) := by
  cases carried with
  | true => exact Ends.of_all (fun _ _ => Bool.noConfusion) fun _ _ => trivial
  | false =>
      intro _
      rfl

/-- Only an instruction whose shape has a destination is fetched with one. -/
theorem instruction_dst (store : Store) :
    Ends Fetch.instruction store
      (fun fetched _ => fetched.opcode.shape.hasDst = false → fetched.dst = none)
      (fun _ _ => True) := by
  have always (error : Fault) (final : Store) : True := trivial
  simp only [Fetch.instruction, ends_bind, ends_get, ends_ite, ends_pure]
  refine Ends.of_all ?_ always
  intro opcode afterOpcode
  split
  · exact fun _ => trivial
  · refine Ends.of_all ?_ always
    intro modes afterModes
    refine Ends.of_all ?_ always
    intro dstMode afterDstMode
    refine Ends.of_all ?_ always
    intro srcMode afterSrcMode
    apply (operandIf_ends opcode.shape.hasDst store.cursor dstMode).mono
    · intro dst afterDst noDst
      refine Ends.of_all ?_ always
      intro src afterSrc
      split
      · exact Ends.of_all (fun _ _ => noDst) always
      · exact noDst
    · exact fun _ _ _ => trivial

end Fetch

namespace Processor

variable {state : Processor}

/-- A cycle fetches an instruction and has its effect, unless nothing can be fetched. -/
theorem cycle_ends :
    Ends cycle state
      (fun _ final => ∃ fetched code, Fetch.instruction state.code = .ok fetched code ∧
        Effect fetched { state with code } final)
      (fun fault final =>
        (∃ code, Fetch.instruction state.code = .error fault code ∧
          final = { state with code }) ∨
        ∃ fetched code, Fetch.instruction state.code = .ok fetched code ∧
          Fails fetched { state with code } fault final) := by
  rw [cycle, ends_bind, ends_onCode]
  have shaped := Fetch.instruction_dst state.code
  cases fetch : Fetch.instruction state.code with
  | error fault code =>
      rw [Ends, fetch]
      exact Or.inl ⟨code, rfl, rfl⟩
  | ok fetched code =>
      have noDst := shaped.of_ok fetch
      rw [Ends, fetch]
      have acts : Acts fetched (execute fetched) { state with code } :=
        execute_acts _ fun push => noDst (by rw [push]; rfl)
      apply acts.mono
      · exact fun _ final effect => ⟨fetched, code, rfl, effect⟩
      · exact fun fault final fails => Or.inr ⟨fetched, code, rfl, fails⟩

/-- What every cycle keeps holds as long as a run goes on; a fault is that of a cycle. -/
theorem runFor_ends {codeEnd : Nat} {kept : Processor → Prop}
    {failed : Fault → Processor → Prop}
    (oneCycle : ∀ state, kept state → state.code.cursor < codeEnd →
      Ends cycle state (fun _ final => kept final) failed)
    (allowance done : Nat) (start : kept state) :
    Ends (runFor codeEnd allowance done) state (fun _ final => kept final) failed := by
  induction allowance generalizing state done with
  | zero =>
      simp only [runFor, ends_bind, ends_get, ends_pure]
      exact start
  | succ allowance ih =>
      simp only [runFor, ends_bind, ends_get, ends_ite, ends_pure]
      split
      next more =>
        apply (oneCycle state start more).mono
        · exact fun _ next keptNext => ih (done + 1) keptNext
        · exact fun _ _ fails => fails
      next => exact start

end Processor

namespace Machine

open Processor

/-- The processor that a run begins with. -/
def launch (machine : Machine) (header : Header) (image : Image) : Processor where
  registers := machine.registers
  flags := machine.flags
  code := image
  data := .zeros header.segmentSize
  frameBase := header.dataSize.toNat

/-- The states that a run is in between two instructions. -/
inductive Visits (machine : Machine) (header : Header) (image : Image) : Processor → Prop where
  | boot {state : Processor} (booted : boot (machine.launch header image) = .ok () state) :
      Visits machine header image state
  | cycle {state next : Processor} (earlier : Visits machine header image state)
      (more : state.code.cursor < header.codeEnd) (executed : cycle state = .ok () next) :
      Visits machine header image next

variable {machine : Machine} {header : Header} {image : Image}

theorem frameBase_le_segmentSize (header : Header) :
    header.dataSize.toNat ≤ header.segmentSize := by
  have small := header.dataSize.toNat_lt
  rw [Header.segmentSize, Header.addSizes, Header.sizeLimit, UInt64.size]
  omega

/-- Booting puts the stack pointer on the frame base and the program counter behind the
header, and can not fail for an image that has one. -/
theorem boot_ends (inside : Header.length ≤ image.size) :
    Ends boot (machine.launch header image)
      (fun _ final => final =
        { registers := machine.registers.clear
          flags := .clear
          code := { image with cursor := Header.length }
          data := { Store.zeros header.segmentSize with cursor := header.dataSize.toNat }
          frameBase := header.dataSize.toNat })
      (fun _ _ => False) := by
  have segment : header.dataSize.toNat ≤ (Store.zeros header.segmentSize).size := by
    rw [Store.size_zeros]
    exact frameBase_le_segmentSize header
  simp only [boot, ends_bind, ends_get, ends_onData, ends_onCode, Fetch.orFault,
    ends_adaptExcept, ends_modify]
  apply (Store.seek_ends header.dataSize.toNat).mono
  · intro _ data ended
    rcases ended with ⟨-, sameData⟩
    apply (Store.seek_ends Header.length).mono
    · intro _ code ended
      rcases ended with ⟨-, sameCode⟩
      rw [sameData, sameCode]
      rfl
    · intro _ _ ended
      rcases ended with ⟨outside, -⟩
      exact outside inside
  · intro _ _ ended
    rcases ended with ⟨outside, -⟩
    exact outside segment

/-- What the first state has and every cycle keeps holds in every state of a run. -/
theorem Visits.keeps {kept : Processor → Prop} {state : Processor}
    (visited : Visits machine header image state)
    (first : ∀ state, Processor.boot (machine.launch header image) = .ok () state → kept state)
    (oneCycle : ∀ state next, kept state → state.code.cursor < header.codeEnd →
      Processor.cycle state = .ok () next → kept next) : kept state := by
  induction visited with
  | boot booted => exact first _ booted
  | cycle earlier more executed ih => exact oneCycle _ _ ih more executed

/-- Where a program faults: when it is booted, or in a state of its run. -/
def Faults (machine : Machine) (header : Header) (image : Image) (fault : Fault)
    (final : Processor) : Prop :=
  boot (machine.launch header image) = .error fault final ∨
    ∃ state, Visits machine header image state ∧ state.code.cursor < header.codeEnd ∧
      Processor.cycle state = .error fault final

/-- A program ends in a state of its run, or where it faults. -/
theorem program_ends (allowance : Nat) :
    Ends (program header.codeEnd allowance) (machine.launch header image)
      (fun _ final => Visits machine header image final) (Faults machine header image) := by
  have oneCycle : ∀ state, Visits machine header image state →
      state.code.cursor < header.codeEnd →
      Ends Processor.cycle state (fun _ final => Visits machine header image final)
        (Faults machine header image) := by
    intro state visited more
    cases executed : Processor.cycle state with
    | ok value next =>
        rw [Ends, executed]
        exact visited.cycle more executed
    | error fault final =>
        rw [Ends, executed]
        exact Or.inr ⟨state, visited, more, executed⟩
  rw [program, ends_bind]
  cases booted : boot (machine.launch header image) with
  | ok value state =>
      rw [Ends, booted]
      exact runFor_ends oneCycle allowance 0 (.boot booted)
  | error fault final =>
      rw [Ends, booted]
      exact Or.inl booted

/-- What a run of an image leaves behind: nothing for want of memory, a state of the run
at the end of the code or of the budget, or what a fault left. -/
theorem run_cases {patience : Nat} {pool : Pool} {result : Run}
    (headed : Header.read image = .ok header)
    (ran : machine.run patience image pool = some result) :
    (∃ cause, result.outcome = .error (.allocationRefused cause) ∧ result.image = image) ∨
      (∃ final, Visits machine header image final ∧ result.image = final.code ∧
        ((∃ steps, result.outcome = .ok steps) ∨
          ∃ budget, result.outcome = .error (.budgetExhausted budget))) ∨
      ∃ fault final, Faults machine header image fault final ∧
        result.image = final.code ∧ result.outcome = .error fault := by
  rw [run, headed] at ran
  cases granted : Pool.grant header.segmentSize pool with
  | error cause later =>
      simp only [granted] at ran
      cases ran
      exact Or.inl ⟨cause, rfl, rfl⟩
  | ok segment later =>
      simp only [granted] at ran
      have ends : Ends _ (machine.launch header image) _ _ :=
        program_ends (machine.config.maxSteps.getD patience)
      cases outcome : program header.codeEnd (machine.config.maxSteps.getD patience)
          (machine.launch header image) with
      | error fault final =>
          rw [Ends, outcome] at ends
          rw [launch] at outcome
          rw [outcome] at ran
          cases ran
          exact Or.inr (Or.inr ⟨fault, final, ends, rfl, rfl⟩)
      | ok answer final =>
          rw [Ends, outcome] at ends
          rw [launch] at outcome
          rw [outcome] at ran
          refine Or.inr (Or.inl ⟨final, ends, ?_⟩)
          cases answer with
          | some steps =>
              cases ran
              exact ⟨rfl, Or.inl ⟨steps, rfl⟩⟩
          | none =>
              obtain ⟨budget, -, concluded⟩ := Option.map_eq_some_iff.mp ran
              rw [← concluded]
              exact ⟨rfl, Or.inr ⟨budget, rfl⟩⟩

end Machine

end WordMachine
