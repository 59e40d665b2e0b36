import WordMachine.Proofs.Pool
import WordMachine.Proofs.Execution.Runs

/-!
# How a run starts

An image that has a header has room for it, so a machine that got its memory is booted
(`boot_launch`), into a state that depends on nothing but the header, the bytes of the image
and the sizes of the register banks. `run_of_allocated` gives a run as what becomes of that
state.
-/

namespace WordMachine

/-- An image with a header is as long as one. -/
theorem Header.length_le_size {image : Image} {header : Header}
    (headed : Header.read image = .ok header) : Header.length ≤ image.size := by
  have ends : Ends Header.fields { image with cursor := 0 }
      (fun _ _ => Header.length ≤ image.size) (fun _ _ => True) := by
    simp only [Header.fields, Store.readDword, Store.readQword, ends_bind, ends_map, ends_pure]
    refine (Store.read_ends 4).mono ?_ fun _ _ _ => trivial
    intro magic first ended
    rcases ended with ⟨-, same⟩
    rw [same]
    refine (Store.read_ends 8).mono ?_ fun _ _ _ => trivial
    intro codeSize second ended
    rcases ended with ⟨-, same⟩
    rw [same]
    refine (Store.read_ends 8).mono ?_ fun _ _ _ => trivial
    intro dataSize third ended
    rcases ended with ⟨-, same⟩
    rw [same]
    refine (Store.read_ends 8).mono ?_ fun _ _ _ => trivial
    intro stackSize fourth ended
    rcases ended with ⟨inside, -⟩
    exact inside
  rw [Header.read] at headed
  cases outcome : Header.fields { image with cursor := 0 } with
  | ok header final => exact ends.of_ok outcome
  | error error final =>
      rw [outcome] at headed
      cases headed

namespace Registers

/-- The sizes of the three banks. -/
def sizes (registers : Registers) : Nat × Nat × Nat :=
  (registers.bank16.size, registers.bank32.size, registers.bank64.size)

@[simp] theorem sizes_set16 (registers : Registers) (index : Nat) (value : Word) :
    (registers.set16 index value).sizes = registers.sizes := by
  simp [sizes, set16]

@[simp] theorem sizes_clear (registers : Registers) :
    registers.clear.sizes = registers.sizes := by
  simp [sizes, clear]

/-- Nothing but the sizes is left of registers that are cleared. -/
theorem clear_eq_of_sizes {first second : Registers} (same : first.sizes = second.sizes) :
    first.clear = second.clear := by
  simp only [sizes, Prod.mk.injEq] at same
  simp only [clear, same]

end Registers

namespace Machine

variable {machine : Machine} {header : Header} {image : Image} {pool granted : Pool}
  {segment : PageId}

/-- The processor in front of the first instruction. -/
def booted (machine : Machine) (header : Header) (image : Image) : Processor where
  registers := machine.registers.clear
  flags := .clear
  code := { image with cursor := Header.length }
  data := { Store.zeros header.segmentSize with cursor := header.dataSize.toNat }
  frameBase := header.dataSize.toNat

theorem boot_launch (headed : Header.read image = .ok header) :
    Processor.boot (machine.launch header image) = .ok () (machine.booted header image) := by
  have ends : Ends Processor.boot (machine.launch header image) _ _ :=
    boot_ends (Header.length_le_size headed)
  cases outcome : Processor.boot (machine.launch header image) with
  | ok value final =>
      rw [ends.of_ok outcome]
      rfl
  | error fault final => exact (ends.of_error outcome).elim

/-- A run of an image without a header changes nothing. -/
theorem run_of_headless {patience : Nat} {fault : Fault}
    (headless : Header.read image = .error fault) :
    machine.run patience image pool = some (machine.refuse image pool fault) := by
  rw [run, headless]

/-- A run that gets no memory changes nothing. -/
theorem run_of_refused {patience : Nat} {cause : Pool.Refusal}
    (headed : Header.read image = .ok header)
    (refused : pool.allocate header.segmentSize = .error cause) :
    machine.run patience image pool =
      some (machine.refuse image pool (.allocationRefused cause)) := by
  rw [run, headed]
  simp only [Pool.grant_of_refused refused]

/-- A run that gets its memory executes instructions from the booted state on. -/
theorem run_of_allocated {patience : Nat} (headed : Header.read image = .ok header)
    (allocated : pool.allocate header.segmentSize = .ok (segment, granted)) :
    machine.run patience image pool =
      match Processor.runFor header.codeEnd (machine.config.maxSteps.getD patience) 0
          (machine.booted header image) with
      | .ok (some steps) final => some (machine.conclude granted segment (.ok steps) final)
      | .error fault final => some (machine.conclude granted segment (.error fault) final)
      | .ok none final =>
        machine.config.maxSteps.map fun budget =>
          machine.conclude granted segment (.error (.budgetExhausted budget)) final := by
  have begun : program header.codeEnd (machine.config.maxSteps.getD patience)
      (machine.launch header image) =
        Processor.runFor header.codeEnd (machine.config.maxSteps.getD patience) 0
          (machine.booted header image) :=
    bind_of_ok (boot_launch headed)
  rw [run, headed]
  simp only [Pool.allocate_eq_ok_iff.mp allocated]
  rw [launch] at begun
  generalize Processor.runFor header.codeEnd (machine.config.maxSteps.getD patience) 0
    (machine.booted header image) = answer at begun ⊢
  cases answer with
  | ok count final =>
      cases count with
      | some steps => simp only [begun]
      | none => simp only [begun]
  | error fault final => simp only [begun]

end Machine

end WordMachine
