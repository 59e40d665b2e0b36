import WordMachine.Proofs.Execution.Budgets

/-!
# Runs leave nothing to later runs

What a machine keeps from earlier runs is the contents of its registers and flags and its
reports; its configuration and the sizes of its banks stay as they were set up
(`Attained.setup`). Registers and flags are cleared, the program counter and the stack
pointer are put to their places and the segment is new, so two machines of one configuration
boot into the same state (`Attained.booted_eq`) and their runs agree.
-/

namespace WordMachine

namespace Registers

@[simp] theorem sizes_set32 (registers : Registers) (index : Nat) (value : UInt32) :
    (registers.set32 index value).sizes = registers.sizes := by
  simp [sizes, set32]

@[simp] theorem sizes_set64 (registers : Registers) (index : Nat) (value : UInt64) :
    (registers.set64 index value).sizes = registers.sizes := by
  simp [sizes, set64]

end Registers

/-- Of a store only the bytes are read for a header. -/
theorem Header.read_congr {image other : Image} (sameBytes : image.bytes = other.bytes) :
    Header.read image = Header.read other := by
  rw [Header.read, Header.read, sameBytes]

/-- Whether two runs end in the same way and leave the same behind: registers, flags, image,
program counter, data and stack pointer. Their chunks may go by different ids. -/
structure Run.Agrees (first second : Run) : Prop where
  outcome : first.outcome = second.outcome
  state : ∃ final, first.Leaves final ∧ second.Leaves final

namespace Machine

section Runs

variable {config : MachineConfig} {machine first second : Machine} {header : Header}
  {image other : Image} {pool granted otherPool otherGranted : Pool}
  {segment otherSegment : PageId} {patience : Nat} {run : Run}

/-- The machines that come from a configuration by runs and by writes to registers. -/
inductive Attained (config : MachineConfig) : Machine → Prop where
  | fresh : Attained config (.ofConfig config)
  | ran {machine : Machine} {patience : Nat} {image : Image} {pool : Pool} {run : Run}
      (earlier : Attained config machine)
      (ran : machine.run patience image pool = some run) : Attained config run.machine
  | set16 {machine : Machine} (earlier : Attained config machine) (index : Nat) (value : Word) :
      Attained config { machine with registers := machine.registers.set16 index value }
  | set32 {machine : Machine} (earlier : Attained config machine) (index : Nat) (value : UInt32) :
      Attained config { machine with registers := machine.registers.set32 index value }
  | set64 {machine : Machine} (earlier : Attained config machine) (index : Nat) (value : UInt64) :
      Attained config { machine with registers := machine.registers.set64 index value }
  | clear {machine : Machine} (earlier : Attained config machine) :
      Attained config { machine with registers := machine.registers.clear }

/-- A run changes nothing of its machine but registers and flags, and reports its fault. -/
theorem run_machine (ran : machine.run patience image pool = some run) :
    ∃ registers flags,
      run.machine = { machine with registers, flags }.reportFault run.outcome := by
  rcases run_refuses_or_concludes ran with ⟨fault, same, -⟩ |
    ⟨header, segment, granted, outcome, final, -, -, same, -⟩
  · rw [same]
    exact ⟨machine.registers, machine.flags, rfl⟩
  · rw [same]
    exact ⟨final.registers, final.flags, rfl⟩

@[simp] theorem config_reportFault (machine : Machine) (outcome : Except Fault Nat) :
    (machine.reportFault outcome).config = machine.config := by
  cases outcome with
  | ok steps => rfl
  | error fault => rfl

/-- A machine stays as it was set up. -/
theorem Attained.setup (attained : Attained config machine) :
    machine.config = config ∧ machine.registers.sizes = (ofConfig config).registers.sizes := by
  induction attained with
  | fresh => exact ⟨rfl, rfl⟩
  | ran earlier ran ih =>
      rcases run_machine ran with ⟨registers, flags, same⟩
      constructor
      · rw [same, config_reportFault]
        exact ih.1
      · exact (run_keepsBounds ran).banks.trans ih.2
  | set16 earlier index value ih => exact ⟨ih.1, (Registers.sizes_set16 ..).trans ih.2⟩
  | set32 earlier index value ih => exact ⟨ih.1, (Registers.sizes_set32 ..).trans ih.2⟩
  | set64 earlier index value ih => exact ⟨ih.1, (Registers.sizes_set64 ..).trans ih.2⟩
  | clear earlier ih => exact ⟨ih.1, (Registers.sizes_clear _).trans ih.2⟩

/-- The state in front of the first instruction depends on the bytes of the image and the
configuration alone. -/
theorem Attained.booted_eq (attained : Attained config first)
    (alsoAttained : Attained config second) (sameBytes : image.bytes = other.bytes) :
    first.booted header image = second.booted header other := by
  have sameSizes := attained.setup.2.trans alsoAttained.setup.2.symm
  simp only [booted, Registers.clear_eq_of_sizes sameSizes, sameBytes]

theorem conclude_agrees (allocated : pool.allocate header.segmentSize = .ok (segment, granted))
    (alsoAllocated : otherPool.allocate header.segmentSize = .ok (otherSegment, otherGranted))
    (outcome : Except Fault Nat) (final : Processor) :
    (first.conclude granted segment outcome final).Agrees
      (second.conclude otherGranted otherSegment outcome final) where
  outcome := rfl
  state := ⟨final, conclude_leaves allocated outcome final,
    conclude_leaves alsoAllocated outcome final⟩

/-- Machines of one configuration that both get their memory run alike. -/
theorem Attained.run_agrees (attained : Attained config first)
    (alsoAttained : Attained config second) (sameBytes : image.bytes = other.bytes)
    (headed : Header.read image = .ok header)
    (allocated : pool.allocate header.segmentSize = .ok (segment, granted))
    (alsoAllocated : otherPool.allocate header.segmentSize = .ok (otherSegment, otherGranted))
    (patience : Nat) :
    Option.Rel Run.Agrees (first.run patience image pool)
      (second.run patience other otherPool) := by
  have alsoHeaded : Header.read other = .ok header := (Header.read_congr sameBytes) ▸ headed
  rw [run_of_allocated headed allocated, run_of_allocated alsoHeaded alsoAllocated,
    attained.setup.1, alsoAttained.setup.1, attained.booted_eq alsoAttained sameBytes]
  cases Processor.runFor header.codeEnd (config.maxSteps.getD patience) 0
      (second.booted header other) with
  | error fault final => exact .some (conclude_agrees allocated alsoAllocated _ final)
  | ok answer final =>
      cases answer with
      | some steps => exact .some (conclude_agrees allocated alsoAllocated _ final)
      | none =>
          cases config.maxSteps with
          | some budget => exact .some (conclude_agrees allocated alsoAllocated _ final)
          | none => exact .none

/-- A run that ends in success reports nothing, and any other reports its fault. -/
theorem run_reports (ran : machine.run patience image pool = some run) :
    run.machine.diagnostics =
      match run.outcome with
      | .ok _ => machine.diagnostics
      | .error fault => machine.diagnostics.report fault.message none := by
  rcases run_machine ran with ⟨registers, flags, same⟩
  rw [same]
  cases run.outcome with
  | ok steps => rfl
  | error fault => rfl

/-- A run depends on nothing but the bytes of the image and the configuration. Take machines
of one configuration, whatever they ran before and was written to their registers, images
of the same bytes, and pools that both have the memory: if one of the runs ends, so does the
other, and however long they are waited for they agree. Whatever the image and the pool, a
run that ends in success reports nothing, and any other reports its fault once, without a
line. -/
theorem runs_leave_nothing :
    (∀ (config : MachineConfig) (first second : Machine) (image other : Image) (header : Header)
        (pool granted otherPool otherGranted : Pool) (segment otherSegment : PageId),
      Attained config first → Attained config second → image.bytes = other.bytes →
      Header.read image = .ok header →
      pool.allocate header.segmentSize = .ok (segment, granted) →
      otherPool.allocate header.segmentSize = .ok (otherSegment, otherGranted) →
      (∀ patience, (first.run patience image pool).isSome =
        (second.run patience other otherPool).isSome) ∧
      ∀ patience otherPatience run otherRun, first.run patience image pool = some run →
        second.run otherPatience other otherPool = some otherRun → run.Agrees otherRun) ∧
    ∀ (machine : Machine) patience image pool run,
      machine.run patience image pool = some run →
      run.machine.diagnostics =
        match run.outcome with
        | .ok _ => machine.diagnostics
        | .error fault => machine.diagnostics.report fault.message none := by
  constructor
  · intro config first second image other header pool granted otherPool otherGranted segment
      otherSegment attained alsoAttained sameBytes headed allocated alsoAllocated
    have agrees := attained.run_agrees alsoAttained sameBytes headed allocated alsoAllocated
    constructor
    · intro patience
      have same := agrees patience
      generalize first.run patience image pool = answer at same ⊢
      generalize second.run patience other otherPool = otherAnswer at same ⊢
      cases same with
      | some together => rfl
      | none => rfl
    · intro patience otherPatience run otherRun ran alsoRan
      have same := agrees patience
      rw [ran] at same
      generalize atOnce : second.run patience other otherPool = answer at same
      cases same with
      | some together =>
          have alsoHeaded : Header.read other = .ok header :=
            (Header.read_congr sameBytes) ▸ headed
          rwa [run_unique alsoHeaded alsoAllocated atOnce alsoRan]
  · intro machine patience image pool run ran
    exact run_reports ran

end Runs

namespace Again

/-- Adds one to a register and puts it on the stack. -/
def image : Image :=
  ⟨#[0x0D, 0xF0, 0x0C, 0xF0, 7, 0, 0, 0, 0, 0, 0, 0, 2, 0, 0, 0, 0, 0, 0, 0,
    2, 0, 0, 0, 0, 0, 0, 0, 4, 1, 0, 0x1E, 0x10, 0, 2], 0⟩

def header : Header := ⟨Header.expectedMagic, 7, 2, 2⟩

def config : MachineConfig := ⟨1, 0, 0, none⟩

/-- A machine with something in its register. -/
def written : Machine :=
  { Machine.ofConfig config with registers := (Machine.ofConfig config).registers.set16 0 5 }

theorem keeps_image : ∀ run ∈ (Machine.ofConfig config).run 2 image (.ofSeed 8 true 1),
    image.bytes = run.image.bytes := by
  decide +kernel

theorem leaves_room {run : Run}
    (ran : (Machine.ofConfig config).run 2 image (.ofSeed 8 true 1) = some run) :
    ∃ segment granted, run.pool.allocate header.segmentSize = .ok (segment, granted) := by
  have room : ∀ run ∈ (Machine.ofConfig config).run 2 image (.ofSeed 8 true 1),
      (run.pool.allocate header.segmentSize).isOk := by
    decide +kernel
  exact Pool.exists_of_allocate_isOk (room run ran)

theorem adds_to_zero : ∀ run ∈ written.run 2 image (.ofSeed 4 true 9),
    run.machine.registers = ⟨#[1], #[], #[]⟩ := by
  decide +kernel

theorem ends : ((Machine.ofConfig config).run 2 image (.ofSeed 8 true 1)).isSome := by
  decide +kernel

theorem ends_written : (written.run 2 image (.ofSeed 4 true 9)).isSome := by
  decide +kernel

theorem allocated : ∃ segment granted,
    (Pool.ofSeed 4 true 9).allocate header.segmentSize = .ok (segment, granted) :=
  Pool.exists_of_allocate_isOk (by decide +kernel)

end Again

/-- A program that is run again on the machine, the image and the pool of an earlier run does
what it does with something in the registers and another pool; a run of nothing reports that
there is no header. -/
theorem reruns_agree :
    (∃ earlier run rerun,
      (Machine.ofConfig Again.config).run 2 Again.image (.ofSeed 8 true 1) = some earlier ∧
      Again.written.run 2 Again.image (.ofSeed 4 true 9) = some run ∧
      earlier.machine.run 2 earlier.image earlier.pool = some rerun ∧
      run.Agrees rerun ∧ rerun.machine.registers = ⟨#[1], #[], #[]⟩) ∧
    ∃ run, Again.written.run 0 ⟨#[], 0⟩ (.ofSeed 8 true 1) = some run ∧
      run.machine.diagnostics = Diagnostics.empty.report Fault.truncatedHeader.message none := by
  rcases runs_leave_nothing with ⟨agree, reports⟩
  constructor
  · rcases Option.isSome_iff_exists.mp Again.ends with ⟨earlier, ranEarlier⟩
    rcases Option.isSome_iff_exists.mp Again.ends_written with ⟨run, ran⟩
    rcases Again.allocated with ⟨segment, granted, allocated⟩
    rcases Again.leaves_room ranEarlier with ⟨again, grantedAgain, allocatedAgain⟩
    rcases agree Again.config Again.written earlier.machine Again.image
        earlier.image Again.header _ granted _ grantedAgain segment again (.set16 .fresh 0 5)
        (.ran .fresh ranEarlier) (Again.keeps_image earlier ranEarlier) rfl allocated
        allocatedAgain with
      ⟨ends, agrees⟩
    rcases Option.isSome_iff_exists.mp ((ends 2).symm.trans Again.ends_written) with ⟨rerun, reran⟩
    have same := agrees 2 2 run rerun ran reran
    rcases same.state with ⟨final, left, leftAgain⟩
    refine ⟨earlier, run, rerun, ranEarlier, ran, reran, same, ?_⟩
    rw [leftAgain.registers, ← left.registers]
    exact Again.adds_to_zero run ran
  · exact ⟨_, rfl, reports Again.written 0 ⟨#[], 0⟩ (.ofSeed 8 true 1) _ rfl⟩

end Machine

end WordMachine
