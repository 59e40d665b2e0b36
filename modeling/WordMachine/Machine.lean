import WordMachine.Diagnostics
import WordMachine.Processor
import WordMachine.Image

/-!
# The machine

A machine keeps its registers, its flags and its reports from run to run. A run
takes an image and a pool, draws a chunk for data and stack from the pool, and
executes the image until the end of its code, a fault, or the end of the budget.
The image may be changed by its own code; the chunk stays allocated.
-/

namespace WordMachine

/-- How a machine is set up. -/
structure MachineConfig where
  registers16 : Nat
  registers32 : Nat
  registers64 : Nat
  /-- Instructions to execute before giving up; without a budget a run goes on until
  the code ends. A budget that a counter of sixty-four bits can reach is meant. -/
  maxSteps : Option Nat
  deriving DecidableEq, Repr

namespace MachineConfig

/-- Every register there can be, and no budget. -/
def full : MachineConfig := ⟨Registers.max16, Registers.max32, Registers.max64, none⟩

end MachineConfig

/-- A machine between two runs. -/
structure Machine where
  config : MachineConfig
  registers : Registers
  flags : Flags
  diagnostics : Diagnostics
  deriving DecidableEq, Repr

/-- Everything a run leaves behind. -/
structure Run where
  /-- The number of instructions executed, or the fault that stopped the run. Runs of 2^64
  instructions or more, where a counter of sixty-four bits would stop, are left aside. -/
  outcome : Except Fault Nat
  machine : Machine
  image : Image
  pool : Pool
  /-- The chunk drawn for data and stack, if the run came that far. -/
  segment : Option PageId

namespace Machine

/-- A machine that has not run yet. -/
def ofConfig (config : MachineConfig) : Machine where
  config
  registers := .ofSizes config.registers16 config.registers32 config.registers64
  flags := .clear
  diagnostics := .empty

/-- Reports a fault; a run without one is not reported. -/
def reportFault (machine : Machine) (outcome : Except Fault Nat) : Machine :=
  match outcome with
  | .ok _ => machine
  | .error fault =>
    { machine with diagnostics := machine.diagnostics.report fault.message none }

/-- A run that ends before anything is touched. -/
def refuse (machine : Machine) (image : Image) (pool : Pool) (fault : Fault) : Run where
  outcome := .error fault
  machine := machine.reportFault (.error fault)
  image
  pool
  segment := none

/-- A run that came to its end, whichever it was, in a state of the processor. -/
def conclude (machine : Machine) (pool : Pool) (segment : PageId)
    (outcome : Except Fault Nat) (processor : Processor) : Run where
  outcome
  machine :=
    { machine with registers := processor.registers, flags := processor.flags }.reportFault outcome
  image := processor.code
  pool := pool.replace segment processor.data
  segment := some segment

/-- Executes a program from its start, for `allowance` instructions at most. -/
def program (codeEnd allowance : Nat) : Step (Option Nat) := do
  Processor.boot
  Processor.runFor codeEnd allowance 0

/-- Runs an image. Without a budget in the configuration, `patience` is the number
of instructions after which a run that is still going is given up without an
answer. -/
def run (patience : Nat) (machine : Machine) (image : Image) (pool : Pool) : Option Run :=
  match Header.read image with
  | .error fault => some (machine.refuse image pool fault)
  | .ok header =>
    match Pool.grant header.segmentSize pool with
    | .error cause pool => some (machine.refuse image pool (.allocationRefused cause))
    | .ok segment pool =>
      let start : Processor :=
        { registers := machine.registers
          flags := machine.flags
          code := image
          data := .zeros header.segmentSize
          frameBase := header.dataSize.toNat }
      let allowance := machine.config.maxSteps.getD patience
      match program header.codeEnd allowance start with
      | .ok (some steps) processor => some (machine.conclude pool segment (.ok steps) processor)
      | .error fault processor => some (machine.conclude pool segment (.error fault) processor)
      | .ok none processor =>
        machine.config.maxSteps.map fun budget =>
          machine.conclude pool segment (.error (.budgetExhausted budget)) processor

end Machine

end WordMachine
