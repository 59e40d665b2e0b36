import WordMachine.Proofs.Execution.Bounds
import WordMachine.Proofs.Execution.Cycles

/-!
# Runs stay in bounds

Since booting sets the bounds up and every instruction keeps them, they hold in every state
of a run, in the middle of an instruction and behind a fault as well (`Occurs.bounded`), and
in what the run leaves behind (`run_keepsBounds`). The image may hold any bytes and its
header any sizes.
-/

namespace WordMachine

namespace Machine

open Processor

variable {machine : Machine} {header : Header} {image : Image}

/-- The extent of every state of a run. -/
def extent (machine : Machine) (header : Header) (image : Image) : Extent where
  code := image.size
  data := header.segmentSize
  frameBase := header.dataSize.toNat
  banks := machine.registers.sizes

theorem booted_bounded (headed : Header.read image = .ok header) :
    (machine.booted header image).Bounded (machine.extent header image) where
  code := ⟨rfl, Nat.zero_le _, Header.length_le_size headed⟩
  data := ⟨Store.size_zeros _, Nat.le_refl _, frameBase_le_segmentSize header⟩
  frameBase := rfl
  banks := Registers.sizes_clear _

theorem Visits.bounded {state : Processor} (headed : Header.read image = .ok header)
    (visited : Visits machine header image state) :
    state.Bounded (machine.extent header image) := by
  apply visited.keeps
  · intro first booted
    rw [boot_launch headed] at booted
    cases booted
    exact booted_bounded headed
  · intro state next bounded _ executed
    exact (cycle_keeps state bounded).of_ok executed

/-- A fault that stops a program is that of an instruction. -/
theorem Faults.bounded {fault : Fault} {final : Processor}
    (headed : Header.read image = .ok header) (faults : Faults machine header image fault final) :
    fault.OfInstruction ∧ final.Bounded (machine.extent header image) := by
  rcases faults with failed | ⟨state, visited, -, failed⟩
  · rw [boot_launch headed] at failed
    cases failed
  · exact (cycle_keeps state (visited.bounded headed)).of_error failed

/-- The states of a run, also in the middle of an instruction: once it is fetched, once it
has set new flags, and once it has taken a word from the stack. -/
inductive Occurs (machine : Machine) (header : Header) (image : Image) : Processor → Prop where
  | visited {state : Processor} (visited : Visits machine header image state) :
      Occurs machine header image state
  | fetched {state : Processor} {fetched : Fetched} {code : Store}
      (visited : Visits machine header image state) (more : state.code.cursor < header.codeEnd)
      (fetch : Fetch.instruction state.code = .ok fetched code) :
      Occurs machine header image { state with code }
  | flagged {state : Processor} (earlier : Occurs machine header image state) (flags : Flags) :
      Occurs machine header image { state with flags }
  | taken {state : Processor} (earlier : Occurs machine header image state)
      (room : state.frameBase + 2 ≤ state.data.cursor) :
      Occurs machine header image
        { state with data := { state.data with cursor := state.data.cursor - 2 } }
  | faulted {fault : Fault} {final : Processor} (faults : Faults machine header image fault final) :
      Occurs machine header image final

theorem Occurs.bounded {state : Processor} (headed : Header.read image = .ok header)
    (occurs : Occurs machine header image state) :
    state.Bounded (machine.extent header image) := by
  induction occurs with
  | visited visited => exact visited.bounded headed
  | fetched visited more fetch =>
      have bounded := visited.bounded headed
      exact { bounded with code := (Fetch.instruction_keeps _ bounded.code).of_ok fetch }
  | flagged earlier flags ih => exact { ih with }
  | taken earlier room ih =>
      rw [ih.frameBase] at room
      exact { ih with
        data := ⟨ih.data.sized, Nat.le_sub_of_add_le room,
          Nat.le_trans (Nat.sub_le ..) ih.data.below⟩ }
  | faulted faults => exact (faults.bounded headed).2

/-! ## What runs leave behind -/

end Machine

/-- Whether a run left an image of the same length with the program counter inside, banks
of the same sizes, and a segment of the size that the header asks for, the stack pointer
not below the frame base. -/
structure Run.KeepsBounds (machine : Machine) (image : Image) (run : Run) : Prop where
  code : run.image.size = image.size
  counter : image.cursor ≤ image.size → run.image.cursor ≤ image.size
  banks : run.machine.registers.sizes = machine.registers.sizes
  segment : ∀ segment, run.segment = some segment →
    ∃ header data, Header.read image = .ok header ∧ run.pool.store? segment = some data ∧
      data.Between header.dataSize.toNat header.segmentSize

namespace Machine

theorem refuse_keepsBounds (machine : Machine) (image : Image) (pool : Pool) (fault : Fault) :
    (machine.refuse image pool fault).KeepsBounds machine image where
  code := rfl
  counter := id
  banks := rfl
  segment := by
    intro segment drawn
    cases drawn

theorem conclude_keepsBounds {machine : Machine} {header : Header} {image : Image}
    {pool granted : Pool} {segment : PageId} {final : Processor} (outcome : Except Fault Nat)
    (headed : Header.read image = .ok header)
    (allocated : pool.allocate header.segmentSize = .ok (segment, granted))
    (bounded : final.Bounded (machine.extent header image)) :
    (machine.conclude granted segment outcome final).KeepsBounds machine image where
  code := bounded.code.sized
  counter := fun _ => bounded.code.below
  banks := by
    cases outcome with
    | ok steps => exact bounded.banks
    | error fault => exact bounded.banks
  segment := by
    intro other drawn
    cases drawn
    exact ⟨header, final.data, headed, Pool.store?_replace_of_allocate allocated final.data,
      bounded.data⟩

theorem run_keepsBounds {machine : Machine} {image : Image} {pool : Pool} {patience : Nat}
    {result : Run} (ran : machine.run patience image pool = some result) :
    result.KeepsBounds machine image := by
  rcases run_refuses_or_concludes ran with ⟨fault, same, -⟩ |
    ⟨header, segment, granted, outcome, final, headed, allocated, same, concludes⟩
  · rw [same]
    exact refuse_keepsBounds machine image pool fault
  · have bounded : final.Bounded (machine.extent header image) := by
      rcases concludes with ⟨visited, -⟩ | ⟨fault, faults, -⟩
      · exact visited.bounded headed
      · exact (faults.bounded headed).2
    rw [same]
    exact conclude_keepsBounds outcome headed allocated bounded

/-- Whatever an image holds and its header asks for, a run is booted if it got its memory,
every state of it is in bounds, the accesses that rest on the bounds do not fail in any,
and the run leaves everything in bounds. -/
theorem runs_stay_in_bounds (machine : Machine) (image : Image) :
    (∀ header, Header.read image = .ok header →
      Succeeds Processor.boot (machine.launch header image) ∧
        ∀ state, Occurs machine header image state →
          state.Bounded (machine.extent header image) ∧ state.Unfailing) ∧
      ∀ patience pool result, machine.run patience image pool = some result →
        result.KeepsBounds machine image := by
  constructor
  · intro header headed
    constructor
    · exact ⟨(), _, boot_launch headed⟩
    · intro state occurs
      have bounded := occurs.bounded headed
      exact ⟨bounded, bounded.unfailing⟩
  · intro patience pool result ran
    exact run_keepsBounds ran

namespace Overrun

/-- A header that promises more code than there is, a push, and a pop that overwrites the
push. -/
def image : Image :=
  ⟨#[0x0D, 0xF0, 0x0C, 0xF0, 100, 0, 0, 0, 0, 0, 0, 0, 4, 0, 0, 0, 0, 0, 0, 0,
    4, 0, 0, 0, 0, 0, 0, 0, 0x1E, 0x40, 7, 0, 2, 0x1F, 0x03, 28, 0], 0⟩

def header : Header := ⟨Header.expectedMagic, 100, 4, 4⟩

def machine : Machine := .ofConfig ⟨1, 0, 0, none⟩

/-- The processor behind the push. -/
def pushed : Processor where
  registers := ⟨#[0], #[], #[]⟩
  flags := .clear
  code := { image with cursor := 33 }
  data := ⟨#[0, 0, 0, 0, 7, 0, 0, 0], 6⟩
  frameBase := 4

/-- The processor behind the pop, at the end of the image. -/
def overwritten : Processor where
  registers := ⟨#[0], #[], #[]⟩
  flags := .clear
  code :=
    ⟨#[0x0D, 0xF0, 0x0C, 0xF0, 100, 0, 0, 0, 0, 0, 0, 0, 4, 0, 0, 0, 0, 0, 0, 0,
      4, 0, 0, 0, 0, 0, 0, 0, 7, 0, 7, 0, 2, 0x1F, 0x03, 28, 0], 37⟩
  data := ⟨#[0, 0, 0, 0, 7, 0, 0, 0], 4⟩
  frameBase := 4

theorem pushes : Processor.cycle (machine.booted header image) = .ok () pushed := rfl

theorem overwrites : Processor.cycle pushed = .ok () overwritten := rfl

theorem runsOver :
    Processor.cycle overwritten = .error (.truncatedInstruction 37) overwritten := rfl

theorem faults : Faults machine header image (.truncatedInstruction 37) overwritten := by
  have booted : Visits machine header image (machine.booted header image) := .boot rfl
  have visited := (booted.cycle (by decide) pushes).cycle (by decide) overwrites
  exact Or.inr ⟨overwritten, visited, by decide, runsOver⟩

theorem ends : (machine.run 3 image (.ofSeed 8 true 1)).isSome := by
  decide +kernel

end Overrun

/-- A program that overwrites itself and runs into the end of its image stays in bounds. -/
theorem overrun_stays_in_bounds :
    Header.read Overrun.image = .ok Overrun.header ∧
      Faults Overrun.machine Overrun.header Overrun.image (.truncatedInstruction 37)
        Overrun.overwritten ∧
      Overrun.overwritten.Bounded ⟨37, 8, 4, (1, 0, 0)⟩ ∧ Overrun.overwritten.Unfailing ∧
      ∃ result, Overrun.machine.run 3 Overrun.image (.ofSeed 8 true 1) = some result ∧
        result.KeepsBounds Overrun.machine Overrun.image := by
  obtain ⟨states, leaves⟩ := runs_stay_in_bounds Overrun.machine Overrun.image
  obtain ⟨bounded, unfailing⟩ :=
    (states Overrun.header rfl).2 Overrun.overwritten (.faulted Overrun.faults)
  obtain ⟨result, ran⟩ := Option.isSome_iff_exists.mp Overrun.ends
  exact ⟨rfl, Overrun.faults, bounded, unfailing, result, ran, leaves _ _ result ran⟩

end Machine

end WordMachine
