import Mathlib.Algebra.Group.Nat.Defs
import WordMachine.Proofs.Execution.BoundedRuns

/-!
# Runs keep to their own chunk

A run that is refused its start leaves everything as it was, and only there do the faults of
the start arise: what stops a run later on is a fault of an instruction or the budget
(`Concludes.not_ofStart`). A run that starts draws one chunk, which stands behind all others
(`replace_eq_push`), and whatever it executes changes the contents of that chunk alone.
-/

namespace WordMachine

/-- Whether a fault keeps a run from starting: the image has no header, or there is no memory
for its data and its stack. -/
def Fault.OfStart : Fault → Prop
  | .badMagic _ | .truncatedHeader | .allocationRefused _ => True
  | .invalidOpcode _ | .invalidMode _ | .truncatedInstruction _ | .missingOperand _
  | .invalidDestination _ _ | .divisionByZero _ | .stackOverflow | .stackUnderflow
  | .invalidPushSize _ | .dataOutOfBounds _ | .codeOutOfBounds _ | .budgetExhausted _ => False

theorem Fault.OfInstruction.not_ofStart {fault : Fault} (ofInstruction : fault.OfInstruction) :
    ¬ fault.OfStart := by
  cases fault with
  | badMagic | truncatedHeader | allocationRefused => exact ofInstruction.elim
  | invalidOpcode | invalidMode | truncatedInstruction | missingOperand | invalidDestination
  | divisionByZero | stackOverflow | stackUnderflow | invalidPushSize | dataOutOfBounds
  | codeOutOfBounds | budgetExhausted => exact id

/-- An image without a header has another magic number or is too short. -/
theorem Header.ofStart_of_read {image : Image} {fault : Fault}
    (headless : Header.read image = .error fault) : fault.OfStart := by
  rw [Header.read] at headless
  split at headless
  · cases headless
    trivial
  · split at headless
    · cases headless
    · cases headless
      trivial

namespace Pool

variable {pool granted : Pool} {id : PageId} {size : Nat}

/-- A new id is found behind all chunks. -/
theorem position?_push {ids : PageIds} {store : Store} (fresh : id ∉ pool.liveIds) :
    position? { pool with chunks := pool.chunks.push ⟨id, store⟩, ids } id =
      some pool.chunks.toList.length := by
  have others : ∀ chunk ∈ pool.chunks.toList, (chunk.id == id) = false := by
    intro chunk member
    exact beq_eq_false_iff_ne.mpr fun same => fresh (same ▸ List.mem_map_of_mem member)
  rw [position?, ← (pool.chunks.push ⟨id, store⟩).toArray_toList, List.findIdx?_toArray,
    Array.toList_push, List.findIdx?_append, List.findIdx?_eq_none_iff.mpr others]
  simp

/-- Contents given to a chunk that was just handed out change no other chunk. -/
theorem replace_eq_push (allocated : pool.allocate size = .ok (id, granted)) (store : Store) :
    id ∉ pool.liveIds ∧ ∃ ids,
      granted.replace id store = { pool with chunks := pool.chunks.push ⟨id, store⟩, ids } := by
  obtain ⟨fresh, ids, rfl⟩ := allocate_of_ok allocated
  refine ⟨fresh, ids, ?_⟩
  have last : (replace { pool with chunks := pool.chunks.push ⟨id, .zeros size⟩, ids } id
      store).chunks.toList = pool.chunks.toList ++ [⟨id, store⟩] :=
    chunks_replace store Array.toList_push (position?_push fresh)
  obtain ⟨chunks, same⟩ :=
    exists_replace_eq { pool with chunks := pool.chunks.push ⟨id, .zeros size⟩, ids } id store
  rw [same, ← Array.toList_push] at last
  obtain rfl : chunks = pool.chunks.push ⟨id, store⟩ := Array.toList_inj.mp last
  exact same

end Pool

/-- Whether a run left the machine, its image and its pool as they were, but for a report. -/
structure Run.TouchesNothing (machine : Machine) (image : Image) (pool : Pool) (run : Run) :
    Prop where
  registers : run.machine.registers = machine.registers
  flags : run.machine.flags = machine.flags
  image : run.image = image
  pool : run.pool = pool

/-- Whether a run drew one chunk with room for data and stack, under an id that was not in
use, and left all other chunks in their places with their contents. -/
structure Run.DrawsOneChunk (header : Header) (pool : Pool) (run : Run) : Prop where
  drawn : ∃ segment data ids, run.segment = some segment ∧ segment ∉ pool.liveIds ∧
    data.size = min (header.dataSize.toNat + header.stackSize.toNat) (2 ^ 64 - 1) ∧
    run.pool = { pool with chunks := pool.chunks.push ⟨segment, data⟩, ids }
  others : ∀ id store, pool.store? id = some store → run.pool.store? id = some store

namespace Machine

section

variable {machine : Machine} {header : Header} {image : Image} {pool granted : Pool}
  {segment : PageId}

/-- What ends a run that got its memory is no fault of the start. -/
theorem Concludes.not_ofStart {outcome : Except Fault Nat} {final : Processor}
    (headed : Header.read image = .ok header)
    (concludes : Concludes machine header image outcome final) :
    ¬ ∃ fault, outcome = .error fault ∧ fault.OfStart := by
  rintro ⟨fault, failed, ofStart⟩
  rcases concludes with ⟨-, ⟨steps, returned⟩ | ⟨budget, exhausted⟩⟩ | ⟨other, faults, stopped⟩
  · rw [returned] at failed
    cases failed
  · rw [exhausted] at failed
    cases failed
    exact ofStart
  · rw [stopped] at failed
    cases failed
    exact (faults.bounded headed).1.not_ofStart ofStart

theorem Concludes.bounded {outcome : Except Fault Nat} {final : Processor}
    (headed : Header.read image = .ok header)
    (concludes : Concludes machine header image outcome final) :
    final.Bounded (machine.extent header image) := by
  rcases concludes with ⟨visited, -⟩ | ⟨fault, faults, -⟩
  · exact visited.bounded headed
  · exact (faults.bounded headed).2

theorem refuse_touchesNothing (machine : Machine) (image : Image) (pool : Pool) (fault : Fault) :
    (machine.refuse image pool fault).TouchesNothing machine image pool :=
  ⟨rfl, rfl, rfl, rfl⟩

theorem conclude_drawsOneChunk {outcome : Except Fault Nat} {final : Processor}
    (allocated : pool.allocate header.segmentSize = .ok (segment, granted))
    (sized : final.data.size = header.segmentSize) :
    (machine.conclude granted segment outcome final).DrawsOneChunk header pool := by
  obtain ⟨fresh, ids, placed⟩ := Pool.replace_eq_push allocated final.data
  refine ⟨⟨segment, final.data, ids, rfl, fresh, sized, placed⟩, ?_⟩
  intro id store live
  have other : id ≠ segment := by
    rintro rfl
    rw [Pool.store?_eq_none_iff.mpr fresh] at live
    cases live
  rw [conclude, placed, Pool.store?_push fresh, Function.update_of_ne other]
  exact live

/-- Whatever the machine, the image and the pool: a run that ends for want of a header or of
memory has touched nothing, and one that ends in any other way, the faults of instructions
included, has drawn one chunk of the size that the header asks for and has changed no other
chunk. -/
theorem runs_keep_to_their_chunk {patience : Nat} {run : Run}
    (ran : machine.run patience image pool = some run) :
    (∀ fault, run.outcome = .error fault → fault.OfStart →
      run.TouchesNothing machine image pool) ∧
    ((¬ ∃ fault, run.outcome = .error fault ∧ fault.OfStart) →
      ∃ header, Header.read image = .ok header ∧ run.DrawsOneChunk header pool) := by
  rcases run_refuses_or_concludes ran with ⟨fault, rfl, cause⟩ |
    ⟨header, segment, granted, outcome, final, headed, allocated, rfl, concludes⟩
  · have ofStart : fault.OfStart := by
      rcases cause with headless | ⟨cause, rfl⟩
      · exact Header.ofStart_of_read headless
      · trivial
    constructor
    · exact fun _ _ _ => refuse_touchesNothing machine image pool fault
    · exact fun started => absurd ⟨fault, rfl, ofStart⟩ started
  · constructor
    · exact fun fault failed ofStart =>
        absurd ⟨fault, failed, ofStart⟩ (concludes.not_ofStart headed)
    · exact fun _ => ⟨header, headed,
        conclude_drawsOneChunk allocated (concludes.bounded headed).data.sized⟩

end

namespace Neighbours

/-- A pool with a chunk in it and room for one segment of eight bytes. -/
def pool : Pool := ⟨16, true, #[⟨3, ⟨#[1, 2, 3, 4, 5], 2⟩⟩], .ofSeed 1⟩

theorem faults : ∀ run ∈ Overrun.machine.run 3 Overrun.image pool,
    run.outcome = .error (.truncatedInstruction 37) := by
  decide +kernel

theorem refused : ∀ run ∈ Overrun.machine.run 3 Overrun.image (.ofSeed 7 true 1),
    run.outcome = .error (.allocationRefused (.insufficientCapacity 8 7)) := by
  decide +kernel

theorem ends : (Overrun.machine.run 3 Overrun.image pool).isSome := by
  decide +kernel

theorem ends_refused : (Overrun.machine.run 3 Overrun.image (.ofSeed 7 true 1)).isSome := by
  decide +kernel

end Neighbours

/-- A program that overwrites itself and ends in a fault leaves the chunk beside its own as it
was, and without room for its segment it leaves the pool as it was. -/
theorem overrun_keeps_to_its_chunk :
    (∃ run, Overrun.machine.run 3 Overrun.image Neighbours.pool = some run ∧
      run.outcome = .error (.truncatedInstruction 37) ∧
      run.DrawsOneChunk Overrun.header Neighbours.pool) ∧
    ∃ run, Overrun.machine.run 3 Overrun.image (.ofSeed 7 true 1) = some run ∧
      run.TouchesNothing Overrun.machine Overrun.image (.ofSeed 7 true 1) := by
  constructor
  · obtain ⟨run, ran⟩ := Option.isSome_iff_exists.mp Neighbours.ends
    have stopped := Neighbours.faults run ran
    obtain ⟨header, headed, draws⟩ := (runs_keep_to_their_chunk ran).2 (by
      rintro ⟨fault, failed, ofStart⟩
      rw [stopped] at failed
      cases failed
      exact ofStart)
    cases (show Header.read Overrun.image = .ok Overrun.header from rfl).symm.trans headed
    exact ⟨run, ran, stopped, draws⟩
  · obtain ⟨run, ran⟩ := Option.isSome_iff_exists.mp Neighbours.ends_refused
    exact ⟨run, ran, (runs_keep_to_their_chunk ran).1 _ (Neighbours.refused run ran) trivial⟩

end Machine

end WordMachine
