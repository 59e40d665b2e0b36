import WordMachine.Proofs.Execution.Memory

/-!
# Cursors stay inside their stores

Reading, writing and moving the cursor leave a store as long as it was and its cursor no
further than its end (`Store.Between`). Fetching an instruction therefore leaves the
program counter inside the code, whatever bytes it reads (`Fetch.instruction_keeps`).
-/

namespace WordMachine

/-- Whether fetching or executing an instruction may end in a fault. The other faults come
from images that are not started, and from budgets. -/
def Fault.OfInstruction : Fault → Prop
  | .badMagic _ | .truncatedHeader | .allocationRefused _ | .budgetExhausted _ => False
  | .invalidOpcode _ | .invalidMode _ | .truncatedInstruction _ | .missingOperand _
  | .invalidDestination _ _ | .divisionByZero _ | .stackOverflow | .stackUnderflow
  | .invalidPushSize _ | .dataOutOfBounds _ | .codeOutOfBounds _ => True

namespace Store

/-- Whether a store has a size, and its cursor stands between a place and the end. -/
structure Between (low size : Nat) (store : Store) : Prop where
  sized : store.size = size
  above : low ≤ store.cursor
  below : store.cursor ≤ size

variable {low size : Nat}

theorem Between.inside {store : Store} (between : store.Between low size) :
    store.cursor ≤ store.size := by
  rw [between.sized]
  exact between.below

theorem read_keeps (width : Nat) :
    Keeps (Between low size) (fun _ => True) (read width) := by
  intro store between
  apply (read_ends width).mono
  · intro _ final ended
    rcases ended with ⟨inside, same⟩
    rw [Holds, between.sized] at inside
    rw [same]
    exact ⟨between.sized, Nat.le_trans between.above (Nat.le_add_right _ _), inside⟩
  · intro _ final ended
    rcases ended with ⟨-, same⟩
    rw [same]
    exact ⟨trivial, between⟩

theorem write_keeps (width value : Nat) :
    Keeps (Between low size) (fun _ => True) (write width value) := by
  intro store between
  apply (write_ends width value).mono
  · intro _ final ended
    rcases ended with ⟨inside, same⟩
    rw [Holds, between.sized] at inside
    rw [same]
    exact ⟨(size_overwrite _ _ _).trans between.sized,
      Nat.le_trans between.above (Nat.le_add_right _ _), inside⟩
  · intro _ final ended
    rcases ended with ⟨-, same⟩
    rw [same]
    exact ⟨trivial, between⟩

theorem save_keeps (width address value : Nat) :
    Keeps (Between low size) (fun _ => True) (save width address value) := by
  intro store between
  apply (save_ends width address value).mono
  · intro _ final ended
    rcases ended with ⟨-, same⟩
    rw [same]
    exact ⟨(size_overwrite _ _ _).trans between.sized, between.above, between.below⟩
  · intro _ final ended
    rcases ended with ⟨-, same⟩
    rw [same]
    exact ⟨trivial, between⟩

theorem seek_keeps {position : Nat} (above : low ≤ position) :
    Keeps (Between low size) (fun _ => True) (seek position) := by
  intro store between
  apply (seek_ends position).mono
  · intro _ final ended
    rcases ended with ⟨inside, same⟩
    rw [between.sized] at inside
    rw [same]
    exact ⟨between.sized, above, inside⟩
  · intro _ final ended
    rcases ended with ⟨-, same⟩
    rw [same]
    exact ⟨trivial, between⟩

end Store

open Store

namespace Fetch

variable {size : Nat}

theorem orFault_keeps {α : Type} {access : Access α} {fault : Fault}
    (keeps : Keeps (Between 0 size) (fun _ => True) access) (known : fault.OfInstruction) :
    Keeps (Between 0 size) Fault.OfInstruction (orFault access fault) := by
  apply Keeps.adaptExcept
  intro store between
  apply (keeps store between).mono
  · exact fun _ _ kept => kept
  · exact fun _ _ failed => ⟨known, failed.2⟩

theorem readByte_keeps (offset : Nat) :
    Keeps (Between 0 size) Fault.OfInstruction
      (orFault Store.readByte (.truncatedInstruction offset)) :=
  orFault_keeps ((read_keeps 1).map _) trivial

theorem readWord_keeps (offset : Nat) :
    Keeps (Between 0 size) Fault.OfInstruction
      (orFault Store.readWord (.truncatedInstruction offset)) :=
  orFault_keeps ((read_keeps 2).map _) trivial

theorem opcode_keeps (offset : Nat) :
    Keeps (Between 0 size) Fault.OfInstruction (opcode offset) := by
  apply (readByte_keeps offset).bind
  intro byte
  cases Opcode.ofByte? byte with
  | some opcode => exact .pure opcode
  | none => exact .throw trivial

theorem mode_keeps (nibble : UInt8) :
    Keeps (Between 0 size) Fault.OfInstruction (mode nibble) := by
  unfold mode
  cases Mode.ofNibble? nibble with
  | some mode => exact .pure mode
  | none => exact .throw trivial

theorem operand_keeps (offset : Nat) (mode : Mode) :
    Keeps (Between 0 size) Fault.OfInstruction (operand offset mode) := by
  apply Keeps.get.bind
  intro store
  cases mode with
  | absent => exact .throw trivial
  | register | registerPointer => exact (readByte_keeps offset).bind fun _ => .pure _
  | pointer | label | number | global | frame =>
      exact (readWord_keeps offset).bind fun _ => .pure _

theorem operandIf_keeps (carried : Bool) (offset : Nat) (mode : Mode) :
    Keeps (Between 0 size) Fault.OfInstruction (operandIf carried offset mode) :=
  .ite ((operand_keeps offset mode).map some) (.pure none)

/-- Fetching leaves the program counter inside the code, whatever bytes it reads. -/
theorem instruction_keeps : Keeps (Between 0 size) Fault.OfInstruction Fetch.instruction := by
  apply Keeps.get.bind
  intro store
  apply (opcode_keeps store.cursor).bind
  intro opcode
  apply Keeps.ite
  · exact .pure _
  · apply (readByte_keeps store.cursor).bind
    intro modes
    apply (mode_keeps _).bind
    intro dstMode
    apply (mode_keeps _).bind
    intro srcMode
    apply (operandIf_keeps _ _ dstMode).bind
    intro dst
    apply (operandIf_keeps _ _ srcMode).bind
    intro src
    apply Keeps.ite
    · exact ((readByte_keeps store.cursor).map some).bind fun _ => .pure _
    · exact (Keeps.pure none).bind fun _ => .pure _

end Fetch

end WordMachine
