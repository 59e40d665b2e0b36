import WordMachine.Proofs.Assembly.Layout
import WordMachine.Proofs.Execution.Runs

/-!
# Writing to globals

Globals lie one behind the other, each as wide as its type, and end where the stack
frame begins. An instruction with a global as its destination changes no data outside
the word at the global's address (`Targets.cycle`). That word is the global itself if the
global is a word; behind a global of one byte it takes in one byte more, the first of the
next global or of the frame, and the global is written alone only if that byte happens to
stay as it was (`WithinWord.isolates_iff`).
-/

namespace WordMachine

namespace Assembly

namespace Global

/-- Whether a data address lies in a global. -/
def Holds (global : Global) (place : Nat) : Prop :=
  global.address.toNat ≤ place ∧ place < global.endAddress

instance (global : Global) (place : Nat) : Decidable (global.Holds place) :=
  inferInstanceAs (Decidable (_ ∧ _))

end Global

end Assembly

open Assembly

namespace Processor

variable {state final : Processor} {global : Global}

/-- Whether the next instruction has a global as its destination. -/
def Targets (state : Processor) (global : Global) : Prop :=
  ∃ fetched code dst, Fetch.instruction state.code = .ok fetched code ∧
    fetched.dst = some dst ∧ dst.mode = .global ∧ dst.value = global.address

/-- Whether all data outside a global is as it was. -/
def Isolates (global : Global) (state final : Processor) : Prop :=
  ∀ place, ¬ global.Holds place → final.data.bytes[place]? = state.data.bytes[place]?

/-- Whether all data outside the word at a global's address is as it was. -/
def WithinWord (global : Global) (state final : Processor) : Prop :=
  ∀ place, place < global.address.toNat ∨ global.address.toNat + 2 ≤ place →
    final.data.bytes[place]? = state.data.bytes[place]?

/-- Where no more than the word at its address changes, a global is written alone if it
is that word, or if the byte behind it stays as it was. -/
theorem WithinWord.isolates_iff (within : WithinWord global state final) :
    Isolates global state final ↔ global.type.size = 2 ∨
      final.data.bytes[global.address.toNat + 1]? =
        state.data.bytes[global.address.toNat + 1]? := by
  have widths : global.type.size = 1 ∨ global.type.size = 2 := by
    cases global.type with
    | byte => exact Or.inl rfl
    | int16 | uint16 => exact Or.inr rfl
  constructor
  · intro isolates
    rcases widths with byte | word
    · right
      apply isolates
      intro holds
      rcases holds with ⟨-, inside⟩
      rw [Global.endAddress, byte] at inside
      exact absurd inside (Nat.lt_irrefl _)
    · exact Or.inl word
  · intro spared place outside
    by_cases next : place = global.address.toNat + 1
    · rcases spared with word | same
      · refine absurd ⟨?_, ?_⟩ outside
        · omega
        · rw [Global.endAddress, word]
          omega
      · rw [next]
        exact same
    · apply within
      rcases Nat.lt_or_ge place global.address.toNat with below | above
      · exact Or.inl below
      · right
        have notFirst : place ≠ global.address.toNat := by
          intro first
          apply outside
          rw [Global.Holds, Global.endAddress]
          omega
        omega

/-- A cycle whose instruction has a global as its destination changes no more data than
the word at its address, also when it ends in a fault. -/
theorem Targets.cycle (targets : state.Targets global) :
    Ends Processor.cycle state (fun _ final => WithinWord global state final)
      (fun _ final => WithinWord global state final) := by
  rcases targets with ⟨fetched, code, dst, fetch, carried, mode, here⟩
  have within (final : Processor) (effect : Effect fetched { state with code } final) :
      WithinWord global state final := by
    intro place outside
    apply effect.data dst carried place
    intro denotes
    rcases denotes with ⟨address, denoted, above, inside⟩
    rw [denoted?, mode, here] at denoted
    cases denoted
    omega
  apply cycle_ends.mono
  · intro _ final ended
    rcases ended with ⟨fetched', code', outcome, effect⟩
    rw [fetch] at outcome
    cases outcome
    exact within final effect
  · intro fault final ended
    rcases ended with ⟨code', outcome, -⟩ | ⟨fetched', code', outcome, -, effect⟩
    · rw [fetch] at outcome
      cases outcome
    · rw [fetch] at outcome
      cases outcome
      exact within final effect

end Processor

open Processor

/-- The frame base stays where the header puts it. -/
theorem Machine.Visits.frameBase {machine : Machine} {header : Header} {image : Image}
    {state : Processor} (visited : Machine.Visits machine header image state)
    (inside : Header.length ≤ image.size) : state.frameBase = header.dataSize.toNat := by
  apply visited.keeps
  · intro first booted
    rw [(Machine.boot_ends inside).of_ok booted]
  · intro state next kept more executed
    obtain ⟨fetched, code, -, effect⟩ := cycle_ends.of_ok executed
    exact effect.frameBase.trans kept

namespace Assembler

/-- Whether a source assembles to an image that brings a machine to a state. -/
def Reaches (assembler : Assembler) (source : Source) (machine : Machine)
    (state : Processor) : Prop :=
  ∃ image header, (assembler.assemble source).outcome = .ok image ∧
    Header.read image = .ok header ∧ Machine.Visits machine header image state

/-- Globals share no byte with each other or with the frame, and an instruction with a
global as its destination changes at most the word at its address. It leaves all other
data alone if the global is a word; otherwise only if the byte behind the global stays as
it was. -/
theorem global_write_isolated_iff (assembler : Assembler) {source : Source}
    (steady : source.Steady) {machine : Machine} {state : Processor}
    (reached : assembler.Reaches source machine state) {global : Global}
    (member : global ∈ (assembler.assemble source).assembler.globals.toList)
    (targets : state.Targets global) :
    global.endAddress ≤ state.frameBase ∧
      (∀ other ∈ (assembler.assemble source).assembler.globals.toList,
        other ≠ global → other.Apart global) ∧
      ∀ final, (cycle state = .ok () final ∨ ∃ fault, cycle state = .error fault final) →
        WithinWord global state final ∧
          (Isolates global state final ↔ global.type.size = 2 ∨
            final.data.bytes[global.address.toNat + 1]? =
              state.data.bytes[global.address.toNat + 1]?) := by
  rcases reached with ⟨image, header, assembled, headed, visited⟩
  obtain ⟨listing, spelledHeader, draft, spelled, sameHeader, encoded, -, globals⟩ :=
    assembler.assembled_of_ok steady assembled
  rw [sameHeader] at headed
  cases headed
  rw [globals] at member ⊢
  have inside : Header.length ≤ image.size := spelled.size ▸ Nat.le_add_right _ _
  refine ⟨?_, ?_, ?_⟩
  · rw [visited.frameBase inside, spelled.dataSize, ← encoded.dataSize]
    exact encoded.global_fits member
  · intro other otherMember different
    exact encoded.globals_apart other otherMember global member different
  · intro final ended
    rcases ended with executed | ⟨fault, failed⟩
    · have within := targets.cycle.of_ok executed
      exact ⟨within, within.isolates_iff⟩
    · have within := targets.cycle.of_error failed
      exact ⟨within, within.isolates_iff⟩

namespace ByteStore

/-- Two globals of one byte, the second of which ends where the frame begins, and a store
into the first. -/
def source : Source :=
  .ofString "#pragma datapagesize 10\n#pragma stacksize 2\nbyte a, b\nmov 0x1234, a\n"

def globals : List Global := [⟨"a".toList, 8, .byte, true⟩, ⟨"b".toList, 9, .byte, true⟩]

def header : Header := ⟨Header.expectedMagic, 6, 10, 2⟩

def image : Image :=
  ⟨#[0x0D, 0xF0, 0x0C, 0xF0, 6, 0, 0, 0, 0, 0, 0, 0, 10, 0, 0, 0, 0, 0, 0, 0,
    2, 0, 0, 0, 0, 0, 0, 0, 0, 0x46, 8, 0, 0x34, 0x12], 34⟩

def machine : Machine := .ofConfig ⟨0, 0, 0, none⟩

/-- The processor in front of the store. -/
def before : Processor where
  registers := ⟨#[], #[], #[]⟩
  flags := .clear
  code := { image with cursor := Header.length }
  data := ⟨#[0, 0, 0, 0, 0, 0, 0, 0, 0, 0, 0, 0], 10⟩
  frameBase := 10

/-- The processor behind the store. -/
def after : Processor where
  registers := ⟨#[], #[], #[]⟩
  flags := .clear
  code := image
  data := ⟨#[0, 0, 0, 0, 0, 0, 0, 0, 0x34, 0x12, 0, 0], 10⟩
  frameBase := 10

theorem assembled : (empty.assemble source).outcome = .ok image := by
  have bytes : (empty.assemble source).outcome.toOption.map
      (fun linked => (linked.toList, linked.cursor)) = some (image.toList, image.cursor) := by
    decide +kernel
  cases outcome : (empty.assemble source).outcome with
  | error error =>
      rw [outcome] at bytes
      cases bytes
  | ok linked =>
      rw [outcome] at bytes
      obtain ⟨sameBytes, sameCursor⟩ := Prod.mk.inj (Option.some.inj bytes)
      rcases linked with ⟨linkedBytes, cursor⟩
      cases Array.toList_inj.mp sameBytes
      cases sameCursor
      rfl

theorem declared : (empty.assemble source).assembler.globals.toList = globals := by
  decide +kernel

theorem headed : Header.read image = .ok header := by
  have split : image.toList = header.encode ++ [0, 0x46, 8, 0, 0x34, 0x12] := by
    decide +kernel
  exact Header.read_header split rfl

theorem reached : empty.Reaches source machine before :=
  ⟨image, header, assembled, headed, .boot rfl⟩

theorem targets : before.Targets ⟨"a".toList, 8, .byte, true⟩ :=
  ⟨_, _, _, rfl, rfl, rfl, rfl⟩

theorem executed : cycle before = .ok () after := rfl

end ByteStore

/-- Storing into a global of one byte overwrites the global behind it. -/
theorem byte_store_overwrites_next :
    ∃ (source : Source) (machine : Machine) (state final : Processor) (global next : Global),
      source.Steady ∧ empty.Reaches source machine state ∧
        global ∈ (empty.assemble source).assembler.globals.toList ∧
        next ∈ (empty.assemble source).assembler.globals.toList ∧ next ≠ global ∧
        state.Targets global ∧ cycle state = .ok () final ∧
        ¬ Isolates global state final ∧
        ∃ place, next.Holds place ∧
          final.data.bytes[place]? ≠ state.data.bytes[place]? := by
  have changed : ByteStore.after.data.bytes[9]? ≠ ByteStore.before.data.bytes[9]? := by
    decide
  refine ⟨ByteStore.source, ByteStore.machine, ByteStore.before, ByteStore.after,
    ⟨"a".toList, 8, .byte, true⟩, ⟨"b".toList, 9, .byte, true⟩, Source.steady_ofString _,
    ByteStore.reached, ?_, ?_, by decide, ByteStore.targets, ByteStore.executed, ?_,
    ⟨9, by decide, changed⟩⟩
  · rw [ByteStore.declared]
    exact List.mem_cons_self
  · rw [ByteStore.declared]
    exact List.mem_cons_of_mem _ List.mem_cons_self
  · intro isolates
    exact changed (isolates 9 (by decide))

/-- Such a store still leaves alone what is not in the word at the global's address. -/
theorem byte_store_within_word :
    empty.Reaches ByteStore.source ByteStore.machine ByteStore.before ∧
      cycle ByteStore.before = .ok () ByteStore.after ∧
      WithinWord ⟨"a".toList, 8, .byte, true⟩ ByteStore.before ByteStore.after ∧
      ¬ Isolates ⟨"a".toList, 8, .byte, true⟩ ByteStore.before ByteStore.after := by
  have member : (⟨"a".toList, 8, .byte, true⟩ : Global) ∈
      (empty.assemble ByteStore.source).assembler.globals.toList := by
    rw [ByteStore.declared]
    exact List.mem_cons_self
  obtain ⟨-, -, stores⟩ := global_write_isolated_iff empty (Source.steady_ofString _)
    ByteStore.reached member ByteStore.targets
  obtain ⟨within, isolated⟩ := stores ByteStore.after (Or.inl ByteStore.executed)
  refine ⟨ByteStore.reached, ByteStore.executed, within, ?_⟩
  rw [isolated]
  decide

end Assembler

end WordMachine
