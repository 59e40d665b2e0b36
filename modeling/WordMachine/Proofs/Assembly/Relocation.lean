import WordMachine.Proofs.Assembly.Acceptance
import WordMachine.Proofs.Assembly.Assembled

/-!
# Listings behind others

A listing can be put behind another one (`Listing.behind`). Where names keep their meaning,
statements that made the one listing make it behind the other as well (`Listing.foldlM_behind`).
The code in front stays, and in the code behind it labels move by the length of the front: it is
relocated (`Listing.program_behind`).
-/

namespace WordMachine

namespace Argument

/-- The operand with a label's address moved. -/
def relocate (distance : Nat) (argument : Argument) : Argument :=
  if argument.mode = .label then ⟨.label, UInt16.ofNat (argument.value.toNat + distance)⟩
  else argument

theorem relocate_of_plain {argument : Argument} (plain : argument.mode ≠ .label)
    (distance : Nat) : argument.relocate distance = argument := if_neg plain

theorem mode_relocate (distance : Nat) (argument : Argument) :
    (argument.relocate distance).mode = argument.mode := by
  rw [relocate]
  split
  next isLabel => exact isLabel.symm
  next => rfl

end Argument

/-- The program with the addresses of labels moved, and nothing else changed. -/
def Program.relocate (distance : Nat) (program : Program) : Program :=
  program.map (Instruction.mapOperands (Argument.relocate distance))

namespace Assembly

/-- An operand of a sound instruction that is no label is encoded in another mode. -/
theorem Symbolic.Sound.plain {scope : Scope} {symbolic : Symbolic} (sound : symbolic.Sound scope)
    {argument : Argument} (member : .plain argument ∈ symbolic.terms) :
    argument.mode ≠ .label := by
  have absent (same : Term.plain argument = Listing.absent) : argument.mode ≠ .label := by
    cases same
    exact Mode.noConfusion
  simp only [Symbolic.terms, List.mem_cons, List.not_mem_nil, or_false] at member
  rcases member with isDst | isSrc
  · have dst := sound.dst
    rw [← isDst] at dst
    split at dst
    · exact dst.1.1
    · exact absent dst
  · have src := sound.src
    rw [← isSrc] at src
    split at src
    · exact src.1
    · exact absent src

namespace Listing

variable {scope wider : Scope} {front own longer : Listing} {name : Token} {term : Term}

/-- The entries of one listing behind those of another, the locals and the frame too. -/
def behind (front own : Listing) : Listing where
  items := front.items ++ own.items
  locals := front.locals ++ own.locals
  frameSize := front.frameSize + own.frameSize

@[simp] theorem behind_empty (front : Listing) : front.behind empty = front := by
  simp only [behind, empty, List.append_nil, Nat.add_zero]

@[simp] theorem empty_behind (own : Listing) : empty.behind own = own := by
  simp only [behind, empty, List.nil_append, Nat.zero_add]

theorem behind_addItem (item : Item) :
    front.behind (own.addItem item) = (front.behind own).addItem item := by
  simp only [behind, addItem, List.append_assoc]

theorem labelNames_behind (front own : Listing) :
    (front.behind own).labelNames = front.labelNames ++ own.labelNames :=
  List.filterMap_append

theorem programWith_behind (front own : Listing) (address : Token → Word) :
    (front.behind own).programWith address =
      front.programWith address ++ own.programWith address := List.filterMap_append

/-! ## Names that keep their meaning -/

/-- Whether the names that are known to one listing are known to another as the same. -/
def Shares (scope : Scope) (own : Listing) (wider : Scope) (longer : Listing) : Prop :=
  ∀ name term, own.named? scope name = some term → longer.named? wider name = some term

theorem Shares.operand? (shares : Shares scope own wider longer) {token : Token}
    (read : own.operand? scope token = some term) : longer.operand? wider token = some term := by
  unfold Listing.operand? at read ⊢
  split at read
  next inner => exact read
  next =>
    split at read
    next numeral =>
      rw [if_pos numeral]
      exact read
    next noNumeral =>
      rw [if_neg noNumeral]
      split at read
      next => exact read
      next => exact shares token term read

theorem Shares.destination? (shares : Shares scope own wider longer) {token : Token}
    (read : own.destination? scope token = some term) :
    longer.destination? wider token = some term := by
  obtain ⟨found, noNumber⟩ := Option.filter_eq_some_iff.mp read
  exact Option.filter_eq_some_iff.mpr ⟨shares.operand? found, noNumber⟩

theorem Shares.instruction? (shares : Shares scope own wider longer) {opcode : Opcode}
    {operands : List Token} {symbolic : Symbolic}
    (spelled : own.instruction? scope opcode operands = some symbolic) :
    longer.instruction? wider opcode operands = some symbolic := by
  unfold Listing.instruction? at spelled ⊢
  split at spelled
  next => exact spelled
  next dst _ =>
    obtain ⟨dstTerm, dstRead, same⟩ := Option.bind_eq_some_iff.mp spelled
    exact Option.bind_eq_some_iff.mpr ⟨dstTerm, shares.destination? dstRead, same⟩
  next src _ =>
    obtain ⟨srcTerm, srcRead, same⟩ := Option.bind_eq_some_iff.mp spelled
    exact Option.bind_eq_some_iff.mpr ⟨srcTerm, shares.operand? srcRead, same⟩
  next src dst _ =>
    obtain ⟨dstTerm, dstRead, later⟩ := Option.bind_eq_some_iff.mp spelled
    obtain ⟨srcTerm, srcRead, same⟩ := Option.bind_eq_some_iff.mp later
    exact Option.bind_eq_some_iff.mpr ⟨dstTerm, shares.destination? dstRead,
      Option.bind_eq_some_iff.mpr ⟨srcTerm, shares.operand? srcRead, same⟩⟩
  next src dst remainder _ =>
    obtain ⟨dstTerm, dstRead, later⟩ := Option.bind_eq_some_iff.mp spelled
    obtain ⟨srcTerm, srcRead, same⟩ := Option.bind_eq_some_iff.mp later
    exact Option.bind_eq_some_iff.mpr ⟨dstTerm, shares.destination? dstRead,
      Option.bind_eq_some_iff.mpr ⟨srcTerm, shares.operand? srcRead, same⟩⟩
  next => cases spelled

theorem Shares.addInstruction (shares : Shares scope own wider (front.behind own))
    {mnemonic : Token} {operands : List Token}
    (added : own.addInstruction scope mnemonic operands = some longer) :
    (front.behind own).addInstruction wider mnemonic operands = some (front.behind longer) := by
  obtain ⟨opcode, known, later⟩ := Option.bind_eq_some_iff.mp added
  obtain ⟨symbolic, spelled, same⟩ := Option.bind_eq_some_iff.mp later
  cases same
  rw [behind_addItem]
  exact Option.bind_eq_some_iff.mpr ⟨opcode, known,
    Option.bind_eq_some_iff.mpr ⟨symbolic, shares.instruction? spelled, rfl⟩⟩

/-- What a statement adds to a listing it adds to the listing behind another one, where names are
known as the same and locals have the same offsets. -/
theorem add_behind {statement : Statement} (shares : Shares scope own wider (front.behind own))
    (frame : front.frameSize = 0 ∨ statement.declaredLocal? = none)
    (added : own.add scope statement = some longer) :
    (front.behind own).add wider statement = some (front.behind longer) := by
  cases statement with
  | blank =>
      cases added
      rfl
  | pragma arguments =>
      cases added
      rfl
  | globals type names =>
      cases added
      rfl
  | instruction mnemonic operands => exact shares.addInstruction added
  | label label rest =>
      cases rest with
      | nil =>
          cases added
          rw [behind_addItem]
          rfl
      | cons mnemonic operands =>
          have sharesThen : Shares scope (own.addItem (.label label)) wider
              (front.behind (own.addItem (.label label))) := shares
          have behindThen := sharesThen.addInstruction added
          rw [behind_addItem] at behindThen
          exact behindThen
  | localVariable arguments =>
      obtain ⟨keyword, name, type, rfl, known, rfl⟩ := add_localVariable_eq_some added
      rw [Statement.declaredLocal?, known] at frame
      have flat : front.frameSize = 0 := frame.resolve_right (Option.some_ne_none _)
      rw [add, known]
      simp only [Option.map_some, behind, addLocal, flat, Nat.zero_add, List.append_assoc]

/-- The listing of statements is built behind another one as well. -/
theorem foldlM_behind {statements : List Statement}
    (built : statements.foldlM (add scope) empty = some own)
    (shares : ∀ between : Listing, between.locals <+: own.locals →
      Shares scope between wider (front.behind between))
    (frame : front.frameSize = 0 ∨ ∀ statement ∈ statements, statement.declaredLocal? = none) :
    statements.foldlM (add wider) front = some (front.behind own) := by
  induction statements using List.reverseRecOn generalizing own with
  | nil =>
      cases built
      rw [behind_empty]
      rfl
  | append_singleton earlier last ih =>
      obtain ⟨before, builtEarlier, added⟩ := last_of_foldlM built
      have grown : before.locals <+: own.locals := by
        rw [(adds_of_add added).locals]
        exact List.prefix_append _ _
      have behindEarlier := ih builtEarlier
        (fun between within => shares between (within.trans grown))
        (frame.imp_right fun none statement member =>
          none statement (List.mem_append_left _ member))
      have lastFrame : front.frameSize = 0 ∨ last.declaredLocal? = none :=
        frame.imp_right fun none => none last (List.mem_append_right _ (List.mem_singleton_self _))
      rw [List.foldlM_append, behindEarlier]
      exact Option.bind_eq_some_iff.mpr ⟨_, rfl, Option.bind_eq_some_iff.mpr
        ⟨_, add_behind (shares before grown) lastFrame added, rfl⟩⟩

/-! ## Addresses behind -/

/-- Labels of the front stay where they are. -/
theorem address_behind_of_front (member : name ∈ front.labelNames) :
    (front.behind own).address name = front.address name :=
  address_of_items_append rfl member

/-- Labels behind the front move by its length. -/
theorem address_behind (member : name ∈ own.labelNames) (fresh : name ∉ front.labelNames) :
    (front.behind own).address name = own.address name + size front.items := by
  obtain ⟨before, after, split, first⟩ :=
    List.eq_append_cons_of_mem (mem_labelNames_iff.mp member)
  have longerSplit : (front.behind own).items =
      (front.items ++ before) ++ .label name :: after := by
    rw [behind, split, List.append_assoc]
  have firstThen : Item.label name ∉ front.items ++ before := by
    rw [List.mem_append]
    exact not_or.mpr ⟨mt mem_labelNames_iff.mpr fresh, first⟩
  rw [address_of_split longerSplit firstThen, address_of_split split first, size_append]
  omega

theorem programWith_congr {listing : Listing} {address other : Token → Word}
    (same : ∀ symbolic ∈ listing.codes, ∀ name, .label name ∈ symbolic.terms →
      address name = other name) : listing.programWith address = listing.programWith other := by
  rw [programWith_eq, programWith_eq]
  apply List.map_congr_left
  intro symbolic member
  have resolved {term : Term} (isTerm : term ∈ symbolic.terms) :
      term.resolve address = term.resolve other := by
    cases term with
    | plain argument => rfl
    | label name => rw [Term.resolve, Term.resolve, same symbolic member name isTerm]
  rw [Symbolic.resolve, Symbolic.resolve, resolved (by simp [Symbolic.terms]),
    resolved (by simp [Symbolic.terms])]

/-- Moving all labels relocates a program. -/
theorem programWith_add {listing : Listing} {address : Token → Nat} {distance : Nat}
    (sound : ∀ symbolic ∈ listing.codes, symbolic.Sound scope)
    (inReach : ∀ symbolic ∈ listing.codes, ∀ name, .label name ∈ symbolic.terms →
      address name < 0x10000) :
    listing.programWith (fun name => UInt16.ofNat (address name + distance)) =
      (listing.programWith fun name => UInt16.ofNat (address name)).relocate distance := by
  rw [programWith_eq, programWith_eq, Program.relocate, List.map_map]
  apply List.map_congr_left
  intro symbolic member
  have resolved {term : Term} (isTerm : term ∈ symbolic.terms) :
      term.resolve (fun name => UInt16.ofNat (address name + distance)) =
        (term.resolve fun name => UInt16.ofNat (address name)).relocate distance := by
    cases term with
    | plain argument =>
        exact (argument.relocate_of_plain ((sound symbolic member).plain isTerm) distance).symm
    | label name =>
        rw [Term.resolve, Term.resolve, Argument.relocate, if_pos rfl,
          UInt16.toNat_ofNat_of_lt' (inReach symbolic member name isTerm)]
  rw [Function.comp_apply, Symbolic.resolve, Symbolic.resolve, Instruction.mapOperands,
    resolved (by simp [Symbolic.terms]), resolved (by simp [Symbolic.terms])]

/-- A label operand of the program is the address of a label that its instruction names. -/
theorem label_of_mem_program {listing : Listing} {instruction : Instruction} {argument : Argument}
    (sound : ∀ symbolic ∈ listing.codes, symbolic.Sound scope)
    (member : instruction ∈ listing.program)
    (operand : argument ∈ [instruction.dst, instruction.src]) (isLabel : argument.mode = .label) :
    ∃ symbolic ∈ listing.codes, ∃ name, .label name ∈ symbolic.terms ∧
      argument.value = UInt16.ofNat (listing.address name) := by
  rw [program, programWith_eq] at member
  obtain ⟨symbolic, isCode, rfl⟩ := List.mem_map.mp member
  have resolved : argument ∈ symbolic.terms.map
      (Term.resolve fun name => UInt16.ofNat (listing.address name)) := operand
  obtain ⟨term, isTerm, rfl⟩ := List.mem_map.mp resolved
  cases term with
  | plain argument => exact absurd isLabel ((sound symbolic isCode).plain isTerm)
  | label name => exact ⟨symbolic, isCode, name, isTerm, rfl⟩

/-- The code of a listing behind another one is the code in front, unchanged, and its own,
relocated by the length of the front. -/
theorem program_behind (placesFront : ∀ symbolic ∈ front.codes, front.Places symbolic)
    (placesOwn : ∀ symbolic ∈ own.codes, own.Places symbolic)
    (apart : ∀ name ∈ own.labelNames, name ∉ front.labelNames)
    (sound : ∀ symbolic ∈ own.codes, symbolic.Sound scope)
    (inReach : ∀ name ∈ own.labelNames, own.address name < 0x10000) :
    (front.behind own).program = front.program ++ own.program.relocate front.program.size := by
  have frontProgram : front.programWith
      (fun name => UInt16.ofNat ((front.behind own).address name)) = front.program := by
    apply programWith_congr
    intro symbolic member name named
    rw [address_behind_of_front (placesFront symbolic member name named)]
  have ownProgram : own.programWith
      (fun name => UInt16.ofNat ((front.behind own).address name)) =
        own.programWith fun name => UInt16.ofNat (own.address name + size front.items) := by
    apply programWith_congr
    intro symbolic member name named
    have placed := placesOwn symbolic member name named
    rw [address_behind placed (apart name placed)]
  rw [program, programWith_behind, frontProgram, ownProgram, programWith_add sound
    fun symbolic member name named => inReach name (placesOwn symbolic member name named),
    program, size_programWith]
  rfl

/-- Relocating a program does not lead its labels out of reach if those of the whole are in it. -/
theorem label_lt_behind (placesOwn : ∀ symbolic ∈ own.codes, own.Places symbolic)
    (apart : ∀ name ∈ own.labelNames, name ∉ front.labelNames)
    (sound : ∀ symbolic ∈ own.codes, symbolic.Sound scope)
    (inReach : ∀ name ∈ (front.behind own).labelNames, (front.behind own).address name < 0x10000)
    {instruction : Instruction} {argument : Argument} (member : instruction ∈ own.program)
    (operand : argument ∈ [instruction.dst, instruction.src]) (isLabel : argument.mode = .label) :
    argument.value.toNat + front.program.size < 0x10000 := by
  obtain ⟨symbolic, isCode, name, named, value⟩ := label_of_mem_program sound member operand isLabel
  have placed := placesOwn symbolic isCode name named
  have moved : name ∈ (front.behind own).labelNames := by
    rw [labelNames_behind]
    exact List.mem_append_right _ placed
  have here := inReach name moved
  rw [address_behind placed (apart name placed)] at here
  have before := Nat.lt_of_le_of_lt (Nat.le_add_right _ _) here
  rwa [value, UInt16.toNat_ofNat_of_lt' before, program, size_programWith]

end Listing

end Assembly

end WordMachine
