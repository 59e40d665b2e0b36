import Mathlib.Data.List.Pairwise
import WordMachine.Proofs.Assembly.Revised
import WordMachine.Proofs.Assembly.SymbolTables

/-!
# Where data lies

The globals of a source that assembles lie one behind the other from the first address on and end
inside the data segment, however often its size is set and wherever (`global_fits`). Its locals lie
one behind the other in the frame. In an image, an operand that stands for a global has the address
of one, and an operand that stands for a local the offset of one that is declared before
(`assembled_layout`).
-/

namespace WordMachine

open Assembly

/-- The operands that an instruction has. -/
def Fetched.operands (fetched : Fetched) : List Operand :=
  fetched.dst.toList ++ fetched.src.toList

theorem Fetched.exists_pair {fetched : Fetched} {operand : Operand}
    (member : operand ∈ fetched.operands) (symbolic : Symbolic) :
    ∃ term, (operand, term) ∈ fetched.pairs symbolic := by
  rw [operands, List.mem_append, Option.mem_toList, Option.mem_toList] at member
  rcases member with isDst | isSrc
  · exact ⟨symbolic.dst, by simp [pairs, isDst]⟩
  · exact ⟨symbolic.src, by simp [pairs, isSrc]⟩

/-- Whether an operand of a statement stands for a variable, if it is the operand of one: for a
global of the table, or for a local that is declared in front of the statement. -/
structure Operand.Known (operand : Operand) (globals : List Global) (locals : List Local)
    (before : List Statement) (statement : Statement) : Prop where
  global : operand.mode = .global → ∃ global ∈ globals,
    global.address = operand.value ∧ global.name ∈ statement.operands
  frame : operand.mode = .frame → ∃ slot ∈ locals,
    slot.offset = operand.value ∧ slot.name ∈ statement.operands ∧
      (slot.name, slot.type) ∈ before.filterMap Statement.declaredLocal?

namespace Assembly

/-- Whether two globals share no byte. -/
def Global.Apart (first second : Global) : Prop :=
  first.endAddress ≤ second.address.toNat ∨ second.endAddress ≤ first.address.toNat

instance : Std.Symm Global.Apart := ⟨fun _ _ apart => apart.symm⟩

namespace Draft

variable {source : Source} {statements : List Statement} {listing : Listing} {draft : Draft}

/-! ## Globals -/

/-- Globals of the table lie one behind the other. -/
theorem Encodes.globals_contiguous
    (encoded : Encodes (.ofTexts source.texts) source.texts statements listing draft) :
    Contiguous Declarations.firstAddress.toNat
      (draft.globals.toList.map fun global => (global.address.toNat, global.type.size)) := by
  rw [encoded.agreed.globals, List.map_map]
  exact (Declarations.tidy_ofTexts source.texts).contiguous

theorem Encodes.globals_pairwise_apart
    (encoded : Encodes (.ofTexts source.texts) source.texts statements listing draft) :
    draft.globals.toList.Pairwise Global.Apart := by
  rw [encoded.agreed.globals, List.pairwise_map]
  exact (Declarations.tidy_ofTexts source.texts).apart.imp fun behind => Or.inl behind

/-- Globals of the table share no byte. -/
theorem Encodes.globals_apart
    (encoded : Encodes (.ofTexts source.texts) source.texts statements listing draft) :
    ∀ first ∈ draft.globals.toList, ∀ second ∈ draft.globals.toList, first ≠ second →
      first.Apart second := by
  intro first firstMember second secondMember different
  exact encoded.globals_pairwise_apart.forall firstMember secondMember different

/-- A global of the table ends inside the data segment. -/
theorem Encodes.global_fits
    (encoded : Encodes (.ofTexts source.texts) source.texts statements listing draft)
    {global : Global} (member : global ∈ draft.globals.toList) :
    global.endAddress ≤ draft.dataSize.toNat :=
  of_decide_eq_true (encoded.agreed.fitting global (Array.mem_toList_iff.mp member)
    (encoded.all_declared global member))

/-! ## Locals -/

theorem length_layout (address : Nat) (entries : List (Token × VariableType)) :
    (Scope.layout address entries).length = entries.length := by
  induction entries generalizing address with
  | nil => rfl
  | cons first rest ih => exact congrArg (· + 1) (ih _)

variable {found : Declarations}

/-- The locals declared in front of a statement are the first ones of the table. -/
theorem Follows.locals_take (follows : Follows found statements listing draft)
    {before rest : List Statement} {earlier : Listing} (split : statements = before ++ rest)
    (built : before.foldlM (Listing.add found.scope) .empty = some earlier)
    (grown : earlier.locals <+: listing.locals) :
    let count := (before.filterMap Statement.declaredLocal?).length
    (draft.locals.toList.take count).map (fun slot => (slot.name, slot.offset)) = earlier.locals ∧
      (draft.locals.toList.take count).map (fun slot => (slot.name, slot.type)) =
        before.filterMap Statement.declaredLocal? := by
  intro count
  rcases follows.agreed with ⟨declared, agreed⟩
  have length : earlier.locals.length = count := by
    rw [(Listing.tracks_of_foldlM built).locals, length_layout]
  constructor
  · rw [List.map_take, agreed.locals, ← length]
    exact (List.prefix_iff_eq_take.mp grown).symm
  · rw [List.map_take, follows.locals, split, List.filterMap_append, List.take_left]

/-- The operands of an instruction are known where its statement stands. -/
theorem Follows.operands_known (follows : Follows found statements listing draft)
    {header : Header} {image : Image} (linked : Linked found.scope listing header image)
    {index : Nat} {fetched : Fetched}
    (read : (listing.program.locate Header.length)[index]? = some fetched) :
    ∃ before statement after, statements = before ++ statement :: after ∧
      statement.makesCode = true ∧ before.countP Statement.makesCode = index ∧
      ∀ operand ∈ fetched.operands,
        operand.Known draft.globals.toList draft.locals.toList before statement := by
  rcases follows.agreed with ⟨declared, agreed⟩
  have inside : index < statements.countP Statement.makesCode := by
    obtain ⟨inside, -⟩ := List.getElem?_eq_some_iff.mp read
    rwa [Program.length_locate, Listing.program, Listing.programWith_eq, List.length_map,
      (Listing.tracks_of_foldlM follows.built).codes] at inside
  obtain ⟨before, statement, after, split, code, place⟩ := Statement.exists_split inside
  refine ⟨before, statement, after, split, code, place, ?_⟩
  have built := follows.built
  rw [split] at built
  obtain ⟨earlier, symbolic, builtEarlier, emitted, grown, written⟩ :=
    Listing.codes_of_split built code
  rw [place] at written
  have sound := linked.sound symbolic (Listing.mem_codes_iff.mp (List.mem_of_getElem? written))
  intro operand member
  obtain ⟨term, pair⟩ := Fetched.exists_pair member symbolic
  rw [Listing.getElem?_locate_program written read] at pair
  obtain ⟨among, same, -⟩ := sound.of_mem_pairs pair
  constructor
  case global =>
    intro isGlobal
    obtain ⟨name, used, named⟩ := Listing.plain_of_emitted? emitted among same
      (by rw [isGlobal]; exact Mode.noConfusion) (by simp [Term.isNamed, Term.mode, isGlobal])
    rw [isGlobal] at named
    have known := Listing.global_of_named? named
    rw [← agreed.knows.globals] at known
    obtain ⟨global, inTable, sameGlobal⟩ := List.mem_map.mp known
    obtain ⟨sameName, sameAddress⟩ := Prod.mk.inj sameGlobal
    exact ⟨global, inTable, sameAddress, sameName ▸ used⟩
  case frame =>
    intro isFrame
    obtain ⟨name, used, named⟩ := Listing.plain_of_emitted? emitted among same
      (by rw [isFrame]; exact Mode.noConfusion) (by simp [Term.isNamed, Term.mode, isFrame])
    rw [isFrame] at named
    have known := Listing.local_of_named? named
    obtain ⟨offsets, types⟩ := follows.locals_take split builtEarlier grown
    rw [← offsets] at known
    obtain ⟨slot, taken, sameSlot⟩ := List.mem_map.mp known
    obtain ⟨sameName, sameOffset⟩ := Prod.mk.inj sameSlot
    refine ⟨slot, List.mem_of_mem_take taken, sameOffset, sameName ▸ used, ?_⟩
    rw [← types]
    exact List.mem_map_of_mem taken

end Draft

end Assembly

namespace Assembler

/-- However often and wherever a source that assembles sets the size of its data, its globals lie
one behind the other from the first address on and end inside the data segment; its locals have
different names and lie one behind the other in the frame; and the operands of the image that stand
for variables have the address of a global or the offset of a local that is declared before. -/
theorem assembled_layout (assembler : Assembler) {source : Source} {image : Image}
    (steady : source.Steady) (assembled : (assembler.assemble source).outcome = .ok image) :
    let globals := (assembler.assemble source).assembler.globals.toList
    let locals := (assembler.assemble source).assembler.locals.toList
    Contiguous Declarations.firstAddress.toNat
      (globals.map fun global => (global.address.toNat, global.type.size)) ∧
    globals.Pairwise Global.Apart ∧
    (locals.map Local.name).Nodup ∧
    Contiguous 0 (locals.map fun slot => (slot.offset.toNat, slot.type.size)) ∧
    ∃ (header : Header) (decoded : List Fetched), Header.read image = .ok header ∧
      (∀ global ∈ globals, global.endAddress ≤ header.dataSize.toNat) ∧
      Fetch.instructions image.size { image with cursor := Header.length } =
        .ok decoded { image with cursor := image.size } ∧
      ∀ (index : Nat) fetched, decoded[index]? = some fetched →
        ∃ before statement after, source.statements = before ++ statement :: after ∧
          statement.makesCode = true ∧ before.countP Statement.makesCode = index ∧
          ∀ operand ∈ fetched.operands, operand.Known globals locals before statement := by
  obtain ⟨spelledListing, header, draft, spelled, headed, encoded, -, sameGlobals⟩ :=
    assembler.assembled_of_ok steady assembled
  obtain ⟨found, second, listing, secondHeader, -, -, -, -, follows, -, linked, -, left⟩ :=
    follows_of_ok assembled
  rw [Source.statements_revisited steady] at follows
  intro globals locals
  have ofEncoded : globals = draft.globals.toList := by
    rw [← sameGlobals]
  have ofSecond : globals = second.globals.toList ∧ locals = second.locals.toList := by
    constructor
    · simp only [globals, left]
    · simp only [locals, left]
  refine ⟨?_, ?_, ?_, ?_, header, _, headed, ?_, linked.decodes, ?_⟩
  · rw [ofEncoded]
    exact encoded.globals_contiguous
  · rw [ofEncoded]
    exact encoded.globals_pairwise_apart
  · rw [ofSecond.2]
    exact follows.localNames
  · rw [ofSecond.2]
    exact follows.frame
  · intro global member
    rw [ofEncoded] at member
    rw [spelled.dataSize, ← encoded.dataSize]
    exact encoded.global_fits member
  · intro index fetched read
    rw [ofSecond.1, ofSecond.2]
    exact follows.operands_known linked read

namespace Interleaved

/-- A global is used in front of its declaration, and the size of the data is set three times. -/
def source : Source :=
  .ofString ("mov b reg0\n#pragma datapagesize 64\nbyte a\nlocal byte x\n" ++
    "#pragma datapagesize 11\nint16 b\nlocal int16 y\nmov y b\n#pragma datapagesize 32\n")

def globals : List Global := [⟨"a".toList, 8, .byte, true⟩, ⟨"b".toList, 9, .int16, true⟩]

def locals : List Local := [⟨"x".toList, 0, .byte⟩, ⟨"y".toList, 1, .int16⟩]

end Interleaved

open Interleaved

theorem interleaved_layout :
    ∃ (image : Image) (header : Header) (decoded : List Fetched) (fetched : Fetched),
      (empty.assemble source).outcome = .ok image ∧ Header.read image = .ok header ∧
        Contiguous 8 (globals.map fun global => (global.address.toNat, global.type.size)) ∧
        (∀ global ∈ globals, global.endAddress ≤ header.dataSize.toNat) ∧
        Contiguous 0 (locals.map fun slot => (slot.offset.toNat, slot.type.size)) ∧
        decoded[3]? = some fetched ∧
        fetched.operands.map Operand.toArgument = [⟨.global, 9⟩, ⟨.frame, 1⟩] ∧
        ∃ before statement, statement.makesCode = true ∧
          before.countP Statement.makesCode = 3 ∧
          ∀ operand ∈ fetched.operands, operand.Known globals locals before statement := by
  have steady : source.Steady := Source.steady_ofString _
  have sameGlobals : (empty.assemble source).assembler.globals.toList = globals := by
    decide +kernel
  have sameLocals : (empty.assemble source).assembler.locals.toList = locals := by
    decide +kernel
  have fourth : ((empty.assemble source).outcome.toOption.bind fun image =>
      match Fetch.instructions image.size { image with cursor := Header.length } with
      | .ok decoded _ => decoded[3]?.map fun fetched => fetched.operands.map Operand.toArgument
      | .error _ _ => none) = some [⟨.global, 9⟩, ⟨.frame, 1⟩] := by
    decide +kernel
  cases outcome : (empty.assemble source).outcome with
  | error error =>
      rw [outcome] at fourth
      cases fourth
  | ok image =>
      obtain ⟨contiguous, -, -, frame, header, decoded, headed, fits, reads, known⟩ :=
        assembled_layout empty steady outcome
      rw [sameGlobals] at contiguous fits
      rw [sameLocals] at frame
      rw [sameGlobals, sameLocals] at known
      simp only [outcome, Except.toOption, Option.bind_some, reads] at fourth
      obtain ⟨fetched, read, operands⟩ := Option.map_eq_some_iff.mp fourth
      obtain ⟨before, statement, after, -, code, place, each⟩ := known 3 fetched read
      exact ⟨image, header, decoded, fetched, rfl, headed, contiguous, fits, frame, read, operands,
        before, statement, code, place, each⟩

end Assembler

end WordMachine
