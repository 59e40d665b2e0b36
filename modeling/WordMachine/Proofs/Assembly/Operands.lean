import WordMachine.Assembly.Draft
import WordMachine.Proofs.Assembly.Tables

/-!
# Operands in a draft and in a listing

A draft writes a label operand as a position in the label table, a listing keeps the
name. Apart from that both read operands alike: what a draft reads is what the listing
reads, with positions in place of names (`instruction_yields`). Every operand read has
a field that can be read back.
-/

namespace WordMachine.Assembly

/-- A cause that lies in the assembler, not in the source: a declared label without
address, or code of its own making that does not decode. -/
def Cause.Internal : Cause → Prop
  | .unresolvedLabel | .undecodable _ => True
  | _ => False

/-- A result with a property, or a cause that lies in the source. -/
def Yields {α : Type} (outcome : Except Cause α) (good : α → Prop) : Prop :=
  match outcome with
  | .ok value => good value
  | .error cause => ¬ cause.Internal

theorem Yields.bind {α β : Type} {outcome : Except Cause α} {next : α → Except Cause β}
    {middle : α → Prop} {good : β → Prop} (first : Yields outcome middle)
    (second : ∀ value, middle value → Yields (next value) good) :
    Yields (outcome >>= next) good := by
  cases outcome with
  | ok value => exact second value first
  | error cause => exact first

/-- The number that a draft writes for a label: its position in the table. -/
def Scope.index (scope : Scope) (name : Token) : Word :=
  UInt16.ofNat ((scope.labels.idxOf? name).getD 0)

/-- Whether an operand can be encoded and read back: a label has a position of one
word. -/
def Term.Sound (scope : Scope) : Term → Prop
  | .label name => ∃ index, scope.labels.idxOf? name = some index ∧ index < 0x10000
  | .plain argument => argument.mode ≠ .label ∧ argument.Encodable

theorem Term.Sound.encodable {scope : Scope} {term : Term} (sound : term.Sound scope)
    (address : Token → Word) : (term.resolve address).Encodable := by
  cases term with
  | label name => exact ⟨Mode.noConfusion, fun register => nomatch register⟩
  | plain argument => exact sound.2

/-- Whether an instruction has the operands its opcode calls for, each of them sound,
and no number as its destination. -/
structure Symbolic.Sound (scope : Scope) (symbolic : Symbolic) : Prop where
  dst : if symbolic.opcode.shape.hasDst then
      symbolic.dst.Sound scope ∧ symbolic.dst.mode ≠ .number
    else symbolic.dst = Listing.absent
  src : if symbolic.opcode.shape.hasSrc then symbolic.src.Sound scope
    else symbolic.src = Listing.absent
  trailing : symbolic.trailing.isSome = symbolic.opcode.shape.hasTrailing
  pushSize : symbolic.opcode = .push → symbolic.trailing = some 1 ∨ symbolic.trailing = some 2

theorem Symbolic.Sound.of_hasDst {scope : Scope} {symbolic : Symbolic}
    (sound : symbolic.Sound scope) (carried : symbolic.opcode.shape.hasDst = true) :
    symbolic.dst.Sound scope ∧ symbolic.dst.mode ≠ .number := by
  have dst := sound.dst
  rwa [if_pos carried] at dst

theorem Symbolic.Sound.of_hasSrc {scope : Scope} {symbolic : Symbolic}
    (sound : symbolic.Sound scope) (carried : symbolic.opcode.shape.hasSrc = true) :
    symbolic.src.Sound scope := by
  have src := sound.src
  rwa [if_pos carried] at src

theorem Symbolic.Sound.dst_sound {scope : Scope} {symbolic : Symbolic}
    (sound : symbolic.Sound scope) :
    if symbolic.opcode.shape.hasDst then symbolic.dst.Sound scope
    else symbolic.dst = Listing.absent := by
  have dst := sound.dst
  by_cases carried : symbolic.opcode.shape.hasDst = true
  · rw [if_pos carried]
    exact (sound.of_hasDst carried).1
  · rw [if_neg carried] at dst ⊢
    exact dst

theorem Symbolic.Sound.wellFormed {scope : Scope} {symbolic : Symbolic}
    (sound : symbolic.Sound scope) (address : Token → Word) :
    (symbolic.resolve address).WellFormed where
  dst := by
    have dst := sound.dst
    have sameOpcode : (symbolic.resolve address).opcode = symbolic.opcode := rfl
    rw [sameOpcode]
    by_cases carried : symbolic.opcode.shape.hasDst = true
    · rw [if_pos carried]
      exact (sound.of_hasDst carried).1.encodable address
    · rw [if_neg carried] at dst ⊢
      rw [Symbolic.resolve, dst]
      rfl
  src := by
    have src := sound.src
    have sameOpcode : (symbolic.resolve address).opcode = symbolic.opcode := rfl
    rw [sameOpcode]
    by_cases carried : symbolic.opcode.shape.hasSrc = true
    · rw [if_pos carried]
      exact (sound.of_hasSrc carried).encodable address
    · rw [if_neg carried] at src ⊢
      rw [Symbolic.resolve, src]
      rfl
  trailing := sound.trailing

/-- Whether a draft has the tables of a scope and the locals of a listing. -/
structure Draft.Knows (draft : Draft) (scope : Scope) (listing : Listing) : Prop where
  labels : draft.labels.toList.map Label.name = scope.labels
  globals : draft.globals.toList.map (fun global => (global.name, global.address)) =
    scope.globals
  locals : draft.locals.toList.map (fun slot => (slot.name, slot.offset)) = listing.locals

theorem lookup_map_eq_find? {α β : Type} (entries : List α) (key : α → Token) (value : α → β)
    (wanted : Token) :
    (entries.map fun entry => (key entry, value entry)).lookup wanted =
      (entries.find? fun entry => key entry == wanted).map value := by
  induction entries with
  | nil => rfl
  | cons entry rest ih =>
      rw [List.map_cons, List.lookup_cons, List.find?_cons, ih, BEq.comm]
      cases key entry == wanted <;> rfl

namespace Draft

variable {draft : Draft} {scope : Scope} {listing : Listing}

/-- An operand read is what the listing reads, with a position in place of a label's
name. -/
def Reads (scope : Scope) (written : Option Term) (argument : Argument) : Prop :=
  ∃ term, written = some term ∧ argument = term.resolve scope.index ∧ term.Sound scope

theorem reads_plain {mode : Mode} {value : Word} (noLabel : mode ≠ .label)
    (present : mode ≠ .absent) (wide : mode.isRegisterField = false) :
    Reads scope (some (.plain ⟨mode, value⟩)) ⟨mode, value⟩ :=
  ⟨_, rfl, rfl, noLabel, present, fun narrow => absurd narrow (by
    rw [wide]
    exact Bool.noConfusion)⟩

theorem reads_register {mode : Mode} {number : UInt8} (noLabel : mode ≠ .label)
    (present : mode ≠ .absent) :
    Reads scope (some (.plain ⟨mode, number.toUInt16⟩)) ⟨mode, number.toUInt16⟩ :=
  ⟨_, rfl, rfl, noLabel, present, fun _ => number.toNat_lt⟩

/-- An address in brackets. -/
theorem bracketed_yields (inner : List Char) :
    Yields (bracketed inner) (Reads scope ((Listing.bracketed? inner).map .plain)) := by
  rw [bracketed, Listing.bracketed?]
  by_cases closed : inner.getLast? = some ']'
  · rw [if_pos closed, if_pos closed]
    simp only
    cases number : Name.register? inner.dropLast with
    | some number =>
        have isRegister : Name.isRegister inner.dropLast = true := by
          by_contra other
          rw [Name.register?, if_neg other] at number
          cases number
        rw [if_pos isRegister, registerArgument, number]
        exact reads_register Mode.noConfusion Mode.noConfusion
    | none =>
        by_cases isRegister : Name.isRegister inner.dropLast = true
        · rw [if_pos isRegister, registerArgument, number]
          exact fun internal => internal
        · rw [if_neg isRegister]
          by_cases digit : inner.dropLast.head?.any Char.isDigit = true
          · rw [if_pos digit, if_pos digit]
            cases Numeral.word? inner.dropLast with
            | some address => exact reads_plain Mode.noConfusion Mode.noConfusion rfl
            | none => exact fun internal => internal
          · rw [if_neg digit]
            exact fun internal => internal
  · rw [if_neg closed]
    exact fun internal => internal

theorem named_yields (knows : draft.Knows scope listing) (name : Token) :
    Yields (draft.named name) (Reads scope (listing.named? scope name)) := by
  rw [named, findLabel?_eq_idxOf?, knows.labels, Listing.named?]
  cases place : scope.labels.idxOf? name with
  | some index =>
      have member : name ∈ scope.labels := by
        by_contra unknown
        rw [List.idxOf?_eq_none_iff.mpr unknown] at place
        cases place
      rw [if_pos member]
      by_cases small : index < 0x10000
      · simp only [small, if_true]
        refine ⟨.label name, rfl, ?_, index, place, small⟩
        rw [Term.resolve, Scope.index, place]
        rfl
      · simp only [small, if_false]
        exact fun internal => internal
  | none =>
      rw [if_neg (List.idxOf?_eq_none_iff.mp place), ← knows.globals, ← knows.locals,
        lookup_map_eq_find?, lookup_map_eq_find?, Array.find?_toList, Array.find?_toList]
      simp only
      cases draft.globals.find? fun global => global.name == name with
      | some global => exact reads_plain Mode.noConfusion Mode.noConfusion rfl
      | none =>
          cases draft.locals.find? fun slot => slot.name == name with
          | some slot => exact reads_plain Mode.noConfusion Mode.noConfusion rfl
          | none =>
              by_cases likeRegister : Name.hasRegisterPrefix name = true
              · simp only [likeRegister, if_true]
                exact fun internal => internal
              · simp only [likeRegister]
                exact fun internal => internal

theorem argument_yields (knows : draft.Knows scope listing) (token : Token) :
    Yields (draft.argument token) (Reads scope (listing.operand? scope token)) := by
  by_cases opened : ∃ inner, token = '[' :: inner
  · rcases opened with ⟨inner, rfl⟩
    exact bracketed_yields inner
  · have noBracket : ∀ inner, token ≠ '[' :: inner := fun inner equal => opened ⟨inner, equal⟩
    rw [argument, Listing.operand?]
    · by_cases numeral : (token.head?.any fun char => char.isDigit || char == '-') = true
      · rw [if_pos numeral, if_pos numeral]
        cases Numeral.word? token with
        | some value => exact reads_plain Mode.noConfusion Mode.noConfusion rfl
        | none => exact fun internal => internal
      · rw [if_neg numeral, if_neg numeral]
        by_cases isRegister : Name.isRegister token = true
        · rw [if_pos isRegister, registerArgument]
          cases Name.register? token with
          | some number => exact reads_register Mode.noConfusion Mode.noConfusion
          | none => exact fun internal => internal
        · have noNumber : Name.register? token = none := by
            rw [Name.register?, if_neg isRegister]
          rw [if_neg isRegister, noNumber]
          exact named_yields knows token
    · exact noBracket
    · exact noBracket

/-- A destination is read like any operand, but is no number. -/
theorem destination_yields (knows : draft.Knows scope listing) (token : Token) :
    Yields (draft.destination token) fun argument =>
      Reads scope (listing.destination? scope token) argument ∧ argument.mode ≠ .number := by
  rw [destination]
  apply (argument_yields knows token).bind
  intro argument ended
  rcases ended with ⟨term, written, rfl, sound⟩
  by_cases number : (term.resolve scope.index).mode = .number
  · rw [if_pos number]
    exact fun internal => internal
  · rw [if_neg number]
    refine ⟨⟨term, ?_, rfl, sound⟩, number⟩
    rw [Term.mode_resolve] at number
    rw [Listing.destination?, written]
    simp [number]

/-- An instruction read is what the listing reads, with positions in place of label
names. -/
def Spells (scope : Scope) (written : Option Symbolic) (instruction : Instruction) : Prop :=
  ∃ symbolic, written = some symbolic ∧ instruction = symbolic.resolve scope.index ∧
    symbolic.Sound scope

theorem remainderRegister_yields (token : Token) :
    Yields (remainderRegister token) fun register => Name.register? token = some register := by
  rw [remainderRegister]
  cases Name.register? token with
  | some register => rfl
  | none => exact fun internal => internal

/-- An instruction is sound if it has what its shape calls for. -/
theorem sound_of_shape {symbolic : Symbolic} {shape : Shape}
    (known : symbolic.opcode.shape = shape)
    (dst : if shape.hasDst then symbolic.dst.Sound scope ∧ symbolic.dst.mode ≠ .number
      else symbolic.dst = Listing.absent)
    (src : if shape.hasSrc then symbolic.src.Sound scope else symbolic.src = Listing.absent)
    (trailing : symbolic.trailing.isSome = shape.hasTrailing)
    (sized : shape = .srcSized → symbolic.trailing = some 1 ∨ symbolic.trailing = some 2) :
    symbolic.Sound scope := by
  subst known
  refine ⟨dst, src, trailing, fun push => sized ?_⟩
  rw [push]
  rfl

theorem instruction_yields (knows : draft.Knows scope listing) (opcode : Opcode)
    (operands : List Token) :
    Yields (draft.instruction opcode operands)
      (Spells scope (listing.instruction? scope opcode operands)) := by
  unfold instruction
  split
  next shape =>
    refine ⟨⟨opcode, Listing.absent, Listing.absent, none⟩, ?_, rfl, ?_⟩
    · simp only [Listing.instruction?.eq_def, shape]
      rfl
    · exact sound_of_shape shape rfl rfl rfl Shape.noConfusion
  next dst shape =>
    apply (destination_yields knows dst).bind
    intro _ ended
    rcases ended with ⟨⟨dstTerm, dstWritten, rfl, dstSound⟩, noNumber⟩
    rw [Term.mode_resolve] at noNumber
    refine ⟨⟨opcode, dstTerm, Listing.absent, none⟩, ?_, rfl, ?_⟩
    · simp only [Listing.instruction?.eq_def, shape, dstWritten]
      rfl
    · exact sound_of_shape shape ⟨dstSound, noNumber⟩ rfl rfl Shape.noConfusion
  next src shape =>
    apply (argument_yields knows src).bind
    intro _ ended
    rcases ended with ⟨srcTerm, srcWritten, rfl, srcSound⟩
    refine ⟨⟨opcode, Listing.absent, srcTerm, some 2⟩, ?_, rfl, ?_⟩
    · simp only [Listing.instruction?.eq_def, shape, srcWritten]
      rfl
    · exact sound_of_shape shape rfl srcSound rfl fun _ => Or.inr rfl
  next src dst shape =>
    apply (destination_yields knows dst).bind
    intro _ ended
    rcases ended with ⟨⟨dstTerm, dstWritten, rfl, dstSound⟩, noNumber⟩
    rw [Term.mode_resolve] at noNumber
    apply (argument_yields knows src).bind
    intro _ ended
    rcases ended with ⟨srcTerm, srcWritten, rfl, srcSound⟩
    refine ⟨⟨opcode, dstTerm, srcTerm, none⟩, ?_, rfl, ?_⟩
    · simp only [Listing.instruction?.eq_def, shape, dstWritten, srcWritten]
      rfl
    · exact sound_of_shape shape ⟨dstSound, noNumber⟩ srcSound rfl Shape.noConfusion
  next src dst remainder shape =>
    apply (destination_yields knows dst).bind
    intro _ ended
    rcases ended with ⟨⟨dstTerm, dstWritten, rfl, dstSound⟩, noNumber⟩
    rw [Term.mode_resolve] at noNumber
    apply (argument_yields knows src).bind
    intro _ ended
    rcases ended with ⟨srcTerm, srcWritten, rfl, srcSound⟩
    apply (remainderRegister_yields remainder).bind
    intro register isRegister
    refine ⟨⟨opcode, dstTerm, srcTerm, some register⟩, ?_, rfl, ?_⟩
    · simp only [Listing.instruction?.eq_def, shape, dstWritten, srcWritten, isRegister]
      rfl
    · exact sound_of_shape shape ⟨dstSound, noNumber⟩ srcSound rfl Shape.noConfusion
  next => exact fun internal => internal

end Draft

end WordMachine.Assembly
