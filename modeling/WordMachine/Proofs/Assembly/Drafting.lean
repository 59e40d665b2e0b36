import WordMachine.Proofs.Assembly.Operands

/-!
# What drafting operations do

One statement for each operation on a draft: what is known when it returns and the
draft it leaves, and which causes it turns a line down with. The only operation that
can blame the tables rather than the text is `placeLabel`, and only for a good name
that the label table does not have.
-/

namespace WordMachine

/-- Whether an instruction moves the stack pointer. -/
def Opcode.usesStack (opcode : Opcode) : Bool := decide (opcode = .push ∨ opcode = .pop)

namespace Assembly

namespace Draft

variable {draft : Draft} {scope : Scope} {listing : Listing}

theorem checkName_ends (token : Token) :
    Ends (checkName token) draft
      (fun _ final => final = draft ∧ Declarations.isName token = true)
      (fun cause _ => ¬ cause.Internal) := by
  simp only [checkName]
  by_cases identifier : Name.isIdentifier token = true
  · by_cases fits : Name.Fits token
    · simp [identifier, fits, Declarations.isName]
    · simp [identifier, fits, Cause.Internal]
  · simp [identifier, Cause.Internal]

/-- A label is placed where the code ends, if it is in the table and has no address. -/
theorem placeLabel_ends (name : Token) :
    Ends (placeLabel name) draft
      (fun _ final => Declarations.isName name = true ∧ ∃ address index,
        draft.writer.offset = .ok address ∧ findLabel? draft.labels name = some index ∧
        draft.labels[index]?.bind Label.address = none ∧
        final = { draft with
          labels := draft.labels.modify index fun label =>
            { label with address := some address } })
      (fun cause _ => cause.Internal →
        Declarations.isName name = true ∧ findLabel? draft.labels name = none) := by
  simp only [placeLabel, ends_bind]
  apply (checkName_ends name).mono
  · intro _ _ ended
    rcases ended with ⟨rfl, good⟩
    rename_i draft
    cases place : draft.writer.offset with
    | error error => simp [place, Cause.Internal]
    | ok address =>
        cases entry : findLabel? draft.labels name with
        | none => simp [place, entry, good]
        | some index =>
            cases known : draft.labels[index]?.bind Label.address with
            | some old => simp [place, entry, known, Cause.Internal]
            | none =>
                simp only [ends_get, place, ends_bind, ends_pure, entry, known,
                  Option.isSome_none, Bool.false_eq_true, if_false, ends_modify]
                exact ⟨good, address, index, rfl, rfl, known, rfl⟩
  · intro cause _ notInternal internal
    exact absurd internal notInternal

/-- A global is declared once, and only where it ends inside the data segment. -/
theorem declareGlobal_ends (name : Token) :
    Ends (declareGlobal name) draft
      (fun _ final => Declarations.isName name = true ∧ ∃ index global,
        findGlobal? draft.globals name = some index ∧
        draft.globals[index]? = some global ∧ global.declared = false ∧
        global.fits draft.dataSize = true ∧
        final = { draft with
          globals := draft.globals.modify index fun global =>
            { global with declared := true } })
      (fun cause _ => ¬ cause.Internal) := by
  simp only [declareGlobal, ends_bind]
  apply (checkName_ends name).mono
  · intro _ _ ended
    rcases ended with ⟨rfl, good⟩
    rename_i draft
    cases entry : findGlobal? draft.globals name with
    | none => simp [entry, Cause.Internal]
    | some index =>
        obtain ⟨inside, -⟩ := Array.findIdx?_eq_some_iff_getElem.mp entry
        have global := Array.getElem?_eq_getElem inside
        cases declared : draft.globals[index].declared with
        | true => simp [entry, global, declared, Cause.Internal]
        | false =>
            cases fits : draft.globals[index].fits draft.dataSize with
            | false => simp [entry, global, declared, fits, Cause.Internal]
            | true =>
                simp only [ends_get, entry, global, declared, fits, Option.any_some,
                  Option.all_some, Bool.false_eq_true, if_false, if_true, ends_modify]
                exact ⟨good, index, _, rfl, global, declared, fits, rfl⟩
  · exact fun cause _ notInternal => notInternal

/-- A local takes the next offset and the push of a zero, as long as the stack holds nothing
but locals. -/
theorem declareLocal_ends (scope : Scope) (arguments : List Token) :
    Ends (declareLocal arguments) draft
      (fun _ final => ∃ keyword name type frameSize,
        arguments = [keyword, name] ∧ VariableType.ofKeyword? keyword = some type ∧
        draft.stackUsed = false ∧ Declarations.isName name = true ∧
        name ∉ draft.locals.toList.map Local.name ∧
        Declarations.addressAfter? draft.frameSize type.size = some frameSize ∧
        final = { draft with
          locals := draft.locals.push ⟨name, draft.frameSize, type⟩
          frameSize
          instructionLines := draft.instructionLines.push draft.line
          writer := draft.writer.emit ((Listing.pushZero type).resolve scope.index) })
      (fun cause _ => ¬ cause.Internal) := by
  unfold declareLocal
  split
  next keyword name =>
    cases known : VariableType.ofKeyword? keyword with
    | none => exact fun internal => internal
    | some type =>
        simp only [ends_bind, ends_pure, ends_get, ends_ite, ends_throw]
        split
        · exact fun internal => internal
        next unused =>
          apply (checkName_ends name).mono
          · intro _ checked ended
            rcases ended with ⟨rfl, good⟩
            split
            · exact fun internal => internal
            next fresh =>
              cases next : Declarations.addressAfter? checked.frameSize type.size with
              | none => exact fun internal => internal
              | some frameSize =>
                  simp only [ends_bind, ends_modify, emit]
                  refine ⟨keyword, name, type, frameSize, rfl, known, ?_, good, ?_, next, rfl⟩
                  · exact Bool.not_eq_true _ ▸ unused
                  · intro member
                    rcases List.mem_map.mp member with ⟨slot, slotMember, same⟩
                    exact fresh (Array.any_eq_true'.mpr
                      ⟨slot, Array.mem_toList_iff.mp slotMember, beq_iff_eq.mpr same⟩)
          · exact fun cause _ notInternal => notInternal
  next => exact fun internal => internal

/-- Whether every declared global ends inside the data segment. -/
def Fitting (draft : Draft) : Prop :=
  ∀ global ∈ draft.globals, global.declared = true → global.fits draft.dataSize = true

theorem setSize_ends {set : UInt64 → Draft → Draft} (arguments : List Token) :
    Ends (setSize set arguments) draft
      (fun _ final => ∃ value size, arguments = [value] ∧ Numeral.size? value = some size ∧
        final = set size draft ∧ final.Fitting)
      (fun cause _ => ¬ cause.Internal) := by
  unfold setSize
  split
  next value =>
    cases known : Numeral.size? value with
    | none => exact fun internal => internal
    | some size =>
        simp only [ends_bind, ends_modify, ends_get, ends_ite, ends_throw, ends_pure]
        split
        · exact fun internal => internal
        next allFit =>
          refine ⟨value, size, rfl, known, rfl, ?_⟩
          intro global member declared
          by_contra unfit
          rw [Bool.not_eq_true] at unfit
          refine allFit (Array.any_eq_true'.mpr ⟨global, member, ?_⟩)
          rw [declared, unfit]
          rfl
  next => exact fun internal => internal

theorem eq_of_spells {token : Token} {first second : String} (one : token.spells first = true)
    (other : token.spells second = true) : first = second := by
  rw [Token.spells, beq_iff_eq] at one other
  exact String.toList_inj.mp (one.symm.trans other)

theorem setting?_of_not_spells {setting : String} {name : Token} {arguments : List Token}
    (other : ¬ name.spells setting = true) :
    (Statement.pragma (name :: arguments)).setting? setting = none := by
  unfold Statement.setting?
  split
  next given =>
    obtain ⟨rfl, rfl⟩ := List.cons.inj (Statement.pragma.inj given)
    exact if_neg other
  next => rfl

/-- A pragma changes the sizes it sets and nothing else that the image depends on. -/
theorem pragma_ends (arguments : List Token) :
    Ends (pragma arguments) draft
      (fun _ final =>
        final.dataSize =
          ((Statement.pragma arguments).setting? "datapagesize").getD draft.dataSize ∧
        final.stackSize =
          ((Statement.pragma arguments).setting? "stacksize").getD draft.stackSize ∧
        (draft.Fitting → final.Fitting) ∧
        ∃ ignoredPragmas, final = { draft with
          dataSize := final.dataSize
          stackSize := final.stackSize
          ignoredPragmas })
      (fun cause _ => ¬ cause.Internal) := by
  unfold pragma
  split
  next => exact ⟨rfl, rfl, id, _, rfl⟩
  next name arguments =>
    by_cases data : name.spells "datapagesize" = true
    · have noStack : ¬ name.spells "stacksize" = true := fun stack =>
        absurd (eq_of_spells data stack) (by decide)
      rw [if_pos data]
      apply (setSize_ends arguments).mono
      · intro _ _ ended
        rcases ended with ⟨value, size, rfl, known, rfl, fitting⟩
        refine ⟨?_, ?_, fun _ => fitting, _, rfl⟩
        · simp [Statement.setting?, data, known]
        · rw [setting?_of_not_spells noStack]
          rfl
      · exact fun cause _ notInternal => notInternal
    · rw [if_neg data]
      by_cases stack : name.spells "stacksize" = true
      · rw [if_pos stack]
        apply (setSize_ends arguments).mono
        · intro _ _ ended
          rcases ended with ⟨value, size, rfl, known, rfl, fitting⟩
          refine ⟨?_, ?_, fun _ => fitting, _, rfl⟩
          · rw [setting?_of_not_spells data]
            rfl
          · simp [Statement.setting?, stack, known]
        · exact fun cause _ notInternal => notInternal
      · rw [if_neg stack]
        refine ⟨?_, ?_, id, _, rfl⟩
        · rw [setting?_of_not_spells data]
          rfl
        · rw [setting?_of_not_spells stack]
          rfl

/-- The instruction that operands spell has the opcode that was given. -/
theorem opcode_of_instruction? {opcode : Opcode} {operands : List Token} {symbolic : Symbolic}
    (spelled : listing.instruction? scope opcode operands = some symbolic) :
    symbolic.opcode = opcode := by
  unfold Listing.instruction? at spelled
  split at spelled
  · cases spelled
    rfl
  · rcases Option.bind_eq_some_iff.mp spelled with ⟨dst, -, same⟩
    cases same
    rfl
  · rcases Option.bind_eq_some_iff.mp spelled with ⟨src, -, same⟩
    cases same
    rfl
  · rcases Option.bind_eq_some_iff.mp spelled with ⟨dst, -, later⟩
    rcases Option.bind_eq_some_iff.mp later with ⟨src, -, same⟩
    cases same
    rfl
  · rcases Option.bind_eq_some_iff.mp spelled with ⟨dst, -, later⟩
    rcases Option.bind_eq_some_iff.mp later with ⟨src, -, last⟩
    rcases Option.bind_eq_some_iff.mp last with ⟨register, -, same⟩
    cases same
    rfl
  · cases spelled

/-- An instruction of the listing is emitted, with positions in place of label names. A push or
a pop is noted. -/
theorem addInstruction_ends (knows : draft.Knows scope listing) (mnemonic : Token)
    (operands : List Token) :
    Ends (addInstruction mnemonic operands) draft
      (fun _ final => ∃ symbolic,
        Opcode.ofMnemonic? mnemonic.lowerCase = some symbolic.opcode ∧
        listing.addInstruction scope mnemonic operands =
          some (listing.addItem (.code symbolic)) ∧
        symbolic.Sound scope ∧
        final = { draft with
          stackUsed := draft.stackUsed || symbolic.opcode.usesStack
          instructionLines := draft.instructionLines.push draft.line
          writer := draft.writer.emit (symbolic.resolve scope.index) })
      (fun cause _ => ¬ cause.Internal) := by
  unfold addInstruction
  cases known : Opcode.ofMnemonic? mnemonic.lowerCase with
  | none => exact fun internal => internal
  | some opcode =>
      simp only [ends_bind, ends_get, ends_ofExcept]
      have yields := instruction_yields knows opcode operands
      split
      next instruction outcome =>
        rw [outcome] at yields
        rcases yields with ⟨symbolic, spelled, rfl, sound⟩
        have added : listing.addInstruction scope mnemonic operands =
            some (listing.addItem (.code symbolic)) := by
          rw [Listing.addInstruction, known]
          simp [spelled]
        obtain rfl := opcode_of_instruction? spelled
        simp only [ends_ite, ends_bind, ends_modify, emit]
        split
        next uses =>
          refine ⟨symbolic, rfl, added, sound, ?_⟩
          rw [Opcode.usesStack, decide_eq_true uses, Bool.or_true]
        next unused =>
          refine ⟨symbolic, rfl, added, sound, ?_⟩
          rw [Opcode.usesStack, decide_eq_false unused, Bool.or_false]
      next cause outcome =>
        rw [outcome] at yields
        exact yields

end Draft

end Assembly

end WordMachine
