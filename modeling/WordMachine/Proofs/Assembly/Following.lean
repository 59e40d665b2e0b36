import WordMachine.Proofs.Assembly.Contributions

/-!
# The second reading of any text

A source that was revised between the readings has its names from one text and its code from
another. The draft follows the second text all the same: it has the code and the locals of the
statements read so far, the line of every instruction, and no label but those found in the first
text (`Follows`). Every line that is not turned down keeps that (`addLine_follows`), so it holds
of whatever the second reading accepts (`feedLines_follows`).
-/

namespace WordMachine.Assembly

namespace Draft

variable {found before : Declarations} {listing longer : Listing} {draft final : Draft}
  {statement : Statement} {statements : List Statement}

/-- What a draft has after statements, for the names `found` in any text. -/
structure Follows (found : Declarations) (statements : List Statement) (listing : Listing)
    (draft : Draft) : Prop where
  built : statements.foldlM (Listing.add found.scope) .empty = some listing
  agreed : ∃ before, draft.Matches found before listing
  recorded : listing.labelNames ⊆ found.labelNames
  line : draft.line = .nth statements.length
  instructionLines : draft.instructionLines.toList = Statement.codeLines statements
  locals : draft.locals.toList.map (fun slot => (slot.name, slot.type)) =
    statements.filterMap Statement.declaredLocal?
  localNames : (draft.locals.toList.map Local.name).Nodup
  frame : Contiguous 0 (draft.locals.toList.map fun slot => (slot.offset.toNat, slot.type.size))
  stackUsed : draft.stackUsed = statements.any Statement.usesStack
  localsFirst : statements.Pairwise fun earlier later =>
    later.declaredLocal?.isSome = true → earlier.usesStack = false

/-- What a statement adds to a draft that matches a listing. -/
structure Step (found : Declarations) (listing : Listing) (draft : Draft) (statement : Statement)
    (longer : Listing) (final : Draft) : Prop where
  added : listing.add found.scope statement = some longer
  agreed : ∃ before, final.Matches found before longer
  recorded : statement.declaredLabel?.toList ⊆ found.labelNames
  line : final.line = draft.line
  instructionLines : final.instructionLines.toList =
    draft.instructionLines.toList ++ if statement.makesCode then [draft.line] else []
  locals : final.locals.toList = draft.locals.toList ++
    (statement.declaredLocal?.map fun slot => (⟨slot.1, draft.frameSize, slot.2⟩ : Local)).toList
  stackUsed : final.stackUsed = (draft.stackUsed || statement.usesStack)
  fresh : ∀ slot ∈ statement.declaredLocal?,
    slot.1 ∉ draft.locals.toList.map Local.name ∧ draft.stackUsed = false

/-- A statement that is no code changes neither the lines nor the locals nor the use of the
stack. -/
structure SameCode (draft final : Draft) : Prop where
  line : final.line = draft.line
  instructionLines : final.instructionLines = draft.instructionLines
  locals : final.locals = draft.locals
  stackUsed : final.stackUsed = draft.stackUsed

theorem SameCode.trans {middle : Draft} (front : draft.SameCode middle)
    (back : middle.SameCode final) : draft.SameCode final where
  line := back.line.trans front.line
  instructionLines := back.instructionLines.trans front.instructionLines
  locals := back.locals.trans front.locals
  stackUsed := back.stackUsed.trans front.stackUsed

theorem Step.of_sameCode (same : draft.SameCode final)
    (added : listing.add found.scope statement = some longer)
    (agreed : ∃ before, final.Matches found before longer)
    (recorded : statement.declaredLabel?.toList ⊆ found.labelNames)
    (noCode : statement.makesCode = false) (noLocal : statement.declaredLocal? = none)
    (noStack : statement.usesStack = false) :
    Step found listing draft statement longer final where
  added
  agreed
  recorded
  line := same.line
  instructionLines := by simp [same.instructionLines, noCode]
  locals := by simp [same.locals, noLocal]
  stackUsed := by simp [same.stackUsed, noStack]
  fresh := by simp [noLocal]

/-- A label is placed behind the listing if it is among the names found. -/
theorem placeLabel_steps (agreed : draft.Matches found before listing) (tidy : found.Tidy)
    (name : Token) :
    Ends (placeLabel name) draft
      (fun _ final => (∃ before, final.Matches found before (listing.addItem (.label name))) ∧
        name ∈ found.labelNames ∧ draft.SameCode final)
      (fun _ _ => True) := by
  apply (placeLabel_ends name).mono
  · intro _ final ended
    rcases ended with ⟨-, address, index, place, entry, unplaced, rfl⟩
    have known : name ∈ found.labelNames := by
      by_contra unknown
      rw [agreed.findLabel?, List.idxOf?_eq_none_iff.mpr unknown] at entry
      cases entry
    exact ⟨⟨_, (agreed.placed_of_offset tidy place entry unplaced).2⟩, known, rfl, rfl, rfl, rfl⟩
  · exact fun _ _ _ => trivial

/-- An instruction is emitted with its line. -/
theorem addInstruction_steps (agreed : draft.Matches found before listing) (mnemonic : Token)
    (operands : List Token) :
    Ends (addInstruction mnemonic operands) draft
      (fun _ final => ∃ longer,
        Step found listing draft (.instruction mnemonic operands) longer final)
      (fun _ _ => True) := by
  apply (addInstruction_ends agreed.knows mnemonic operands).mono
  · intro _ final ended
    rcases ended with ⟨symbolic, known, added, sound, rfl⟩
    refine ⟨listing.addItem (.code symbolic), ?_⟩
    constructor
    case added => exact added
    case agreed => exact ⟨before, agreed.emit sound _ _⟩
    case recorded => simp [Statement.declaredLabel?]
    case line => rfl
    case instructionLines => simp [Statement.makesCode]
    case locals => simp [Statement.declaredLocal?]
    case stackUsed => simp [Statement.usesStack, known]
    case fresh => simp [Statement.declaredLocal?]
  · exact fun _ _ _ => trivial

theorem declareGlobal_steps (agreed : draft.Matches found before listing) (tidy : found.Tidy)
    (name : Token) :
    Ends (declareGlobal name) draft
      (fun _ final => (∃ before, final.Matches found before listing) ∧ draft.SameCode final)
      (fun _ _ => True) := by
  apply (declareGlobal_ends name).mono
  · intro _ final ended
    rcases ended with ⟨-, index, global, place, entry, undeclared, fits, rfl⟩
    obtain ⟨named, member⟩ := of_findGlobal? place entry
    -- The type and the address that the second text gives the name are of no consequence.
    exact ⟨⟨before.pushGlobal name 0 .byte, agreed.marked tidy place named member fits⟩,
      rfl, rfl, rfl, rfl⟩
  · exact fun _ _ _ => trivial

theorem forM_declareGlobal_steps (agreed : draft.Matches found before listing)
    (tidy : found.Tidy) (names : List Token) :
    Ends (names.forM declareGlobal) draft
      (fun _ final => (∃ before, final.Matches found before listing) ∧ draft.SameCode final)
      (fun _ _ => True) := by
  induction names generalizing before draft with
  | nil => exact ⟨⟨before, agreed⟩, rfl, rfl, rfl, rfl⟩
  | cons name rest ih =>
      rw [List.forM, ends_bind]
      apply (declareGlobal_steps agreed tidy name).mono
      · intro _ middle ended
        rcases ended with ⟨⟨middleBefore, middleAgreed⟩, same⟩
        apply (ih middleAgreed).mono
        · intro _ final later
          exact ⟨later.1, same.trans later.2⟩
        · exact fun _ _ _ => trivial
      · exact fun _ _ _ => trivial

/-- Every statement that is not turned down adds to the draft what it adds to the listing. -/
theorem addStatement_steps (agreed : draft.Matches found before listing) (tidy : found.Tidy)
    (statement : Statement) :
    Ends (addStatement statement) draft
      (fun _ final => ∃ longer, Step found listing draft statement longer final)
      (fun _ _ => True) := by
  cases statement with
  | blank =>
      exact ⟨listing, .of_sameCode ⟨rfl, rfl, rfl, rfl⟩ rfl ⟨before, agreed⟩
        (List.nil_subset _) rfl rfl rfl⟩
  | pragma arguments =>
      apply ((pragma_ends arguments).and (pragma_matches agreed arguments)).mono
      · intro _ final ended
        rcases ended with ⟨⟨-, -, -, ignored, same⟩, finalAgreed, -⟩
        refine ⟨listing, .of_sameCode ?_ rfl ⟨before, finalAgreed⟩ (List.nil_subset _) rfl rfl rfl⟩
        rw [same]
        exact ⟨rfl, rfl, rfl, rfl⟩
      · exact fun _ _ _ => trivial
  | globals type names =>
      simp only [addStatement, declareGlobals, ends_ite, ends_bind, ends_throw]
      split
      · trivial
      · apply (forM_declareGlobal_steps agreed tidy names).mono
        · intro _ final ended
          exact ⟨listing, .of_sameCode ended.2 rfl ended.1 (List.nil_subset _) rfl rfl rfl⟩
        · exact fun _ _ _ => trivial
  | localVariable arguments =>
      apply ((declareLocal_ends found.scope arguments).and
        (declareLocal_matches agreed arguments)).mono
      · intro _ final ended
        rcases ended with
          ⟨⟨keyword, name, type, frameSize, rfl, known, unused, -, fresh, next, rfl⟩,
          longer, added, finalAgreed, -⟩
        have declared : (Statement.localVariable [keyword, name]).declaredLocal? =
            some (name, type) := by
          simp [Statement.declaredLocal?, known]
        refine ⟨longer, ?_⟩
        constructor
        case added => exact added
        case agreed => exact ⟨before, finalAgreed⟩
        case recorded => exact List.nil_subset _
        case line => rfl
        case instructionLines => simp [Statement.makesCode]
        case locals => simp [declared]
        case stackUsed => simp [Statement.usesStack]
        case fresh =>
          intro slot member
          rw [declared] at member
          cases member
          exact ⟨fresh, unused⟩
      · exact fun _ _ _ => trivial
  | instruction mnemonic operands => exact addInstruction_steps agreed mnemonic operands
  | label name rest =>
      cases rest with
      | nil =>
          apply (placeLabel_steps agreed tidy name).mono
          · intro _ final ended
            rcases ended with ⟨finalAgreed, known, same⟩
            exact ⟨_, .of_sameCode same rfl finalAgreed
              (List.cons_subset.mpr ⟨known, List.nil_subset _⟩) rfl rfl rfl⟩
          · exact fun _ _ _ => trivial
      | cons mnemonic operands =>
          rw [addStatement, ends_bind]
          apply (placeLabel_steps agreed tidy name).mono
          · intro _ middle ended
            rcases ended with ⟨⟨middleBefore, middleAgreed⟩, known, same⟩
            apply (addInstruction_steps middleAgreed mnemonic operands).mono
            · intro _ final later
              rcases later with ⟨longer, step⟩
              refine ⟨longer, ?_⟩
              constructor
              case added => exact step.added
              case agreed => exact step.agreed
              case recorded => exact List.cons_subset.mpr ⟨known, List.nil_subset _⟩
              case line => exact step.line.trans same.line
              case instructionLines =>
                rw [step.instructionLines, same.instructionLines, same.line]
                rfl
              case locals =>
                rw [step.locals, same.locals]
                rfl
              case stackUsed =>
                rw [step.stackUsed, same.stackUsed]
                rfl
              case fresh => simp [Statement.declaredLocal?]
            · exact fun _ _ _ => trivial
          · exact fun _ _ _ => trivial

/-! ## Line after line -/

theorem follows_nil (tidy : found.Tidy) : Follows found [] .empty (ofDeclarations found) where
  built := rfl
  agreed := ⟨_, (encodes_nil tidy).agreed⟩
  recorded := List.nil_subset _
  line := rfl
  instructionLines := rfl
  locals := rfl
  localNames := .nil
  frame := trivial
  stackUsed := rfl
  localsFirst := .nil

/-- One statement more, on a line of its own. -/
theorem Follows.advance (follows : Follows found statements listing draft)
    (step : Step found listing { draft with line := draft.line + 1 } statement longer final) :
    Follows found (statements ++ [statement]) longer final := by
  have tracks := Listing.tracks_of_foldlM follows.built
  constructor
  case built =>
    rw [List.foldlM_append, follows.built]
    simp [step.added]
  case agreed => exact step.agreed
  case recorded =>
    rw [(Listing.adds_of_add step.added).labelNames]
    exact List.append_subset.mpr ⟨follows.recorded, step.recorded⟩
  case line =>
    rw [step.line, List.length_append, follows.line, List.length_singleton, LineNumber.nth_succ]
  case instructionLines =>
    rw [step.instructionLines, follows.instructionLines, follows.line, Statement.codeLines_append,
      LineNumber.nth_succ]
  case locals =>
    rw [step.locals, List.map_append, follows.locals, List.filterMap_append]
    cases declared : statement.declaredLocal? <;> simp [declared]
  case localNames =>
    rw [step.locals, List.map_append]
    cases declared : statement.declaredLocal? with
    | none => simpa using follows.localNames
    | some slot => exact nodup_append_singleton follows.localNames (step.fresh slot declared).1
  case frame =>
    rw [step.locals, List.map_append]
    cases declared : statement.declaredLocal? with
    | none => simpa using follows.frame
    | some slot =>
        rcases follows.agreed with ⟨before, agreed⟩
        refine follows.frame.append ?_ _
        rw [agreed.frameSize, tracks.frameSize, ← follows.locals, List.map_map, List.map_map,
          Nat.zero_add]
        rfl
  case stackUsed => rw [step.stackUsed, follows.stackUsed, List.any_append]; simp
  case localsFirst =>
    refine List.pairwise_append.mpr ⟨follows.localsFirst, List.pairwise_singleton _ _, ?_⟩
    intro earlier member later last declares
    cases List.mem_singleton.mp last
    obtain ⟨slot, declared⟩ := Option.isSome_iff_exists.mp declares
    have unused : draft.stackUsed = false := (step.fresh slot declared).2
    rw [follows.stackUsed, List.any_eq_false] at unused
    exact Bool.not_eq_true _ ▸ unused earlier member

theorem addLine_follows (follows : Follows found statements listing draft) (tidy : found.Tidy)
    (text : List Char) :
    Ends (addLine text) draft
      (fun _ final => ∃ statement longer, Statement.ofText? text = some statement ∧
        Follows found (statements ++ [statement]) longer final)
      (fun _ _ => True) := by
  rcases follows.agreed with ⟨before, agreed⟩
  have onNextLine : Matches found before listing { draft with line := draft.line + 1 } :=
    { agreed with }
  simp only [addLine, ends_bind, ends_modify, ends_get, ends_adaptExcept]
  rw [addText_eq]
  cases spelled : Statement.ofText? text with
  | none => trivial
  | some statement =>
      apply (addStatement_steps onNextLine tidy statement).mono
      · intro _ final ended
        rcases ended with ⟨longer, step⟩
        exact ⟨statement, longer, rfl, follows.advance step⟩
      · exact fun _ _ _ => trivial

/-- A draft that accepts lines follows the statements on them, one on each line. -/
theorem feedLines_follows {lines : List (List UInt8)} {unreadable : Error}
    {position finalPosition : Nat} (follows : Follows found statements listing draft)
    (tidy : found.Tidy)
    (fed : Source.feedLines addLine unreadable lines position draft =
      (none, finalPosition, final)) :
    ∃ more longer, lines.map Source.statement? = more.map some ∧
      Follows found (statements ++ more) longer final := by
  induction lines generalizing statements listing draft position with
  | nil =>
      cases fed
      exact ⟨[], listing, rfl, by rwa [List.append_nil]⟩
  | cons line rest ih =>
      rw [Source.feedLines] at fed
      cases isText : Line.text? line with
      | none =>
          rw [isText] at fed
          cases fed
      | some text =>
          rw [isText] at fed
          cases outcome : addLine text draft with
          | error error next =>
              simp only [outcome] at fed
              cases fed
          | ok value next =>
              simp only [outcome] at fed
              obtain ⟨statement, longer, spelled, nextFollows⟩ :=
                (addLine_follows follows tidy text).of_ok outcome
              obtain ⟨more, longest, onLines, finalFollows⟩ := ih nextFollows fed
              refine ⟨statement :: more, longest, ?_, ?_⟩
              · rw [List.map_cons, List.map_cons, onLines, Source.statement?, isText]
                exact congrArg (· :: more.map some) spelled
              · rwa [List.append_assoc] at finalFollows

end Draft

end WordMachine.Assembly
