import WordMachine.Proofs.Assembly.Drafting

/-!
# Drafts that match a listing

What a draft is after some lines, in terms of the listing of these lines: the same
code, with positions in place of label names, the same locals, and of the names found
beforehand exactly those declared that stand on these lines (`Matches`). Every drafting
operation keeps it, and turns a line down only for causes that lie in the source.
-/

namespace WordMachine.Assembly

namespace Draft

/-- Whether a draft has the code of a listing, and of the names `found` in the source
those of `before` declared. -/
structure Matches (found before : Declarations) (listing : Listing) (draft : Draft) :
    Prop where
  labels : draft.labels.toList =
    found.labels.toList.map fun label => { label with address := listing.placed? label.name }
  globals : draft.globals.toList =
    found.globals.toList.map fun global =>
      { global with declared := decide (global.name ∈ before.globalNames) }
  locals : draft.locals.toList.map (fun slot => (slot.name, slot.offset)) = listing.locals
  frameSize : draft.frameSize.toNat = listing.frameSize
  labelNames : before.labelNames = listing.labelNames
  code : draft.writer.code.toList = (listing.programWith found.scope.index).encode
  fitting : draft.Fitting
  sound : ∀ symbolic, Item.code symbolic ∈ listing.items → symbolic.Sound found.scope
  inReach : ∀ name ∈ listing.labelNames, listing.address name < 0x10000

variable {found before : Declarations} {listing : Listing} {draft : Draft}

namespace Matches

theorem knows (agreed : draft.Matches found before listing) :
    draft.Knows found.scope listing where
  labels := by
    rw [agreed.labels, List.map_map]
    rfl
  globals := by
    rw [agreed.globals, List.map_map]
    rfl
  locals := agreed.locals

theorem writer_size (agreed : draft.Matches found before listing) :
    draft.writer.size = Header.length + Listing.size listing.items := by
  rw [Writer.size, ← Array.length_toList, agreed.code, ← Program.size,
    Listing.size_programWith]

/-- The position of a label in the draft is its position among the names found. -/
theorem findLabel? (agreed : draft.Matches found before listing) (name : Token) :
    Assembly.findLabel? draft.labels name = found.labelNames.idxOf? name := by
  rw [findLabel?_eq_idxOf?, agreed.knows.labels]
  rfl

/-- A label without address has not been declared. -/
theorem not_mem_of_unplaced (agreed : draft.Matches found before listing) {name : Token}
    {index : Nat} (place : Assembly.findLabel? draft.labels name = some index)
    (unplaced : draft.labels[index]?.bind Label.address = none) :
    name ∉ listing.labelNames := by
  intro member
  obtain ⟨inside, here, -⟩ := Array.findIdx?_eq_some_iff_getElem.mp place
  rw [Array.getElem?_eq_getElem inside, Option.bind_some] at unplaced
  have entry : draft.labels[index] ∈ draft.labels.toList := Array.getElem_mem_toList inside
  rw [agreed.labels, List.mem_map] at entry
  rcases entry with ⟨label, -, same⟩
  rw [← same] at here unplaced
  rw [beq_iff_eq] at here
  rw [here, Listing.placed?, if_pos member] at unplaced
  cases unplaced

end Matches

end Draft

namespace Declarations

/-- After its declaration a good name is in the table. -/
theorem mem_labelNames_addLabel {declarations : Declarations} {name : Token}
    (good : isName name = true) : name ∈ (declarations.addLabel name).labelNames := by
  by_cases fresh : isName name = true ∧ name ∉ declarations.labelNames
  · rw [addLabel_of_fresh fresh.1 fresh.2, labelNames_pushLabel]
    exact List.mem_append_right _ (List.mem_singleton_self name)
  · rw [addLabel_of_not_fresh fresh]
    by_contra new
    exact fresh ⟨good, new⟩

theorem Extends.mem_labelNames {earlier later : Declarations} (grown : Extends earlier later)
    {name : Token} (member : name ∈ earlier.labelNames) : name ∈ later.labelNames :=
  (grown.labels.map Label.name).subset member

end Declarations

namespace Draft

variable {found before : Declarations} {listing : Listing} {draft : Draft}

/-- Whether two drafts have the same sizes of data and stack. -/
def SameSizes (draft final : Draft) : Prop :=
  final.dataSize = draft.dataSize ∧ final.stackSize = draft.stackSize

theorem SameSizes.trans {first second third : Draft} (front : first.SameSizes second)
    (back : second.SameSizes third) : first.SameSizes third :=
  ⟨back.1.trans front.1, back.2.trans front.2⟩

/-- Giving a label the offset behind the code puts it into the listing. -/
theorem Matches.placed (agreed : draft.Matches found before listing) (tidy : found.Tidy)
    {name : Token} {index : Nat} (entry : Assembly.findLabel? draft.labels name = some index)
    (fresh : name ∉ listing.labelNames) (small : draft.writer.size < 0x10000) :
    ({ draft with
      labels := draft.labels.modify index fun label =>
        { label with address := some (UInt16.ofNat draft.writer.size) } } : Draft).Matches
      found (before.pushLabel name) (listing.addItem (.label name)) := by
  rw [agreed.writer_size] at small ⊢
  refine
    { agreed with
      labels := ?_
      labelNames := ?_
      code := ?_
      sound := ?_
      inReach := ?_ }
  · have nodup : (draft.labels.toList.map Label.name).Nodup := by
      rw [agreed.knows.labels]
      exact tidy.labelNames
    rw [findLabel?_eq_idxOf?] at entry
    rw [Array.toList_modify, modify_eq_map_of_idxOf? _ nodup entry, agreed.labels,
      List.map_map]
    apply List.map_congr_left
    intro label _
    rw [Listing.placed?_addItem_label fresh]
    by_cases same : label.name = name
    · simp [same]
    · simp [same]
  · rw [Declarations.labelNames_pushLabel, Listing.labelNames_addItem_label,
      agreed.labelNames]
  · rw [Listing.programWith_addItem_label]
    exact agreed.code
  · intro symbolic member
    rcases List.mem_append.mp member with old | new
    · exact agreed.sound symbolic old
    · cases List.mem_singleton.mp new
  · intro other member
    rw [Listing.labelNames_addItem_label, List.mem_append, List.mem_singleton] at member
    rcases member with old | rfl
    · rw [Listing.address_of_items_append rfl old]
      exact agreed.inReach other old
    · rw [Listing.address_addItem_label fresh]
      exact small

/-- A label without address can be given the offset behind the code. -/
theorem Matches.placed_of_offset (agreed : draft.Matches found before listing) (tidy : found.Tidy)
    {name : Token} {index : Nat} {address : Word} (place : draft.writer.offset = .ok address)
    (entry : Assembly.findLabel? draft.labels name = some index)
    (unplaced : draft.labels[index]?.bind Label.address = none) :
    name ∉ listing.labelNames ∧
      ({ draft with
        labels := draft.labels.modify index fun label =>
          { label with address := some address } } : Draft).Matches
        found (before.pushLabel name) (listing.addItem (.label name)) := by
  have fresh := agreed.not_mem_of_unplaced entry unplaced
  refine ⟨fresh, ?_⟩
  rw [Writer.offset] at place
  split at place
  next small =>
    cases place
    exact agreed.placed tidy entry fresh small
  next => cases place

theorem placeLabel_matches (agreed : draft.Matches found before listing) (tidy : found.Tidy)
    {name : Token} (grown : (before.addLabel name).Extends found) :
    Ends (placeLabel name) draft
      (fun _ final => final.Matches found (before.addLabel name) (listing.addItem (.label name)) ∧
        before.addLabel name = before.pushLabel name ∧ draft.SameSizes final)
      (fun cause _ => ¬ cause.Internal) := by
  apply (placeLabel_ends name).mono
  · intro _ final ended
    rcases ended with ⟨good, address, index, place, entry, unplaced, rfl⟩
    obtain ⟨fresh, placed⟩ := agreed.placed_of_offset tidy place entry unplaced
    have pushed : before.addLabel name = before.pushLabel name :=
      Declarations.addLabel_of_fresh good (by rwa [agreed.labelNames])
    rw [pushed]
    exact ⟨placed, rfl, rfl, rfl⟩
  · intro cause _ blamed internal
    obtain ⟨good, unknown⟩ := blamed internal
    rw [agreed.findLabel?, List.idxOf?_eq_none_iff] at unknown
    exact unknown (grown.mem_labelNames (Declarations.mem_labelNames_addLabel good))

/-- The global that is found for a name is one of the table and has the name. -/
theorem of_findGlobal? {globals : Array Global} {name : Token} {index : Nat} {global : Global}
    (place : findGlobal? globals name = some index) (entry : globals[index]? = some global) :
    global.name = name ∧ global ∈ globals.toList := by
  obtain ⟨inside, rfl⟩ := Array.getElem?_eq_some_iff.mp entry
  obtain ⟨_, named, -⟩ := Array.findIdx?_eq_some_iff_getElem.mp place
  exact ⟨beq_iff_eq.mp named, Array.getElem_mem_toList inside⟩

/-- A global that is not marked as declared has not been declared. -/
theorem Matches.not_mem_of_undeclared (agreed : draft.Matches found before listing)
    {global : Global} (member : global ∈ draft.globals.toList)
    (undeclared : global.declared = false) : global.name ∉ before.globalNames := by
  rw [agreed.globals, List.mem_map] at member
  rcases member with ⟨entry, -, same⟩
  rw [← same] at undeclared ⊢
  exact of_decide_eq_false undeclared

theorem Matches.globalNames (agreed : draft.Matches found before listing) :
    draft.globals.toList.map Global.name = found.globalNames := by
  rw [agreed.globals, List.map_map]
  rfl

/-- A name of the table that has not been declared is given the next address. -/
theorem addGlobal_of_undeclared {type : VariableType} {name : Token}
    (grown : (Declarations.addGlobal type before name).Extends found)
    (good : Declarations.isName name = true) (known : name ∈ found.globalNames)
    (fresh : name ∉ before.globalNames) :
    ∃ address, Declarations.addGlobal type before name = before.pushGlobal name address type := by
  cases next : before.nextAddress with
  | some address => exact ⟨address, Declarations.addGlobal_of_fresh good fresh next⟩
  | none =>
      rw [Declarations.addGlobal_of_not_fresh (by simp [next])] at grown
      have same : found.globalNames = before.globalNames := by
        rw [Declarations.globalNames, (grown.exhausted next).1, Declarations.globalNames]
      rw [same] at known
      exact absurd known fresh

/-- Marking a global as declared puts it among the declarations so far. -/
theorem Matches.marked (agreed : draft.Matches found before listing) (tidy : found.Tidy)
    {type : VariableType} {name : Token} {index : Nat} {address : Word} {global : Global}
    (place : findGlobal? draft.globals name = some index) (named : global.name = name)
    (member : global ∈ draft.globals.toList) (fits : global.fits draft.dataSize = true) :
    ({ draft with
      globals := draft.globals.modify index fun global =>
        { global with declared := true } } : Draft).Matches
      found (before.pushGlobal name address type) listing := by
  have nodup : (draft.globals.toList.map Global.name).Nodup := by
    rw [agreed.globalNames]
    exact tidy.globalNames
  have marked : (draft.globals.modify index fun global => { global with declared := true }).toList =
      draft.globals.toList.map fun global =>
        if global.name = name then { global with declared := true } else global := by
    rw [findGlobal?_eq_idxOf?] at place
    rw [Array.toList_modify, modify_eq_map_of_idxOf? _ nodup place]
  refine { agreed with globals := ?_, fitting := ?_ }
  · rw [marked, agreed.globals, List.map_map]
    apply List.map_congr_left
    intro entry _
    by_cases same : entry.name = name
    · simp [same]
    · simp [same]
  · intro other otherMember declared
    rw [← Array.mem_toList_iff, marked, List.mem_map] at otherMember
    rcases otherMember with ⟨old, oldMember, rfl⟩
    by_cases same : old.name = name
    · have unchanged : old = global :=
        List.inj_on_of_nodup_map nodup oldMember member (same.trans named.symm)
      rw [if_pos same, unchanged]
      exact fits
    · rw [if_neg same] at declared ⊢
      exact agreed.fitting old (Array.mem_toList_iff.mp oldMember) declared

theorem declareGlobal_matches (agreed : draft.Matches found before listing) (tidy : found.Tidy)
    {type : VariableType} {name : Token}
    (grown : (Declarations.addGlobal type before name).Extends found) :
    Ends (declareGlobal name) draft
      (fun _ final => final.Matches found (Declarations.addGlobal type before name) listing ∧
        (Declarations.addGlobal type before name).globalTypes =
          before.globalTypes ++ [(name, type)] ∧ draft.SameSizes final)
      (fun cause _ => ¬ cause.Internal) := by
  apply (declareGlobal_ends name).mono
  · intro _ final ended
    rcases ended with ⟨good, index, global, place, entry, undeclared, fits, same⟩
    obtain ⟨named, member⟩ := of_findGlobal? place entry
    have fresh : name ∉ before.globalNames := by
      rw [← named]
      exact agreed.not_mem_of_undeclared member undeclared
    have known : name ∈ found.globalNames := by
      rw [← named, ← agreed.globalNames]
      exact List.mem_map_of_mem member
    obtain ⟨address, pushed⟩ := addGlobal_of_undeclared grown good known fresh
    rw [same, pushed]
    exact ⟨agreed.marked tidy place named member fits, Declarations.globalTypes_pushGlobal ..,
      rfl, rfl⟩
  · exact fun cause _ notInternal => notInternal

theorem forM_declareGlobal_matches (agreed : draft.Matches found before listing)
    (tidy : found.Tidy) {type : VariableType} {names : List Token}
    (grown : (names.foldl (Declarations.addGlobal type) before).Extends found) :
    Ends (names.forM declareGlobal) draft
      (fun _ final =>
        final.Matches found (names.foldl (Declarations.addGlobal type) before) listing ∧
        (names.foldl (Declarations.addGlobal type) before).globalTypes =
          before.globalTypes ++ names.map (fun name => (name, type)) ∧ draft.SameSizes final)
      (fun cause _ => ¬ cause.Internal) := by
  induction names generalizing before draft with
  | nil => exact ⟨agreed, (List.append_nil _).symm, rfl, rfl⟩
  | cons name rest ih =>
      have grownFirst : (Declarations.addGlobal type before name).Extends found :=
        (Declarations.extends_foldl (Declarations.extends_addGlobal type) rest _).trans grown
      rw [List.forM, ends_bind]
      apply (declareGlobal_matches agreed tidy grownFirst).mono
      · intro _ next ended
        rcases ended with ⟨nextAgreed, types, sizes⟩
        apply (ih nextAgreed grown).mono
        · intro _ final ended
          rcases ended with ⟨finalAgreed, moreTypes, moreSizes⟩
          refine ⟨finalAgreed, ?_, sizes.trans moreSizes⟩
          rw [List.foldl_cons, moreTypes, types, List.append_assoc]
          rfl
        · exact fun cause _ notInternal => notInternal
      · exact fun cause _ notInternal => notInternal

theorem declareGlobals_matches (agreed : draft.Matches found before listing)
    (tidy : found.Tidy) {type : VariableType} {names : List Token}
    (grown : (names.foldl (Declarations.addGlobal type) before).Extends found) :
    Ends (declareGlobals names) draft
      (fun _ final =>
        final.Matches found (names.foldl (Declarations.addGlobal type) before) listing ∧
        (names.foldl (Declarations.addGlobal type) before).globalTypes =
          before.globalTypes ++ names.map (fun name => (name, type)) ∧ draft.SameSizes final)
      (fun cause _ => ¬ cause.Internal) := by
  simp only [declareGlobals, ends_ite, ends_bind, ends_throw]
  split
  · exact fun internal => internal
  · exact forM_declareGlobal_matches agreed tidy grown

/-- Emitting an instruction adds it to the listing. -/
theorem Matches.emit (agreed : draft.Matches found before listing) {symbolic : Symbolic}
    (sound : symbolic.Sound found.scope) (stackUsed : Bool) (instructionLines : Array LineNumber) :
    Matches found before (listing.addItem (.code symbolic))
      { draft with
        stackUsed
        instructionLines
        writer := draft.writer.emit (symbolic.resolve found.scope.index) } := by
  refine
    { agreed with
      labels := ?_
      labelNames := ?_
      code := ?_
      sound := ?_
      inReach := ?_ }
  · rw [Listing.placed?_addItem_code]
    exact agreed.labels
  · rw [Listing.labelNames_addItem_code]
    exact agreed.labelNames
  · rw [Writer.code_emit, agreed.code, Listing.programWith_addItem_code, Program.encode_append,
      Program.encode_singleton]
  · intro other member
    rcases List.mem_append.mp member with old | new
    · exact agreed.sound other old
    · obtain rfl := Item.code.inj (List.mem_singleton.mp new)
      exact sound
  · intro name member
    rw [Listing.labelNames_addItem_code] at member
    rw [Listing.address_of_items_append rfl member]
    exact agreed.inReach name member

theorem addInstruction_matches (agreed : draft.Matches found before listing)
    (mnemonic : Token) (operands : List Token) :
    Ends (addInstruction mnemonic operands) draft
      (fun _ final => ∃ longer, listing.addInstruction found.scope mnemonic operands = some longer ∧
        final.Matches found before longer ∧ draft.SameSizes final)
      (fun cause _ => ¬ cause.Internal) := by
  apply (addInstruction_ends agreed.knows mnemonic operands).mono
  · intro _ _ ended
    rcases ended with ⟨symbolic, -, added, sound, rfl⟩
    exact ⟨_, added, agreed.emit sound _ _, rfl, rfl⟩
  · exact fun cause _ notInternal => notInternal

/-- The push that makes room for a local has its operand and a size. -/
theorem pushZero_sound (scope : Scope) (type : VariableType) :
    (Listing.pushZero type).Sound scope where
  dst := rfl
  src := ⟨Mode.noConfusion, Mode.noConfusion, fun narrow => Bool.noConfusion narrow⟩
  trailing := rfl
  pushSize := by
    intro _
    cases type with
    | byte => exact Or.inl rfl
    | int16 => exact Or.inr rfl
    | uint16 => exact Or.inr rfl

theorem declareLocal_matches (agreed : draft.Matches found before listing)
    (arguments : List Token) :
    Ends (declareLocal arguments) draft
      (fun _ final => ∃ longer,
        listing.add found.scope (.localVariable arguments) = some longer ∧
        final.Matches found before longer ∧ draft.SameSizes final)
      (fun cause _ => ¬ cause.Internal) := by
  apply (declareLocal_ends found.scope arguments).mono
  · intro _ _ ended
    rcases ended with ⟨keyword, name, type, frameSize, rfl, known, -, -, -, next, rfl⟩
    have added : listing.add found.scope (.localVariable [keyword, name]) =
        some (listing.addLocal name type) := by
      rw [Listing.add, known]
      rfl
    have later : frameSize.toNat = listing.frameSize + type.size := by
      rw [Declarations.addressAfter?, agreed.frameSize] at next
      split at next
      next small =>
        cases next
        exact UInt16.toNat_ofNat_of_lt small
      next => cases next
    have emitted := agreed.emit (pushZero_sound found.scope type) draft.stackUsed
      (draft.instructionLines.push draft.line)
    refine ⟨_, added, ?_, rfl, rfl⟩
    refine { emitted with locals := ?_, frameSize := later }
    rw [Array.toList_push, List.map_append, agreed.locals, Listing.addLocal,
      ← agreed.frameSize, UInt16.ofNat_toNat]
    rfl
  · exact fun cause _ notInternal => notInternal

theorem pragma_matches (agreed : draft.Matches found before listing) (arguments : List Token) :
    Ends (pragma arguments) draft
      (fun _ final => final.Matches found before listing ∧
        final.dataSize =
          ((Statement.pragma arguments).setting? "datapagesize").getD draft.dataSize ∧
        final.stackSize =
          ((Statement.pragma arguments).setting? "stacksize").getD draft.stackSize)
      (fun cause _ => ¬ cause.Internal) := by
  apply (pragma_ends arguments).mono
  · intro _ final ended
    rcases ended with ⟨dataSize, stackSize, fitting, ignored, same⟩
    refine ⟨?_, dataSize, stackSize⟩
    have finalFitting := fitting agreed.fitting
    rw [same] at finalFitting ⊢
    exact { agreed with fitting := finalFitting }
  · exact fun cause _ notInternal => notInternal

end Draft

end WordMachine.Assembly
