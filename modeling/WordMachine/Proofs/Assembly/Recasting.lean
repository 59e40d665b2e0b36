import WordMachine.Proofs.Assembly.Statements

/-!
# Drafts recast

A draft may be recast: the names in its tables are written otherwise, and labels stand behind its
own. Positions, addresses and offsets stay, and so does the code. Statements that were encoded
are encoded again, with their names written otherwise, if names stay apart in their tables and
operands are still read as what they were (`Recast.addAll_draft`).
-/

namespace WordMachine.Assembly

/-- Another way to write the names of each table, the operands to go with it, and labels that
stand behind those of a draft. -/
structure Recast where
  label : Token → Token
  global : Token → Token
  slot : Token → Token
  operand : Token → Token
  behind : Array Label

namespace Recast

/-- The arguments of the declaration of a local. -/
def localArguments (recast : Recast) : List Token → List Token
  | [keyword, name] => [keyword, recast.slot name]
  | arguments => arguments

/-- The mnemonic and the operands of an instruction, if there is one. -/
def code (recast : Recast) : List Token → List Token
  | [] => []
  | mnemonic :: operands => mnemonic :: operands.map recast.operand

/-- The statement with its names written otherwise. -/
def statement (recast : Recast) : Statement → Statement
  | .blank => .blank
  | .label name rest => .label (recast.label name) (recast.code rest)
  | .pragma arguments => .pragma arguments
  | .localVariable arguments => .localVariable (recast.localArguments arguments)
  | .globals type names => .globals type (names.map recast.global)
  | .instruction mnemonic operands => .instruction mnemonic (operands.map recast.operand)

/-- The tokens of a statement with its names written otherwise. -/
def tokens (recast : Recast) : List Token → List Token
  | [] => []
  | first :: rest =>
    match Statement.labelName? first with
    | some name => (recast.label name ++ [':']) :: recast.code rest
    | none =>
      if first.spells "#pragma" then first :: rest
      else if first.spells "local" then first :: recast.localArguments rest
      else
        match VariableType.ofKeyword? first with
        | some _ => first :: rest.map recast.global
        | none => first :: rest.map recast.operand

/-- The draft with the names in its tables written otherwise, and further labels behind its own. -/
def draft (recast : Recast) (draft : Draft) : Draft :=
  { draft with
    labels := (draft.labels.map fun label => { label with name := recast.label label.name }) ++
      recast.behind
    globals := draft.globals.map fun global => { global with name := recast.global global.name }
    locals := draft.locals.map fun slot => { slot with name := recast.slot slot.name } }

theorem labelName?_concat (name : Token) :
    Statement.labelName? (name ++ [':']) = some name := by
  rw [Statement.labelName?, List.getLast?_concat, if_pos rfl, List.dropLast_concat]

theorem ofTokens_tokens (recast : Recast) (tokens : List Token) :
    Statement.ofTokens (recast.tokens tokens) = recast.statement (.ofTokens tokens) := by
  cases tokens with
  | nil => rfl
  | cons first rest =>
      rw [Statement.ofTokens, Recast.tokens]
      cases isLabel : Statement.labelName? first with
      | some name =>
          simp only [Statement.ofTokens, Recast.labelName?_concat]
          rfl
      | none =>
          simp only
          by_cases pragma : first.spells "#pragma" = true
          · simp only [if_pos pragma, Statement.ofTokens, isLabel, Recast.statement]
          · by_cases isLocal : first.spells "local" = true
            · simp only [if_neg pragma, if_pos isLocal, Statement.ofTokens, isLabel,
                Recast.statement]
            · cases keyword : VariableType.ofKeyword? first with
              | some type =>
                  simp only [if_neg pragma, if_neg isLocal, Statement.ofTokens, isLabel, keyword,
                    Recast.statement]
              | none =>
                  simp only [if_neg pragma, if_neg isLocal, Statement.ofTokens, isLabel, keyword,
                    Recast.statement]

end Recast

/-! ## Tables -/

section

variable {α β : Type}

theorem map_modify (entries : Array α) (index : Nat) (rewrite : α → β) (change : α → α)
    (change' : β → β) (commute : ∀ entry, rewrite (change entry) = change' (rewrite entry)) :
    (entries.modify index change).map rewrite = (entries.map rewrite).modify index change' := by
  apply Array.ext
  · simp
  · intro place _ _
    simp only [Array.getElem_map, Array.getElem_modify]
    split
    · exact commute _
    · rfl

theorem modify_append {front back : Array α} {index : Nat} (inside : index < front.size)
    (change : α → α) : (front ++ back).modify index change = front.modify index change ++ back := by
  apply Array.ext
  · simp
  · intro place _ _
    simp only [Array.getElem_append, Array.getElem_modify, Array.size_modify]
    by_cases here : index = place
    · subst here
      simp [inside]
    · simp [here]

/-- A change that leaves the keys of a table leaves them in their places. -/
theorem map_key_modify (entries : Array α) (index : Nat) (key : α → β) (change : α → α)
    (same : ∀ entry, key (change entry) = key entry) :
    (entries.modify index change).toList.map key = entries.toList.map key := by
  have unchanged : (entries.map key).modify index id = entries.map key := by
    apply Array.ext
    · simp
    · intro place _ _
      simp [Array.getElem_modify]
  rw [← Array.toList_map, map_modify entries index key change id same, unchanged, Array.toList_map]

end

/-- The position of a name among names that are written otherwise, and told apart. -/
theorem idxOf?_map_append {names behind : List Token} {rewrite : Token → Token} {name : Token}
    {index : Nat} (apart : ∀ other ∈ names, rewrite other = rewrite name → other = name)
    (found : names.idxOf? name = some index) :
    (names.map rewrite ++ behind).idxOf? (rewrite name) = some index := by
  obtain ⟨inside, here, first⟩ := List.idxOf?_eq_some_iff.mp found
  have insideMap : index < (names.map rewrite).length := by rwa [List.length_map]
  refine List.idxOf?_eq_some_iff.mpr ⟨by rw [List.length_append]; omega, ?_, ?_⟩
  · rw [List.getElem_append_left insideMap, List.getElem_map, here]
  · intro earlier before
    have earlierInside : earlier < (names.map rewrite).length := by omega
    rw [List.getElem_append_left earlierInside, List.getElem_map]
    exact fun same => first earlier before (apart _ (List.getElem_mem _) same)

/-- The position of a name behind names that it is not one of. -/
theorem idxOf?_append_right {names : List Token} {name : Token} (fresh : name ∉ names)
    (own : List Token) : (names ++ own).idxOf? name = (own.idxOf? name).map (names.length + ·) := by
  induction names with
  | nil => simp only [List.nil_append, List.length_nil, Nat.zero_add, Option.map_id']
  | cons first rest ih =>
      rw [List.mem_cons, not_or] at fresh
      rw [List.cons_append, List.idxOf?_cons, beq_false_of_ne (Ne.symm fresh.1), ih fresh.2]
      cases own.idxOf? name with
      | none => rfl
      | some index => simp [Nat.add_right_comm]

theorem mem_keys_of_lookup {entries : List (Token × Word)} {name : Token} {value : Word}
    (found : entries.lookup name = some value) : name ∈ entries.map Prod.fst := by
  obtain ⟨front, back, rfl, -⟩ := List.lookup_eq_some_iff.mp found
  rw [List.map_append]
  exact List.mem_append_right _ List.mem_cons_self

theorem not_mem_keys_of_lookup {entries : List (Token × Word)} {name : Token}
    (missing : entries.lookup name = none) : name ∉ entries.map Prod.fst := by
  intro member
  obtain ⟨entry, entryMember, same⟩ := List.mem_map.mp member
  have other := List.lookup_eq_none_iff.mp missing entry entryMember
  rw [same, bne_self_eq_false] at other
  cases other

/-- Whether a name is found among names that are written otherwise where it was found, if at
all. -/
structure Finds (rewrite : Token → Token) (names : List Token) (name respelled : Token) : Prop where
  here : name ∈ names → rewrite name = respelled
  apart : ∀ other ∈ names, rewrite other = respelled → other = name

namespace Finds

variable {rewrite : Token → Token} {names behind : List Token} {name respelled : Token}

theorem idxOf? (finds : Finds rewrite names name respelled) {index : Nat}
    (found : names.idxOf? name = some index) :
    (names.map rewrite ++ behind).idxOf? respelled = some index := by
  obtain rfl := finds.here (mem_of_idxOf? found)
  exact idxOf?_map_append finds.apart found

theorem not_mem (finds : Finds rewrite names name respelled) (missing : name ∉ names) :
    respelled ∉ names.map rewrite := by
  intro member
  obtain ⟨other, old, same⟩ := List.mem_map.mp member
  rw [finds.apart other old same] at old
  exact missing old

theorem lookup {entries : List (Token × Word)}
    (finds : Finds rewrite (entries.map Prod.fst) name respelled) :
    (entries.map fun entry => (rewrite entry.1, entry.2)).lookup respelled =
      entries.lookup name := by
  induction entries with
  | nil => rfl
  | cons entry rest ih =>
      have later : Finds rewrite (rest.map Prod.fst) name respelled :=
        ⟨fun member => finds.here (List.mem_cons_of_mem _ member),
          fun other member => finds.apart other (List.mem_cons_of_mem _ member)⟩
      rw [List.map_cons, List.lookup_cons, List.lookup_cons, ih later]
      by_cases same : name = entry.1
      · have first : respelled = rewrite entry.1 := by
          rw [← finds.here (same ▸ List.mem_cons_self), same]
        rw [same, first, beq_self_eq_true, beq_self_eq_true]
      · have otherwise : respelled ≠ rewrite entry.1 := fun equal =>
          same (finds.apart entry.1 List.mem_cons_self equal.symm).symm
        rw [beq_false_of_ne same, beq_false_of_ne otherwise]

end Finds

namespace Draft

variable {draft middle final : Draft}

/-- The names of the globals, in the order of the table. -/
def globalNames (draft : Draft) : List Token := draft.globalAddresses.map Prod.fst

/-- The names of the locals, in the order of the table. -/
def localNames (draft : Draft) : List Token := draft.localOffsets.map Prod.fst

/-- Whether the names of a draft are those of another, but for locals that it lacks yet. -/
structure Within (draft final : Draft) : Prop where
  labels : draft.labelNames = final.labelNames
  globals : draft.globalAddresses = final.globalAddresses
  locals : draft.localOffsets <+: final.localOffsets

theorem Within.refl (draft : Draft) : draft.Within draft := ⟨rfl, rfl, List.prefix_rfl⟩

theorem Within.trans (front : draft.Within middle) (back : middle.Within final) :
    draft.Within final :=
  ⟨front.labels.trans back.labels, front.globals.trans back.globals,
    front.locals.trans back.locals⟩

theorem Within.globalNames (within : draft.Within final) :
    draft.globalNames = final.globalNames := congrArg (List.map Prod.fst) within.globals

theorem Within.localNames_subset (within : draft.Within final) :
    draft.localNames ⊆ final.localNames := (within.locals.map Prod.fst).subset

theorem within_of_placeLabel {name : Token} (encoded : placeLabel name draft = .ok () final) :
    draft.Within final := by
  obtain ⟨-, address, index, -, -, -, rfl⟩ := placeLabel_eq_ok_iff.mp encoded
  refine ⟨?_, rfl, List.prefix_rfl⟩
  exact (map_key_modify draft.labels index Label.name
    (fun label => { label with address := some address }) fun _ => rfl).symm

theorem within_of_declareGlobal {name : Token}
    (encoded : declareGlobal name draft = .ok () final) : draft.Within final := by
  obtain ⟨-, index, global, -, -, -, -, rfl⟩ := declareGlobal_eq_ok_iff.mp encoded
  refine ⟨rfl, ?_, List.prefix_rfl⟩
  exact (map_key_modify draft.globals index (fun global => (global.name, global.address))
    (fun global => { global with declared := true }) fun _ => rfl).symm

theorem forM_cons_eq_ok_iff {name : Token} {names : List Token} :
    (name :: names).forM declareGlobal draft = .ok () final ↔
      ∃ middle, declareGlobal name draft = .ok () middle ∧
        names.forM declareGlobal middle = .ok () final := by
  have unfolded : (name :: names).forM declareGlobal draft =
      (declareGlobal name >>= fun _ => names.forM declareGlobal) draft := rfl
  rw [unfolded, bind_eq_ok_iff]
  constructor
  · rintro ⟨_, middle, first, later⟩
    exact ⟨middle, first, later⟩
  · rintro ⟨middle, first, later⟩
    exact ⟨(), middle, first, later⟩

theorem within_of_forM {names : List Token}
    (encoded : names.forM declareGlobal draft = .ok () final) : draft.Within final := by
  induction names generalizing draft with
  | nil =>
      cases encoded
      exact .refl _
  | cons name rest ih =>
      obtain ⟨middle, first, later⟩ := forM_cons_eq_ok_iff.mp encoded
      exact (within_of_declareGlobal first).trans (ih later)

/-- Globals are declared where there are names, one after the other. -/
theorem declareGlobals_eq_ok_iff {names : List Token} :
    declareGlobals names draft = .ok () final ↔
      names ≠ [] ∧ names.forM declareGlobal draft = .ok () final := by
  cases names with
  | nil =>
      constructor
      · intro encoded
        cases encoded
      · rintro ⟨nonempty, -⟩
        exact absurd rfl nonempty
  | cons name rest =>
      constructor
      · exact fun encoded => ⟨List.cons_ne_nil _ _, encoded⟩
      · exact fun encoded => encoded.2

theorem within_of_addInstruction {mnemonic : Token} {operands : List Token}
    (encoded : addInstruction mnemonic operands draft = .ok () final) : draft.Within final := by
  obtain ⟨_, _, -, -, rfl⟩ := addInstruction_eq_ok_iff.mp encoded
  exact ⟨rfl, rfl, List.prefix_rfl⟩

/-- A label is placed before the instruction behind it is encoded. -/
theorem addStatement_label_eq_ok_iff {name mnemonic : Token} {operands : List Token} :
    addStatement (.label name (mnemonic :: operands)) draft = .ok () final ↔
      ∃ middle, placeLabel name draft = .ok () middle ∧
        addInstruction mnemonic operands middle = .ok () final := by
  rw [addStatement, bind_eq_ok_iff]
  constructor
  · rintro ⟨_, middle, first, later⟩
    exact ⟨middle, first, later⟩
  · rintro ⟨middle, first, later⟩
    exact ⟨(), middle, first, later⟩

/-- No statement takes a name away, and none but the declaration of a local adds one. -/
theorem within_of_addStatement {statement : Statement}
    (encoded : addStatement statement draft = .ok () final) : draft.Within final := by
  cases statement with
  | blank =>
      cases encoded
      exact .refl _
  | label name rest =>
      cases rest with
      | nil => exact within_of_placeLabel encoded
      | cons mnemonic operands =>
          obtain ⟨middle, placed, added⟩ := addStatement_label_eq_ok_iff.mp encoded
          exact (within_of_placeLabel placed).trans (within_of_addInstruction added)
  | pragma arguments =>
      obtain ⟨-, -, -, ignoredPragmas, same⟩ := (pragma_ends arguments).of_ok encoded
      rw [same]
      exact ⟨rfl, rfl, List.prefix_rfl⟩
  | localVariable arguments =>
      obtain ⟨keyword, name, type, frameSize, -, -, -, -, -, -, rfl⟩ :=
        declareLocal_eq_ok_iff.mp encoded
      refine ⟨rfl, rfl, ?_⟩
      rw [localOffsets, localOffsets, Array.toList_push, List.map_append]
      exact List.prefix_append _ _
  | globals type names => exact within_of_forM (declareGlobals_eq_ok_iff.mp encoded).2
  | instruction mnemonic operands => exact within_of_addInstruction encoded

theorem within_of_addNext {statement : Statement}
    (encoded : addNext statement draft = .ok () final) : draft.Within final := by
  rw [addNext_eq] at encoded
  have behind := within_of_addStatement encoded
  exact ⟨behind.labels, behind.globals, behind.locals⟩

theorem within_of_addAll {statements : List Statement}
    (encoded : addAll statements draft = .ok () final) : draft.Within final := by
  induction statements generalizing draft with
  | nil =>
      cases encoded
      exact .refl _
  | cons statement rest ih =>
      obtain ⟨middle, first, later⟩ := addAll_cons_iff.mp encoded
      exact (within_of_addNext first).trans (ih later)

end Draft

/-! ## Statements -/

namespace Recast

open Draft

variable {recast : Recast} {start after final : Draft}

theorem labelNames_draft (recast : Recast) (start : Draft) :
    (recast.draft start).labelNames =
      start.labelNames.map recast.label ++ recast.behind.toList.map Label.name := by
  rw [labelNames, labelNames, draft, Array.toList_append, Array.toList_map, List.map_append,
    List.map_map, List.map_map]
  rfl

theorem globalAddresses_draft (recast : Recast) (start : Draft) :
    (recast.draft start).globalAddresses =
      start.globalAddresses.map fun entry => (recast.global entry.1, entry.2) := by
  rw [globalAddresses, globalAddresses, draft, Array.toList_map, List.map_map, List.map_map]
  rfl

theorem localOffsets_draft (recast : Recast) (start : Draft) :
    (recast.draft start).localOffsets =
      start.localOffsets.map fun entry => (recast.slot entry.1, entry.2) := by
  rw [localOffsets, localOffsets, draft, Array.toList_map, List.map_map, List.map_map]
  rfl

/-- A name is read after recasting as what it was, if it is found in the table in which it was
found, and in no table before that. -/
theorem named_draft {name respelled : Token} {argument : Argument}
    (labels : Finds recast.label start.labelNames name respelled)
    (behind : respelled ∈ recast.behind.toList.map Label.name → name ∈ start.labelNames)
    (globals : name ∉ start.labelNames →
      Finds recast.global start.globalNames name respelled)
    (locals : name ∉ start.labelNames → name ∉ start.globalNames →
      Finds recast.slot start.localNames name respelled)
    (read : start.named name = .ok argument) :
    (recast.draft start).named respelled = .ok argument := by
  rw [named_eq_ok_iff] at read ⊢
  rw [labelNames_draft, globalAddresses_draft, localOffsets_draft]
  rcases read with ⟨index, found, small, rfl⟩ | ⟨missing, address, found, rfl⟩ |
    ⟨missing, noGlobal, offset, found, rfl⟩
  · exact Or.inl ⟨index, labels.idxOf? found, small, rfl⟩
  · refine Or.inr (Or.inl ⟨?_, address, (globals missing).lookup.trans found, rfl⟩)
    rw [List.mem_append]
    exact not_or.mpr ⟨labels.not_mem missing, mt behind missing⟩
  · refine Or.inr (Or.inr ⟨?_, (globals missing).lookup.trans noGlobal, offset, ?_, rfl⟩)
    · rw [List.mem_append]
      exact not_or.mpr ⟨labels.not_mem missing, mt behind missing⟩
    · exact (locals missing (not_mem_keys_of_lookup noGlobal)).lookup.trans found

/-- Whether an operand is read after recasting as what it was. -/
def Reads (recast : Recast) (start : Draft) (token : Token) : Prop :=
  ∀ argument, start.argument token = .ok argument →
    (recast.draft start).argument (recast.operand token) = .ok argument

/-- Whether recasting keeps good names good, tells the names of a draft apart, and leaves
registers. -/
structure Suits (recast : Recast) (final : Draft) : Prop where
  good : ∀ name, Declarations.isName name = true → Declarations.isName (recast.label name) = true ∧
    Declarations.isName (recast.global name) = true ∧
    Declarations.isName (recast.slot name) = true
  labels : ∀ first ∈ final.labelNames, ∀ second ∈ final.labelNames,
    recast.label first = recast.label second → first = second
  globals : ∀ first ∈ final.globalNames, ∀ second ∈ final.globalNames,
    recast.global first = recast.global second → first = second
  locals : ∀ first ∈ final.localNames, ∀ second ∈ final.localNames,
    recast.slot first = recast.slot second → first = second
  registers : ∀ token, (Name.register? token).isSome → recast.operand token = token

theorem placeLabel_draft (suits : recast.Suits final) (within : after.Within final) {name : Token}
    (encoded : placeLabel name start = .ok () after) :
    placeLabel (recast.label name) (recast.draft start) = .ok () (recast.draft after) := by
  have before := (within_of_placeLabel encoded).trans within
  obtain ⟨good, address, index, offset, found, unplaced, rfl⟩ := placeLabel_eq_ok_iff.mp encoded
  obtain ⟨inside, -⟩ := Array.findIdx?_eq_some_iff_getElem.mp found
  rw [findLabel?_eq_idxOf?] at found
  have listed : name ∈ final.labelNames := by
    rw [← before.labels]
    exact mem_of_idxOf? found
  have insideMap : index < (start.labels.map fun label =>
      ({ label with name := recast.label label.name } : Label)).size := by
    rwa [Array.size_map]
  refine placeLabel_eq_ok_iff.mpr ⟨(suits.good name good).1, address, index, offset, ?_, ?_, ?_⟩
  · rw [findLabel?_eq_idxOf?]
    change (recast.draft start).labelNames.idxOf? (recast.label name) = some index
    rw [labelNames_draft]
    refine idxOf?_map_append (fun other member same => suits.labels other ?_ name listed same) found
    rwa [← before.labels]
  · rw [draft, Array.getElem?_append_left insideMap, Array.getElem?_map]
    rw [Array.getElem?_eq_getElem inside] at unplaced ⊢
    exact unplaced
  · have renamed := map_modify start.labels index
      (fun label => { label with name := recast.label label.name })
      (fun label => { label with address := some address })
      (fun label => { label with address := some address }) fun _ => rfl
    simp only [draft, modify_append insideMap, renamed]

theorem declareGlobal_draft (suits : recast.Suits final) (within : after.Within final)
    {name : Token} (encoded : declareGlobal name start = .ok () after) :
    declareGlobal (recast.global name) (recast.draft start) = .ok () (recast.draft after) := by
  have before := (within_of_declareGlobal encoded).trans within
  obtain ⟨good, index, global, found, here, undeclared, fits, rfl⟩ :=
    declareGlobal_eq_ok_iff.mp encoded
  have names (draft : Draft) : draft.globals.toList.map Global.name = draft.globalNames := by
    rw [globalNames, globalAddresses, List.map_map]
    rfl
  rw [findGlobal?_eq_idxOf?, names] at found
  have listed : name ∈ final.globalNames := by
    rw [← before.globalNames]
    exact mem_of_idxOf? found
  refine declareGlobal_eq_ok_iff.mpr ⟨(suits.good name good).2.1, index,
    { global with name := recast.global global.name }, ?_, ?_, undeclared, fits, ?_⟩
  · have renamed :
        (recast.draft start).globalNames = start.globalNames.map recast.global ++ [] := by
      rw [globalNames, globalAddresses_draft, globalNames, List.map_map, List.map_map,
        List.append_nil]
      rfl
    rw [findGlobal?_eq_idxOf?, names, renamed]
    refine idxOf?_map_append
      (fun other member same => suits.globals other ?_ name listed same) found
    rwa [← before.globalNames]
  · rw [draft, Array.getElem?_map, here]
    rfl
  · have renamed := map_modify start.globals index
      (fun global => { global with name := recast.global global.name })
      (fun global => { global with declared := true })
      (fun global => { global with declared := true }) fun _ => rfl
    simp only [draft, renamed]

theorem forM_declareGlobal_draft (suits : recast.Suits final) {names : List Token}
    (within : after.Within final) (encoded : names.forM declareGlobal start = .ok () after) :
    (names.map recast.global).forM declareGlobal (recast.draft start) =
      .ok () (recast.draft after) := by
  induction names generalizing start with
  | nil =>
      cases encoded
      rfl
  | cons name rest ih =>
      obtain ⟨middle, first, later⟩ := forM_cons_eq_ok_iff.mp encoded
      exact forM_cons_eq_ok_iff.mpr ⟨recast.draft middle,
        declareGlobal_draft suits ((within_of_forM later).trans within) first, ih later⟩

theorem declareLocal_draft (suits : recast.Suits final) (within : after.Within final)
    {arguments : List Token} (encoded : declareLocal arguments start = .ok () after) :
    declareLocal (recast.localArguments arguments) (recast.draft start) =
      .ok () (recast.draft after) := by
  obtain ⟨keyword, name, type, frameSize, rfl, known, unused, good, fresh, next, rfl⟩ :=
    declareLocal_eq_ok_iff.mp encoded
  have names (draft : Draft) : draft.locals.toList.map Local.name = draft.localNames := by
    rw [localNames, localOffsets, List.map_map]
    rfl
  have renamed : (recast.draft start).localNames = start.localNames.map recast.slot := by
    rw [localNames, localOffsets_draft, localNames, List.map_map, List.map_map]
    rfl
  have locals := within.localNames_subset
  rw [← names, Array.toList_push, List.map_append, names] at locals
  refine declareLocal_eq_ok_iff.mpr ⟨keyword, recast.slot name, type, frameSize, rfl, known, unused,
    (suits.good name good).2.2, ?_, next, ?_⟩
  · rw [names, renamed]
    intro member
    obtain ⟨other, old, same⟩ := List.mem_map.mp member
    rw [names] at fresh
    have listed : name ∈ final.localNames :=
      locals (List.mem_append_right _ (List.mem_singleton_self name))
    rw [suits.locals other (locals (List.mem_append_left _ old)) name listed same] at old
    exact fresh old
  · simp only [draft, Array.map_push]

/-- Sizes have to leave room for globals, whatever these are called. -/
theorem setSize_draft (set : UInt64 → Draft → Draft)
    (same : ∀ size start, set size (recast.draft start) = recast.draft (set size start))
    {arguments : List Token} (encoded : setSize set arguments start = .ok () after) :
    setSize set arguments (recast.draft start) = .ok () (recast.draft after) := by
  obtain ⟨value, size, rfl, known, rfl, fitting⟩ := setSize_eq_ok_iff.mp encoded
  refine setSize_eq_ok_iff.mpr ⟨value, size, rfl, known, (same size start).symm, ?_⟩
  intro global member declared
  obtain ⟨other, old, rfl⟩ := Array.mem_map.mp member
  exact fitting other old declared

theorem pragma_draft {arguments : List Token} (encoded : pragma arguments start = .ok () after) :
    pragma arguments (recast.draft start) = .ok () (recast.draft after) := by
  unfold pragma at encoded ⊢
  cases arguments with
  | nil =>
      cases encoded
      rfl
  | cons name arguments =>
      simp only at encoded ⊢
      split at encoded
      next isData =>
        rw [if_pos isData]
        exact setSize_draft (fun size draft => { draft with dataSize := size }) (fun _ _ => rfl)
          encoded
      next noData =>
        rw [if_neg noData]
        split at encoded
        next isStack =>
          rw [if_pos isStack]
          exact setSize_draft (fun size draft => { draft with stackSize := size }) (fun _ _ => rfl)
            encoded
        next noStack =>
          rw [if_neg noStack]
          cases encoded
          rfl

theorem addInstruction_draft (suits : recast.Suits final) {mnemonic : Token}
    {operands : List Token} (reads : ∀ token ∈ operands, recast.Reads start token)
    (encoded : addInstruction mnemonic operands start = .ok () after) :
    addInstruction mnemonic (operands.map recast.operand) (recast.draft start) =
      .ok () (recast.draft after) := by
  obtain ⟨opcode, instruction, known, read, rfl⟩ := addInstruction_eq_ok_iff.mp encoded
  have readAgain : (recast.draft start).instruction opcode (operands.map recast.operand) =
      .ok (instruction.mapOperands id) :=
    instruction_of_reads (fun _ => rfl) rfl reads (fun token _ => suits.registers token) read
  exact addInstruction_eq_ok_iff.mpr ⟨opcode, instruction, known, readAgain, rfl⟩

/-- A statement that was encoded is encoded again by a draft that is recast. -/
theorem addStatement_draft (suits : recast.Suits final) (within : after.Within final)
    {statement : Statement}
    (reads : ∀ token ∈ statement.operands, ∀ between : Draft, between.Within final →
      recast.Reads between token)
    (encoded : addStatement statement start = .ok () after) :
    addStatement (recast.statement statement) (recast.draft start) =
      .ok () (recast.draft after) := by
  cases statement with
  | blank =>
      cases encoded
      rfl
  | label name rest =>
      cases rest with
      | nil => exact placeLabel_draft suits within encoded
      | cons mnemonic operands =>
          obtain ⟨middle, placed, added⟩ := addStatement_label_eq_ok_iff.mp encoded
          have middleWithin := (within_of_addInstruction added).trans within
          exact addStatement_label_eq_ok_iff.mpr ⟨recast.draft middle,
            placeLabel_draft suits middleWithin placed,
            addInstruction_draft suits (fun token member => reads token member middle middleWithin)
              added⟩
  | pragma arguments => exact pragma_draft encoded
  | localVariable arguments => exact declareLocal_draft suits within encoded
  | globals type names =>
      obtain ⟨nonempty, declared⟩ := declareGlobals_eq_ok_iff.mp encoded
      refine declareGlobals_eq_ok_iff.mpr ⟨?_, forM_declareGlobal_draft suits within declared⟩
      exact mt List.map_eq_nil_iff.mp nonempty
  | instruction mnemonic operands =>
      have startWithin := (within_of_addInstruction encoded).trans within
      exact addInstruction_draft suits (fun token member => reads token member start startWithin)
        encoded

/-- Statements that were encoded are encoded again by a draft that is recast. -/
theorem addAll_draft (suits : recast.Suits final) {statements : List Statement}
    (reads : ∀ statement ∈ statements, ∀ token ∈ statement.operands, ∀ between : Draft,
      between.Within final → recast.Reads between token)
    (encoded : addAll statements start = .ok () final) :
    addAll (statements.map recast.statement) (recast.draft start) =
      .ok () (recast.draft final) := by
  induction statements generalizing start with
  | nil =>
      cases encoded
      rfl
  | cons statement rest ih =>
      rw [List.forall_mem_cons] at reads
      obtain ⟨middle, first, later⟩ := addAll_cons_iff.mp encoded
      refine addAll_cons_iff.mpr ⟨recast.draft middle, ?_, ih reads.2 later⟩
      rw [addNext_eq] at first ⊢
      exact addStatement_draft suits (within_of_addAll later) reads.1 first

end Recast

end WordMachine.Assembly
