import WordMachine.Proofs.Assembly.Recasting
import WordMachine.Proofs.Assembly.Respelling

/-!
# Names do not matter

A name that is declared in a text may be exchanged for one that does not occur there, in its
declaration and in the operands that stand for it (`Renaming.text`). The statements of the new
text are then encoded as those of the old one were, by a draft whose tables have the new name
(`Recast.addAll_draft`), and so the image is the same (`Assembler.assemble_renamed`).
-/

namespace WordMachine

namespace Assembly

/-- A table of names. -/
inductive Table where
  | labels
  | globals
  | locals
  deriving DecidableEq, Repr

namespace Draft

/-- The names in a table of a draft. -/
def names (draft : Draft) : Table → List Token
  | .labels => draft.labelNames
  | .globals => draft.globalNames
  | .locals => draft.localNames

/-- The table that an operand of a name is looked up in. -/
def tableOf? (draft : Draft) (name : Token) : Option Table :=
  if name ∈ draft.labelNames then some .labels
  else if name ∈ draft.globalNames then some .globals
  else if name ∈ draft.localNames then some .locals
  else none

end Draft

/-- A new name in place of an old one of a table. -/
structure Renaming where
  table : Table
  old : Token
  new : Token
  /-- Whether an operand that is written as the old name stands for it, and not for the same name
  of another table. -/
  inOperands : Bool
  deriving DecidableEq, Repr

/-- The renaming of a name that is declared in a draft. -/
def Renaming.of (draft : Draft) (table : Table) (old new : Token) : Renaming where
  table
  old
  new
  inOperands := decide (draft.tableOf? old = some table)

namespace Renaming

/-- The name that stands for a name afterwards. -/
def name (exchange : Renaming) (token : Token) : Token :=
  if token = exchange.old then exchange.new else token

/-- The name that stands for a name of a table afterwards. -/
def nameIn (exchange : Renaming) (table : Table) (token : Token) : Token :=
  if table = exchange.table then exchange.name token else token

def recast (exchange : Renaming) : Recast where
  label := exchange.nameIn .labels
  global := exchange.nameIn .globals
  slot := exchange.nameIn .locals
  operand token := if exchange.inOperands then exchange.name token else token
  behind := #[]

/-- The text with the new name in place of the old one, where it is declared and where an operand
stands for it. -/
def text (exchange : Renaming) (text : String) : String := respell exchange.recast.tokens text

/-- The declarations with the new name in the table of the old one. -/
def declarations (exchange : Renaming) (found : Declarations) : Declarations :=
  { found with
    labels := found.labels.map fun label =>
      { label with name := exchange.nameIn .labels label.name }
    globals := found.globals.map fun global =>
      { global with name := exchange.nameIn .globals global.name } }

end Renaming

/-- Whether a name is a token of a text or is declared as a label in it. -/
def Occurs (name : Token) (text : String) : Prop :=
  ∃ line ∈ Line.cut text.toList, name ∈ Line.tokens (Line.content line) ∨
    (Statement.ofTokens (Line.tokens (Line.content line))).declaredLabel? = some name

instance (name : Token) (text : String) : Decidable (Occurs name text) :=
  inferInstanceAs (Decidable (∃ _ ∈ _, _))

/-! ## Words -/

namespace Statement

/-- The tokens of a statement behind the first, and the name or the mnemonic that comes first. -/
def words : Statement → List Token
  | .blank => []
  | .label name rest => name :: rest
  | .pragma arguments | .localVariable arguments => arguments
  | .globals _ names => names
  | .instruction mnemonic operands => mnemonic :: operands

theorem words_ofTokens {tokens : List Token} {word : Token}
    (member : word ∈ (ofTokens tokens).words) :
    word ∈ tokens ∨ (ofTokens tokens).declaredLabel? = some word := by
  cases tokens with
  | nil => cases member
  | cons first rest =>
      rw [ofTokens] at member ⊢
      split at member
      next name isLabel =>
        rcases List.mem_cons.mp member with rfl | later
        · exact Or.inr rfl
        · exact Or.inl (List.mem_cons_of_mem _ later)
      next =>
        left
        split at member
        · exact List.mem_cons_of_mem _ member
        · split at member
          · exact List.mem_cons_of_mem _ member
          · split at member
            · exact List.mem_cons_of_mem _ member
            · exact member

theorem mem_words_of_operands {statement : Statement} {token : Token}
    (member : token ∈ statement.operands) : token ∈ statement.words := by
  cases statement with
  | label name rest => exact List.mem_cons_of_mem _ (List.mem_of_mem_tail member)
  | instruction mnemonic operands => exact List.mem_cons_of_mem _ member
  | blank => exact member
  | pragma arguments => cases member
  | localVariable arguments => cases member
  | globals type names => cases member

/-- The words of the statements on the lines of a text occur in it. -/
theorem occurs_of_words {text : String} {statements : List Statement} {statement : Statement}
    (onLines : (Source.ofString text).lines.map Source.statement? = statements.map some)
    (member : statement ∈ statements) {word : Token} (isWord : word ∈ statement.words) :
    Occurs word text := by
  have onLine : some statement ∈ (Source.ofString text).lines.map Source.statement? := by
    rw [onLines]
    exact List.mem_map_of_mem member
  rw [Source.lines_ofString, List.map_map, List.mem_map] at onLine
  obtain ⟨line, lineMember, spelled⟩ := onLine
  rw [Function.comp_apply, Source.statement?_bytes, ofText?, Option.map_eq_some_iff] at spelled
  obtain ⟨tokens, few, rfl⟩ := spelled
  rw [Line.tokens?] at few
  split at few
  · cases few
    exact ⟨line, lineMember, words_ofTokens isWord⟩
  · cases few

end Statement

namespace Declarations

variable {found : Declarations}

/-- What a statement adds to the names of labels are good words of it. -/
theorem mem_labelNames_addStatement {statement : Statement} {name : Token}
    (member : name ∈ (found.addStatement statement).labelNames) :
    name ∈ found.labelNames ∨ isName name = true ∧ name ∈ statement.words := by
  cases statement with
  | label label rest =>
      rw [addStatement] at member
      by_cases fresh : isName label = true ∧ label ∉ found.labelNames
      · rw [addLabel_of_fresh fresh.1 fresh.2, labelNames_pushLabel, List.mem_append,
          List.mem_singleton] at member
        rcases member with old | rfl
        · exact Or.inl old
        · exact Or.inr ⟨fresh.1, List.mem_cons_self⟩
      · rw [addLabel_of_not_fresh fresh] at member
        exact Or.inl member
  | globals type names =>
      rw [addStatement, labelNames, (line_foldl_addGlobal type names found).2] at member
      exact Or.inl member
  | blank => exact Or.inl member
  | pragma arguments => exact Or.inl member
  | localVariable arguments => exact Or.inl member
  | instruction mnemonic operands => exact Or.inl member

theorem mem_globalNames_addGlobal {type : VariableType} {name other : Token}
    (member : other ∈ (addGlobal type found name).globalNames) :
    other ∈ found.globalNames ∨ isName other = true ∧ other = name := by
  by_cases fresh : isName name = true ∧ name ∉ found.globalNames ∧ found.nextAddress.isSome
  · obtain ⟨address, next⟩ := Option.isSome_iff_exists.mp fresh.2.2
    rw [addGlobal_of_fresh fresh.1 fresh.2.1 next, globalNames_pushGlobal, List.mem_append,
      List.mem_singleton] at member
    rcases member with old | rfl
    · exact Or.inl old
    · exact Or.inr ⟨fresh.1, rfl⟩
  · rw [addGlobal_of_not_fresh fresh] at member
    exact Or.inl member

/-- What a statement adds to the names of globals are good words of it. -/
theorem mem_globalNames_addStatement {statement : Statement} {name : Token}
    (member : name ∈ (found.addStatement statement).globalNames) :
    name ∈ found.globalNames ∨ isName name = true ∧ name ∈ statement.words := by
  cases statement with
  | globals type names =>
      rw [addStatement] at member
      induction names generalizing found with
      | nil => exact Or.inl member
      | cons first rest ih =>
          rcases ih member with added | ⟨good, later⟩
          · rcases mem_globalNames_addGlobal added with old | ⟨good, rfl⟩
            · exact Or.inl old
            · exact Or.inr ⟨good, List.mem_cons_self⟩
          · exact Or.inr ⟨good, List.mem_cons_of_mem _ later⟩
  | label label rest =>
      rw [addStatement, globalNames] at member
      rw [globalNames]
      have same : (found.addLabel label).globals = found.globals := by
        rw [addLabel]
        split
        · rfl
        · rfl
      rw [same] at member
      exact Or.inl member
  | blank => exact Or.inl member
  | pragma arguments => exact Or.inl member
  | localVariable arguments => exact Or.inl member
  | instruction mnemonic operands => exact Or.inl member

/-- Names of labels and globals are good words of the statements. -/
theorem words_of_names {statements : List Statement} {name : Token}
    (member : name ∈ (ofStatements statements).labelNames ∨
      name ∈ (ofStatements statements).globalNames) :
    isName name = true ∧ ∃ statement ∈ statements, name ∈ statement.words := by
  induction statements using List.reverseRecOn with
  | nil => rcases member with member | member <;> cases member
  | append_singleton front last ih =>
      rw [ofStatements_concat] at member
      have before (old : name ∈ (ofStatements front).labelNames ∨
          name ∈ (ofStatements front).globalNames) :
          isName name = true ∧ ∃ statement ∈ front ++ [last], name ∈ statement.words := by
        obtain ⟨good, statement, inFront, isWord⟩ := ih old
        exact ⟨good, statement, List.mem_append_left _ inFront, isWord⟩
      have isLast : last ∈ front ++ [last] := List.mem_append_right _ (List.mem_singleton_self last)
      rcases member with label | global
      · rcases mem_labelNames_addStatement label with old | ⟨good, isWord⟩
        · exact before (Or.inl old)
        · exact ⟨good, last, isLast, isWord⟩
      · rcases mem_globalNames_addStatement global with old | ⟨good, isWord⟩
        · exact before (Or.inr old)
        · exact ⟨good, last, isLast, isWord⟩

end Declarations

namespace Draft

variable {draft final : Draft}

/-- What a statement adds to the names of locals is a good word of it. -/
theorem mem_localNames_addStatement {statement : Statement} {name : Token}
    (encoded : addStatement statement draft = .ok () final) (member : name ∈ final.localNames) :
    name ∈ draft.localNames ∨ Declarations.isName name = true ∧ name ∈ statement.words := by
  cases statement with
  | blank =>
      cases encoded
      exact Or.inl member
  | label label rest =>
      left
      cases rest with
      | nil =>
          obtain ⟨-, _, _, -, -, -, rfl⟩ := placeLabel_eq_ok_iff.mp encoded
          exact member
      | cons mnemonic operands =>
          obtain ⟨middle, placed, added⟩ := addStatement_label_eq_ok_iff.mp encoded
          obtain ⟨_, _, -, -, rfl⟩ := addInstruction_eq_ok_iff.mp added
          obtain ⟨-, _, _, -, -, -, rfl⟩ := placeLabel_eq_ok_iff.mp placed
          exact member
  | pragma arguments =>
      obtain ⟨-, -, -, ignoredPragmas, same⟩ := (pragma_ends arguments).of_ok encoded
      rw [same] at member
      exact Or.inl member
  | localVariable arguments =>
      obtain ⟨keyword, other, type, frameSize, rfl, -, -, good, -, -, rfl⟩ :=
        declareLocal_eq_ok_iff.mp encoded
      rw [localNames, localOffsets, Array.toList_push, List.map_append, List.map_append,
        List.mem_append] at member
      rcases member with old | new
      · exact Or.inl old
      · obtain rfl := List.mem_singleton.mp new
        exact Or.inr ⟨good, List.mem_cons_of_mem _ List.mem_cons_self⟩
  | globals type names =>
      left
      have declared := (declareGlobals_eq_ok_iff.mp encoded).2
      clear encoded
      induction names generalizing draft with
      | nil =>
          cases declared
          exact member
      | cons first rest ih =>
          obtain ⟨middle, here, later⟩ := forM_cons_eq_ok_iff.mp declared
          obtain ⟨-, _, _, -, -, -, -, rfl⟩ := declareGlobal_eq_ok_iff.mp here
          have inMiddle := ih later
          exact inMiddle
  | instruction mnemonic operands =>
      obtain ⟨_, _, -, -, rfl⟩ := addInstruction_eq_ok_iff.mp encoded
      exact Or.inl member

theorem mem_localNames_addAll {statements : List Statement} {name : Token}
    (encoded : addAll statements draft = .ok () final) (member : name ∈ final.localNames) :
    name ∈ draft.localNames ∨
      Declarations.isName name = true ∧ ∃ statement ∈ statements, name ∈ statement.words := by
  induction statements generalizing draft with
  | nil =>
      cases encoded
      exact Or.inl member
  | cons statement rest ih =>
      obtain ⟨middle, first, later⟩ := addAll_cons_iff.mp encoded
      rcases ih later with before | ⟨good, other, otherMember, isWord⟩
      · rcases mem_localNames_addStatement first before with old | ⟨good, isWord⟩
        · exact Or.inl old
        · exact Or.inr ⟨good, statement, List.mem_cons_self, isWord⟩
      · exact Or.inr ⟨good, other, List.mem_cons_of_mem _ otherMember, isWord⟩

/-- The names in the tables of statements are good words of these. -/
theorem words_of_names {statements : List Statement}
    (encoded : addAll statements (.ofDeclarations (.ofStatements statements)) = .ok () final)
    {table : Table} {name : Token} (member : name ∈ final.names table) :
    Declarations.isName name = true ∧ ∃ statement ∈ statements, name ∈ statement.words := by
  have within := within_of_addAll encoded
  cases table with
  | labels =>
      rw [names, ← within.labels] at member
      exact Declarations.words_of_names (Or.inl member)
  | globals =>
      rw [names, ← within.globalNames, globalNames, globalAddresses, List.map_map] at member
      exact Declarations.words_of_names (Or.inr member)
  | locals =>
      rcases mem_localNames_addAll encoded member with none | found
      · cases none
      · exact found

end Draft

namespace Renaming

variable {exchange : Renaming} {names : List Token} {token : Token}

/-! ## The new name -/

theorem nameIn_of_ne (other : token ≠ exchange.old) (table : Table) :
    exchange.nameIn table token = token := by
  rw [nameIn, name, if_neg other, ite_self]

theorem nameIn_other {table : Table} (other : table ≠ exchange.table) (token : Token) :
    exchange.nameIn table token = token := if_neg other

theorem nameIn_old : exchange.nameIn exchange.table exchange.old = exchange.new := by
  rw [nameIn, if_pos rfl, name, if_pos rfl]

theorem nameIn_cases (exchange : Renaming) (table : Table) (token : Token) :
    exchange.nameIn table token = token ∨
      table = exchange.table ∧ token = exchange.old ∧
        exchange.nameIn table token = exchange.new := by
  by_cases here : table = exchange.table
  · by_cases isOld : token = exchange.old
    · subst here isOld
      exact Or.inr ⟨rfl, rfl, nameIn_old⟩
    · exact Or.inl (nameIn_of_ne isOld table)
  · exact Or.inl (nameIn_other here token)

theorem nameIn_inj {table : Table} {first second : Token} (firstOther : first ≠ exchange.new)
    (secondOther : second ≠ exchange.new)
    (same : exchange.nameIn table first = exchange.nameIn table second) : first = second := by
  rcases exchange.nameIn_cases table first with firstSame | ⟨-, firstOld, firstNew⟩
  · rcases exchange.nameIn_cases table second with secondSame | ⟨-, -, secondNew⟩
    · rwa [firstSame, secondSame] at same
    · rw [firstSame, secondNew] at same
      exact absurd same firstOther
  · rcases exchange.nameIn_cases table second with secondSame | ⟨-, secondOld, -⟩
    · rw [firstNew, secondSame] at same
      exact absurd same.symm secondOther
    · rw [firstOld, secondOld]

/-- Where the old name is not exchanged, and anywhere else, names are found as themselves. -/
theorem finds_same {table : Table} (other : token ≠ exchange.new)
    (kept : token ≠ exchange.old ∨ table ≠ exchange.table) (names : List Token) :
    Finds (exchange.nameIn table) names token token where
  here _ := kept.elim (fun other => nameIn_of_ne other table) fun other => nameIn_other other token
  apart := by
    intro name _ same
    rcases exchange.nameIn_cases table name with unchanged | ⟨-, -, new⟩
    · rwa [unchanged] at same
    · rw [new] at same
      exact absurd same.symm other

/-- Where the old name is exchanged, the new one is found for it. -/
theorem finds_new {table : Table} (fresh : exchange.new ∉ names)
    (exchanged : table = exchange.table ∨ exchange.old ∉ names) :
    Finds (exchange.nameIn table) names exchange.old exchange.new where
  here := by
    intro member
    obtain rfl := exchanged.resolve_right (not_not_intro member)
    exact nameIn_old
  apart := by
    intro name member same
    rcases exchange.nameIn_cases table name with unchanged | ⟨-, isOld, -⟩
    · rw [unchanged] at same
      rw [same] at member
      exact absurd member fresh
    · exact isOld

/-! ## Declarations -/

section

variable {found : Declarations} (goodOld : Declarations.isName exchange.old = true)
  (goodNew : Declarations.isName exchange.new = true)

include goodOld goodNew

theorem isName_nameIn (table : Table) (token : Token) :
    Declarations.isName (exchange.nameIn table token) = Declarations.isName token := by
  rcases exchange.nameIn_cases table token with unchanged | ⟨-, isOld, new⟩
  · rw [unchanged]
  · rw [new, isOld, goodOld, goodNew]

theorem fresh_nameIn_iff (table : Table) (otherNames : exchange.new ∉ names)
    (other : token ≠ exchange.new) :
    (Declarations.isName (exchange.nameIn table token) = true ∧
        exchange.nameIn table token ∉ names.map (exchange.nameIn table)) ↔
      Declarations.isName token = true ∧ token ∉ names := by
  rw [isName_nameIn goodOld goodNew, List.mem_map]
  have found : (∃ name ∈ names, exchange.nameIn table name = exchange.nameIn table token) ↔
      token ∈ names := by
    constructor
    · rintro ⟨name, member, same⟩
      have nameOther : name ≠ exchange.new := fun equal => otherNames (equal ▸ member)
      rwa [nameIn_inj nameOther other same] at member
    · exact fun member => ⟨token, member, rfl⟩
  rw [found]

theorem addLabel_declarations (otherNames : exchange.new ∉ found.labelNames)
    (other : token ≠ exchange.new) :
    (exchange.declarations found).addLabel (exchange.nameIn .labels token) =
      exchange.declarations (found.addLabel token) := by
  have renamed : (exchange.declarations found).labelNames =
      found.labelNames.map (exchange.nameIn .labels) := by
    rw [Declarations.labelNames, Declarations.labelNames, declarations, Array.toList_map,
      List.map_map, List.map_map]
    rfl
  have freshIff := fresh_nameIn_iff goodOld goodNew .labels otherNames other
  rw [← renamed] at freshIff
  by_cases fresh : Declarations.isName token = true ∧ token ∉ found.labelNames
  · have freshThen := freshIff.mpr fresh
    rw [Declarations.addLabel_of_fresh fresh.1 fresh.2,
      Declarations.addLabel_of_fresh freshThen.1 freshThen.2]
    simp only [declarations, Declarations.pushLabel, Array.map_push]
  · rw [Declarations.addLabel_of_not_fresh fresh,
      Declarations.addLabel_of_not_fresh (mt freshIff.mp fresh)]

theorem addGlobal_declarations (otherNames : exchange.new ∉ found.globalNames)
    (other : token ≠ exchange.new) (type : VariableType) :
    (exchange.declarations found).addGlobal type (exchange.nameIn .globals token) =
      exchange.declarations (found.addGlobal type token) := by
  have renamed : (exchange.declarations found).globalNames =
      found.globalNames.map (exchange.nameIn .globals) := by
    rw [Declarations.globalNames, Declarations.globalNames, declarations, Array.toList_map,
      List.map_map, List.map_map]
    rfl
  have freshIff := fresh_nameIn_iff goodOld goodNew .globals otherNames other
  rw [← renamed] at freshIff
  by_cases fresh : Declarations.isName token = true ∧ token ∉ found.globalNames ∧
    found.nextAddress.isSome
  · obtain ⟨good, new, some⟩ := fresh
    obtain ⟨address, next⟩ := Option.isSome_iff_exists.mp some
    have freshThen := freshIff.mpr ⟨good, new⟩
    rw [Declarations.addGlobal_of_fresh good new next,
      Declarations.addGlobal_of_fresh freshThen.1 freshThen.2 next]
    simp only [declarations, Declarations.pushGlobal, Array.map_push]
  · have notFresh : ¬ (Declarations.isName (exchange.nameIn .globals token) = true ∧
        exchange.nameIn .globals token ∉ (exchange.declarations found).globalNames ∧
        (exchange.declarations found).nextAddress.isSome) := by
      rintro ⟨good, new, some⟩
      have freshNow := freshIff.mp ⟨good, new⟩
      exact fresh ⟨freshNow.1, freshNow.2, some⟩
    rw [Declarations.addGlobal_of_not_fresh fresh, Declarations.addGlobal_of_not_fresh notFresh]

theorem foldl_addGlobal_declarations (otherNames : exchange.new ∉ found.globalNames)
    (others : exchange.new ∉ names) (type : VariableType) :
    (names.map (exchange.nameIn .globals)).foldl (Declarations.addGlobal type)
        (exchange.declarations found) =
      exchange.declarations (names.foldl (Declarations.addGlobal type) found) := by
  induction names generalizing found with
  | nil => rfl
  | cons first rest ih =>
      rw [List.mem_cons, not_or] at others
      rw [List.map_cons, List.foldl_cons, List.foldl_cons,
        addGlobal_declarations goodOld goodNew otherNames (Ne.symm others.1)]
      refine ih ?_ others.2
      intro member
      rcases Declarations.mem_globalNames_addGlobal member with old | ⟨-, new⟩
      · exact otherNames old
      · exact others.1 new

theorem addStatement_declarations {statement : Statement}
    (otherLabels : exchange.new ∉ found.labelNames)
    (otherGlobals : exchange.new ∉ found.globalNames) (others : exchange.new ∉ statement.words) :
    (exchange.declarations found).addStatement (exchange.recast.statement statement) =
      exchange.declarations (found.addStatement statement) := by
  cases statement with
  | label name rest =>
      have other : name ≠ exchange.new := by
        rintro rfl
        exact others List.mem_cons_self
      exact addLabel_declarations goodOld goodNew otherLabels other
  | globals type names =>
      exact foldl_addGlobal_declarations goodOld goodNew otherGlobals others type
  | blank => rfl
  | pragma arguments => rfl
  | localVariable arguments => rfl
  | instruction mnemonic operands => rfl

/-- Statements with the new name declare what they declared. -/
theorem ofStatements_map {statements : List Statement}
    (others : ∀ statement ∈ statements, exchange.new ∉ statement.words) :
    Declarations.ofStatements (statements.map exchange.recast.statement) =
      exchange.declarations (.ofStatements statements) := by
  induction statements using List.reverseRecOn with
  | nil =>
      simp only [List.map_nil, Declarations.ofStatements, List.foldl_nil, declarations,
        Declarations.empty, Array.map_empty]
  | append_singleton front last ih =>
      have frontOthers : ∀ statement ∈ front, exchange.new ∉ statement.words :=
        fun statement member => others statement (List.mem_append_left _ member)
      have lastOthers := others last (List.mem_append_right _ (List.mem_singleton_self last))
      have fresh : ¬ (exchange.new ∈ (Declarations.ofStatements front).labelNames ∨
          exchange.new ∈ (Declarations.ofStatements front).globalNames) := by
        intro member
        obtain ⟨-, statement, inFront, isWord⟩ := Declarations.words_of_names member
        exact frontOthers statement inFront isWord
      rw [not_or] at fresh
      have onNext : (exchange.declarations (Declarations.ofStatements front).nextLine).addStatement
          (exchange.recast.statement last) =
            exchange.declarations ((Declarations.ofStatements front).nextLine.addStatement last) :=
        addStatement_declarations goodOld goodNew fresh.1 fresh.2 lastOthers
      rw [List.map_append, List.map_singleton, Declarations.ofStatements_concat,
        Declarations.ofStatements_concat, ih frontOthers]
      exact onNext

end

/-! ## Drafts -/

theorem draft_ofDeclarations (exchange : Renaming) (found : Declarations) :
    exchange.recast.draft (.ofDeclarations found) =
      .ofDeclarations (exchange.declarations found) := by
  simp only [Recast.draft, recast, Draft.ofDeclarations, declarations, Array.append_empty,
    Array.map_empty]

end Renaming

namespace Draft

variable {final : Draft} {name : Token}

theorem tableOf?_eq_labels_iff : final.tableOf? name = some .labels ↔ name ∈ final.labelNames := by
  rw [tableOf?]
  split
  next isLabel => exact iff_of_true rfl isLabel
  next noLabel =>
    refine iff_of_false ?_ noLabel
    split
    · exact fun same => Table.noConfusion (Option.some.inj same)
    · split
      · exact fun same => Table.noConfusion (Option.some.inj same)
      · exact nofun

/-- Names of globals are looked up where they are no labels. -/
theorem tableOf?_eq_globals_iff (noLabel : name ∉ final.labelNames) :
    final.tableOf? name = some .globals ↔ name ∈ final.globalNames := by
  rw [tableOf?, if_neg noLabel]
  split
  next isGlobal => exact iff_of_true rfl isGlobal
  next noGlobal =>
    refine iff_of_false ?_ noGlobal
    split
    · exact fun same => Table.noConfusion (Option.some.inj same)
    · exact nofun

/-- Names of locals are looked up where they are neither labels nor globals. -/
theorem tableOf?_eq_locals_iff (noLabel : name ∉ final.labelNames)
    (noGlobal : name ∉ final.globalNames) :
    final.tableOf? name = some .locals ↔ name ∈ final.localNames := by
  rw [tableOf?, if_neg noLabel, if_neg noGlobal]
  split
  next isLocal => exact iff_of_true rfl isLocal
  next noLocal => exact iff_of_false nofun noLocal

end Draft

namespace Renaming

variable {final between : Draft} {table : Table} {old new token : Token} {argument : Argument}

theorem operand_of_other (other : token ≠ old) :
    (of final table old new).recast.operand token = token := by
  have same : (of final table old new).name token = token := if_neg other
  simp only [recast, same, ite_self]

/-- An operand that stands for the old name is read as what it was with the new one. -/
theorem named_new (within : between.Within final) (fresh : ∀ table, new ∉ final.names table)
    (stands : final.tableOf? old = some table) (read : between.named old = .ok argument) :
    ((of final table old new).recast.draft between).named new = .ok argument := by
  have exchanged {other : Table} {names : List Token}
      (lookedUp : old ∈ names → final.tableOf? old = some other) : other = table ∨ old ∉ names := by
    by_cases member : old ∈ names
    · exact Or.inl (Option.some.inj ((lookedUp member).symm.trans stands))
    · exact Or.inr member
  have freshLocals : new ∉ between.localNames :=
    fun member => fresh .locals (within.localNames_subset member)
  apply Recast.named_draft _ _ _ _ read
  · rw [within.labels]
    exact finds_new (fresh .labels) (exchanged Draft.tableOf?_eq_labels_iff.mpr)
  · intro none
    cases none
  · rw [within.labels, within.globalNames]
    exact fun noLabel => finds_new (fresh .globals)
      (exchanged (Draft.tableOf?_eq_globals_iff noLabel).mpr)
  · rw [within.labels, within.globalNames]
    exact fun noLabel noGlobal => finds_new freshLocals (exchanged fun member =>
      (Draft.tableOf?_eq_locals_iff noLabel noGlobal).mpr (within.localNames_subset member))

/-- An operand that stands for the same name of another table is read as what it was. -/
theorem named_old (within : between.Within final) (declared : old ∈ final.names table)
    (other : old ≠ new) (stands : final.tableOf? old ≠ some table)
    (read : between.named old = .ok argument) :
    ((of final table old new).recast.draft between).named old = .ok argument := by
  have kept {other : Table}
      (lookedUp : other = table → final.tableOf? old = some other) : other ≠ table := by
    intro same
    exact stands ((lookedUp same).trans (congrArg some same))
  apply Recast.named_draft _ _ _ _ read
  · refine finds_same other (Or.inr (kept ?_)) _
    rintro rfl
    exact Draft.tableOf?_eq_labels_iff.mpr declared
  · intro none
    cases none
  · rw [within.labels]
    intro noLabel
    refine finds_same other (Or.inr (kept ?_)) _
    rintro rfl
    exact (Draft.tableOf?_eq_globals_iff noLabel).mpr declared
  · rw [within.labels, within.globalNames]
    intro noLabel noGlobal
    refine finds_same other (Or.inr (kept ?_)) _
    rintro rfl
    exact (Draft.tableOf?_eq_locals_iff noLabel noGlobal).mpr declared

/-- Operands are read as what they were. -/
theorem reads (declared : old ∈ final.names table) (goodOld : Declarations.isName old = true)
    (goodNew : Declarations.isName new = true) (fresh : ∀ table, new ∉ final.names table)
    (other : token ≠ new) (within : between.Within final) :
    (of final table old new).recast.Reads between token := by
  have byName {name : Token} (good : Declarations.isName name = true) (draft : Draft) :
      draft.argument name = draft.named name :=
    Draft.argument_of_isIdentifier (Bool.and_eq_true_iff.mp good).1 draft
  intro argument read
  by_cases isOld : token = old
  · subst isOld
    rw [byName goodOld] at read
    by_cases stands : final.tableOf? token = some table
    · have operand : (of final table token new).recast.operand token = new := by
        simp only [recast, of, name, decide_eq_true stands, if_true]
      rw [operand, byName goodNew]
      exact named_new within fresh stands read
    · have operand : (of final table token new).recast.operand token = token := by
        simp only [recast, of, decide_eq_false stands, Bool.false_eq_true, if_false]
      rw [operand, byName goodOld]
      exact named_old within declared other stands read
  · rw [operand_of_other isOld]
    rcases Draft.argument_cases token with named | ⟨outcome, same, -⟩
    · rw [named] at read ⊢
      apply Recast.named_draft _ _ _ _ read
      · exact finds_same other (Or.inl isOld) _
      · intro none
        cases none
      · exact fun _ => finds_same other (Or.inl isOld) _
      · exact fun _ _ => finds_same other (Or.inl isOld) _
    · rwa [same] at read ⊢

theorem suits (goodOld : Declarations.isName old = true)
    (goodNew : Declarations.isName new = true) (fresh : ∀ table, new ∉ final.names table) :
    (of final table old new).recast.Suits final := by
  have apart (other : Table) : ∀ first ∈ final.names other, ∀ second ∈ final.names other,
      (of final table old new).nameIn other first = (of final table old new).nameIn other second →
        first = second := by
    intro first firstMember second secondMember
    refine nameIn_inj ?_ ?_
    · rintro rfl
      exact fresh other firstMember
    · rintro rfl
      exact fresh other secondMember
  have good (other : Table) (name : Token) (isGood : Declarations.isName name = true) :
      Declarations.isName ((of final table old new).nameIn other name) = true :=
    (isName_nameIn goodOld goodNew other name).trans isGood
  exact
    { good := fun name isGood => ⟨good .labels name isGood, good .globals name isGood,
        good .locals name isGood⟩
      labels := apart .labels
      globals := apart .globals
      locals := apart .locals
      registers := by
        intro token isRegister
        refine operand_of_other ?_
        rintro rfl
        rw [(Listing.operand?_of_isName ⟨[], []⟩ .empty goodOld).1] at isRegister
        cases isRegister }

end Renaming

/-! ## Texts -/

theorem Statement.eq_concat_of_labelName? {first name : Token}
    (isLabel : labelName? first = some name) : first = name ++ [':'] := by
  rw [labelName?] at isLabel
  split at isLabel
  next colon =>
    cases isLabel
    obtain ⟨front, rfl⟩ := List.getLast?_eq_some_iff.mp colon
    rw [List.dropLast_concat]
  next => cases isLabel

/-- The tokens of a line are left or exchanged for plain ones if each name and operand is. -/
theorem Recast.respells_tokens {recast : Recast}
    (labels : ∀ name, Respells (name ++ [':']) (recast.label name ++ [':']))
    (globals : ∀ token, Respells token (recast.global token))
    (slots : ∀ token, Respells token (recast.slot token))
    (operands : ∀ token, Respells token (recast.operand token)) (tokens : List Token) :
    List.Forall₂ Respells tokens (recast.tokens tokens) := by
  have kept (tokens : List Token) : List.Forall₂ Respells tokens tokens :=
    List.forall₂_same.mpr fun _ _ => Or.inl rfl
  have each {rewrite : Token → Token} (here : ∀ token, Respells token (rewrite token))
      (tokens : List Token) : List.Forall₂ Respells tokens (tokens.map rewrite) := by
    rw [List.forall₂_map_right_iff]
    exact List.forall₂_same.mpr fun token _ => here token
  cases tokens with
  | nil => exact .nil
  | cons first rest =>
      rw [Recast.tokens]
      split
      next name isLabel =>
        obtain rfl := Statement.eq_concat_of_labelName? isLabel
        refine .cons (labels name) ?_
        cases rest with
        | nil => exact .nil
        | cons mnemonic later => exact .cons (Or.inl rfl) (each operands later)
      next =>
        split
        · exact kept _
        · split
          · refine .cons (Or.inl rfl) ?_
            rw [Recast.localArguments.eq_def]
            split
            · exact .cons (Or.inl rfl) (.cons (slots _) .nil)
            · exact kept _
          · split
            · exact .cons (Or.inl rfl) (each globals rest)
            · exact .cons (Or.inl rfl) (each operands rest)

/-- The tokens of a line are left, or exchanged for the new name. -/
theorem Renaming.respells {exchange : Renaming} (goodNew : Declarations.isName exchange.new = true)
    (tokens : List Token) : List.Forall₂ Respells tokens (exchange.recast.tokens tokens) := by
  obtain ⟨nonempty, plain⟩ := plain_of_isName goodNew
  have inTable (table : Table) (token : Token) : Respells token (exchange.nameIn table token) := by
    rcases exchange.nameIn_cases table token with unchanged | ⟨-, -, new⟩
    · exact Or.inl unchanged
    · rw [new]
      exact Or.inr ⟨nonempty, plain⟩
  refine Recast.respells_tokens ?_ (inTable .globals) (inTable .locals) ?_ tokens
  · intro name
    rcases exchange.nameIn_cases .labels name with unchanged | ⟨-, -, new⟩
    · exact Or.inl (congrArg (· ++ [':']) unchanged)
    · refine Or.inr ⟨List.append_ne_nil_of_right_ne_nil _ (List.cons_ne_nil _ _), ?_⟩
      intro char member
      simp only [recast, new, List.mem_append, List.mem_singleton] at member
      exact member.elim (plain char) fun colon => Or.inr (Or.inr colon)
  · intro token
    simp only [recast, name]
    split
    · split
      · exact Or.inr ⟨nonempty, plain⟩
      · exact Or.inl rfl
    · exact Or.inl rfl

namespace Linking

/-- Linking looks at nothing of the labels but their addresses. -/
theorem instructions_congr {labels others : Array Label}
    (same : ∀ index : Nat, labels[index]?.bind Label.address = others[index]?.bind Label.address) :
    instructions labels = instructions others := by
  have sameResolve : resolve labels = resolve others := by
    funext line fetched operand
    rw [resolve, resolve, labelAddress?, labelAddress?, same]
  have sameInstruction : instruction labels = instruction others := by
    funext line
    rw [instruction, instruction, sameResolve]
  funext lastLine count
  induction count with
  | zero => rfl
  | succ count ih =>
      funext lines
      rw [instructions, instructions, sameInstruction, ih]

end Linking

end Assembly

open Assembly

namespace Assembler

/-- A draft makes the same image whatever its names are. -/
theorem finish_draft (exchange : Renaming) (draft : Draft) :
    finish (exchange.recast.draft draft) = finish draft := by
  have linked (image : Image) : (exchange.recast.draft draft).link image = draft.link image := by
    rw [Draft.link, Draft.link, Linking.instructions_congr]
    · rfl
    · intro index
      simp only [Recast.draft, Renaming.recast, Array.append_empty, Array.getElem?_map]
      cases draft.labels[index]? <;> rfl
  simp only [finish, linked]
  rfl

/-- Names do not matter to the code. Where a text assembles, a name that is declared in it may be
exchanged for a good name that does not occur in it, in its declaration and in the operands that
stand for it: the text assembles to the same image then, and nothing of the tables that it leaves
is changed but the name. -/
theorem assemble_renamed (assembler : Assembler) {text : String} {attempt : Attempt}
    {image : Image} {table : Table} {old new : Token}
    (attempted : assembler.assemble (.ofString text) = attempt)
    (assembled : attempt.outcome = .ok image)
    (declared : old ∈ attempt.assembler.names table) (good : Declarations.isName new = true)
    (fresh : ¬ Occurs new text) :
    ∃ renamed : Attempt, renamed = assembler.assemble
        (.ofString ((Renaming.of attempt.assembler.toDraft table old new).text text)) ∧
      renamed.outcome = .ok image ∧
      renamed.assembler.toDraft =
        (Renaming.of attempt.assembler.toDraft table old new).recast.draft
          attempt.assembler.toDraft := by
  subst attempted
  obtain ⟨statements, draft, onLines, encoded, finished, tables⟩ :=
    statements_of_assembled assembled
  have goodWord {table : Table} {name : Token} (member : name ∈ draft.names table) :
      Declarations.isName name = true ∧ Occurs name text := by
    obtain ⟨goodName, statement, statementMember, isWord⟩ := Draft.words_of_names encoded member
    exact ⟨goodName, Statement.occurs_of_words onLines statementMember isWord⟩
  rw [tables] at declared ⊢
  have inDraft : old ∈ draft.names table := by
    cases table <;> exact declared
  have same : Renaming.of { draft with writer := .empty } table old new =
      Renaming.of draft table old new := rfl
  have goodOld := (goodWord inDraft).1
  have freshNames : ∀ table, new ∉ draft.names table :=
    fun table member => fresh (goodWord member).2
  have others : ∀ statement ∈ statements, new ∉ statement.words :=
    fun statement member isWord => fresh (Statement.occurs_of_words onLines member isWord)
  rw [same]
  generalize exchangeIs : Renaming.of draft table old new = exchange
  obtain ⟨rfl, rfl⟩ : exchange.old = old ∧ exchange.new = new := by
    rw [← exchangeIs]
    exact ⟨rfl, rfl⟩
  have encodedAgain := Recast.addAll_draft (Renaming.suits goodOld good freshNames)
    (fun statement member token isOperand between within =>
      Renaming.reads inDraft goodOld good freshNames
        (fun equal => others statement member
          (equal ▸ Statement.mem_words_of_operands isOperand)) within) encoded
  rw [exchangeIs, Renaming.draft_ofDeclarations,
    ← Renaming.ofStatements_map goodOld good others] at encodedAgain
  have onLinesAgain := Source.statements_respell (Renaming.respells good)
    exchange.recast.ofTokens_tokens onLines
  obtain ⟨outcome, left⟩ := assembler.assemble_of_statements onLinesAgain encodedAgain
  refine ⟨_, rfl, ?_, left⟩
  rw [Renaming.text, outcome, finish_draft, finished]

/-- A label with a global of its name beside it: operands stand for the label, and the global and
the comment keep the name. -/
theorem assemble_renamed_loop :
    ∃ image,
      (empty.assemble (.ofString "byte spin\nspin: jmp spin // spin\n")).outcome = .ok image ∧
      (empty.assemble (.ofString "byte spin\nloop: jmp loop // spin\n")).outcome = .ok image := by
  have ends : (empty.assemble
      (.ofString "byte spin\nspin: jmp spin // spin\n")).outcome.toOption.isSome := by
    decide +kernel
  cases outcome : (empty.assemble (.ofString "byte spin\nspin: jmp spin // spin\n")).outcome with
  | error error =>
      rw [outcome] at ends
      cases ends
  | ok image =>
      have declared : "spin".toList ∈ (empty.assemble
          (.ofString "byte spin\nspin: jmp spin // spin\n")).assembler.names .labels := by
        decide +kernel
      have good : Declarations.isName "loop".toList = true := by decide
      have fresh : ¬ Occurs "loop".toList "byte spin\nspin: jmp spin // spin\n" := by decide +kernel
      have text : (Renaming.of (empty.assemble
          (.ofString "byte spin\nspin: jmp spin // spin\n")).assembler.toDraft .labels
          "spin".toList "loop".toList).text "byte spin\nspin: jmp spin // spin\n" =
            "byte spin\nloop: jmp loop // spin\n" := by
        decide +kernel
      obtain ⟨_, rfl, renamed, -⟩ := empty.assemble_renamed rfl outcome declared good fresh
      rw [text] at renamed
      exact ⟨image, rfl, renamed⟩

end Assembler

end WordMachine
