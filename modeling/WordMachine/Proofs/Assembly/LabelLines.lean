import Mathlib.Data.List.Nodup
import WordMachine.Proofs.Assembly.Recasting
import WordMachine.Proofs.Assembly.Respelling

/-!
# Texts of labels

A text may declare labels and do nothing else (`labelLines`). If the names are good and told apart
it assembles (`Assembler.spells_labelLines`), whatever their number, and there are more such names
than words (`numberedNames`).
-/

namespace WordMachine

namespace Assembly

/-- A text that declares labels, each on a line of its own. -/
def labelLines (names : List Name) : String :=
  String.ofList (names.map (· ++ [':', '\n'])).flatten

variable {names : List Name}

/-! ## Lines -/

theorem Line.tokens_of_plain {word : List Char} (nonempty : word ≠ [])
    (plain : ∀ char ∈ word, Plain char) : tokens word = [word] := by
  have bare := (Alike.of_plain nonempty plain : Alike ['_'] word).bare [] [] (.singleton _)
  have whole : withoutComment word = word := by
    have cut := withoutComment_append (Or.inl rfl) bare
    rwa [List.append_nil] at cut
  have noSeparator : ∀ char ∈ word, isSeparator char = false :=
    fun char member => (plain char member).not_isSeparator
  rw [tokens, whole, List.splitOnP_eq_singleton noSeparator]
  exact List.filter_cons_of_pos (by
    rw [Bool.not_eq_true', List.isEmpty_eq_false_iff]
    exact nonempty)

theorem Source.statement?_label {name : Name} (good : Declarations.isName name = true) :
    statement? (Line.bytes (name ++ [':', '\n'])) = some (.label name []) := by
  have content : Line.content (name ++ [':'] ++ ['\n']) = name ++ [':'] :=
    Line.content_newline (by rw [List.getLast?_concat]; decide)
  rw [List.append_assoc, List.singleton_append] at content
  have plain : ∀ char ∈ name ++ [':'], Plain char := by
    intro char member
    rcases List.mem_append.mp member with inName | colon
    · exact (plain_of_isName good).2 char inName
    · exact Or.inr (Or.inr (List.mem_singleton.mp colon))
  have tokens : Line.tokens (name ++ [':']) = [name ++ [':']] :=
    Line.tokens_of_plain (by simp) plain
  rw [statement?_bytes, content, Statement.ofText?, Line.tokens?]
  have few : [name ++ [':']].length ≤ Token.maxPerLine := by
    rw [List.length_singleton]
    decide
  simp only [tokens, if_pos few, Option.map_some, Statement.ofTokens, Recast.labelName?_concat]

/-- The lines of labels have the labels as their statements. -/
theorem Source.statements_labelLines (good : ∀ name ∈ names, Declarations.isName name = true) :
    (ofString (labelLines names)).lines.map statement? =
      (names.map fun name => Statement.label name []).map some := by
  have ended (name : Name) : (name ++ [':', '\n']).getLast? = some '\n' := by
    rw [List.getLast?_append]
    rfl
  have lined : CutBehind '\n' (names.map (· ++ [':', '\n'])) := by
    refine ⟨?_, ?_, List.Pairwise.isChain ?_⟩
    · simp
    · rw [List.forall_mem_map]
      intro name member newline
      rw [List.dropLast_append_of_ne_nil (List.cons_ne_nil _ _)] at newline
      rcases List.mem_append.mp newline with inName | colon
      · exact not_plain_of_mem (by decide) ((plain_of_isName (good name member)).2 _ inName)
      · exact absurd colon (by decide)
    · exact List.pairwise_map.mpr (List.pairwise_of_forall fun name _ => ended name)
  rw [labelLines, lines_ofLines lined, List.map_map, List.map_map, List.map_map]
  exact List.map_congr_left fun name member => statement?_label (good name member)

theorem labelLines_ended (names : List Name) :
    (labelLines names).toList = [] ∨ (labelLines names).toList.getLast? = some '\n' := by
  rw [labelLines, String.toList_ofList]
  rcases List.eq_nil_or_concat names with rfl | ⟨front, last, rfl⟩
  · exact Or.inl rfl
  · right
    rw [List.concat_eq_append, List.map_append, List.flatten_append, List.map_singleton,
      List.flatten_singleton, List.getLast?_append, List.getLast?_append]
    rfl

/-! ## Drafts -/

/-- Labels with good names that are told apart are all declared. -/
theorem Declarations.labelNames_labels (good : ∀ name ∈ names, isName name = true)
    (apart : names.Nodup) :
    (ofStatements (names.map fun name => .label name [])).labelNames = names := by
  induction names using List.reverseRecOn with
  | nil => rfl
  | append_singleton front last ih =>
      rw [List.nodup_append_comm, List.singleton_append, List.nodup_cons] at apart
      have before := ih (fun name member => good name (List.mem_append_left _ member)) apart.2
      have goodLast := good last (List.mem_append_right _ (List.mem_singleton_self last))
      have fresh :
          last ∉ (ofStatements (front.map fun name => .label name [])).nextLine.labelNames :=
        fun old => apart.1 (before ▸ old)
      rw [List.map_append, List.map_singleton, ofStatements_concat, addStatement,
        addLabel_of_fresh goodLast fresh, labelNames_pushLabel]
      exact congrArg (· ++ [last]) before

namespace Draft

variable {draft : Draft}

/-- Labels that have not been placed can be placed one after the other. -/
theorem addAll_labels (good : ∀ name ∈ names, Declarations.isName name = true)
    (apart : names.Nodup) (room : draft.writer.size < Writer.maxImageSize)
    (unplaced : ∀ name ∈ names, ∃ index, draft.labelNames.idxOf? name = some index ∧
      draft.labels[index]?.bind Label.address = none) :
    ∃ final, addAll (names.map fun name => .label name []) draft = .ok () final ∧
      final.writer = draft.writer := by
  induction names generalizing draft with
  | nil => exact ⟨draft, rfl, rfl⟩
  | cons name rest ih =>
      rw [List.forall_mem_cons] at good unplaced
      rw [List.nodup_cons] at apart
      obtain ⟨index, found, unset⟩ := unplaced.1
      obtain ⟨next, placed, labels, writer⟩ : ∃ next,
          addNext (.label name []) draft = .ok () next ∧
          (next.labels = draft.labels.modify index fun label =>
            { label with address := some (UInt16.ofNat draft.writer.size) }) ∧
          next.writer = draft.writer := by
        rw [addNext_eq]
        exact ⟨_, placeLabel_eq_ok_iff.mpr ⟨good.1, UInt16.ofNat draft.writer.size, index,
          if_pos room, (findLabel?_eq_idxOf? _ _).trans found, unset, rfl⟩, rfl, rfl⟩
      have names := (within_of_addNext placed).labels
      obtain ⟨final, encoded, finalWriter⟩ := ih good.2 apart.2 (writer ▸ room) (by
        intro other member
        obtain ⟨place, here, alsoUnset⟩ := unplaced.2 other member
        refine ⟨place, names ▸ here, ?_⟩
        have elsewhere : index ≠ place := by
          rintro rfl
          obtain ⟨_, isName, -⟩ := List.idxOf?_eq_some_iff.mp found
          obtain ⟨_, isOther, -⟩ := List.idxOf?_eq_some_iff.mp here
          exact apart.1 (isName.symm.trans isOther ▸ member)
        rwa [labels, Array.getElem?_modify, if_neg elsewhere])
      exact ⟨final, addAll_cons_iff.mpr ⟨next, placed, encoded⟩, finalWriter.trans writer⟩

end Draft

/-! ## Names without end -/

/-- The letters, lower case first. -/
def letters : List Char := "abcdefghijklmnopqrstuvwxyzABCDEFGHIJKLMNOPQRSTUVWXYZ".toList

/-- The name of three letters that a number has, the last digit first. -/
def numberedName (number : Nat) : Name :=
  [number % 52, number / 52 % 52, number / 2704 % 52].map fun digit => letters.getD digit '_'

/-- The first so many names of three letters. -/
def numberedNames (count : Nat) : List Name := (List.range count).map numberedName

theorem isAlpha_of_letters : ∀ digit < 52, (letters.getD digit '_').isAlpha = true := by
  decide +kernel

theorem letters_apart :
    ∀ first < 52, ∀ second < 52, letters.getD first '_' = letters.getD second '_' →
      first = second := by
  decide +kernel

/-- Three letters are a good name: keywords are longer, and so are registers. -/
theorem isName_of_three {first second third : Char} (letter : first.isAlpha = true)
    (others : second.isAlpha = true ∧ third.isAlpha = true) :
    Declarations.isName [first, second, third] = true := by
  have spellsNone (word : String) (longer : word.toList.length ≠ 3) :
      Token.spells [first, second, third] word = false := by
    rw [Token.spells, beq_eq_false_iff_ne]
    exact fun same => longer (congrArg List.length same).symm
  have noKeyword : VariableType.ofKeyword? [first, second, third] = none := by
    simp [VariableType.ofKeyword?, spellsNone]
  have noRegister : Name.isRegister [first, second, third] = false := by
    simp [Name.isRegister]
  have isChar {char : Char} (letter : char.isAlpha = true) : char.isAlphanum = true := by
    rw [Char.isAlphanum, letter, Bool.true_or]
  have short : Name.Fits [first, second, third] := by
    change 3 ≤ 32
    decide
  simp [Declarations.isName, Name.isIdentifier, Name.isWord, noKeyword, noRegister, short, letter,
    isChar letter, isChar others.1, isChar others.2]

theorem isName_of_numberedNames {count : Nat} {name : Name} (member : name ∈ numberedNames count) :
    Declarations.isName name = true := by
  have letter (digit : Nat) : (letters.getD (digit % 52) '_').isAlpha = true :=
    isAlpha_of_letters _ (Nat.mod_lt _ (by decide))
  obtain ⟨number, -, rfl⟩ := List.mem_map.mp member
  exact isName_of_three (letter number) ⟨letter (number / 52), letter (number / 2704)⟩

theorem nodup_numberedNames {count : Nat} (small : count ≤ 52 ^ 3) :
    (numberedNames count).Nodup := by
  refine List.nodup_range.map_on ?_
  intro first firstMember second secondMember same
  rw [List.mem_range] at firstMember secondMember
  simp only [numberedName, List.map_cons, List.map_nil, List.cons.injEq, and_true] at same
  have digits (front back : Nat)
      (equal : letters.getD (front % 52) '_' = letters.getD (back % 52) '_') :
      front % 52 = back % 52 :=
    letters_apart _ (Nat.mod_lt _ (by decide)) _ (Nat.mod_lt _ (by decide)) equal
  have low := digits _ _ same.1
  have middle := digits _ _ same.2.1
  have high := digits _ _ same.2.2
  omega

end Assembly

open Assembly

namespace Assembler

variable {names : List Name}

/-- A text of labels with good names that are told apart assembles to an image without code. -/
theorem spells_labelLines (assembler : Assembler)
    (good : ∀ name ∈ names, Declarations.isName name = true) (apart : names.Nodup) :
    ∃ draft listing header image,
      (assembler.assemble (.ofString (labelLines names))).outcome = .ok image ∧
      assembler.Spells (labelLines names) (names.map fun name => .label name []) draft listing
        header image ∧
      draft.labelNames = names ∧ image.size = Header.length := by
  have onLines := Source.statements_labelLines good
  have declared := Declarations.labelNames_labels good apart
  have tidy := Declarations.tidy_ofTexts (Source.ofString (labelLines names)).texts
  rw [Source.texts, Declarations.ofTexts_eq_ofStatements (Source.map_ofText? onLines)] at tidy
  have room : Writer.size .empty < Writer.maxImageSize := by decide
  obtain ⟨draft, encoded, writer⟩ : ∃ draft,
      Draft.addAll (names.map fun name => .label name [])
        (.ofDeclarations (.ofStatements (names.map fun name => .label name []))) = .ok () draft ∧
      draft.writer = .empty := by
    refine Draft.addAll_labels good apart room ?_
    intro name member
    rw [← declared] at member
    obtain ⟨index, found⟩ := Option.isSome_iff_exists.mp (List.isSome_idxOf?.mpr member)
    refine ⟨index, found, ?_⟩
    rw [Draft.ofDeclarations, ← Array.getElem?_toList, Option.bind_eq_none_iff]
    exact fun label here => tidy.unplaced label (List.mem_of_getElem? here)
  obtain ⟨listing, header, image, assembled, spelled⟩ :=
    assembler.spells_of_statements onLines encoded (by
      rw [writer]
      exact Nat.le_of_lt room)
  refine ⟨draft, listing, header, image, assembled, spelled, ?_, ?_⟩
  · rw [← (Draft.within_of_addAll encoded).labels]
    exact declared
  · rw [spelled.assembled.size, ← spelled.codeSize, writer]
    rfl

end Assembler

end WordMachine
