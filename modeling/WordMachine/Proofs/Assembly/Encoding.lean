import WordMachine.Proofs.Assembly.Matching
import WordMachine.Proofs.Assembly.Reading

/-!
# The second reading

Line after line, the draft comes to match the listing of the statements read, and the
names these statements declare are exactly the names that the first reading found on
the same lines (`addStatement_encodes`). A whole reading therefore ends in a draft that
matches the listing of the source, or with a cause that lies in the source
(`feed_encodes`).
-/

namespace WordMachine.Assembly

/-- The labels that statements declare, with their lines. -/
def Statement.labels (statements : List Statement) : List Label :=
  (statements.zipIdx 1).filterMap fun (statement, line) =>
    statement.declaredLabel?.map fun name => ⟨name, .nth line, none⟩

theorem Statement.labels_append (statements : List Statement) (statement : Statement) :
    labels (statements ++ [statement]) =
      labels statements ++
        (statement.declaredLabel?.map fun name =>
          (⟨name, .nth (statements.length + 1), none⟩ : Label)).toList := by
  rw [labels, labels, List.zipIdx_append, List.filterMap_append, Nat.add_comm 1]
  congr 1

theorem finalSetting_append (setting : String) (default : UInt64) (statements : List Statement)
    (statement : Statement) :
    finalSetting setting default (statements ++ [statement]) =
      (statement.setting? setting).getD (finalSetting setting default statements) := by
  rw [finalSetting, finalSetting, List.filterMap_append]
  cases given : statement.setting? setting with
  | none => simp [given]
  | some value => simp [given]

namespace Draft

variable {found before : Declarations} {listing : Listing} {draft : Draft}

/-- What a statement adds to the tables, the listing and the sizes. -/
structure Advances (found before : Declarations) (listing : Listing) (draft : Draft)
    (statement : Statement) (longer : Listing) (final : Draft) : Prop where
  added : listing.add found.scope statement = some longer
  agreed : final.Matches found (before.addStatement statement) longer
  line : (before.addStatement statement).line = before.line
  labels : (before.addStatement statement).labels.toList =
    before.labels.toList ++
      (statement.declaredLabel?.map fun name => (⟨name, before.line, none⟩ : Label)).toList
  globalTypes : (before.addStatement statement).globalTypes =
    before.globalTypes ++ statement.declaredGlobals
  dataSize : final.dataSize = (statement.setting? "datapagesize").getD draft.dataSize
  stackSize : final.stackSize = (statement.setting? "stacksize").getD draft.stackSize

/-- A statement that declares and sets nothing leaves the tables as they are. -/
theorem Advances.of_code {statement : Statement} {longer : Listing} {final : Draft}
    (noLabel : statement.declaredLabel? = none) (noGlobals : statement.declaredGlobals = [])
    (noSetting : ∀ setting, statement.setting? setting = none)
    (unchanged : before.addStatement statement = before)
    (added : listing.add found.scope statement = some longer)
    (agreed : final.Matches found before longer) (sizes : draft.SameSizes final) :
    Advances found before listing draft statement longer final where
  added
  agreed := by
    rw [unchanged]
    exact agreed
  line := by rw [unchanged]
  labels := by
    rw [unchanged, noLabel]
    exact (List.append_nil _).symm
  globalTypes := by
    rw [unchanged, noGlobals, List.append_nil]
  dataSize := by
    rw [noSetting]
    exact sizes.1
  stackSize := by
    rw [noSetting]
    exact sizes.2

/-- A label on a line is new to the tables. -/
theorem Advances.of_label {name : Token} {rest : List Token} {longer : Listing} {final : Draft}
    (pushed : before.addLabel name = before.pushLabel name)
    (added : listing.add found.scope (.label name rest) = some longer)
    (agreed : final.Matches found (before.addLabel name) longer) (sizes : draft.SameSizes final) :
    Advances found before listing draft (.label name rest) longer final where
  added
  agreed
  line := by
    rw [Declarations.addStatement, pushed]
    rfl
  labels := by
    rw [Declarations.addStatement, pushed, Declarations.pushLabel, Array.toList_push]
    rfl
  globalTypes := by
    rw [Declarations.addStatement, pushed]
    exact (List.append_nil _).symm
  dataSize := sizes.1
  stackSize := sizes.2

theorem addStatement_encodes (agreed : draft.Matches found before listing) (tidy : found.Tidy)
    (statement : Statement) (grown : (before.addStatement statement).Extends found) :
    Ends (addStatement statement) draft
      (fun _ final => ∃ longer, Advances found before listing draft statement longer final)
      (fun cause _ => ¬ cause.Internal) := by
  cases statement with
  | blank =>
      exact ⟨listing, .of_code rfl rfl (fun _ => rfl) rfl rfl agreed ⟨rfl, rfl⟩⟩
  | pragma arguments =>
      apply (pragma_matches agreed arguments).mono
      · intro _ final ended
        rcases ended with ⟨finalAgreed, dataSize, stackSize⟩
        refine ⟨listing, rfl, finalAgreed, rfl, ?_, ?_, dataSize, stackSize⟩
        · exact (List.append_nil _).symm
        · exact (List.append_nil _).symm
      · exact fun cause _ notInternal => notInternal
  | globals type names =>
      apply (declareGlobals_matches agreed tidy grown).mono
      · intro _ final ended
        rcases ended with ⟨finalAgreed, types, sizes⟩
        obtain ⟨line, labels⟩ := Declarations.line_foldl_addGlobal type names before
        refine ⟨listing, rfl, finalAgreed, line, ?_, types, sizes.1, sizes.2⟩
        rw [Declarations.addStatement, labels]
        exact (List.append_nil _).symm
      · exact fun cause _ notInternal => notInternal
  | localVariable arguments =>
      apply (declareLocal_matches agreed arguments).mono
      · intro _ final ended
        rcases ended with ⟨longer, added, finalAgreed, sizes⟩
        exact ⟨longer, .of_code rfl rfl (fun _ => rfl) rfl added finalAgreed sizes⟩
      · exact fun cause _ notInternal => notInternal
  | instruction mnemonic operands =>
      apply (addInstruction_matches agreed mnemonic operands).mono
      · intro _ final ended
        rcases ended with ⟨longer, added, finalAgreed, sizes⟩
        exact ⟨longer, .of_code rfl rfl (fun _ => rfl) rfl added finalAgreed sizes⟩
      · exact fun cause _ notInternal => notInternal
  | label name rest =>
      cases rest with
      | nil =>
          apply (placeLabel_matches agreed tidy grown).mono
          · intro _ final ended
            rcases ended with ⟨finalAgreed, pushed, sizes⟩
            exact ⟨_, .of_label pushed rfl finalAgreed sizes⟩
          · exact fun cause _ notInternal => notInternal
      | cons mnemonic operands =>
          rw [addStatement, ends_bind]
          apply (placeLabel_matches agreed tidy grown).mono
          · intro _ next ended
            rcases ended with ⟨nextAgreed, pushed, sizes⟩
            apply (addInstruction_matches nextAgreed mnemonic operands).mono
            · intro _ final ended
              rcases ended with ⟨longer, added, finalAgreed, moreSizes⟩
              exact ⟨longer, .of_label pushed added finalAgreed (sizes.trans moreSizes)⟩
            · exact fun cause _ notInternal => notInternal
          · exact fun cause _ notInternal => notInternal

/-- What the second reading has come to after lines with these texts. -/
structure Encodes (found : Declarations) (texts : List (List Char))
    (statements : List Statement) (listing : Listing) (draft : Draft) : Prop where
  legible : texts.map Statement.ofText? = statements.map some
  built : statements.foldlM (Listing.add found.scope) .empty = some listing
  agreed : draft.Matches found (.ofTexts texts) listing
  line : (Declarations.ofTexts texts).line = .nth statements.length
  labels : (Declarations.ofTexts texts).labels.toList = Statement.labels statements
  globalTypes : (Declarations.ofTexts texts).globalTypes =
    statements.flatMap Statement.declaredGlobals
  dataSize : draft.dataSize = finalSetting "datapagesize" defaultDataSize statements
  stackSize : draft.stackSize = finalSetting "stacksize" defaultStackSize statements

theorem encodes_nil (tidy : found.Tidy) :
    Encodes found [] [] .empty (ofDeclarations found) where
  legible := rfl
  built := rfl
  agreed :=
    { labels := by
        have unchanged : ∀ label ∈ found.labels.toList,
            { label with address := Listing.empty.placed? label.name } = label := by
          intro label member
          have unplaced := tidy.unplaced label member
          cases label
          cases unplaced
          rfl
        rw [List.map_congr_left unchanged, List.map_id']
        rfl
      globals := by
        have unchanged : ∀ global ∈ found.globals.toList,
            { global with
              declared := decide (global.name ∈ Declarations.globalNames (.ofTexts [])) } =
              global := by
          intro global member
          have undeclared := tidy.undeclared global member
          cases global
          cases undeclared
          rfl
        rw [List.map_congr_left unchanged, List.map_id']
        rfl
      locals := rfl
      frameSize := rfl
      labelNames := rfl
      code := rfl
      fitting := by
        intro global member declared
        rw [tidy.undeclared global (Array.mem_toList_iff.mpr member)] at declared
        cases declared
      sound := by
        intro symbolic member
        cases member
      inReach := by
        intro name member
        cases member }
  line := rfl
  labels := rfl
  globalTypes := rfl
  dataSize := rfl
  stackSize := rfl

theorem addText_eq (text : List Char) :
    addText text =
      match Statement.ofText? text with
      | none => throw .tooManyTokens
      | some statement => addStatement statement := by
  rw [addText, Statement.ofText?]
  cases Line.tokens? text with
  | none => rfl
  | some tokens => rfl

theorem addLine_encodes {texts : List (List Char)} {text : List Char}
    {statements : List Statement} (encoded : Encodes found texts statements listing draft)
    (tidy : found.Tidy) (grown : (Declarations.ofTexts (texts ++ [text])).Extends found) :
    Ends (addLine text) draft
      (fun _ final => ∃ statement longer,
        Encodes found (texts ++ [text]) (statements ++ [statement]) longer final)
      (fun error _ => ¬ error.cause.Internal) := by
  have oneMore : Declarations.ofTexts (texts ++ [text]) =
      (Declarations.ofTexts texts).addLine text := by
    rw [Declarations.ofTexts, List.foldl_append]
    rfl
  simp only [addLine, ends_bind, ends_modify, ends_get, ends_adaptExcept]
  rw [addText_eq]
  rw [Declarations.addLine_eq] at oneMore
  cases spelled : Statement.ofText? text with
  | none => exact fun internal => internal
  | some statement =>
      rw [spelled] at oneMore
      have nextAgreed : Matches found (Declarations.ofTexts texts).nextLine listing
          { draft with line := draft.line + 1 } := { encoded.agreed with }
      rw [oneMore] at grown
      apply (addStatement_encodes nextAgreed tidy statement grown).mono
      · intro _ final ended
        rcases ended with ⟨longer, advanced⟩
        refine ⟨statement, longer, ?_⟩
        constructor
        · rw [List.map_append, List.map_append, encoded.legible, List.map_singleton, spelled]
          rfl
        · rw [List.foldlM_append, encoded.built]
          simp [advanced.added]
        · rw [oneMore]
          exact advanced.agreed
        · rw [oneMore, advanced.line, List.length_append, List.length_singleton,
            Declarations.nextLine, encoded.line, LineNumber.nth_succ]
        · rw [oneMore, advanced.labels, Statement.labels_append, Declarations.nextLine,
            encoded.labels, encoded.line, LineNumber.nth_succ]
        · rw [oneMore, advanced.globalTypes, List.flatMap_append, List.flatMap_singleton,
            ← encoded.globalTypes]
          rfl
        · rw [advanced.dataSize, finalSetting_append, encoded.dataSize]
        · rw [advanced.stackSize, finalSetting_append, encoded.stackSize]
      · exact fun cause _ notInternal => notInternal

/-- Reading a source for its code ends in a draft that matches its listing, or with a
cause that lies in the source. -/
theorem feed_encodes {source rest : Source} {failure : Option Error} {final : Draft}
    (readable : source.Readable) (all : found = .ofTexts source.texts)
    (fed : source.feed addLine (fun failure => ⟨none, .unreadable failure⟩)
      (ofDeclarations found) = (failure, rest, final)) :
    failure.elim (∃ statements listing, Encodes found source.texts statements listing final)
      (fun error => ¬ error.cause.Internal) := by
  have tidy : found.Tidy := by
    rw [all]
    exact Declarations.tidy_ofTexts source.texts
  have start : ∃ statements listing,
      Encodes found [] statements listing (ofDeclarations found) :=
    ⟨[], .empty, encodes_nil tidy⟩
  refine Source.feed_keeps
    (fun texts draft => ∃ statements listing, Encodes found texts statements listing draft)
    (fun error => ¬ error.cause.Internal) (fun _ => id) readable start ?_ fed
  intro done text later state split encodes
  rcases encodes with ⟨statements, listing, encoded⟩
  have grown : (Declarations.ofTexts (done ++ [text])).Extends found := by
    have whole : source.texts = (done ++ [text]) ++ later := by
      rw [split, List.append_assoc]
      rfl
    have folded : found = later.foldl Declarations.addLine (.ofTexts (done ++ [text])) := by
      rw [all, whole]
      exact List.foldl_append
    rw [folded]
    exact Declarations.extends_foldl_addLine _ later
  apply (addLine_encodes encoded tidy grown).mono
  · intro _ final ended
    rcases ended with ⟨statement, longer, finalEncoded⟩
    exact ⟨_, longer, finalEncoded⟩
  · exact fun error _ notInternal => notInternal

end Draft

end WordMachine.Assembly
