import WordMachine.Proofs.Assembly.Assembled

/-!
# The tables an assembler is left with

Both readings classify every line alike. No label that a line declares is missing when
the line is encoded, the linker never meets code it can not decode, and after a source
that assembles the tables hold the declarations of the source, in their order and each
of them once.
-/

namespace WordMachine

namespace Assembly

namespace Source

/-- The names of the labels that a source declares, with the numbers of their lines, which are
exact as far as there are numbers (`LineNumber.toNat_nth`). -/
def declaredLabels (source : Source) : List (Token × LineNumber) :=
  (source.lines.zipIdx 1).filterMap fun (line, count) =>
    ((statement? line).bind Statement.declaredLabel?).map fun name => (name, .nth count)

/-- The names of the globals that a source declares, with their types. -/
def declaredGlobals (source : Source) : List (Token × VariableType) :=
  source.statements.flatMap Statement.declaredGlobals

/-- Line after line, a legible source has its statements. -/
theorem map_statement?_of_legible {lines : List (List UInt8)}
    (legible : ∀ line ∈ lines, (statement? line).isSome) :
    lines.map statement? = (lines.filterMap statement?).map some := by
  induction lines with
  | nil => rfl
  | cons line rest ih =>
      obtain ⟨statement, spelled⟩ := Option.isSome_iff_exists.mp (legible line List.mem_cons_self)
      rw [List.map_cons, List.filterMap_cons, spelled,
        ih fun other later => legible other (List.mem_cons_of_mem _ later)]
      rfl

/-- Lines are numbered like the statements on them. -/
theorem declaredLabels_eq {source : Source} (legible : source.Legible) :
    source.declaredLabels =
      (Statement.labels source.statements).map fun label => (label.name, label.line) := by
  have numbered : source.declaredLabels =
      ((source.lines.map statement?).zipIdx 1).filterMap fun (statement, count) =>
        (statement.bind Statement.declaredLabel?).map fun name => (name, .nth count) := by
    rw [declaredLabels, List.zipIdx_map, List.filterMap_map]
    rfl
  rw [numbered, map_statement?_of_legible legible, ← statements, List.zipIdx_map,
    List.filterMap_map, Statement.labels, List.map_filterMap]
  apply List.filterMap_congr
  intro entry _
  rcases entry with ⟨statement, count⟩
  cases known : statement.declaredLabel? <;> simp [known]

end Source

namespace Draft.Encodes

variable {source : Source} {statements : List Statement} {listing : Listing} {draft : Draft}

theorem labelEntries
    (encoded : Encodes (.ofTexts source.texts) source.texts statements listing draft) :
    draft.labels.toList.map (fun label => (label.name, label.line)) =
      (Statement.labels statements).map fun label => (label.name, label.line) := by
  rw [encoded.agreed.labels, List.map_map, encoded.labels]
  rfl

theorem labels_nodup
    (encoded : Encodes (.ofTexts source.texts) source.texts statements listing draft) :
    (draft.labels.toList.map Label.name).Nodup := by
  rw [encoded.agreed.knows.labels]
  exact (Declarations.tidy_ofTexts source.texts).labelNames

/-- The addresses in the table are those of the listing. -/
theorem addresses
    (encoded : Encodes (.ofTexts source.texts) source.texts statements listing draft) :
    draft.labels.toList.map Label.address =
      (listing.labelNames.map fun name => UInt16.ofNat (listing.address name)).map some := by
  have placed : ∀ name ∈ listing.labelNames,
      listing.placed? name = some (UInt16.ofNat (listing.address name)) :=
    fun name member => if_pos member
  have table : draft.labels.toList.map Label.address =
      (Declarations.ofTexts source.texts).labelNames.map listing.placed? := by
    rw [encoded.agreed.labels, Declarations.labelNames, List.map_map, List.map_map]
    rfl
  rw [table, encoded.labelNames rfl, List.map_congr_left placed, List.map_map]
  rfl

theorem globalEntries
    (encoded : Encodes (.ofTexts source.texts) source.texts statements listing draft) :
    draft.globals.toList.map (fun global => (global.name, global.type)) =
      statements.flatMap Statement.declaredGlobals := by
  rw [← encoded.globalTypes, encoded.agreed.globals, List.map_map]
  rfl

theorem globals_nodup
    (encoded : Encodes (.ofTexts source.texts) source.texts statements listing draft) :
    (draft.globals.toList.map Global.name).Nodup := by
  rw [encoded.agreed.globalNames]
  exact (Declarations.tidy_ofTexts source.texts).globalNames

/-- Every global of the table has been declared on its line. -/
theorem all_declared
    (encoded : Encodes (.ofTexts source.texts) source.texts statements listing draft) :
    ∀ global ∈ draft.globals.toList, global.declared = true := by
  intro global member
  rw [encoded.agreed.globals, List.mem_map] at member
  rcases member with ⟨found, foundMember, rfl⟩
  exact decide_eq_true (List.mem_map_of_mem foundMember)

end Draft.Encodes

/-- The labels of an assembled listing have addresses in the order of their lines. -/
theorem Assembled.addresses_sorted {source : Source} {listing : Listing} {header : Header}
    {image : Image} (assembled : Assembled source listing header image)
    (nodup : listing.labelNames.Nodup) :
    (listing.labelNames.map fun name => UInt16.ofNat (listing.address name)).Pairwise
      fun first second => first ≤ second := by
  rw [List.pairwise_map]
  apply (listing.addresses_sorted nodup).imp_of_mem
  intro first second firstMember secondMember ordered
  rw [UInt16.le_iff_toNat_le, UInt16.toNat_ofNat_of_lt' (assembled.inReach first firstMember),
    UInt16.toNat_ofNat_of_lt' (assembled.inReach second secondMember)]
  exact ordered

end Assembly

open Assembly

namespace Assembler

/-- A source does not fail to assemble for a label that the first reading missed or for
code that can not be decoded. If it assembles, the table of labels has its labels in the
order of their lines, each once, with the number of its line and the address of an
instruction or of the end, no address below an earlier one; and the table of globals has its
globals, each once and accepted when its line was encoded. -/
theorem assemble_tables (assembler : Assembler) {source : Source} (steady : source.Steady) :
    (∀ error, (assembler.assemble source).outcome = .error error →
      error.cause ≠ .unresolvedLabel ∧ ∀ fault, error.cause ≠ .undecodable fault) ∧
    (∀ image, (assembler.assemble source).outcome = .ok image →
      let labels := (assembler.assemble source).assembler.labels.toList
      let globals := (assembler.assemble source).assembler.globals.toList
      labels.map (fun label => (label.name, label.line)) = source.declaredLabels ∧
      (labels.map Label.name).Nodup ∧
      (∃ (addresses : List Word) (decoded : List Fetched),
        labels.map Label.address = addresses.map some ∧
        addresses.Pairwise (fun first second => first ≤ second) ∧
        Fetch.instructions image.size { image with cursor := Header.length } =
          .ok decoded { image with cursor := image.size } ∧
        ∀ address ∈ addresses,
          address.toNat ∈ decoded.map Fetched.offset ∨ address.toNat = image.size) ∧
      globals.map (fun global => (global.name, global.type)) = source.declaredGlobals ∧
      (globals.map Global.name).Nodup ∧
      ∀ global ∈ globals, global.declared = true) := by
  constructor
  · intro error failed
    rcases assembler.assemble_cases steady with ⟨other, outcome, notInternal⟩ | done
    · rw [failed] at outcome
      cases outcome
      constructor
      · intro unresolved
        exact notInternal (by rw [unresolved]; trivial)
      · intro fault undecodable
        exact notInternal (by rw [undecodable]; trivial)
    · rcases done with ⟨image, -, -, -, outcome, -⟩
      rw [failed] at outcome
      cases outcome
  · intro image assembled
    obtain ⟨listing, header, draft, spelled, -, encoded, labels, globals⟩ :=
      assembler.assembled_of_ok steady assembled
    simp only [labels, globals]
    have nodup : listing.labelNames.Nodup := by
      rw [← encoded.labelNames rfl]
      exact (Declarations.tidy_ofTexts source.texts).labelNames
    refine ⟨?_, encoded.labels_nodup,
      ⟨_, _, encoded.addresses, spelled.addresses_sorted nodup, spelled.decodes, ?_⟩,
      encoded.globalEntries, encoded.globals_nodup, encoded.all_declared⟩
    · rw [encoded.labelEntries, Source.declaredLabels_eq spelled.legible]
    · intro address member
      obtain ⟨name, nameMember, rfl⟩ := List.mem_map.mp member
      exact spelled.address_boundary nameMember

/-- Two labels, the second one used before its line, and a label that is used only. -/
theorem assemble_tables_of_two_labels :
    (∃ image, (empty.assemble (.ofString "first: jmp last\nlast:\n")).outcome = .ok image ∧
      ((empty.assemble (.ofString "first: jmp last\nlast:\n")).assembler.labels.toList.map
        fun label => (label.name, label.line)) =
          [("first".toList, 1), ("last".toList, 2)]) ∧
    ∃ error, (empty.assemble (.ofString "jmp nowhere\n")).outcome = .error error ∧
      error.cause ≠ .unresolvedLabel := by
  constructor
  · have declared : (Source.ofString "first: jmp last\nlast:\n").declaredLabels =
        [("first".toList, 1), ("last".toList, 2)] := by
      decide +kernel
    have succeeds :
        (empty.assemble (.ofString "first: jmp last\nlast:\n")).outcome.toOption.isSome := by
      decide +kernel
    cases outcome : (empty.assemble (.ofString "first: jmp last\nlast:\n")).outcome with
    | error error =>
        rw [outcome] at succeeds
        cases succeeds
    | ok image =>
        have tables := (assemble_tables empty (Source.steady_ofString _)).2 image outcome
        exact ⟨image, rfl, tables.1.trans declared⟩
  · have fails :
        (empty.assemble (.ofString "jmp nowhere\n")).outcome.toOption.isNone := by
      decide +kernel
    cases outcome : (empty.assemble (.ofString "jmp nowhere\n")).outcome with
    | error error =>
        have failure := (assemble_tables empty (Source.steady_ofString _)).1 error outcome
        exact ⟨error, rfl, failure.1⟩
    | ok image =>
        rw [outcome] at fails
        cases fails

end Assembler

end WordMachine
