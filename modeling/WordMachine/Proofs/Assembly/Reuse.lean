import WordMachine.Assembler

/-!
# An assembler that is used again

Whatever an assembler went through before, the second reading of a source starts from a draft
that depends on nothing but the names found in the first (`reset_known`). So an attempt comes
to the same on every assembler, with the source at the same place and the same tables left
behind (`assemble_agrees`). Only a first reading that fails leaves the rest of the draft as it
was. The reports of an assembler are those of its failed attempts, one for each, in the order of
the calls (`after_reports`).
-/

namespace WordMachine

open Assembly

/-- Whether two attempts come to the same and leave the source and the tables of names alike. -/
structure Attempt.Agrees (first second : Attempt) : Prop where
  outcome : first.outcome = second.outcome
  source : first.source = second.source
  progress : first.progress = second.progress
  labels : first.assembler.labels = second.assembler.labels
  globals : first.assembler.globals = second.assembler.globals

namespace Assembler

/-- What can be asked of an assembler. -/
inductive Call where
  | assemble (source : Source)
  | prescan (source : Source)

/-- The assembler after a call. -/
def call (assembler : Assembler) : Call → Assembler
  | .assemble source => (assembler.assemble source).assembler
  | .prescan source => (assembler.prescan source).2.2

/-- The assembler after one call after the other. -/
def after (assembler : Assembler) (calls : List Call) : Assembler := calls.foldl call assembler

/-- What is reported of an outcome: the text of an error and its line. -/
def reportsOf : Except Assembly.Error Image → List Report
  | .ok _ => []
  | .error error => [⟨error.message, error.line⟩]

/-- What is reported of a call, if the assembler is a fresh one. -/
def Call.reports : Call → List Report
  | .assemble source => reportsOf (empty.assemble source).outcome
  | .prescan _ => []

/-- An assembler that has found names in a source. -/
def known (assembler : Assembler) (found : Declarations) : Assembler :=
  { assembler with labels := found.labels, globals := found.globals }

variable {assembler first second : Assembler} {source : Source}

@[simp] theorem toDraft_reportError (outcome : Except Assembly.Error Image) :
    (assembler.reportError outcome).toDraft = assembler.toDraft := by
  cases outcome with
  | ok image => rfl
  | error error => rfl

theorem reports_reportError (outcome : Except Assembly.Error Image) :
    (assembler.reportError outcome).diagnostics.reports.toList =
      assembler.diagnostics.reports.toList ++ reportsOf outcome := by
  cases outcome with
  | ok image => exact (List.append_nil _).symm
  | error error => exact Array.toList_push

/-! ## One attempt -/

/-- The draft that the second reading starts from is made of the names found in the first. -/
theorem reset_known (assembler : Assembler) (found : Declarations) :
    (assembler.known found).toDraft.reset = Draft.ofDeclarations found := rfl

-- A source that is turned down leaves a draft that is no new one.
example :
    let used := empty.after [.assemble (.ofString "#pragma stacksize 9\npush 7\nnonsense")]
    used.stackUsed ∧ used.stackSize = 9 ∧ used.line = 3 ∧ used.writer ≠ .empty := by
  decide +kernel

/-- Encoding depends on an assembler through the draft that starts over. -/
theorem encode_agrees (same : first.toDraft.reset = second.toDraft.reset) (source : Source) :
    (first.encode source).Agrees (second.encode source) ∧
      (first.encode source).assembler.toDraft = (second.encode source).assembler.toDraft := by
  rw [encode, encode, same]
  rcases source.feed Draft.addLine (fun failure => ⟨none, .unreadable failure⟩)
    second.toDraft.reset with ⟨failure, rest, draft⟩
  cases failure with
  | some error => exact ⟨⟨rfl, rfl, rfl, rfl, rfl⟩, rfl⟩
  | none =>
      rcases finished : finish draft with ⟨outcome, stages⟩
      simp only [finished]
      constructor
      · constructor <;> simp only [toDraft_reportError]
      · simp only [toDraft_reportError]

theorem encode_reports (assembler : Assembler) (source : Source) :
    (assembler.encode source).assembler.diagnostics.reports.toList =
      assembler.diagnostics.reports.toList ++ reportsOf (assembler.encode source).outcome := by
  rw [encode]
  rcases source.feed Draft.addLine (fun failure => ⟨none, .unreadable failure⟩)
    assembler.toDraft.reset with ⟨failure, rest, draft⟩
  cases failure with
  | some error => exact reports_reportError (.error error)
  | none =>
      rcases finished : finish draft with ⟨outcome, stages⟩
      simp only [finished]
      exact reports_reportError outcome

/-- An attempt whose first reading fails comes to that failure, and fills the tables of names
as far as it went. -/
theorem assemble_of_failure {failure : ReadFailure} {rest : Source} {found : Declarations}
    (scanned : Declarations.scan source = (some failure, rest, found)) (assembler : Assembler) :
    assembler.assemble source =
      { outcome := .error ⟨none, .unreadable failure⟩
        assembler := (assembler.known found).reportError (.error ⟨none, .unreadable failure⟩)
        source := rest
        progress := [] } := by
  rw [assemble, prescan, scanned]
  rfl

/-- An attempt whose first reading comes to the end goes on with the names found. -/
theorem assemble_of_scanned {rest : Source} {found : Declarations}
    (scanned : Declarations.scan source = (none, rest, found)) (assembler : Assembler) :
    assembler.assemble source =
      { (assembler.known found).encode rest with
        progress := .scanned found.labels.size found.globals.size ::
          ((assembler.known found).encode rest).progress } := by
  rw [assemble, prescan, scanned]
  rfl

/-- An attempt comes to the same on every assembler, and leaves the same locals unless the
first reading fails. -/
theorem assemble_agrees (first second : Assembler) (source : Source) :
    (first.assemble source).Agrees (second.assemble source) ∧
      match (Declarations.scan source).1 with
      | none => (first.assemble source).assembler.locals = (second.assemble source).assembler.locals
      | some _ => (first.assemble source).assembler.locals = first.locals := by
  rcases scanned : Declarations.scan source with ⟨failure, rest, found⟩
  cases failure with
  | some failure =>
      rw [assemble_of_failure scanned, assemble_of_failure scanned]
      exact ⟨⟨rfl, rfl, rfl, rfl, rfl⟩, rfl⟩
  | none =>
      rw [assemble_of_scanned scanned, assemble_of_scanned scanned]
      have start : (first.known found).toDraft.reset = (second.known found).toDraft.reset := by
        rw [reset_known, reset_known]
      obtain ⟨agrees, draft⟩ := encode_agrees start rest
      exact ⟨⟨agrees.outcome, agrees.source, congrArg (List.cons _) agrees.progress,
        agrees.labels, agrees.globals⟩, congrArg Draft.locals draft⟩

/-- An attempt that fails is reported once, and one that does not is not reported. -/
theorem assemble_reports (assembler : Assembler) (source : Source) :
    (assembler.assemble source).assembler.diagnostics.reports.toList =
      assembler.diagnostics.reports.toList ++ reportsOf (assembler.assemble source).outcome := by
  rcases scanned : Declarations.scan source with ⟨failure, rest, found⟩
  cases failure with
  | some failure =>
      rw [assemble_of_failure scanned]
      exact reports_reportError _
  | none =>
      rw [assemble_of_scanned scanned]
      exact encode_reports (assembler.known found) rest

/-! ## Many calls -/

theorem call_reports (assembler : Assembler) (made : Call) :
    (assembler.call made).diagnostics.reports.toList =
      assembler.diagnostics.reports.toList ++ made.reports := by
  cases made with
  | assemble source =>
      rw [call, assemble_reports, Call.reports, (assemble_agrees assembler empty source).1.outcome]
  | prescan source => exact (List.append_nil _).symm

/-- The reports of an assembler are those of the calls, each as if it were the only one. -/
theorem after_reports (assembler : Assembler) (calls : List Call) :
    (assembler.after calls).diagnostics.reports.toList =
      assembler.diagnostics.reports.toList ++ calls.flatMap Call.reports := by
  induction calls generalizing assembler with
  | nil => exact (List.append_nil _).symm
  | cons made calls ih =>
      rw [after, List.foldl_cons, ← after, ih, call_reports, List.flatMap_cons, List.append_assoc]

/-- Nothing that an assembler was used for before shows in what it makes of a source: neither in
the outcome, nor in where the source stands, nor in the tables, nor in what is reported. The
locals alone stay as they were if the first reading of the source fails. -/
theorem reuse_leaks_nothing (calls : List Call) (source : Source) :
    let used := empty.after calls
    let again := used.assemble source
    let fresh := empty.assemble source
    again.outcome = fresh.outcome ∧ again.source = fresh.source ∧
    again.assembler.labels = fresh.assembler.labels ∧
    again.assembler.globals = fresh.assembler.globals ∧
    (match (used.prescan source).1 with
      | none => again.assembler.locals = fresh.assembler.locals
      | some _ => again.assembler.locals = used.locals) ∧
    again.assembler.diagnostics.reports.toList =
      used.diagnostics.reports.toList ++ reportsOf again.outcome ∧
    used.diagnostics.reports.toList = calls.flatMap Call.reports := by
  intro used again fresh
  obtain ⟨agrees, locals⟩ := assemble_agrees used empty source
  exact ⟨agrees.outcome, agrees.source, agrees.labels, agrees.globals, locals,
    assemble_reports used source, after_reports empty calls⟩

end Assembler

end WordMachine
