import WordMachine.Diagnostics
import WordMachine.Assembly.Draft

/-!
# The assembler

Source text is read twice: once for the names it declares, once for its code. The
code is then linked, and the result is an executable image. An assembler keeps the draft of
its last source, as far as that went, and collects the reports of all its failures.
-/

namespace WordMachine

open Assembly

/-- An assembler between two sources, with what is left of the draft of the last one. -/
structure Assembler extends Draft where
  diagnostics : Diagnostics
  deriving DecidableEq, Repr

/-- A stage of assembling that was passed, or a line that was passed over. -/
inductive Progress where
  | scanned (labels globals : Nat)
  | ignored (pragma : IgnoredPragma)
  | encoded (instructions : Nat)
  | linked (size : Nat)
  deriving DecidableEq, Repr

/-- Everything that assembling a source leaves behind. -/
structure Attempt where
  outcome : Except Assembly.Error Image
  assembler : Assembler
  source : Source
  progress : List Progress

namespace Assembler

def empty : Assembler := { Draft.ofDeclarations .empty with diagnostics := .empty }

/-- Collects the names that a source declares and puts the source back. -/
def prescan (assembler : Assembler) (source : Source) :
    Option ReadFailure × Source × Assembler :=
  let (failure, source, found) := Declarations.scan source
  (failure, source, { assembler with labels := found.labels, globals := found.globals })

/-- The image of a draft whose source was read to the end, and the stages passed. -/
def finish (draft : Draft) : Except Assembly.Error Image × List Progress :=
  let encoded := Progress.encoded draft.instructionLines.size
  match draft.writer.finish draft.dataSize draft.stackSize with
  | .error error => (.error ⟨none, .imageTooLarge error⟩, [encoded])
  | .ok image =>
    match draft.link image with
    | .error error => (.error error, [encoded])
    | .ok image => (.ok image, [encoded, .linked image.size])

/-- Reports an error; success is not reported. -/
def reportError (assembler : Assembler) (outcome : Except Assembly.Error Image) : Assembler :=
  match outcome with
  | .ok _ => assembler
  | .error error =>
    { assembler with diagnostics := assembler.diagnostics.report error.message error.line }

/-- Encodes a source whose declarations are known. The code is taken out of the draft once it
is complete. -/
def encode (assembler : Assembler) (source : Source) : Attempt :=
  let (failure, source, draft) :=
    source.feed Draft.addLine (fun failure => ⟨none, .unreadable failure⟩)
      assembler.toDraft.reset
  let ignored := draft.ignoredPragmas.toList.map Progress.ignored
  match failure with
  | some error =>
    let assembler := { assembler with toDraft := draft }
    { outcome := .error error
      assembler := assembler.reportError (.error error)
      source
      progress := ignored }
  | none =>
    let (outcome, stages) := finish draft
    let assembler := { assembler with toDraft := { draft with writer := .empty } }
    { outcome, assembler := assembler.reportError outcome, source, progress := ignored ++ stages }

/-- Assembles what is left of a source. -/
def assemble (assembler : Assembler) (source : Source) : Attempt :=
  match assembler.prescan source with
  | (some failure, source, assembler) =>
    let outcome := .error ⟨none, .unreadable failure⟩
    { outcome, assembler := assembler.reportError outcome, source, progress := [] }
  | (none, source, assembler) =>
    let attempt := assembler.encode source
    let scanned := Progress.scanned assembler.labels.size assembler.globals.size
    { attempt with progress := scanned :: attempt.progress }

end Assembler

end WordMachine
