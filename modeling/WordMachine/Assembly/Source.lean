import WordMachine.Assembly.Error
import WordMachine.Assembly.Token

/-!
# Sources

A source is read twice, so it has to say where it stands and to be put back there.
Either may fail, and so may each reading, at any byte. A file may have been revised by the
time it is put back: the second reading then finds other text than the first.
-/

namespace WordMachine.Assembly

/-- Text with a position to read on from. -/
structure Source where
  content : List UInt8
  position : Nat
  /-- The content found when the source is put back, if it is another. -/
  revised : Option (List UInt8)
  /-- Why the position can not be told, if it can not. -/
  tellFailure : Option ReadFailure
  /-- Why the source can not be put back, if it can not. -/
  seekFailure : Option ReadFailure
  /-- Why nothing behind the content can be read, if the source does not end there. -/
  readFailure : Option ReadFailure := none
  /-- The same of the second reading. -/
  lateFailure : Option ReadFailure := none
  deriving DecidableEq, Repr

namespace Source

/-- Bytes that stay as they are, read from a position on. -/
def ofBytes (content : List UInt8) (position : Nat) : Source :=
  { content, position, revised := none, tellFailure := none, seekFailure := none }

/-- A text, read from its start. -/
def ofString (text : String) : Source := ofBytes text.toUTF8.data.toList 0

/-- The position to read on from. -/
def tell (source : Source) : Except ReadFailure Nat :=
  match source.tellFailure with
  | some failure => .error failure
  | none => .ok source.position

/-- Puts the source back. -/
def rewind (source : Source) (position : Nat) : Except ReadFailure Source :=
  match source.seekFailure with
  | some failure => .error failure
  | none =>
    .ok { source with
      position
      content := source.revised.getD source.content
      revised := none
      readFailure := source.lateFailure }

/-- The lines still to be read, with their endings. -/
def lines (source : Source) : List (List UInt8) :=
  Line.split (source.content.drop source.position)

/-- Gives the text of each line to `step`, until one is unreadable or `step` turns
it down. The answer has the failure, the position behind the last line given, and
the last state. -/
def feedLines {ε σ : Type} (step : List Char → EStateM ε σ Unit) (unreadable : ε) :
    List (List UInt8) → (position : Nat) → σ → Option ε × Nat × σ
  | [], position, state => (none, position, state)
  | line :: rest, position, state =>
    let position := position + line.length
    match Line.text? line with
    | none => (some unreadable, position, state)
    | some text =>
      match step text state with
      | .ok () state => feedLines step unreadable rest position state
      | .error error state => (some error, position, state)

/-- The lines with their newline. Where reading breaks off, the bytes behind them are taken
from the source and no line comes of them. -/
def wholeLines (source : Source) : List (List UInt8) :=
  source.lines.takeWhile fun line => line.getLast? = some Line.newline

/-- Reads the source to its end, or to where reading fails or `step` turns a line down. -/
def feed {ε σ : Type} (source : Source) (step : List Char → EStateM ε σ Unit)
    (unreadable : ReadFailure → ε) (state : σ) : Option ε × Source × σ :=
  match source.readFailure with
  | none =>
    let (failure, position, state) :=
      feedLines step (unreadable .invalidData) source.lines source.position state
    (failure, { source with position }, state)
  | some failure =>
    match feedLines step (unreadable .invalidData) source.wholeLines source.position state with
    | (some error, position, state) => (some error, { source with position }, state)
    | (none, _, state) =>
      let position := max source.position source.content.length
      (some (unreadable failure), { source with position }, state)

end Source

end WordMachine.Assembly
