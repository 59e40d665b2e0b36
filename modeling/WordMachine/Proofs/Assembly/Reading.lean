import WordMachine.Assembler
import WordMachine.Proofs.Assembly.Tables

/-!
# Two readings of one source

The first reading of a source fails only where the source itself does, and what it
declares is a fold over the texts of the lines (`scan_of_none`). The second reading of
a steady source sees the same texts, so a property that every added line keeps holds
of the draft in the end, or the line that was turned down says why
(`feedLines_keeps`).
-/

namespace WordMachine.Assembly

namespace Source

/-- The texts of the lines that are text. -/
def texts (source : Source) : List (List Char) := source.lines.filterMap Line.text?

/-- Whether every line is text. -/
def Readable (source : Source) : Prop := ∀ line ∈ source.lines, (Line.text? line).isSome

section

variable {ε σ : Type} {unreadable : ε} {lines : List (List UInt8)} {position : Nat}

/-- A step that turns nothing down is folded over the texts of all lines. -/
theorem feedLines_of_none {step : σ → List Char → σ} {state final : σ} {finalPosition : Nat}
    (readToEnd : feedLines (fun text => modify fun state => step state text) unreadable lines
      position state = (none, finalPosition, final)) :
    (∀ line ∈ lines, (Line.text? line).isSome) ∧
      final = (lines.filterMap Line.text?).foldl step state := by
  induction lines generalizing position state with
  | nil =>
      cases readToEnd
      exact ⟨fun line member => (List.not_mem_nil member).elim, rfl⟩
  | cons line rest ih =>
      rw [feedLines] at readToEnd
      cases text : Line.text? line with
      | none =>
          rw [text] at readToEnd
          cases readToEnd
      | some content =>
          rw [text] at readToEnd
          obtain ⟨readable, folded⟩ := ih readToEnd
          constructor
          · intro other member
            rcases List.mem_cons.mp member with rfl | later
            · rw [text]
              rfl
            · exact readable other later
          · rw [List.filterMap_cons, text, folded]
            rfl

/-- What every step keeps, from the texts before to the texts with one more, holds in
the end of all texts; a failure is that of a step. -/
theorem feedLines_keeps (keeps : List (List Char) → σ → Prop) (bad : ε → Prop)
    {step : List Char → EStateM ε σ Unit} {state final : σ} {before : List (List Char)}
    {failure : Option ε} {finalPosition : Nat}
    (readable : ∀ line ∈ lines, (Line.text? line).isSome)
    (kept : keeps before state)
    (oneStep : ∀ done text rest state,
      before ++ lines.filterMap Line.text? = done ++ text :: rest → keeps done state →
      Ends (step text) state (fun _ final => keeps (done ++ [text]) final)
        (fun error _ => bad error))
    (fed : feedLines step unreadable lines position state = (failure, finalPosition, final)) :
    failure.elim (keeps (before ++ lines.filterMap Line.text?) final) bad := by
  induction lines generalizing before position state with
  | nil =>
      cases fed
      rw [List.filterMap_nil, List.append_nil]
      exact kept
  | cons line rest ih =>
      obtain ⟨text, isText⟩ := Option.isSome_iff_exists.mp (readable line List.mem_cons_self)
      have texts : before ++ (line :: rest).filterMap Line.text? =
          before ++ [text] ++ rest.filterMap Line.text? := by
        rw [List.filterMap_cons, isText, List.append_assoc]
        rfl
      have here := oneStep before text (rest.filterMap Line.text?) state
        (by rw [texts, List.append_assoc]; rfl) kept
      rw [feedLines, isText] at fed
      rw [texts] at oneStep ⊢
      cases outcome : step text state with
      | ok value next =>
          simp only [outcome] at fed
          exact ih (fun other later => readable other (List.mem_cons_of_mem _ later))
            (here.of_ok outcome) oneStep fed
      | error error next =>
          simp only [outcome] at fed
          cases fed
          exact here.of_error outcome

/-- Behind lines that are not turned down, reading goes on from what they come to. -/
theorem feedLines_append {step : List Char → EStateM ε σ Unit} {state middle : σ}
    {front : List (List UInt8)} {behind : Nat}
    (accepted : feedLines step unreadable front position state = (none, behind, middle))
    (rest : List (List UInt8)) :
    feedLines step unreadable (front ++ rest) position state =
      feedLines step unreadable rest behind middle := by
  induction front generalizing position state with
  | nil =>
      cases accepted
      rfl
  | cons line front ih =>
      rw [List.cons_append, feedLines]
      rw [feedLines] at accepted
      cases isText : Line.text? line with
      | none =>
          rw [isText] at accepted
          cases accepted
      | some text =>
          rw [isText] at accepted
          cases outcome : step text state with
          | error error next =>
              simp only [outcome] at accepted
              cases accepted
          | ok value next =>
              simp only [outcome] at accepted ⊢
              exact ih accepted

/-- A whole source that is read to its end gives all its lines. -/
theorem feed_of_none {source rest : Source} {unreadable : ReadFailure → ε}
    {step : σ → List Char → σ} {state final : σ}
    (fed : source.feed (fun text => modify fun state => step state text) unreadable state =
      (none, rest, final)) :
    source.Readable ∧ final = source.texts.foldl step state ∧
      ∃ position, rest = { source with position } := by
  rw [feed] at fed
  cases breaksOff : source.readFailure with
  | some failure =>
      rw [breaksOff] at fed
      simp only at fed
      split at fed
      · cases fed
      · cases fed
  | none =>
      rw [breaksOff] at fed
      rcases outcome : feedLines (fun text => modify fun state => step state text)
        (unreadable .invalidData) source.lines source.position state with ⟨failure, position, last⟩
      simp only [outcome] at fed
      cases fed
      obtain ⟨readable, folded⟩ := feedLines_of_none outcome
      exact ⟨readable, folded, position, rfl⟩

/-- The lines of a source that come to be read. -/
def delivered (source : Source) : List (List UInt8) :=
  if source.readFailure.isNone then source.lines else source.wholeLines

/-- A source that is read without a failure has all its lines read. -/
theorem feedLines_of_feed {source rest : Source} {unreadable : ReadFailure → ε}
    {step : List Char → EStateM ε σ Unit} {state final : σ}
    (fed : source.feed step unreadable state = (none, rest, final)) :
    source.delivered = source.lines ∧ ∃ position,
      feedLines step (unreadable .invalidData) source.lines source.position state =
        (none, position, final) := by
  rw [feed] at fed
  rw [delivered]
  cases breaksOff : source.readFailure with
  | none =>
      rw [breaksOff] at fed
      rcases outcome : feedLines step (unreadable .invalidData) source.lines source.position state
        with ⟨failure, position, last⟩
      simp only [outcome] at fed
      cases fed
      exact ⟨rfl, position, rfl⟩
  | some failure =>
      rw [breaksOff] at fed
      simp only at fed
      split at fed
      · cases fed
      · cases fed

/-- A source that does not break off is read to its end if no line is turned down. -/
theorem feed_of_feedLines {source : Source} {unreadable : ReadFailure → ε}
    {step : List Char → EStateM ε σ Unit} {state final : σ} (whole : source.readFailure = none)
    (accepted : feedLines step (unreadable .invalidData) source.lines source.position state =
      (none, position, final)) :
    source.feed step unreadable state = (none, { source with position }, final) := by
  rw [feed, whole]
  simp only [accepted]

/-- A line that is turned down ends the reading of a source. -/
theorem feed_of_turnedDown {source : Source} {unreadable : ReadFailure → ε}
    {step : List Char → EStateM ε σ Unit} {state middle final : σ} {error : ε}
    {before after : List (List UInt8)} {line : List UInt8} {text : List Char} {behind : Nat}
    (split : source.delivered = before ++ line :: after)
    (accepted : feedLines step (unreadable .invalidData) before source.position state =
      (none, behind, middle))
    (isText : Line.text? line = some text) (turnedDown : step text middle = .error error final) :
    (source.feed step unreadable state).1 = some error := by
  have here : feedLines step (unreadable .invalidData) source.delivered source.position state =
      (some error, behind + line.length, final) := by
    rw [split, feedLines_append accepted, feedLines, isText]
    simp only [turnedDown]
  rw [delivered] at here
  rw [feed]
  cases breaksOff : source.readFailure with
  | none =>
      rw [breaksOff, Option.isNone_none, if_pos rfl] at here
      simp only [here]
  | some failure =>
      rw [breaksOff, Option.isNone_some, if_neg Bool.false_ne_true] at here
      simp only [here]

/-- The same for a whole source. -/
theorem feed_keeps (keeps : List (List Char) → σ → Prop) (bad : ε → Prop)
    {source rest : Source} {unreadable : ReadFailure → ε} {step : List Char → EStateM ε σ Unit}
    {state final : σ} {failure : Option ε} (badSource : ∀ failure, bad (unreadable failure))
    (readable : source.Readable) (kept : keeps [] state)
    (oneStep : ∀ done text rest state,
      source.texts = done ++ text :: rest → keeps done state →
      Ends (step text) state (fun _ final => keeps (done ++ [text]) final)
        (fun error _ => bad error))
    (fed : source.feed step unreadable state = (failure, rest, final)) :
    failure.elim (keeps source.texts final) bad := by
  rw [feed] at fed
  cases breaksOff : source.readFailure with
  | none =>
      rw [breaksOff] at fed
      rcases outcome : feedLines step (unreadable .invalidData) source.lines source.position state
        with ⟨failure', position, final'⟩
      simp only [outcome] at fed
      cases fed
      exact feedLines_keeps keeps bad readable kept oneStep outcome
  | some cause =>
      rw [breaksOff] at fed
      rcases outcome : feedLines step (unreadable .invalidData) source.wholeLines source.position
        state with ⟨failure', position, final'⟩
      simp only [outcome] at fed
      cases failure' with
      | none =>
          cases fed
          exact badSource cause
      | some error =>
          cases fed
          obtain ⟨unread, whole⟩ : source.wholeLines <+: source.lines := List.takeWhile_prefix _
          have readableHere : ∀ line ∈ source.wholeLines, (Line.text? line).isSome := by
            intro line member
            apply readable
            rw [← whole]
            exact List.mem_append_left unread member
          have texts : source.texts =
              source.wholeLines.filterMap Line.text? ++ unread.filterMap Line.text? := by
            rw [texts, ← whole, List.filterMap_append]
          refine feedLines_keeps keeps bad readableHere kept ?_ outcome
          intro done text later state split
          apply oneStep done text (later ++ unread.filterMap Line.text?) state
          rw [texts, ← List.nil_append (source.wholeLines.filterMap Line.text?), split,
            List.append_assoc, List.cons_append]

end

end Source

namespace Source

/-- The source as the second reading finds it. -/
def revisited (source : Source) : Source :=
  { source with
    content := source.revised.getD source.content
    revised := none
    readFailure := source.lateFailure }

theorem lines_revisited {source : Source} (steady : source.Steady) :
    source.revisited.lines = source.lines :=
  congrArg Line.split steady

end Source

/-- A first reading without a failure has read every line; it declares what the texts
declare and puts the source back. -/
theorem Declarations.scan_of_none {source final : Source} {found : Declarations}
    (scanned : scan source = (none, final, found)) :
    source.Readable ∧ found = ofTexts source.texts ∧ final = source.revisited := by
  rw [scan] at scanned
  cases tell : source.tell with
  | error failure =>
      rw [tell] at scanned
      cases scanned
  | ok start =>
      have here : start = source.position := by
        rw [Source.tell] at tell
        split at tell
        · cases tell
        · cases tell
          rfl
      rw [tell] at scanned
      rcases fed : source.feed (fun text => modify fun found : Declarations => found.addLine text)
        id empty with ⟨failure, rest, names⟩
      simp only [fed] at scanned
      cases failure with
      | some failure => cases scanned
      | none =>
          obtain ⟨readable, folded, position, rfl⟩ := Source.feed_of_none fed
          cases seek : source.seekFailure with
          | some failure =>
              simp only [Source.rewind, seek] at scanned
              cases scanned
          | none =>
              simp only [Source.rewind, seek] at scanned
              cases scanned
              refine ⟨readable, folded, ?_⟩
              rw [here, Source.revisited, seek]

end WordMachine.Assembly
