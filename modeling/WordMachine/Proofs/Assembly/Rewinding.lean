import Mathlib.Data.List.SplitBy
import WordMachine.Proofs.Assembly.Reading

/-!
# Where the first reading leaves a source

The first reading of a source puts it back where it found it, but only if it comes to the end
(`scan_of_readable`). A line that is no text ends it at once, and the source is left behind that
line (`scan_of_broken`); so is a source that breaks off, where it does (`scan_of_breaking`). So the
source is put back exactly if the reading succeeds (`Assembler.prescan_leaves_source`).
-/

namespace WordMachine

namespace Assembly

namespace Source

section

variable {ε σ : Type} {unreadable : ε} {lines : List (List UInt8)} {position behind : Nat}

/-- Lines that are not turned down are passed, each with its ending. -/
theorem position_of_feedLines {step : List Char → EStateM ε σ Unit} {state final : σ}
    (accepted : feedLines step unreadable lines position state = (none, behind, final)) :
    behind = position + lines.flatten.length := by
  induction lines generalizing position state with
  | nil =>
      cases accepted
      rfl
  | cons line rest ih =>
      rw [feedLines] at accepted
      cases isText : Line.text? line with
      | none =>
          rw [isText] at accepted
          cases accepted
      | some text =>
          rw [isText] at accepted
          cases outcome : step text state with
          | error error next =>
              simp only [outcome] at accepted
              cases accepted
          | ok value next =>
              simp only [outcome] at accepted
              rw [ih accepted, List.flatten_cons, List.length_append, Nat.add_assoc]

/-- A step that turns nothing down is folded over all lines that can be read. -/
theorem feedLines_of_readable (step : σ → List Char → σ) (unreadable : ε)
    (readable : ∀ line ∈ lines, (Line.text? line).isSome) (position : Nat) (state : σ) :
    ∃ behind, feedLines (fun text => modify fun state => step state text) unreadable lines position
      state = (none, behind, (lines.filterMap Line.text?).foldl step state) := by
  induction lines generalizing position state with
  | nil => exact ⟨position, rfl⟩
  | cons line rest ih =>
      obtain ⟨text, isText⟩ := Option.isSome_iff_exists.mp (readable line List.mem_cons_self)
      obtain ⟨behind, fed⟩ := ih (fun other later => readable other (List.mem_cons_of_mem _ later))
        (position + line.length) (step state text)
      refine ⟨behind, ?_⟩
      rw [feedLines, isText, List.filterMap_cons, isText]
      exact fed

/-- A step that turns nothing down is given the lines in front of the first one that is no text,
and this line is passed. -/
theorem feedLines_of_broken (step : σ → List Char → σ) (unreadable : ε)
    {before : List (List UInt8)} {line : List UInt8} (after : List (List UInt8))
    (readable : ∀ earlier ∈ before, (Line.text? earlier).isSome)
    (broken : Line.text? line = none) (position : Nat) (state : σ) :
    ∃ final, feedLines (fun text => modify fun state => step state text) unreadable
      (before ++ line :: after) position state =
        (some unreadable, position + (before ++ [line]).flatten.length, final) := by
  obtain ⟨behind, accepted⟩ := feedLines_of_readable step unreadable readable position state
  rw [feedLines_append accepted, feedLines, broken, position_of_feedLines accepted,
    List.flatten_append, List.flatten_singleton, List.length_append, Nat.add_assoc]
  exact ⟨_, rfl⟩

end

variable {source : Source}

/-- Lines are all text, or there is a first one that is not. -/
theorem readable_or_broken (lines : List (List UInt8)) :
    (∀ line ∈ lines, (Line.text? line).isSome) ∨
      ∃ before line after, lines = before ++ line :: after ∧
        (∀ earlier ∈ before, (Line.text? earlier).isSome) ∧ Line.text? line = none := by
  cases broken : lines.find? fun line => (Line.text? line).isNone with
  | none =>
      left
      intro line member
      have isText := List.find?_eq_none.mp broken line member
      rwa [Option.isNone_iff_eq_none, ← ne_eq, Option.ne_none_iff_isSome] at isText
  | some line =>
      right
      obtain ⟨noText, before, after, split, inFront⟩ := List.find?_eq_some_iff_append.mp broken
      refine ⟨before, line, after, split, ?_, Option.isNone_iff_eq_none.mp noText⟩
      intro earlier member
      simpa using inFront earlier member

theorem delivered_subset (source : Source) : source.delivered ⊆ source.lines := by
  rw [delivered]
  split
  · exact List.Subset.refl _
  · exact (List.takeWhile_prefix _).subset

/-- A line that is read has at least one byte. -/
theorem length_pos_of_delivered {before after : List (List UInt8)} {line : List UInt8}
    (split : source.delivered = before ++ line :: after) :
    0 < (before ++ [line]).flatten.length := by
  have member : line ∈ source.delivered := by
    rw [split]
    exact List.mem_append_right _ List.mem_cons_self
  have onLines : line ∈ source.lines := source.delivered_subset member
  have nonempty : line ≠ [] := by
    rintro rfl
    exact List.nil_notMem_splitBy _ _ onLines
  have positive := List.length_pos_iff.mpr nonempty
  rw [List.flatten_append, List.flatten_singleton, List.length_append]
  omega

end Source

namespace Declarations

variable {source : Source}

/-- A source of text that tells its position and can be put back is read to its end and put
back. -/
theorem scan_of_readable (tells : source.tellFailure = none) (seeks : source.seekFailure = none)
    (whole : source.readFailure = none) (readable : source.Readable) :
    scan source = (none, source.revisited, ofTexts source.texts) := by
  obtain ⟨behind, fed⟩ := Source.feedLines_of_readable addLine ReadFailure.invalidData readable
    source.position empty
  rw [scan, Source.tell, tells]
  simp only [Source.feed, whole, id, fed, Source.rewind, seeks]
  rw [Source.revisited, seeks]
  rfl

/-- A source is left behind its first line that is no text. -/
theorem scan_of_broken (tells : source.tellFailure = none) {before after : List (List UInt8)}
    {line : List UInt8} (split : source.delivered = before ++ line :: after)
    (readable : ∀ earlier ∈ before, (Line.text? earlier).isSome)
    (broken : Line.text? line = none) :
    (scan source).1 = some .invalidData ∧
      (scan source).2.1.position = source.position + (before ++ [line]).flatten.length := by
  obtain ⟨final, fed⟩ := Source.feedLines_of_broken addLine ReadFailure.invalidData after readable
    broken source.position empty
  rw [← split, Source.delivered] at fed
  rw [scan, Source.tell, tells]
  cases breaksOff : source.readFailure with
  | none =>
      rw [breaksOff, Option.isNone_none, if_pos rfl] at fed
      simp only [Source.feed, breaksOff, id, fed, and_self]
  | some cause =>
      rw [breaksOff, Option.isNone_some, if_neg Bool.false_ne_true] at fed
      simp only [Source.feed, breaksOff, id, fed, and_self]

/-- A source that breaks off is left there, if what is read of it is text. -/
theorem scan_of_breaking (tells : source.tellFailure = none) {cause : ReadFailure}
    (breaks : source.readFailure = some cause)
    (readable : ∀ line ∈ source.delivered, (Line.text? line).isSome) :
    (scan source).1 = some cause ∧
      (scan source).2.1.position = max source.position source.content.length := by
  rw [Source.delivered, breaks, Option.isNone_some, if_neg Bool.false_ne_true] at readable
  obtain ⟨behind, fed⟩ := Source.feedLines_of_readable addLine ReadFailure.invalidData readable
    source.position empty
  rw [scan, Source.tell, tells]
  simp only [Source.feed, breaks, id, fed, and_self]

end Declarations

end Assembly

open Assembly

namespace Assembler

/-- The first reading of a source that tells its position and can be put back. It succeeds if
every line is text and the source does not break off, and then the source is put back. Otherwise
the source is left behind the first line that is no text, or where it breaks off; so as long as it
does not break off, it is put back exactly if the reading succeeds. -/
theorem prescan_leaves_source (assembler : Assembler) {source : Source}
    (tells : source.tellFailure = none) (seeks : source.seekFailure = none) :
    let failure := (assembler.prescan source).1
    let left := (assembler.prescan source).2.1
    (failure = none ↔ source.readFailure = none ∧ source.Readable) ∧
    (failure = none → left.position = source.position) ∧
    (∀ before line after, source.delivered = before ++ line :: after →
      (∀ earlier ∈ before, (Line.text? earlier).isSome) → Line.text? line = none →
      failure = some .invalidData ∧ source.position < left.position ∧
        left.position = source.position + (before ++ [line]).flatten.length) ∧
    (∀ cause, source.readFailure = some cause →
      (∀ line ∈ source.delivered, (Line.text? line).isSome) →
      failure = some cause ∧ left.position = max source.position source.content.length) ∧
    (source.readFailure = none → (left.position = source.position ↔ failure = none)) := by
  intro failure left
  have whole (unbroken : source.readFailure = none) : source.delivered = source.lines := by
    rw [Source.delivered, unbroken, Option.isNone_none, if_pos rfl]
  have behindBroken : ∀ before line after, source.delivered = before ++ line :: after →
      (∀ earlier ∈ before, (Line.text? earlier).isSome) → Line.text? line = none →
      failure = some .invalidData ∧ source.position < left.position ∧
        left.position = source.position + (before ++ [line]).flatten.length := by
    intro before line after split readable broken
    obtain ⟨failed, position⟩ := Declarations.scan_of_broken tells split readable broken
    have passed := Source.length_pos_of_delivered split
    exact ⟨failed, lt_of_lt_of_eq (by omega) position.symm, position⟩
  have whereBreaking : ∀ cause, source.readFailure = some cause →
      (∀ line ∈ source.delivered, (Line.text? line).isSome) →
      failure = some cause ∧ left.position = max source.position source.content.length :=
    fun cause breaks readable => Declarations.scan_of_breaking tells breaks readable
  have putBack (unbroken : source.readFailure = none) (readable : source.Readable) :
      failure = none ∧ left.position = source.position := by
    have scanned := Declarations.scan_of_readable tells seeks unbroken readable
    exact ⟨congrArg Prod.fst scanned, congrArg (fun reading => reading.2.1.position) scanned⟩
  have succeeds_iff : failure = none ↔ source.readFailure = none ∧ source.Readable := by
    constructor
    · intro succeeds
      obtain ⟨readable, -, -⟩ := Declarations.scan_of_none (Prod.ext succeeds rfl)
      refine ⟨?_, readable⟩
      by_contra breaks
      obtain ⟨cause, breaks⟩ := Option.ne_none_iff_exists'.mp breaks
      have delivered : source.delivered ⊆ source.lines := source.delivered_subset
      obtain ⟨failed, -⟩ := whereBreaking cause breaks fun line member =>
        readable line (delivered member)
      rw [succeeds] at failed
      cases failed
    · rintro ⟨unbroken, readable⟩
      exact (putBack unbroken readable).1
  refine ⟨succeeds_iff, ?_, behindBroken, whereBreaking, ?_⟩
  · intro succeeds
    obtain ⟨unbroken, readable⟩ := succeeds_iff.mp succeeds
    exact (putBack unbroken readable).2
  · intro unbroken
    constructor
    · intro samePosition
      rcases Source.readable_or_broken source.lines with readable | broken
      · exact (putBack unbroken readable).1
      · obtain ⟨before, line, after, split, inFront, noText⟩ := broken
        rw [← whole unbroken] at split
        obtain ⟨-, passed, -⟩ := behindBroken before line after split inFront noText
        exact absurd samePosition (Nat.ne_of_gt passed)
    · intro succeeds
      exact (putBack unbroken (succeeds_iff.mp succeeds).2).2

/-- Behind a line that is passed over, a byte that is no text. -/
def brokenLine : Source := .ofBytes [0x6E, 0x6F, 0x70, 0x0A, 0xFF, 0x0A, 0x6E, 0x6F, 0x70, 0x0A] 4

/-- Not every source that tells its position and can be put back is put back. -/
theorem broken_line_is_passed :
    brokenLine.tellFailure = none ∧ brokenLine.seekFailure = none ∧ brokenLine.position = 4 ∧
      (empty.prescan brokenLine).1 = some .invalidData ∧
      (empty.prescan brokenLine).2.1.position = 6 := by
  decide +kernel

/-- Two lines of one label, to be read from the second one on. -/
def twoLabels : Source := .ofBytes [0x61, 0x3A, 0x0A, 0x61, 0x3A] 3

theorem text_is_put_back_and_broken_line_is_not :
    (empty.prescan twoLabels).2.1.position = 3 ∧
      (empty.prescan brokenLine).2.1.position ≠ brokenLine.position := by
  constructor
  · have tells : twoLabels.tellFailure = none := rfl
    have readable : twoLabels.Readable := by
      unfold Source.Readable
      decide +kernel
    obtain ⟨succeeds_iff, putBack, -⟩ := empty.prescan_leaves_source tells rfl
    exact putBack (succeeds_iff.mpr ⟨rfl, readable⟩)
  · have split : brokenLine.delivered = [] ++ [0xFF, 0x0A] :: [[0x6E, 0x6F, 0x70, 0x0A]] := by
      decide +kernel
    have noText : Line.text? [0xFF, 0x0A] = none := by
      decide +kernel
    have tells : brokenLine.tellFailure = none := rfl
    obtain ⟨-, -, behindBroken, -⟩ := empty.prescan_leaves_source tells rfl
    obtain ⟨-, passed, -⟩ := behindBroken [] _ _ split (fun _ none => (List.not_mem_nil none).elim)
      noText
    exact Nat.ne_of_gt passed

end Assembler

end WordMachine
