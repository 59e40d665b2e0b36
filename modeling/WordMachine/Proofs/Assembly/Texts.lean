import Mathlib.Data.List.SplitBy
import WordMachine.Proofs.Assembly.Reading

/-!
# Texts

A source is bytes, and it is cut into lines as bytes. Where the bytes are those of a text, the
lines are those of its characters: a newline is one byte, and no other character has this byte
in it. So the text of a line can be found without decoding (`Source.statement?_bytes`), and a
list of lines, put together to a text, is found again in its source (`Source.lines_ofLines`).
-/

namespace WordMachine.Assembly

/-! ## Letters and digits by their numbers -/

section

variable (char : Char)

theorem isUpper_iff : char.isUpper = true ↔ 65 ≤ char.toNat ∧ char.toNat ≤ 90 := decide_eq_true_iff

theorem isLower_iff : char.isLower = true ↔ 97 ≤ char.toNat ∧ char.toNat ≤ 122 :=
  (Bool.and_eq_true_iff).trans (and_congr decide_eq_true_iff decide_eq_true_iff)

theorem isDigit_iff : char.isDigit = true ↔ 48 ≤ char.toNat ∧ char.toNat ≤ 57 :=
  (Bool.and_eq_true_iff).trans (and_congr decide_eq_true_iff decide_eq_true_iff)

theorem isAlpha_iff : char.isAlpha = true ↔
    (65 ≤ char.toNat ∧ char.toNat ≤ 90) ∨ 97 ≤ char.toNat ∧ char.toNat ≤ 122 :=
  Bool.or_eq_true_iff.trans (or_congr (isUpper_iff char) (isLower_iff char))

/-- No letter is a digit. -/
theorem isDigit_of_isAlpha {char : Char} (letter : char.isAlpha = true) :
    char.isDigit = false := by
  rw [isAlpha_iff] at letter
  rw [← Bool.not_eq_true, isDigit_iff]
  omega

/-- Letters, digits and underscores are characters of ASCII. -/
theorem isAscii_of_word {char : Char} (word : char.isAlphanum = true ∨ char = '_') :
    char.toNat < 128 := by
  rcases word with alphanumeric | rfl
  · rcases Bool.or_eq_true_iff.mp alphanumeric with letter | digit
    · rw [isAlpha_iff] at letter
      omega
    · rw [isDigit_iff] at digit
      omega
  · decide

end

/-! ## Lines of a text -/

section Pieces

variable {α : Type} {stop : α}

/-- Whether pieces are those of a list that is cut behind each occurrence of an entry. -/
structure CutBehind (stop : α) (pieces : List (List α)) : Prop where
  nonempty : [] ∉ pieces
  inner : ∀ piece ∈ pieces, stop ∉ piece.dropLast
  ended : pieces.IsChain fun piece _ => piece.getLast? = some stop

/-- Behind pieces that are all ended there may follow others. -/
theorem CutBehind.append {front back : List (List α)} (cutFront : CutBehind stop front)
    (cutBack : CutBehind stop back)
    (ended : ∀ piece ∈ front.getLast?, piece.getLast? = some stop) :
    CutBehind stop (front ++ back) where
  nonempty := by
    rw [List.mem_append]
    exact not_or.mpr ⟨cutFront.nonempty, cutBack.nonempty⟩
  inner := by
    intro piece member
    rcases List.mem_append.mp member with inFront | inBack
    · exact cutFront.inner piece inFront
    · exact cutBack.inner piece inBack
  ended := List.isChain_append.mpr
    ⟨cutFront.ended, cutBack.ended, fun piece last _ _ => ended piece last⟩

/-- Pieces stay pieces under a change that leaves entries at which to cut at the ends, and puts
none elsewhere. -/
theorem CutBehind.map {β : Type} {stop' : β} {pieces : List (List α)} {change : List α → List β}
    (cut : CutBehind stop pieces) (nonempty : ∀ piece ∈ pieces, change piece ≠ [])
    (inner : ∀ piece ∈ pieces, stop' ∉ (change piece).dropLast)
    (ended : ∀ piece ∈ pieces, piece.getLast? = some stop →
      (change piece).getLast? = some stop') :
    CutBehind stop' (pieces.map change) where
  nonempty := by
    intro member
    rcases List.mem_map.mp member with ⟨piece, inPieces, empty⟩
    exact nonempty piece inPieces empty
  inner := by
    intro _ member
    rcases List.mem_map.mp member with ⟨piece, inPieces, rfl⟩
    exact inner piece inPieces
  ended := by
    rw [List.isChain_map]
    have chain := cut.ended
    clear cut nonempty inner
    induction pieces with
    | nil => exact .nil
    | cons first rest ih =>
        cases rest with
        | nil => exact .singleton _
        | cons second rest =>
            rw [List.isChain_cons_cons] at chain ⊢
            exact ⟨ended first List.mem_cons_self chain.1,
              ih (fun piece later => ended piece (List.mem_cons_of_mem _ later)) chain.2⟩

variable [DecidableEq α]

theorem isChain_iff_not_mem_dropLast {piece : List α} :
    (piece.IsChain fun entry _ => (entry != stop) = true) ↔ stop ∉ piece.dropLast := by
  induction piece with
  | nil => simp
  | cons first rest ih =>
      cases rest with
      | nil => simp
      | cons second rest =>
          rw [List.isChain_cons_cons, ih, List.dropLast_cons_of_ne_nil (List.cons_ne_nil _ _),
            List.mem_cons, not_or, bne_iff_ne, ne_comm]

/-- Cutting a list where its pieces were put together gives them back. -/
theorem CutBehind.splitBy_flatten {pieces : List (List α)} (cut : CutBehind stop pieces) :
    (pieces.flatten.splitBy fun entry _ => entry != stop) = pieces := by
  apply List.splitBy_flatten cut.nonempty
  · intro piece member
    exact isChain_iff_not_mem_dropLast.mpr (cut.inner piece member)
  · have nonempty := cut.nonempty
    have ended := cut.ended
    clear cut
    induction pieces with
    | nil => exact .nil
    | cons first rest ih =>
        rw [List.mem_cons, not_or] at nonempty
        cases rest with
        | nil => exact .singleton _
        | cons second rest =>
            rw [List.isChain_cons_cons] at ended ⊢
            refine ⟨?_, ih nonempty.2 ended.2⟩
            have secondNonempty : second ≠ [] := fun empty => nonempty.2 (by simp [empty])
            refine ⟨Ne.symm nonempty.1, secondNonempty, ?_⟩
            have last := ended.1
            rw [List.getLast?_eq_some_getLast (Ne.symm nonempty.1), Option.some.injEq] at last
            rw [last, bne_self_eq_false]

theorem cutBehind_splitBy (list : List α) :
    CutBehind stop (list.splitBy fun entry _ => entry != stop) where
  nonempty := List.nil_notMem_splitBy _ list
  inner := by
    intro piece member
    exact isChain_iff_not_mem_dropLast.mp (List.isChain_of_mem_splitBy member)
  ended := by
    apply (List.isChain_getLast_head_splitBy (fun entry _ => entry != stop) list).imp
    rintro first second ⟨nonempty, _, last⟩
    rw [List.getLast?_eq_some_getLast nonempty]
    rw [bne_eq_false_iff_eq] at last
    rw [last]

end Pieces

namespace Line

/-- The bytes of characters. -/
def bytes (chars : List Char) : List UInt8 := chars.flatMap String.utf8EncodeChar

/-- Cuts characters into lines. Every line keeps its newline, the last one may have none. -/
def cut (chars : List Char) : List (List Char) := chars.splitBy fun char _ => char != '\n'

/-- The characters in front of the ending of a line. -/
def content (line : List Char) : List Char :=
  if line.getLast? = some '\n' then
    if line.dropLast.getLast? = some '\r' then line.dropLast.dropLast else line.dropLast
  else
    line

@[simp] theorem bytes_append (front back : List Char) :
    bytes (front ++ back) = bytes front ++ bytes back := List.flatMap_append

@[simp] theorem bytes_singleton (char : Char) : bytes [char] = String.utf8EncodeChar char :=
  List.flatMap_singleton ..

theorem bytes_flatten (lines : List (List Char)) :
    bytes lines.flatten = (lines.map bytes).flatten := by
  induction lines with
  | nil => rfl
  | cons line rest ih => rw [List.flatten_cons, bytes_append, ih, List.map_cons, List.flatten_cons]

theorem bytes_eq_nil_iff {chars : List Char} : bytes chars = [] ↔ chars = [] := by
  constructor
  · intro empty
    cases chars with
    | nil => rfl
    | cons char rest =>
        rw [bytes, List.flatMap_cons, List.append_eq_nil_iff] at empty
        exact absurd empty.1 String.utf8EncodeChar_ne_nil
  · rintro rfl
    rfl

/-- A character of ASCII is one byte. -/
theorem utf8EncodeChar_of_ascii {char : Char} (ascii : char.toNat < 128) :
    String.utf8EncodeChar char = [UInt8.ofNat char.toNat] := by
  rw [String.utf8EncodeChar.eq_1]
  exact if_pos (Nat.le_of_lt_succ ascii)

/-- No other character has the byte of a character of ASCII in it. -/
theorem eq_of_mem_utf8EncodeChar {char other : Char} (ascii : char.toNat < 128)
    (member : UInt8.ofNat char.toNat ∈ String.utf8EncodeChar other) : other = char := by
  have high (value : Nat) (large : 128 ≤ value % 256) :
      UInt8.ofNat char.toNat ≠ UInt8.ofNat value := by
    intro same
    have sameNat := congrArg UInt8.toNat same
    rw [UInt8.toNat_ofNat', UInt8.toNat_ofNat'] at sameNat
    omega
  have large := other.val.toNat_lt
  rw [String.utf8EncodeChar.eq_1] at member
  split at member
  next small =>
    have same := congrArg UInt8.toNat (List.mem_singleton.mp member)
    rw [UInt8.toNat_ofNat', UInt8.toNat_ofNat', Nat.mod_eq_of_lt (by omega),
      Nat.mod_eq_of_lt (by omega)] at same
    exact (Char.toNat_inj.mp same).symm
  next =>
    split at member
    · rcases List.mem_pair.mp member with same | same
      · exact absurd same (high _ (by omega))
      · exact absurd same (high _ (by omega))
    · split at member
      · simp only [List.mem_cons, List.not_mem_nil, or_false] at member
        rcases member with same | same | same
        · exact absurd same (high _ (by omega))
        · exact absurd same (high _ (by omega))
        · exact absurd same (high _ (by omega))
      · simp only [List.mem_cons, List.not_mem_nil, or_false] at member
        rcases member with same | same | same | same
        · exact absurd same (high _ (by omega))
        · exact absurd same (high _ (by omega))
        · exact absurd same (high _ (by omega))
        · exact absurd same (high _ (by omega))

theorem mem_bytes_iff {chars : List Char} {char : Char} (ascii : char.toNat < 128) :
    UInt8.ofNat char.toNat ∈ bytes chars ↔ char ∈ chars := by
  rw [bytes, List.mem_flatMap]
  constructor
  · rintro ⟨other, member, encoded⟩
    rwa [← eq_of_mem_utf8EncodeChar ascii encoded]
  · intro member
    refine ⟨char, member, ?_⟩
    rw [utf8EncodeChar_of_ascii ascii]
    exact List.mem_singleton_self _

/-- Characters end in one of ASCII if their bytes do. -/
theorem getLast?_bytes_iff {chars : List Char} {char : Char} (ascii : char.toNat < 128) :
    (bytes chars).getLast? = some (UInt8.ofNat char.toNat) ↔ chars.getLast? = some char := by
  rcases List.eq_nil_or_concat chars with rfl | ⟨front, last, rfl⟩
  · constructor <;> intro none <;> cases none
  · rw [List.concat_eq_append, bytes_append, bytes_singleton, List.getLast?_concat,
      List.getLast?_append_of_ne_nil _ String.utf8EncodeChar_ne_nil, Option.some.injEq]
    constructor
    · intro same
      exact eq_of_mem_utf8EncodeChar ascii (List.mem_of_getLast? same)
    · rintro rfl
      rw [utf8EncodeChar_of_ascii ascii]
      rfl

/-- The last byte of a character of ASCII is taken off with it. -/
theorem dropLast_bytes {chars : List Char} {char : Char} (ascii : char.toNat < 128)
    (last : chars.getLast? = some char) : (bytes chars).dropLast = bytes chars.dropLast := by
  rcases List.eq_nil_or_concat chars with rfl | ⟨front, last, rfl⟩
  · rfl
  · rw [List.concat_eq_append, List.getLast?_concat] at last
    cases last
    rw [List.concat_eq_append, bytes_append, bytes_singleton, utf8EncodeChar_of_ascii ascii,
      List.dropLast_concat, List.dropLast_concat]

/-- The bytes of a text are cut where its characters are. -/
theorem split_bytes {lines : List (List Char)} (lined : CutBehind '\n' lines) :
    split (bytes lines.flatten) = lines.map bytes := by
  have ascii : ('\n').toNat < 128 := by decide
  have onBytes : CutBehind newline (lines.map bytes) := by
    apply lined.map
    · intro line member empty
      rw [bytes_eq_nil_iff] at empty
      exact lined.nonempty (empty ▸ member)
    · intro line member inner
      rcases List.eq_nil_or_concat line with rfl | ⟨front, last, rfl⟩
      · cases inner
      · have noNewline := lined.inner _ member
        rw [List.concat_eq_append, List.dropLast_concat] at noNewline
        rw [List.concat_eq_append, bytes_append, bytes_singleton,
          List.dropLast_append_of_ne_nil String.utf8EncodeChar_ne_nil, List.mem_append] at inner
        rcases inner with inFront | inLast
        · exact noNewline ((mem_bytes_iff ascii).mp inFront)
        · obtain rfl := eq_of_mem_utf8EncodeChar ascii (List.dropLast_subset _ inLast)
          rw [utf8EncodeChar_of_ascii ascii] at inLast
          cases inLast
    · intro line _ last
      exact (getLast?_bytes_iff ascii).mpr last
  rw [split, bytes_flatten]
  exact onBytes.splitBy_flatten

theorem body_bytes (line : List Char) : body (bytes line) = bytes (content line) := by
  have newlineAscii : ('\n').toNat < 128 := by decide
  have returnAscii : ('\r').toNat < 128 := by decide
  have newlineLast : (bytes line).getLast? = some newline ↔ line.getLast? = some '\n' :=
    getLast?_bytes_iff newlineAscii
  have returnLast : (bytes line.dropLast).getLast? = some carriageReturn ↔
      line.dropLast.getLast? = some '\r' := getLast?_bytes_iff returnAscii
  rw [body, content]
  by_cases last : line.getLast? = some '\n'
  · rw [if_pos last, if_pos (newlineLast.mpr last)]
    simp only [dropLast_bytes newlineAscii last]
    by_cases before : line.dropLast.getLast? = some '\r'
    · rw [if_pos before, if_pos (returnLast.mpr before), dropLast_bytes returnAscii before]
    · rw [if_neg before, if_neg (mt returnLast.mp before)]
  · rw [if_neg last, if_neg (mt newlineLast.mp last)]

/-- The text of a line is found again in its bytes. -/
theorem text?_bytes (line : List Char) : text? (bytes line) = some (content line) := by
  have valid : (ByteArray.mk (bytes (content line)).toArray) =
      (String.ofList (content line)).toByteArray := by
    apply ByteArray.ext
    exact List.data_toByteArray.symm
  have decoded : String.fromUTF8? (String.ofList (content line)).toByteArray =
      some (String.ofList (content line)) := dif_pos (String.ofList (content line)).isValidUTF8
  rw [text?, body_bytes, valid, decoded, Option.map_some, String.toList_ofList]

end Line

namespace Source

theorem statement?_bytes (line : List Char) :
    statement? (Line.bytes line) = Statement.ofText? (Line.content line) := by
  rw [statement?, Line.text?_bytes]
  rfl

/-- A source whose text is made of lines has these lines. -/
theorem lines_ofLines {lines : List (List Char)} (lined : CutBehind '\n' lines) :
    (ofString (String.ofList lines.flatten)).lines = lines.map Line.bytes := by
  have whole : (ofString (String.ofList lines.flatten)).lines =
      Line.split (Line.bytes lines.flatten) := by
    rw [Source.lines, ofString, ofBytes, List.drop_zero, String.toUTF8]
    exact congrArg (fun data : Array UInt8 => Line.split data.toList) List.data_toByteArray
  rw [whole, Line.split_bytes lined]

/-- The lines of a text, found in its source. -/
theorem lines_ofString (text : String) :
    (ofString text).lines = (Line.cut text.toList).map Line.bytes := by
  have lined : CutBehind '\n' (Line.cut text.toList) := cutBehind_splitBy text.toList
  have whole : String.ofList (Line.cut text.toList).flatten = text := by
    rw [Line.cut, List.flatten_splitBy, String.ofList_toList]
  rw [← lines_ofLines lined, whole]

end Source

end WordMachine.Assembly
