import WordMachine.Word

/-!
# Lines, tokens, numerals and names

Source text is read line by line. A line ends at a newline, and a carriage return
directly before the newline belongs to the ending. What stands behind `//` is a
comment. The rest of the line is cut into tokens at blanks, tabs and commas.

A number is written in decimal, or in hexadecimal behind `0x`. Words may also be
written as a negative decimal number, which is stored in two's complement. An
unsigned numeral may carry one plus sign in front of its digits.

Names of labels, globals and locals are identifiers: a letter, then letters, digits
or underscores. Registers and the keywords of types are reserved.
-/

namespace WordMachine.Assembly

/-- A run of characters without separators, as written. -/
abbrev Token := List Char

namespace Token

/-- The most tokens a line may have. -/
def maxPerLine : Nat := 16

/-- The token in lower case; letters other than `A` to `Z` stay as they are. -/
def lowerCase (token : Token) : Token := token.map Char.toLower

/-- Whether a token spells a word, upper and lower case alike. The word itself is
given in lower case. -/
def spells (token : Token) (word : String) : Bool := token.lowerCase == word.toList

end Token

namespace Line

def newline : UInt8 := 10

def carriageReturn : UInt8 := 13

/-- Cuts bytes into lines. Every line keeps its newline, the last one may have none. -/
def split (bytes : List UInt8) : List (List UInt8) :=
  bytes.splitBy fun byte _ => byte != newline

/-- The line without its ending. -/
def body (line : List UInt8) : List UInt8 :=
  if line.getLast? = some newline then
    let text := line.dropLast
    if text.getLast? = some carriageReturn then text.dropLast else text
  else
    line

/-- The text of a line, if its bytes are UTF-8. -/
def text? (line : List UInt8) : Option (List Char) :=
  (String.fromUTF8? ⟨(body line).toArray⟩).map String.toList

/-- The position of the first comment mark, or the end of the text; `before`
characters have been passed already. -/
def commentStart (before : Nat) : List Char → Nat
  | '/' :: '/' :: _ => before
  | _ :: rest => commentStart (before + 1) rest
  | [] => before

/-- The text before the first comment mark. -/
def withoutComment (text : List Char) : List Char := text.take (commentStart 0 text)

/-- Whether a character separates tokens. -/
def isSeparator (char : Char) : Bool := char == ' ' || char == '\t' || char == ','

/-- All tokens of a line. -/
def tokens (text : List Char) : List Token :=
  ((withoutComment text).splitOnP isSeparator).filter fun token => !token.isEmpty

/-- The tokens of a line, unless there are too many. -/
def tokens? (text : List Char) : Option (List Token) :=
  let tokens := tokens text
  if tokens.length ≤ Token.maxPerLine then some tokens else none

end Line

namespace Numeral

/-- The value of a hexadecimal digit, of either case. -/
def digitValue? (char : Char) : Option Nat :=
  if '0' ≤ char ∧ char ≤ '9' then some (char.toNat - '0'.toNat)
  else if 'a' ≤ char ∧ char ≤ 'f' then some (char.toNat - 'a'.toNat + 10)
  else if 'A' ≤ char ∧ char ≤ 'F' then some (char.toNat - 'A'.toNat + 10)
  else none

/-- The value of a digit of a base up to sixteen. -/
def digit? (base : Nat) (char : Char) : Option Nat :=
  (digitValue? char).filter fun value => decide (value < base)

/-- The number denoted by one or more digits. -/
def digits? (base : Nat) : List Char → Option Nat
  | [] => none
  | digits => digits.foldlM (fun value char => (digit? base char).map (base * value + ·)) 0

/-- The characters behind one leading plus sign, if there is one. -/
def withoutPlus : List Char → List Char
  | '+' :: rest => rest
  | chars => chars

/-- An unsigned numeral below a limit. -/
def unsigned? (base limit : Nat) (chars : List Char) : Option Nat :=
  (digits? base (withoutPlus chars)).filter fun value => decide (value < limit)

/-- A decimal or hexadecimal numeral below a limit. -/
def decimalOrHex? (limit : Nat) : List Char → Option Nat
  | '0' :: 'x' :: digits => unsigned? 16 limit digits
  | '0' :: 'X' :: digits => unsigned? 16 limit digits
  | chars => unsigned? 10 limit chars

/-- The number denoted by a minus sign in front of `chars`, in two's complement. -/
def negative? (chars : List Char) : Option Word :=
  ((digits? 10 chars).filter fun value => decide (value ≤ 0x8000)).map
    fun value => Word.ofSigned (-value)

/-- The word that a literal denotes. -/
def word? : List Char → Option Word
  | '-' :: chars => negative? chars
  | chars => (decimalOrHex? 0x10000 chars).map UInt16.ofNat

/-- The size that a pragma sets. -/
def size? (chars : List Char) : Option UInt64 :=
  (decimalOrHex? UInt64.size chars).map UInt64.ofNat

end Numeral

/-- The type of a variable. -/
inductive VariableType where
  | byte
  | int16
  | uint16
  deriving DecidableEq, Repr

namespace VariableType

/-- The type a keyword names, in upper or lower case. -/
def ofKeyword? (token : Token) : Option VariableType :=
  if token.spells "byte" then some .byte
  else if token.spells "int16" then some .int16
  else if token.spells "uint16" then some .uint16
  else none

/-- The width in bytes. -/
def size : VariableType → Nat
  | .byte => 1
  | .int16 | .uint16 => 2

end VariableType

/-- The name of a label or a variable. -/
abbrev Name := Token

namespace Name

/-- The longest name, in characters. -/
def maxLength : Nat := 32

/-- Whether a token begins like the name of a register. -/
def hasRegisterPrefix (token : Token) : Bool := Token.spells (token.take 3) "reg"

/-- Whether a token is a register: `reg` and a number. -/
def isRegister (token : Token) : Bool :=
  hasRegisterPrefix token && !(token.drop 3).isEmpty && (token.drop 3).all Char.isDigit

/-- The number of a register, if it fits a byte. -/
def register? (token : Token) : Option UInt8 :=
  if isRegister token then
    ((Numeral.digits? 10 (token.drop 3)).filter fun number => decide (number < 256)).map UInt8.ofNat
  else
    none

/-- Whether a token starts with a letter and goes on with letters, digits or
underscores. -/
def isWord (token : Token) : Bool :=
  token.head?.any Char.isAlpha && token.all fun char => char.isAlphanum || char == '_'

/-- Whether a token can name something. -/
def isIdentifier (token : Token) : Bool :=
  isWord token && (VariableType.ofKeyword? token).isNone && !isRegister token

/-- Whether an identifier is short enough for a name. -/
def Fits (token : Token) : Prop := token.length ≤ maxLength

instance (token : Token) : Decidable (Fits token) := inferInstanceAs (Decidable (_ ≤ _))

end Name

end WordMachine.Assembly
