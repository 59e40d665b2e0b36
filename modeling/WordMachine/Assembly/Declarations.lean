import WordMachine.Assembly.Source

/-!
# Statements and declarations

What the tokens of a line amount to, before names and numbers are looked at: a statement. A
label comes first on its line, and an instruction may follow it.

Labels and globals may be used before the line that declares them, so their names
are collected first. Collecting never complains: what is no good name is passed
over here and found again when the line is encoded. Globals get their data
addresses at once, one behind the other; labels get theirs when their line is
encoded.
-/

namespace WordMachine.Assembly

/-- A line of source text by its first token. -/
inductive Statement where
  /-- A line without tokens. -/
  | blank
  /-- A label; `rest` is the instruction on the same line, if there is one. -/
  | label (name : Token) (rest : List Token)
  | pragma (arguments : List Token)
  | localVariable (arguments : List Token)
  | globals (type : VariableType) (names : List Token)
  | instruction (mnemonic : Token) (operands : List Token)
  deriving DecidableEq, Repr

namespace Statement

/-- The name in front of a final colon. -/
def labelName? (token : Token) : Option Token :=
  if token.getLast? = some ':' then some token.dropLast else none

/-- Classifies the tokens of a line. -/
def ofTokens : List Token → Statement
  | [] => .blank
  | first :: rest =>
    match labelName? first with
    | some name => .label name rest
    | none =>
      if first.spells "#pragma" then .pragma rest
      else if first.spells "local" then .localVariable rest
      else
        match VariableType.ofKeyword? first with
        | some type => .globals type rest
        | none => .instruction first rest

end Statement

/-! ## Declarations -/

/-- A name for a place in the code. -/
structure Label where
  name : Name
  /-- The declaring line. -/
  line : LineNumber
  /-- The image offset, once the declaring line has been encoded. -/
  address : Option Word
  deriving DecidableEq, Repr

/-- A global variable. -/
structure Global where
  name : Name
  address : Word
  type : VariableType
  /-- Whether its declaring line has been encoded. -/
  declared : Bool
  deriving DecidableEq, Repr

namespace Global

/-- The data address behind the variable. -/
def endAddress (global : Global) : Nat := global.address.toNat + global.type.size

/-- Whether the variable lies inside a data segment of the given size. -/
def fits (global : Global) (dataSize : UInt64) : Bool :=
  decide (global.endAddress ≤ dataSize.toNat)

end Global

/-- Position of a label in its table. -/
def findLabel? (labels : Array Label) (name : Token) : Option Nat :=
  labels.findIdx? fun label => label.name == name

/-- Position of a global in its table. -/
def findGlobal? (globals : Array Global) (name : Token) : Option Nat :=
  globals.findIdx? fun global => global.name == name

/-- The names found so far. -/
structure Declarations where
  labels : Array Label
  globals : Array Global
  /-- The address of the next global, as long as addresses last. -/
  nextAddress : Option Word
  /-- The line read last. -/
  line : LineNumber
  deriving DecidableEq, Repr

namespace Declarations

/-- The address of the first global. The bytes below it stay unused. -/
def firstAddress : Word := 8

def empty : Declarations := ⟨#[], #[], some firstAddress, 0⟩

/-- The address `size` bytes further on, unless that is no word any more. -/
def addressAfter? (address : Word) (size : Nat) : Option Word :=
  if address.toNat + size < 0x10000 then some (UInt16.ofNat (address.toNat + size)) else none

/-- Whether a token is a good name. -/
def isName (token : Token) : Bool := Name.isIdentifier token && decide (Name.Fits token)

/-- Adds a label on the current line, unless the name is no good or taken. -/
def addLabel (declarations : Declarations) (name : Token) : Declarations :=
  if isName name && (findLabel? declarations.labels name).isNone then
    { declarations with
      labels := declarations.labels.push ⟨name, declarations.line, none⟩ }
  else
    declarations

/-- Adds a global at the next address, unless the name is no good or taken. -/
def addGlobal (type : VariableType) (declarations : Declarations) (name : Token) :
    Declarations :=
  if isName name && (findGlobal? declarations.globals name).isNone then
    match declarations.nextAddress with
    | none => declarations
    | some address =>
      { declarations with
        globals := declarations.globals.push ⟨name, address, type, false⟩
        nextAddress := addressAfter? address type.size }
  else
    declarations

/-- Adds what a statement declares. -/
def addStatement (declarations : Declarations) : Statement → Declarations
  | .label name _ => declarations.addLabel name
  | .globals type names => names.foldl (addGlobal type) declarations
  | .blank | .pragma _ | .localVariable _ | .instruction _ _ => declarations

/-- Adds what the next line declares. A line of too many tokens declares nothing. -/
def addLine (declarations : Declarations) (text : List Char) : Declarations :=
  let declarations := { declarations with line := declarations.line + 1 }
  match Line.tokens? text with
  | none => declarations
  | some tokens => declarations.addStatement (.ofTokens tokens)

/-- Reads a source for its declarations and puts it back. The answer has the first
failure of the source, the source, and the names found up to the failure. -/
def scan (source : Source) : Option ReadFailure × Source × Declarations :=
  match source.tell with
  | .error failure => (some failure, source, empty)
  | .ok start =>
    match source.feed (fun text => modify fun found => found.addLine text) id empty with
    | (some failure, source, found) => (some failure, source, found)
    | (none, source, found) =>
      match source.rewind start with
      | .error failure => (some failure, source, found)
      | .ok source => (none, source, found)

end Declarations

end WordMachine.Assembly
