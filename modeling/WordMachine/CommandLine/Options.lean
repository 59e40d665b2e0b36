/-!
# Command line options

One source file, three options, and requests for the version or for help. Options
may stand before or after the file; what follows `--` is never an option. Arguments
are read from left to right, so the first one that is wrong, or that asks for
version or help, decides.
-/

namespace WordMachine.CommandLine

/-- How a source file is to be run. -/
structure Options where
  source : String
  /-- The capacity of the memory pool in bytes. -/
  memory : Nat
  maxSteps : Option Nat
  verbose : Bool
  deriving DecidableEq, Repr

/-- What the arguments ask for. -/
inductive Request where
  | run (options : Options)
  | version
  | help
  /-- Arguments that make no sense. -/
  | misuse
  deriving DecidableEq, Repr

/-- The arguments understood so far; an option may be given once. -/
structure Given where
  source : Option String
  memory : Option Nat
  maxSteps : Option Nat
  verbose : Bool
  deriving DecidableEq, Repr

namespace Given

def nothing : Given := ⟨none, none, none, false⟩

/-- The capacity used when none is given. -/
def defaultMemory : Nat := 65536

/-- What was given, taken as a whole. The file has to be among it. -/
def request (given : Given) : Request :=
  match given.source with
  | none => .misuse
  | some source =>
    .run
      { source
        memory := given.memory.getD defaultMemory
        maxSteps := given.maxSteps
        verbose := given.verbose }

def addSource (given : Given) (source : String) : Option Given :=
  if given.source.isSome || source.isEmpty then none
  else some { given with source := some source }

def addVerbose (given : Given) : Option Given :=
  if given.verbose then none else some { given with verbose := true }

/-- A decimal number of sixty-four bits; a plus sign may stand in front. -/
def number? (text : String) : Option Nat :=
  let digits :=
    match text.toList with
    | '+' :: rest => rest
    | chars => chars
  if digits.isEmpty || !digits.all Char.isDigit then
    none
  else
    let value := digits.foldl (fun value char => 10 * value + (char.toNat - '0'.toNat)) 0
    if value < UInt64.size then some value else none

/-- Sets the option of a name that takes a value. -/
def addValue (given : Given) (name value : String) : Option Given :=
  match number? value with
  | none => none
  | some number =>
    if name == "memory" then
      if given.memory.isSome then none else some { given with memory := some number }
    else if name == "max-steps" then
      if given.maxSteps.isSome then none else some { given with maxSteps := some number }
    else
      none

end Given

/-- How an argument looks by its first characters. -/
inductive Argument where
  /-- The mark behind which nothing is an option. -/
  | separator
  /-- A long option, with its value if that stands behind an equals sign. -/
  | long (name : String) (value : Option String)
  /-- One or more options of one letter. -/
  | short (letters : List Char)
  | positional (text : String)
  deriving DecidableEq, Repr

namespace Argument

/-- Splits a long option at its first equals sign. -/
def splitValue (chars : List Char) : String × Option String :=
  let name := String.ofList (chars.takeWhile (· != '='))
  match chars.dropWhile (· != '=') with
  | [] => (name, none)
  | _ :: value => (name, some (String.ofList value))

def ofString (text : String) : Argument :=
  match text.toList with
  | ['-', '-'] => .separator
  | '-' :: '-' :: rest =>
    let (name, value) := splitValue rest
    .long name value
  | '-' :: first :: rest => .short (first :: rest)
  | _ => .positional text

/-- Whether an argument can be the value of the option before it. -/
def isValue (text : String) : Bool :=
  match ofString text with
  | .positional _ => true
  | .separator | .long _ _ | .short _ => false

end Argument

/-- What a group of one-letter options asks for, with the options before it. -/
def shortOptions (given : Given) : List Char → Except Request Given
  | [] => .ok given
  | 'v' :: rest =>
    match given.addVerbose with
    | some given => shortOptions given rest
    | none => .error .misuse
  | 'V' :: _ => .error .version
  | 'h' :: _ => .error .help
  | _ :: _ => .error .misuse

/-- What a long option without value asks for, with the options before it. -/
def longFlag (given : Given) (name : String) : Except Request Given :=
  if name == "verbose" then
    match given.addVerbose with
    | some given => .ok given
    | none => .error .misuse
  else if name == "version" then .error .version
  else if name == "help" then .error .help
  else .error .misuse

/-- Reads arguments none of which is an option. -/
def positionals (given : Given) : List String → Request
  | [] => given.request
  | text :: rest =>
    match given.addSource text with
    | some given => positionals given rest
    | none => .misuse

/-- Whether a long option takes a value. -/
def takesValue (name : String) : Bool := name == "memory" || name == "max-steps"

/-- Reads the arguments from left to right. -/
def arguments (given : Given) : List String → Request
  | [] => given.request
  | text :: rest =>
    match Argument.ofString text with
    | .separator => positionals given rest
    | .positional source =>
      match given.addSource source with
      | some given => arguments given rest
      | none => .misuse
    | .short letters =>
      match shortOptions given letters with
      | .ok given => arguments given rest
      | .error request => request
    | .long name (some value) =>
      match given.addValue name value with
      | some given => arguments given rest
      | none => .misuse
    | .long name none =>
      if takesValue name then
        match rest with
        | [] => .misuse
        | value :: rest =>
          if Argument.isValue value then
            match given.addValue name value with
            | some given => arguments given rest
            | none => .misuse
          else
            .misuse
      else
        match longFlag given name with
        | .ok given => arguments given rest
        | .error request => request

/-- What a list of arguments asks for. -/
def Request.ofArguments (args : List String) : Request := arguments .nothing args

end WordMachine.CommandLine
