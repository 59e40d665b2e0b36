import WordMachine.Diagnostics
import WordMachine.Image

/-!
# Errors of the assembler

A cause says what is wrong, an error adds the line it is found on. Causes that
concern the source or the image as a whole have no line.
-/

namespace WordMachine.Assembly

/-- Why source text could not be read. -/
inductive ReadFailure where
  /-- A line is not UTF-8. -/
  | invalidData
  /-- The source does not tell the position it is read at. -/
  | permissionDenied
  /-- The source can not be put back. -/
  | unsupported
  /-- The source is a directory. -/
  | isDirectory
  /-- Any other failure, by its description. -/
  | other (description : String)
  deriving DecidableEq, Repr

/-- The text shown to the user. -/
def ReadFailure.message : ReadFailure → String
  | .invalidData => "invalid data"
  | .permissionDenied => "permission denied"
  | .unsupported => "unsupported"
  | .isDirectory => "is a directory"
  | .other description => description

/-- What is wrong with a source. -/
inductive Cause where
  | malformed
  | unknownToken
  | unknownInstruction
  | invalidRegister
  | invalidNumber
  | invalidAddress
  | unresolvedLabel
  | invalidVariableType
  | duplicateLabel
  | duplicateVariable
  | numberAsDestination
  | invalidPragmaArgument
  | tooManyTokens
  | nameTooLong
  | localAfterStackUse
  | imageTooLarge (error : ImageTooLarge)
  /-- Code of the assembler's own making does not decode. -/
  | undecodable (fault : Fault)
  | unreadable (failure : ReadFailure)
  deriving DecidableEq, Repr

/-- The text shown to the user. -/
def Cause.message : Cause → String
  | .malformed => "syntax error"
  | .unknownToken => "unknown token"
  | .unknownInstruction => "unknown instruction"
  | .invalidRegister => "invalid register"
  | .invalidNumber => "invalid numeric constant"
  | .invalidAddress => "invalid address"
  | .unresolvedLabel => "unresolved label"
  | .invalidVariableType => "invalid variable type"
  | .duplicateLabel => "label declared twice"
  | .duplicateVariable => "variable declared twice"
  | .numberAsDestination => "a number can not be a destination"
  | .invalidPragmaArgument => "invalid pragma argument"
  | .tooManyTokens => "too many tokens on one line"
  | .nameTooLong => "name is longer than 32 bytes"
  | .localAfterStackUse => "local declared after an explicit push or pop"
  | .imageTooLarge error => error.message
  | .undecodable fault => s!"emitted code does not decode: {fault.message}"
  | .unreadable failure => s!"read failed: {failure.message}"

/-- A cause and the line it is found on. -/
structure Error where
  line : Option LineNumber
  cause : Cause
  deriving DecidableEq, Repr

/-- The text shown to the user. -/
def Error.message (error : Error) : String :=
  match error.line with
  | none => error.cause.message
  | some line => s!"line {line.toNat}: {error.cause.message}"

end WordMachine.Assembly
