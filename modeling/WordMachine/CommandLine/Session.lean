import WordMachine.Assembler
import WordMachine.Machine
import WordMachine.CommandLine.Options
import WordMachine.CommandLine.Log

/-!
# Command line sessions

A session assembles one file and runs the image. It ends with the registers and
flags on the output, or with a failure: what was being done and why it did not
work. A file that can not be opened is such a failure, with the wording and the number
that the operating system has for it.
-/

namespace WordMachine.CommandLine

open Assembly

/-- Why a file could not be opened. -/
inductive OpenFailure where
  /-- Nothing stands under the path. -/
  | missing
  /-- The file may not be read. -/
  | denied
  /-- The path goes on behind something that is no directory. -/
  | notDirectory
  /-- The path, or a name on it, has more bytes than a file system takes. -/
  | nameTooLong
  /-- Another cause, in words of its own. -/
  | other (words : String)
  deriving DecidableEq, Repr

/-- A cause as it is shown to the user. -/
def OpenFailure.message : OpenFailure → String
  | .missing => "No such file or directory (os error 2)"
  | .denied => "Permission denied (os error 13)"
  | .notDirectory => "Not a directory (os error 20)"
  | .nameTooLong => "File name too long (os error 36)"
  | .other words => words

/-- What a session leaves behind. -/
structure Transcript where
  exitCode : Nat
  output : List String
  errorOutput : List String
  deriving DecidableEq, Repr

namespace Session

/-- The answer to a request for the version. -/
def versionText : String := "kompile 0.1.0"

/-- How the program is called. -/
def usageText : String := "Usage: kompile [OPTIONS] <SOURCE>"

/-- The answer to a request for help. -/
def helpText : List String :=
  ["Assemble a register machine source file and run it",
   "",
   usageText,
   "",
   "Arguments:",
   "  <SOURCE>  Assembly source file",
   "",
   "Options:",
   "      --memory <MEMORY>        Capacity of the memory module in bytes [default: 65536]",
   "      --max-steps <MAX_STEPS>  Stop with an error after this many instructions",
   "  -v, --verbose                Log pass boundaries and run start/end",
   "  -h, --help                   Print help",
   "  -V, --version                Print version"]

/-- The log entry of a report. -/
def reportEntry (report : Report) : Entry where
  level := .error
  message := report.message
  values := report.line.toList.map fun (line : LineNumber) => ("line", .number line)

/-- The log entry of a stage of assembling. -/
def progressEntry : Progress → Entry
  | .scanned labels globals =>
    ⟨.debug, "prescan done", [("labels", .number labels), ("variables", .number globals)]⟩
  | .ignored ⟨line, none⟩ => ⟨.debug, "ignoring empty pragma", [("line", .number line)]⟩
  | .ignored ⟨line, some name⟩ =>
    ⟨.debug, "ignoring unknown pragma", [("line", .number line), ("pragma", .text name)]⟩
  | .encoded instructions =>
    ⟨.debug, "encoding done", [("instructions", .number instructions)]⟩
  | .linked size => ⟨.debug, "labels resolved", [("len", .number size)]⟩

/-- The log of an attempt at assembling. -/
def assemblyLog (attempt : Attempt) : List Entry :=
  attempt.progress.map progressEntry ++
    attempt.assembler.diagnostics.reports.toList.map reportEntry

/-- The log entry of a run that was set up: the sizes that the image asks for. -/
def startEntry (image : Image) : List Entry :=
  match Header.read image with
  | .error _ => []
  | .ok header =>
    [⟨.debug, "run start",
      [("code_size", .number header.codeSize.toNat),
       ("data_size", .number header.dataSize.toNat),
       ("stack_size", .number header.stackSize.toNat)]⟩]

/-- The log of a run of an image. -/
def runLog (image : Image) (run : Run) : List Entry :=
  (if run.segment.isSome then startEntry image else []) ++
    (match run.outcome with
      | .ok steps => [⟨.debug, "run end", [("steps", .number steps)]⟩]
      | .error _ => []) ++
    run.machine.diagnostics.reports.toList.map reportEntry

/-- A register of sixteen bits in hexadecimal and, in brackets, signed decimal. -/
def registerLine (index : Nat) (value : Word) : String :=
  let number := String.ofList (Nat.toDigits 10 index)
  let padding := if index < 10 then "0" else ""
  s!"reg{padding}{number} = {Fault.hexadecimal 4 value.toNat} ({value.signed})"

/-- All flags, one digit each. -/
def flagLine (flags : Flags) : String :=
  let digit (flag : Bool) : Nat := if flag then 1 else 0
  s!"carry={digit flags.carry} zero={digit flags.zero}" ++
    s!" sign={digit flags.sign} overflow={digit flags.overflow}"

/-- Registers and flags as they are shown at the end. -/
def stateLines (machine : Machine) : List String :=
  machine.registers.bank16.toList.mapIdx registerLine ++ [flagLine machine.flags]

/-- The lines that are shown of a log. -/
def logLines (options : Options) (log : List Entry) : List String :=
  (log.filter (Entry.isShown options.verbose)).map Entry.render

/-- A session that ends in a failure: what was being done, and the cause. -/
def failure (options : Options) (log : List Entry) (doing cause : String) : Transcript where
  exitCode := 1
  output := []
  errorOutput :=
    logLines options log ++ [s!"Error: {doing}", "", "Caused by:", s!"    {cause}"]

/-- A session that got as far as an image. -/
def runImage (patience : Nat) (options : Options) (log : List Entry) (image : Image) :
    Option Transcript := do
  let log := log ++ [⟨.info, "assembled", [("bytes", .number image.size)]⟩]
  let machine := Machine.ofConfig { MachineConfig.full with maxSteps := options.maxSteps }
  let run ← machine.run patience image (.ofSeed options.memory true 0)
  let log := log ++ runLog image run
  match run.outcome with
  | .error fault => return failure options log "running image" fault.message
  | .ok steps =>
    let log := log ++ [⟨.info, "finished", [("steps", .number steps)]⟩]
    return ⟨0, stateLines run.machine, logLines options log⟩

/-- Assembles and runs a file. `file` is its content, or why it could not be
opened. The answer is `none` if a run without a budget was given up after
`patience` instructions. -/
def ofFile (patience : Nat) (options : Options) (file : Except OpenFailure Source) :
    Option Transcript :=
  match file with
  | .error cause => some (failure options [] s!"opening {options.source}" cause.message)
  | .ok source =>
    let attempt := Assembler.empty.assemble source
    let log := assemblyLog attempt
    match attempt.outcome with
    | .error error =>
      some (failure options log s!"assembling {options.source}" error.message)
    | .ok image => runImage patience options log image

end Session

end WordMachine.CommandLine
