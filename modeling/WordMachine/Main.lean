import WordMachine.CommandLine.Session

/-!
# The program

Reads the file named on the command line and prints the transcript of the session.
-/

namespace WordMachine.CommandLine

open Assembly

/-- Why a file could not be opened. No argument has a zero byte in it, so an argument
that does not suit the system is one that is too long. -/
def openFailure : IO.Error → OpenFailure
  | .noFileOrDirectory .. => .missing
  | .permissionDenied .. => .denied
  | .inappropriateType .. => .notDirectory
  | .invalidArgument .. => .nameTooLong
  | error => .other (toString error)

/-- The content of a file. A directory can be opened, but not read: that failure comes
without a path. -/
def readSource (path : String) : IO (Except OpenFailure Source) := do
  try
    let content ← IO.FS.readBinFile path
    return .ok (Source.ofBytes content.data.toList 0)
  catch error =>
    match error with
    | .inappropriateType none .. =>
      return .ok { Source.ofBytes [] 0 with readFailure := some .isDirectory }
    | error => return .error (openFailure error)

/-- Prints a transcript and answers with its exit code. -/
def present (transcript : Transcript) : IO UInt32 := do
  transcript.output.forM IO.println
  transcript.errorOutput.forM IO.eprintln
  return UInt32.ofNat transcript.exitCode

/-- More instructions than any run without a budget lives to see. -/
def endless : Nat := 0x4000000000000000

/-- Does what the arguments ask for. -/
def serve (args : List String) : IO UInt32 := do
  match Request.ofArguments args with
  | .misuse =>
    IO.eprintln Session.usageText
    return 2
  | .version => present ⟨0, [Session.versionText], []⟩
  | .help => present ⟨0, Session.helpText, []⟩
  | .run options =>
    match Session.ofFile endless options (← readSource options.source) with
    | some transcript => present transcript
    | none => return 1

end WordMachine.CommandLine

def main (args : List String) : IO UInt32 := WordMachine.CommandLine.serve args
