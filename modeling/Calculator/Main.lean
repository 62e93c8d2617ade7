import Calculator.CommandLine

/-!
# The program

Reads the arguments, the standard input and the file that is asked for, and writes what
`CommandLine` and `Session` answer.
-/

namespace Calculator

/-- Runs an output and passes on what it wrote. -/
def deliver {α : Type} (output : Output α) : IO (Except Failure α) := do
  let stdout ← IO.getStdout
  let (result, writer) :=
    match output .unlimited with
    | .ok value writer => (Except.ok value, writer)
    | .error failure writer => (Except.error failure, writer)
  stdout.write ⟨writer.taken⟩
  stdout.flush
  return result

/-- Reads a line of the standard input, byte by byte. It is empty at the end of the input. -/
partial def readLine (stdin : IO.FS.Stream) (line : ByteArray) : IO ByteArray := do
  let byte ← stdin.read 1
  if byte.isEmpty then return line
  let line := line ++ byte
  if byte.toList = [Utf8.lineFeed] then return line
  readLine stdin line

/-- Serves a session on the standard streams, one line at a time. -/
partial def serveLines (stdin : IO.FS.Stream) (env : Environment) : IO (Except Failure Unit) := do
  let _ ← deliver (Output.print Session.prompt)
  let line ← readLine stdin .empty
  if line.isEmpty then
    deliver (Output.print "\n")
  else match Utf8.decode? line.toList with
    | none => return .error .invalidText
    | some text =>
      match ← deliver (Session.answerLine text env) with
      | .ok (some after) => serveLines stdin after
      | .ok none => return .ok ()
      | .error failure => return .error failure

/-- The failure that the system reports. The number of a reason may come with either sign. -/
def failureOf : IO.Error → Failure
  | .noFileOrDirectory _ _ _ => .noSuchFile
  | .inappropriateType filename code details =>
    if code = 20 ∨ code = -20 then .notADirectory
    else if code = 21 ∨ code = -21 then .isADirectory
    else .other (toString (IO.Error.inappropriateType filename code details))
  | .invalidArgument filename code details =>
    if code = 36 ∨ code = -36 then .nameTooLong
    else .other (toString (IO.Error.invalidArgument filename code details))
  | error => .other (toString error)

/-- Reads a file. -/
def readFile (path : String) : IO (Except Failure (List UInt8)) := do
  try
    let content ← IO.FS.readBinFile path
    return .ok content.toList
  catch error => return .error (failureOf error)

/-- Does what the arguments ask for. -/
def runInvocation : Invocation → IO UInt32
  | .session => do
    let _ ← deliver (Output.print CommandLine.banner)
    match ← serveLines (← IO.getStdin) .empty with
    | .ok _ => return 0
    | .error failure =>
      (← IO.getStderr).putStr (CommandLine.sessionFailure failure)
      return 0
  | .file path => do
    let content ← readFile path
    let _ ← deliver (CommandLine.answerFile path content)
    return 0
  | invocation => do
    let outcome := CommandLine.perform ⟨[], []⟩ invocation
    (← IO.getStdout).write outcome.output.toByteArray
    (← IO.getStderr).write outcome.errors.toByteArray
    return outcome.code

end Calculator

def main (arguments : List String) : IO UInt32 :=
  Calculator.runInvocation (.ofArguments arguments)
