import Calculator.Answer

/-!
# Sessions

A session answers one statement per line. What a line binds stays bound for the lines after it.
-/

namespace Calculator.Session

/-- What a session writes when it is ready for a line. -/
def prompt : String :=
  ">>> "

/-- The lines that end a session. -/
def stopWords : List String :=
  ["exit", "quit"]

/-- Answers a line. The result is the environment for the next line, or nothing where the line ends
the session. -/
def answerLine (line : String) (env : Environment) : Output (Option Environment) :=
  let text := Unicode.trim line
  if text = "" then return some env
  else if text ∈ stopWords then do
    Output.print "Goodbye!\n"
    return none
  else some <$> answer .statement text none env

/-- Answers lines in order, with a prompt before each and one more before the end of the input. A
line that is not text is a failure. -/
def serve : List (List UInt8) → Environment → Output Unit
  | [], _ => do
    Output.print prompt
    Output.print "\n"
  | line :: lines, env => do
    Output.print prompt
    match Utf8.decode? line with
    | none => throw .invalidText
    | some text =>
      match ← answerLine text env with
      | some after => serve lines after
      | none => return ()

/-- A session over all lines of an input. -/
def run (input : List UInt8) : Output Unit :=
  serve (Utf8.lines input) .empty

end Calculator.Session
