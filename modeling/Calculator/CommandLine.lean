import Calculator.FileTree
import Calculator.Invocation
import Calculator.Output.Plain
import Calculator.Session

/-!
# The command line

What the program writes for each invocation, and the code it ends with.
-/

namespace Calculator.CommandLine

/-- The name and the version of the program. -/
def version : String :=
  "icalc 0.1.0\n"

/-- What a session opens with. -/
def banner : String :=
  version ++ "Type 'exit' or press Ctrl+D to quit\n\n"

/-- How the program is called: with a flag or without one. The file is optional until it is given. -/
def usage (flag : Option Flag) (fileGiven : Bool) : String :=
  let flagText := match flag with
    | none => ""
    | some flag => "--" ++ flag.name ++ " "
  "Usage: icalc " ++ flagText ++ (if fileGiven then "<FILE>" else "[FILE]") ++ "\n"

/-- What the program does, and with which arguments. -/
def help : String :=
  "An interactive integer calculator with variables\n\n" ++ usage none false ++ "\n" ++
  "Arguments:\n" ++
  "  [FILE]  Evaluate this file as one program instead of starting the prompt\n\n" ++
  "Options:\n" ++
  "  -h, --help     Print help\n" ++
  "  -V, --version  Print version\n"

/-- That an argument has no place. -/
def unexpected (argument : String) : String :=
  "unexpected argument '" ++ Plain.ofText argument ++ "' found"

/-- What is wrong with an argument. -/
def complaint : Refusal → String
  | .unknownName name _ => unexpected ("--" ++ name)
  | .unknownLetter letter => unexpected ("-" ++ letter.toString)
  | .needlessValue flag value =>
    "unexpected value '" ++ Plain.ofText value ++ "' for '--" ++ flag.name ++
      "' found; no more were expected"
  | .surplus argument => unexpected argument

/-- How an option can be given as a file. -/
def tipAsValue (option : String) : String :=
  "to pass '" ++ Plain.ofText option ++ "' as a value, use '-- " ++ Plain.ofText option ++ "'"

/-- What may have been meant instead. -/
def tip? : Refusal → Option String
  | .unknownName name _ =>
    match Flag.like? name with
    | none => some (tipAsValue ("--" ++ name))
    | some flag => some ("a similar argument exists: '--" ++ flag.name ++ "'")
  | .unknownLetter letter => some (tipAsValue ("-" ++ letter.toString))
  | .needlessValue _ _ | .surplus _ => none

/-- How the program is called with what may have been meant. -/
def usageOf : Refusal → String
  | .unknownName name fileGiven => usage (Flag.like? name) fileGiven
  | .needlessValue flag _ => usage (some flag) false
  | .unknownLetter _ | .surplus _ => usage none false

/-- What is said about an argument that is refused. -/
def refusalText (refusal : Refusal) : String :=
  let tipText := match tip? refusal with
    | none => ""
    | some tip => "  tip: " ++ tip ++ "\n\n"
  "error: " ++ complaint refusal ++ "\n\n" ++ tipText ++ usageOf refusal ++
    "\nFor more information, try '--help'.\n"

/-- What is said about a session whose input cannot be read. -/
def sessionFailure (failure : Failure) : String :=
  "Error reading input: " ++ failure.message ++ "\n"

/-- What is said about a file that cannot be read. -/
def fileFailure (path : String) (failure : Failure) : String :=
  "Error reading file '" ++ path ++ "': " ++ failure.message ++ "\n"

/-- Answers a file as one program. That a file cannot be read is an answer too. -/
def answerFile (path : String) (content : Except Failure (List UInt8)) : Output Unit :=
  match content with
  | .error failure => Output.print (fileFailure path failure)
  | .ok bytes =>
    match Utf8.decode? bytes with
    | none => Output.print (fileFailure path .invalidText)
    | some source => answerProgram source (some path)

/-- What a run of the program leaves behind. -/
structure Outcome where
  code : UInt32
  output : List UInt8
  errors : List UInt8
  deriving DecidableEq

/-- What an output writes, and how it ends, where the writer takes everything. -/
def written (output : Output Unit) : List UInt8 × Option Failure :=
  match output .unlimited with
  | .ok _ writer => (writer.taken.toList, none)
  | .error failure writer => (writer.taken.toList, some failure)

/-- Runs the program in the working folder of a file tree, with its standard input. -/
def perform (tree : FileTree) : Invocation → Outcome
  | .tell .help => ⟨0, Utf8.encode help, []⟩
  | .tell .version => ⟨0, Utf8.encode version, []⟩
  | .refused refusal => ⟨2, [], Utf8.encode (refusalText refusal)⟩
  | .file path => ⟨0, (written (answerFile path (tree.read path))).1, []⟩
  | .session =>
    let (output, failure) := written (Output.print banner *> Session.run tree.input)
    ⟨0, output, (failure.map (Utf8.encode ∘ sessionFailure)).getD []⟩

end Calculator.CommandLine
