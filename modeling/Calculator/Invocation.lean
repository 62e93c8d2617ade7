import Calculator.Flag

/-!
# Invocations

What the command line asks for. Arguments are read from left to right, and the first one that is a
flag, or has no place, decides.
-/

namespace Calculator

/-- Why an argument is refused. -/
inductive Refusal where
  /-- There is no flag of the name. The file may have been given before. -/
  | unknownName (name : String) (fileGiven : Bool)
  /-- There is no flag of the letter. -/
  | unknownLetter (letter : Char)
  /-- A flag is given a value. -/
  | needlessValue (flag : Flag) (value : String)
  /-- The file has been given before. -/
  | surplus (argument : String)
  deriving DecidableEq

/-- What to do. -/
inductive Invocation where
  /-- Serve a session on the standard streams. -/
  | session
  /-- Answer a file as one program. -/
  | file (path : String)
  /-- Tell what a flag asks for. -/
  | tell (flag : Flag)
  | refused (refusal : Refusal)
  deriving DecidableEq

namespace Invocation

/-- Reads arguments of which none is an option, behind the file read so far. -/
def ofPlain : Option String → List String → Invocation
  | none, [] => .session
  | some path, [] => .file path
  | none, argument :: rest => ofPlain (some argument) rest
  | some _, argument :: _ => .refused (.surplus argument)

/-- Reads what stands behind two hyphens, as in `--help`. What follows an equals sign is a value. -/
def ofLong (option : List Char) (fileGiven : Bool) : Invocation :=
  let name := String.ofList (option.takeWhile (· ≠ '='))
  match Flag.ofName? name, option.dropWhile (· ≠ '=') with
  | none, _ => .refused (.unknownName name fileGiven)
  | some flag, [] => .tell flag
  | some flag, _ :: value => .refused (.needlessValue flag (String.ofList value))

/-- Reads what stands behind a single hyphen, as in `-h`. It decides whatever letters follow. -/
def ofShort (letter : Char) : Invocation :=
  match Flag.ofLetter? letter with
  | none => .refused (.unknownLetter letter)
  | some flag => .tell flag

/-- Reads arguments behind the file read so far. A single hyphen is a file name, and behind a double
one every argument is. -/
def ofRest : Option String → List String → Invocation
  | none, [] => .session
  | some path, [] => .file path
  | path, argument :: rest =>
    match argument.toList with
    | ['-', '-'] => ofPlain path rest
    | '-' :: '-' :: option => ofLong option path.isSome
    | '-' :: letter :: _ => ofShort letter
    | _ =>
      match path with
      | none => ofRest (some argument) rest
      | some _ => .refused (.surplus argument)

/-- What the arguments ask for. -/
def ofArguments (arguments : List String) : Invocation :=
  ofRest none arguments

end Invocation

end Calculator
