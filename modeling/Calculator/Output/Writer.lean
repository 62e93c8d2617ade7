import Calculator.Output.Utf8

/-!
# Writers

Where output goes. A writer may take everything or run full, and it may refuse what it is offered
first; an `Output` is a sequence of writes that stops at the first one that fails.
-/

namespace Calculator

/-- Why reading or writing failed. -/
inductive Failure where
  /-- The writer takes no more. -/
  | closed
  | invalidText
  | noSuchFile
  | notADirectory
  | isADirectory
  | nameTooLong
  /-- Any other reason, in words. -/
  | other (text : String)
  deriving DecidableEq

/-- A failure in words. -/
def Failure.message : Failure → String
  | .closed => "closed"
  | .invalidText => "stream did not contain valid UTF-8"
  | .noSuchFile => "No such file or directory (os error 2)"
  | .notADirectory => "Not a directory (os error 20)"
  | .isADirectory => "Is a directory (os error 21)"
  | .nameTooLong => "File name too long (os error 36)"
  | .other text => text

/-- A writer: the bytes it has taken, how many more it has room for where there is an end to it, and
whether it refuses what it is offered next. -/
structure Writer where
  taken : Array UInt8
  room : Option Nat
  refusing : Bool
  deriving DecidableEq

namespace Writer

/-- A writer that takes everything. -/
def unlimited : Writer :=
  ⟨#[], none, false⟩

/-- A writer with room for so many bytes. -/
def ofRoom (bytes : Nat) : Writer :=
  ⟨#[], some bytes, false⟩

/-- Whether there is room for so many more bytes. -/
def fits (writer : Writer) (bytes : Nat) : Bool :=
  writer.room.all (bytes ≤ ·)

/-- The writer behind the bytes, of which it takes as many as there is room for. -/
def take (writer : Writer) (bytes : List UInt8) : Writer :=
  match writer.room with
  | none => { writer with taken := writer.taken ++ bytes }
  | some room =>
    { writer with taken := writer.taken ++ bytes.take room, room := some (room - bytes.length) }

end Writer

/-- Writes that may fail. -/
abbrev Output := EStateM Failure Writer

/-- Offers bytes to the writer. One that refuses them takes the next ones, and one that runs full
takes what there is room for. To offer nothing always succeeds. -/
def Output.write (bytes : List UInt8) : Output Unit := fun writer =>
  if bytes = [] then .ok () writer
  else if writer.refusing then .error .closed { writer with refusing := false }
  else if writer.fits bytes.length then .ok () (writer.take bytes)
  else .error .closed (writer.take bytes)

/-- Writes a text. -/
def Output.print (text : String) : Output Unit :=
  write (Utf8.encode text)

end Calculator
