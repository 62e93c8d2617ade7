/-!
# Plain text

What is left of a text where no terminal shows it. Control characters and control sequences are
left out, and white space stays. A control sequence starts with an escape character; the character
behind it tells how far the sequence goes. White space interrupts a sequence: it is kept, and so is
the text behind it, up to the next control character, with which the sequence goes on.
-/

namespace Calculator.Plain

/-- What the next character of a text belongs to. -/
inductive Position where
  | text
  /-- A sequence of which only the escape character has been read. -/
  | escape
  /-- A sequence that names a character set. A letter ends it. -/
  | designation
  /-- A sequence with parameters, behind its bracket. A letter ends it. -/
  | parameters
  /-- A command to the system. A bell ends it. -/
  | command
  /-- A string for a device, of which nothing has been read. A letter starts its body. -/
  | device
  /-- The parameters of a string for a device. -/
  | deviceParameters
  /-- The characters between the parameters of a string for a device and its letter. -/
  | deviceIntermediates
  /-- The body of a string. The byte that closes strings ends it. -/
  | string
  deriving DecidableEq

/-- White space among the control characters. -/
def isBlankControl (c : Char) : Bool :=
  c ∈ ['\t', '\n', '\x0c', '\r']

/-- Control characters, other than white space, of one byte. -/
def isControl (c : Char) : Bool :=
  (c < ' ' || c = '\x7f') && !isBlankControl c

/-- Whether a byte of the character is the one that closes strings. -/
def closesString (c : Char) : Bool :=
  (String.utf8EncodeChar c).contains 0x9c

/-- Whether a character lies between two others, which count in. -/
def within (first last c : Char) : Bool :=
  first ≤ c && c ≤ last

namespace Position

/-- The position behind an escape character and the one behind it. -/
def opened (c : Char) : Position :=
  if within ' ' '/' c then .designation
  else if c = '[' then .parameters
  else if c = ']' then .command
  else if c = 'P' then .device
  else if c ∈ ['X', '^', '_'] then .string
  else if within '0' '~' c then .text
  else .escape

/-- The position behind a character of a string for a device. Parameters out of place start the body
too. -/
def deviceBehind (position : Position) (c : Char) : Position :=
  if within ' ' '/' c then .deviceIntermediates
  else if within '@' '~' c then .string
  else if within '0' '?' c then
    if position = .device ∨ position = .deviceParameters ∧ c ≤ ';' then .deviceParameters
    else .string
  else position

/-- The position behind a character that is neither kept nor the start of a sequence. -/
def behind (position : Position) (c : Char) : Position :=
  match position with
  | .text => .text
  | .escape => opened c
  | .designation => if within '0' '~' c then .text else .designation
  | .parameters => if within '@' '~' c then .text else .parameters
  | .command => if c = '\x07' then .text else .command
  | .device | .deviceParameters | .deviceIntermediates => position.deviceBehind c
  | .string => if closesString c then .text else .string

/-- Whether a character is kept. White space can interrupt a sequence, but not a string. -/
def keeps (position : Position) (c : Char) : Bool :=
  match position with
  | .text => !isControl c
  | .escape | .designation | .parameters => isBlankControl c
  | _ => false

end Position

/-- Plain characters. While a sequence is interrupted it keeps its position, until a character of
more than one byte ends it. Two control characters cancel any sequence. -/
def strip : (interrupted : Bool) → Position → List Char → List Char
  | _, _, [] => []
  | interrupted, position, c :: rest =>
    if c = '\x1b' then strip false .escape rest
    else if c = '\x18' ∨ c = '\x1a' then strip false .text rest
    else if (if interrupted then Position.text else position).keeps c then
      c :: strip true (if c ≤ '\x7f' then position else .text) rest
    else strip false (position.behind c) rest

/-- A text without control characters and control sequences. -/
def ofText (text : String) : String :=
  String.ofList (strip false .text text.toList)

end Calculator.Plain
