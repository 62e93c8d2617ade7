import Calculator.Diagnostic.Ink
import Calculator.Diagnostic.Line
import Calculator.Fault

/-!
# Diagnostics

A fault with the source lines it is about, painted for a terminal: a headline, the place, the
lines with a label drawn under or beside them, and the help.
-/

namespace Calculator

/-- The title of the faults of a stage. -/
def Fault.Stage.title : Stage → String
  | .lexical => "Lexical Error"
  | .grammar => "Parse Error"
  | .value => "Value Error"
  | .runtime => "Runtime Error"

/-- The ink of the faults of a stage. -/
def Fault.Stage.ink : Stage → Ink
  | .lexical => .red
  | .grammar => .yellow
  | .value => .blue
  | .runtime => .magenta

/-- The stretch of the source that a diagnostic labels. It differs from the span of the fault only
where that reaches past the source, as it does at the end of the input. -/
def Fault.labelled (fault : Fault) (source : String) : Span :=
  fault.span.clamp source.length

namespace Diagnostic

/-- The given number of copies of a text. -/
def copies (count : Nat) (text : String) : String :=
  String.join (List.replicate count text)

/-- The given number of spaces. -/
def spaces (count : Nat) : String :=
  copies count " "

/-- What a label looks like: where it is, in what ink, and what it says. -/
structure Label where
  span : Span
  ink : Ink
  message : String

/-- The frame to the left of the lines. Its line numbers have up to `digits` digits. -/
structure Frame where
  digits : Nat

namespace Frame

/-- The frame of lines whose highest index is the given one. -/
def upTo (index : Nat) : Frame :=
  ⟨(Numeral.writeNatural (index + 1)).length⟩

/-- The frame beside a line, with the line's number. -/
def numbered (frame : Frame) (index : Nat) : String :=
  let number := Numeral.writeNatural (index + 1)
  " " ++ Ink.margin.paint (spaces (frame.digits - number.length) ++ number ++ " │") ++ " "

/-- The frame beside a row of a label, with the given stroke. -/
def stroke (frame : Frame) (stroke : String) : String :=
  " " ++ Ink.unnumbered.paint (spaces (frame.digits + 1) ++ stroke) ++ " "

/-- The frame beside a row of a label. -/
def bar (frame : Frame) : String :=
  frame.stroke "│"

/-- The top of the frame: the file, the line and the column of a place. -/
def top (frame : Frame) (filename : String) (line : Line) (offset : Nat) : String :=
  spaces (frame.digits + 2) ++
  Ink.margin.paint "╭" ++ Ink.margin.paint "─" ++ Ink.margin.paint "[" ++
  filename ++ ":" ++ Numeral.writeNatural (line.index + 1) ++ ":" ++
  Numeral.writeNatural (offset - line.offset + 1) ++
  Ink.margin.paint "]" ++ "\n" ++
  spaces (frame.digits + 2) ++ Ink.margin.paint "│" ++ "\n"

/-- The bottom of the frame. -/
def bottom (frame : Frame) : String :=
  Ink.margin.paint (copies (frame.digits + 2) "─" ++ "╯") ++ "\n"

end Frame

namespace Label

/-- A line of the source, with the characters in the label's ink that the label covers. White space
is painted column by column, other characters at once. -/
def text (label : Label) (line : Line) : String :=
  String.join <| line.shown.mapIdx fun place c =>
    let ink := if label.span.holds (line.offset + place) then label.ink else .plain
    if Unicode.isWhitespace c then copies (Line.columnsAt place c) (ink.paint " ")
    else ink.paint c.toString

/-- A row under a line: at each of the first `places` places of the line a stroke, followed by
fillers as far as the character above is wide. -/
def row (line : Line) (places : Nat) (strokes : Nat → String × String) : String :=
  String.join <| (line.columns places).mapIdx fun place columns =>
    match columns with
    | 0 => ""
    | columns + 1 => (strokes place).1 ++ copies columns (strokes place).2

/-- A label within one line: a stroke under the characters it covers, and its message at the end
of an arm from the middle of them. -/
def within (label : Label) (frame : Frame) (line : Line) : String :=
  let places := label.span.stop - line.offset + 2
  let middle := (label.span.start + label.span.stop) / 2 - line.offset
  let covers := fun place => label.span.holds (line.offset + place)
  let flat := label.ink.paint "─"
  let underline := row line places fun place =>
    if place = middle then
      if covers place then (label.ink.paint "┬", flat)
      else (label.ink.paint "│", label.ink.paint " ")
    else if covers place then (flat, flat)
    else (" ", " ")
  let arm := row line places fun place =>
    if place = middle then (label.ink.paint "╰", flat)
    else if middle < place then (flat, flat)
    else (" ", " ")
  frame.numbered line.index ++ label.text line ++ "\n" ++
  frame.bar ++ underline ++ "\n" ++
  frame.bar ++ arm ++ " " ++ label.message ++ "\n"

/-- An arrow into a line from the side of the label. -/
def arrow (label : Label) (corner : String) : String :=
  label.ink.paint corner ++ label.ink.paint "─" ++ label.ink.paint "▶" ++ label.ink.paint " "

/-- The side of a label over several lines, beside a row without an arrow. -/
def side (label : Label) : String :=
  label.ink.paint "│" ++ spaces 3

/-- A label over several lines: an arrow into the first and into the last of them, and its message
at the end of an arm below. -/
def across (label : Label) (frame : Frame) (first last : Line) : String :=
  let places := last.text.length + 2
  let flat := label.ink.paint "─"
  let gap :=
    if first.index + 1 < last.index then
      frame.stroke "┆" ++ label.ink.paint "┆" ++ spaces 3 ++ "\n"
    else ""
  frame.numbered first.index ++ label.arrow "╭" ++ label.text first ++ "\n" ++
  gap ++
  frame.numbered last.index ++ label.arrow "├" ++ label.text last ++ "\n" ++
  frame.bar ++ label.side ++ row last places (fun _ => (" ", " ")) ++ "\n" ++
  frame.bar ++ label.ink.paint "╰" ++ copies 3 flat ++ row last places (fun _ => (flat, flat)) ++
  " " ++ label.message ++ "\n"

/-- What stands between the frame and the help. The help counts as beside the first line of the
source. A label over several lines leaves the room of its side free there, and one that starts right
behind that line has its side drawn already. -/
def besideHelp (label : Label) (first last : Line) : String :=
  if first.index = last.index then ""
  else if first.index = 1 ∧ label.span.start = first.offset then label.side
  else spaces 4

end Label

/-- The rows that a help takes, behind the given text beside the frame. -/
def helpRows (frame : Frame) (beside : String) : Option String → String
  | none => ""
  | some help =>
    frame.bar ++ beside ++ "\n" ++
    frame.bar ++ beside ++ Ink.note.paint "Note" ++ ": " ++ Ink.cyan.paint "help" ++ ": " ++ help ++
    "\n"

/-- The first line of a diagnostic. -/
def headline (fault : Fault) : String :=
  let stage := fault.cause.stage
  Ink.red.paint "Error:" ++ " " ++ stage.ink.paint stage.title ++ ": " ++ fault.message ++ "\n"

/-- The file name that stands for text that was typed in. -/
def typedIn : String :=
  "<repl>"

end Diagnostic

/-- The diagnostic of a fault. Of an empty source there is nothing to show below the headline. -/
def Fault.diagnostic (fault : Fault) (source : String) (filename : Option String) : String :=
  let lines := Line.ofSource source
  let span := fault.labelled source
  let label : Diagnostic.Label := ⟨span, fault.cause.stage.ink, fault.message⟩
  match Line.at? lines span.start, Line.at? lines (max (span.stop - 1) span.start) with
  | some first, some last =>
    let frame := Diagnostic.Frame.upTo last.index
    let body :=
      if first.index = last.index then label.within frame first
      else label.across frame first last
    Diagnostic.headline fault ++
    frame.top (filename.getD Diagnostic.typedIn) first span.start ++
    body ++ Diagnostic.helpRows frame (label.besideHelp first last) fault.help ++ frame.bottom
  | _, _ => Diagnostic.headline fault

end Calculator
