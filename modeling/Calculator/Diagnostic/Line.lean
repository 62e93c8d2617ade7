import Calculator.Unicode.WhiteSpace
import Calculator.Unicode.Width

/-!
# Lines of a source

A source is cut behind each line terminator, so the lines together are the source again
(`flatten_split`).
-/

namespace Calculator

/-- A line: how many lines and characters are before it, and its text with the terminator. -/
structure Line where
  index : Nat
  offset : Nat
  text : List Char

namespace Line

/-- Whether a character ends a line. A carriage return and a line feed end it together. -/
def isTerminator (c : Char) : Bool :=
  c ∈ ['\n', '\x0b', '\x0c', '\r', '\u0085', '\u2028', '\u2029']

/-- The lines of a text, each with its terminator. -/
def split : List Char → List (List Char)
  | [] => []
  | '\r' :: '\n' :: rest => ['\r', '\n'] :: split rest
  | c :: rest =>
    if isTerminator c then [c] :: split rest
    else match split rest with
      | [] => [[c]]
      | line :: lines => (c :: line) :: lines

theorem flatten_split (text : List Char) : (split text).flatten = text := by
  fun_induction split text with
  | case1 => rfl
  | case2 rest ih => simp [ih]
  | case3 c rest _ _ ih => simp [ih]
  | case4 c rest _ _ empty ih =>
    rw [empty] at ih
    simp [← ih]
  | case5 c rest _ _ line lines cut ih =>
    rw [cut] at ih
    simp [← ih]

/-- Gives each line its index and its offset, counting on from those of the first. -/
def enumerate (index offset : Nat) : List (List Char) → List Line
  | [] => []
  | text :: rest => ⟨index, offset, text⟩ :: enumerate (index + 1) (offset + text.length) rest

/-- The lines of a source. -/
def ofSource (source : String) : List Line :=
  enumerate 0 0 (split source.toList)

/-- The line that holds an offset: the last one that begins at or before it. -/
def at? (lines : List Line) (offset : Nat) : Option Line :=
  (lines.filter (·.offset ≤ offset)).getLast?

/-- The text of a line as it is shown: without white space at its end. -/
def shown (line : Line) : List Char :=
  Unicode.trimEnd line.text

/-- The columns that a character takes at a place in its line. A tab reaches to the next multiple of
four, and any other white space takes one column. -/
def columnsAt (place : Nat) (c : Char) : Nat :=
  if c = '\t' then 4 - place % 4
  else if Unicode.isWhitespace c then 1
  else Unicode.columns c

/-- The columns of the first places of a line as it is shown. Places past its end take one each. -/
def columns (line : Line) (places : Nat) : List Nat :=
  let shown := line.shown
  (shown.mapIdx columnsAt ++ List.replicate (places - shown.length) 1).take places

end Line

end Calculator
