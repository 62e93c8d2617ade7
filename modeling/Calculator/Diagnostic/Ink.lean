/-!
# Inks

Painted text for a terminal.
-/

namespace Calculator

/-- How a text is painted: the parameters of the escape sequence in front of it. -/
structure Ink where
  code : String

namespace Ink

/-- A text between the sequence that sets the ink and the one that resets it. -/
def paint (ink : Ink) (text : String) : String :=
  "\x1b[" ++ ink.code ++ "m" ++ text ++ "\x1b[0m"

/-- The terminal's red. -/
def red : Ink := ⟨"31"⟩

/-- The terminal's yellow. -/
def yellow : Ink := ⟨"33"⟩

/-- The terminal's blue. -/
def blue : Ink := ⟨"34"⟩

/-- The terminal's magenta. -/
def magenta : Ink := ⟨"35"⟩

/-- The terminal's cyan. -/
def cyan : Ink := ⟨"36"⟩

/-- The ink of line numbers and frames. -/
def margin : Ink := ⟨"38;5;246"⟩

/-- The ink of the frame beside lines without a number. -/
def unnumbered : Ink := ⟨"38;5;240"⟩

/-- The ink of source text outside a label. -/
def plain : Ink := ⟨"38;5;249"⟩

/-- The ink of the word that announces a note. -/
def note : Ink := ⟨"38;5;115"⟩

end Ink

end Calculator
