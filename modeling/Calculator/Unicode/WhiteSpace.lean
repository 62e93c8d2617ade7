import Calculator.Unicode.Ranges

/-!
# White space

The Unicode property *White_Space*, which has twenty-five members.
-/

namespace Calculator.Unicode

/-- Code points of *White_Space*. -/
def whiteSpace : Ranges :=
  [ (0x9, 0xD), (0x20, 0x20), (0x85, 0x85), (0xA0, 0xA0), (0x1680, 0x1680), (0x2000, 0x200A),
    (0x2028, 0x2029), (0x202F, 0x202F), (0x205F, 0x205F), (0x3000, 0x3000) ]

/-- Whether a character is *White_Space*. -/
def isWhitespace (c : Char) : Bool :=
  whiteSpace.covers c.toNat

/-- Characters without the white space at their end. -/
def trimEnd (text : List Char) : List Char :=
  (text.reverse.dropWhile isWhitespace).reverse

/-- A text without the white space at its two ends. -/
def trim (text : String) : String :=
  String.ofList (trimEnd (text.toList.dropWhile isWhitespace))

end Calculator.Unicode
