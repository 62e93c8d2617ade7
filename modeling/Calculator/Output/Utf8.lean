/-!
# Text as bytes

The UTF-8 form of texts, and the lines of a stream of bytes.
-/

namespace Calculator.Utf8

/-- The UTF-8 form of a text. -/
def encode (text : String) : List UInt8 :=
  text.toList.flatMap String.utf8EncodeChar

/-- The text whose UTF-8 form the bytes are, if there is one. -/
def decode? (bytes : List UInt8) : Option String :=
  String.fromUTF8? bytes.toByteArray

/-- The byte that ends a line. -/
def lineFeed : UInt8 :=
  0x0a

/-- The lines of a stream, each with the byte that ends it. The last one may lack it. -/
def lines : List UInt8 → List (List UInt8)
  | [] => []
  | byte :: rest =>
    if byte = lineFeed then [byte] :: lines rest
    else match lines rest with
      | [] => [[byte]]
      | line :: others => (byte :: line) :: others

@[simp]
theorem encode_empty : encode "" = [] := rfl

@[simp]
theorem encode_append (first second : String) :
    encode (first ++ second) = encode first ++ encode second := by
  simp [encode]

theorem flatten_lines (bytes : List UInt8) : (lines bytes).flatten = bytes := by
  fun_induction lines bytes with
  | case1 => rfl
  | case2 rest ih => simp [ih]
  | case3 byte rest _ empty ih =>
    rw [empty] at ih
    simp [← ih]
  | case4 byte rest _ line others cut ih =>
    rw [cut] at ih
    simp [← ih]

end Calculator.Utf8
