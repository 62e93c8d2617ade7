/-!
# Decimal numerals

Reading and writing 64-bit integers in decimal. A numeral that is read has at most one sign and any
number of leading zeros; one that is written has a minus sign or none, and no leading zero.
-/

namespace Calculator.Numeral

/-- The number that a non-empty run of digits writes. -/
def natural? (text : List Char) : Option Nat :=
  if text ≠ [] ∧ text.all Char.isDigit then some (Nat.ofDigitChars 10 text 0) else none

/-- The number that a run of digits behind at most one sign writes. -/
def integer? : List Char → Option Int
  | '+' :: digits => (natural? digits).map Int.ofNat
  | '-' :: digits => (natural? digits).map fun value => -Int.ofNat value
  | digits => (natural? digits).map Int.ofNat

/-- The 64-bit integer that a text writes, if it writes one and the number is in range. -/
def read? (text : String) : Option Int64 := do
  let value ← integer? text.toList
  if Int64.minValue.toInt ≤ value ∧ value ≤ Int64.maxValue.toInt then some (Int64.ofInt value)
  else none

/-- The decimal text of a natural number. -/
def writeNatural (value : Nat) : String :=
  String.ofList (Nat.toDigits 10 value)

/-- The decimal text of an integer. -/
def write (value : Int64) : String :=
  let digits := writeNatural value.toInt.natAbs
  if value.toInt < 0 then "-" ++ digits else digits

end Calculator.Numeral
