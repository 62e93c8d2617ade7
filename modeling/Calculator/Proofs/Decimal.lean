import Calculator.Numeral

/-!
# Numbers and their numerals

`Denotes` says which number a text writes, digit by digit and whatever the range. A text is read as
the number it denotes where that is a 64-bit integer, see `read?_eq_some_iff`, and what `write` writes
of an integer denotes it, so `read?_write` reads every integer back.
-/

namespace Calculator.Numeral

/-- The number that a run of digits behind at most one sign writes. -/
inductive Denotes : List Char → Int → Prop where
  | unsigned {digits : List Char} (some : digits ≠ []) (all : ∀ c ∈ digits, c.isDigit = true) :
      Denotes digits (Nat.ofDigitChars 10 digits 0)
  | plus {digits : List Char} (some : digits ≠ []) (all : ∀ c ∈ digits, c.isDigit = true) :
      Denotes ('+' :: digits) (Nat.ofDigitChars 10 digits 0)
  | minus {digits : List Char} (some : digits ≠ []) (all : ∀ c ∈ digits, c.isDigit = true) :
      Denotes ('-' :: digits) (-(Nat.ofDigitChars 10 digits 0 : Int))

theorem Denotes.ne_nil {text : List Char} {number : Int} (h : Denotes text number) : text ≠ [] := by
  cases h with
  | unsigned some => exact some
  | plus | minus => exact List.cons_ne_nil _ _

/-! ### Reading -/

theorem natural?_eq_some_iff {text : List Char} {number : Nat} :
    natural? text = some number ↔
      text ≠ [] ∧ (∀ c ∈ text, c.isDigit = true) ∧ Nat.ofDigitChars 10 text 0 = number := by
  rw [natural?, Option.ite_none_right_eq_some, Option.some.injEq, List.all_eq_true, and_assoc]

theorem natural?_of_digits {digits : List Char} (some : digits ≠ [])
    (all : ∀ c ∈ digits, c.isDigit = true) :
    natural? digits = .some (Nat.ofDigitChars 10 digits 0) :=
  natural?_eq_some_iff.mpr ⟨some, all, rfl⟩

theorem integer?_of_digits {digits : List Char} (some : digits ≠ [])
    (all : ∀ c ∈ digits, c.isDigit = true) :
    integer? digits = .some (Nat.ofDigitChars 10 digits 0 : Int) := by
  obtain ⟨c, rest, rfl⟩ := List.exists_cons_of_ne_nil some
  have digit : c.isDigit = true := all c List.mem_cons_self
  unfold integer?
  split
  · rename_i same
    obtain ⟨rfl, _⟩ := List.cons.inj same
    cases digit
  · rename_i same
    obtain ⟨rfl, _⟩ := List.cons.inj same
    cases digit
  · rw [natural?_of_digits some all]
    rfl

theorem denotes_of_integer? {text : List Char} {number : Int} (h : integer? text = some number) :
    Denotes text number := by
  unfold integer? at h
  split at h
  all_goals
    obtain ⟨value, read, rfl⟩ := Option.map_eq_some_iff.mp h
    obtain ⟨some, all, rfl⟩ := natural?_eq_some_iff.mp read
  · exact .plus some all
  · exact .minus some all
  · exact .unsigned some all

theorem integer?_eq_some_iff {text : List Char} {number : Int} :
    integer? text = some number ↔ Denotes text number := by
  refine ⟨denotes_of_integer?, ?_⟩
  intro h
  cases h with
  | unsigned some all => exact integer?_of_digits some all
  | plus some all | minus some all =>
    rw [integer?, natural?_of_digits some all]
    rfl

/-- A run of digits has a value unless the number it writes exceeds the largest integer. -/
theorem read?_of_digits {digits : List Char} (some : digits ≠ [])
    (all : ∀ c ∈ digits, c.isDigit = true) :
    read? (String.ofList digits) =
      if (Nat.ofDigitChars 10 digits 0 : Int) ≤ Int64.maxValue.toInt then
        .some (Int64.ofInt (Nat.ofDigitChars 10 digits 0))
      else none := by
  have low : Int64.minValue.toInt ≤ (Nat.ofDigitChars 10 digits 0 : Int) := by
    have : Int64.minValue.toInt ≤ 0 := by decide
    omega
  unfold read?
  rw [String.toList_ofList, integer?_of_digits some all]
  show (if _ ∧ _ then _ else _) = _
  simp only [low, true_and]

theorem toInt_of_read? {text : String} {value : Int64} (h : read? text = some value) :
    integer? text.toList = some value.toInt := by
  unfold read? at h
  obtain ⟨number, parsed, h⟩ := Option.bind_eq_some_iff.mp h
  split at h
  · rename_i range
    cases h
    rw [parsed, Int64.toInt_ofInt_of_le range.1 (Int.lt_add_one_of_le range.2)]
  · cases h

theorem read?_eq_some_iff {text : String} {value : Int64} :
    read? text = some value ↔ Denotes text.toList value.toInt := by
  rw [← integer?_eq_some_iff]
  refine ⟨toInt_of_read?, ?_⟩
  intro parsed
  have range := And.intro value.minValue_le_toInt value.toInt_le
  rw [read?, parsed, Option.bind_eq_bind, Option.bind_some, if_pos range, Int64.ofInt_toInt]

/-! ### Writing -/

theorem digits_writeNatural (number : Nat) :
    (writeNatural number).toList ≠ [] ∧
      ∀ c ∈ (writeNatural number).toList, c.isDigit = true := by
  rw [writeNatural, String.toList_ofList]
  refine ⟨Nat.toDigits_ne_nil, ?_⟩
  intro c member
  exact Nat.isDigit_of_mem_toDigits (by decide) (by decide) member

theorem ofDigitChars_writeNatural (number : Nat) :
    Nat.ofDigitChars 10 (writeNatural number).toList 0 = number := by
  rw [writeNatural, String.toList_ofList, Nat.ofDigitChars_toDigits (by decide) (by decide)]

theorem write_of_nonneg {value : Int64} (unsigned : 0 ≤ value.toInt) :
    write value = writeNatural value.toInt.natAbs := by
  rw [write, if_neg (Int.not_lt.mpr unsigned)]

theorem write_of_neg {value : Int64} (signed : value.toInt < 0) :
    write value = "-" ++ writeNatural value.toInt.natAbs := by
  rw [write, if_pos signed]

theorem denotes_write (value : Int64) : Denotes (write value).toList value.toInt := by
  obtain ⟨some, all⟩ := digits_writeNatural value.toInt.natAbs
  by_cases signed : value.toInt < 0
  · have written := Denotes.minus some all
    rw [ofDigitChars_writeNatural, Int.ofNat_natAbs_of_nonpos (Int.le_of_lt signed),
      Int.neg_neg] at written
    rw [write_of_neg signed, String.toList_append]
    exact written
  · have unsigned := Int.not_lt.mp signed
    have written := Denotes.unsigned some all
    rw [ofDigitChars_writeNatural, Int.natAbs_of_nonneg unsigned] at written
    rw [write_of_nonneg unsigned]
    exact written

/-- What is written is read as what it was. -/
theorem read?_write (value : Int64) : read? (write value) = some value :=
  read?_eq_some_iff.mpr (denotes_write value)

theorem write_inj {value other : Int64} : write value = write other ↔ value = other := by
  refine ⟨fun same => ?_, congrArg write⟩
  have read := read?_write value
  rw [same, read?_write] at read
  exact (Option.some.inj read).symm

end Calculator.Numeral
