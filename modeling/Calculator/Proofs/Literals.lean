import Calculator.Proofs.Failure
import Calculator.Proofs.Residue
import Calculator.Proofs.RoundTrip
import Calculator.Tree.Display

/-!
# Literals and the integers they stand for

A scanner takes a run of digits as one token up to the largest integer, whatever its length, and
`Tree.integer` takes a sign as well, down to the least integer. So every integer is the value of its
own numeral, but for the least, whose digits exceed the largest: see `literals_of_numerals`.
-/

namespace Calculator

/-! ### Digits in a text -/

/-- The token of a run of digits from an offset on. -/
def Token.ofDigits (digits : List Char) (start : Nat) : Token :=
  ⟨.integer, String.ofList digits, ⟨start, start + digits.length⟩⟩

namespace Scanner

/-- Ahead are digits behind white space, if any, and no digit goes on with them. -/
structure AtDigits (scanner : Scanner) (gap digits rest : List Char) : Prop where
  ahead : scanner.rest = gap ++ (digits ++ rest)
  blank : ∀ c ∈ gap, Unicode.isWhitespace c = true
  some : digits ≠ []
  all : ∀ c ∈ digits, c.isDigit = true
  ended : ∀ c ∈ rest.head?, c.isDigit = false

section
variable {scanner : Scanner} {gap digits rest : List Char} (h : scanner.AtDigits gap digits rest)
include h

theorem AtDigits.next_eq : scanner.next =
    (⟨digits ++ rest, scanner.position + gap.length⟩ : Scanner).integer := by
  obtain ⟨c, others, rfl⟩ := List.exists_cons_of_ne_nil h.some
  have digit := h.all c List.mem_cons_self
  have before : scanner = ⟨gap ++ (c :: others ++ rest), scanner.position⟩ := by rw [← h.ahead]
  rw [before, next_blanks h.blank, next, List.cons_append,
    past_of_head (isWhitespace_of_isDigit digit), tokenHere]
  exact if_pos digit

theorem AtDigits.next_cases :
    let token := Token.ofDigits digits (scanner.position + gap.length)
    (Nat.ofDigitChars 10 digits 0 < 2 ^ 63 ∧ scanner.next = .ok token ⟨rest, token.span.stop⟩) ∨
      (2 ^ 63 ≤ Nat.ofDigitChars 10 digits 0 ∧
        scanner.next = .error ⟨.malformedInteger token.lexeme, token.span⟩
          ⟨rest, token.span.stop⟩) := by
  have most : Int64.maxValue.toInt = 2 ^ 63 - 1 := by decide
  have read := Numeral.read?_of_digits h.some h.all
  rw [h.next_eq, integer, run_run h.all h.ended, runSpan_run h.all h.ended,
    past_run h.all h.ended]
  split at read
  · refine .inl ⟨by omega, ?_⟩
    simp only [read]
    rfl
  · refine .inr ⟨by omega, ?_⟩
    simp only [read]
    rfl

theorem AtDigits.next_iff :
    let token := Token.ofDigits digits (scanner.position + gap.length)
    let after : Scanner := ⟨rest, token.span.stop⟩
    (scanner.next = .ok token after ↔ Nat.ofDigitChars 10 digits 0 < 2 ^ 63) ∧
      (scanner.next = .error ⟨.malformedInteger token.lexeme, token.span⟩ after ↔
        2 ^ 63 ≤ Nat.ofDigitChars 10 digits 0) := by
  intro token after
  rcases h.next_cases with ⟨small, scanned⟩ | ⟨large, scanned⟩
  · exact ⟨iff_of_true scanned small, iff_of_false (by simp [scanned]) (Nat.not_le.mpr small)⟩
  · exact ⟨iff_of_false (by simp [scanned]) (Nat.not_lt.mpr large), iff_of_true scanned large⟩

end

end Scanner

/-! ### The texts of tokens -/

namespace Tree

theorem integer_eq_ok_iff {token : Token} {tree : Tree} :
    integer token = .ok tree ↔
      ∃ value, tree = .literal value token ∧ Numeral.Denotes token.lexeme.toList value.toInt := by
  simp only [← Numeral.read?_eq_some_iff]
  unfold integer
  cases read : Numeral.read? token.lexeme with
  | some value => simp [eq_comm]
  | none => simp

theorem integer_of_denotes {token : Token} {number : Int}
    (written : Numeral.Denotes token.lexeme.toList number) (range : InRange number) :
    integer token = .ok (.literal (.ofInt number) token) := by
  have whole : (Int64.ofInt number).toInt = number := Int64.toInt_ofInt_of_le range.1 range.2
  rw [integer_eq_ok_iff]
  exact ⟨_, rfl, whole.symm ▸ written⟩

theorem exists_integer_iff {token : Token} :
    (∃ tree, integer token = .ok tree) ↔
      ∃ number, Numeral.Denotes token.lexeme.toList number ∧ InRange number := by
  constructor
  · intro ⟨tree, read⟩
    obtain ⟨value, _, written⟩ := integer_eq_ok_iff.mp read
    exact ⟨value.toInt, written, value.le_toInt, value.toInt_lt⟩
  · intro ⟨number, written, range⟩
    exact ⟨_, integer_of_denotes written range⟩

theorem integer_ofDigits {digits : List Char} (some : digits ≠ [])
    (all : ∀ c ∈ digits, c.isDigit = true) (small : Nat.ofDigitChars 10 digits 0 < 2 ^ 63)
    (start : Nat) :
    ∃ value, integer (.ofDigits digits start) = .ok (.literal value (.ofDigits digits start)) ∧
      value.toInt = Nat.ofDigitChars 10 digits 0 := by
  have written := Numeral.Denotes.unsigned some all
  have range : InRange (Nat.ofDigitChars 10 digits 0) := by
    unfold InRange
    omega
  refine ⟨_, integer_of_denotes ?_ range, Int64.toInt_ofInt_of_le range.1 range.2⟩
  rwa [Token.ofDigits, String.toList_ofList]

theorem integer_of_display {value : Int64} {token other : Token}
    (written : token.lexeme = (literal value other).display) :
    integer token = .ok (.literal value token) := by
  rw [integer_eq_ok_iff, written]
  exact ⟨value, rfl, Numeral.denotes_write value⟩

end Tree

/-! ### The values of numerals -/

section
variable {tree : Tree} {value : Int64} {env : Environment}

theorem evaluate_of_readsBack {mode : Mode} (h : tree.ReadsBack mode)
    (has : tree.evaluate env = .ok value env) : evaluate mode tree.write env = .ok value env := by
  have same := congrFun h.2 env
  unfold EStateM.adaptExcept at same
  rw [has] at same
  cases ran : evaluate mode tree.write env with
  | ok result after =>
    rw [ran] at same
    obtain ⟨rfl, rfl⟩ := EStateM.Result.ok.inj same
    rfl
  | error fault after =>
    rw [ran] at same
    cases same

theorem evaluate_singleton (span : Span) (has : tree.execute env = .ok value env) :
    (Tree.program [tree] span).evaluate env = .ok value env := by
  have ran : Tree.executeAll [tree] env = .ok (some value) env := by
    rw [Tree.executeAll, Tree.foldlM_of_ok has]
    rfl
  rw [Tree.evaluate_program, ran]

theorem evaluate_write (writable : tree.WritableExpression)
    (has : tree.execute env = .ok value env) (mode : Mode) :
    evaluate mode tree.write env = .ok value env := by
  have statement := Tree.WritableStatement.expression writable
  cases mode with
  | statement =>
    apply evaluate_of_readsBack (readsBack_of_statement statement)
    rw [Tree.evaluate_of_kind (by cases writable <;> simp [Tree.kind]), has]
  | program =>
    have all := List.forall_mem_singleton.mpr statement
    have read := evaluate_of_readsBack (readsBack_of_program ⟨0, 0⟩ all)
      (evaluate_singleton ⟨0, 0⟩ has)
    rwa [Tree.write, Tree.writeAll] at read

end

theorem write_unary_minus {value : Int64} (least : value ≠ .minValue) (signed : value.toInt < 0) :
    0 ≤ -value ∧
      (Tree.unary .minus (.named "") (.literal (-value) (.named ""))).write =
        Numeral.write value := by
  have floor : Int64.minValue.toInt = -2 ^ 63 := by decide
  have low := value.le_toInt
  have apart : value.toInt ≠ -2 ^ 63 := by
    rwa [← floor, ne_eq, Int64.toInt_inj]
  have negated : (-value).toInt = -value.toInt := by
    rw [Int64.toInt_neg]
    exact residue_of_inRange (by unfold InRange; omega)
  have unsigned : 0 ≤ (-value).toInt := by omega
  refine ⟨?_, ?_⟩
  · rwa [Int64.le_iff_toInt_le, Int64.toInt_zero]
  · have written : (Tree.literal (-value) (.named "")).write = Numeral.write (-value) := rfl
    rw [Tree.write, Tree.enclose, written, Numeral.write_of_nonneg unsigned, negated,
      Int.natAbs_neg, Numeral.write_of_neg signed]
    rfl

theorem evaluate_numeral {value : Int64} (least : value ≠ .minValue) (mode : Mode)
    (env : Environment) : evaluate mode (Numeral.write value) env = .ok value env := by
  -- The minus of a numeral is a token of its own, so the text is the negation of a literal.
  by_cases signed : value.toInt < 0
  · obtain ⟨unsigned, written⟩ := write_unary_minus least signed
    have has : (Tree.unary .minus (.named "") (.literal (-value) (.named ""))).execute env =
        .ok (- -value) env := rfl
    rw [Int64.neg_neg] at has
    have read := evaluate_write (.unary (.literal unsigned)) has mode
    rwa [written] at read
  · have unsigned : 0 ≤ value := by
      rw [Int64.le_iff_toInt_le, Int64.toInt_zero]
      exact Int.not_lt.mp signed
    have has : (Tree.literal value (.named "")).execute env = .ok value env := rfl
    have read := evaluate_write (.literal unsigned) has mode
    rwa [Tree.write] at read

theorem evaluate_numeral_minValue (mode : Mode) (env : Environment) :
    evaluate mode (Numeral.write .minValue) env =
      .error ⟨.malformedInteger "9223372036854775808", ⟨1, 20⟩⟩ env := by
  apply evaluate_of_error
  cases mode with
  | statement => rfl
  | program => rfl

/-- Digits are one token if the number that they write is at most the largest integer, and the
literal of that token is that number. The token of a literal may have a sign, and every literal is
read from its prefix form. Evaluating the numeral of an integer gives it back, but for the least. -/
theorem literals_of_numerals :
    (∀ {scanner : Scanner} {gap digits rest : List Char}, scanner.AtDigits gap digits rest →
      let token := Token.ofDigits digits (scanner.position + gap.length)
      let after : Scanner := ⟨rest, token.span.stop⟩
      let number := Nat.ofDigitChars 10 digits 0
      (scanner.next = .ok token after ↔ number < 2 ^ 63) ∧
        (scanner.next = .error ⟨.malformedInteger token.lexeme, token.span⟩ after ↔
          2 ^ 63 ≤ number) ∧
        (number < 2 ^ 63 →
          ∃ value, Tree.integer token = .ok (.literal value token) ∧ value.toInt = number)) ∧
    (∀ token : Token,
      (∀ tree, Tree.integer token = .ok tree ↔
        ∃ value, tree = .literal value token ∧
          Numeral.Denotes token.lexeme.toList value.toInt) ∧
      ((∃ tree, Tree.integer token = .ok tree) ↔
        ∃ number, Numeral.Denotes token.lexeme.toList number ∧ InRange number) ∧
      ∀ value other, token.lexeme = (Tree.literal value other).display →
        Tree.integer token = .ok (.literal value token)) ∧
    ∀ mode env,
      (∀ value, value ≠ Int64.minValue →
        evaluate mode (Numeral.write value) env = .ok value env) ∧
      evaluate mode (Numeral.write .minValue) env =
        .error ⟨.malformedInteger "9223372036854775808", ⟨1, 20⟩⟩ env := by
  refine ⟨?_, ?_, ?_⟩
  · intro scanner gap digits rest h token after number
    obtain ⟨accepted, refused⟩ := h.next_iff
    exact ⟨accepted, refused, fun small => Tree.integer_ofDigits h.some h.all small _⟩
  · intro token
    exact ⟨fun tree => Tree.integer_eq_ok_iff, Tree.exists_integer_iff,
      fun value other => Tree.integer_of_display⟩
  · intro mode env
    exact ⟨fun value least => evaluate_numeral least mode env, evaluate_numeral_minValue mode env⟩

/-- Leading zeros in front of the largest integer and of the number behind it, a sign that the
scanner would take as a token of its own, and the integers next to the least. -/
theorem literals_of_numerals_at_limits :
    (⟨"\t009223372036854775807-".toList, 5⟩ : Scanner).next =
        .ok ⟨.integer, "009223372036854775807", ⟨6, 27⟩⟩ ⟨['-'], 27⟩ ∧
      (∃ value, Tree.integer ⟨.integer, "009223372036854775807", ⟨6, 27⟩⟩ =
          .ok (.literal value ⟨.integer, "009223372036854775807", ⟨6, 27⟩⟩) ∧
        value.toInt = 2 ^ 63 - 1) ∧
      (⟨"09223372036854775808x".toList, 0⟩ : Scanner).next =
        .error ⟨.malformedInteger "09223372036854775808", ⟨0, 20⟩⟩ ⟨['x'], 20⟩ ∧
      Tree.integer ⟨.integer, "-9223372036854775808", ⟨0, 20⟩⟩ =
        .ok (.literal .minValue ⟨.integer, "-9223372036854775808", ⟨0, 20⟩⟩) ∧
      ∀ mode env, evaluate mode "-9223372036854775807" env = .ok (-9223372036854775807) env := by
  obtain ⟨digits, tokens, values⟩ := literals_of_numerals
  have blank : Unicode.isWhitespace '\t' = true := by decide +kernel
  have most : (⟨"\t009223372036854775807-".toList, 5⟩ : Scanner).AtDigits ['\t']
      "009223372036854775807".toList ['-'] :=
    ⟨rfl, by simp [blank], by decide, List.all_eq_true.mp (by decide), by simp⟩
  have excess : (⟨"09223372036854775808x".toList, 0⟩ : Scanner).AtDigits []
      "09223372036854775808".toList ['x'] :=
    ⟨rfl, by simp, by decide, List.all_eq_true.mp (by decide), by simp⟩
  obtain ⟨accepted, _, stored⟩ := digits most
  refine ⟨accepted.mpr (by decide +kernel), ?_, (digits excess).2.1.mpr (by decide +kernel), ?_, ?_⟩
  · obtain ⟨value, read, whole⟩ := stored (by decide +kernel)
    exact ⟨value, read, whole.trans (by decide +kernel)⟩
  · exact (tokens _).2.2 .minValue (.named "") (by decide +kernel)
  · intro mode env
    have least : (-9223372036854775807 : Int64) ≠ .minValue := by decide
    have read := (values mode env).1 _ least
    have written : Numeral.write (-9223372036854775807) = "-9223372036854775807" := by
      decide +kernel
    rwa [written] at read

end Calculator
