import Calculator.Proofs.Calls

/-!
# Looking ahead and scanning ahead

The look ahead passes over white space and digits by itself, and a scanner can be called again
behind a number that is out of range. By `peek_equal_iff` the two come to an `=` at the same places:
the one sees it just where the calls answer with it behind numbers only.
-/

namespace Calculator.Scanner

/-- The answer is a number, in range or not. -/
def isNumber : Except Fault Token → Bool
  | .ok token => token.kind = .integer
  | .error ⟨.malformedInteger _, _⟩ => true
  | .error _ => false

/-- The answer is the token of an `=`. -/
def isEqual : Except Fault Token → Bool
  | .ok token => token.kind = .equal
  | .error _ => false

section
variable {scanner : Scanner}

/-! ### One call -/

theorem takes_of_isNumber (number : isNumber scanner.answer = true) :
    takes scanner.answer = true := by
  cases scanned : scanner.next with
  | ok token after =>
    rw [answer_of_ok scanned] at number ⊢
    have kind : token.kind = .integer := of_decide_eq_true number
    simp [takes, kind]
  | error fault after =>
    rw [answer_of_error scanned] at number ⊢
    have found := finds_of_next scanned
    cases found with
    | excess => rfl
    | unknown => cases number

/-- Behind a number the same is seen as in front of it. -/
theorem peek_beyond (number : isNumber scanner.answer = true) :
    scanner.beyond.peek 0 = scanner.peek 0 := by
  cases scanned : scanner.next with
  | ok token after =>
    rw [answer_of_ok scanned] at number
    rw [beyond_of_ok scanned]
    rcases peek_of_next scanned with ⟨_, same⟩ | ⟨other, _⟩
    · exact same.symm
    · exact absurd (of_decide_eq_true number) other
  | error fault after =>
    rw [answer_of_error scanned] at number
    rw [beyond_of_error scanned, ← peek_past_whitespace scanner]
    have found := finds_of_next scanned
    cases found with
    | excess => exact peek_past _ fun c digit => by rw [digit, Bool.or_true]
    | unknown => cases number

/-- Where no number comes next, an `=` is seen if it does. -/
theorem peek_equal_of_not_isNumber (other : isNumber scanner.answer = false) :
    scanner.peek 0 = some '=' ↔ isEqual scanner.answer = true := by
  cases scanned : scanner.next with
  | ok token after =>
    rw [answer_of_ok scanned] at other ⊢
    rcases peek_of_next scanned with ⟨integer, _⟩ | ⟨_, seen⟩
    · exact absurd integer (of_decide_eq_false other)
    · rw [seen]
      exact decide_eq_true_iff.symm
  | error fault after =>
    rw [answer_of_error scanned] at other ⊢
    have found := finds_of_next scanned
    cases found with
    | excess => cases other
    | unknown ahead digit _ symbol =>
      rw [← peek_past_whitespace, peek_of_rest ahead (head?_past _ ahead) digit]
      refine iff_of_false ?_ Bool.false_ne_true
      rintro ⟨⟩
      cases symbol

theorem not_isNumber_of_isEqual {answer : Except Fault Token} (equal : isEqual answer = true) :
    isNumber answer = false := by
  cases answer with
  | ok token =>
    have kind : token.kind = .equal := of_decide_eq_true equal
    simp [isNumber, kind]
  | error fault => cases equal

/-! ### Calls one after the other -/

/-- So many calls answer with numbers, and the next one with an `=`. -/
def EqualBehind (scanner : Scanner) (numbers : Nat) : Prop :=
  (∀ earlier < numbers, isNumber (beyond^[earlier] scanner).answer = true) ∧
    isEqual (beyond^[numbers] scanner).answer = true

theorem equalBehind_zero : scanner.EqualBehind 0 ↔ isEqual scanner.answer = true := by
  simp [EqualBehind]

theorem equalBehind_succ {numbers : Nat} :
    scanner.EqualBehind (numbers + 1) ↔
      isNumber scanner.answer = true ∧ scanner.beyond.EqualBehind numbers := by
  simp only [EqualBehind, Function.iterate_succ_apply, Nat.forall_lt_succ_left', and_assoc]
  rfl

theorem peek_of_equalBehind {numbers : Nat} (h : scanner.EqualBehind numbers) :
    scanner.peek 0 = some '=' := by
  induction numbers generalizing scanner with
  | zero =>
    have equal := equalBehind_zero.mp h
    exact (peek_equal_of_not_isNumber (not_isNumber_of_isEqual equal)).mpr equal
  | succ numbers ih =>
    obtain ⟨number, behind⟩ := equalBehind_succ.mp h
    rw [← peek_beyond number]
    exact ih behind

theorem exists_equalBehind (seen : scanner.peek 0 = some '=') :
    ∃ numbers, scanner.EqualBehind numbers := by
  -- Each number takes characters, so the calls do not go on with numbers for ever.
  induction size : scanner.rest.length using Nat.strongRecOn generalizing scanner with
  | ind _ ih =>
    cases number : isNumber scanner.answer with
    | false =>
      exact ⟨0, equalBehind_zero.mpr ((peek_equal_of_not_isNumber number).mp seen)⟩
    | true =>
      have shorter : scanner.beyond.rest.length < scanner.rest.length := by
        have moved := lt_beyond (takes_of_isNumber number)
        have whole := (passes_beyond scanner).extent_eq
        simp only [extent] at whole
        omega
      obtain ⟨numbers, behind⟩ := ih _ (size ▸ shorter) ((peek_beyond number).trans seen) rfl
      exact ⟨numbers + 1, equalBehind_succ.mpr ⟨number, behind⟩⟩

end

/-- Wherever a scanner stands, as it may behind a name, an `=` is seen ahead if and only if its
calls answer with any number of numbers, in range or not, and then with that `=`. Where the next
answer is no number, that is to say if and only if it is the `=`. -/
theorem peek_equal_iff (scanner : Scanner) :
    (scanner.peek 0 = some '=' ↔
      ∃ numbers, (∀ earlier < numbers, isNumber (beyond^[earlier] scanner).answer = true) ∧
        isEqual (beyond^[numbers] scanner).answer = true) ∧
    (isNumber scanner.answer = false →
      (scanner.peek 0 = some '=' ↔ isEqual scanner.answer = true)) :=
  ⟨⟨exists_equalBehind, fun ⟨_, behind⟩ => peek_of_equalBehind behind⟩,
    peek_equal_of_not_isNumber⟩

/-- Behind one name come a number, one out of range, and the `=` that is seen across them. Behind
the other comes a sign, so no `=` is seen. -/
theorem peek_equal_iff_of_numbers :
    (ofSource "x 12 99999999999999999999 = 3").beyond.peek 0 = some '=' ∧
      isNumber (ofSource "x + 12 = 3").beyond.answer = false ∧
      (ofSource "x + 12 = 3").beyond.peek 0 ≠ some '=' := by
  have sign : isNumber (ofSource "x + 12 = 3").beyond.answer = false := by decide +kernel
  refine ⟨(peek_equal_iff _).1.mpr ⟨2, ?_, ?_⟩, sign, ?_⟩
  · decide +kernel
  · decide +kernel
  · rw [ne_eq, (peek_equal_iff _).2 sign]
    decide +kernel

end Calculator.Scanner
