import Mathlib.Data.List.TakeWhile
import Calculator.Proofs.Relocation
import Calculator.Proofs.Stream

/-!
# Scanning a part of a text

A scanner looks no further than the character that ends a token, and at no position. So a part of a
text, cut at a character that ends all words and numbers, gives the tokens that it gives inside the
whole text, at offsets of its own: `yields_append_semicolon` and `yields_of_shift`.
-/

namespace Calculator.Scanner

theorem eq_of_finds {here : Scanner} {result : EStateM.Result Fault Scanner Token}
    (h : Finds here result) : here.tokenHere = result := by
  cases h with
  | final ahead => simp [tokenHere, ahead]
  | number ahead digit read => simp [tokenHere, ahead, digit, integer, read]
  | excess ahead digit read => simp [tokenHere, ahead, digit, integer, read]
  | word ahead digit start => simp [tokenHere, ahead, digit, start, word]
  | symbol ahead digit start symbol => simp [tokenHere, ahead, digit, start, symbol]
  | unknown ahead digit start symbol => simp [tokenHere, ahead, digit, start, symbol]

/-! ### The end of the text -/

theorem next_of_past_nil {scanner : Scanner}
    (ahead : (scanner.past Unicode.isWhitespace).rest = []) :
    scanner.next = .ok (.atEnd scanner.extent) ⟨[], scanner.extent⟩ := by
  have found : scanner.next = .ok (.atEnd _) _ := eq_of_finds (.final ahead)
  obtain ⟨same, same'⟩ := next_atEnd found rfl
  rwa [same, same'] at found

theorem next_of_blank {scanner : Scanner}
    (blank : ∀ c ∈ scanner.rest, Unicode.isWhitespace c = true) :
    scanner.next = .ok (.atEnd scanner.extent) ⟨[], scanner.extent⟩ :=
  next_of_past_nil (List.dropWhile_eq_nil_iff.mpr blank)

theorem blank_of_next {scanner after : Scanner} {token : Token}
    (h : scanner.next = .ok token after) (ends : token.kind = .endOfInput) :
    ∀ c ∈ scanner.rest, Unicode.isWhitespace c = true := by
  have found := finds_of_next h
  exact List.dropWhile_eq_nil_iff.mp (found.kind_eq_endOfInput ends).1

/-! ### Another position -/

/-- The scanner with other characters in front of its text, as many as given. -/
def shift (scanner : Scanner) (distance : Nat) : Scanner :=
  ⟨scanner.rest, scanner.position + distance⟩

def shiftResult (distance : Nat) :
    EStateM.Result Fault Scanner Token → EStateM.Result Fault Scanner Token
  | .ok token after => .ok (token.relocate (· + distance)) (after.shift distance)
  | .error fault after => .error (fault.relocate (· + distance)) (after.shift distance)

theorem past_shift (scanner : Scanner) (distance : Nat) (test : Char → Bool) :
    (scanner.shift distance).past test = (scanner.past test).shift distance := by
  simp only [past, shift, Nat.add_right_comm]

theorem runSpan_shift (scanner : Scanner) (distance : Nat) (test : Char → Bool) :
    (scanner.shift distance).runSpan test = (scanner.runSpan test).relocate (· + distance) := by
  rw [runSpan, past_shift]
  rfl

theorem single_shift (offset distance : Nat) :
    Span.single (offset + distance) = (Span.single offset).relocate (· + distance) := by
  simp only [Span.single, Span.relocate, Nat.add_right_comm]

theorem finds_shift {here : Scanner} {result : EStateM.Result Fault Scanner Token}
    (distance : Nat) (h : Finds here result) :
    Finds (here.shift distance) (shiftResult distance result) := by
  cases h with
  | final ahead =>
    rw [shiftResult, Token.atEnd, Token.relocate, ← single_shift]
    exact .final ahead
  | number ahead digit read =>
    have found : Finds (here.shift distance) _ := .number ahead digit read
    rwa [runSpan_shift, past_shift] at found
  | excess ahead digit read =>
    have found : Finds (here.shift distance) _ := .excess ahead digit read
    rwa [runSpan_shift, past_shift] at found
  | word ahead digit start =>
    have found : Finds (here.shift distance) _ := .word ahead digit start
    rwa [runSpan_shift, past_shift] at found
  | symbol ahead digit start symbol =>
    simp only [shiftResult, shift, Token.relocate, ← single_shift, Nat.add_right_comm _ 1]
    exact .symbol ahead digit start symbol
  | unknown ahead digit start symbol =>
    rw [shiftResult, Fault.relocate, ← single_shift]
    exact .unknown ahead digit start symbol

theorem next_shift (scanner : Scanner) (distance : Nat) :
    (scanner.shift distance).next = shiftResult distance scanner.next := by
  rw [next, past_shift]
  exact eq_of_finds (finds_shift distance (finds_of_next rfl))

theorem yields_shift {scanner after : Scanner} {tokens : List Token}
    (run : scanner.Yields tokens after) (distance : Nat) :
    (scanner.shift distance).Yields (tokens.map (Token.relocate (· + distance)))
      (after.shift distance) := by
  induction run with
  | nil => exact .nil _
  | cons scanned _ ih => exact .cons (by rw [next_shift, scanned, shiftResult]) ih

theorem yields_of_shift {scanner after : Scanner} {distance : Nat} {tokens : List Token}
    (run : (scanner.shift distance).Yields tokens after) :
    ∃ original final, tokens = original.map (Token.relocate (· + distance)) ∧
      scanner.Yields original final := by
  generalize moved : scanner.shift distance = start at run
  induction run generalizing scanner with
  | nil => exact ⟨[], scanner, rfl, .nil scanner⟩
  | cons scanned _ ih =>
    subst moved
    rw [next_shift] at scanned
    cases found : scanner.next with
    | error fault between =>
      rw [found] at scanned
      cases scanned
    | ok token between =>
      rw [found] at scanned
      cases scanned
      obtain ⟨original, final, rfl, more⟩ := ih rfl
      exact ⟨token :: original, final, rfl, .cons found more⟩

/-! ### Characters behind the text -/

/-- The scanner with other characters behind its text. -/
def append (scanner : Scanner) (tail : List Char) : Scanner :=
  ⟨scanner.rest ++ tail, scanner.position⟩

def appendResult (tail : List Char) :
    EStateM.Result Fault Scanner Token → EStateM.Result Fault Scanner Token
  | .ok token after => .ok token (after.append tail)
  | .error fault after => .error fault (after.append tail)

theorem takeWhile_append_cons {test : Char → Bool} {c : Char} (stops : test c = false)
    (front tail : List Char) : (front ++ c :: tail).takeWhile test = front.takeWhile test := by
  induction front with
  | nil => simp [stops]
  | cons d front ih =>
    rw [List.cons_append, List.takeWhile_cons, List.takeWhile_cons, ih]

theorem dropWhile_append_cons {test : Char → Bool} {c : Char} (stops : test c = false)
    (front tail : List Char) :
    (front ++ c :: tail).dropWhile test = front.dropWhile test ++ c :: tail := by
  induction front with
  | nil => simp [stops]
  | cons d front ih =>
    rw [List.cons_append, List.dropWhile_cons, List.dropWhile_cons, ih]
    split
    · rfl
    · rfl

section
variable {scanner here after : Scanner} {test : Char → Bool} {c : Char} {tail : List Char}
  {token : Token}

theorem past_append (stops : test c = false) :
    (scanner.append (c :: tail)).past test = (scanner.past test).append (c :: tail) := by
  simp only [past, append, takeWhile_append_cons stops, dropWhile_append_cons stops]

theorem past_append_of_ne_nil (more : (scanner.past test).rest ≠ []) (tail : List Char) :
    (scanner.append tail).past test = (scanner.past test).append tail := by
  have some : scanner.rest.dropWhile test ≠ [] := more
  have short : (scanner.rest.takeWhile test).length ≠ scanner.rest.length := by
    have split := congrArg List.length (List.takeWhile_append_dropWhile (p := test)
      (l := scanner.rest))
    have := List.length_pos_iff.mpr some
    rw [List.length_append] at split
    omega
  simp only [past, append, List.takeWhile_append, List.dropWhile_append, if_neg short,
    List.isEmpty_iff, if_neg some]

theorem run_append (stops : test c = false) :
    (scanner.append (c :: tail)).run test = scanner.run test := by
  simp only [run, append, takeWhile_append_cons stops]

theorem runSpan_append (stops : test c = false) :
    (scanner.append (c :: tail)).runSpan test = scanner.runSpan test := by
  rw [runSpan, past_append stops]
  rfl

/-- A character that is part of no word and no number ends the token in front of it. -/
theorem finds_append {result : EStateM.Result Fault Scanner Token} (h : Finds here result)
    (more : here.rest ≠ []) (part : Token.isWordPart c = false) (digit : c.isDigit = false) :
    Finds (here.append (c :: tail)) (appendResult (c :: tail) result) := by
  have behind {d : Char} {rest : List Char} (ahead : here.rest = d :: rest) :
      (here.append (c :: tail)).rest = d :: (rest ++ c :: tail) := by
    rw [append, ahead]
    rfl
  cases h with
  | final ahead => exact absurd ahead more
  | number ahead isDigit read =>
    have found := Finds.number (behind ahead) isDigit ((run_append digit).symm ▸ read)
    rwa [run_append digit, runSpan_append digit, past_append digit] at found
  | excess ahead isDigit read =>
    have found := Finds.excess (behind ahead) isDigit ((run_append digit).symm ▸ read)
    rwa [run_append digit, runSpan_append digit, past_append digit] at found
  | word ahead noDigit start =>
    have found := Finds.word (behind ahead) noDigit start
    rwa [run_append part, runSpan_append part, past_append part] at found
  | symbol ahead noDigit start symbol => exact .symbol (behind ahead) noDigit start symbol
  | unknown ahead noDigit start symbol => exact .unknown (behind ahead) noDigit start symbol

theorem next_append (more : (scanner.past Unicode.isWhitespace).rest ≠ [])
    (part : Token.isWordPart c = false) (digit : c.isDigit = false) :
    (scanner.append (c :: tail)).next = appendResult (c :: tail) scanner.next := by
  rw [next, past_append_of_ne_nil more]
  exact eq_of_finds (finds_append (finds_of_next rfl) more part digit)

theorem next_append_of_end (h : scanner.next = .ok token after) (ends : token.kind = .endOfInput)
    (blank : Unicode.isWhitespace c = false) :
    (scanner.append (c :: tail)).next = (⟨c :: tail, scanner.extent⟩ : Scanner).tokenHere := by
  have found := finds_of_next h
  obtain ⟨ahead, rfl, rfl⟩ := found.kind_eq_endOfInput ends
  rw [next, past_append blank, append, ahead, ← extent_past scanner Unicode.isWhitespace, extent,
    ahead]
  rfl

end

/-! ### Semicolons -/

section
variable {scanner after final : Scanner} {token : Token} {tokens rest : List Token}
  {more : List Char}

theorem past_suffix (scanner : Scanner) (test : Char → Bool) :
    (scanner.past test).rest <:+ scanner.rest :=
  List.dropWhile_suffix test

theorem next_suffix (h : scanner.next = .ok token after) : after.rest <:+ scanner.rest := by
  have found := finds_of_next h
  refine List.IsSuffix.trans ?_ (past_suffix scanner Unicode.isWhitespace)
  cases found with
  | final => exact List.suffix_rfl
  | number | word => exact past_suffix _ _
  | symbol ahead => exact ahead ▸ List.suffix_cons _ _

theorem mem_of_semicolon (h : scanner.next = .ok token after) (kind : token.kind = .semicolon) :
    ';' ∈ scanner.rest := by
  have found := finds_of_next h
  refine (past_suffix scanner Unicode.isWhitespace).mem ?_
  cases found with
  | final | number => cases kind
  | word =>
    rcases Token.kind_of_wordKind kind with found | found <;> cases found
  | @symbol c _ _ ahead _ _ symbol =>
    subst kind
    have same : c = ';' := Token.eq_of_ofSymbol? symbol rfl
    rw [ahead, same]
    exact List.mem_cons_self

theorem Yields.mem_of_semicolon (run : scanner.Yields tokens after) (member : token ∈ tokens)
    (kind : token.kind = .semicolon) : ';' ∈ scanner.rest := by
  induction run with
  | nil => cases member
  | cons scanned _ ih =>
    rcases List.mem_cons.mp member with rfl | member
    · exact Scanner.mem_of_semicolon scanned kind
    · exact (next_suffix scanned).mem (ih member)

theorem tokenHere_semicolon (position : Nat) :
    (⟨';' :: more, position⟩ : Scanner).tokenHere =
      .ok ⟨.semicolon, ";", .single position⟩ ⟨more, position + 1⟩ := by
  have start : Token.isWordStart ';' = false := by decide +kernel
  exact eq_of_finds (.symbol rfl rfl start rfl)

/-- In front of a semicolon a scanner finds what it finds without the semicolon, or else the
semicolon where it would find the end of the input. -/
theorem next_append_semicolon (h : (scanner.append (';' :: more)).next = .ok token after) :
    (∃ between, after = between.append (';' :: more) ∧ scanner.next = .ok token between ∧
      token.kind ≠ .endOfInput) ∨
    token.kind = .semicolon ∧ after = ⟨more, scanner.extent + 1⟩ ∧
      scanner.next = .ok (.atEnd scanner.extent) ⟨[], scanner.extent⟩ := by
  have blank : Unicode.isWhitespace ';' = false := by decide +kernel
  have part : Token.isWordPart ';' = false := by decide +kernel
  by_cases ahead : (scanner.past Unicode.isWhitespace).rest = []
  · have found := next_of_past_nil ahead
    rw [next_append_of_end found rfl blank, tokenHere_semicolon] at h
    cases h
    exact .inr ⟨rfl, rfl, found⟩
  · rw [next_append ahead part rfl] at h
    cases found : scanner.next with
    | error fault between =>
      rw [found] at h
      cases h
    | ok token between =>
      rw [found] at h
      cases h
      refine .inl ⟨between, rfl, rfl, fun ends => ahead ?_⟩
      have found' := finds_of_next found
      exact (found'.kind_eq_endOfInput ends).1

/-- Tokens up to a semicolon that is cut off: they are the tokens of the text in front of it, and
those behind it are the tokens of the rest. -/
theorem yields_append_semicolon (free : ';' ∉ scanner.rest)
    (run : (scanner.append (';' :: more)).Yields (tokens ++ token :: rest) final)
    (inside : ∀ other ∈ tokens, ¬Grammar.Divides other.kind)
    (divides : Grammar.Divides token.kind) :
    token.kind = .semicolon ∧
      scanner.Yields (tokens ++ [.atEnd scanner.extent]) ⟨[], scanner.extent⟩ ∧
      (⟨more, scanner.extent + 1⟩ : Scanner).Yields rest final := by
  induction tokens generalizing scanner with
  | nil =>
    obtain ⟨_, scanned, behind⟩ := yields_cons_iff.mp run
    rcases next_append_semicolon scanned with ⟨between, _, found, notEnd⟩ | ⟨kind, rfl, found⟩
    · exact absurd (mem_of_semicolon found (divides.resolve_right notEnd)) free
    · exact ⟨kind, yields_singleton_iff.mpr found, behind⟩
  | cons first tokens ih =>
    have ⟨outside, inside⟩ := List.forall_mem_cons.mp inside
    obtain ⟨_, scanned, behind⟩ := yields_cons_iff.mp run
    rcases next_append_semicolon scanned with ⟨between, rfl, found, _⟩ | ⟨kind, _, _⟩
    · have free : ';' ∉ between.rest := fun member => free ((next_suffix found).mem member)
      have cut := ih free behind inside
      rw [extent_next found] at cut
      exact ⟨cut.1, .cons found cut.2.1, cut.2.2⟩
    · exact absurd (.inl kind) outside

end

end Calculator.Scanner
