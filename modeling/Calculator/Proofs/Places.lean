import Mathlib.Data.List.TakeWhile
import Calculator.Proofs.Lexeme

/-!
# Places in a text

What the spans of tokens have to do with the text they were read from. `Yields.marks` says that the
span of a token holds its text, `Yields.inOrder` that tokens stand one behind the other, and
`next_error` what is at the place of a fault.
-/

namespace Calculator

/-- The part of the text that the span holds. -/
def Span.Marks (span : Span) (text part : List Char) : Prop :=
  ∃ before behind, text = before ++ part ++ behind ∧
    span = ⟨before.length, before.length + part.length⟩

/-- The part of the text that the span holds is a run of digits that no digit stands next to. -/
def Span.MarksNumber (span : Span) (text part : List Char) : Prop :=
  ∃ before behind, text = before ++ part ++ behind ∧
    span = ⟨before.length, before.length + part.length⟩ ∧
    part ≠ [] ∧ (∀ c ∈ part, c.isDigit = true) ∧
    (∀ c ∈ before.getLast?, c.isDigit = false) ∧ ∀ c ∈ behind.head?, c.isDigit = false

theorem Span.Marks.bounds {span : Span} {text part : List Char} (h : span.Marks text part)
    (some : part ≠ []) : span.start < span.stop ∧ span.stop ≤ text.length := by
  obtain ⟨before, behind, rfl, rfl⟩ := h
  have := List.length_pos_iff.mpr some
  simp only [List.length_append]
  omega

/-- Tokens in a row: each has characters, and ends before the next one begins. -/
structure Token.InOrder (tokens : List Token) : Prop where
  some : ∀ token ∈ tokens, token.span.start < token.span.stop
  apart : tokens.Pairwise fun a b => a.span.stop ≤ b.span.start

theorem Token.InOrder.sublist {tokens others : List Token} (h : InOrder tokens)
    (sub : others.Sublist tokens) : InOrder others :=
  ⟨fun token member => h.some token (sub.subset member), h.apart.sublist sub⟩

namespace Scanner

/-! ### What a scanner reads -/

section
variable {here scanner after : Scanner} {token : Token} {fault : Fault}

theorem takeWhile_ahead {test : Char → Bool} {c : Char} {rest : List Char}
    (ahead : here.rest = c :: rest) (passes : test c = true) :
    here.rest.takeWhile test ≠ [] ∧ ∀ d ∈ here.rest.takeWhile test, test d = true := by
  refine ⟨?_, fun d member => List.mem_takeWhile_imp member⟩
  rw [ahead, List.takeWhile_cons_of_pos passes]
  exact List.cons_ne_nil _ _

/-- A token is what the scanner takes from the text: a text of its kind. -/
theorem Finds.spells (h : Finds here (.ok token after)) (more : token.kind ≠ .endOfInput) :
    Token.Lexeme token.kind token.lexeme.toList ∧
      here.rest = token.lexeme.toList ++ after.rest ∧
      after.position = here.position + token.lexeme.toList.length ∧
      token.span = ⟨here.position, after.position⟩ := by
  cases h with
  | final => exact absurd rfl more
  | @number c rest value ahead digit read =>
    obtain ⟨some, all⟩ := takeWhile_ahead ahead digit
    simp only [run, String.toList_ofList] at read ⊢
    refine ⟨.number some all ?_, List.takeWhile_append_dropWhile.symm, rfl, rfl⟩
    rw [Numeral.read?_of_digits some all] at read
    split at read
    · assumption
    · cases read
  | @word c rest ahead digit start =>
    have part := isWordPart_of_isWordStart start
    simp only [run, String.toList_ofList]
    refine ⟨?_, List.takeWhile_append_dropWhile.symm, rfl, rfl⟩
    rw [ahead, List.takeWhile_cons_of_pos part]
    exact .word start fun d member => List.mem_takeWhile_imp member
  | @symbol c rest kind ahead _ _ symbol =>
    refine ⟨?_, ?_, ?_, rfl⟩
    · simpa using Token.Lexeme.symbol symbol
    · simpa using ahead
    · simp

/-- Behind a token the text does not go on with it. -/
theorem Finds.ended (h : Finds here (.ok token after)) :
    ∀ c ∈ after.rest.head?, token.kind.goesOn c = false := by
  intro c head
  cases h with
  | final => rfl
  | number => exact stops_past here Char.isDigit c head
  | word => exact (Token.goesOn_wordKind _ c).trans (stops_past here Token.isWordPart c head)
  | symbol _ _ _ symbol => exact Token.goesOn_of_ofSymbol? symbol c

theorem lexeme_of_scanned (h : token.Scanned) (more : token.kind ≠ .endOfInput) :
    Token.Lexeme token.kind token.lexeme.toList := by
  obtain ⟨before, after, scanned⟩ := h
  exact ((finds_of_next scanned).spells more).1

end

/-! ### Where a scanner stands -/

/-- The scanner is in the text, and no number reaches across its position. -/
def Stands (text : List Char) (scanner : Scanner) : Prop :=
  ∃ read, text = read ++ scanner.rest ∧ scanner.position = read.length ∧
    ∀ c ∈ read.getLast?, c.isDigit = true → ∀ d ∈ scanner.rest.head?, d.isDigit = false

section
variable {text : List Char} {scanner after : Scanner} {token : Token} {tokens : List Token}
  {fault : Fault}

theorem stands_ofSource (source : String) : (ofSource source).Stands source.toList :=
  ⟨[], rfl, rfl, by simp⟩

theorem stands_past {test : Char → Bool} (h : scanner.Stands text)
    (edge : ∀ c d : Char, test c = true → c.isDigit = true → test d = false → d.isDigit = false) :
    (scanner.past test).Stands text := by
  obtain ⟨read, split, place, apart⟩ := h
  refine ⟨read ++ scanner.rest.takeWhile test, ?_, ?_, ?_⟩
  · rw [split, List.append_assoc, past, List.takeWhile_append_dropWhile]
  · rw [past, place, List.length_append]
  · intro c last digit d head
    rw [List.getLast?_append] at last
    cases run : (scanner.rest.takeWhile test).getLast? with
    | none =>
      -- Nothing is taken, so the scanner is where it was.
      have unmoved : scanner.rest.dropWhile test = scanner.rest := by
        have := List.takeWhile_append_dropWhile (p := test) (l := scanner.rest)
        rwa [List.getLast?_eq_none_iff.mp run] at this
      rw [run] at last
      rw [past, unmoved] at head
      exact apart c last digit d head
    | some e =>
      rw [run] at last
      cases last
      have taken := List.mem_takeWhile_imp (List.mem_of_getLast? run)
      exact edge c d taken digit (stops_past scanner test d head)

theorem stands_past_whitespace (h : scanner.Stands text) :
    (scanner.past Unicode.isWhitespace).Stands text := by
  apply stands_past h
  intro c d blank digit _
  rw [isWhitespace_of_isDigit digit] at blank
  cases blank

theorem Finds.stands (found : Finds scanner (.ok token after)) (h : scanner.Stands text) :
    after.Stands text := by
  cases found with
  | final => exact h
  | number =>
    apply stands_past h
    intro c d _ _ stops
    exact stops
  | word =>
    apply stands_past h
    intro c d _ _ stops
    exact isDigit_of_not_isWordPart stops
  | @symbol c rest _ ahead noDigit =>
    obtain ⟨read, split, place, _⟩ := h
    refine ⟨read ++ [c], ?_, ?_, ?_⟩
    · rw [split, ahead, List.append_assoc]
      rfl
    · simp [place]
    · intro d last digit
      rw [List.getLast?_concat] at last
      cases last
      rw [noDigit] at digit
      cases digit

theorem stands_next (h : scanner.Stands text) (scanned : scanner.next = .ok token after) :
    after.Stands text := by
  have found := finds_of_next scanned
  exact found.stands (stands_past_whitespace h)

theorem Yields.stands (run : scanner.Yields tokens after) (h : scanner.Stands text) :
    after.Stands text := by
  induction run with
  | nil => exact h
  | cons scanned _ ih => exact ih (stands_next h scanned)

theorem extent_of_stands (h : scanner.Stands text) : scanner.extent = text.length := by
  obtain ⟨read, rfl, place, _⟩ := h
  rw [extent, place, List.length_append]

/-! ### The places of tokens and faults -/

/-- A token that is not the end of the input stands in the text where its span says. -/
theorem next_marks (h : scanner.Stands text) (scanned : scanner.next = .ok token after)
    (more : token.kind ≠ .endOfInput) :
    token.span.Marks text token.lexeme.toList ∧
      Token.Lexeme token.kind token.lexeme.toList := by
  have found := finds_of_next scanned
  obtain ⟨lexeme, split, place, span⟩ := found.spells more
  obtain ⟨read, whole, position, _⟩ := stands_past_whitespace h
  refine ⟨⟨read, after.rest, ?_, ?_⟩, lexeme⟩
  · rw [whole, split, List.append_assoc]
  · rw [span, place, position]

theorem Yields.marks (run : scanner.Yields tokens after) (h : scanner.Stands text)
    (member : token ∈ tokens) (more : token.kind ≠ .endOfInput) :
    token.span.Marks text token.lexeme.toList ∧
      Token.Lexeme token.kind token.lexeme.toList := by
  induction run with
  | nil => cases member
  | cons scanned _ ih =>
    rcases List.mem_cons.mp member with rfl | member
    · exact next_marks h scanned more
    · exact ih (stands_next h scanned) member

theorem Yields.atEnd (run : scanner.Yields tokens after) (h : scanner.Stands text)
    (member : token ∈ tokens) (ends : token.kind = .endOfInput) : token = .atEnd text.length := by
  induction run with
  | nil => cases member
  | cons scanned _ ih =>
    rcases List.mem_cons.mp member with rfl | member
    · rw [(next_atEnd scanned ends).1, extent_of_stands h]
    · exact ih (stands_next h scanned) member

/-- A scanner fails at a character that no token begins with, or at a number out of range. -/
theorem next_error (h : scanner.Stands text) (failed : scanner.next = .error fault after) :
    (∃ c, fault.cause = .unrecognizedCharacter c ∧ fault.span.Marks text [c] ∧
      ¬Token.Opens c) ∨
    ∃ digits, fault.cause = .malformedInteger (String.ofList digits) ∧
      fault.span.MarksNumber text digits ∧
      Int64.maxValue.toInt < (Nat.ofDigitChars 10 digits 0 : Int) := by
  have found := finds_of_next failed
  obtain ⟨read, split, place, apart⟩ := stands_past_whitespace h
  generalize scanner.past Unicode.isWhitespace = here at found split place apart
  cases found with
  | @excess c rest ahead digit none =>
    obtain ⟨some, all⟩ := takeWhile_ahead ahead digit
    refine .inr ⟨here.rest.takeWhile Char.isDigit, rfl, ⟨read, here.rest.dropWhile Char.isDigit,
      ?_, ?_, some, all, ?_, ?_⟩, ?_⟩
    · rw [split, List.append_assoc, List.takeWhile_append_dropWhile]
    · simp only [runSpan, past, place]
    · intro d last
      rw [← Bool.not_eq_true]
      intro isDigit
      have noDigit := apart d last isDigit c (by simp [ahead])
      rw [digit] at noDigit
      cases noDigit
    · exact stops_past here Char.isDigit
    · rw [run, Numeral.read?_of_digits some all] at none
      split at none
      · cases none
      · rename_i large
        exact Int.not_le.mp large
  | @unknown c rest ahead digit start symbol =>
    refine .inl ⟨c, rfl, ⟨read, rest, ?_, ?_⟩, ?_⟩
    · rw [split, ahead, List.append_assoc]
      rfl
    · rw [place]
      rfl
    · rw [Token.opens_iff]
      simp [digit, start, symbol]

/-! ### The order of tokens -/

theorem next_position (scanned : scanner.next = .ok token after)
    (more : token.kind ≠ .endOfInput) :
    scanner.position ≤ token.span.start ∧ token.span.start < token.span.stop ∧
      token.span.stop = after.position := by
  have found := finds_of_next scanned
  obtain ⟨lexeme, _, place, span⟩ := found.spells more
  have some := List.length_pos_iff.mpr lexeme.ne_nil
  rw [span]
  refine ⟨Nat.le_add_right _ _, ?_, rfl⟩
  show (scanner.past Unicode.isWhitespace).position < after.position
  omega

theorem position_le_of_next (scanned : scanner.next = .ok token after) :
    scanner.position ≤ after.position := by
  by_cases ends : token.kind = .endOfInput
  · rw [(next_atEnd scanned ends).2]
    exact Nat.le_add_right _ _
  · have := next_position scanned ends
    omega

theorem Yields.position_le (run : scanner.Yields tokens after) :
    (∀ token ∈ tokens, token.kind ≠ .endOfInput → scanner.position ≤ token.span.start) ∧
      scanner.position ≤ after.position := by
  induction run with
  | nil => exact ⟨by simp, Nat.le_refl _⟩
  | cons scanned _ ih =>
    have moved := position_le_of_next scanned
    refine ⟨List.forall_mem_cons.mpr ⟨fun more => (next_position scanned more).1, ?_⟩, by omega⟩
    intro token member more
    have := ih.1 token member more
    omega

/-- Tokens of a text are in order, wherever some are left out, the end of the input among them. -/
theorem Yields.inOrder {some : List Token} (run : scanner.Yields tokens after)
    (sub : some.Sublist tokens) (more : ∀ token ∈ some, token.kind ≠ .endOfInput) :
    Token.InOrder some := by
  induction run generalizing some with
  | nil =>
    obtain rfl := List.sublist_nil.mp sub
    exact ⟨by simp, .nil⟩
  | cons scanned others ih =>
    cases sub with
    | cons _ sub => exact ih sub more
    | cons_cons _ sub =>
      have ⟨here, more⟩ := List.forall_mem_cons.mp more
      obtain ⟨_, nonempty, stops⟩ := next_position scanned here
      obtain ⟨each, apart⟩ := ih sub more
      refine ⟨List.forall_mem_cons.mpr ⟨nonempty, each⟩, List.pairwise_cons.mpr ⟨?_, apart⟩⟩
      intro other member
      have := others.position_le.1 other (sub.subset member) (more other member)
      omega

end

end Scanner

end Calculator
