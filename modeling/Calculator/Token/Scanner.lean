import Calculator.Fault
import Calculator.Unicode.WhiteSpace

/-!
# Scanning

A scanner stands at a position in a text and hands out one token at a time. `next_shortens` says
that every token but the last takes characters from the text, so `tokenize` comes to an end.
-/

namespace Calculator

/-- A place in a text: the characters still to be read and the number of those behind it. -/
structure Scanner where
  rest : List Char
  position : Nat
  deriving DecidableEq

namespace Scanner

/-- The scanner at the start of a text. -/
def ofSource (source : String) : Scanner :=
  ⟨source.toList, 0⟩

/-- The scanner past the characters that pass a test. -/
def past (scanner : Scanner) (test : Char → Bool) : Scanner :=
  ⟨scanner.rest.dropWhile test, scanner.position + (scanner.rest.takeWhile test).length⟩

/-- The characters ahead that pass a test. -/
def run (scanner : Scanner) (test : Char → Bool) : String :=
  String.ofList (scanner.rest.takeWhile test)

/-- The span of the characters ahead that pass a test. -/
def runSpan (scanner : Scanner) (test : Char → Bool) : Span :=
  ⟨scanner.position, (scanner.past test).position⟩

/-- Reads a run of digits. One that exceeds the largest integer is a fault, and is passed over
all the same. -/
def integer (scanner : Scanner) : EStateM.Result Fault Scanner Token :=
  let text := scanner.run Char.isDigit
  let span := scanner.runSpan Char.isDigit
  match Numeral.read? text with
  | some _ => .ok ⟨.integer, text, span⟩ (scanner.past Char.isDigit)
  | none => .error ⟨.malformedInteger text, span⟩ (scanner.past Char.isDigit)

/-- Reads an identifier or a keyword. -/
def word (scanner : Scanner) : EStateM.Result Fault Scanner Token :=
  let text := scanner.run Token.isWordPart
  .ok ⟨Token.wordKind text, text, scanner.runSpan Token.isWordPart⟩
    (scanner.past Token.isWordPart)

/-- Reads the token that begins at this very position. The scanner does not move past a
character that begins no token. -/
def tokenHere (scanner : Scanner) : EStateM.Result Fault Scanner Token :=
  match scanner.rest with
  | [] => .ok (.atEnd scanner.position) scanner
  | c :: rest =>
    if c.isDigit then scanner.integer
    else if Token.isWordStart c then scanner.word
    else match Token.Kind.ofSymbol? c with
      | some kind =>
        .ok ⟨kind, c.toString, .single scanner.position⟩ ⟨rest, scanner.position + 1⟩
      | none => .error ⟨.unrecognizedCharacter c, .single scanner.position⟩ scanner

/-- Reads the next token, past any white space. At the end it is the same token every time. -/
def next (scanner : Scanner) : EStateM.Result Fault Scanner Token :=
  (scanner.past Unicode.isWhitespace).tokenHere

/-- The character `offset` places ahead, or the first after it that is neither white space nor a
digit. -/
def peek (scanner : Scanner) (offset : Nat) : Option Char :=
  ((scanner.rest.drop offset).dropWhile fun c => Unicode.isWhitespace c || c.isDigit).head?

/-! ### Progress -/

theorem length_past_le (scanner : Scanner) (test : Char → Bool) :
    (scanner.past test).rest.length ≤ scanner.rest.length :=
  (List.dropWhile_sublist test).length_le

theorem length_past_lt {scanner : Scanner} {test : Char → Bool} {c : Char} {rest : List Char}
    (ahead : scanner.rest = c :: rest) (passes : test c = true) :
    (scanner.past test).rest.length < scanner.rest.length := by
  have shorter := (List.dropWhile_sublist (l := rest) test).length_le
  simp only [past, ahead, List.dropWhile_cons_of_pos passes, List.length_cons]
  omega

theorem isWordPart_of_isWordStart {c : Char} (h : Token.isWordStart c = true) :
    Token.isWordPart c = true := by
  simp only [Token.isWordStart, Token.isWordPart, Unicode.isAlphanumeric, Bool.or_eq_true] at h ⊢
  exact h.imp Or.inl id

theorem tokenHere_shortens {scanner after : Scanner} {token : Token}
    (h : scanner.tokenHere = .ok token after) (more : token.kind ≠ .endOfInput) :
    after.rest.length < scanner.rest.length := by
  unfold tokenHere at h
  split at h
  · simp only [EStateM.Result.ok.injEq] at h
    exact absurd (h.1 ▸ rfl) more
  · rename_i c rest ahead
    split at h
    · rename_i digit
      simp only [integer] at h
      split at h
      · simp only [EStateM.Result.ok.injEq] at h
        exact h.2 ▸ length_past_lt ahead digit
      · cases h
    · split at h
      · rename_i start
        simp only [word, EStateM.Result.ok.injEq] at h
        exact h.2 ▸ length_past_lt ahead (isWordPart_of_isWordStart start)
      · split at h
        · simp only [EStateM.Result.ok.injEq] at h
          rw [← h.2, ahead]
          exact Nat.lt_succ_self _
        · cases h

/-- Every token but the last takes characters from the text. -/
theorem next_shortens {scanner after : Scanner} {token : Token}
    (h : scanner.next = .ok token after) (more : token.kind ≠ .endOfInput) :
    after.rest.length < scanner.rest.length :=
  Nat.lt_of_lt_of_le (tokenHere_shortens h more) (length_past_le _ _)

/-- Reads every token up to and including the end of the input. -/
def tokenize (scanner : Scanner) : EStateM.Result Fault Scanner (List Token) :=
  match _reads : scanner.next with
  | .error fault after => .error fault after
  | .ok token after =>
    if _more : token.kind = .endOfInput then .ok [token] after
    else match tokenize after with
      | .error fault final => .error fault final
      | .ok tokens final => .ok (token :: tokens) final
termination_by scanner.rest.length
decreasing_by exact next_shortens _reads _more

end Scanner

end Calculator
