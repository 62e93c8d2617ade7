import Calculator.Proofs.Lexeme

/-!
# Texts one behind the other

White space ends every token. So a text that can be cut into tokens keeps them if white space and
more text are put behind it, see `yields_append_blank`, and the text behind has the tokens or the
fault that it has by itself, with other offsets: `tokenize_append_blank`.
-/

namespace Calculator.Scanner

section
variable {scanner after final : Scanner} {token : Token} {tokens : List Token} {c : Char}

theorem not_ended_of_next (h : scanner.next = .ok token after) (more : token.kind ≠ .endOfInput) :
    (scanner.past Unicode.isWhitespace).rest ≠ [] := by
  intro ahead
  cases h.symm.trans (next_of_past_nil ahead)
  exact more rfl

variable (blank : Unicode.isWhitespace c = true) (tail : List Char)
include blank

/-- Tokens in front of white space are read as they are without what follows it. -/
theorem yields_append_blank (run : scanner.Yields tokens after)
    (more : ∀ token ∈ tokens, token.kind ≠ .endOfInput) :
    (scanner.append (c :: tail)).Yields tokens (after.append (c :: tail)) := by
  have part := isWordPart_of_isWhitespace blank
  induction run with
  | nil => exact .nil _
  | cons scanned _ ih =>
    obtain ⟨first, more⟩ := List.forall_mem_cons.mp more
    refine .cons ?_ (ih more)
    have ahead := not_ended_of_next scanned first
    rw [next_append ahead part (isDigit_of_not_isWordPart part), scanned, appendResult]

/-- Where the text would be at its end, the scanner goes on behind the white space. -/
theorem next_append_blank (h : scanner.next = .ok token after) (ends : token.kind = .endOfInput) :
    (scanner.append (c :: tail)).next = (⟨tail, scanner.extent + 1⟩ : Scanner).next := by
  have all : ∀ d ∈ scanner.rest ++ [c], Unicode.isWhitespace d = true := by
    simpa [or_imp, forall_and, blank] using blank_of_next h ends
  have behind := next_blanks all tail scanner.position
  rwa [List.append_assoc, List.length_append, ← Nat.add_assoc] at behind

end

/-- Another position changes the offsets of tokens and of a fault, and nothing else. -/
theorem tokenize_shift (scanner : Scanner) (distance : Nat) :
    (scanner.shift distance).tokenize = match scanner.tokenize with
      | .ok tokens after =>
        .ok (tokens.map (Token.relocate (· + distance))) (after.shift distance)
      | .error fault after => .error (fault.relocate (· + distance)) (after.shift distance) := by
  obtain ⟨tokens, between, run, more, stops⟩ := exists_run scanner
  have moved := next_shift between distance
  have more' : ∀ token ∈ tokens.map (Token.relocate (· + distance)), token.kind ≠ .endOfInput := by
    simpa [Token.relocate] using more
  rw [run.tokenize_eq more, (yields_shift run distance).tokenize_eq more']
  rcases stops with ⟨token, after, scanned, ends⟩ | ⟨fault, after, failed⟩
  · rw [scanned, shiftResult] at moved
    rw [tokenize_of_end scanned ends, tokenize_of_end moved ends]
    simp only [List.map_append, List.map_cons, List.map_nil]
  · rw [failed, shiftResult] at moved
    rw [tokenize_of_error failed, tokenize_of_error moved]

/-- The tokens of two texts with white space between them are those of the first, without the end of
the input, and those of the second at other offsets; and if the second has a fault, so has the
whole, at another offset. -/
theorem tokenize_append_blank {first : String} {tokens : List Token} {final : Scanner} {c : Char}
    (cut : (ofSource first).tokenize = .ok tokens final)
    (blank : Unicode.isWhitespace c = true) (second : String) :
    ∃ front, tokens = front ++ [.atEnd first.length] ∧
      (∀ token ∈ front, token.kind ≠ .endOfInput) ∧
      (ofSource (first ++ c.toString ++ second)).tokenize = match (ofSource second).tokenize with
        | .ok others after => .ok (front ++ others.map (Token.relocate (· + (first.length + 1))))
          (after.shift (first.length + 1))
        | .error fault after => .error (fault.relocate (· + (first.length + 1)))
          (after.shift (first.length + 1)) := by
  obtain ⟨run, front, last, rfl, ends, more⟩ := tokenize_eq_ok_iff.mp cut
  obtain ⟨between, run, scanned⟩ := yields_append_iff.mp run
  rw [yields_singleton_iff] at scanned
  have whole : between.extent = first.length := run.extent_eq.trans (extent_ofSource first)
  have start : ofSource (first ++ c.toString ++ second) =
      (ofSource first).append (c :: second.toList) := by
    simp [ofSource, append]
  have behind : (⟨second.toList, first.length + 1⟩ : Scanner) =
      (ofSource second).shift (first.length + 1) := by
    simp [ofSource, shift]
  have seam := next_append_blank blank second.toList scanned ends
  rw [whole, behind] at seam
  refine ⟨front, by rw [(next_atEnd scanned ends).1, whole], more, ?_⟩
  rw [start, (yields_append_blank blank second.toList run more).tokenize_eq more,
    tokenize_congr seam, tokenize_shift]
  cases (ofSource second).tokenize with
  | ok others after => rfl
  | error fault after => rfl

/-- A line with a character that begins no token, behind one with a word next to a number. -/
theorem tokenize_append_blank_line :
    (ofSource "2é =").tokenize = .ok [⟨.integer, "2", ⟨0, 1⟩⟩, ⟨.identifier, "é", ⟨1, 2⟩⟩,
        ⟨.equal, "=", ⟨3, 4⟩⟩, .atEnd 4] ⟨[], 4⟩ ∧
      Unicode.isWhitespace '\n' = true ∧
      ∃ after, (ofSource ("2é =" ++ '\n'.toString ++ "var ½")).tokenize =
        .error ⟨.unrecognizedCharacter '½', ⟨9, 10⟩⟩ after := by
  have run : (ofSource "2é =").Yields [⟨.integer, "2", ⟨0, 1⟩⟩, ⟨.identifier, "é", ⟨1, 2⟩⟩,
      ⟨.equal, "=", ⟨3, 4⟩⟩, .atEnd 4] ⟨[], 4⟩ :=
    .cons rfl (.cons rfl (.cons rfl (.cons rfl (.nil _))))
  have cut := tokenize_eq_ok_iff.mpr ⟨run, [_, _, _], _, rfl, rfl, by decide⟩
  have blank : Unicode.isWhitespace '\n' = true := by decide +kernel
  have var : (ofSource "var ½").Yields [⟨.keyword, "var", ⟨0, 3⟩⟩] ⟨[' ', '½'], 3⟩ :=
    .cons rfl (.nil _)
  have failed : (⟨[' ', '½'], 3⟩ : Scanner).next =
      .error ⟨.unrecognizedCharacter '½', ⟨4, 5⟩⟩ ⟨['½'], 4⟩ := rfl
  have second := var.tokenize_eq (by decide)
  rw [tokenize_of_error failed] at second
  obtain ⟨_, _, _, joined⟩ := tokenize_append_blank cut blank "var ½"
  rw [second] at joined
  exact ⟨cut, blank, _, joined⟩

end Calculator.Scanner
