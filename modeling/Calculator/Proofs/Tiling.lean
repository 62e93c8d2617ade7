import Calculator.Proofs.Places

/-!
# Tilings

The tokens of a text cover it without overlap, white space apart, and none of them could be longer:
`Tiles` says this of places in the text, without a scanner. There is one such list of tokens at the
most, and it is there if and only if tokenizing succeeds: `tokenize_eq_ok_iff_tiles`.
-/

namespace Calculator

/-- The characters of the text at the offsets from `start` up to `stop` are white space. -/
def Gap (text : List Char) (start stop : Nat) : Prop :=
  ∀ offset c, start ≤ offset → offset < stop → text[offset]? = some c →
    Unicode.isWhitespace c = true

namespace Token

/-- The token has a text of its kind, which is in the text where its span says, and the character
behind it does not go on with it. -/
structure Fills (text : List Char) (token : Token) : Prop where
  lexeme : Lexeme token.kind token.lexeme.toList
  marks : token.span.Marks text token.lexeme.toList
  ended : ∀ c, text[token.span.stop]? = some c → token.kind.goesOn c = false

/-- The tokens are those of the text from an offset on: they stand one behind the other, what is
between them is white space, and the end of the input is the last of them. -/
structure Tiles (text : List Char) (start : Nat) (tokens : List Token) : Prop where
  behind : ∀ token ∈ tokens, start ≤ token.span.start
  apart : tokens.Pairwise fun a b => a.span.stop ≤ b.span.start
  blank : ∀ offset c, start ≤ offset → text[offset]? = some c →
    (∀ token ∈ tokens, token.span.holds offset = false) → Unicode.isWhitespace c = true
  fills : ∀ token ∈ tokens, token.kind ≠ .endOfInput → token.Fills text
  complete : Complete tokens
  final : ∀ token ∈ tokens, token.kind = .endOfInput → token = .atEnd text.length

section
variable {text : List Char} {start : Nat} {token : Token} {tokens : List Token}

theorem not_holds_iff {span : Span} {offset : Nat} :
    span.holds offset = false ↔ offset < span.start ∨ span.stop ≤ offset := by
  simp only [Span.holds, Bool.and_eq_false_iff, decide_eq_false_iff_not]
  omega

theorem Fills.start_le_stop (h : token.Fills text) : token.span.start ≤ token.span.stop :=
  Nat.le_of_lt (h.marks.bounds h.lexeme.ne_nil).1

theorem tiles_cons_iff (more : token.kind ≠ .endOfInput) :
    Tiles text start (token :: tokens) ↔ start ≤ token.span.start ∧
      Gap text start token.span.start ∧ token.Fills text ∧
      Tiles text token.span.stop tokens := by
  constructor
  · rintro ⟨behind, apart, blank, fills, complete, final⟩
    obtain ⟨here, behind⟩ := List.forall_mem_cons.mp behind
    obtain ⟨next, apart⟩ := List.pairwise_cons.mp apart
    obtain ⟨fill, fills⟩ := List.forall_mem_cons.mp fills
    have nonempty := (fill more).start_le_stop
    refine ⟨here, ?_, fill more, next, apart, ?_, fills, ?_, (List.forall_mem_cons.mp final).2⟩
    · intro offset c low high at_
      refine blank offset c low at_ (List.forall_mem_cons.mpr ⟨?_, ?_⟩)
      · exact not_holds_iff.mpr (.inl high)
      · intro other member
        have := next other member
        exact not_holds_iff.mpr (.inl (by omega))
    · intro offset c low at_ outside
      refine blank offset c (by omega) at_ (List.forall_mem_cons.mpr ⟨?_, outside⟩)
      exact not_holds_iff.mpr (.inr low)
    · rcases complete_cons_iff.mp complete with ⟨ends, _⟩ | ⟨_, complete⟩
      · exact absurd ends more
      · exact complete
  · rintro ⟨here, before, fill, behind, apart, blank, fills, complete, final⟩
    have nonempty := fill.start_le_stop
    refine ⟨List.forall_mem_cons.mpr ⟨here, ?_⟩, List.pairwise_cons.mpr ⟨behind, apart⟩, ?_,
      List.forall_mem_cons.mpr ⟨fun _ => fill, fills⟩,
      complete_cons_iff.mpr (.inr ⟨more, complete⟩),
      List.forall_mem_cons.mpr ⟨fun ends => absurd ends more, final⟩⟩
    · intro other member
      have := behind other member
      omega
    · intro offset c low at_ outside
      obtain ⟨first, outside⟩ := List.forall_mem_cons.mp outside
      rcases not_holds_iff.mp first with high | past
      · exact before offset c low high at_
      · exact blank offset c past at_ outside

theorem tiles_final_iff (ends : token.kind = .endOfInput) :
    Tiles text start (token :: tokens) ↔ tokens = [] ∧ token = .atEnd text.length ∧
      start ≤ text.length ∧ Gap text start text.length := by
  constructor
  · rintro ⟨behind, _, blank, _, complete, final⟩
    obtain rfl := final token List.mem_cons_self ends
    rcases complete_cons_iff.mp complete with ⟨_, rfl⟩ | ⟨more, _⟩
    · refine ⟨rfl, rfl, behind _ List.mem_cons_self, ?_⟩
      intro offset c low high found
      exact blank offset c low found (List.forall_mem_singleton.mpr (not_holds_iff.mpr (.inl high)))
    · exact absurd ends more
  · rintro ⟨rfl, rfl, low, blank⟩
    refine ⟨List.forall_mem_singleton.mpr low, List.pairwise_singleton _ _, ?_,
      List.forall_mem_singleton.mpr (absurd ends), complete_cons_iff.mpr (.inl ⟨ends, rfl⟩),
      List.forall_mem_singleton.mpr fun _ => rfl⟩
    intro offset c low found _
    exact blank offset c low (List.getElem?_eq_some_iff.mp found).1 found

end

end Token

/-! ### White space -/

theorem gap_iff {text read gap rest : List Char} (split : text = read ++ gap ++ rest) :
    Gap text read.length (read.length + gap.length) ↔
      ∀ c ∈ gap, Unicode.isWhitespace c = true := by
  subst split
  constructor
  · intro blank c member
    obtain ⟨offset, found⟩ := List.getElem?_of_mem member
    have inside := (List.getElem?_eq_some_iff.mp found).1
    apply blank (read.length + offset) c (Nat.le_add_right _ _) (by omega)
    rw [List.append_assoc, List.getElem?_append_right (Nat.le_add_right _ _),
      Nat.add_sub_cancel_left, List.getElem?_append_left inside, found]
  · intro all offset c low high found
    rw [List.append_assoc, List.getElem?_append_right low,
      List.getElem?_append_left (by omega)] at found
    exact all c (List.mem_of_getElem? found)

namespace Scanner

section
variable {text read rest : List Char} {scanner after final : Scanner} {token : Token}
  {tokens : List Token}

theorem gap_past (h : scanner.Stands text) :
    Gap text scanner.position (scanner.past Unicode.isWhitespace).position := by
  obtain ⟨read, split, place, _⟩ := h
  have split : text = read ++ scanner.rest.takeWhile Unicode.isWhitespace ++
      (scanner.past Unicode.isWhitespace).rest := by
    rw [split, List.append_assoc, past, List.takeWhile_append_dropWhile]
  rw [past, place]
  exact (gap_iff split).mpr fun c member => List.mem_takeWhile_imp member

theorem getElem?_length (front behind : List Char) :
    (front ++ behind)[front.length]? = behind.head? := by
  rw [List.getElem?_append_right (Nat.le_refl _), Nat.sub_self, List.head?_eq_getElem?]

theorem getElem?_position (h : scanner.Stands text) :
    text[scanner.position]? = scanner.rest.head? := by
  obtain ⟨read, rfl, place, _⟩ := h
  rw [place, getElem?_length]

/-! ### What tokenizing gives -/

theorem tiles_of_yields (run : scanner.Yields tokens final) (complete : Token.Complete tokens)
    (h : scanner.Stands text) : Token.Tiles text scanner.position tokens := by
  induction run with
  | nil => exact absurd complete Token.not_complete_nil
  | @cons scanner between _ token tokens scanned more ih =>
    have found := finds_of_next scanned
    have blank := gap_past h
    rcases Token.complete_cons_iff.mp complete with ⟨ends, rfl⟩ | ⟨notEnd, complete⟩
    · obtain ⟨ahead, -, -⟩ := found.kind_eq_endOfInput ends
      have stop : (scanner.past Unicode.isWhitespace).position = text.length := by
        have whole := extent_of_stands (stands_past_whitespace h)
        rwa [extent, ahead] at whole
      rw [stop] at blank
      refine (Token.tiles_final_iff ends).mpr ⟨rfl, ?_, ?_, blank⟩
      · rw [(next_atEnd scanned ends).1, extent_of_stands h]
      · rw [← stop, past]
        exact Nat.le_add_right _ _
    · have behind := stands_next h scanned
      obtain ⟨marks, lexeme⟩ := next_marks h scanned notEnd
      obtain ⟨low, _, stop⟩ := next_position scanned notEnd
      obtain ⟨_, _, _, span⟩ := found.spells notEnd
      have start : token.span.start = (scanner.past Unicode.isWhitespace).position := by rw [span]
      refine (Token.tiles_cons_iff notEnd).mpr ⟨low, start ▸ blank, ⟨lexeme, marks, ?_⟩, ?_⟩
      · intro c next
        rw [stop, getElem?_position behind] at next
        exact found.ended c next
      · rw [stop]
        exact ih complete behind

/-! ### What tiles a text -/

/-- A scanner takes the token that is next in the text, white space apart. -/
theorem next_of_fills (split : text = read ++ rest) (low : read.length ≤ token.span.start)
    (blank : Gap text read.length token.span.start) (fills : token.Fills text) :
    ∃ front behind, text = front ++ behind ∧ token.span.stop = front.length ∧
      (⟨rest, read.length⟩ : Scanner).next = .ok token ⟨behind, front.length⟩ := by
  obtain ⟨kind, lexeme, span⟩ := token
  obtain ⟨spells, ⟨before, behind, split', place⟩, ended⟩ := fills
  dsimp only at *
  subst place
  -- What is in front of the token has been read, up to white space.
  obtain ⟨gap, rfl⟩ : read <+: before := by
    apply List.prefix_of_prefix_length_le ⟨rest, split.symm⟩ _ low
    exact ⟨lexeme.toList ++ behind, by rw [split', List.append_assoc]⟩
  obtain rfl : rest = gap ++ (lexeme.toList ++ behind) := by
    rw [← List.append_right_inj read, ← split, split']
    simp only [List.append_assoc]
  have stop : (read ++ gap ++ lexeme.toList).length =
      (read ++ gap).length + lexeme.toList.length := List.length_append
  rw [← stop, split'] at ended
  rw [List.length_append] at blank
  have all := (gap_iff (by rw [split, List.append_assoc])).mp blank
  have scanned := next_of_ended (read ++ gap).length spells fun c head =>
    ended c ((getElem?_length _ behind).trans head)
  refine ⟨read ++ gap ++ lexeme.toList, behind, split', stop.symm, ?_⟩
  rw [next_blanks all, ← List.length_append, scanned, String.ofList_toList, stop]

theorem yields_of_tiles (tiles : Token.Tiles text read.length tokens)
    (split : text = read ++ rest) : ∃ final, (⟨rest, read.length⟩ : Scanner).Yields tokens final := by
  induction tokens generalizing read rest with
  | nil => exact absurd tiles.complete Token.not_complete_nil
  | cons token tokens ih =>
    by_cases ends : token.kind = .endOfInput
    · obtain ⟨rfl, rfl, _, blank⟩ := (Token.tiles_final_iff ends).mp tiles
      have whole : text.length = read.length + rest.length := by rw [split, List.length_append]
      rw [whole] at blank ⊢
      have all := (gap_iff (by rw [split, List.append_nil])).mp blank
      exact ⟨_, .cons (next_of_blank all) (.nil _)⟩
    · obtain ⟨low, blank, fills, tiles⟩ := (Token.tiles_cons_iff ends).mp tiles
      obtain ⟨front, behind, split, stop, scanned⟩ := next_of_fills split low blank fills
      obtain ⟨final, run⟩ := ih (stop ▸ tiles) split
      exact ⟨final, .cons scanned run⟩

end

section
variable {source : String} {tokens others : List Token}

theorem exists_tokenize_iff_tiles :
    (∃ final, (ofSource source).tokenize = .ok tokens final) ↔
      Token.Tiles source.toList 0 tokens := by
  constructor
  · intro ⟨final, cut⟩
    obtain ⟨run, complete⟩ := tokenize_eq_ok_iff.mp cut
    exact tiles_of_yields run complete (stands_ofSource source)
  · intro tiles
    have run : ∃ final, (⟨source.toList, [].length⟩ : Scanner).Yields tokens final :=
      yields_of_tiles tiles rfl
    obtain ⟨final, run⟩ := run
    exact ⟨final, tokenize_eq_ok_iff.mpr ⟨run, tiles.complete⟩⟩

theorem tiles_unique (left : Token.Tiles source.toList 0 tokens)
    (right : Token.Tiles source.toList 0 others) : tokens = others := by
  obtain ⟨_, cut⟩ := exists_tokenize_iff_tiles.mpr left
  obtain ⟨_, cut'⟩ := exists_tokenize_iff_tiles.mpr right
  cases cut.symm.trans cut'
  rfl

end

/-- Tokenizing a text succeeds with the tokens that tile it, of which there is one list at the
most. -/
theorem tokenize_eq_ok_iff_tiles (source : String) (tokens : List Token) :
    ((∃ final, (ofSource source).tokenize = .ok tokens final) ↔
        Token.Tiles source.toList 0 tokens) ∧
      ∀ others, Token.Tiles source.toList 0 tokens → Token.Tiles source.toList 0 others →
        tokens = others :=
  ⟨exists_tokenize_iff_tiles, fun _ left right => tiles_unique left right⟩

/-- A number next to a word is not cut in two. -/
theorem tiles_number_word :
    Token.Tiles "12é".toList 0
        [⟨.integer, "12", ⟨0, 2⟩⟩, ⟨.identifier, "é", ⟨2, 3⟩⟩, .atEnd 3] ∧
      ¬Token.Tiles "12é".toList 0 [⟨.integer, "1", ⟨0, 1⟩⟩, ⟨.integer, "2", ⟨1, 2⟩⟩,
        ⟨.identifier, "é", ⟨2, 3⟩⟩, .atEnd 3] := by
  have run : (ofSource "12é").Yields
      [⟨.integer, "12", ⟨0, 2⟩⟩, ⟨.identifier, "é", ⟨2, 3⟩⟩, .atEnd 3] ⟨[], 3⟩ :=
    .cons rfl (.cons rfl (.cons rfl (.nil _)))
  have cut := tokenize_eq_ok_iff.mpr ⟨run, [_, _], _, rfl, rfl, by decide⟩
  obtain ⟨cuts, unique⟩ := tokenize_eq_ok_iff_tiles "12é" _
  have tiles := cuts.mp ⟨_, cut⟩
  refine ⟨tiles, ?_⟩
  intro other
  exact absurd (unique _ tiles other) (by decide)

end Scanner

end Calculator
