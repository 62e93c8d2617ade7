import Calculator.Token.Scanner

/-!
# The stream of tokens

`Finds` lists what a scanner can meet at a position. `Yields` is a run of a scanner over several
tokens, and `tokenize_eq_ok_iff` says that tokenizing a text is such a run up to the end of the
input.
-/

namespace Calculator

namespace Token

theorem kind_ne_of_ofSymbol? {c : Char} {kind : Kind} (h : Kind.ofSymbol? c = some kind) :
    kind ≠ .endOfInput ∧ kind ≠ .integer ∧ kind ≠ .identifier ∧ kind ≠ .keyword := by
  unfold Kind.ofSymbol? at h
  split at h
  all_goals cases h
  all_goals decide

theorem eq_of_ofSymbol? {c d : Char} {kind : Kind}
    (left : Kind.ofSymbol? c = some kind) (right : Kind.ofSymbol? d = some kind) :
    c = d := by
  unfold Kind.ofSymbol? at left right
  split at left <;> cases left <;> split at right <;> cases right <;> rfl

theorem kind_of_wordKind {word : String} {kind : Kind} (h : wordKind word = kind) :
    kind = .keyword ∨ kind = .identifier := by
  unfold wordKind at h
  split at h
  · exact .inl h.symm
  · exact .inr h.symm

/-- Tokens up to the end of the input, which stands nowhere else among them. -/
def Complete (tokens : List Token) : Prop :=
  ∃ before final, tokens = before ++ [final] ∧ final.kind = .endOfInput ∧
    ∀ token ∈ before, token.kind ≠ .endOfInput

theorem not_complete_nil : ¬Complete [] := by
  rintro ⟨before, final, split, _⟩
  simp at split

theorem complete_cons_iff {token : Token} {tokens : List Token} :
    Complete (token :: tokens) ↔
      (token.kind = .endOfInput ∧ tokens = []) ∨
        (token.kind ≠ .endOfInput ∧ Complete tokens) := by
  constructor
  · rintro ⟨before, final, split, ends, others⟩
    cases before with
    | nil =>
      obtain ⟨rfl, rfl⟩ := List.cons.inj split
      exact .inl ⟨ends, rfl⟩
    | cons head before =>
      obtain ⟨rfl, rfl⟩ := List.cons.inj split
      have ⟨first, others⟩ := List.forall_mem_cons.mp others
      exact .inr ⟨first, before, final, rfl, ends, others⟩
  · rintro (⟨ends, rfl⟩ | ⟨more, before, final, rfl, ends, others⟩)
    · exact ⟨[], token, rfl, ends, by simp⟩
    · exact ⟨token :: before, final, rfl, ends, List.forall_mem_cons.mpr ⟨more, others⟩⟩

theorem Complete.eq_nil {tokens rest : List Token} (h : Complete tokens)
    (longer : Complete (tokens ++ rest)) : rest = [] := by
  induction tokens with
  | nil => exact absurd h not_complete_nil
  | cons token tokens ih =>
    rcases complete_cons_iff.mp h with ⟨ends, rfl⟩ | ⟨more, complete⟩
    · rcases complete_cons_iff.mp longer with ⟨_, same⟩ | ⟨more, _⟩
      · exact same
      · exact absurd ends more
    · rcases complete_cons_iff.mp longer with ⟨ends, _⟩ | ⟨_, longer⟩
      · exact absurd ends more
      · exact ih complete longer

end Token

namespace Scanner

/-! ### What stands at a position -/

/-- What can stand at the position of a scanner, and what the scanner makes of it. -/
inductive Finds (here : Scanner) : EStateM.Result Fault Scanner Token → Prop where
  | final (ahead : here.rest = []) : Finds here (.ok (.atEnd here.position) here)
  | number {c : Char} {rest : List Char} {value : Int64} (ahead : here.rest = c :: rest)
      (digit : c.isDigit = true) (read : Numeral.read? (here.run Char.isDigit) = some value) :
      Finds here (.ok ⟨.integer, here.run Char.isDigit, here.runSpan Char.isDigit⟩
        (here.past Char.isDigit))
  | excess {c : Char} {rest : List Char} (ahead : here.rest = c :: rest)
      (digit : c.isDigit = true) (read : Numeral.read? (here.run Char.isDigit) = none) :
      Finds here (.error ⟨.malformedInteger (here.run Char.isDigit), here.runSpan Char.isDigit⟩
        (here.past Char.isDigit))
  | word {c : Char} {rest : List Char} (ahead : here.rest = c :: rest)
      (digit : c.isDigit = false) (start : Token.isWordStart c = true) :
      Finds here (.ok ⟨Token.wordKind (here.run Token.isWordPart), here.run Token.isWordPart,
        here.runSpan Token.isWordPart⟩ (here.past Token.isWordPart))
  | symbol {c : Char} {rest : List Char} {kind : Token.Kind} (ahead : here.rest = c :: rest)
      (digit : c.isDigit = false) (start : Token.isWordStart c = false)
      (symbol : Token.Kind.ofSymbol? c = some kind) :
      Finds here (.ok ⟨kind, c.toString, .single here.position⟩ ⟨rest, here.position + 1⟩)
  | unknown {c : Char} {rest : List Char} (ahead : here.rest = c :: rest)
      (digit : c.isDigit = false) (start : Token.isWordStart c = false)
      (symbol : Token.Kind.ofSymbol? c = none) :
      Finds here (.error ⟨.unrecognizedCharacter c, .single here.position⟩ here)

theorem finds_tokenHere (here : Scanner) : Finds here here.tokenHere := by
  unfold tokenHere
  split
  · rename_i ahead
    exact .final ahead
  · rename_i c rest ahead
    split
    · rename_i digit
      cases read : Numeral.read? (here.run Char.isDigit) with
      | some value =>
        simp only [integer, read]
        exact .number ahead digit read
      | none =>
        simp only [integer, read]
        exact .excess ahead digit read
    · rename_i digit
      have digit := Bool.eq_false_iff.mpr digit
      split
      · rename_i start
        exact .word ahead digit start
      · rename_i start
        have start := Bool.eq_false_iff.mpr start
        split
        · rename_i kind symbol
          exact .symbol ahead digit start symbol
        · rename_i symbol
          exact .unknown ahead digit start symbol

theorem finds_of_next {scanner : Scanner} {result : EStateM.Result Fault Scanner Token}
    (h : scanner.next = result) : Finds (scanner.past Unicode.isWhitespace) result :=
  h ▸ finds_tokenHere _

theorem Finds.kind_eq_endOfInput {here after : Scanner} {token : Token}
    (h : Finds here (.ok token after)) (ends : token.kind = .endOfInput) :
    here.rest = [] ∧ token = .atEnd here.position ∧ after = here := by
  cases h with
  | final ahead => exact ⟨ahead, rfl, rfl⟩
  | number => cases ends
  | word =>
    rcases Token.kind_of_wordKind ends with kind | kind <;> cases kind
  | symbol _ _ _ symbol => exact absurd ends (Token.kind_ne_of_ofSymbol? symbol).1

/-! ### Positions -/

/-- The number of characters of the text that a scanner is in. -/
def extent (scanner : Scanner) : Nat :=
  scanner.position + scanner.rest.length

theorem extent_ofSource (source : String) : (ofSource source).extent = source.length := by
  simp [extent, ofSource, String.length_toList]

theorem extent_past (scanner : Scanner) (test : Char → Bool) :
    (scanner.past test).extent = scanner.extent := by
  have split : scanner.rest.takeWhile test ++ scanner.rest.dropWhile test = scanner.rest :=
    List.takeWhile_append_dropWhile
  have split := congrArg List.length split
  rw [List.length_append] at split
  simp only [extent, past]
  omega

theorem extent_next {scanner after : Scanner} {token : Token}
    (h : scanner.next = .ok token after) : after.extent = scanner.extent := by
  have found := finds_of_next h
  rw [← extent_past scanner Unicode.isWhitespace]
  cases found with
  | final => rfl
  | number | word => exact extent_past _ _
  | symbol ahead =>
    simp only [extent, ahead, List.length_cons]
    omega

theorem next_atEnd {scanner after : Scanner} {token : Token} (h : scanner.next = .ok token after)
    (ends : token.kind = .endOfInput) :
    token = .atEnd scanner.extent ∧ after = ⟨[], scanner.extent⟩ := by
  have found := finds_of_next h
  obtain ⟨ahead, rfl, rfl⟩ := found.kind_eq_endOfInput ends
  have position : (scanner.past Unicode.isWhitespace).position = scanner.extent := by
    rw [← extent_past scanner Unicode.isWhitespace, extent, ahead]
    rfl
  refine ⟨by rw [position], ?_⟩
  rw [← position, ← ahead]

theorem next_nil (position : Nat) :
    (⟨[], position⟩ : Scanner).next = .ok (.atEnd position) ⟨[], position⟩ := rfl

/-! ### Runs of a scanner -/

/-- The scanner hands out the tokens one after the other. -/
inductive Yields : Scanner → List Token → Scanner → Prop where
  | nil (scanner : Scanner) : Yields scanner [] scanner
  | cons {scanner between after : Scanner} {token : Token} {tokens : List Token}
      (scanned : scanner.next = .ok token between) (more : Yields between tokens after) :
      Yields scanner (token :: tokens) after

variable {scanner between after final : Scanner} {token : Token} {tokens others : List Token}

theorem yields_cons_iff :
    scanner.Yields (token :: tokens) after ↔
      ∃ between, scanner.next = .ok token between ∧ between.Yields tokens after := by
  constructor
  · rintro ⟨⟩
    exact ⟨_, ‹_›, ‹_›⟩
  · rintro ⟨between, scanned, more⟩
    exact .cons scanned more

theorem yields_append_iff :
    scanner.Yields (tokens ++ others) after ↔
      ∃ between, scanner.Yields tokens between ∧ between.Yields others after := by
  constructor
  · intro h
    induction tokens generalizing scanner with
    | nil => exact ⟨scanner, .nil scanner, h⟩
    | cons token tokens ih =>
      obtain ⟨middle, scanned, more⟩ := yields_cons_iff.mp h
      obtain ⟨between, first, second⟩ := ih more
      exact ⟨between, .cons scanned first, second⟩
  · rintro ⟨between, first, second⟩
    induction first with
    | nil => exact second
    | cons scanned _ ih => exact .cons scanned (ih second)

theorem yields_singleton_iff :
    scanner.Yields [token] after ↔ scanner.next = .ok token after := by
  rw [yields_cons_iff]
  constructor
  · rintro ⟨_, scanned, ⟨⟩⟩
    exact scanned
  · intro scanned
    exact ⟨after, scanned, .nil after⟩

theorem Yields.next_of_ne_nil (run : scanner.Yields tokens after) (some : tokens ≠ []) :
    ∃ token between, scanner.next = .ok token between := by
  cases run with
  | nil => exact absurd rfl some
  | cons scanned => exact ⟨_, _, scanned⟩

theorem Yields.prefix_or_prefix (left : scanner.Yields tokens after)
    (right : scanner.Yields others final) :
    (∃ rest, others = tokens ++ rest ∧ after.Yields rest final) ∨
      (∃ rest, tokens = others ++ rest ∧ final.Yields rest after) := by
  induction left generalizing others with
  | nil => exact .inl ⟨others, rfl, right⟩
  | @cons _ _ _ token tokens scanned more ih =>
    cases right with
    | nil => exact .inr ⟨token :: tokens, rfl, .cons scanned more⟩
    | cons scanned' more' =>
      rw [scanned] at scanned'
      cases scanned'
      rcases ih more' with ⟨rest, rfl, run⟩ | ⟨rest, rfl, run⟩
      · exact .inl ⟨rest, rfl, run⟩
      · exact .inr ⟨rest, rfl, run⟩

theorem concat_eq_append {longer rest : List Token} {last : Token}
    (split : longer ++ [last] = tokens ++ [token] ++ rest) :
    (tokens = longer ∧ token = last) ∨
      ∃ more, longer = tokens ++ token :: more ∧ rest = more ++ [last] := by
  rcases List.eq_nil_or_concat rest with rfl | ⟨more, end', rfl⟩
  · rw [List.append_nil] at split
    obtain ⟨rfl, same⟩ := List.append_inj' split rfl
    exact .inl ⟨rfl, (List.cons.inj same).1.symm⟩
  · rw [List.concat_eq_append, ← List.append_assoc] at split
    obtain ⟨rfl, same⟩ := List.append_inj' split rfl
    obtain ⟨rfl, _⟩ := List.cons.inj same
    exact .inr ⟨more, by simp, by simp⟩

/-- Two runs from one place end with the same token, or one ends inside the other. -/
theorem Yields.compare {other : Token} (left : scanner.Yields (tokens ++ [token]) after)
    (right : scanner.Yields (others ++ [other]) final) :
    (tokens = others ∧ token = other) ∨
      (∃ rest, others = tokens ++ token :: rest ∧ after.Yields (rest ++ [other]) final) ∨
      ∃ rest, tokens = others ++ other :: rest ∧ final.Yields (rest ++ [token]) after := by
  rcases left.prefix_or_prefix right with ⟨rest, split, run⟩ | ⟨rest, split, run⟩
  · rcases concat_eq_append split with ⟨rfl, rfl⟩ | ⟨more, rfl, rfl⟩
    · exact .inl ⟨rfl, rfl⟩
    · exact .inr (.inl ⟨more, rfl, run⟩)
  · rcases concat_eq_append split with ⟨rfl, rfl⟩ | ⟨more, rfl, rfl⟩
    · exact .inl ⟨rfl, rfl⟩
    · exact .inr (.inr ⟨more, rfl, run⟩)

theorem Yields.extent_eq (h : scanner.Yields tokens after) : after.extent = scanner.extent := by
  induction h with
  | nil => rfl
  | cons scanned _ ih => exact ih.trans (extent_next scanned)

theorem next_of_endOfInput (h : scanner.next = .ok token after) (ends : token.kind = .endOfInput) :
    after.next = .ok token after := by
  obtain ⟨rfl, rfl⟩ := next_atEnd h ends
  exact next_nil _

theorem tokenize_of_end (scanned : scanner.next = .ok token after)
    (ends : token.kind = .endOfInput) : scanner.tokenize = .ok [token] after := by
  rw [tokenize]
  split
  · rename_i failed
    cases scanned.symm.trans failed
  · rename_i reads
    cases scanned.symm.trans reads
    rw [dif_pos ends]

theorem tokenize_of_more (scanned : scanner.next = .ok token between)
    (more : token.kind ≠ .endOfInput) :
    scanner.tokenize = match between.tokenize with
      | .error fault final => .error fault final
      | .ok tokens final => .ok (token :: tokens) final := by
  rw [tokenize]
  split
  · rename_i failed
    cases scanned.symm.trans failed
  · rename_i reads
    cases scanned.symm.trans reads
    exact dif_neg more

theorem tokenize_of_error {fault : Fault} (failed : scanner.next = .error fault after) :
    scanner.tokenize = .error fault after := by
  rw [tokenize]
  split
  · rename_i reads
    cases failed.symm.trans reads
    rfl
  · rename_i scanned
    cases failed.symm.trans scanned

theorem Yields.tokenize_eq (run : scanner.Yields tokens between)
    (more : ∀ token ∈ tokens, token.kind ≠ .endOfInput) :
    scanner.tokenize = match between.tokenize with
      | .error fault final => .error fault final
      | .ok others final => .ok (tokens ++ others) final := by
  induction run with
  | nil scanner =>
    cases scanner.tokenize with
    | error fault final => rfl
    | ok others final => rfl
  | @cons _ _ final _ _ scanned _ ih =>
    obtain ⟨first, more⟩ := List.forall_mem_cons.mp more
    rw [tokenize_of_more scanned first, ih more]
    cases final.tokenize with
    | error fault final => rfl
    | ok others final => rfl

theorem Yields.length_le (run : scanner.Yields tokens after)
    (more : ∀ token ∈ tokens, token.kind ≠ .endOfInput) :
    tokens.length + after.rest.length ≤ scanner.rest.length := by
  induction run with
  | nil => simp
  | cons scanned _ ih =>
    obtain ⟨first, more⟩ := List.forall_mem_cons.mp more
    have shorter := next_shortens scanned first
    have bound := ih more
    rw [List.length_cons]
    omega

/-- A scanner hands out tokens up to the end of the input or to a failure. -/
theorem exists_run (scanner : Scanner) :
    ∃ tokens between, scanner.Yields tokens between ∧
      (∀ token ∈ tokens, token.kind ≠ .endOfInput) ∧
      ((∃ token after, between.next = .ok token after ∧ token.kind = .endOfInput) ∨
        ∃ fault after, between.next = .error fault after) := by
  induction size : scanner.rest.length using Nat.strongRecOn generalizing scanner with
  | ind size ih =>
    cases scanned : scanner.next with
    | error fault after => exact ⟨[], scanner, .nil scanner, by simp, .inr ⟨fault, after, scanned⟩⟩
    | ok token after =>
      by_cases ends : token.kind = .endOfInput
      · exact ⟨[], scanner, .nil scanner, by simp, .inl ⟨token, after, scanned, ends⟩⟩
      · obtain ⟨tokens, between, run, more, stops⟩ :=
          ih _ (size ▸ next_shortens scanned ends) after rfl
        exact ⟨token :: tokens, between, .cons scanned run, List.forall_mem_cons.mpr ⟨ends, more⟩,
          stops⟩

/-- Tokenizing is a run of the scanner up to the end of the input. -/
theorem tokenize_eq_ok_iff :
    scanner.tokenize = .ok tokens final ↔ scanner.Yields tokens final ∧ Token.Complete tokens := by
  constructor
  · intro h
    obtain ⟨front, between, run, more, ⟨last, after, scanned, ends⟩ | ⟨fault, after, failed⟩⟩ :=
      exists_run scanner
    · rw [run.tokenize_eq more, tokenize_of_end scanned ends] at h
      cases h
      exact ⟨yields_append_iff.mpr ⟨between, run, yields_singleton_iff.mpr scanned⟩,
        front, last, rfl, ends, more⟩
    · rw [run.tokenize_eq more, tokenize_of_error failed] at h
      cases h
  · rintro ⟨run, front, last, rfl, ends, more⟩
    obtain ⟨between, first, second⟩ := yields_append_iff.mp run
    rw [first.tokenize_eq more, tokenize_of_end (yields_singleton_iff.mp second) ends]

theorem tokenize_congr {other : Scanner} (same : scanner.next = other.next) :
    scanner.tokenize = other.tokenize := by
  cases scanned : other.next with
  | error fault after => rw [tokenize_of_error (same.trans scanned), tokenize_of_error scanned]
  | ok token after =>
    by_cases ends : token.kind = .endOfInput
    · rw [tokenize_of_end (same.trans scanned) ends, tokenize_of_end scanned ends]
    · rw [tokenize_of_more (same.trans scanned) ends, tokenize_of_more scanned ends]

theorem Yields.next_of_complete (run : scanner.Yields tokens after)
    (complete : Token.Complete tokens) : ∃ token, after.next = .ok token after := by
  obtain ⟨before, final, rfl, ends, _⟩ := complete
  obtain ⟨between, _, last⟩ := yields_append_iff.mp run
  exact ⟨final, next_of_endOfInput (yields_singleton_iff.mp last) ends⟩

/-! ### Looking ahead -/

theorem stops_past (scanner : Scanner) (test : Char → Bool) :
    ∀ c ∈ (scanner.past test).rest.head?, test c = false := by
  intro c head
  have head : (scanner.rest.dropWhile test).head? = some c := head
  have stops := List.head?_dropWhile_not test scanner.rest
  rwa [head] at stops

theorem head?_past (test : Char → Bool) {c : Char} {rest : List Char}
    (ahead : (scanner.past test).rest = c :: rest) : test c = false := by
  apply stops_past scanner test c
  rw [ahead]
  rfl

theorem peek_past (scanner : Scanner) {test : Char → Bool}
    (skips : ∀ c, test c = true → (Unicode.isWhitespace c || c.isDigit) = true) :
    (scanner.past test).peek 0 = scanner.peek 0 := by
  obtain ⟨rest, position⟩ := scanner
  simp only [peek, past, List.drop_zero]
  induction rest with
  | nil => rfl
  | cons c rest ih =>
    by_cases passes : test c = true
    · have skipped := skips c passes
      simpa [List.dropWhile_cons, passes, skipped] using ih
    · rw [List.dropWhile_cons_of_neg passes]

theorem peek_past_whitespace (scanner : Scanner) :
    (scanner.past Unicode.isWhitespace).peek 0 = scanner.peek 0 :=
  peek_past scanner fun c blank => by rw [blank, Bool.true_or]

theorem peek_of_rest {c : Char} {rest : List Char} (ahead : scanner.rest = c :: rest)
    (blank : Unicode.isWhitespace c = false) (digit : c.isDigit = false) :
    scanner.peek 0 = some c := by
  simp [peek, ahead, blank, digit]

theorem peek_of_equal (h : scanner.next = .ok token after) (equal : token.kind = .equal) :
    scanner.peek 0 = some '=' := by
  have found := finds_of_next h
  rw [← peek_past_whitespace]
  cases found with
  | final | number => cases equal
  | word =>
    rcases Token.kind_of_wordKind equal with kind | kind <;> cases kind
  | @symbol c _ _ ahead digit _ symbol =>
    subst equal
    have same : c = '=' := Token.eq_of_ofSymbol? symbol rfl
    exact same ▸ peek_of_rest ahead (head?_past _ ahead) digit

theorem isWordStart_equal : Token.isWordStart '=' = false := by
  decide +kernel

/-- Where an `=` is seen ahead, the next token is that or a number in front of it. -/
theorem kind_of_peek (h : scanner.next = .ok token after) (seen : scanner.peek 0 = some '=') :
    token.kind = .equal ∨ token.kind = .integer := by
  have found := finds_of_next h
  rw [← peek_past_whitespace] at seen
  cases found with
  | final ahead => simp [peek, ahead] at seen
  | number => exact .inr rfl
  | word ahead digit start =>
    rw [peek_of_rest ahead (head?_past _ ahead) digit] at seen
    cases seen
    rw [isWordStart_equal] at start
    cases start
  | symbol ahead digit _ symbol =>
    rw [peek_of_rest ahead (head?_past _ ahead) digit] at seen
    cases seen
    cases symbol
    exact .inl rfl

/-- What is seen ahead is the first token that is no number. -/
theorem peek_of_next (h : scanner.next = .ok token after) :
    (token.kind = .integer ∧ scanner.peek 0 = after.peek 0) ∨
      (token.kind ≠ .integer ∧ (scanner.peek 0 = some '=' ↔ token.kind = .equal)) := by
  have found := finds_of_next h
  rw [← peek_past_whitespace scanner]
  cases found with
  | final ahead => exact .inr ⟨by simp [Token.atEnd], by simp [peek, ahead, Token.atEnd]⟩
  | number =>
    exact .inl ⟨rfl, (peek_past _ fun c digit => by rw [digit, Bool.or_true]).symm⟩
  | word ahead digit start =>
    have no {kind : Token.Kind} (other : kind ≠ .keyword ∧ kind ≠ .identifier) :
        Token.wordKind ((scanner.past Unicode.isWhitespace).run Token.isWordPart) ≠ kind :=
      fun same => (Token.kind_of_wordKind same).elim other.1 other.2
    refine .inr ⟨no (by decide), ?_⟩
    rw [peek_of_rest ahead (head?_past _ ahead) digit]
    refine iff_of_false ?_ (no (by decide))
    rintro ⟨⟩
    rw [isWordStart_equal] at start
    cases start
  | @symbol c _ kind ahead digit _ symbol =>
    refine .inr ⟨(Token.kind_ne_of_ofSymbol? symbol).2.1, ?_⟩
    rw [peek_of_rest ahead (head?_past _ ahead) digit]
    constructor
    · rintro ⟨⟩
      cases symbol
      rfl
    · rintro rfl
      have same : c = '=' := Token.eq_of_ofSymbol? symbol rfl
      rw [same]

theorem Yields.peek_iff (run : scanner.Yields tokens after) (complete : Token.Complete tokens) :
    scanner.peek 0 = some '=' ↔
      ((tokens.map Token.kind).dropWhile (· = .integer)).head? = some .equal := by
  induction run with
  | nil => exact absurd complete Token.not_complete_nil
  | @cons _ _ _ token _ scanned more ih =>
    rcases peek_of_next scanned with ⟨integer, same⟩ | ⟨other, seen⟩
    · rcases Token.complete_cons_iff.mp complete with ⟨ends, _⟩ | ⟨_, complete⟩
      · cases integer.symm.trans ends
      · rw [same, ih complete, List.map_cons, List.dropWhile_cons_of_pos (by simp [integer])]
    · rw [seen, List.map_cons, List.dropWhile_cons_of_neg (by simp [other])]
      simp

end Scanner

namespace Token

/-- A token that a scanner hands out somewhere. -/
def Scanned (token : Token) : Prop :=
  ∃ before after : Scanner, before.next = .ok token after

theorem Scanned.read? {token : Token} (h : token.Scanned) (kind : token.kind = .integer) :
    ∃ value, Numeral.read? token.lexeme = some value := by
  obtain ⟨before, after, scanned⟩ := h
  have found := Scanner.finds_of_next scanned
  cases found with
  | final => cases kind
  | number _ _ read => exact ⟨_, read⟩
  | word =>
    rcases kind_of_wordKind kind with found | found <;> cases found
  | symbol _ _ _ symbol => exact absurd kind (kind_ne_of_ofSymbol? symbol).2.1

end Token

namespace Scanner

theorem Yields.scanned {scanner after : Scanner} {tokens : List Token}
    (h : scanner.Yields tokens after) : ∀ token ∈ tokens, token.Scanned := by
  induction h with
  | nil => simp
  | cons scanned _ ih => exact List.forall_mem_cons.mpr ⟨⟨_, _, scanned⟩, ih⟩

end Scanner

end Calculator
