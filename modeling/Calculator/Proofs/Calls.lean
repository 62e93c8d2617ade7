import Mathlib.Logic.Function.Iterate
import Calculator.Proofs.Places

/-!
# Calls of a scanner

A scanner can be called again after a failure. A call passes over white space and then over the text
of its answer, see `passes_beyond`, so calls one after the other account for every character in
front of the place they have reached. A call that takes no text is the last that moves the scanner,
see `next_beyond`: this bounds the calls that do, and the tokens of a text. `calls_account` says all
this of any number of calls.
-/

namespace Calculator.Scanner

/-- The other scanner stands behind the given characters, which are ahead of the one. -/
def Passes (scanner : Scanner) (text : List Char) (other : Scanner) : Prop :=
  scanner.rest = text ++ other.rest ∧ other.position = scanner.position + text.length

/-- What a scanner answers when it is called. -/
def answer (scanner : Scanner) : Except Fault Token :=
  match scanner.next with
  | .ok token _ => .ok token
  | .error fault _ => .error fault

/-- The scanner after a call, whatever it has answered. -/
def beyond (scanner : Scanner) : Scanner :=
  match scanner.next with
  | .ok _ after | .error _ after => after

/-- The white space that a call passes over. -/
def skipped (scanner : Scanner) : List Char :=
  scanner.rest.takeWhile Unicode.isWhitespace

/-- The characters that an answer takes from the text: those of a token, or the digits of a number
out of range. -/
def textOf : Except Fault Token → List Char
  | .ok token => token.lexeme.toList
  | .error ⟨.malformedInteger text, _⟩ => text.toList
  | .error _ => []

/-- The answer is a token that is not the end of the input, or a number out of range. -/
def takes : Except Fault Token → Bool
  | .ok token => token.kind ≠ .endOfInput
  | .error ⟨.malformedInteger _, _⟩ => true
  | .error _ => false

/-- Further calls neither move the scanner nor change its answer. -/
def AtRest (scanner : Scanner) : Prop :=
  ∀ count, beyond^[count] scanner.beyond = scanner.beyond ∧
    (beyond^[count] scanner.beyond).answer = scanner.answer

section
variable {scanner between other : Scanner} {text more : List Char}

theorem passes_nil (scanner : Scanner) : scanner.Passes [] scanner :=
  ⟨rfl, rfl⟩

theorem Passes.trans (first : scanner.Passes text between) (second : between.Passes more other) :
    scanner.Passes (text ++ more) other := by
  refine ⟨?_, ?_⟩
  · rw [first.1, second.1, List.append_assoc]
  · rw [second.2, first.2, List.length_append, Nat.add_assoc]

theorem passes_past (scanner : Scanner) (test : Char → Bool) :
    scanner.Passes (scanner.rest.takeWhile test) (scanner.past test) :=
  ⟨List.takeWhile_append_dropWhile.symm, rfl⟩

theorem Passes.extent_eq (h : scanner.Passes text other) : other.extent = scanner.extent := by
  rw [extent, extent, h.1, h.2, List.length_append]
  omega

theorem Passes.of_source {source : String} (h : (ofSource source).Passes text other) :
    source.toList.take other.position = text ∧ source.toList.drop other.position = other.rest := by
  have split : source.toList = text ++ other.rest := h.1
  have place : other.position = text.length := h.2.trans (Nat.zero_add _)
  rw [split, place]
  exact ⟨List.take_left, List.drop_left⟩

/-! ### One call -/

theorem answer_of_ok {token : Token} (h : scanner.next = .ok token other) :
    scanner.answer = .ok token := by
  rw [answer, h]

theorem answer_of_error {fault : Fault} (h : scanner.next = .error fault other) :
    scanner.answer = .error fault := by
  rw [answer, h]

theorem beyond_of_ok {token : Token} (h : scanner.next = .ok token other) :
    scanner.beyond = other := by
  rw [beyond, h]

theorem beyond_of_error {fault : Fault} (h : scanner.next = .error fault other) :
    scanner.beyond = other := by
  rw [beyond, h]

/-- A call passes over white space and over the text of its answer, and over nothing else. -/
theorem passes_beyond (scanner : Scanner) :
    scanner.Passes (scanner.skipped ++ textOf scanner.answer) scanner.beyond := by
  refine (passes_past scanner Unicode.isWhitespace).trans ?_
  cases scanned : scanner.next with
  | ok token after =>
    rw [answer_of_ok scanned, beyond_of_ok scanned]
    have found := finds_of_next scanned
    by_cases ends : token.kind = .endOfInput
    · obtain ⟨_, rfl, rfl⟩ := found.kind_eq_endOfInput ends
      exact passes_nil _
    · obtain ⟨_, split, place, _⟩ := found.spells ends
      exact ⟨split, place⟩
  | error fault after =>
    rw [answer_of_error scanned, beyond_of_error scanned]
    have found := finds_of_next scanned
    cases found with
    | excess =>
      rw [textOf, run, String.toList_ofList]
      exact passes_past _ _
    | unknown => exact passes_nil _

theorem textOf_ne_nil (h : takes scanner.answer = true) : textOf scanner.answer ≠ [] := by
  cases scanned : scanner.next with
  | ok token after =>
    rw [answer_of_ok scanned] at h ⊢
    exact (lexeme_of_scanned ⟨_, _, scanned⟩ (of_decide_eq_true h)).ne_nil
  | error fault after =>
    rw [answer_of_error scanned] at h ⊢
    have found := finds_of_next scanned
    cases found with
    | excess ahead digit =>
      rw [textOf, run, String.toList_ofList]
      exact (takeWhile_ahead ahead digit).1
    | unknown => cases h

/-- A call that takes no text leaves the scanner at the end of the input, or in front of a character
that begins no token. -/
theorem still_cases (h : takes scanner.answer = false) :
    scanner.beyond = scanner.past Unicode.isWhitespace ∧
      ((scanner.answer = .ok (.atEnd scanner.beyond.position) ∧ scanner.beyond.rest = []) ∨
        ∃ c rest, scanner.answer =
            .error ⟨.unrecognizedCharacter c, .single scanner.beyond.position⟩ ∧
          scanner.beyond.rest = c :: rest) := by
  cases scanned : scanner.next with
  | ok token after =>
    rw [answer_of_ok scanned] at h ⊢
    rw [beyond_of_ok scanned]
    have found := finds_of_next scanned
    obtain ⟨ahead, rfl, rfl⟩ := found.kind_eq_endOfInput (by simpa [takes] using h)
    exact ⟨rfl, .inl ⟨rfl, ahead⟩⟩
  | error fault after =>
    rw [answer_of_error scanned] at h ⊢
    rw [beyond_of_error scanned]
    have found := finds_of_next scanned
    cases found with
    | excess => cases h
    | unknown ahead => exact ⟨rfl, .inr ⟨_, _, rfl, ahead⟩⟩

theorem past_past (scanner : Scanner) (test : Char → Bool) :
    (scanner.past test).past test = scanner.past test := by
  cases here : scanner.past test with
  | mk rest position =>
    cases rest with
    | nil => rfl
    | cons c rest => exact past_of_head (head?_past test (congrArg Scanner.rest here))

theorem next_beyond (h : takes scanner.answer = false) : scanner.beyond.next = scanner.next := by
  rw [(still_cases h).1, next, past_past]
  rfl

theorem atRest_of_still (h : takes scanner.answer = false) : scanner.AtRest := by
  have same := next_beyond h
  have fixed : scanner.beyond.beyond = scanner.beyond := by
    rw [beyond, same]
    rfl
  intro count
  rw [Function.iterate_fixed fixed]
  refine ⟨rfl, ?_⟩
  rw [answer, same]
  rfl

/-! ### Calls one after the other -/

/-- The characters that a number of calls pass over, call by call. -/
def account (scanner : Scanner) (count : Nat) : List Char :=
  (List.range count).flatMap fun earlier =>
    (beyond^[earlier] scanner).skipped ++ textOf (beyond^[earlier] scanner).answer

/-- The number of calls, of so many, that take text. -/
def takings (scanner : Scanner) (count : Nat) : Nat :=
  (List.range count).countP fun earlier => takes (beyond^[earlier] scanner).answer

theorem passes_calls (scanner : Scanner) (count : Nat) :
    scanner.Passes (scanner.account count) (beyond^[count] scanner) := by
  induction count with
  | zero => exact passes_nil scanner
  | succ count ih =>
    rw [account, List.range_succ, List.flatMap_append, List.flatMap_singleton,
      Function.iterate_succ_apply']
    exact ih.trans (passes_beyond _)

theorem lt_beyond (h : takes scanner.answer = true) :
    scanner.position < scanner.beyond.position := by
  have some := List.length_pos_iff.mpr (textOf_ne_nil h)
  rw [(passes_beyond scanner).2, List.length_append]
  omega

theorem takings_le (scanner : Scanner) (count : Nat) :
    scanner.position + scanner.takings count ≤ (beyond^[count] scanner).position := by
  induction count with
  | zero => exact Nat.le_refl _
  | succ count ih =>
    rw [takings, List.range_succ, List.countP_append, List.countP_singleton,
      Function.iterate_succ_apply']
    rw [takings] at ih
    split
    · rename_i more
      have := lt_beyond more
      omega
    · have := (passes_beyond (beyond^[count] scanner)).2
      omega

/-- Tokenizing comes to the end of the input or to a failure, after at most as many tokens as there
are characters ahead. -/
theorem tokenize_ends (scanner : Scanner) :
    ∃ tokens between, scanner.Yields tokens between ∧
      (∀ token ∈ tokens, token.kind ≠ .endOfInput) ∧ tokens.length ≤ scanner.rest.length ∧
      ((∃ after, between.next = .ok (.atEnd scanner.extent) after ∧
          scanner.tokenize = .ok (tokens ++ [.atEnd scanner.extent]) after) ∨
        ∃ fault after, between.next = .error fault after ∧
          scanner.tokenize = .error fault after) := by
  obtain ⟨tokens, between, run, more, stops⟩ := exists_run scanner
  refine ⟨tokens, between, run, more, ?_, ?_⟩
  · exact Nat.le_trans (Nat.le_add_right _ _) (run.length_le more)
  · rw [run.tokenize_eq more]
    rcases stops with ⟨token, after, scanned, ends⟩ | ⟨fault, after, failed⟩
    · rw [tokenize_of_end scanned ends]
      obtain ⟨rfl, _⟩ := next_atEnd scanned ends
      rw [run.extent_eq] at scanned ⊢
      exact .inl ⟨after, scanned, rfl⟩
    · rw [tokenize_of_error failed]
      exact .inr ⟨fault, after, failed, rfl⟩

end

/-- Calls of a scanner, as many as there may be, read the text from its begin without a gap, and
none goes back. A call that takes text moves on, so there are no more of them than characters. Any
other call is at the end of the text or in front of a character that begins no token, and so are all
calls behind it. Wherever calls have led, tokenizing comes to an end, with at most one token for
each character ahead and one for the end. -/
theorem calls_account (source : String) (count : Nat) :
    let start := ofSource source
    let here := beyond^[count] start
    here.position ≤ here.beyond.position ∧ here.beyond.position ≤ source.length ∧
    source.toList.take here.position = start.account count ∧
    start.takings count ≤ source.length ∧
    (takes here.answer = true → here.position < here.beyond.position) ∧
    (takes here.answer = false → here.AtRest ∧
      ((here.answer = .ok (.atEnd source.length) ∧ here.beyond.position = source.length) ∨
        ∃ c, here.answer = .error ⟨.unrecognizedCharacter c, .single here.beyond.position⟩ ∧
          source.toList[here.beyond.position]? = some c)) ∧
    ∃ tokens between, here.Yields tokens between ∧
      (∀ token ∈ tokens, token.kind ≠ .endOfInput) ∧
      tokens.length ≤ source.length - here.position ∧
      ((∃ after, between.next = .ok (.atEnd source.length) after ∧
          here.tokenize = .ok (tokens ++ [.atEnd source.length]) after) ∨
        ∃ fault after, between.next = .error fault after ∧
          here.tokenize = .error fault after) := by
  intro start here
  have passes : start.Passes (start.account count) here := passes_calls start count
  have next : here.Passes _ here.beyond := passes_beyond here
  have whole : here.position + here.rest.length = source.length :=
    passes.extent_eq.trans (extent_ofSource source)
  have whole' : here.beyond.position + here.beyond.rest.length = source.length :=
    next.extent_eq.trans whole
  refine ⟨?_, ?_, passes.of_source.1, ?_, lt_beyond, ?_, ?_⟩
  · rw [next.2]
    exact Nat.le_add_right _ _
  · omega
  · have bound : 0 + start.takings count ≤ here.position := takings_le start count
    omega
  · intro still
    refine ⟨atRest_of_still still, ?_⟩
    rcases (still_cases still).2 with ⟨answered, ahead⟩ | ⟨c, rest, answered, ahead⟩
    · rw [ahead, List.length_nil, Nat.add_zero] at whole'
      rw [answered, whole']
      exact .inl ⟨rfl, rfl⟩
    · refine .inr ⟨c, answered, ?_⟩
      rw [← List.head?_drop, (passes.trans next).of_source.2, ahead, List.head?_cons]
  · have ends := tokenize_ends here
    rwa [extent, whole, ← Nat.sub_eq_of_eq_add' whole.symm] at ends

end Calculator.Scanner
