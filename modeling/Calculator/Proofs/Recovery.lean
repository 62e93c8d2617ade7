import Calculator.Proofs.Calls
import Calculator.Proofs.Course

/-!
# Parsing on after a failure

A parser that has failed can be called again. It holds the last token that its scanner has handed
out, whatever calls came before, see `Holds`: a token that is refused stays in hand, and so does the
one in front of the place where the scanner fails. `resumes_of_failure` says so of every call that
fails, and which failures no later call gets over.
-/

namespace Calculator

namespace Scanner

/-- The last token among the answers to so many calls. -/
def lastToken? (scanner : Scanner) : Nat → Option Token
  | 0 => none
  | count + 1 =>
    match (beyond^[count] scanner).answer with
    | .ok token => some token
    | .error _ => scanner.lastToken? count

section
variable {scanner after : Scanner} {token : Token} {fault : Fault} {text : List Char}

theorem lexical_of_next (failed : scanner.next = .error fault after) :
    (∃ c, fault.cause = .unrecognizedCharacter c ∧ after.position = fault.span.start) ∨
      ∃ digits, fault.cause = .malformedInteger digits ∧ after.position = fault.span.stop := by
  have found := finds_of_next failed
  generalize scanner.past Unicode.isWhitespace = here at found
  cases found with
  | unknown => exact .inl ⟨_, rfl, rfl⟩
  | excess => exact .inr ⟨_, rfl, rfl⟩

theorem stands_of_error (h : scanner.Stands text) (failed : scanner.next = .error fault after) :
    after.Stands text := by
  have found := finds_of_next failed
  have stands := stands_past_whitespace h
  generalize scanner.past Unicode.isWhitespace = here at found stands
  cases found with
  | unknown => exact stands
  | excess =>
    apply stands_past stands
    intro c d _ _ stops
    exact stops

theorem Stands.eq_drop (h : scanner.Stands text) :
    scanner = ⟨text.drop scanner.position, scanner.position⟩ := by
  obtain ⟨read, split, place, _⟩ := h
  rw [split, place, List.drop_left, ← place]

theorem position_le_start (scanned : scanner.next = .ok token after) :
    scanner.position ≤ token.span.start := by
  by_cases ends : token.kind = .endOfInput
  · rw [(next_atEnd scanned ends).1]
    exact Nat.le_add_right _ _
  · exact (next_position scanned ends).1

theorem position_le_of_error (failed : scanner.next = .error fault after) :
    scanner.position ≤ after.position := by
  rw [← beyond_of_error failed, (passes_beyond scanner).2]
  exact Nat.le_add_right _ _

end

end Scanner

namespace Parser

def answer (mode : Mode) (parser : Parser) : Except Fault Tree :=
  match tree mode parser with
  | .ok tree _ => .ok tree
  | .error fault _ => .error fault

/-- The parser after a call, whatever it has answered. -/
def beyond (mode : Mode) (parser : Parser) : Parser :=
  match tree mode parser with
  | .ok _ after | .error _ after => after

/-- What calls one after the other answer. -/
def answers : List Mode → Parser → List (Except Fault Tree)
  | [], _ => []
  | mode :: modes, parser => parser.answer mode :: answers modes (parser.beyond mode)

def behind (modes : List Mode) (parser : Parser) : Parser :=
  modes.foldl (fun parser mode => parser.beyond mode) parser

section
variable {source : String} {mode : Mode} {parser between after : Parser} {token : Token}
  {taken : List Token} {fault : Fault} {result : Tree}

theorem answer_of_ok (h : tree mode parser = .ok result after) :
    parser.answer mode = .ok result ∧ parser.beyond mode = after := by
  rw [answer, beyond, h]
  exact ⟨rfl, rfl⟩

theorem answer_of_error (h : tree mode parser = .error fault after) :
    parser.answer mode = .error fault ∧ parser.beyond mode = after := by
  rw [answer, beyond, h]
  exact ⟨rfl, rfl⟩

theorem answers_of_ok (h : tree mode parser = .ok result after) (modes : List Mode) :
    parser.answers (mode :: modes) = .ok result :: after.answers modes := by
  rw [answers, (answer_of_ok h).1, (answer_of_ok h).2]

theorem answers_of_error (h : tree mode parser = .error fault after) (modes : List Mode) :
    parser.answers (mode :: modes) = .error fault :: after.answers modes := by
  rw [answers, (answer_of_error h).1, (answer_of_error h).2]

theorem answers_of_fixed {good : Except Fault Tree → Prop}
    (fixed : ∀ mode, parser.beyond mode = parser ∧ good (parser.answer mode))
    (modes : List Mode) :
    parser.behind modes = parser ∧ ∀ answer ∈ parser.answers modes, good answer := by
  induction modes with
  | nil => exact ⟨rfl, by simp [answers]⟩
  | cons mode modes ih =>
    obtain ⟨same, first⟩ := fixed mode
    rw [answers, behind, List.foldl_cons, same]
    exact ⟨ih.1, List.forall_mem_cons.mpr ⟨first, ih.2⟩⟩

/-! ### What calls of the scanner keep -/

/-- A property of parsers that calls of the scanner keep, whether or not they give a token. -/
structure Kept (motive : Parser → Prop) : Prop where
  pulled : ∀ ⦃parser token scanner⦄, motive parser → parser.scanner.next = .ok token scanner →
    motive ⟨scanner, token⟩
  failed : ∀ ⦃parser fault scanner⦄, motive parser → parser.scanner.next = .error fault scanner →
    motive ⟨scanner, parser.current⟩

theorem Kept.consumes {motive : Parser → Prop} (kept : Kept motive) (start : motive parser)
    (consumes : parser.Consumes taken after) : motive after := by
  induction taken generalizing parser with
  | nil => exact consumes_nil_iff.mp consumes ▸ start
  | cons token taken ih =>
    obtain ⟨next, scanner, scanned, consumes⟩ := consumes.uncons
    exact ih (kept.pulled start scanned) consumes

/-- A call that fails refuses the token that it has come to, or ends where the scanner fails. -/
theorem failed_cases (held : parser.current.Scanned) (failed : tree mode parser = .error fault after) :
    (∃ taken expected, parser.Consumes taken after ∧ fault = after.unexpected expected) ∨
      ∃ taken between scanner, parser.Consumes taken between ∧
        between.scanner.next = .error fault scanner ∧ after = ⟨scanner, between.current⟩ := by
  have course := course_tree mode held
  rw [failed] at course
  cases course with
  | refused consumes => exact .inl ⟨_, _, consumes, rfl⟩
  | broken consumes broken => exact .inr ⟨_, _, _, consumes, broken, rfl⟩

theorem Kept.beyond {motive : Parser → Prop} (kept : Kept motive) (held : parser.current.Scanned)
    (start : motive parser) (mode : Mode) : motive (parser.beyond mode) := by
  cases ran : tree mode parser with
  | ok result after =>
    have course := course_tree mode held
    rw [ran] at course
    rw [(answer_of_ok ran).2]
    cases course with
    | done consumes => exact kept.consumes start consumes
  | error fault after =>
    rw [(answer_of_error ran).2]
    rcases failed_cases held ran with ⟨_, _, consumes, _⟩ | ⟨_, _, _, consumes, failed, rfl⟩
    · exact kept.consumes start consumes
    · exact kept.failed (kept.consumes start consumes) failed

theorem Kept.reachable {motive : Parser → Prop} (kept : Kept motive)
    (opened : ∀ parser, ofSource source = .ok parser → motive parser)
    (reachable : Reachable source parser) : motive parser := by
  induction reachable with
  | opened ran => exact opened _ ran
  | @read _ _ mode _ before ended ih =>
    rw [← (answer_of_ok ended).2]
    exact kept.beyond before.scanned ih mode
  | @failed _ _ mode _ before ended ih =>
    rw [← (answer_of_error ended).2]
    exact kept.beyond before.scanned ih mode

/-! ### The token in hand -/

/-- So many calls have led the scanner to where it is, and the last token that it has handed out is
in hand. -/
def Holds (source : String) (calls : Nat) (parser : Parser) : Prop :=
  parser.scanner = Scanner.beyond^[calls] (Scanner.ofSource source) ∧
    (Scanner.ofSource source).lastToken? calls = some parser.current

theorem Holds.pulled {calls : Nat} {scanner : Scanner} (h : parser.Holds source calls)
    (scanned : parser.scanner.next = .ok token scanner) :
    Holds source (calls + 1) ⟨scanner, token⟩ := by
  rw [Holds, Function.iterate_succ_apply', Scanner.lastToken?, ← h.1, Scanner.beyond_of_ok scanned,
    Scanner.answer_of_ok scanned]
  exact ⟨rfl, rfl⟩

theorem Holds.failed {calls : Nat} {scanner : Scanner} (h : parser.Holds source calls)
    (failed : parser.scanner.next = .error fault scanner) :
    Holds source (calls + 1) ⟨scanner, parser.current⟩ ∧
      (Scanner.beyond^[calls] (Scanner.ofSource source)).answer = .error fault := by
  rw [Holds, Function.iterate_succ_apply', Scanner.lastToken?, ← h.1,
    Scanner.beyond_of_error failed, Scanner.answer_of_error failed]
  exact ⟨⟨rfl, h.2⟩, rfl⟩

theorem kept_holds : Kept fun parser => ∃ calls, parser.Holds source calls where
  pulled _ _ _ h scanned := h.elim fun calls h => ⟨calls + 1, h.pulled scanned⟩
  failed _ _ _ h failed := h.elim fun calls h => ⟨calls + 1, (h.failed failed).1⟩

/-- The scanner is in the text. The token in hand is in front of it, or is the end of the text and
the scanner has come there too. -/
structure Settled (source : String) (parser : Parser) : Prop where
  stands : parser.scanner.Stands source.toList
  more : parser.current.kind ≠ .endOfInput →
    parser.current.span.start < parser.current.span.stop ∧
      parser.current.span.stop ≤ parser.scanner.position
  ends : parser.current.kind = .endOfInput →
    parser.current = .atEnd source.length ∧ parser.scanner = ⟨[], source.length⟩

theorem settled_of_next {before scanner : Scanner} (stands : before.Stands source.toList)
    (scanned : before.next = .ok token scanner) : Settled source ⟨scanner, token⟩ where
  stands := Scanner.stands_next stands scanned
  more more := by
    have place := Scanner.next_position scanned more
    exact ⟨place.2.1, Nat.le_of_eq place.2.2⟩
  ends ends := by
    have place := Scanner.next_atEnd scanned ends
    rwa [Scanner.extent_of_stands stands, String.length_toList] at place

theorem Settled.not_failed {scanner : Scanner} (h : parser.Settled source)
    (ends : parser.current.kind = .endOfInput) :
    parser.scanner.next ≠ .error fault scanner := by
  rw [(h.ends ends).2, Scanner.next_nil]
  rintro ⟨⟩

theorem kept_settled : Kept (Settled source) where
  pulled _ _ _ h scanned := settled_of_next h.stands scanned
  failed parser fault scanner h failed := by
    refine ⟨Scanner.stands_of_error h.stands failed, fun more => ?_, fun ends => ?_⟩
    · have moved := Scanner.position_le_of_error failed
      exact ⟨(h.more more).1, Nat.le_trans (h.more more).2 moved⟩
    · exact absurd failed (h.not_failed ends)

theorem settled_of_ofSource (h : ofSource source = .ok parser) : parser.Settled source := by
  have scanned := Scanner.yields_singleton_iff.mp (ofSource_eq_ok h).1
  exact settled_of_next (Scanner.stands_ofSource source) scanned

theorem holds_of_ofSource (h : ofSource source = .ok parser) : parser.Holds source 1 := by
  have scanned := Scanner.yields_singleton_iff.mp (ofSource_eq_ok h).1
  rw [Holds, Function.iterate_one, Scanner.lastToken?, Function.iterate_zero_apply,
    Scanner.beyond_of_ok scanned, Scanner.answer_of_ok scanned]
  exact ⟨rfl, rfl⟩

theorem Reachable.settled (h : Reachable source parser) : parser.Settled source :=
  kept_settled.reachable (fun _ opened => settled_of_ofSource opened) h

theorem Reachable.holds (h : Reachable source parser) : ∃ calls, parser.Holds source calls :=
  kept_holds.reachable (fun _ opened => ⟨1, holds_of_ofSource opened⟩) h

/-! ### The order of tokens in hand -/

theorem Settled.before_next {scanner : Scanner} (h : parser.Settled source)
    (scanned : parser.scanner.next = .ok token scanner) :
    (parser.current.kind ≠ .endOfInput → parser.current.span.stop ≤ token.span.start) ∧
      parser.current.span.start ≤ token.span.start := by
  have ahead := Scanner.position_le_start scanned
  by_cases ends : parser.current.kind = .endOfInput
  · obtain ⟨current, place⟩ := h.ends ends
    rw [place] at ahead
    rw [current]
    exact ⟨fun more => absurd rfl more, ahead⟩
  · have place := h.more ends
    exact ⟨fun _ => by omega, by omega⟩

theorem kept_start (floor : Nat) :
    Kept fun parser => parser.Settled source ∧ floor ≤ parser.current.span.start where
  pulled _ _ _ h scanned :=
    ⟨kept_settled.pulled h.1 scanned, Nat.le_trans h.2 (h.1.before_next scanned).2⟩
  failed _ _ _ h failed := ⟨kept_settled.failed h.1 failed, h.2⟩

theorem Settled.stop_le (h : parser.Settled source) (more : parser.current.kind ≠ .endOfInput)
    (consumes : parser.Consumes (token :: taken) after) :
    parser.current.span.stop ≤ after.current.span.start := by
  obtain ⟨next, scanner, scanned, consumes⟩ := consumes.uncons
  have start := And.intro (kept_settled.pulled h scanned) ((h.before_next scanned).1 more)
  exact ((kept_start _).consumes start consumes).2

theorem Settled.eq_of_start (h : parser.Settled source) (more : parser.current.kind ≠ .endOfInput)
    (consumes : parser.Consumes taken after)
    (same : after.current.span.start = parser.current.span.start) : after = parser := by
  cases taken with
  | nil => exact consumes_nil_iff.mp consumes
  | cons token taken =>
    have := h.stop_le more consumes
    have := (h.more more).1
    omega

theorem Settled.kept_eq (h : parser.Settled source) (ends : parser.current.kind = .endOfInput) :
    Kept (· = parser) := by
  obtain ⟨current, place⟩ := h.ends ends
  constructor
  · rintro _ token scanner rfl scanned
    rw [place, Scanner.next_nil] at scanned
    cases scanned
    rw [← current, ← place]
  · rintro _ fault scanner rfl failed
    exact absurd failed (h.not_failed ends)

/-! ### Failures that last -/

theorem ne_of_ok (more : parser.current.kind ≠ .endOfInput)
    (h : tree mode parser = .ok result after) : after ≠ parser := by
  rintro rfl
  cases mode with
  | statement => exact Nat.lt_irrefl _ (takes_statement h)
  | program =>
    obtain ⟨trees, final, ran, h⟩ := bind_eq_ok.mp h
    cases h
    exact more (atEnd_of_statements ran)

theorem consumes_of_failing {scanner : Scanner}
    (failing : parser.scanner.next = .error fault scanner)
    (consumes : parser.Consumes taken after) : after = parser := by
  cases taken with
  | nil => exact consumes_nil_iff.mp consumes
  | cons =>
    obtain ⟨_, _, scanned, _⟩ := consumes.uncons
    cases failing.symm.trans scanned

theorem answer_of_failing (held : parser.current.Scanned)
    (more : parser.current.kind ≠ .endOfInput)
    (failing : parser.scanner.next = .error fault parser.scanner) (mode : Mode) :
    parser.beyond mode = parser ∧ ∃ other, parser.answer mode = .error other := by
  cases ran : tree mode parser with
  | ok result after =>
    have course := course_tree mode held
    rw [ran] at course
    cases course with
    | done consumes =>
      -- A call that succeeds has taken a token, and here the scanner has none to give.
      exact absurd (consumes_of_failing failing consumes) (ne_of_ok more ran)
  | error other after =>
    rw [(answer_of_error ran).1, (answer_of_error ran).2]
    refine ⟨?_, other, rfl⟩
    rcases failed_cases held ran with ⟨_, _, consumes, _⟩ | ⟨_, _, _, consumes, failed, rfl⟩
    · exact consumes_of_failing failing consumes
    · obtain rfl := consumes_of_failing failing consumes
      cases failing.symm.trans failed
      rfl

theorem next_of_unrecognized {before scanner : Scanner} {c : Char}
    (failed : before.next = .error fault scanner) (strange : fault.cause = .unrecognizedCharacter c) :
    scanner.next = .error fault scanner := by
  have still : Scanner.takes before.answer = false := by
    obtain ⟨cause, span⟩ := fault
    cases strange
    rw [Scanner.answer_of_error failed]
    rfl
  have same := Scanner.next_beyond still
  rwa [Scanner.beyond_of_error failed, failed] at same

theorem tree_of_statement_error (more : parser.current.kind ≠ .endOfInput)
    (failed : tree .statement parser = .error fault after) (mode : Mode) :
    tree mode parser = .error fault after := by
  cases mode with
  | statement => exact failed
  | program =>
    -- Away from the end of the text a program begins with a statement.
    apply program_of_error
    rw [statements_eq, statementsFrom, get_bind, if_neg more]
    exact bind_of_error failed

theorem eq_of_refused (held : parser.current.Scanned) (settled : parser.Settled source)
    {expected : Token.Kind} (failed : tree mode parser = .error (parser.unexpected expected) after) :
    after = parser := by
  -- The end of the text is met at one place again and again, and no other token is.
  by_cases ends : parser.current.kind = .endOfInput
  · rw [← (answer_of_error failed).2]
    exact (settled.kept_eq ends).beyond held rfl mode
  · rcases failed_cases held failed with ⟨taken, other, consumes, same⟩ | ⟨_, _, _, _, failed, _⟩
    · have place : after.current.span = parser.current.span := (congrArg Fault.span same).symm
      exact settled.eq_of_start ends consumes (congrArg Span.start place)
    · rcases Scanner.lexical_of_next failed with ⟨_, cause, _⟩ | ⟨_, cause, _⟩ <;> cases cause

/-! ### Calls after a failure -/

/-- How a call that fails leaves the parser. A token that is refused is still in hand, and it is the
last one that the scanner has handed out. A scanner that fails has been called last. It stands in
front of the character that begins no token, or behind the digits of the number out of range, and
the last token that it has handed out is in hand. -/
inductive Stopped (source : String) (after : Parser) : Fault → Prop where
  | token {calls : Nat} {expected : Token.Kind} (holds : after.Holds source calls) :
      Stopped source after ⟨.unexpectedToken after.current.kind expected, after.current.span⟩
  | character {calls : Nat} {c : Char} {span : Span} (holds : after.Holds source (calls + 1))
      (last : (Scanner.beyond^[calls] (Scanner.ofSource source)).answer =
        .error ⟨.unrecognizedCharacter c, span⟩)
      (marks : span.Marks source.toList [c])
      (place : after.scanner = ⟨source.toList.drop span.start, span.start⟩) :
      Stopped source after ⟨.unrecognizedCharacter c, span⟩
  | number {calls : Nat} {digits : List Char} {span : Span} (holds : after.Holds source (calls + 1))
      (last : (Scanner.beyond^[calls] (Scanner.ofSource source)).answer =
        .error ⟨.malformedInteger (String.ofList digits), span⟩)
      (marks : span.MarksNumber source.toList digits)
      (place : after.scanner = ⟨source.toList.drop span.stop, span.stop⟩) :
      Stopped source after ⟨.malformedInteger (String.ofList digits), span⟩

theorem stopped_of_failed (reachable : Reachable source parser)
    (failed : tree mode parser = .error fault after) : after.Stopped source fault := by
  rcases failed_cases reachable.scanned failed with ⟨taken, expected, consumes, rfl⟩ |
    ⟨taken, between, scanner, consumes, broken, rfl⟩
  · obtain ⟨calls, holds⟩ := kept_holds.consumes reachable.holds consumes
    exact .token holds
  · obtain ⟨calls, holds⟩ := kept_holds.consumes reachable.holds consumes
    obtain ⟨holds, last⟩ := holds.failed broken
    have stands := (kept_settled.consumes reachable.settled consumes).stands
    have place := (Scanner.stands_of_error stands broken).eq_drop
    have lexical := Scanner.lexical_of_next broken
    obtain ⟨cause, span⟩ := fault
    rcases Scanner.next_error stands broken with ⟨c, rfl, marks, _⟩ | ⟨digits, rfl, marks, _⟩
    · rcases lexical with ⟨_, _, position⟩ | ⟨_, cause, _⟩
      · rw [position] at place
        exact .character holds last marks place
      · cases cause
    · rcases lexical with ⟨_, cause, _⟩ | ⟨_, _, position⟩
      · cases cause
      · rw [position] at place
        exact .number holds last marks place

theorem answers_of_unrecognized (reachable : Reachable source parser) {c : Char}
    (failed : tree mode parser = .error fault after)
    (strange : fault.cause = .unrecognizedCharacter c) (modes : List Mode) :
    after.behind modes = after ∧
      ∀ answer ∈ after.answers modes, ∃ other, answer = .error other := by
  have scanned := (Reachable.failed reachable failed).scanned
  rcases failed_cases reachable.scanned failed with ⟨_, _, _, rfl⟩ |
    ⟨taken, between, scanner, consumes, broken, rfl⟩
  · cases strange
  · have settled := kept_settled.consumes reachable.settled consumes
    have more : between.current.kind ≠ .endOfInput := fun ends => settled.not_failed ends broken
    exact answers_of_fixed (answer_of_failing scanned more (next_of_unrecognized broken strange))
      modes

theorem answers_of_refused (reachable : Reachable source parser) {expected : Token.Kind}
    (failed : tree .statement parser = .error (parser.unexpected expected) after) :
    after = parser ∧ (parser.current.kind ≠ .endOfInput → ∀ modes,
      ∀ answer ∈ after.answers modes, answer = .error (parser.unexpected expected)) := by
  obtain rfl := eq_of_refused reachable.scanned reachable.settled failed
  refine ⟨rfl, fun more modes => ?_⟩
  have fixed (mode : Mode) := answer_of_error (tree_of_statement_error more failed mode)
  exact (answers_of_fixed (fun mode => ⟨(fixed mode).2, (fixed mode).1⟩) modes).2

end

/-- A call that fails leaves the parser where it failed, with the last token that the scanner has
handed out. Behind a character that begins no token no call succeeds any more, and a statement that
is refused at its first token leaves the parser as it was: unless that is the end of the text, all
calls that come have the same fault. -/
theorem resumes_of_failure {source : String} {mode : Mode} {parser after : Parser} {fault : Fault}
    (reachable : Reachable source parser) (failed : tree mode parser = .error fault after) :
    after.Stopped source fault ∧
    (∀ c, fault.cause = .unrecognizedCharacter c → ∀ modes, after.behind modes = after ∧
      ∀ answer ∈ after.answers modes, ∃ other, answer = .error other) ∧
    ∀ expected, mode = .statement → fault = parser.unexpected expected →
      after = parser ∧ (parser.current.kind ≠ .endOfInput →
        ∀ modes, ∀ answer ∈ after.answers modes, answer = .error fault) := by
  refine ⟨stopped_of_failed reachable failed, fun c strange => ?_, ?_⟩
  · exact answers_of_unrecognized reachable failed strange
  · rintro expected rfl rfl
    exact answers_of_refused reachable failed

/-- The number is still in hand behind a character that begins no token, and stays there. So does a
parenthesis that closes nothing, behind a statement that was read. -/
theorem resumes_of_failure_for_good :
    (∃ parser after, Reachable "1 @ + 2" parser ∧
      tree .program parser = .error ⟨.unrecognizedCharacter '@', ⟨2, 3⟩⟩ after ∧
      after.current = ⟨.integer, "1", ⟨0, 1⟩⟩ ∧
      Stopped "1 @ + 2" after ⟨.unrecognizedCharacter '@', ⟨2, 3⟩⟩ ∧
      ∀ modes, ∀ answer ∈ after.answers modes, ∃ other, answer = .error other) ∧
    ∃ parser, Reachable "1 ) 2" parser ∧
      tree .statement parser = .error ⟨.unexpectedToken .rightParen .integer, ⟨2, 3⟩⟩ parser ∧
      ∀ modes, ∀ answer ∈ parser.answers modes,
        answer = .error ⟨.unexpectedToken .rightParen .integer, ⟨2, 3⟩⟩ := by
  constructor
  · have opened : ofSource "1 @ + 2" = .ok ⟨⟨" @ + 2".toList, 1⟩, ⟨.integer, "1", ⟨0, 1⟩⟩⟩ := rfl
    have failed : tree .program ⟨⟨" @ + 2".toList, 1⟩, ⟨.integer, "1", ⟨0, 1⟩⟩⟩ =
        .error ⟨.unrecognizedCharacter '@', ⟨2, 3⟩⟩
          ⟨⟨"@ + 2".toList, 2⟩, ⟨.integer, "1", ⟨0, 1⟩⟩⟩ := rfl
    obtain ⟨stopped, lasts, _⟩ := resumes_of_failure (.opened opened) failed
    exact ⟨_, _, .opened opened, failed, rfl, stopped, fun modes => (lasts '@' rfl modes).2⟩
  · have opened : ofSource "1 ) 2" = .ok ⟨⟨" ) 2".toList, 1⟩, ⟨.integer, "1", ⟨0, 1⟩⟩⟩ := rfl
    have read : tree .statement ⟨⟨" ) 2".toList, 1⟩, ⟨.integer, "1", ⟨0, 1⟩⟩⟩ =
        .ok (.literal 1 ⟨.integer, "1", ⟨0, 1⟩⟩)
          ⟨⟨" 2".toList, 3⟩, ⟨.rightParen, ")", ⟨2, 3⟩⟩⟩ := rfl
    have failed : tree .statement ⟨⟨" 2".toList, 3⟩, ⟨.rightParen, ")", ⟨2, 3⟩⟩⟩ =
        .error ⟨.unexpectedToken .rightParen .integer, ⟨2, 3⟩⟩
          ⟨⟨" 2".toList, 3⟩, ⟨.rightParen, ")", ⟨2, 3⟩⟩⟩ := rfl
    have reachable := Reachable.read (.opened opened) read
    obtain ⟨_, _, refused⟩ := resumes_of_failure reachable failed
    exact ⟨_, reachable, failed, (refused .integer rfl rfl).2 (by decide)⟩

end Parser

end Calculator
