import Calculator.Proofs.Leftover

/-!
# How parsing ends

Whatever a parser is given to read, a call ends in one of three ways, see `Course`: it succeeds, it
refuses the token in hand and expects another kind, or it stops where the scanner fails.
`course_tree` says so of both modes, with the kinds that each may expect.
-/

namespace Calculator.Parser

/-- How a step ends that expects tokens of the given kinds. The tokens in front of the place where
it ends are taken. -/
inductive Course {α : Type} (kinds : List Token.Kind) (parser : Parser) :
    EStateM.Result Fault Parser α → Prop where
  | done {value : α} {after : Parser} {taken : List Token}
      (consumes : parser.Consumes taken after) : Course kinds parser (.ok value after)
  | refused {after : Parser} {taken : List Token} {expected : Token.Kind}
      (consumes : parser.Consumes taken after) (member : expected ∈ kinds) :
      Course kinds parser (.error (after.unexpected expected) after)
  | broken {before beyond : Scanner} {current : Token} {fault : Fault} {taken : List Token}
      (consumes : parser.Consumes taken ⟨before, current⟩)
      (failed : before.next = .error fault beyond) :
      Course kinds parser (.error fault ⟨beyond, current⟩)

/-- A step that ends so wherever a scanner has handed out the token in hand. -/
def Courses {α : Type} (kinds : List Token.Kind) (step : Parse α) : Prop :=
  ∀ ⦃parser⦄, parser.current.Scanned → Course kinds parser (step parser)

section
variable {α β : Type} {kinds : List Token.Kind} {parser between : Parser}

theorem Course.prepend {taken : List Token} {ending : EStateM.Result Fault Parser α}
    (first : parser.Consumes taken between) (h : Course kinds between ending) :
    Course kinds parser ending := by
  cases h with
  | done consumes => exact .done (first.trans consumes)
  | refused consumes member => exact .refused (first.trans consumes) member
  | broken consumes failed => exact .broken (first.trans consumes) failed

theorem Course.bind {first : Parse α} {second : α → Parse β} (held : parser.current.Scanned)
    (h : Course kinds parser (first parser))
    (next : ∀ value between, first parser = .ok value between → between.current.Scanned →
      Course kinds between (second value between)) :
    Course kinds parser ((first >>= second) parser) := by
  show Course kinds parser (EStateM.bind first second parser)
  unfold EStateM.bind
  cases ran : first parser with
  | error fault after =>
    rw [ran] at h
    cases h with
    | refused consumes member => exact .refused consumes member
    | broken consumes failed => exact .broken consumes failed
  | ok value between =>
    rw [ran] at h
    cases h with
    | done consumes => exact .prepend consumes (next value between ran (consumes.scanned held))

theorem course_return (value : α) : Course kinds parser (.ok value parser) :=
  .done (consumes_nil parser)

theorem course_advance (parser : Parser) : Course kinds parser (advance parser) := by
  unfold advance
  split
  · rename_i token scanner scanned
    exact .done (consumes_of_next scanned)
  · rename_i fault scanner failed
    exact .broken (consumes_nil parser) failed

theorem course_expect_of_kind {kind : Token.Kind} (found : parser.current.kind = kind) :
    Course kinds parser (expect kind parser) := by
  rw [expect_of_kind found]
  exact course_advance parser

theorem course_expect {kind : Token.Kind} (member : kind ∈ kinds) (parser : Parser) :
    Course kinds parser (expect kind parser) := by
  by_cases found : parser.current.kind = kind
  · exact course_expect_of_kind found
  · rw [expect, if_neg found]
    exact .refused (consumes_nil parser) member

/-! ### Expressions -/

theorem courses_chain {level : Operator.Level} {operand : Parse Tree}
    (h : Courses kinds operand) : Courses kinds (chain level operand) := by
  intro parser held
  refine Course.bind held (h held) fun left middle _ held => ?_
  simp only [get_bind]
  cases level.operator? middle.current.kind with
  | none => exact course_return left
  | some operator =>
    refine Course.bind held (course_advance middle) fun token beyond _ held => ?_
    refine Course.bind held (h held) fun right final _ _ => ?_
    exact course_return _

variable (integer : .integer ∈ kinds) (closes : .rightParen ∈ kinds)
include integer closes

theorem courses_factorFrom {inner : Parse Tree} (h : Courses kinds inner) :
    Courses kinds (factorFrom inner) := by
  intro parser held
  unfold factorFrom
  cases found : parser.current.kind with
  | integer =>
    obtain ⟨value, read⟩ := held.read? found
    refine Course.bind held (course_advance parser) fun token beyond taken _ => ?_
    obtain rfl := eq_current_of_advance taken
    rw [integer_of_read read]
    exact course_return _
  | identifier =>
    refine Course.bind held (course_advance parser) fun token beyond _ _ => ?_
    exact course_return _
  | leftParen =>
    refine Course.bind held (course_advance parser) fun opening beyond _ held => ?_
    refine Course.bind held (courses_chain (courses_chain h) held) fun tree middle _ held => ?_
    refine Course.bind held (course_expect closes middle) fun closing final _ _ => ?_
    exact course_return tree
  | plus | minus =>
    refine Course.bind held (course_advance parser) fun token beyond _ held => ?_
    refine Course.bind held (h held) fun operand final _ _ => ?_
    exact course_return _
  | _ => exact .refused (consumes_nil parser) integer

theorem courses_factorWithin (bound : List Char) : Courses kinds (factorWithin bound) := by
  induction bound with
  | nil =>
    intro parser _
    exact .refused (consumes_nil parser) integer
  | cons _ bound ih => exact courses_factorFrom integer closes ih

theorem courses_expression : Courses kinds expression := by
  have factor : Courses kinds factor := by
    intro parser held
    exact courses_factorFrom integer closes (courses_factorWithin integer closes _) held
  exact courses_chain (courses_chain factor)

/-! ### Statements -/

variable (named : .identifier ∈ kinds) (assigned : .equal ∈ kinds)
include named assigned

theorem courses_binding (build : Token → Token → Tree → Tree) :
    Courses kinds (do
      let name ← expect .identifier
      let equals ← expect .equal
      let value ← expression
      return build name equals value) := by
  intro parser held
  refine Course.bind held (course_expect named parser) fun name between _ held => ?_
  refine Course.bind held (course_expect assigned between) fun equals beyond _ held => ?_
  refine Course.bind held (courses_expression integer closes held) fun value final _ _ => ?_
  exact course_return _

/-- A declaration is read only where its keyword is in hand, so no keyword is ever expected. -/
theorem courses_statement : Courses kinds statement := by
  intro parser held
  unfold statement
  rw [get_bind]
  by_cases var : parser.current.isKeyword "var" = true
  · rw [if_pos var]
    simp only [Token.isKeyword, Bool.and_eq_true, decide_eq_true_eq] at var
    refine Course.bind held (course_expect_of_kind var.1) fun keyword between _ held => ?_
    exact courses_binding integer closes named assigned .declaration held
  · rw [if_neg var]
    by_cases seen : parser.current.kind = .identifier ∧ parser.scanner.peek 0 = some '='
    · rw [if_pos seen]
      exact courses_binding integer closes named assigned .assignment held
    · rw [if_neg seen]
      exact courses_expression integer closes held

/-! ### Programs -/

theorem courses_statementsFrom {others : Parse (List Tree)} (h : Courses kinds others)
    (separates : .semicolon ∈ kinds) : Courses kinds (statementsFrom others) := by
  intro parser held
  unfold statementsFrom
  rw [get_bind]
  by_cases atEnd : parser.current.kind = .endOfInput
  · rw [if_pos atEnd]
    exact course_return []
  · rw [if_neg atEnd]
    have first := courses_statement integer closes named assigned held
    refine Course.bind held first fun tree middle _ held => ?_
    rw [get_bind]
    by_cases atEnd : middle.current.kind = .endOfInput
    · rw [if_pos atEnd]
      exact course_return [tree]
    · rw [if_neg atEnd]
      refine Course.bind held (course_expect separates middle) fun separator beyond _ held => ?_
      refine Course.bind held (h held) fun trees final _ _ => ?_
      exact course_return _

theorem courses_statements (separates : .semicolon ∈ kinds) : Courses kinds statements := by
  have within (bound : List Char) : Courses kinds (statementsWithin bound) := by
    induction bound with
    | nil =>
      intro parser _
      exact course_return []
    | cons _ bound ih =>
      exact courses_statementsFrom integer closes named assigned ih separates
  intro parser held
  exact courses_statementsFrom integer closes named assigned (within _) separates held

end

/-- The kinds of tokens that parsing asks for where it finds another one. -/
def expects : Mode → List Token.Kind
  | .statement => [.integer, .identifier, .equal, .rightParen]
  | .program => [.integer, .identifier, .equal, .rightParen, .semicolon]

theorem course_tree (mode : Mode) {parser : Parser} (held : parser.current.Scanned) :
    Course (expects mode) parser (tree mode parser) := by
  cases mode with
  | statement =>
    exact courses_statement (by simp [expects]) (by simp [expects]) (by simp [expects])
      (by simp [expects]) held
  | program =>
    refine Course.bind held (courses_statements (by simp [expects]) (by simp [expects])
      (by simp [expects]) (by simp [expects]) (by simp [expects]) held) fun trees final _ _ => ?_
    exact course_return _

/-! ### Calls one after the other -/

/-- The parser may be the one that some calls on the parser of the source leave, whether they
succeed or fail. -/
inductive Reachable (source : String) : Parser → Prop where
  | opened {parser : Parser} (opened : ofSource source = .ok parser) : Reachable source parser
  | read {parser after : Parser} {mode : Mode} {result : Tree} (before : Reachable source parser)
      (ended : tree mode parser = .ok result after) : Reachable source after
  | failed {parser after : Parser} {mode : Mode} {fault : Fault} (before : Reachable source parser)
      (ended : tree mode parser = .error fault after) : Reachable source after

theorem Reachable.scanned {source : String} {parser : Parser} (h : Reachable source parser) :
    parser.current.Scanned := by
  induction h with
  | opened opened => exact (ofSource_eq_ok opened).2
  | @read before after mode _ _ ended held =>
    have course := course_tree mode held
    rw [ended] at course
    cases course with
    | done consumes => exact consumes.scanned held
  | @failed before after mode _ _ ended held =>
    have course := course_tree mode held
    rw [ended] at course
    cases course with
    | refused consumes => exact consumes.scanned held
    | broken consumes => exact consumes.scanned held

/-- A text that cannot be read has its fault where the scanner fails, or at a token of the text that
is not of the kind that is expected. -/
theorem ofSource_error {mode : Mode} {source : String} {fault : Fault}
    (h : Tree.ofSource mode source = .error fault) :
    (∃ tokens scanner after, (Scanner.ofSource source).Yields tokens scanner ∧
      scanner.next = .error fault after) ∨
    ∃ tokens token after expected, (Scanner.ofSource source).Yields (tokens ++ [token]) after ∧
      expected ∈ expects mode ∧ fault = ⟨.unexpectedToken token.kind expected, token.span⟩ := by
  cases opened : ofSource source with
  | error found =>
    cases h.symm.trans (tree_ofSource_of_error opened)
    obtain ⟨after, failed⟩ := ofSource_eq_error opened
    exact .inl ⟨[], _, after, .nil _, failed⟩
  | ok parser =>
    obtain ⟨first, held⟩ := ofSource_eq_ok opened
    have course := course_tree mode held
    rw [tree_ofSource_of_ok opened] at h
    cases ran : tree mode parser with
    | ok result after =>
      rw [ran] at h
      cases h
    | error found after =>
      rw [ran] at h course
      cases h
      cases course with
      | refused consumes member => exact .inr ⟨_, _, _, _, consumes.yields first, member, rfl⟩
      | broken consumes failed =>
        exact .inl ⟨_, _, _, consumes.yields first, failed⟩

end Calculator.Parser
