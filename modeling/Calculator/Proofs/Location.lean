import Calculator.Diagnostic.Report
import Calculator.Proofs.Failure

/-!
# The places of faults

A fault points at the part of the text that it is about, see `Points`: a character or a number, a
token, a name, or the right operand of a division. So the label that a diagnostic draws is the span
of the fault, except at the end of the input, where there is nothing to point at.
-/

namespace Calculator

namespace Fault

/-- What is at the span of a fault. -/
inductive Points (mode : Mode) (source : String) : Fault → Prop where
  | character {c : Char} {span : Span} (marks : span.Marks source.toList [c])
      (strange : ¬Token.Opens c) : Points mode source ⟨.unrecognizedCharacter c, span⟩
  | number {digits : List Char} {span : Span} (marks : span.MarksNumber source.toList digits)
      (large : Int64.maxValue.toInt < (Nat.ofDigitChars 10 digits 0 : Int)) :
      Points mode source ⟨.malformedInteger (String.ofList digits), span⟩
  | atEnd {expected : Token.Kind} :
      Points mode source ⟨.unexpectedToken .endOfInput expected, .single source.length⟩
  | token {found expected : Token.Kind} {span : Span} {text : List Char}
      (more : found ≠ .endOfInput) (marks : span.Marks source.toList text)
      (lexeme : Token.Lexeme found text) :
      Points mode source ⟨.unexpectedToken found expected, span⟩
  | undefined {name : String} {span : Span} (marks : span.Marks source.toList name.toList)
      (lexeme : Token.Lexeme .identifier name.toList) :
      Points mode source ⟨.undefinedVariable name, span⟩
  | redeclared {name : String} {span : Span} (marks : span.Marks source.toList name.toList)
      (lexeme : Token.Lexeme .identifier name.toList) :
      Points mode source ⟨.variableRedeclared name, span⟩
  | division {tree left right : Tree} {token : Token}
      (read : Tree.ofSource mode source = .ok tree)
      (part : Tree.Part (.binary .divide token left right) tree)
      (some : right.span.start < right.span.stop) (inside : right.span.stop ≤ source.length) :
      Points mode source ⟨.divisionByZero, right.span⟩
  | empty : Points mode source ⟨.emptyProgram, ⟨0, source.length⟩⟩

/-- The text ended where a token was expected. -/
def AtEnd (fault : Fault) : Prop :=
  ∃ expected, fault.cause = .unexpectedToken .endOfInput expected

section
variable {mode : Mode} {source : String} {fault : Fault}

theorem labelled_of_bounds (order : fault.span.start ≤ fault.span.stop)
    (inside : fault.span.stop ≤ source.length) : fault.labelled source = fault.span := by
  unfold labelled Span.clamp
  simp only [Nat.min_eq_left inside, Nat.min_eq_left order]

theorem labelled_of_single (h : fault.span = .single source.length) :
    fault.labelled source = ⟨source.length, source.length⟩ := by
  unfold labelled Span.clamp Span.single at *
  simp [h]

/-- Only the end of the input is past the text. -/
theorem Points.bounds (h : fault.Points mode source) :
    (fault.AtEnd ∧ fault.span = .single source.length) ∨
      (¬fault.AtEnd ∧ fault.span.start ≤ fault.span.stop ∧ fault.span.stop ≤ source.length) := by
  have marked {span : Span} {part : List Char} (marks : span.Marks source.toList part)
      (some : part ≠ []) : span.start ≤ span.stop ∧ span.stop ≤ source.length := by
    have := marks.bounds some
    rw [String.length_toList] at this
    omega
  cases h with
  | atEnd => exact .inl ⟨⟨_, rfl⟩, rfl⟩
  | character marks => exact .inr ⟨by simp [AtEnd], marked marks (by simp)⟩
  | number marks =>
    obtain ⟨before, behind, split, place, some, _⟩ := marks
    exact .inr ⟨by simp [AtEnd], marked ⟨before, behind, split, place⟩ some⟩
  | token more marks lexeme => exact .inr ⟨by simp [AtEnd, more], marked marks lexeme.ne_nil⟩
  | undefined marks lexeme => exact .inr ⟨by simp [AtEnd], marked marks lexeme.ne_nil⟩
  | redeclared marks lexeme => exact .inr ⟨by simp [AtEnd], marked marks lexeme.ne_nil⟩
  | division _ _ some inside => exact .inr ⟨by simp [AtEnd], Nat.le_of_lt some, inside⟩
  | empty => exact .inr ⟨by simp [AtEnd], Nat.zero_le _, Nat.le_refl _⟩

/-- A diagnostic labels the span of its fault, and at the end of the input the place behind the
text. -/
theorem Points.labelled (h : fault.Points mode source) :
    (fault.labelled source = fault.span ↔ ¬fault.AtEnd) ∧
      (fault.AtEnd → fault.labelled source = ⟨source.length, source.length⟩) := by
  rcases h.bounds with ⟨atEnd, place⟩ | ⟨more, order, inside⟩
  · have label := labelled_of_single place
    refine ⟨?_, fun _ => label⟩
    rw [label, place, Span.single]
    simp [atEnd]
  · have label := labelled_of_bounds order inside
    exact ⟨⟨fun _ => more, fun _ => label⟩, fun atEnd => absurd atEnd more⟩

end

end Fault

/-! ### Faults of reading -/

section
variable {mode : Mode} {source : String} {fault : Fault}

theorem points_of_ofSource (h : Tree.ofSource mode source = .error fault) :
    fault.Points mode source := by
  have start := Scanner.stands_ofSource source
  rcases Parser.ofSource_error h with ⟨tokens, scanner, after, run, failed⟩ |
    ⟨tokens, token, after, expected, run, _, rfl⟩
  · obtain ⟨cause, span⟩ := fault
    rcases Scanner.next_error (run.stands start) failed with ⟨c, rfl, marks, strange⟩ |
      ⟨digits, rfl, marks, large⟩
    · exact .character marks strange
    · exact .number marks large
  · have member : token ∈ tokens ++ [token] := by simp
    by_cases ends : token.kind = .endOfInput
    · rw [run.atEnd start member ends, String.length_toList]
      exact .atEnd
    · obtain ⟨marks, lexeme⟩ := run.marks start member ends
      exact .token ends marks lexeme

end

/-! ### Faults of evaluation -/

section
variable {mode : Mode} {source : String} {tree expression statement : Tree} {fault : Fault}
  {tokens all : List Token} {final : Scanner}
  (run : (Scanner.ofSource source).Yields all final)
include run

theorem marks_of_identifier {token : Token} (member : token ∈ all)
    (named : token.kind = .identifier) :
    token.span.Marks source.toList token.lexeme.toList ∧
      Token.Lexeme .identifier token.lexeme.toList := by
  have marked := run.marks (Scanner.stands_ofSource source) member (by simp [named])
  rwa [named] at marked

theorem bounds_of_derives {category : Grammar.Category}
    (derived : Grammar.Derives category tokens expression) (sub : tokens.Sublist all) :
    expression.span.start < expression.span.stop ∧ expression.span.stop ≤ source.length := by
  have more (token : Token) (member : token ∈ tokens) : token.kind ≠ .endOfInput := by
    intro ends
    exact Grammar.not_divides_of_derives derived token member (.inr ends)
  obtain ⟨some, _, last, member, stops⟩ :=
    Grammar.span_of_derives derived (run.inOrder sub more)
  obtain ⟨marks, lexeme⟩ :=
    run.marks (Scanner.stands_ofSource source) (sub.subset member) (more last member)
  have inside := (marks.bounds lexeme.ne_nil).2
  rw [String.length_toList] at inside
  exact ⟨some, by omega⟩

variable (read : Tree.ofSource mode source = .ok tree)
include read

theorem points_of_blames {category : Grammar.Category}
    (derived : Grammar.Derives category tokens expression) (sub : tokens.Sublist all)
    (inside : Tree.Part expression tree) (blames : expression.Blames fault) :
    fault.Points mode source := by
  cases blames with
  | undefined part =>
    obtain ⟨inner, some, derived, sub'⟩ := Grammar.derives_of_part derived part
    obtain ⟨member, named⟩ := Grammar.mem_of_derives derived
    obtain ⟨marks, lexeme⟩ := marks_of_identifier run ((sub'.trans sub).subset member) named
    exact .undefined marks lexeme
  | @division token left right part =>
    have below : right ∈ (Tree.binary .divide token left right).children := by
      simp [Tree.children]
    have operand : Tree.Part right expression := (Tree.Part.under below (.whole right)).trans part
    obtain ⟨inner, some, derived, sub'⟩ := Grammar.derives_of_part derived operand
    obtain ⟨nonempty, within⟩ := bounds_of_derives run derived (sub'.trans sub)
    exact .division read (part.trans inside) nonempty within
  | misplaced part strange =>
    obtain ⟨inner, some, derived, _⟩ := Grammar.derives_of_part derived part
    exact absurd (Tree.kind_of_derives derived) strange

theorem points_of_refuses (derived : Grammar.Statement tokens statement)
    (sub : tokens.Sublist all) (inside : Tree.Part statement tree)
    (refuses : statement.Refuses fault) : fault.Points mode source := by
  have value (before : List Token) {others : List Token} {part : Tree}
      (split : before ++ others = tokens) (inner : Grammar.Derives .expression others part)
      (member : part ∈ statement.children) (blames : part.Blames fault) :
      fault.Points mode source := by
    subst split
    exact points_of_blames run read inner ((List.sublist_append_right _ _).trans sub)
      ((Tree.Part.under member (.whole part)).trans inside) blames
  cases derived with
  | @declaration keyword name equals others part _ _ named _ inner =>
    cases refuses with
    | redeclared =>
      obtain ⟨marks, lexeme⟩ := marks_of_identifier run (sub.subset (by simp)) named
      exact .redeclared marks lexeme
    | declaration blames =>
      exact value [keyword, name, equals] rfl inner (by simp [Tree.children]) blames
    | expression root => simp [Tree.Kind.IsExpression, Tree.kind] at root
  | @assignment name equals others part named _ inner =>
    cases refuses with
    | undeclared =>
      obtain ⟨marks, lexeme⟩ := marks_of_identifier run (sub.subset (by simp)) named
      exact .undefined marks lexeme
    | assignment blames => exact value [name, equals] rfl inner (by simp [Tree.children]) blames
    | expression root => simp [Tree.Kind.IsExpression, Tree.kind] at root
  | expression inner =>
    have root := Tree.kind_of_derives inner
    cases refuses with
    | expression _ blames => exact points_of_blames run read inner sub inside blames
    | _ => simp [Tree.Kind.IsExpression, Tree.kind] at root

end

section
variable {mode : Mode} {source : String} {env after : Environment} {fault : Fault}

theorem points_of_evaluate {tree : Tree} (read : Tree.ofSource mode source = .ok tree)
    (h : tree.evaluate env = .error fault after) : fault.Points mode source := by
  obtain ⟨tokens, _, run, ⟨rfl, statement⟩ | ⟨rfl, trees, program, rfl⟩⟩ :=
    Parser.read_of_ofSource read
  · have refuses := (refuses_of_statement statement h).2
    exact points_of_refuses run read statement (.refl _) (.whole tree) refuses
  · rcases Tree.evaluate_program_error h with ⟨_, rfl, _⟩ | ⟨before, failing, behind, rfl, _, h⟩
    · exact .empty
    · have member : failing ∈ before ++ failing :: behind := by simp
      obtain ⟨some, statement, sub⟩ := Grammar.statement_of_program program failing member
      exact points_of_refuses run read statement sub (.under member (.whole failing))
        (Tree.execute_error h).2

/-- A fault points at the part of the text that it is about, and a diagnostic labels just that, or
the place behind the text where that is at its end. -/
theorem evaluate_error_points (h : evaluate mode source env = .error fault after) :
    fault.Points mode source ∧ (fault.labelled source = fault.span ↔ ¬fault.AtEnd) ∧
      (fault.AtEnd → fault.labelled source = ⟨source.length, source.length⟩) := by
  have points : fault.Points mode source := by
    rcases evaluate_error_cases h with ⟨unread, _⟩ | ⟨tree, read, h⟩
    · exact points_of_ofSource unread
    · exact points_of_evaluate read h
  exact ⟨points, points.labelled⟩

/-- A division in the second line of a text, behind a letter that is not an ASCII one. -/
theorem evaluate_error_points_of_division :
    evaluate .program "var é = 1;\n2 + é/(é - 1)" .empty =
        .error ⟨.divisionByZero, ⟨18, 23⟩⟩ (Environment.empty.bind "é" 1) ∧
      Fault.Points .program "var é = 1;\n2 + é/(é - 1)" ⟨.divisionByZero, ⟨18, 23⟩⟩ ∧
      Fault.labelled ⟨.divisionByZero, ⟨18, 23⟩⟩ "var é = 1;\n2 + é/(é - 1)" = ⟨18, 23⟩ := by
  have ran : evaluate .program "var é = 1;\n2 + é/(é - 1)" .empty =
      .error ⟨.divisionByZero, ⟨18, 23⟩⟩ (Environment.empty.bind "é" 1) := by
    decide +kernel
  obtain ⟨points, label, _⟩ := evaluate_error_points ran
  exact ⟨ran, points, label.mpr (by simp [Fault.AtEnd])⟩

end

end Calculator
