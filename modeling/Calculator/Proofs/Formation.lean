import Calculator.Proofs.Failure

/-!
# The form of trees that are read

A tree that was read has a program at its root only, declarations and assignments only as
statements, and literals with the values that their texts write: `fits_of_tree`. Evaluating such a
tree meets no part that has no value where it stands, and `evaluate_faults` says which faults are
left.
-/

namespace Calculator

/-- The text of the token is a run of digits that writes the value. -/
def Token.Writes (token : Token) (value : Int64) : Prop :=
  token.lexeme.toList ≠ [] ∧ (∀ c ∈ token.lexeme.toList, c.isDigit = true) ∧
    value.toInt = (Nat.ofDigitChars 10 token.lexeme.toList 0 : Int)

namespace Tree

inductive IsExpression : Tree → Prop where
  | literal {value : Int64} {token : Token} (writes : token.Writes value) :
      IsExpression (.literal value token)
  | identifier {token : Token} : IsExpression (.identifier token)
  | unary {sign : Sign} {token : Token} {operand : Tree} (inner : IsExpression operand) :
      IsExpression (.unary sign token operand)
  | binary {operator : Operator} {token : Token} {left right : Tree} (first : IsExpression left)
      (second : IsExpression right) : IsExpression (.binary operator token left right)

inductive IsStatement : Tree → Prop where
  | declaration {name equals : Token} {value : Tree} (inner : IsExpression value) :
      IsStatement (.declaration name equals value)
  | assignment {name equals : Token} {value : Tree} (inner : IsExpression value) :
      IsStatement (.assignment name equals value)
  | expression {tree : Tree} (inner : IsExpression tree) : IsStatement tree

/-- What a mode reads: one statement, or a program of statements. -/
def Fits : Mode → Tree → Prop
  | .statement, tree => tree.IsStatement
  | .program, tree => ∃ statements span, tree = .program statements span ∧
      ∀ statement ∈ statements, statement.IsStatement

theorem IsExpression.root {tree : Tree} (h : tree.IsExpression) : tree.kind.IsExpression := by
  cases h with
  | literal => exact .inl rfl
  | identifier => exact .inr (.inl rfl)
  | unary => exact .inr (.inr (.inl rfl))
  | binary => exact .inr (.inr (.inr rfl))

theorem IsExpression.part {tree part : Tree} (h : tree.IsExpression) (inside : Part part tree) :
    part.IsExpression := by
  induction h with
  | literal writes =>
    rcases part_iff.mp inside with rfl | ⟨child, member, _⟩
    · exact .literal writes
    · cases member
  | identifier =>
    rcases part_iff.mp inside with rfl | ⟨child, member, _⟩
    · exact .identifier
    · cases member
  | unary inner ih =>
    rcases part_iff.mp inside with rfl | ⟨child, member, below⟩
    · exact .unary inner
    · obtain rfl := List.mem_singleton.mp member
      exact ih below
  | binary first second ihLeft ihRight =>
    rcases part_iff.mp inside with rfl | ⟨child, member, below⟩
    · exact .binary first second
    · simp only [children, List.mem_cons, List.not_mem_nil, or_false] at member
      rcases member with rfl | rfl
      · exact ihLeft below
      · exact ihRight below

/-- The causes of the faults of statements that were read. -/
def Ordinary (cause : Fault.Cause) : Prop :=
  cause = .divisionByZero ∨ (∃ name, cause = .undefinedVariable name) ∨
    ∃ name, cause = .variableRedeclared name

theorem ordinary_of_blames {tree : Tree} {fault : Fault} (h : tree.IsExpression)
    (blames : tree.Blames fault) : Ordinary fault.cause := by
  cases blames with
  | undefined => exact .inr (.inl ⟨_, rfl⟩)
  | division => exact .inl rfl
  | misplaced part strange => exact absurd (h.part part).root strange

theorem ordinary_of_refuses {statement : Tree} {fault : Fault} (h : statement.IsStatement)
    (refuses : statement.Refuses fault) : Ordinary fault.cause := by
  cases refuses with
  | redeclared => exact .inr (.inr ⟨_, rfl⟩)
  | undeclared => exact .inr (.inl ⟨_, rfl⟩)
  | declaration blames =>
    cases h with
    | declaration inner => exact ordinary_of_blames inner blames
    | expression inner => cases inner
  | assignment blames =>
    cases h with
    | assignment inner => exact ordinary_of_blames inner blames
    | expression inner => cases inner
  | expression root blames =>
    cases h with
    | declaration | assignment => simp [Kind.IsExpression, kind] at root
    | expression inner => exact ordinary_of_blames inner blames
  | nested =>
    cases h with
    | expression inner => cases inner

end Tree

/-! ### Trees of the grammar -/

section
variable {tokens : List Token} {tree : Tree}

theorem writes_of_scanned {token : Token} {value : Int64} (h : token.Scanned)
    (kind : token.kind = .integer) (read : Numeral.read? token.lexeme = some value) :
    token.Writes value := by
  have lexeme := Scanner.lexeme_of_scanned h (by simp [kind])
  generalize digits : token.lexeme.toList = text at lexeme
  rw [kind] at lexeme
  obtain ⟨some, all⟩ := lexeme.digits
  have number := Numeral.toInt_of_read? read
  rw [digits, Numeral.integer?_of_digits some all] at number
  subst digits
  exact ⟨some, all, (Option.some.inj number).symm⟩

theorem isExpression_of_derives {category : Grammar.Category}
    (h : Grammar.Derives category tokens tree) (scanned : ∀ token ∈ tokens, token.Scanned) :
    tree.IsExpression := by
  induction h with
  | literal kind read => exact .literal (writes_of_scanned (scanned _ (by simp)) kind read)
  | name => exact .identifier
  | group _ _ _ ih =>
    apply ih
    intro token member
    exact scanned token (by simp [member])
  | signed _ _ ih =>
    apply Tree.IsExpression.unary
    apply ih
    intro token member
    exact scanned token (by simp [member])
  | single _ ih => exact ih scanned
  | pair _ _ _ ihLeft ihRight =>
    apply Tree.IsExpression.binary
    · apply ihLeft
      intro token member
      exact scanned token (by simp [member])
    · apply ihRight
      intro token member
      exact scanned token (by simp [member])

theorem isStatement_of_statement (h : Grammar.Statement tokens tree)
    (scanned : ∀ token ∈ tokens, token.Scanned) : tree.IsStatement := by
  cases h with
  | declaration _ _ _ _ inner =>
    apply Tree.IsStatement.declaration
    apply isExpression_of_derives inner
    intro token member
    exact scanned token (by simp [member])
  | assignment _ _ inner =>
    apply Tree.IsStatement.assignment
    apply isExpression_of_derives inner
    intro token member
    exact scanned token (by simp [member])
  | expression inner => exact .expression (isExpression_of_derives inner scanned)

theorem isStatement_of_program {trees : List Tree} (h : Grammar.Program tokens trees)
    (scanned : ∀ token ∈ tokens, token.Scanned) : ∀ tree ∈ trees, tree.IsStatement := by
  intro tree member
  obtain ⟨some, statement, sub⟩ := Grammar.statement_of_program h tree member
  exact isStatement_of_statement statement fun token inside => scanned token (sub.subset inside)

end

section
variable {mode : Mode} {source : String} {tree : Tree}

/-- Whatever calls came before, the tree that a call gives has the form of its mode. -/
theorem fits_of_tree {parser after : Parser} (held : parser.current.Scanned)
    (h : Parser.tree mode parser = .ok tree after) : tree.Fits mode := by
  cases mode with
  | statement =>
    obtain ⟨tokens, consumes, statement, _⟩ := Parser.statement_eq_ok held h
    exact isStatement_of_statement statement (consumes.all_scanned held)
  | program =>
    obtain ⟨tokens, trees, consumes, program, rfl⟩ := Parser.program_eq_ok held h
    refine ⟨trees, _, rfl, isStatement_of_program program ?_⟩
    intro token member
    rcases List.mem_append.mp member with member | last
    · exact consumes.all_scanned held token member
    · obtain rfl := List.mem_singleton.mp last
      exact consumes.scanned held

theorem fits_of_ofSource (h : Tree.ofSource mode source = .ok tree) : tree.Fits mode := by
  obtain ⟨tokens, after, run, ⟨rfl, statement⟩ | ⟨rfl, trees, program, rfl⟩⟩ :=
    Parser.read_of_ofSource h
  · exact isStatement_of_statement statement run.scanned
  · exact ⟨trees, _, rfl, isStatement_of_program program run.scanned⟩

end

/-! ### Faults of texts -/

/-- Faults that a text read in the mode can have. No literal is out of range once the scanner has
passed it, and no part of a tree that was read is out of place. -/
def Fault.Possible (mode : Mode) (fault : Fault) : Prop :=
  (∀ text, fault.cause ≠ .notAnInteger text) ∧ (∀ kind, fault.cause ≠ .unrecognizedNode kind) ∧
    ∀ found expected, fault.cause = .unexpectedToken found expected →
      expected ∈ Parser.expects mode

/-- The text has nothing but white space. -/
def Blank (source : String) : Prop :=
  ∀ c ∈ source.toList, Unicode.isWhitespace c = true

section
variable {mode : Mode} {source : String} {env after : Environment} {fault : Fault}

theorem possible_of_ordinary (h : Tree.Ordinary fault.cause) : fault.Possible mode := by
  rcases h with cause | ⟨name, cause⟩ | ⟨name, cause⟩
  · simp [Fault.Possible, cause]
  · simp [Fault.Possible, cause]
  · simp [Fault.Possible, cause]

theorem possible_of_next {scanner beyond : Scanner} (h : scanner.next = .error fault beyond) :
    fault.Possible mode := by
  have found := Scanner.finds_of_next h
  cases found with
  | excess => simp [Fault.Possible]
  | unknown => simp [Fault.Possible]

theorem possible_of_ofSource (h : Tree.ofSource mode source = .error fault) :
    fault.Possible mode := by
  rcases Parser.ofSource_error h with ⟨_, _, _, _, failed⟩ | ⟨_, _, _, expected, _, member, rfl⟩
  · exact possible_of_next failed
  · refine ⟨by simp, by simp, ?_⟩
    intro found other same
    cases same
    exact member

/-- A text that is read fails at a statement for an ordinary cause, or is a program without
statements. -/
theorem evaluate_tree_error {tree : Tree} (read : Tree.ofSource mode source = .ok tree)
    (h : tree.evaluate env = .error fault after) :
    Tree.Ordinary fault.cause ∨
      (mode = .program ∧ fault.cause = .emptyProgram ∧ tree = .program [] ⟨0, source.length⟩) := by
  have fits := fits_of_ofSource read
  obtain ⟨tokens, _, _, ⟨rfl, statement⟩ | ⟨rfl, trees, _, rfl⟩⟩ := Parser.read_of_ofSource read
  · exact .inl (Tree.ordinary_of_refuses fits (refuses_of_statement statement h).2)
  · obtain ⟨_, _, same, each⟩ := fits
    cases same
    rcases Tree.evaluate_program_error h with ⟨rfl, rfl, _⟩ | ⟨before, failing, behind, rfl, _, h⟩
    · exact .inr ⟨rfl, rfl, rfl⟩
    · exact .inl (Tree.ordinary_of_refuses (each failing (by simp)) (Tree.execute_error h).2)

theorem blank_iff_ofSource :
    Tree.ofSource .program source = .ok (.program [] ⟨0, source.length⟩) ↔ Blank source := by
  constructor
  · intro read
    obtain ⟨_, _, run, ⟨other, _⟩ | ⟨_, trees, program, same⟩⟩ := Parser.read_of_ofSource read
    · cases other
    · cases same
      obtain ⟨final, rfl, ends⟩ := Grammar.eq_singleton_of_program program
      exact Scanner.blank_of_next (Scanner.yields_singleton_iff.mp run) ends
  · intro blank
    have scanned : (Scanner.ofSource source).next = .ok (.atEnd _) _ :=
      Scanner.next_of_blank blank
    exact Parser.ofSource_of_program (Scanner.yields_singleton_iff.mpr scanned) (.empty rfl)

theorem evaluate_emptyProgram_iff (env : Environment) :
    (∃ fault after, evaluate mode source env = .error fault after ∧
      fault.cause = .emptyProgram) ↔ mode = .program ∧ Blank source := by
  constructor
  · intro ⟨fault, after, h, cause⟩
    rcases evaluate_error_cases h with ⟨unread, _⟩ | ⟨tree, read, h⟩
    · rcases stage_of_ofSource unread with stage | stage
      · simp [cause, Fault.Cause.stage] at stage
      · simp [cause, Fault.Cause.stage] at stage
    · rcases evaluate_tree_error read h with ordinary | ⟨rfl, _, rfl⟩
      · simp [Tree.Ordinary, cause] at ordinary
      · exact ⟨rfl, blank_iff_ofSource.mp read⟩
  · intro ⟨program, blank⟩
    subst program
    refine ⟨⟨.emptyProgram, ⟨0, source.length⟩⟩, env, ?_, rfl⟩
    rw [evaluate_of_ok (blank_iff_ofSource.mpr blank)]
    rfl

/-- Which faults there are: no literal is refused once it is read, no part of a tree is out of
place, and a program is empty just where its text is blank. Every tree that parsing gives, whatever
calls came before, has the form of its mode. -/
theorem evaluate_faults (mode : Mode) (source : String) :
    (∀ env fault after, evaluate mode source env = .error fault after → fault.Possible mode) ∧
    (∀ env, (∃ fault after, evaluate mode source env = .error fault after ∧
      fault.cause = .emptyProgram) ↔ mode = .program ∧ Blank source) ∧
    ∀ parser, Parser.Reachable source parser → ∀ tree after,
      Parser.tree mode parser = .ok tree after → tree.Fits mode := by
  refine ⟨?_, fun env => evaluate_emptyProgram_iff env, ?_⟩
  · intro env fault after h
    rcases evaluate_error_cases h with ⟨unread, _⟩ | ⟨tree, read, h⟩
    · exact possible_of_ofSource unread
    · rcases evaluate_tree_error read h with ordinary | ⟨_, cause, _⟩
      · exact possible_of_ordinary ordinary
      · simp [Fault.Possible, cause]
  · intro parser reachable tree after h
    exact fits_of_tree reachable.scanned h

end

end Calculator
