import Calculator.Proofs.Erasure
import Calculator.Proofs.Provenance

/-!
# Reading what was written

`Tree.write` is the infix form of a tree, with parentheses around each operand that is compound. By
`readsBack_of_statements` the infix form of statements is read as those statements again, whatever
they are made of: a grammar with one operator at each level has a text for every tree.
-/

namespace Calculator

/-! ### Infix form -/

namespace Tree

/-- Whether a tree needs parentheses to stand as an operand. -/
def compound : Tree → Bool
  | .unary _ _ _ | .binary _ _ _ _ => true
  | _ => false

/-- The text of an operand. -/
def enclose (compound : Bool) (text : String) : String :=
  if compound then "(" ++ text ++ ")" else text

mutual

/-- The infix form of a tree. -/
def write : Tree → String
  | .program statements _ => writeAll statements
  | .literal value _ => Numeral.write value
  | .binary operator _ left right =>
    enclose left.compound left.write ++ operator.symbol ++ enclose right.compound right.write
  | .unary sign _ operand => sign.symbol ++ enclose operand.compound operand.write
  | .identifier token => token.lexeme
  | .declaration name _ value => "var " ++ name.lexeme ++ " = " ++ value.write
  | .assignment name _ value => name.lexeme ++ " = " ++ value.write

def writeAll : List Tree → String
  | [] => ""
  | [statement] => statement.write
  | statement :: statements => statement.write ++ "; " ++ writeAll statements

end

end Tree

/-- The scanner takes the whole of a text as an identifier. -/
def Token.IsName (text : String) : Prop :=
  ∃ token after, (Scanner.ofSource text).next = .ok token after ∧ token.kind = .identifier ∧
    token.lexeme = text

namespace Tree

/-- Expressions that have an infix form: literals have no sign, and names are identifiers. -/
inductive WritableExpression : Tree → Prop where
  | literal {value : Int64} {token : Token} (unsigned : 0 ≤ value) :
      WritableExpression (.literal value token)
  | identifier {token : Token} (name : Token.IsName token.lexeme) :
      WritableExpression (.identifier token)
  | unary {sign : Sign} {token : Token} {operand : Tree} (inner : WritableExpression operand) :
      WritableExpression (.unary sign token operand)
  | binary {operator : Operator} {token : Token} {left right : Tree}
      (first : WritableExpression left) (second : WritableExpression right) :
      WritableExpression (.binary operator token left right)

inductive WritableStatement : Tree → Prop where
  | declaration {name equals : Token} {value : Tree} (named : Token.IsName name.lexeme)
      (inner : WritableExpression value) : WritableStatement (.declaration name equals value)
  | assignment {name equals : Token} {value : Tree} (named : Token.IsName name.lexeme)
      (inner : WritableExpression value) : WritableStatement (.assignment name equals value)
  | expression {tree : Tree} (inner : WritableExpression tree) : WritableStatement tree

end Tree

theorem Token.lexeme_of_isName {text : String} (h : IsName text) :
    Lexeme .identifier text.toList := by
  obtain ⟨token, after, scanned, kind, lexeme⟩ := h
  have spelled := Scanner.lexeme_of_scanned ⟨_, _, scanned⟩ (by simp [kind])
  rwa [kind, lexeme] at spelled

open Grammar

theorem symbol_of_sign (sign : Sign) : ∃ c kind, sign.symbol.toList = [c] ∧
    Token.Kind.ofSymbol? c = some kind ∧ Signs kind sign := by
  cases sign with
  | plus => exact ⟨'+', .plus, rfl, rfl, .plus⟩
  | minus => exact ⟨'-', .minus, rfl, rfl, .minus⟩

theorem symbol_of_operator (operator : Operator) : ∃ c kind, operator.symbol.toList = [c] ∧
    Token.Kind.ofSymbol? c = some kind ∧ Joins operator.level kind operator := by
  cases operator with
  | add => exact ⟨'+', .plus, rfl, rfl, .plus⟩
  | subtract => exact ⟨'-', .minus, rfl, rfl, .minus⟩
  | multiply => exact ⟨'*', .star, rfl, rfl, .star⟩
  | divide => exact ⟨'/', .slash, rfl, rfl, .slash⟩

theorem operand_of_factor {level : Operator.Level} {tokens : List Token} {tree : Tree}
    (h : Derives .factor tokens tree) : Derives (Category.operand level) tokens tree := by
  cases level with
  | additive => exact .single h
  | multiplicative => exact h

/-! ### Texts and the words they are read as -/

/-- Where nothing goes on with its last word, the text is read as a word of the language, with the
tree up to its tokens. -/
def Spells (word : Words Tree) (text : String) (tree : Tree) : Prop :=
  ∀ position rest, Scanner.Breaks rest → ∃ tokens beyond read,
    (⟨text.toList ++ rest, position⟩ : Scanner).Yields tokens ⟨rest, beyond⟩ ∧
      word tokens read ∧ read.bare = tree.bare

section
variable {text : String} {tree : Tree}

/-- The text of one token, as a word of one token. -/
theorem spells_of_lexeme {word : Words Tree} {kind : Token.Kind}
    (lexeme : Token.Lexeme kind text.toList)
    (read : ∀ span, ∃ read, word [⟨kind, text, span⟩] read ∧ read.bare = tree.bare) :
    Spells word text tree := by
  intro position rest breaks
  have scanned := Scanner.next_of_lexeme position lexeme breaks
  rw [String.ofList_toList] at scanned
  obtain ⟨result, derived, same⟩ := read ⟨position, position + text.toList.length⟩
  exact ⟨_, _, result, Scanner.yields_singleton_iff.mpr scanned, derived, same⟩

theorem spells_literal {value : Int64} (token : Token) (unsigned : 0 ≤ value) :
    Spells (Derives .factor) (Numeral.write value) (.literal value token) := by
  apply spells_of_lexeme (Token.lexeme_write unsigned)
  intro span
  exact ⟨_, .literal rfl (Numeral.read?_write value), rfl⟩

theorem spells_identifier {token : Token} (name : Token.IsName token.lexeme) :
    Spells (Derives .factor) token.lexeme (.identifier token) := by
  apply spells_of_lexeme (Token.lexeme_of_isName name)
  intro span
  exact ⟨_, .name rfl, rfl⟩

theorem spells_single (h : Spells (Derives .factor) text tree) :
    Spells (Derives .expression) text tree := by
  intro position rest breaks
  obtain ⟨tokens, beyond, read, run, derived, same⟩ := h position rest breaks
  exact ⟨tokens, beyond, read, run, .single (.single derived), same⟩

theorem spells_group (h : Spells (Derives .expression) text tree) :
    Spells (Derives .factor) ("(" ++ text ++ ")") tree := by
  have opens : Token.Kind.ofSymbol? '(' = some .leftParen := rfl
  have closes : Token.Kind.ofSymbol? ')' = some .rightParen := rfl
  intro position rest breaks
  have split : ("(" ++ text ++ ")").toList ++ rest = '(' :: (text.toList ++ ')' :: rest) := by
    simp
  obtain ⟨tokens, middle, read, run, derived, same⟩ :=
    h (position + 1) (')' :: rest) (Scanner.breaks_of_symbol closes)
  have inner := Scanner.yields_append_iff.mpr
    ⟨_, run, .cons (Scanner.next_of_symbol middle closes) (.nil _)⟩
  rw [split]
  exact ⟨_, _, read, .cons (Scanner.next_of_symbol position opens) inner,
    .group rfl derived rfl, same⟩

theorem spells_unary (sign : Sign) (token : Token)
    (h : Spells (Derives .factor) text tree) :
    Spells (Derives .factor) (sign.symbol ++ text) (.unary sign token tree) := by
  intro position rest breaks
  obtain ⟨c, kind, written, symbol, signs⟩ := symbol_of_sign sign
  have split : (sign.symbol ++ text).toList ++ rest = c :: (text.toList ++ rest) := by
    simp [written]
  obtain ⟨tokens, beyond, read, run, derived, same⟩ := h (position + 1) rest breaks
  rw [split]
  refine ⟨_, beyond, _, .cons (Scanner.next_of_symbol position symbol) run,
    .signed signs derived, ?_⟩
  rw [Tree.bare, Tree.bare, same]

/-- An operator stands between two factors, whatever its level. -/
theorem spells_binary {left right : Tree} {before behind : String} (operator : Operator)
    (token : Token) (first : Spells (Derives .factor) before left)
    (second : Spells (Derives .factor) behind right) :
    Spells (Derives .expression) (before ++ operator.symbol ++ behind)
      (.binary operator token left right) := by
  intro position rest breaks
  obtain ⟨c, kind, written, symbol, joins⟩ := symbol_of_operator operator
  have split : (before ++ operator.symbol ++ behind).toList ++ rest =
      before.toList ++ c :: (behind.toList ++ rest) := by
    simp [written]
  obtain ⟨tokens, middle, leftRead, run, derived, same⟩ :=
    first position (c :: (behind.toList ++ rest)) (Scanner.breaks_of_symbol symbol)
  obtain ⟨tokens', beyond, rightRead, run', derived', same'⟩ := second (middle + 1) rest breaks
  have more := Scanner.Yields.cons (Scanner.next_of_symbol middle symbol) run'
  rw [split]
  refine ⟨_, beyond, _, Scanner.yields_append_iff.mpr ⟨_, run, more⟩,
    expression_of_chain (.pair (operand_of_factor derived) joins (operand_of_factor derived')), ?_⟩
  rw [Tree.bare, Tree.bare, same, same']

end

/-- The infix form of an expression is read as the expression, and in the form that it has as an
operand as a factor. -/
theorem spells_of_expression {tree : Tree} (h : tree.WritableExpression) :
    Spells (Derives .expression) tree.write tree ∧
      Spells (Derives .factor) (Tree.enclose tree.compound tree.write) tree := by
  -- Both forms at once: a compound tree needs its operands as factors, and is an expression itself.
  induction h with
  | @literal _ token unsigned =>
    have factor := spells_literal token unsigned
    exact ⟨spells_single factor, factor⟩
  | identifier name =>
    have factor := spells_identifier name
    exact ⟨spells_single factor, factor⟩
  | @unary sign token _ _ ih =>
    have whole := spells_single (spells_unary sign token ih.2)
    exact ⟨whole, spells_group whole⟩
  | @binary operator token _ _ _ _ ihLeft ihRight =>
    have whole := spells_binary operator token ihLeft.2 ihRight.2
    exact ⟨whole, spells_group whole⟩

/-! ### Statements -/

/-- A name, an equals sign and an expression, with a space on both sides of the sign. -/
theorem yields_binding {name text : String} {value : Tree} (named : Token.IsName name)
    (h : Spells (Derives .expression) text value) (position : Nat) {rest : List Char}
    (breaks : Scanner.Breaks rest) :
    ∃ token equals tokens beyond read,
      (⟨(name ++ " = " ++ text).toList ++ rest, position⟩ : Scanner).Yields
        (token :: equals :: tokens) ⟨rest, beyond⟩ ∧
      token.kind = .identifier ∧ token.lexeme = name ∧ equals.kind = .equal ∧
      Derives .expression tokens read ∧ read.bare = value.bare := by
  have equal : Token.Kind.ofSymbol? '=' = some .equal := rfl
  have split : (name ++ " = " ++ text).toList ++ rest =
      name.toList ++ ' ' :: '=' :: ' ' :: (text.toList ++ rest) := by
    simp
  have first := Scanner.next_of_lexeme position (Token.lexeme_of_isName named)
    (Scanner.breaks_space ('=' :: ' ' :: (text.toList ++ rest)))
  obtain ⟨tokens, beyond, read, run, derived, same⟩ :=
    h (position + name.toList.length + 3) rest breaks
  have inner := Scanner.yields_space run (Grammar.ne_nil_of_statement (.expression derived))
  have second := Scanner.yields_space (.cons (Scanner.next_of_symbol _ equal) inner) (by simp)
  rw [split]
  exact ⟨_, _, tokens, beyond, read, .cons first second, rfl, String.ofList_toList, rfl, derived,
    same⟩

theorem spells_of_statement {tree : Tree} (h : tree.WritableStatement) :
    Spells Statement tree.write tree := by
  intro position rest breaks
  cases h with
  | @declaration name equals value named inner =>
    have split : (Tree.declaration name equals value).write.toList ++ rest =
        "var".toList ++ ' ' :: ((name.lexeme ++ " = " ++ value.write).toList ++ rest) := by
      simp [Tree.write]
    have first := Scanner.next_of_lexeme position Token.lexeme_var
      (Scanner.breaks_space ((name.lexeme ++ " = " ++ value.write).toList ++ rest))
    obtain ⟨_, _, tokens, beyond, read, run, kind, lexeme, equal, derived, same⟩ :=
      yields_binding named (spells_of_expression inner).1 (position + 4) breaks
    rw [split]
    refine ⟨_, beyond, _, .cons first (Scanner.yields_space run (by simp)),
      .declaration rfl rfl kind equal derived, ?_⟩
    rw [Tree.bare, Tree.bare, lexeme, same]
  | @assignment name equals value named inner =>
    obtain ⟨_, _, tokens, beyond, read, run, kind, lexeme, equal, derived, same⟩ :=
      yields_binding named (spells_of_expression inner).1 position breaks
    refine ⟨_, beyond, _, run, .assignment kind equal derived, ?_⟩
    rw [Tree.bare, Tree.bare, lexeme, same]
  | expression inner =>
    obtain ⟨tokens, beyond, read, run, derived, same⟩ :=
      (spells_of_expression inner).1 position rest breaks
    exact ⟨tokens, beyond, read, run, .expression derived, same⟩

/-! ### Programs -/

theorem ne_nil_of_sequence {tokens : List Token} {trees : List Tree} (h : Sequence tokens trees) :
    tokens ≠ [] := by
  cases h with
  | last statement => exact ne_nil_of_statement statement
  | more => simp

theorem yields_writeAll {statement : Tree} {statements : List Tree}
    (h : ∀ tree ∈ statement :: statements, tree.WritableStatement) (position : Nat) :
    ∃ tokens beyond trees,
      (⟨(Tree.writeAll (statement :: statements)).toList, position⟩ : Scanner).Yields tokens
        ⟨[], beyond⟩ ∧
      Sequence tokens trees ∧ Tree.bareAll trees = Tree.bareAll (statement :: statements) := by
  have ⟨here, others⟩ := List.forall_mem_cons.mp h
  induction statements generalizing statement position with
  | nil =>
    obtain ⟨tokens, beyond, read, run, derived, same⟩ :=
      spells_of_statement here position [] Scanner.breaks_nil
    rw [List.append_nil] at run
    refine ⟨tokens, beyond, [read], run, .last derived, ?_⟩
    rw [Tree.bareAll, Tree.bareAll, same]
    rfl
  | cons next statements ih =>
    have separates : Token.Kind.ofSymbol? ';' = some .semicolon := rfl
    have split : (Tree.writeAll (statement :: next :: statements)).toList =
        statement.write.toList ++ ';' :: ' ' :: (Tree.writeAll (next :: statements)).toList := by
      simp [Tree.writeAll]
    obtain ⟨tokens, middle, read, run, derived, same⟩ :=
      spells_of_statement here position _ (Scanner.breaks_of_symbol separates)
    obtain ⟨more, beyond, trees, run', sequence, same'⟩ :=
      ih others (middle + 2) (List.forall_mem_cons.mp others).1 (List.forall_mem_cons.mp others).2
    have behind := Scanner.Yields.cons (Scanner.next_of_symbol middle separates)
      (Scanner.yields_space run' (ne_nil_of_sequence sequence))
    rw [split]
    refine ⟨_, beyond, read :: trees, Scanner.yields_append_iff.mpr ⟨_, run, behind⟩,
      .more derived rfl sequence, ?_⟩
    rw [Tree.bareAll, Tree.bareAll, same, same']

theorem program_writeAll {statements : List Tree}
    (h : ∀ statement ∈ statements, statement.WritableStatement) :
    ∃ tokens final trees, (Scanner.ofSource (Tree.writeAll statements)).Yields tokens final ∧
      Program tokens trees ∧ Tree.bareAll trees = Tree.bareAll statements := by
  cases statements with
  | nil =>
    have last := Scanner.yields_singleton_iff.mpr (Scanner.next_nil 0)
    exact ⟨_, _, [], last, .empty rfl, rfl⟩
  | cons statement statements =>
    obtain ⟨tokens, beyond, trees, run, sequence, same⟩ := yields_writeAll h 0
    have last := Scanner.yields_singleton_iff.mpr (Scanner.next_nil beyond)
    exact ⟨_, _, trees, Scanner.yields_append_iff.mpr ⟨_, run, last⟩, .closed sequence rfl, same⟩

/-! ### Reading back -/

/-- The infix form of the tree is read as a tree that has the same values, names and operators, and
evaluating it ends as evaluating the tree does, but for the place of a fault. -/
def Tree.ReadsBack (mode : Mode) (tree : Tree) : Prop :=
  (∃ read, Tree.ofSource mode tree.write = .ok read ∧ read.bare = tree.bare) ∧
    (Calculator.evaluate mode tree.write).adaptExcept Fault.cause =
      tree.evaluate.adaptExcept Fault.cause

theorem readsBack_of_bare {mode : Mode} {tree read : Tree}
    (ran : Tree.ofSource mode tree.write = .ok read) (same : read.bare = tree.bare) :
    tree.ReadsBack mode := by
  refine ⟨⟨read, ran, same⟩, ?_⟩
  rw [evaluate_of_ok ran, Tree.evaluate_of_bare same]

theorem readsBack_of_statement {statement : Tree} (h : statement.WritableStatement) :
    statement.ReadsBack .statement := by
  obtain ⟨tokens, beyond, read, run, derived, same⟩ :=
    spells_of_statement h 0 [] Scanner.breaks_nil
  rw [List.append_nil] at run
  have ran := Parser.ofSource_statement_of_complete run (Scanner.next_nil beyond) rfl derived
  exact readsBack_of_bare ran same

theorem readsBack_of_program {statements : List Tree} (span : Span)
    (h : ∀ statement ∈ statements, statement.WritableStatement) :
    (Tree.program statements span).ReadsBack .program := by
  obtain ⟨tokens, final, trees, run, program, same⟩ := program_writeAll h
  have ran : Tree.ofSource .program (Tree.program statements span).write =
      .ok (.program trees ⟨0, (Tree.writeAll statements).length⟩) := by
    rw [Tree.write]
    exact Parser.ofSource_of_program run program
  apply readsBack_of_bare ran
  rw [Tree.bare, Tree.bare, same]

/-- Statements are read back as a program, and each by itself as a statement. -/
theorem readsBack_of_statements {statements : List Tree} (span : Span)
    (h : ∀ statement ∈ statements, statement.WritableStatement) :
    (Tree.program statements span).ReadsBack .program ∧
      ∀ statement ∈ statements, statement.ReadsBack .statement :=
  ⟨readsBack_of_program span h, fun statement member => readsBack_of_statement (h statement member)⟩

/-- Signs and operators in each other's operands, and a division that fails. -/
theorem readsBack_of_nested :
    ∃ statements span,
      (Tree.program statements span).write = "var a = -(1+2); (-a)*(a/0)" ∧
      (Tree.program statements span).ReadsBack .program ∧
      ∀ statement ∈ statements, statement.ReadsBack .statement := by
  have name : Token.IsName "a" := ⟨_, _, rfl, rfl, rfl⟩
  have declaration : Tree.WritableStatement (.declaration (.named "a") (.named "")
      (.unary .minus (.named "")
        (.binary .add (.named "") (.literal 1 (.named "")) (.literal 2 (.named ""))))) :=
    .declaration name (.unary (.binary (.literal (by decide)) (.literal (by decide))))
  have product : Tree.WritableStatement (.binary .multiply (.named "")
      (.unary .minus (.named "") (.identifier (.named "a")))
      (.binary .divide (.named "") (.identifier (.named "a")) (.literal 0 (.named "")))) :=
    .expression (.binary (.unary (.identifier name))
      (.binary (.identifier name) (.literal (by decide))))
  have both := List.forall_mem_cons.mpr ⟨declaration, List.forall_mem_singleton.mpr product⟩
  exact ⟨_, ⟨0, 0⟩, by decide +kernel, readsBack_of_statements ⟨0, 0⟩ both⟩

end Calculator
