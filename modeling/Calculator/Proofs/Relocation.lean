import Calculator.Proofs.Execution

/-!
# Other offsets

Tokens, trees and faults with other offsets in their spans. The rules of the grammar and the rules
of evaluation look at no offset, so both go along with such a change: a word has the tree of the
other word with its offsets changed, and a tree the value or the fault of the other tree.
-/

namespace Calculator

def Span.relocate (offsets : Nat → Nat) (span : Span) : Span :=
  ⟨offsets span.start, offsets span.stop⟩

def Token.relocate (offsets : Nat → Nat) (token : Token) : Token :=
  { token with span := token.span.relocate offsets }

def Fault.relocate (offsets : Nat → Nat) (fault : Fault) : Fault :=
  { fault with span := fault.span.relocate offsets }

namespace Tree

mutual

/-- The tree with other offsets in its tokens and in the span of a program. -/
def relocate (offsets : Nat → Nat) : Tree → Tree
  | .program statements span =>
    .program (relocateAll offsets statements) (span.relocate offsets)
  | .literal value token => .literal value (token.relocate offsets)
  | .binary operator token left right =>
    .binary operator (token.relocate offsets) (left.relocate offsets) (right.relocate offsets)
  | .unary sign token operand =>
    .unary sign (token.relocate offsets) (operand.relocate offsets)
  | .identifier token => .identifier (token.relocate offsets)
  | .declaration name equals value =>
    .declaration (name.relocate offsets) (equals.relocate offsets) (value.relocate offsets)
  | .assignment name equals value =>
    .assignment (name.relocate offsets) (equals.relocate offsets) (value.relocate offsets)

def relocateAll (offsets : Nat → Nat) : List Tree → List Tree
  | [] => []
  | statement :: statements => statement.relocate offsets :: relocateAll offsets statements

end

theorem span_relocate (offsets : Nat → Nat) (tree : Tree) :
    (tree.relocate offsets).span = tree.span.relocate offsets := by
  fun_induction span tree with
  | case1 | case2 | case5 => rfl
  | case3 operator token left right first second =>
    rw [relocate, span, first, second]
    rfl
  | case4 sign token operand ih =>
    rw [relocate, span, ih]
    rfl
  | case6 name equals value ih | case7 name equals value ih =>
    rw [relocate, span, ih]
    rfl

theorem kind_relocate (offsets : Nat → Nat) (tree : Tree) :
    (tree.relocate offsets).kind = tree.kind := by
  cases tree <;> rfl

theorem misplaced_relocate (offsets : Nat → Nat) (tree : Tree) :
    misplaced (tree.relocate offsets) = (misplaced tree).relocate offsets := by
  rw [misplaced, kind_relocate, span_relocate]
  rfl

/-! ### Evaluation -/

theorem mapError_ok (change : Fault → Fault) (value : Int64) :
    (Except.ok value : Except Fault Int64).mapError change = .ok value := rfl

theorem value_relocate (offsets : Nat → Nat) (env : Environment) (tree : Tree) :
    (tree.relocate offsets).value env = (tree.value env).mapError (Fault.relocate offsets) := by
  fun_induction value env tree with
  | case1 => rfl
  | case2 operator token left right second first =>
    show _ = (value env (.binary operator token left right)).mapError _
    rw [relocate, value_binary, second, first, span_relocate, value_binary]
    cases left.value env with
    | error fault => rfl
    | ok leftValue =>
      cases right.value env with
      | error fault => rfl
      | ok rightValue =>
        simp only [mapError_ok]
        cases operator.apply? leftValue rightValue with
        | none => rfl
        | some result => rfl
  | case3 sign token operand ih =>
    show _ = (value env (.unary sign token operand)).mapError _
    rw [relocate, value_unary, ih, value_unary]
    cases operand.value env with
    | error fault => rfl
    | ok operandValue => rfl
  | case4 token result bound | case5 token bound =>
    have same : (token.relocate offsets).lexeme = token.lexeme := rfl
    rw [relocate, value, same, bound]
    rfl
  | case6 statements span =>
    exact congrArg Except.error (misplaced_relocate offsets (.program statements span))
  | case7 name equals inner =>
    exact congrArg Except.error (misplaced_relocate offsets (.declaration name equals inner))
  | case8 name equals inner =>
    exact congrArg Except.error (misplaced_relocate offsets (.assignment name equals inner))

theorem store_relocate (offsets : Nat → Nat) (name : Token) (expression : Tree) :
    store (name.relocate offsets) (expression.relocate offsets) =
      (store name expression).adaptExcept (Fault.relocate offsets) := by
  funext env
  rw [EStateM.adaptExcept, store_eq, store_eq, value_relocate]
  cases expression.value env with
  | ok value => rfl
  | error fault => rfl

/-- A statement with other offsets changes the environment alike, and its fault has the other
offsets too. -/
theorem execute_relocate (offsets : Nat → Nat) (tree : Tree) :
    (tree.relocate offsets).execute = tree.execute.adaptExcept (Fault.relocate offsets) := by
  funext env
  rcases isExpression_or tree with root | ⟨statements, span, rfl⟩ | ⟨name, equals, value, rfl⟩ |
    ⟨name, equals, value, rfl⟩
  · have root' : (tree.relocate offsets).kind.IsExpression := by rwa [kind_relocate]
    rw [EStateM.adaptExcept, execute_expression root, execute_expression root', value_relocate]
    cases tree.value env with
    | ok value => rfl
    | error fault => rfl
  · exact congrArg (EStateM.Result.error · env)
      (misplaced_relocate offsets (.program statements span))
  · rw [adaptExcept_declaration, relocate, execute_declaration, store_relocate]
    rfl
  · rw [adaptExcept_assignment, relocate, execute_assignment, store_relocate]
    rfl

end Tree

/-! ### The grammar -/

namespace Grammar

/-- A derivation from tokens with other offsets is one from the tokens as they were. -/
theorem derives_of_relocate {offsets : Nat → Nat} {category : Category} {tokens : List Token}
    {tree : Tree} (h : Derives category (tokens.map (Token.relocate offsets)) tree) :
    ∃ original, Derives category tokens original ∧ tree = original.relocate offsets := by
  generalize changed : tokens.map (Token.relocate offsets) = word at h
  induction h generalizing tokens with
  | literal kind read =>
    obtain ⟨token, rfl, rfl⟩ := List.map_eq_singleton_iff.mp changed
    exact ⟨_, .literal kind read, rfl⟩
  | name kind =>
    obtain ⟨token, rfl, rfl⟩ := List.map_eq_singleton_iff.mp changed
    exact ⟨_, .name kind, rfl⟩
  | group opens _ closes ih =>
    obtain ⟨opening, rest, rfl, rfl, more⟩ := List.map_eq_cons_iff.mp changed
    obtain ⟨inside, last, rfl, inner, closed⟩ := List.map_eq_append_iff.mp more
    obtain ⟨closing, rfl, rfl⟩ := List.map_eq_singleton_iff.mp closed
    obtain ⟨original, derived, rfl⟩ := ih inner
    exact ⟨original, .group opens derived closes, rfl⟩
  | signed signs _ ih =>
    obtain ⟨token, rest, rfl, rfl, inner⟩ := List.map_eq_cons_iff.mp changed
    obtain ⟨operand, derived, rfl⟩ := ih inner
    exact ⟨_, .signed signs derived, rfl⟩
  | single _ ih =>
    obtain ⟨original, derived, rfl⟩ := ih changed
    exact ⟨original, .single derived, rfl⟩
  | pair _ joins _ first second =>
    obtain ⟨before, rest, rfl, inner, more⟩ := List.map_eq_append_iff.mp changed
    obtain ⟨token, behind, rfl, rfl, inner'⟩ := List.map_eq_cons_iff.mp more
    obtain ⟨left, derived, rfl⟩ := first inner
    obtain ⟨right, derived', rfl⟩ := second inner'
    exact ⟨_, .pair derived joins derived', rfl⟩

theorem statement_of_relocate {offsets : Nat → Nat} {tokens : List Token} {tree : Tree}
    (h : Statement (tokens.map (Token.relocate offsets)) tree) :
    ∃ original, Statement tokens original ∧ tree = original.relocate offsets := by
  generalize changed : tokens.map (Token.relocate offsets) = word at h
  cases h with
  | declaration reserved var named assigned inner =>
    obtain ⟨keyword, rest, rfl, rfl, more⟩ := List.map_eq_cons_iff.mp changed
    obtain ⟨name, rest, rfl, rfl, others⟩ := List.map_eq_cons_iff.mp more
    obtain ⟨equals, rest, rfl, rfl, rfl⟩ := List.map_eq_cons_iff.mp others
    obtain ⟨value, derived, rfl⟩ := derives_of_relocate inner
    exact ⟨_, .declaration reserved var named assigned derived, rfl⟩
  | assignment named assigned inner =>
    obtain ⟨name, rest, rfl, rfl, more⟩ := List.map_eq_cons_iff.mp changed
    obtain ⟨equals, rest, rfl, rfl, rfl⟩ := List.map_eq_cons_iff.mp more
    obtain ⟨value, derived, rfl⟩ := derives_of_relocate inner
    exact ⟨_, .assignment named assigned derived, rfl⟩
  | expression inner =>
    subst changed
    obtain ⟨original, derived, rfl⟩ := derives_of_relocate inner
    exact ⟨original, .expression derived, rfl⟩

end Grammar

end Calculator
