import Calculator.Proofs.Frame

/-!
# The order of evaluation

An expression is walked with the operands of an operator in front of it, left before right, and the
first part that has no value is the one that its fault is about: `value_eq_error_iff`. Nothing is
passed over on the way, so an expression with a value mentions names that have values only, see
`binds_of_value`, and a statement looks at its own name before its expression is walked:
`value_strict`.
-/

namespace Calculator.Tree

/-- The parts of an expression in the order of evaluation. What is below a program, a declaration or
an assignment is not walked. -/
def walk : Tree → List Tree
  | .binary operator token left right =>
    left.walk ++ right.walk ++ [.binary operator token left right]
  | .unary sign token operand => operand.walk ++ [.unary sign token operand]
  | tree => [tree]

/-- Why a part has no value, though its operands may have theirs. -/
def fault? (env : Environment) : Tree → Option Fault
  | .identifier token =>
    if env.binds token.lexeme then none else some ⟨.undefinedVariable token.lexeme, token.span⟩
  | .binary .divide _ _ right =>
    match right.value env with
    | .ok divisor => if divisor = 0 then some ⟨.divisionByZero, right.span⟩ else none
    | .error _ => none
  | .program statements span => some (misplaced (.program statements span))
  | .declaration name equals value => some (misplaced (.declaration name equals value))
  | .assignment name equals value => some (misplaced (.assignment name equals value))
  | .literal _ _ | .unary _ _ _ | .binary _ _ _ _ => none

/-- The fault is that of the first part, in the order of evaluation, that has no value. -/
def FirstFault (env : Environment) (tree : Tree) (fault : Fault) : Prop :=
  ∃ before part behind, tree.walk = before ++ part :: behind ∧ part.fault? env = some fault ∧
    ∀ other ∈ before, other.fault? env = none

section
variable {env : Environment} {tree left right : Tree} {operator : Operator} {token : Token}
  {value rightValue : Int64} {fault : Fault} {name : String}

theorem firstFault_iff :
    tree.FirstFault env fault ↔ tree.walk.findSome? (fault? env) = some fault :=
  List.findSome?_eq_some_iff.symm

theorem fault?_binary (leftValue : Int64) (second : right.value env = .ok rightValue) :
    (Tree.binary operator token left right).fault? env =
      match operator.apply? leftValue rightValue with
      | some _ => none
      | none => some ⟨.divisionByZero, right.span⟩ := by
  cases operator with
  | add | subtract | multiply => rfl
  | divide =>
    rw [fault?, second, Operator.apply?]
    by_cases zero : rightValue = 0
    · simp only [zero, if_true]
    · simp only [zero, if_false]

theorem findSome?_walk (env : Environment) (tree : Tree) :
    tree.walk.findSome? (fault? env) = match tree.value env with
      | .ok _ => none
      | .error fault => some fault := by
  induction tree using Tree.value.induct env with
  | case1 => rfl
  | case2 operator token left right first second =>
    -- The operator comes last, so what it says matters only if both operands have a value.
    rw [walk, List.findSome?_append, List.findSome?_append, first, second, value_binary]
    cases left.value env with
    | error fault => rfl
    | ok leftValue =>
      cases has : right.value env with
      | error fault => rfl
      | ok rightValue =>
        rw [List.findSome?_singleton, fault?_binary leftValue has]
        dsimp only
        cases operator.apply? leftValue rightValue with
        | none => rfl
        | some result => rfl
  | case3 sign token operand ih =>
    rw [walk, List.findSome?_append, ih, value_unary]
    cases operand.value env with
    | error fault => rfl
    | ok operandValue => rfl
  | case4 token result bound | case5 token bound =>
    show [Tree.identifier token].findSome? (fault? env) = _
    rw [List.findSome?_singleton, fault?, Tree.value, Environment.binds, bound]
    rfl
  | case6 | case7 | case8 => rfl

/-- An expression has the fault of the first part that has no value. -/
theorem value_eq_error_iff : tree.value env = .error fault ↔ tree.FirstFault env fault := by
  rw [firstFault_iff, findSome?_walk]
  cases tree.value env with
  | ok value => simp
  | error found => simp

theorem exists_value_error_iff :
    (∃ fault, tree.value env = .error fault) ↔ ∃ part ∈ tree.walk, part.fault? env ≠ none := by
  have walked := findSome?_walk env tree
  cases has : tree.value env with
  | ok value =>
    rw [has, List.findSome?_eq_none_iff] at walked
    simpa using walked
  | error found =>
    rw [has] at walked
    obtain ⟨part, member, failing⟩ := List.exists_of_findSome?_eq_some walked
    exact iff_of_true ⟨found, rfl⟩ ⟨part, member, by simp [failing]⟩

/-! ### Names -/

theorem binds_of_value (h : tree.value env = .ok value) (mentions : tree.Mentions name) :
    env.binds name = true := by
  induction tree using Tree.value.induct env generalizing value with
  | case1 => exact absurd mentions not_mentions_literal
  | case2 operator token left right ihLeft ihRight =>
    obtain ⟨_, _, first, second, _⟩ := value_binary_ok h
    rcases mentions_binary.mp mentions with mentions | mentions
    · exact ihLeft first mentions
    · exact ihRight second mentions
  | case3 sign token operand ih =>
    obtain ⟨_, inner, _⟩ := value_unary_ok h
    exact ih inner (mentions_unary.mp mentions)
  | case4 | case5 =>
    obtain rfl := mentions_identifier.mp mentions
    exact Option.isSome_of_eq_some (value_identifier_ok h)
  | case6 | case7 | case8 => cases h

/-! ### Statements -/

variable {after : Environment}

theorem store_error_iff (name : Token) :
    store name tree env = .error fault after ↔ after = env ∧ tree.FirstFault env fault := by
  rw [← value_eq_error_iff, store_eq]
  cases tree.value env with
  | ok value => simp
  | error found => simp [eq_comm, and_comm]

theorem declaration_error_iff (name equals : Token) :
    (Tree.declaration name equals tree).execute env = .error fault after ↔ after = env ∧
      if env.binds name.lexeme then fault = ⟨.variableRedeclared name.lexeme, name.span⟩
      else tree.FirstFault env fault := by
  rw [execute_declaration]
  split
  · simp [eq_comm, and_comm]
  · exact store_error_iff name

theorem assignment_error_iff (name equals : Token) :
    (Tree.assignment name equals tree).execute env = .error fault after ↔ after = env ∧
      if env.binds name.lexeme then tree.FirstFault env fault
      else fault = ⟨.undefinedVariable name.lexeme, name.span⟩ := by
  rw [execute_assignment]
  split
  · exact store_error_iff name
  · simp [eq_comm, and_comm]

theorem declaration_of_itself {name : Token} (equals : Token)
    (mentions : tree.Mentions name.lexeme) (env : Environment) :
    ∃ fault, (Tree.declaration name equals tree).execute env = .error fault env := by
  simp only [declaration_error_iff, true_and]
  -- The name may not be declared again, or has no value yet.
  split
  · exact ⟨_, rfl⟩
  · rename_i absent
    cases has : tree.value env with
    | ok value => exact absurd (binds_of_value has mentions) absent
    | error fault => exact ⟨fault, value_eq_error_iff.mp has⟩

end

/-- An expression fails if and only if one of its parts does, and its fault is that of the first
part in the order of evaluation. So all names in an expression with a value have values, and a
declaration that mentions its own name fails. A statement that may not declare or assign its name
says so, whatever its expression is; any other has the fault of its expression. -/
theorem value_strict (tree : Tree) (env : Environment) :
    ((∃ fault, tree.value env = .error fault) ↔ ∃ part ∈ tree.walk, part.fault? env ≠ none) ∧
    (∀ fault, tree.value env = .error fault ↔ tree.FirstFault env fault) ∧
    (∀ value token, tree.value env = .ok value → Part (.identifier token) tree →
      env.binds token.lexeme = true) ∧
    (∀ name equals, tree.Mentions name.lexeme →
      ∃ fault, (Tree.declaration name equals tree).execute env = .error fault env) ∧
    (∀ name equals fault after,
      (Tree.declaration name equals tree).execute env = .error fault after ↔ after = env ∧
        if env.binds name.lexeme then fault = ⟨.variableRedeclared name.lexeme, name.span⟩
        else tree.FirstFault env fault) ∧
    ∀ name equals fault after,
      (Tree.assignment name equals tree).execute env = .error fault after ↔ after = env ∧
        if env.binds name.lexeme then tree.FirstFault env fault
        else fault = ⟨.undefinedVariable name.lexeme, name.span⟩ := by
  refine ⟨exists_value_error_iff, fun fault => value_eq_error_iff, ?_, ?_, ?_, ?_⟩
  · intro value token has part
    exact binds_of_value has ⟨.identifier token, part, rfl⟩
  · intro name equals mentions
    exact declaration_of_itself equals mentions env
  · intro name equals fault after
    exact declaration_error_iff name equals
  · intro name equals fault after
    exact assignment_error_iff name equals

/-- The division comes first of three parts that have no value: the name behind it has none, and the
assignment is no expression. -/
theorem value_strict_of_division :
    ∃ tree : Tree, tree.display = "(+ (/ a (- a a)) (* b (= a 1)))" ∧
      tree.value (Environment.empty.bind "a" 7) = .error ⟨.divisionByZero, ⟨3, 8⟩⟩ ∧
      tree.FirstFault (Environment.empty.bind "a" 7) ⟨.divisionByZero, ⟨3, 8⟩⟩ ∧
      ∃ fault, (Tree.declaration ⟨.identifier, "b", ⟨0, 1⟩⟩ ⟨.equal, "=", ⟨1, 2⟩⟩ tree).execute
        (Environment.empty.bind "a" 7) = .error fault (Environment.empty.bind "a" 7) := by
  let name (start : Nat) : Tree := .identifier ⟨.identifier, "a", .single start⟩
  let division : Tree := .binary .divide ⟨.slash, "/", ⟨1, 2⟩⟩ (name 0)
    (.binary .subtract ⟨.minus, "-", ⟨5, 6⟩⟩ (name 3) (name 7))
  let product : Tree := .binary .multiply ⟨.star, "*", ⟨13, 14⟩⟩
    (.identifier ⟨.identifier, "b", ⟨12, 13⟩⟩)
    (.assignment ⟨.identifier, "a", ⟨15, 16⟩⟩ ⟨.equal, "=", ⟨17, 18⟩⟩
      (.literal 1 ⟨.integer, "1", ⟨19, 20⟩⟩))
  refine ⟨.binary .add ⟨.plus, "+", ⟨10, 11⟩⟩ division product, by decide +kernel, ?_⟩
  generalize whole : Tree.binary .add _ division product = tree
  obtain ⟨_, first, _, itself, _⟩ := value_strict tree (Environment.empty.bind "a" 7)
  have failed : tree.value (Environment.empty.bind "a" 7) =
      .error ⟨.divisionByZero, ⟨3, 8⟩⟩ := by
    subst whole
    rfl
  refine ⟨failed, (first _).mp failed, itself _ _ ?_⟩
  subst whole
  simp [division, product]

end Calculator.Tree
