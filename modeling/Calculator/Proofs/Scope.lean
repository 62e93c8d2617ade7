import Calculator.Proofs.Ledger
import Calculator.Tree.Display
import Mathlib.Data.Finset.Dedup
import Mathlib.Data.Finset.Insert

/-!
# Scope

Whether a run fails for the sake of a name depends on which names have values, and not on the
values. `Tree.verdict` walks a tree with the names alone, and a run that does not divide by zero
does what it foresees: `observe_eq_verdict`. So runs from the same names agree, see
`evaluate_scoped`.
-/

namespace Calculator

namespace Environment

/-- The names that have values. -/
def names (env : Environment) : Finset String :=
  (env.bindings.map Prod.fst).toFinset

section
variable {env : Environment} {name : String}

theorem mem_names : name ∈ env.names ↔ env.binds name = true := by
  simp only [names, binds, get?, List.lookup_isSome_iff, List.mem_toFinset, List.mem_map,
    beq_iff_eq, eq_comm (a := name)]

theorem not_mem_names : name ∉ env.names ↔ env.binds name = false := by
  rw [mem_names, Bool.not_eq_true]

theorem names_bind (env : Environment) (name : String) (value : Int64) :
    (env.bind name value).names = insert name env.names := by
  ext asked
  rw [mem_names, binds_bind, Finset.mem_insert, mem_names, Bool.or_eq_true, decide_eq_true_iff]

end

end Environment

/-! ### What names tell -/

namespace Tree

/-- Why an expression has no value, whatever values the given names have. -/
def unscoped? (names : Finset String) : Tree → Option Fault
  | .literal _ _ => none
  | .binary _ _ left right => (left.unscoped? names).or (right.unscoped? names)
  | .unary _ _ operand => operand.unscoped? names
  | .identifier token =>
    if token.lexeme ∈ names then none
    else some ⟨.undefinedVariable token.lexeme, token.span⟩
  | .program statements span => some (misplaced (.program statements span))
  | .declaration name equals value => some (misplaced (.declaration name equals value))
  | .assignment name equals value => some (misplaced (.assignment name equals value))

/-- The names that have values behind a statement, or why it fails. -/
def check (names : Finset String) : Tree → Except Fault (Finset String)
  | .declaration name _ expression =>
    if name.lexeme ∈ names then .error ⟨.variableRedeclared name.lexeme, name.span⟩
    else (expression.unscoped? names).elim (.ok (insert name.lexeme names)) .error
  | .assignment name _ expression =>
    if name.lexeme ∈ names then (expression.unscoped? names).elim (.ok names) .error
    else .error ⟨.undefinedVariable name.lexeme, name.span⟩
  | tree => (tree.unscoped? names).elim (.ok names) .error

end Tree

/-- What a run shows but for values: how many statements it gets to, the names that have values at
its end, and why it fails if it does. -/
structure Verdict where
  reached : Nat
  names : Finset String
  fault : Option Fault
  deriving DecidableEq

def Verdict.next (verdict : Verdict) : Verdict :=
  { verdict with reached := verdict.reached + 1 }

namespace Tree

def checkAll : List Tree → Finset String → Verdict
  | [], names => ⟨0, names, none⟩
  | statement :: rest, names =>
    match statement.check names with
    | .ok after => (checkAll rest after).next
    | .error fault => ⟨1, names, some fault⟩

/-- What a run of the tree shows if the given names have values, and no part divides by zero. -/
def verdict (names : Finset String) : Tree → Verdict
  | .program [] span => ⟨0, names, some ⟨.emptyProgram, span⟩⟩
  | tree => checkAll tree.statements names

end Tree

def faultOf {α : Type} : EStateM.Result Fault Environment α → Option Fault
  | .ok _ _ => none
  | .error fault _ => some fault

theorem mem_faultOf {α : Type} {run : EStateM.Result Fault Environment α} {fault : Fault} :
    fault ∈ faultOf run ↔ ∃ after, run = .error fault after := by
  cases run <;> simp [faultOf]

/-- What a run from an environment shows. -/
def Tree.observe (env : Environment) (tree : Tree) : Verdict :=
  ⟨(executions tree.statements env).length, (leftBy (tree.evaluate env)).names,
    faultOf (tree.evaluate env)⟩

/-- The fault is that of a division by zero. -/
def Fault.IsDivision (fault : Fault) : Prop :=
  fault.cause = .divisionByZero

namespace Tree

def DividesByZero (env : Environment) (tree : Tree) : Prop :=
  ∃ fault ∈ faultOf (tree.evaluate env), fault.IsDivision

/-- No part of the tree is a division. -/
def DivisionFree (tree : Tree) : Prop :=
  ∀ token left right, ¬Part (.binary .divide token left right) tree

/-! ### A run does what names tell -/

section
variable {tree statement : Tree} {statements : List Tree} {env after : Environment} {value : Int64}
  {fault : Fault}

theorem unscoped?_of_ok (h : tree.value env = .ok value) : tree.unscoped? env.names = none := by
  induction tree using Tree.value.induct env generalizing value with
  | case1 => rfl
  | case2 operator token left right ihLeft ihRight =>
    obtain ⟨_, _, first, second, _⟩ := value_binary_ok h
    rw [unscoped?, ihLeft first, ihRight second, Option.or_none]
  | case3 sign token operand ih =>
    obtain ⟨_, inner, _⟩ := value_unary_ok h
    exact ih inner
  | case4 | case5 =>
    have bound := Option.isSome_of_eq_some (value_identifier_ok h)
    exact if_pos (Environment.mem_names.mpr bound)
  | case6 | case7 | case8 => cases h

theorem unscoped?_of_error (h : tree.value env = .error fault) (other : ¬fault.IsDivision) :
    tree.unscoped? env.names = some fault := by
  induction tree using Tree.value.induct env generalizing fault with
  | case1 => cases h
  | case2 operator token left right ihLeft ihRight =>
    rw [unscoped?]
    rcases value_binary_error h with first | ⟨_, first, second | ⟨_, _, _, rfl⟩⟩
    · rw [ihLeft first other, Option.some_or]
    · rw [unscoped?_of_ok first, Option.none_or, ihRight second other]
    · exact absurd rfl other
  | case3 sign token operand ih => exact ih (value_unary_error h) other
  | case4 | case5 =>
    obtain ⟨unbound, rfl⟩ := value_identifier_error h
    exact if_neg (Environment.not_mem_names.mpr (by simp [Environment.binds, unbound]))
  | case6 | case7 | case8 =>
    cases h
    rfl

theorem check_expression (root : tree.kind.IsExpression) (names : Finset String) :
    tree.check names = (tree.unscoped? names).elim (.ok names) .error := by
  cases tree with
  | literal | identifier | unary | binary => rfl
  | program | declaration | assignment => simp [Kind.IsExpression, kind] at root

theorem check_of_succeeds (h : Succeeds env value statement after) :
    statement.check env.names = .ok after.names := by
  cases h with
  | expression root has => rw [check_expression root, unscoped?_of_ok has, Option.elim]
  | declaration absent has =>
    rw [check, if_neg (Environment.not_mem_names.mpr absent), unscoped?_of_ok has, Option.elim,
      Environment.names_bind]
  | @assignment name _ expression present has =>
    have known : name.lexeme ∈ env.names := Environment.mem_names.mpr present
    rw [check, if_pos known, unscoped?_of_ok has, Option.elim, Environment.names_bind,
      Finset.insert_eq_of_mem known]

theorem check_of_fails (h : Fails env statement fault) (other : ¬fault.IsDivision) :
    statement.check env.names = .error fault := by
  cases h with
  | expression root lacks =>
    rw [check_expression root, unscoped?_of_error lacks other, Option.elim]
  | redeclared present => exact if_pos (Environment.mem_names.mpr present)
  | declaration absent lacks =>
    rw [check, if_neg (Environment.not_mem_names.mpr absent), unscoped?_of_error lacks other,
      Option.elim]
  | undeclared absent => exact if_neg (Environment.not_mem_names.mpr absent)
  | assignment present lacks =>
    rw [check, if_pos (Environment.mem_names.mpr present), unscoped?_of_error lacks other,
      Option.elim]
  | nested => rfl

/-- Statements that do not divide by zero do what their names foresee. -/
theorem checkAll_eq (last : Option Int64)
    (other : ∀ fault ∈ faultOf (statements.foldlM (fun _ tree => some <$> tree.execute) last env),
      ¬fault.IsDivision) :
    checkAll statements env.names = ⟨(executions statements env).length,
      (leftBy (statements.foldlM (fun _ tree => some <$> tree.execute) last env)).names,
      faultOf (statements.foldlM (fun _ tree => some <$> tree.execute) last env)⟩ := by
  -- Every statement leaves another value and other names, and the rest is foreseen from the names.
  induction statements generalizing env last with
  | nil => rfl
  | cons statement rest ih =>
    rw [checkAll, executions]
    rcases succeeds_or_fails statement env with ⟨value, after, succeeds⟩ | ⟨fault, fails⟩
    · rw [foldlM_of_ok succeeds.execute] at other ⊢
      rw [check_of_succeeds succeeds, succeeds.execute]
      dsimp only
      rw [ih (some value) other]
      rfl
    · rw [foldlM_of_error fails.execute] at other ⊢
      rw [check_of_fails fails (other fault rfl), fails.execute]
      rfl

theorem verdict_of_statements (nonempty : tree.statements ≠ []) (names : Finset String) :
    tree.verdict names = checkAll tree.statements names := by
  cases tree with
  | program list span =>
    cases list with
    | nil => exact absurd rfl nonempty
    | cons statement rest => rfl
  | _ => rfl

/-- A run that does not divide by zero shows what the names foresee. -/
theorem observe_eq_verdict (other : ¬tree.DividesByZero env) :
    tree.observe env = tree.verdict env.names := by
  by_cases empty : tree.statements = []
  · cases tree with
    | program list span =>
      obtain rfl : list = [] := empty
      rfl
    | _ => cases empty
  · have foreseen := @checkAll_eq tree.statements env none
    have same := executeAll_statements empty env
    rw [executeAll] at same
    rw [verdict_of_statements empty, observe, foreseen, same]
    · cases tree.evaluate env <;> rfl
    · intro fault failed division
      rw [same] at failed
      refine other ⟨fault, ?_, division⟩
      generalize tree.evaluate env = run at failed ⊢
      cases run with
      | ok value after => cases failed
      | error found after => exact failed

theorem division_of_blames (h : tree.Blames fault) (division : fault.IsDivision) :
    ∃ token left right, Part (.binary .divide token left right) tree := by
  cases h with
  | division part => exact ⟨_, _, _, part⟩
  | undefined | misplaced => cases division

theorem division_of_refuses (h : tree.Refuses fault) (division : fault.IsDivision) :
    ∃ token left right, Part (.binary .divide token left right) tree := by
  cases h with
  | redeclared | undeclared | nested => cases division
  | declaration blames | assignment blames =>
    obtain ⟨token, left, right, part⟩ := division_of_blames blames division
    exact ⟨token, left, right, .under List.mem_cons_self part⟩
  | expression _ blames => exact division_of_blames blames division

/-- Only a division divides by zero. -/
theorem not_dividesByZero (free : tree.DivisionFree) (env : Environment) :
    ¬tree.DividesByZero env := by
  rintro ⟨fault, failed, division⟩
  obtain ⟨after, ran⟩ := mem_faultOf.mp failed
  rcases program_or_kind tree with ⟨statements, span, rfl⟩ | root
  · rcases evaluate_program_error ran with ⟨_, rfl, _⟩ | ⟨_, failing, _, rfl, _, refused⟩
    · cases division
    · obtain ⟨token, left, right, part⟩ := division_of_refuses (execute_error refused).2 division
      exact free token left right (.under (by simp [children]) part)
  · rw [evaluate_of_kind root] at ran
    obtain ⟨token, left, right, part⟩ := division_of_refuses (execute_error ran).2 division
    exact free token left right part

end

/-- Runs of a tree from environments with the same names get to the same statement, fail there with
the same fault or succeed, and leave the same names, unless one of them divides by zero; and this is
what the names foresee. A tree without divisions does not divide by zero. -/
theorem evaluate_scoped (tree : Tree) :
    (∀ left right : Environment, left.names = right.names →
      ¬tree.DividesByZero left → ¬tree.DividesByZero right →
      tree.observe left = tree.observe right ∧ tree.observe left = tree.verdict left.names) ∧
    (tree.DivisionFree → ∀ env, ¬tree.DividesByZero env) := by
  refine ⟨?_, not_dividesByZero⟩
  intro left right same leftFinite rightFinite
  have first := observe_eq_verdict leftFinite
  have second := observe_eq_verdict rightFinite
  rw [← same] at second
  exact ⟨first.trans second.symm, first⟩

/-- The values of `x` differ, and so does the value of `y` that is bound before `z` is missed. -/
theorem evaluate_scoped_of_undefined :
    ∃ tree : Tree, tree.display = "(var y (+ x (/ x x))); (= y z)" ∧
      tree.observe (Environment.empty.bind "x" 1) = tree.observe (Environment.empty.bind "x" 2) ∧
      tree.observe (Environment.empty.bind "x" 1) =
        ⟨2, {"y", "x"}, some ⟨.undefinedVariable "z", ⟨23, 24⟩⟩⟩ := by
  refine ⟨.program
    [.declaration ⟨.identifier, "y", ⟨4, 5⟩⟩ ⟨.equal, "=", ⟨6, 7⟩⟩
      (.binary .add ⟨.plus, "+", ⟨10, 11⟩⟩ (.identifier ⟨.identifier, "x", ⟨8, 9⟩⟩)
        (.binary .divide ⟨.slash, "/", ⟨14, 15⟩⟩ (.identifier ⟨.identifier, "x", ⟨12, 13⟩⟩)
          (.identifier ⟨.identifier, "x", ⟨16, 17⟩⟩))),
    .assignment ⟨.identifier, "y", ⟨19, 20⟩⟩ ⟨.equal, "=", ⟨21, 22⟩⟩
      (.identifier ⟨.identifier, "z", ⟨23, 24⟩⟩)] ⟨0, 24⟩, by decide +kernel, ?_⟩
  generalize whole : Tree.program _ _ = tree
  have first : faultOf (tree.evaluate (Environment.empty.bind "x" 1)) =
      some ⟨.undefinedVariable "z", ⟨23, 24⟩⟩ := by
    subst whole
    decide +kernel
  have second : faultOf (tree.evaluate (Environment.empty.bind "x" 2)) =
      some ⟨.undefinedVariable "z", ⟨23, 24⟩⟩ := by
    subst whole
    decide +kernel
  obtain ⟨same, foreseen⟩ := (evaluate_scoped tree).1 (Environment.empty.bind "x" 1)
    (Environment.empty.bind "x" 2) (by decide +kernel)
    (by simp [DividesByZero, first, Fault.IsDivision])
    (by simp [DividesByZero, second, Fault.IsDivision])
  refine ⟨same, foreseen.trans ?_⟩
  subst whole
  decide +kernel

end Tree

end Calculator
