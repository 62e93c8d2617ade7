import Mathlib.Logic.Equiv.Basic
import Calculator.Proofs.Failure
import Calculator.Tree.Display

/-!
# Other names

Evaluation asks of names only whether they are the same. So an injective change of the names of a
tree and of an environment goes along with evaluation: `evaluate_rename`. A statement succeeds or
fails under other names for the reason that it has under its own, see `Succeeds.rename` and
`Fails.rename`.
-/

namespace Calculator

variable (change : String → String)

def Token.rename (token : Token) : Token :=
  { token with lexeme := change token.lexeme }

/-- The cause with the other name, where evaluation has a name to report. -/
def Fault.Cause.rename : Fault.Cause → Fault.Cause
  | .undefinedVariable name => .undefinedVariable (change name)
  | .variableRedeclared name => .variableRedeclared (change name)
  | cause => cause

def Fault.rename (fault : Fault) : Fault :=
  { fault with cause := fault.cause.rename change }

namespace Tree

mutual

/-- The tree with other names. Of its tokens only those of names change, and no span does. -/
def rename : Tree → Tree
  | .program statements span => .program (renameAll statements) span
  | .literal value token => .literal value token
  | .binary operator token left right => .binary operator token left.rename right.rename
  | .unary sign token operand => .unary sign token operand.rename
  | .identifier token => .identifier (token.rename change)
  | .declaration name equals value => .declaration (name.rename change) equals value.rename
  | .assignment name equals value => .assignment (name.rename change) equals value.rename

def renameAll : List Tree → List Tree
  | [] => []
  | statement :: statements => statement.rename :: renameAll statements

end

end Tree

/-! ### Environments -/

namespace Environment

/-- The bindings with other names, the first of a name in force. -/
def ofBindings : List (String × Int64) → Environment
  | [] => .empty
  | (name, value) :: rest => (ofBindings rest).bind (change name) value

/-- The environment with other names. -/
def rename (env : Environment) : Environment :=
  ofBindings change env.bindings

end Environment

/-- The end of a run with other names in its fault and in the environment it leaves. -/
def renameEnd {α : Type} :
    EStateM.Result Fault Environment α → EStateM.Result Fault Environment α
  | .ok value after => .ok value (after.rename change)
  | .error fault after => .error (fault.rename change) (after.rename change)

variable {change}

namespace Environment

/-- A name that is not the other name of any has no value. -/
theorem get?_rename_of_ne (env : Environment) {asked : String}
    (different : ∀ name, asked ≠ change name) : (env.rename change).get? asked = none := by
  rw [rename]
  induction env.bindings with
  | nil => rfl
  | cons head rest ih =>
    obtain ⟨other, value⟩ := head
    rw [ofBindings, get?_bind_of_ne _ _ (different other), ih]

end Environment

namespace Tree

theorem span_rename (tree : Tree) : (tree.rename change).span = tree.span := by
  fun_induction span tree with
  | case1 | case2 | case5 => rfl
  | case3 operator token left right first second => rw [rename, span, first, second]
  | case4 sign token operand ih => rw [rename, span, ih]
  | case6 name equals value ih | case7 name equals value ih =>
    rw [rename, span, ih]
    rfl

theorem kind_rename (tree : Tree) : (tree.rename change).kind = tree.kind := by
  cases tree <;> rfl

theorem misplaced_rename (tree : Tree) :
    misplaced (tree.rename change) = (misplaced tree).rename change := by
  rw [misplaced, kind_rename, span_rename]
  rfl

end Tree

section
variable (injective : Function.Injective change)
include injective

namespace Environment

theorem get?_ofBindings (bindings : List (String × Int64)) (name : String) :
    (ofBindings change bindings).get? (change name) = bindings.lookup name := by
  induction bindings with
  | nil => rfl
  | cons head rest ih =>
    obtain ⟨other, value⟩ := head
    rw [ofBindings, get?_bind, lookup_cons, ih]
    simp only [injective.eq_iff]

/-- A name has the value under its other name. -/
theorem get?_rename (env : Environment) (name : String) :
    (env.rename change).get? (change name) = env.get? name :=
  get?_ofBindings injective env.bindings name

theorem binds_rename (env : Environment) (name : String) :
    (env.rename change).binds (change name) = env.binds name := by
  rw [binds, get?_rename injective, binds]

theorem get?_rename_eq_some_iff (env : Environment) (asked : String) (value : Int64) :
    (env.rename change).get? asked = some value ↔
      ∃ name, asked = change name ∧ env.get? name = some value := by
  constructor
  · intro bound
    by_cases image : ∃ name, asked = change name
    · obtain ⟨name, rfl⟩ := image
      exact ⟨name, rfl, (get?_rename injective env name).symm.trans bound⟩
    · rw [get?_rename_of_ne env fun name same => image ⟨name, same⟩] at bound
      cases bound
  · rintro ⟨name, rfl, bound⟩
    rw [get?_rename injective, bound]

theorem rename_bind (env : Environment) (name : String) (value : Int64) :
    (env.bind name value).rename change = (env.rename change).bind (change name) value := by
  apply ext_get?
  intro asked
  by_cases image : ∃ name, asked = change name
  · obtain ⟨other, rfl⟩ := image
    rw [get?_rename injective, get?_bind, get?_bind, get?_rename injective]
    simp only [injective.eq_iff]
  · have different (name : String) : asked ≠ change name := fun same => image ⟨name, same⟩
    rw [get?_rename_of_ne _ different, get?_bind_of_ne _ _ (different name),
      get?_rename_of_ne _ different]

end Environment

/-! ### Expressions -/

namespace Tree

theorem value_rename (env : Environment) (tree : Tree) :
    (tree.rename change).value (env.rename change) =
      (tree.value env).mapError (Fault.rename change) := by
  induction tree using Tree.value.induct env with
  | case1 => rfl
  | case2 operator token left right first second =>
    rw [rename, value_binary, first, second, span_rename, value_binary]
    cases left.value env with
    | error fault => rfl
    | ok leftValue =>
      cases right.value env with
      | error fault => rfl
      | ok rightValue =>
        dsimp only [Except.mapError]
        cases operator.apply? leftValue rightValue with
        | none => rfl
        | some result => rfl
  | case3 sign token operand ih =>
    rw [rename, value_unary, ih, value_unary]
    cases operand.value env with
    | error fault => rfl
    | ok operandValue => rfl
  | case4 token result bound | case5 token bound =>
    have same : (env.rename change).get? (token.rename change).lexeme = env.get? token.lexeme :=
      Environment.get?_rename injective env token.lexeme
    rw [rename, value, value, same, bound]
    rfl
  | case6 statements span =>
    exact congrArg Except.error (misplaced_rename (.program statements span))
  | case7 name equals inner =>
    exact congrArg Except.error (misplaced_rename (.declaration name equals inner))
  | case8 name equals inner =>
    exact congrArg Except.error (misplaced_rename (.assignment name equals inner))

/-! ### Statements -/

section
variable {env after : Environment} {tree statement : Tree} {value : Int64} {fault : Fault}

theorem value_rename_ok (has : tree.value env = .ok value) :
    (tree.rename change).value (env.rename change) = .ok value := by
  rw [value_rename injective, has]
  rfl

theorem value_rename_error (lacks : tree.value env = .error fault) :
    (tree.rename change).value (env.rename change) = .error (fault.rename change) := by
  rw [value_rename injective, lacks]
  rfl

theorem Succeeds.rename (h : Succeeds env value statement after) :
    Succeeds (env.rename change) value (statement.rename change) (after.rename change) := by
  cases h with
  | expression root has =>
    exact .expression (by rwa [kind_rename]) (value_rename_ok injective has)
  | @declaration name _ _ absent has =>
    rw [Environment.rename_bind injective]
    exact .declaration ((Environment.binds_rename injective env name.lexeme).trans absent)
      (value_rename_ok injective has)
  | @assignment name _ _ present has =>
    rw [Environment.rename_bind injective]
    exact .assignment ((Environment.binds_rename injective env name.lexeme).trans present)
      (value_rename_ok injective has)

theorem Fails.rename (h : Fails env statement fault) :
    Fails (env.rename change) (statement.rename change) (fault.rename change) := by
  have binds (name : Token) :
      (env.rename change).binds (name.rename change).lexeme = env.binds name.lexeme :=
    Environment.binds_rename injective env name.lexeme
  cases h with
  | expression root lacks =>
    exact .expression (by rwa [kind_rename]) (value_rename_error injective lacks)
  | @redeclared name _ _ present => exact .redeclared ((binds name).trans present)
  | @declaration name _ _ _ absent lacks =>
    exact .declaration ((binds name).trans absent) (value_rename_error injective lacks)
  | @undeclared name _ _ absent => exact .undeclared ((binds name).trans absent)
  | @assignment name _ _ _ present lacks =>
    exact .assignment ((binds name).trans present) (value_rename_error injective lacks)
  | @nested statements span =>
    rw [← misplaced_rename]
    exact .nested

/-- A statement with other names does under them what it does under its own. -/
theorem execute_rename (statement : Tree) (env : Environment) :
    (statement.rename change).execute (env.rename change) =
      renameEnd change (statement.execute env) := by
  rcases succeeds_or_fails statement env with ⟨value, after, succeeds⟩ | ⟨fault, fails⟩
  · rw [succeeds.execute, (succeeds.rename injective).execute]
    rfl
  · rw [fails.execute, (fails.rename injective).execute]
    rfl

end

/-! ### Programs -/

theorem foldlM_rename (statements : List Tree) (last : Option Int64) (env : Environment) :
    (renameAll change statements).foldlM (fun _ tree => some <$> tree.execute) last
        (env.rename change) =
      renameEnd change (statements.foldlM (fun _ tree => some <$> tree.execute) last env) := by
  induction statements generalizing last env with
  | nil => rfl
  | cons statement rest ih =>
    have first := execute_rename injective statement env
    rw [renameAll]
    cases ran : statement.execute env with
    | ok value between =>
      rw [ran] at first
      rw [foldlM_of_ok ran, foldlM_of_ok first]
      exact ih (some value) between
    | error fault after =>
      rw [ran] at first
      rw [foldlM_of_error ran, foldlM_of_error first]
      rfl

end Tree

/-- Under other names, no two of which are the same unless they were, a tree has the same value, or
the same fault at the same place under the other names, and leaves the same environment but for its
names. This holds of every tree, also of one whose parts are out of place, when it is evaluated and
when it is looked at as an expression. -/
theorem Tree.evaluate_rename (tree : Tree) (env : Environment) :
    (tree.rename change).evaluate (env.rename change) = renameEnd change (tree.evaluate env) ∧
    (tree.rename change).value (env.rename change) =
      (tree.value env).mapError (Fault.rename change) ∧
    ∀ (left : Environment) (asked : String) (value : Int64),
      (left.rename change).get? asked = some value ↔
        ∃ name, asked = change name ∧ left.get? name = some value := by
  refine ⟨?_, value_rename injective env tree, Environment.get?_rename_eq_some_iff injective⟩
  rcases program_or_kind tree with ⟨statements, span, rfl⟩ | root
  · have all : executeAll (renameAll change statements) (env.rename change) =
        renameEnd change (executeAll statements env) := foldlM_rename injective statements none env
    rw [rename, evaluate_program, evaluate_program, all]
    cases executeAll statements env with
    | error fault after => rfl
    | ok result after =>
      cases result with
      | none => rfl
      | some value => rfl
  · have root' : (tree.rename change).kind ≠ .program := by rwa [kind_rename]
    rw [evaluate_of_kind root, evaluate_of_kind root']
    exact execute_rename injective tree env

end

/-- Two names change places in a program that fails halfway, and so in the order of the
environment. -/
theorem Tree.evaluate_rename_of_swap :
    Function.Injective (Equiv.swap "a" "b") ∧
    ∃ tree : Tree, tree.display = "(var a 2); (= b (* b a)); (= a c)" ∧
      (tree.rename (Equiv.swap "a" "b")).display = "(var b 2); (= a (* a b)); (= b c)" ∧
      (tree.rename (Equiv.swap "a" "b")).evaluate (Environment.empty.bind "a" 3) =
        .error ⟨.undefinedVariable "c", ⟨26, 27⟩⟩ ((Environment.empty.bind "a" 6).bind "b" 2) := by
  have injective : Function.Injective (Equiv.swap "a" "b") := (Equiv.swap "a" "b").injective
  refine ⟨injective, ?_⟩
  generalize built : Tree.program
    [.declaration ⟨.identifier, "a", ⟨4, 5⟩⟩ ⟨.equal, "=", ⟨6, 7⟩⟩
      (.literal 2 ⟨.integer, "2", ⟨8, 9⟩⟩),
    .assignment ⟨.identifier, "b", ⟨11, 12⟩⟩ ⟨.equal, "=", ⟨13, 14⟩⟩
      (.binary .multiply ⟨.star, "*", ⟨17, 18⟩⟩ (.identifier ⟨.identifier, "b", ⟨15, 16⟩⟩)
        (.identifier ⟨.identifier, "a", ⟨19, 20⟩⟩)),
    .assignment ⟨.identifier, "a", ⟨22, 23⟩⟩ ⟨.equal, "=", ⟨24, 25⟩⟩
      (.identifier ⟨.identifier, "c", ⟨26, 27⟩⟩)] ⟨0, 27⟩ = tree
  have start : (Environment.empty.bind "b" 3).rename (Equiv.swap "a" "b") =
      Environment.empty.bind "a" 3 := by
    decide +kernel
  have ran := (evaluate_rename injective tree (Environment.empty.bind "b" 3)).1
  rw [start] at ran
  subst built
  exact ⟨_, by decide +kernel, by decide +kernel, ran.trans (by decide +kernel)⟩

end Calculator
