import Calculator.Proofs.Scope
import Mathlib.Algebra.Group.Int.Defs
import Mathlib.Algebra.Group.Nat.Defs

/-!
# Residues

Values are the residues of integers without bounds. Sums, differences, products and signs can be
taken before the residue or after it, but quotients cannot: so a value is that of the tree in
integers, with residues taken around its divisions.
-/

namespace Calculator

/-- The integer that 64 bits with a sign hold in place of the given one. -/
def residue (number : Int) : Int :=
  number.bmod (2 ^ 64)

/-- The integer is one that 64 bits with a sign can hold. -/
def InRange (number : Int) : Prop :=
  -2 ^ 63 ≤ number ∧ number < 2 ^ 63

instance : DecidablePred InRange :=
  fun _ => inferInstanceAs (Decidable (_ ∧ _))

/-- Division of integers, towards zero. -/
def quotient? (dividend divisor : Int) : Option Int :=
  if divisor = 0 then none else some (dividend.tdiv divisor)

/-- Division of residues. -/
def residueQuotient? (dividend divisor : Int) : Option Int :=
  (quotient? (residue dividend) (residue divisor)).map residue

/-- The value of an operator at two integers, where the division is a given one. -/
def Operator.number? (divide? : Int → Int → Option Int) (operator : Operator) (left right : Int) :
    Option Int :=
  match operator with
  | .add => some (left + right)
  | .subtract => some (left - right)
  | .multiply => some (left * right)
  | .divide => divide? left right

/-- The value of a signed integer. -/
def Sign.number (sign : Sign) (operand : Int) : Int :=
  match sign with
  | .plus => operand
  | .minus => -operand

namespace Tree

/-- The value of an expression in integers, where the division is a given one. -/
def number? (divide? : Int → Int → Option Int) (env : Environment) : Tree → Option Int
  | .literal value _ => some value.toInt
  | .binary operator _ left right => do
    let leftNumber ← left.number? divide? env
    let rightNumber ← right.number? divide? env
    operator.number? divide? leftNumber rightNumber
  | .unary sign _ operand => (operand.number? divide? env).map sign.number
  | .identifier token => (env.get? token.lexeme).map Int64.toInt
  | .program _ _ | .declaration _ _ _ | .assignment _ _ _ => none

/-- The value of an expression in integers. -/
def exactValue? (env : Environment) (tree : Tree) : Option Int :=
  tree.number? quotient? env

/-- An expression whose names have values. -/
inductive Bound (env : Environment) : Tree → Prop where
  | literal (value : Int64) (token : Token) : Bound env (.literal value token)
  | identifier {token : Token} (bound : env.binds token.lexeme = true) :
      Bound env (.identifier token)
  | unary (sign : Sign) (token : Token) {operand : Tree} (inner : Bound env operand) :
      Bound env (.unary sign token operand)
  | binary (operator : Operator) (token : Token) {left right : Tree} (first : Bound env left)
      (second : Bound env right) : Bound env (.binary operator token left right)

end Tree

/-! ### Integers and their residues -/

section
variable {number other : Int}

theorem toInt_ofInt (number : Int) : (Int64.ofInt number).toInt = residue number :=
  Int64.toInt_ofInt

theorem residue_eq_iff :
    residue number = other ↔ InRange other ∧ (2 ^ 64 : Int) ∣ number - other := by
  simp only [residue, InRange, Int.bmod_def]
  omega

theorem residue_of_inRange (h : InRange number) : residue number = number :=
  residue_eq_iff.mpr ⟨h, by simp⟩

end

/-! ### What 64 bits do to operators -/

theorem apply?_divide (left right : Int) :
    Operator.divide.apply? (.ofInt left) (.ofInt right) =
      (residueQuotient? left right).map Int64.ofInt := by
  have zero : residue right = 0 ↔ Int64.ofInt right = 0 := by
    rw [← toInt_ofInt]
    exact Int64.toInt_inj (y := 0)
  show (if Int64.ofInt right = 0 then none else some (Int64.ofInt left / Int64.ofInt right)) = _
  simp only [residueQuotient?, quotient?, zero]
  split
  · rfl
  · have wraps := Int64.toInt_div (.ofInt left) (.ofInt right)
    rw [toInt_ofInt, toInt_ofInt] at wraps
    rw [Option.map_some, Option.map_some, ← Int64.ofInt_toInt (_ / _), wraps]
    rfl

/-- An operator on residues is the residue of the operator. -/
theorem apply?_ofInt (operator : Operator) (left right : Int) :
    operator.apply? (.ofInt left) (.ofInt right) =
      (operator.number? residueQuotient? left right).map Int64.ofInt := by
  cases operator with
  | add => exact congrArg some (Int64.ofInt_add left right).symm
  | subtract => exact congrArg some (Int64.ofInt_sub left right).symm
  | multiply => exact congrArg some (Int64.ofInt_mul left right).symm
  | divide => exact apply?_divide left right

theorem apply_ofInt (sign : Sign) (operand : Int) :
    sign.apply (.ofInt operand) = .ofInt (sign.number operand) := by
  cases sign with
  | plus => rfl
  | minus => exact (Int64.ofInt_neg operand).symm

namespace Tree

section
variable {tree left right operand : Tree} {env : Environment} {operator : Operator} {sign : Sign}
  {token : Token} {divide? other? : Int → Int → Option Int} {number : Int}

theorem toOption_value_binary :
    ((Tree.binary operator token left right).value env).toOption =
      (left.value env).toOption.bind fun leftValue =>
        (right.value env).toOption.bind fun rightValue =>
          operator.apply? leftValue rightValue := by
  rw [value_binary]
  cases left.value env with
  | error fault => rfl
  | ok leftValue =>
    cases right.value env with
    | error fault => rfl
    | ok rightValue =>
      dsimp only [Except.toOption, Option.bind]
      cases operator.apply? leftValue rightValue <;> rfl

theorem toOption_value_unary :
    ((Tree.unary sign token operand).value env).toOption =
      (operand.value env).toOption.map sign.apply := by
  rw [value_unary]
  cases operand.value env with
  | error fault => rfl
  | ok operandValue => rfl

/-- A value is the residue of what the tree makes of integers if its divisions are of residues. -/
theorem toOption_value (tree : Tree) (env : Environment) :
    (tree.value env).toOption = (tree.number? residueQuotient? env).map Int64.ofInt := by
  induction tree using Tree.value.induct env with
  | case1 value token => exact congrArg some (Int64.ofInt_toInt value).symm
  | case2 operator token left right ihLeft ihRight =>
    rw [toOption_value_binary, ihLeft, ihRight, number?]
    simp only [Option.bind_eq_bind, Option.bind_map, Option.map_bind, Function.comp_def,
      apply?_ofInt]
  | case3 sign token operand ih =>
    rw [toOption_value_unary, ih, number?]
    simp only [Option.map_map, Function.comp_def, apply_ofInt]
  | case4 token value bound =>
    rw [Tree.value, bound, number?, bound]
    exact congrArg some (Int64.ofInt_toInt value).symm
  | case5 token unbound =>
    rw [Tree.value, unbound, number?, unbound]
    rfl
  | case6 | case7 | case8 => rfl

/-- Every division in the tree is one of operands that are so related. -/
def Divisions (related : Int → Int → Prop) (divide? : Int → Int → Option Int) (env : Environment)
    (tree : Tree) : Prop :=
  ∀ token left right dividend divisor, Part (.binary .divide token left right) tree →
    left.number? divide? env = some dividend → right.number? divide? env = some divisor →
    related dividend divisor

section
variable {related : Int → Int → Prop} {child : Tree}

theorem Divisions.below (h : tree.Divisions related divide? env) (member : child ∈ tree.children) :
    child.Divisions related divide? env :=
  fun token left right dividend divisor part =>
    h token left right dividend divisor (.under member part)

theorem DivisionFree.divisions (free : tree.DivisionFree) :
    tree.Divisions related divide? env :=
  fun token left right _ _ part => absurd part (free token left right)

end

/-- Divisions that agree on the operands in a tree make the same of it. -/
theorem number?_congr
    (same : tree.Divisions (fun left right => other? left right = divide? left right) divide? env) :
    tree.number? other? env = tree.number? divide? env := by
  induction tree using Tree.value.induct env with
  | case1 => rfl
  | case2 operator token left right ihLeft ihRight =>
    rw [number?, number?, ihLeft (same.below left_mem_children),
      ihRight (same.below right_mem_children)]
    refine Option.bind_congr fun leftNumber first => Option.bind_congr fun rightNumber second => ?_
    cases operator with
    | divide => exact same token left right _ _ (.whole _) first second
    | add | subtract | multiply => rfl
  | case3 sign token operand ih =>
    rw [number?, number?, ih (same.below operand_mem_children)]
  | case4 | case5 | case6 | case7 | case8 => rfl

theorem exists_number? (bound : tree.Bound env)
    (defined : tree.Divisions (fun left right => ∃ number, divide? left right = some number)
      divide? env) :
    ∃ number, tree.number? divide? env = some number := by
  induction bound with
  | literal value token => exact ⟨_, rfl⟩
  | @identifier token bound =>
    obtain ⟨value, bound⟩ := Option.isSome_iff_exists.mp bound
    exact ⟨value.toInt, by rw [number?, bound, Option.map_some]⟩
  | @unary sign token operand _ ih =>
    obtain ⟨number, inner⟩ := ih (defined.below operand_mem_children)
    exact ⟨sign.number number, by rw [number?, inner, Option.map_some]⟩
  | @binary operator token left right _ _ ihLeft ihRight =>
    obtain ⟨leftNumber, first⟩ := ihLeft (defined.below left_mem_children)
    obtain ⟨rightNumber, second⟩ := ihRight (defined.below right_mem_children)
    have applied : ∃ number, operator.number? divide? leftNumber rightNumber = some number := by
      cases operator with
      | divide => exact defined token left right _ _ (.whole _) first second
      | add | subtract | multiply => exact ⟨_, rfl⟩
    obtain ⟨number, applied⟩ := applied
    exact ⟨number, by rw [number?, first, second]; exact applied⟩

theorem value_of_number? (same : tree.number? residueQuotient? env = some number) :
    tree.value env = .ok (.ofInt number) := by
  have whole := toOption_value tree env
  rw [same] at whole
  cases has : tree.value env with
  | error fault =>
    rw [has] at whole
    cases whole
  | ok value =>
    rw [has] at whole
    cases whole
    rfl

theorem divisions_of_nonzero
    (nonzero : ∀ token left right, Part (.binary .divide token left right) tree →
      right.exactValue? env ≠ some 0) :
    tree.Divisions
      (fun dividend divisor => quotient? dividend divisor = some (dividend.tdiv divisor))
      quotient? env := by
  intro token left right dividend divisor part _ second
  have other : divisor ≠ 0 := fun zero => nonzero token left right part (zero ▸ second)
  exact if_neg other

/-- Where every part is in range, operands and quotients are their own residues. -/
theorem number?_of_inRange
    (defined : tree.Divisions
      (fun dividend divisor => quotient? dividend divisor = some (dividend.tdiv divisor))
      quotient? env)
    (ranged : ∀ part, Part part tree → ∀ exact ∈ part.exactValue? env, InRange exact) :
    tree.number? residueQuotient? env = tree.exactValue? env := by
  refine number?_congr fun token left right dividend divisor part first second => ?_
  have divides := defined token left right dividend divisor part first second
  -- The quotient is in range because the division is a part of the tree, like its operands.
  have whole : (Tree.binary .divide token left right).exactValue? env =
      some (dividend.tdiv divisor) := by
    rw [exactValue?, number?, first, second]
    exact divides
  have leftPart : Part left tree := .trans (.under left_mem_children (.whole left)) part
  have rightPart : Part right tree := .trans (.under right_mem_children (.whole right)) part
  show residueQuotient? dividend divisor = quotient? dividend divisor
  rw [residueQuotient?, residue_of_inRange (ranged left leftPart dividend first),
    residue_of_inRange (ranged right rightPart divisor second), divides, Option.map_some,
    residue_of_inRange (ranged _ part _ whole)]

end

/-- The value of an expression is the residue of what it is in integers if it has no divisions, and
is just that if no divisor is zero and every part is in range. It always is the residue of what the
expression is in integers whose divisions, and only those, are of residues. -/
theorem value_eq_residue (tree : Tree) (env : Environment) :
    (tree.Bound env → tree.DivisionFree →
      ∃ value exact, tree.value env = .ok value ∧ tree.exactValue? env = some exact ∧
        value.toInt = residue exact) ∧
    (tree.Bound env →
      (∀ token left right, Part (.binary .divide token left right) tree →
        right.exactValue? env ≠ some 0) →
      (∀ part, Part part tree → ∀ exact ∈ part.exactValue? env, InRange exact) →
      ∃ value, tree.value env = .ok value ∧ tree.exactValue? env = some value.toInt) ∧
    (tree.value env).toOption.map Int64.toInt =
      (tree.number? residueQuotient? env).map residue := by
  refine ⟨?_, ?_, ?_⟩
  · intro bound free
    obtain ⟨exact, whole⟩ : ∃ exact, tree.exactValue? env = some exact :=
      exists_number? bound free.divisions
    have same : tree.number? residueQuotient? env = tree.exactValue? env :=
      number?_congr free.divisions
    exact ⟨_, exact, value_of_number? (same.trans whole), whole, toInt_ofInt exact⟩
  · intro bound nonzero ranged
    have defined := divisions_of_nonzero nonzero
    obtain ⟨exact, whole⟩ : ∃ exact, tree.exactValue? env = some exact :=
      exists_number? bound fun token left right _ _ part first second =>
        ⟨_, defined token left right _ _ part first second⟩
    have same := number?_of_inRange defined ranged
    refine ⟨_, value_of_number? (same.trans whole), ?_⟩
    rw [toInt_ofInt, residue_of_inRange (ranged tree (.whole tree) exact whole), whole]
  · rw [toOption_value, Option.map_map]
    exact congrArg (Option.map · _) (funext toInt_ofInt)

/-- The square of the least number wraps around to zero. Its half is in range, and its quotient by
`-1` is not. -/
theorem value_eq_residue_of_least :
    ∃ product quotient : Tree, product.display = "(- x (* x x))" ∧ quotient.display = "(/ x y)" ∧
      product.exactValue? (Environment.empty.bind "x" (-2 ^ 63)) = some (-2 ^ 63 - 2 ^ 126) ∧
      (∃ value, product.value (Environment.empty.bind "x" (-2 ^ 63)) = .ok value ∧
        value.toInt = -2 ^ 63) ∧
      (∃ value, quotient.value ((Environment.empty.bind "x" (-2 ^ 63)).bind "y" 2) = .ok value ∧
        value.toInt = -2 ^ 62) ∧
      quotient.exactValue? ((Environment.empty.bind "x" (-2 ^ 63)).bind "y" (-1)) = some (2 ^ 63) ∧
      (quotient.value ((Environment.empty.bind "x" (-2 ^ 63)).bind "y" (-1))).toOption.map
        Int64.toInt = some (-2 ^ 63) := by
  refine ⟨.binary .subtract ⟨.minus, "-", ⟨2, 3⟩⟩ (.identifier ⟨.identifier, "x", ⟨0, 1⟩⟩)
      (.binary .multiply ⟨.star, "*", ⟨6, 7⟩⟩ (.identifier ⟨.identifier, "x", ⟨4, 5⟩⟩)
        (.identifier ⟨.identifier, "x", ⟨8, 9⟩⟩)),
    .binary .divide ⟨.slash, "/", ⟨2, 3⟩⟩ (.identifier ⟨.identifier, "x", ⟨0, 1⟩⟩)
      (.identifier ⟨.identifier, "y", ⟨4, 5⟩⟩),
    by decide +kernel, by decide +kernel, by decide +kernel, ?_, ?_, by decide +kernel, ?_⟩
  · generalize given : Tree.binary _ _ _ _ = tree
    have least : tree.exactValue? (Environment.empty.bind "x" (-2 ^ 63)) =
        some (-2 ^ 63 - 2 ^ 126) := by
      subst given
      decide +kernel
    have bound : tree.Bound (Environment.empty.bind "x" (-2 ^ 63)) := by
      subst given
      exact .binary _ _ (.identifier (by decide +kernel))
        (.binary _ _ (.identifier (by decide +kernel)) (.identifier (by decide +kernel)))
    obtain ⟨value, exact, has, whole, wraps⟩ := (value_eq_residue tree _).1 bound (by
      subst given
      simp [DivisionFree])
    cases least.symm.trans whole
    exact ⟨value, has, wraps.trans (by decide)⟩
  · generalize given : Tree.binary _ _ _ _ = tree
    have halved : tree.exactValue? ((Environment.empty.bind "x" (-2 ^ 63)).bind "y" 2) =
        some (-2 ^ 62) := by
      subst given
      decide +kernel
    have bound : tree.Bound ((Environment.empty.bind "x" (-2 ^ 63)).bind "y" 2) := by
      subst given
      exact .binary _ _ (.identifier (by decide +kernel)) (.identifier (by decide +kernel))
    obtain ⟨value, has, whole⟩ := (value_eq_residue tree _).2.1 bound
      (by
        intro token left right part
        subst given
        simp only [part_binary, part_identifier, reduceCtorEq, or_false] at part
        cases part
        decide +kernel)
      (by
        intro part inside
        subst given
        simp only [part_binary, part_identifier] at inside
        rcases inside with rfl | rfl | rfl
        · decide +kernel
        · decide +kernel
        · decide +kernel)
    exact ⟨value, has, Option.some.inj (whole.symm.trans halved)⟩
  · exact (value_eq_residue _ _).2.2.trans (by decide +kernel)

end Tree

end Calculator
