import Calculator.Proofs.Ledger
import Calculator.Tree.Display

/-!
# Frames

A run changes the values of no names but those its tree mentions, see `frame_evaluate`, and depends
on the values of no others, see `alike_evaluate`. So trees that have no name in common can be
evaluated in either order: `evaluate_apart`.
-/

namespace Calculator

namespace Tree

/-- The name that the root of a tree reads, declares or assigns. -/
def name? : Tree → Option String
  | .identifier token => some token.lexeme
  | .declaration name _ _ | .assignment name _ _ => some name.lexeme
  | .program _ _ | .literal _ _ | .binary _ _ _ _ | .unary _ _ _ => none

/-- Somewhere in the tree the name is read, declared or assigned. -/
def Mentions (tree : Tree) (name : String) : Prop :=
  ∃ part, Part part tree ∧ part.name? = some name

/-- The names that the tree mentions have the same values, or none, in both environments. -/
def Agree (tree : Tree) (left right : Environment) : Prop :=
  ∀ name, tree.Mentions name → left.get? name = right.get? name

section
variable {tree child statement : Tree} {name : String} {left right : Environment}

theorem mentions_of_root (h : tree.name? = some name) : tree.Mentions name :=
  ⟨tree, .whole tree, h⟩

theorem Mentions.above (h : child.Mentions name) (member : child ∈ tree.children) :
    tree.Mentions name := by
  obtain ⟨part, inside, root⟩ := h
  exact ⟨part, .under member inside, root⟩

theorem mentions_iff : tree.Mentions name ↔
    tree.name? = some name ∨ ∃ child ∈ tree.children, child.Mentions name := by
  constructor
  · rintro ⟨part, inside, root⟩
    rcases part_iff.mp inside with rfl | ⟨child, member, below⟩
    · exact .inl root
    · exact .inr ⟨child, member, part, below, root⟩
  · rintro (root | ⟨child, member, mentions⟩)
    · exact mentions_of_root root
    · exact mentions.above member

theorem Mentions.of_statement (h : statement.Mentions name) (member : statement ∈ tree.statements) :
    tree.Mentions name := by
  cases tree with
  | program statements span => exact h.above member
  | _ =>
    obtain rfl := List.mem_singleton.mp member
    exact h

theorem Agree.below (agree : tree.Agree left right) (member : child ∈ tree.children) :
    child.Agree left right :=
  fun name mentions => agree name (mentions.above member)

theorem Agree.binds (agree : tree.Agree left right) (root : tree.name? = some name) :
    left.binds name = right.binds name := by
  rw [Environment.binds, Environment.binds, agree name (mentions_of_root root)]

end

section
variable {statements : List Tree} {span : Span} {value : Int64} {operator : Operator} {sign : Sign}
  {token equals : Token} {left right : Tree} {name : String}

@[simp]
theorem mentions_program : (Tree.program statements span).Mentions name ↔
    ∃ statement ∈ statements, statement.Mentions name := by
  rw [mentions_iff]
  simp [name?, children]

@[simp]
theorem not_mentions_literal : ¬(Tree.literal value token).Mentions name := by
  rw [mentions_iff]
  simp [name?, children]

@[simp]
theorem mentions_identifier : (Tree.identifier token).Mentions name ↔ token.lexeme = name := by
  rw [mentions_iff]
  simp [name?, children]

@[simp]
theorem mentions_unary : (Tree.unary sign token left).Mentions name ↔ left.Mentions name := by
  rw [mentions_iff]
  simp [name?, children]

@[simp]
theorem mentions_binary : (Tree.binary operator token left right).Mentions name ↔
    left.Mentions name ∨ right.Mentions name := by
  rw [mentions_iff]
  simp [name?, children]

@[simp]
theorem mentions_declaration : (Tree.declaration token equals left).Mentions name ↔
    token.lexeme = name ∨ left.Mentions name := by
  rw [mentions_iff]
  simp [name?, children]

@[simp]
theorem mentions_assignment : (Tree.assignment token equals left).Mentions name ↔
    token.lexeme = name ∨ left.Mentions name := by
  rw [mentions_iff]
  simp [name?, children]

end

end Tree

/-! ### What a run depends on -/

/-- The value of a run, or why it has none. -/
def answerOf {α : Type} : EStateM.Result Fault Environment α → Except Fault α
  | .ok value _ => .ok value
  | .error fault _ => .error fault

/-- Two runs have the same answer, and a name that has the same value, or none, where they start
from has so where they end. -/
inductive Alike {α : Type} (left right : Environment) :
    EStateM.Result Fault Environment α → EStateM.Result Fault Environment α → Prop where
  | ok {value : α} {after other : Environment}
      (kept : ∀ name, left.get? name = right.get? name → after.get? name = other.get? name) :
      Alike left right (.ok value after) (.ok value other)
  | error {fault : Fault} {after other : Environment}
      (kept : ∀ name, left.get? name = right.get? name → after.get? name = other.get? name) :
      Alike left right (.error fault after) (.error fault other)

section
variable {α : Type} {left right after other : Environment}
  {run run' : EStateM.Result Fault Environment α}

theorem Alike.answer (h : Alike left right run run') : answerOf run = answerOf run' := by
  cases h <;> rfl

theorem Alike.kept (h : Alike left right run run') {name : String}
    (same : left.get? name = right.get? name) :
    (leftBy run).get? name = (leftBy run').get? name := by
  cases h with
  | ok kept | error kept => exact kept name same

theorem Alike.behind (h : Alike after other run run')
    (kept : ∀ name, left.get? name = right.get? name → after.get? name = other.get? name) :
    Alike left right run run' := by
  cases h with
  | ok later => exact .ok fun name same => later name (kept name same)
  | error later => exact .error fun name same => later name (kept name same)

end

namespace Tree

section
variable {tree statement : Tree} {statements : List Tree} {left right env after : Environment}
  {value : Int64} {fault : Fault} {name : String}

theorem value_agree (agree : tree.Agree left right) : tree.value left = tree.value right := by
  induction tree using Tree.value.induct left with
  | case2 operator token first second ihFirst ihSecond =>
    rw [value_binary, value_binary, ihFirst (agree.below left_mem_children),
      ihSecond (agree.below right_mem_children)]
  | case3 sign token operand ih =>
    rw [value_unary, value_unary, ih (agree.below operand_mem_children)]
  | case4 token | case5 token =>
    rw [Tree.value, Tree.value, agree token.lexeme (mentions_of_root rfl)]
  | case1 | case6 | case7 | case8 => rfl

theorem alike_store (agree : tree.Agree left right) (token : Token) :
    Alike left right (store token tree left) (store token tree right) := by
  rw [store_eq, store_eq, value_agree agree]
  cases tree.value right with
  | error fault => exact .error fun _ same => same
  | ok value =>
    refine .ok fun name same => ?_
    rw [Environment.get?_bind, Environment.get?_bind, same]

/-- A statement does the same where its names have the same values. -/
theorem alike_execute (agree : statement.Agree left right) :
    Alike left right (statement.execute left) (statement.execute right) := by
  rcases isExpression_or statement with root | ⟨_, _, rfl⟩ | ⟨name, equals, inner, rfl⟩ |
    ⟨name, equals, inner, rfl⟩
  · rw [execute_expression root, execute_expression root, value_agree agree]
    cases statement.value right with
    | ok value => exact .ok fun _ same => same
    | error fault => exact .error fun _ same => same
  · exact .error fun _ same => same
  · rw [execute_declaration, execute_declaration, agree.binds rfl]
    split
    · exact .error fun _ same => same
    · exact alike_store (agree.below List.mem_cons_self) name
  · rw [execute_assignment, execute_assignment, agree.binds rfl]
    split
    · exact alike_store (agree.below List.mem_cons_self) name
    · exact .error fun _ same => same

/-- Statements in order do the same where the names of all of them have the same values. -/
theorem alike_foldlM (agree : ∀ statement ∈ statements, statement.Agree left right)
    (last : Option Int64) :
    Alike left right (statements.foldlM (fun _ tree => some <$> tree.execute) last left)
      (statements.foldlM (fun _ tree => some <$> tree.execute) last right) := by
  induction statements generalizing left right last with
  | nil => exact .ok fun _ same => same
  | cons statement rest ih =>
    obtain ⟨first, others⟩ := List.forall_mem_cons.mp agree
    have alike := alike_execute first
    generalize ran : statement.execute left = run at alike
    generalize ran' : statement.execute right = run' at alike
    cases alike with
    | error kept =>
      rw [foldlM_of_error ran, foldlM_of_error ran']
      exact .error kept
    | ok kept =>
      rw [foldlM_of_ok ran, foldlM_of_ok ran']
      -- Behind the statement the environments still agree on the names of the others.
      exact (ih (fun other member name mentions => kept name (others other member name mentions))
        (some _)).behind kept

/-- A tree does the same where its names have the same values. -/
theorem alike_evaluate (agree : tree.Agree left right) :
    Alike left right (tree.evaluate left) (tree.evaluate right) := by
  rcases program_or_kind tree with ⟨statements, span, rfl⟩ | root
  · have all : Alike left right (executeAll statements left) (executeAll statements right) :=
      alike_foldlM (fun _ member => agree.below member) none
    rw [evaluate_program, evaluate_program]
    generalize executeAll statements left = run at all ⊢
    generalize executeAll statements right = run' at all ⊢
    cases all with
    | error kept => exact .error kept
    | @ok result _ _ kept =>
      cases result with
      | none => exact .error kept
      | some value => exact .ok kept
  · rw [evaluate_of_kind root]
    exact alike_execute agree

/-! ### What a run changes -/

theorem frame_execute (absent : ¬statement.Mentions name) (env : Environment) :
    (leftBy (statement.execute env)).get? name = env.get? name := by
  rcases succeeds_or_fails statement env with ⟨value, after, succeeds⟩ | ⟨fault, fails⟩
  · rw [succeeds.execute]
    cases succeeds with
    | expression => rfl
    | declaration | assignment =>
      refine Environment.get?_bind_of_ne env value ?_
      rintro rfl
      exact absent (mentions_of_root rfl)
  · rw [fails.execute]
    rfl

theorem frame_linked {list : List (Environment × Tree)} (h : Linked env list after)
    (absent : ∀ entry ∈ list, ¬entry.2.Mentions name) : after.get? name = env.get? name := by
  induction h with
  | nil => rfl
  | @cons env _ statement _ _ ih =>
    obtain ⟨first, others⟩ := List.forall_mem_cons.mp absent
    rw [ih others, frame_execute first]

/-- A tree changes no names but those it mentions. -/
theorem frame_evaluate (absent : ¬tree.Mentions name) (env : Environment) :
    (leftBy (tree.evaluate env)).get? name = env.get? name := by
  refine frame_linked (linked_evaluate tree env) ?_
  rintro ⟨_, statement⟩ member mentions
  exact absent (mentions.of_statement (Ledger.mem_of_mem_executions member))

end

/-! ### Trees without a name in common -/

section
variable {first second : Tree}

theorem apart_symm (apart : ∀ name, first.Mentions name → ¬second.Mentions name) :
    ∀ name, second.Mentions name → ¬first.Mentions name :=
  fun name mentions mentioned => apart name mentioned mentions

/-- What a tree does is the same behind another that mentions none of its names. -/
theorem alike_behind (apart : ∀ name, first.Mentions name → ¬second.Mentions name)
    (env : Environment) :
    Alike env (leftBy (second.evaluate env)) (first.evaluate env)
      (first.evaluate (leftBy (second.evaluate env))) :=
  alike_evaluate fun name mentions => (frame_evaluate (apart name mentions) env).symm

theorem leftBy_comm (apart : ∀ name, first.Mentions name → ¬second.Mentions name)
    (env : Environment) :
    leftBy (second.evaluate (leftBy (first.evaluate env))) =
      leftBy (first.evaluate (leftBy (second.evaluate env))) := by
  apply Environment.ext_get?
  intro name
  -- Of a name at least one of the trees says nothing; the other decides its value in both orders.
  by_cases mentioned : first.Mentions name
  · have absent := apart name mentioned
    rw [frame_evaluate absent]
    exact (alike_behind apart env).kept (frame_evaluate absent env).symm
  · rw [frame_evaluate mentioned]
    exact ((alike_behind (apart_symm apart) env).kept (frame_evaluate mentioned env).symm).symm

end

/-- Trees that mention no name in common have the same answers and leave the same environment in
either order. A tree leaves all names that it does not mention as they are, and its answer is the
same wherever the names that it mentions have the same values. -/
theorem evaluate_apart (tree : Tree) (env : Environment) :
    (∀ other : Tree, (∀ name, tree.Mentions name → ¬other.Mentions name) →
      answerOf (tree.evaluate env) = answerOf (tree.evaluate (leftBy (other.evaluate env))) ∧
      answerOf (other.evaluate (leftBy (tree.evaluate env))) = answerOf (other.evaluate env) ∧
      leftBy (other.evaluate (leftBy (tree.evaluate env))) =
        leftBy (tree.evaluate (leftBy (other.evaluate env)))) ∧
    (∀ name, ¬tree.Mentions name → (leftBy (tree.evaluate env)).get? name = env.get? name) ∧
    (∀ other : Environment, (∀ name, tree.Mentions name → env.get? name = other.get? name) →
      answerOf (tree.evaluate env) = answerOf (tree.evaluate other)) := by
  refine ⟨?_, fun name absent => frame_evaluate absent env,
    fun other agree => (alike_evaluate agree).answer⟩
  intro other apart
  exact ⟨(alike_behind apart env).answer, (alike_behind (apart_symm apart) env).answer.symm,
    leftBy_comm apart env⟩

/-- The second tree fails halfway, in either order. -/
theorem evaluate_apart_of_failure :
    ∃ first second : Tree,
      first.display = "(var a 1); (= a (+ a b))" ∧ second.display = "(= c 7); (= c (/ 1 0))" ∧
      (∀ name, first.Mentions name → ¬second.Mentions name) ∧
      leftBy (second.evaluate (leftBy (first.evaluate
        ((Environment.empty.bind "b" 2).bind "c" 3)))) =
        ((Environment.empty.bind "a" 3).bind "b" 2).bind "c" 7 ∧
      leftBy (first.evaluate (leftBy (second.evaluate
        ((Environment.empty.bind "b" 2).bind "c" 3)))) =
        ((Environment.empty.bind "a" 3).bind "b" 2).bind "c" 7 := by
  generalize firstTree : Tree.program
    [.declaration ⟨.identifier, "a", ⟨4, 5⟩⟩ ⟨.equal, "=", ⟨6, 7⟩⟩
      (.literal 1 ⟨.integer, "1", ⟨8, 9⟩⟩),
    .assignment ⟨.identifier, "a", ⟨11, 12⟩⟩ ⟨.equal, "=", ⟨13, 14⟩⟩
      (.binary .add ⟨.plus, "+", ⟨17, 18⟩⟩ (.identifier ⟨.identifier, "a", ⟨15, 16⟩⟩)
        (.identifier ⟨.identifier, "b", ⟨19, 20⟩⟩))] ⟨0, 20⟩ = first
  generalize secondTree : Tree.program
    [.assignment ⟨.identifier, "c", ⟨0, 1⟩⟩ ⟨.equal, "=", ⟨2, 3⟩⟩
      (.literal 7 ⟨.integer, "7", ⟨4, 5⟩⟩),
    .assignment ⟨.identifier, "c", ⟨7, 8⟩⟩ ⟨.equal, "=", ⟨9, 10⟩⟩
      (.binary .divide ⟨.slash, "/", ⟨13, 14⟩⟩ (.literal 1 ⟨.integer, "1", ⟨11, 12⟩⟩)
        (.literal 0 ⟨.integer, "0", ⟨15, 16⟩⟩))] ⟨0, 16⟩ = second
  have apart : ∀ name, first.Mentions name → ¬second.Mentions name := by
    intro name mentions mentioned
    subst firstTree secondTree
    obtain rfl : "c" = name := by simpa using mentioned
    simp at mentions
  have left : leftBy (second.evaluate (leftBy (first.evaluate
      ((Environment.empty.bind "b" 2).bind "c" 3)))) =
        ((Environment.empty.bind "a" 3).bind "b" 2).bind "c" 7 := by
    subst firstTree secondTree
    decide +kernel
  obtain ⟨_, _, same⟩ :=
    (evaluate_apart first ((Environment.empty.bind "b" 2).bind "c" 3)).1 second apart
  refine ⟨first, second, ?_, ?_, apart, left, same.symm.trans left⟩
  · subst firstTree
    decide +kernel
  · subst secondTree
    decide +kernel

end Tree

end Calculator
