import Calculator.Proofs.Provenance

/-!
# What a failure blames and what it leaves

`Blames` lists the parts of an expression that a fault can be about. A statement that fails changes
nothing, see `execute_error`, and of a program that fails the statements in front of the failing one
have had their effect, and no other: `evaluate_error_unchanged` says so of texts.
-/

namespace Calculator

namespace Tree

/-! ### Expressions -/

/-- The faults that evaluating an expression can have, each with the part that it is about. -/
inductive Blames (tree : Tree) : Fault → Prop where
  | undefined {token : Token} (part : Part (.identifier token) tree) :
      Blames tree ⟨.undefinedVariable token.lexeme, token.span⟩
  | division {token : Token} {left right : Tree}
      (part : Part (.binary .divide token left right) tree) :
      Blames tree ⟨.divisionByZero, right.span⟩
  | misplaced {other : Tree} (part : Part other tree) (strange : ¬other.kind.IsExpression) :
      Blames tree (misplaced other)

theorem Blames.below {child tree : Tree} {fault : Fault} (h : Blames child fault)
    (member : child ∈ tree.children) : Blames tree fault := by
  cases h with
  | undefined part => exact .undefined (.under member part)
  | division part => exact .division (.under member part)
  | misplaced part strange => exact .misplaced (.under member part) strange

theorem operator_of_apply? {operator : Operator} {left right : Int64}
    (h : operator.apply? left right = none) : operator = .divide := by
  cases operator with
  | divide => rfl
  | add | subtract | multiply => cases h

section
variable {tree : Tree} {env after : Environment} {fault : Fault}

theorem blames_of_value (h : tree.value env = .error fault) : tree.Blames fault := by
  induction tree using Tree.value.induct env generalizing fault with
  | case1 => cases h
  | case2 operator token left right ihLeft ihRight =>
    rcases value_binary_error h with first | ⟨_, _, second | ⟨_, _, applied, rfl⟩⟩
    · exact (ihLeft first).below left_mem_children
    · exact (ihRight second).below right_mem_children
    · obtain rfl := operator_of_apply? applied
      exact .division (.whole _)
  | case3 sign token operand ih => exact (ih (value_unary_error h)).below operand_mem_children
  | case4 | case5 =>
    obtain ⟨_, rfl⟩ := value_identifier_error h
    exact .undefined (.whole _)
  | case6 | case7 | case8 =>
    cases h
    exact .misplaced (.whole _) (by simp [Kind.IsExpression, kind])

/-! ### Statements -/

/-- The faults that executing a statement can have. -/
inductive Refuses : Tree → Fault → Prop where
  | redeclared {name equals : Token} {expression : Tree} :
      Refuses (.declaration name equals expression) ⟨.variableRedeclared name.lexeme, name.span⟩
  | declaration {name equals : Token} {expression : Tree} {fault : Fault}
      (blames : expression.Blames fault) : Refuses (.declaration name equals expression) fault
  | undeclared {name equals : Token} {expression : Tree} :
      Refuses (.assignment name equals expression) ⟨.undefinedVariable name.lexeme, name.span⟩
  | assignment {name equals : Token} {expression : Tree} {fault : Fault}
      (blames : expression.Blames fault) : Refuses (.assignment name equals expression) fault
  | expression {tree : Tree} {fault : Fault} (root : tree.kind.IsExpression)
      (blames : tree.Blames fault) : Refuses tree fault
  | nested {statements : List Tree} {span : Span} :
      Refuses (.program statements span) (misplaced (.program statements span))

theorem refuses_of_fails (h : Fails env tree fault) : tree.Refuses fault := by
  cases h with
  | expression root lacks => exact .expression root (blames_of_value lacks)
  | redeclared => exact .redeclared
  | declaration _ lacks => exact .declaration (blames_of_value lacks)
  | undeclared => exact .undeclared
  | assignment _ lacks => exact .assignment (blames_of_value lacks)
  | nested => exact .nested

/-- A statement that fails leaves the environment as it is. -/
theorem execute_error (h : tree.execute env = .error fault after) :
    after = env ∧ tree.Refuses fault := by
  obtain ⟨same, fails⟩ := fails_of_execute h
  exact ⟨same, refuses_of_fails fails⟩

end

/-! ### Programs -/

/-- The statements have values one after the other, and lead from one environment to another. -/
inductive Runs : Environment → List Tree → Environment → Prop where
  | nil (env : Environment) : Runs env [] env
  | cons {env between after : Environment} {statement : Tree} {rest : List Tree} {value : Int64}
      (first : statement.execute env = .ok value between) (others : Runs between rest after) :
      Runs env (statement :: rest) after

section
variable {statement : Tree} {statements : List Tree} {env between after : Environment}
  {fault : Fault} {last result : Option Int64} {value : Int64}

theorem foldlM_of_ok (first : statement.execute env = .ok value between) :
    (statement :: statements).foldlM (fun _ tree => some <$> tree.execute) last env =
      statements.foldlM (fun _ tree => some <$> tree.execute) (some value) between := by
  rw [List.foldlM_cons]
  show EStateM.bind (EStateM.map some statement.execute) _ env = _
  unfold EStateM.bind EStateM.map
  rw [first]

theorem foldlM_of_error (first : statement.execute env = .error fault after) :
    (statement :: statements).foldlM (fun _ tree => some <$> tree.execute) last env =
      .error fault after := by
  rw [List.foldlM_cons]
  show EStateM.bind (EStateM.map some statement.execute) _ env = _
  unfold EStateM.bind EStateM.map
  rw [first]

/-- Statements fail at the first that fails, and leave what those in front of it have left. -/
theorem foldlM_error (h : statements.foldlM (fun _ tree => some <$> tree.execute) last env =
    .error fault after) :
    ∃ before failing behind, statements = before ++ failing :: behind ∧
      Runs env before after ∧ failing.execute after = .error fault after := by
  induction statements generalizing env last with
  | nil => cases h
  | cons statement rest ih =>
    cases first : statement.execute env with
    | error found final =>
      rw [foldlM_of_error first] at h
      cases h
      obtain ⟨rfl, _⟩ := execute_error first
      exact ⟨[], statement, rest, rfl, .nil _, first⟩
    | ok value between =>
      rw [foldlM_of_ok first] at h
      obtain ⟨before, failing, behind, rfl, ran, failed⟩ := ih h
      exact ⟨statement :: before, failing, behind, rfl, .cons first ran, failed⟩

/-- Once there is a value there always is one. -/
theorem foldlM_some (value : Int64) (env : Environment) :
    statements.foldlM (fun _ tree => some <$> tree.execute) (some value) env ≠ .ok none after := by
  induction statements generalizing value env with
  | nil =>
    intro h
    cases h
  | cons statement rest ih =>
    cases first : statement.execute env with
    | error found final =>
      rw [foldlM_of_error first]
      intro h
      cases h
    | ok value between =>
      rw [foldlM_of_ok first]
      exact ih value between

theorem foldlM_ok (h : statements.foldlM (fun _ tree => some <$> tree.execute) last env =
    .ok none after) : statements = [] := by
  cases statements with
  | nil => rfl
  | cons statement rest =>
    cases first : statement.execute env with
    | error found final =>
      rw [foldlM_of_error first] at h
      cases h
    | ok value between =>
      rw [foldlM_of_ok first] at h
      exact absurd h (foldlM_some value between)

theorem evaluate_program (statements : List Tree) (span : Span) (env : Environment) :
    (Tree.program statements span).evaluate env = match executeAll statements env with
      | .ok (some value) after => .ok value after
      | .ok none after => .error ⟨.emptyProgram, span⟩ after
      | .error fault after => .error fault after := by
  show EStateM.bind (executeAll statements) _ env = _
  unfold EStateM.bind
  cases executeAll statements env with
  | error fault after => rfl
  | ok result after =>
    cases result with
    | none => rfl
    | some value => rfl

/-- A program fails for want of statements, or at one of them: those in front of it have run, and it
fails in the environment that they leave. -/
theorem evaluate_program_error {span : Span}
    (h : (Tree.program statements span).evaluate env = .error fault after) :
    (statements = [] ∧ fault = ⟨.emptyProgram, span⟩ ∧ after = env) ∨
      ∃ before failing behind, statements = before ++ failing :: behind ∧
        Runs env before after ∧ failing.execute after = .error fault after := by
  rw [evaluate_program] at h
  cases ran : executeAll statements env with
  | error found final =>
    rw [ran] at h
    cases h
    exact .inr (foldlM_error ran)
  | ok result final =>
    rw [ran] at h
    cases result with
    | some value => cases h
    | none =>
      cases h
      obtain rfl := foldlM_ok ran
      cases ran
      exact .inl ⟨rfl, rfl, rfl⟩

end

end Tree

/-! ### The stage of a fault -/

theorem stage_of_blames {tree : Tree} {fault : Fault} (h : tree.Blames fault) :
    fault.cause.stage = .runtime := by
  cases h <;> rfl

theorem stage_of_refuses {tree : Tree} {fault : Fault} (h : tree.Refuses fault) :
    fault.cause.stage = .runtime := by
  cases h with
  | redeclared | undeclared | nested => rfl
  | declaration blames | assignment blames | expression _ blames => exact stage_of_blames blames

theorem stage_of_next {scanner after : Scanner} {fault : Fault}
    (h : scanner.next = .error fault after) : fault.cause.stage = .lexical := by
  have found := Scanner.finds_of_next h
  cases found <;> rfl

theorem stage_of_ofSource {mode : Mode} {source : String} {fault : Fault}
    (h : Tree.ofSource mode source = .error fault) :
    fault.cause.stage = .lexical ∨ fault.cause.stage = .grammar := by
  rcases Parser.ofSource_error h with ⟨_, _, _, _, failed⟩ | ⟨_, _, _, _, _, _, rfl⟩
  · exact .inl (stage_of_next failed)
  · exact .inr rfl

/-! ### Texts -/

section
variable {mode : Mode} {source : String} {env after : Environment} {fault : Fault}

theorem evaluate_of_error (h : Tree.ofSource mode source = .error fault) (env : Environment) :
    evaluate mode source env = .error fault env := by
  unfold evaluate
  rw [h]
  rfl

theorem evaluate_error_cases (h : evaluate mode source env = .error fault after) :
    (Tree.ofSource mode source = .error fault ∧ after = env) ∨
      ∃ tree, Tree.ofSource mode source = .ok tree ∧ tree.evaluate env = .error fault after := by
  cases read : Tree.ofSource mode source with
  | error found =>
    rw [evaluate_of_error read] at h
    cases h
    exact .inl ⟨rfl, rfl⟩
  | ok tree =>
    rw [evaluate_of_ok read] at h
    exact .inr ⟨tree, rfl, h⟩

theorem refuses_of_statement {tokens : List Token} {statement : Tree}
    (read : Grammar.Statement tokens statement)
    (h : statement.evaluate env = .error fault after) : after = env ∧ statement.Refuses fault := by
  rw [Tree.evaluate_of_statement read] at h
  exact Tree.execute_error h

theorem evaluate_statement_error (h : evaluate .statement source env = .error fault after) :
    after = env := by
  rcases evaluate_error_cases h with ⟨_, same⟩ | ⟨tree, read, h⟩
  · exact same
  · obtain ⟨_, _, _, ⟨_, statement⟩ | ⟨other, _⟩⟩ := Parser.read_of_ofSource read
    · exact (refuses_of_statement statement h).1
    · cases other

theorem evaluate_program_error
    (h : evaluate .program source env = .error fault after) :
    (Tree.ofSource .program source = .error fault ∧ after = env) ∨
      ∃ statements, Tree.ofSource .program source = .ok (.program statements ⟨0, source.length⟩) ∧
        ((statements = [] ∧ fault = ⟨.emptyProgram, ⟨0, source.length⟩⟩ ∧ after = env) ∨
          ∃ before failing behind, statements = before ++ failing :: behind ∧
            Tree.Runs env before after ∧ failing.execute after = .error fault after) := by
  rcases evaluate_error_cases h with failed | ⟨tree, read, h⟩
  · exact .inl failed
  · obtain ⟨_, _, _, ⟨other, _⟩ | ⟨_, trees, _, rfl⟩⟩ := Parser.read_of_ofSource read
    · cases other
    · exact .inr ⟨trees, read, Tree.evaluate_program_error h⟩

theorem stage_of_evaluate {tree : Tree} (h : tree.evaluate env = .error fault after)
    (read : Tree.ofSource mode source = .ok tree) : fault.cause.stage = .runtime := by
  obtain ⟨_, _, _, ⟨_, statement⟩ | ⟨_, trees, _, rfl⟩⟩ := Parser.read_of_ofSource read
  · exact stage_of_refuses (refuses_of_statement statement h).2
  · rcases Tree.evaluate_program_error h with ⟨_, rfl, _⟩ | ⟨_, _, _, _, _, failed⟩
    · rfl
    · exact stage_of_refuses (Tree.execute_error failed).2

/-- A text that fails before it is evaluated changes nothing, and neither does a statement that
fails. A program that fails when it is evaluated has no statement, and changes nothing, or it has
run up to the statement that fails. -/
theorem evaluate_error_unchanged (h : evaluate mode source env = .error fault after) :
    (fault.cause.stage ≠ .runtime → after = env) ∧
    (mode = .statement → after = env) ∧
    (mode = .program → fault.cause.stage = .runtime →
      ∃ statements, Tree.ofSource .program source = .ok (.program statements ⟨0, source.length⟩) ∧
        ((statements = [] ∧ fault = ⟨.emptyProgram, ⟨0, source.length⟩⟩ ∧ after = env) ∨
          ∃ before failing behind, statements = before ++ failing :: behind ∧
            Tree.Runs env before after ∧ failing.execute after = .error fault after)) := by
  refine ⟨?_, ?_, ?_⟩
  · intro early
    rcases evaluate_error_cases h with ⟨_, same⟩ | ⟨tree, read, h⟩
    · exact same
    · exact absurd (stage_of_evaluate h read) early
  · intro statement
    subst statement
    exact evaluate_statement_error h
  · intro program late
    subst program
    rcases evaluate_program_error h with ⟨unread, _⟩ | failed
    · rcases stage_of_ofSource unread with stage | stage
      · cases late.symm.trans stage
      · cases late.symm.trans stage
    · exact failed

instance decidableEqResult : DecidableEq (EStateM.Result Fault Environment Int64)
  | .ok value after, .ok value' after' =>
    decidable_of_iff (value = value' ∧ after = after') (by simp)
  | .error fault after, .error fault' after' =>
    decidable_of_iff (fault = fault' ∧ after = after') (by simp)
  | .ok _ _, .error _ _ | .error _ _, .ok _ _ => .isFalse (by simp)

/-- The first two statements have run, the third has failed, and the last has not been looked at. -/
theorem evaluate_error_unchanged_midway :
    evaluate .program "var a = 1; a = 2; b; a = 3" .empty =
        .error ⟨.undefinedVariable "b", ⟨18, 19⟩⟩ (Environment.empty.bind "a" 2) ∧
      ∃ statements, Tree.ofSource .program "var a = 1; a = 2; b; a = 3" =
          .ok (.program statements ⟨0, 26⟩) ∧
        ∃ before failing behind, statements = before ++ failing :: behind ∧
          Tree.Runs .empty before (Environment.empty.bind "a" 2) ∧
          failing.execute (Environment.empty.bind "a" 2) =
            .error ⟨.undefinedVariable "b", ⟨18, 19⟩⟩ (Environment.empty.bind "a" 2) := by
  have ran : evaluate .program "var a = 1; a = 2; b; a = 3" .empty =
      .error ⟨.undefinedVariable "b", ⟨18, 19⟩⟩ (Environment.empty.bind "a" 2) := by
    decide +kernel
  obtain ⟨statements, read, ⟨_, other, _⟩ | failed⟩ := (evaluate_error_unchanged ran).2.2 rfl rfl
  · cases other
  · exact ⟨ran, statements, read, failed⟩

/-- A program may fail without a statement that fails. -/
theorem not_forall_failing_statement :
    ¬∀ (source : String) (env after : Environment) (fault : Fault),
      evaluate .program source env = .error fault after → fault.cause.stage = .runtime →
      ∃ statements span, Tree.ofSource .program source = .ok (.program statements span) ∧
        ∃ before failing behind, statements = before ++ failing :: behind ∧
          Tree.Runs env before after ∧ failing.execute after = .error fault after := by
  intro fails
  have ran : evaluate .program "" .empty = .error ⟨.emptyProgram, ⟨0, 0⟩⟩ .empty := rfl
  obtain ⟨statements, span, read, _, failing, _, same, _⟩ := fails _ _ _ _ ran rfl
  have none : Tree.ofSource .program "" = .ok (.program [] ⟨0, 0⟩) := rfl
  cases read.symm.trans none
  simp at same

end

end Calculator
