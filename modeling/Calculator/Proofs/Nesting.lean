import Calculator.Proofs.Ledger
import Calculator.Proofs.Recovery

/-!
# The spans of trees

The spans at a node of a tree that was read are a row: each part has characters, stands behind the
one in front of it and inside the whole, see `rows_of_statement`. The trees of calls one after the
other are such a row too, whatever calls between them fail: `nested_of_calls`.
-/

namespace Calculator

namespace Span

/-- Stretches of a text, one behind the other from one offset to another. Each has characters, and
none begins in front of the end of the one before it. -/
def Row (low high : Nat) : List Span → Prop
  | [] => low ≤ high
  | span :: spans => low ≤ span.start ∧ span.start < span.stop ∧ Row span.stop high spans

section
variable {low high lower higher : Nat} {span : Span} {spans more : List Span}

theorem Row.le (h : Row low high spans) : low ≤ high := by
  induction spans generalizing low with
  | nil => exact h
  | cons span spans ih =>
    obtain ⟨starts, some, rest⟩ := h
    have := ih rest
    omega

theorem Row.widen (h : Row low high spans) (below : lower ≤ low) (above : high ≤ higher) :
    Row lower higher spans := by
  induction spans generalizing low lower with
  | nil => exact Nat.le_trans (Nat.le_trans below h) above
  | cons span spans ih =>
    obtain ⟨starts, some, rest⟩ := h
    exact ⟨Nat.le_trans below starts, some, ih rest (Nat.le_refl _)⟩

theorem row_append_iff : Row low high (spans ++ more) ↔
    ∃ middle, Row low middle spans ∧ Row middle high more := by
  induction spans generalizing low with
  | nil =>
    constructor
    · intro h
      exact ⟨low, Nat.le_refl _, h⟩
    · rintro ⟨middle, below, h⟩
      exact h.widen below (Nat.le_refl _)
  | cons span spans ih =>
    rw [List.cons_append, Row, ih]
    constructor
    · rintro ⟨starts, some, middle, first, second⟩
      exact ⟨middle, ⟨starts, some, first⟩, second⟩
    · rintro ⟨middle, ⟨starts, some, first⟩, second⟩
      exact ⟨starts, some, middle, first, second⟩

theorem row_singleton_iff :
    Row low high [span] ↔ low ≤ span.start ∧ span.start < span.stop ∧ span.stop ≤ high :=
  Iff.rfl

theorem Row.inside (h : Row low high spans) :
    ∀ span ∈ spans, low ≤ span.start ∧ span.start < span.stop ∧ span.stop ≤ high := by
  induction spans generalizing low with
  | nil => simp
  | cons span spans ih =>
    obtain ⟨starts, some, rest⟩ := h
    refine List.forall_mem_cons.mpr ⟨⟨starts, some, rest.le⟩, ?_⟩
    intro other member
    have := ih rest other member
    omega

theorem Row.apart (h : Row low high spans) : spans.Pairwise fun a b => a.stop ≤ b.start := by
  induction spans generalizing low with
  | nil => exact .nil
  | cons span spans ih =>
    obtain ⟨_, _, rest⟩ := h
    exact List.pairwise_cons.mpr ⟨fun other member => (rest.inside other member).1, ih rest⟩

end

end Span

open Calculator.Span

/-! ### Nodes -/

namespace Tree

/-- The spans of what a node is made of, in the order of the text. -/
def places : Tree → List Span
  | .program statements _ => statements.map Tree.span
  | .literal _ token | .identifier token => [token.span]
  | .binary _ token left right => [left.span, token.span, right.span]
  | .unary _ token operand => [token.span, operand.span]
  | .declaration name equals value | .assignment name equals value =>
    [name.span, equals.span, value.span]

/-- How the spans at a node lie in a text of `length` characters. -/
structure Nested (length : Nat) (node : Tree) : Prop where
  some : node.kind ≠ .program → node.span.start < node.span.stop ∧ node.span.stop ≤ length
  inside : ∀ child ∈ node.children,
    node.span.start ≤ child.span.start ∧ child.span.stop ≤ node.span.stop
  apart : node.places.Pairwise fun a b => a.stop ≤ b.start

/-- At every node the spans are a row from one end of the node to the other. -/
def Rows (tree : Tree) : Prop :=
  ∀ node, Part node tree → Row node.span.start node.span.stop node.places

section
variable {tree node child : Tree}

theorem rows_of_children (root : Row tree.span.start tree.span.stop tree.places)
    (below : ∀ child ∈ tree.children, child.Rows) : tree.Rows := by
  intro node part
  rcases part_iff.mp part with rfl | ⟨child, member, part⟩
  · exact root
  · exact below child member node part

theorem span_mem_places (member : child ∈ node.children) : child.span ∈ node.places := by
  cases node with
  | program statements span => exact List.mem_map_of_mem member
  | literal | identifier => cases member
  | unary | declaration | assignment =>
    obtain rfl := List.mem_singleton.mp member
    simp [places]
  | binary operator token left right =>
    simp only [children, List.mem_cons, List.not_mem_nil, or_false] at member
    rcases member with rfl | rfl
    · simp [places]
    · simp [places]

theorem places_ne_nil (kind : node.kind ≠ .program) : node.places ≠ [] := by
  cases node with
  | program => exact absurd rfl kind
  | _ => simp [places]

theorem Rows.stop_le (rows : tree.Rows) (part : Part node tree) :
    node.span.stop ≤ tree.span.stop := by
  induction part with
  | whole => exact Nat.le_refl _
  | @under _ tree member _ ih =>
    have root := rows _ (.whole _)
    have inner := ih fun node part => rows node (.under member part)
    have outer := (root.inside _ (span_mem_places member)).2.2
    omega

theorem Rows.nested {length : Nat} (rows : tree.Rows) (within : tree.span.stop ≤ length)
    (part : Part node tree) : node.Nested length where
  some kind := by
    obtain ⟨place, member⟩ := List.exists_mem_of_ne_nil _ (places_ne_nil kind)
    have bounds := (rows node part).inside place member
    have inner := rows.stop_le part
    omega
  inside child member := by
    have bounds := (rows node part).inside _ (span_mem_places member)
    exact ⟨bounds.1, bounds.2.2⟩
  apart := (rows node part).apart

end

end Tree

/-! ### Trees of the grammar -/

namespace Grammar

section
variable {category : Category} {tokens : List Token} {tree : Tree} {low high : Nat}

theorem rows_of_derives (h : Derives category tokens tree)
    (row : Row low high (tokens.map Token.span)) : Row low high [tree.span] ∧ tree.Rows := by
  induction h generalizing low high with
  | literal | name =>
    have root := row_singleton_iff.mpr ⟨Nat.le_refl _, row.2.1, Nat.le_refl _⟩
    exact ⟨row, Tree.rows_of_children root (by simp [Tree.children])⟩
  | group _ _ _ ih =>
    -- The parentheses are no part of the tree, so it covers less than its tokens do.
    obtain ⟨opens, _, row⟩ := row
    rw [List.map_append, row_append_iff] at row
    obtain ⟨middle, row, closes⟩ := row
    obtain ⟨inner, rows⟩ := ih row
    exact ⟨inner.widen (by omega) closes.le, rows⟩
  | @signed token sign _ operand _ _ ih =>
    obtain ⟨starts, some, row⟩ := row
    obtain ⟨inner, rows⟩ := ih row
    obtain ⟨behind, inside, stops⟩ := inner
    have root : Row token.span.start operand.span.stop [token.span, operand.span] :=
      ⟨Nat.le_refl _, some, behind, inside, Nat.le_refl _⟩
    refine ⟨⟨starts, ?_, stops⟩, Tree.rows_of_children root (List.forall_mem_singleton.mpr rows)⟩
    show token.span.start < operand.span.stop
    omega
  | single _ ih => exact ih row
  | @pair level token operator _ _ left right _ _ _ ihLeft ihRight =>
    rw [List.map_append, row_append_iff] at row
    obtain ⟨middle, row, between, some, row'⟩ := row
    obtain ⟨first, rowsLeft⟩ := ihLeft row
    obtain ⟨second, rowsRight⟩ := ihRight row'
    obtain ⟨starts, insideLeft, stopsLeft⟩ := row_singleton_iff.mp first
    obtain ⟨startsRight, insideRight, stops⟩ := row_singleton_iff.mp second
    have root : Row left.span.start right.span.stop [left.span, token.span, right.span] :=
      ⟨Nat.le_refl _, insideLeft, Nat.le_trans stopsLeft between, some, startsRight, insideRight,
        Nat.le_refl _⟩
    refine ⟨⟨starts, ?_, stops⟩, Tree.rows_of_children root ?_⟩
    · show left.span.start < right.span.stop
      omega
    · exact List.forall_mem_cons.mpr ⟨rowsLeft, List.forall_mem_singleton.mpr rowsRight⟩

theorem row_of_binding {name equals : Token} {value : Tree}
    (h : Derives category tokens value)
    (row : Row low high ((name :: equals :: tokens).map Token.span)) :
    low ≤ name.span.start ∧ name.span.start < value.span.stop ∧ value.span.stop ≤ high ∧
      Row name.span.start value.span.stop [name.span, equals.span, value.span] ∧ value.Rows := by
  obtain ⟨starts, some, behind, someEquals, row⟩ := row
  obtain ⟨⟨behindEquals, inside, stops⟩, rows⟩ := rows_of_derives h row
  exact ⟨starts, by omega, stops,
    ⟨Nat.le_refl _, some, behind, someEquals, behindEquals, inside, Nat.le_refl _⟩, rows⟩

theorem rows_of_statement (h : Statement tokens tree)
    (row : Row low high (tokens.map Token.span)) : Row low high [tree.span] ∧ tree.Rows := by
  cases h with
  | declaration _ _ _ _ inner =>
    obtain ⟨keyword, someKeyword, row⟩ := row
    obtain ⟨starts, some, stops, root, rows⟩ := row_of_binding inner row
    have above := Nat.le_trans keyword (Nat.le_trans (Nat.le_of_lt someKeyword) starts)
    exact ⟨⟨above, some, stops⟩,
      Tree.rows_of_children root (List.forall_mem_singleton.mpr rows)⟩
  | assignment _ _ inner =>
    obtain ⟨starts, some, stops, root, rows⟩ := row_of_binding inner row
    exact ⟨⟨starts, some, stops⟩,
      Tree.rows_of_children root (List.forall_mem_singleton.mpr rows)⟩
  | expression inner => exact rows_of_derives inner row

theorem rows_of_sequence {trees : List Tree} (h : Sequence tokens trees)
    (row : Row low high (tokens.map Token.span)) :
    Row low high (trees.map Tree.span) ∧ ∀ tree ∈ trees, tree.Rows := by
  induction h generalizing low with
  | last statement =>
    obtain ⟨whole, rows⟩ := rows_of_statement statement row
    exact ⟨whole, List.forall_mem_singleton.mpr rows⟩
  | more statement _ _ ih =>
    rw [List.map_append, row_append_iff] at row
    obtain ⟨middle, row, starts, some, others⟩ := row
    obtain ⟨first, rows⟩ := rows_of_statement statement row
    obtain ⟨behind, more⟩ := ih others
    refine ⟨?_, List.forall_mem_cons.mpr ⟨rows, more⟩⟩
    rw [List.map_cons, ← List.singleton_append, row_append_iff]
    exact ⟨middle, first, behind.widen (by omega) (Nat.le_refl _)⟩

theorem sequence_of_program {final : Token} {trees : List Tree}
    (h : Program (tokens ++ [final]) trees) :
    trees = [] ∨ ∃ before behind, tokens = before ++ behind ∧ Sequence before trees := by
  generalize whole : tokens ++ [final] = all at h
  cases h with
  | empty => exact .inl rfl
  | closed sequence =>
    obtain ⟨rfl, _⟩ := List.append_inj' whole rfl
    exact .inr ⟨tokens, [], (List.append_nil _).symm, sequence⟩
  | @terminated separator last before _ sequence =>
    have split : before ++ [separator, last] = before ++ [separator] ++ [last] := by simp
    rw [split] at whole
    obtain ⟨rfl, _⟩ := List.append_inj' whole rfl
    exact .inr ⟨before, [separator], rfl, sequence⟩

theorem rows_of_program {final : Token} {trees : List Tree}
    (h : Program (tokens ++ [final]) trees) (row : Row low high (tokens.map Token.span)) :
    Row low high (trees.map Tree.span) ∧ ∀ tree ∈ trees, tree.Rows := by
  rcases sequence_of_program h with rfl | ⟨before, behind, rfl, sequence⟩
  · exact ⟨row.le, by simp⟩
  · rw [List.map_append, row_append_iff] at row
    obtain ⟨middle, row, more⟩ := row
    obtain ⟨statements, rows⟩ := rows_of_sequence sequence row
    exact ⟨statements.widen (Nat.le_refl _) more.le, rows⟩

end

end Grammar

/-! ### Calls -/

namespace Parser

section
variable {source : String} {parser after : Parser} {mode : Mode} {taken : List Token}
  {result : Tree}

theorem Settled.row (h : parser.Settled source) (consumes : parser.Consumes taken after)
    (more : ∀ token ∈ taken, token.kind ≠ .endOfInput) :
    Row parser.current.span.start after.current.span.start (taken.map Token.span) := by
  induction taken generalizing parser with
  | nil =>
    obtain rfl := consumes_nil_iff.mp consumes
    exact Nat.le_refl _
  | cons token taken ih =>
    obtain rfl := ahead_cons.mp (consumes.ahead (ahead_nil _))
    obtain ⟨first, others⟩ := List.forall_mem_cons.mp more
    obtain ⟨next, scanner, scanned, consumes⟩ := consumes.uncons
    have row := ih (kept_settled.pulled h scanned) consumes others
    have behind := (h.before_next scanned).1 first
    exact ⟨Nat.le_refl _, (h.more first).1, row.widen behind (Nat.le_refl _)⟩

theorem Settled.start_le_length (h : parser.Settled source) :
    parser.current.span.start ≤ source.length := by
  by_cases ends : parser.current.kind = .endOfInput
  · rw [(h.ends ends).1]
    exact Nat.le_refl _
  · have place := h.more ends
    have inside := Scanner.extent_of_stands h.stands
    rw [Scanner.extent, String.length_toList] at inside
    omega

theorem rows_of_tree (reachable : Reachable source parser)
    (h : tree mode parser = .ok result after) :
    Row parser.current.span.start after.current.span.start (result.statements.map Tree.span) ∧
      result.Rows ∧ result.span.stop ≤ source.length := by
  have settled := reachable.settled
  have within := (Reachable.read reachable h).settled.start_le_length
  cases mode with
  | statement =>
    obtain ⟨taken, consumes, statement, _⟩ := statement_eq_ok reachable.scanned h
    have row := settled.row consumes (Grammar.kind_ne_of_statement statement)
    obtain ⟨whole, rows⟩ := Grammar.rows_of_statement statement row
    rw [Tree.statements_of_kind (Tree.kind_of_statement statement)]
    exact ⟨whole, rows, Nat.le_trans whole.2.2 within⟩
  | program =>
    obtain ⟨taken, trees, consumes, program, rfl⟩ := program_eq_ok reachable.scanned h
    obtain ⟨before, final, split, _, more⟩ := Grammar.end_of_program program
    obtain ⟨rfl, _⟩ := List.append_inj' split rfl
    obtain ⟨statements, rows⟩ := Grammar.rows_of_program program (settled.row consumes more)
    exact ⟨statements, Tree.rows_of_children (statements.widen (Nat.zero_le _) (Nat.le_refl _)) rows,
      within⟩

/-- The statements of the trees that calls one after the other answer. -/
def statementsOf (answers : List (Except Fault Tree)) : List Tree :=
  answers.flatMap fun
    | .ok result => result.statements
    | .error _ => []

theorem Reachable.beyond (reachable : Reachable source parser) (mode : Mode) :
    Reachable source (parser.beyond mode) := by
  cases ran : tree mode parser with
  | ok result after => exact (answer_of_ok ran).2 ▸ .read reachable ran
  | error fault after => exact (answer_of_error ran).2 ▸ .failed reachable ran

theorem rows_of_answer (reachable : Reachable source parser) (mode : Mode) :
    Row parser.current.span.start (parser.beyond mode).current.span.start
      ((statementsOf [parser.answer mode]).map Tree.span) ∧
      ∀ result, parser.answer mode = .ok result → result.Rows ∧ result.span.stop ≤ source.length := by
  cases ran : tree mode parser with
  | ok result after =>
    obtain ⟨row, rows⟩ := rows_of_tree reachable ran
    rw [(answer_of_ok ran).1, (answer_of_ok ran).2, statementsOf, List.flatMap_singleton]
    refine ⟨row, ?_⟩
    rintro _ ⟨⟩
    exact rows
  | error fault after =>
    -- A call that fails may have taken tokens, and the next one begins behind them.
    have here := And.intro reachable.settled (Nat.le_refl parser.current.span.start)
    have kept := (kept_start _).beyond reachable.scanned here mode
    rw [(answer_of_error ran).1]
    exact ⟨kept.2, by rintro _ ⟨⟩⟩

theorem rows_of_answers (reachable : Reachable source parser) (modes : List Mode) :
    Row parser.current.span.start source.length
      ((statementsOf (parser.answers modes)).map Tree.span) ∧
      ∀ result, .ok result ∈ parser.answers modes →
        result.Rows ∧ result.span.stop ≤ source.length := by
  induction modes generalizing parser with
  | nil => exact ⟨reachable.settled.start_le_length, by simp [answers]⟩
  | cons mode modes ih =>
    obtain ⟨first, here⟩ := rows_of_answer reachable mode
    obtain ⟨others, behind⟩ := ih (reachable.beyond mode)
    constructor
    · rw [answers, statementsOf, ← List.singleton_append, List.flatMap_append, List.map_append,
        row_append_iff]
      exact ⟨_, first, others⟩
    · intro result member
      rcases List.mem_cons.mp member with same | member
      · exact here result same.symm
      · exact behind result member

end

/-- At every node of the trees that calls on a parser give, the spans lie as the text does: a node
has characters, its parts are inside it, and each of them ends before the next one begins. So do the
statements that the calls give, one call after the other. -/
theorem nested_of_calls {source : String} {parser : Parser} (opened : ofSource source = .ok parser)
    (modes : List Mode) :
    (∀ result, .ok result ∈ parser.answers modes → ∀ node, Tree.Part node result →
      node.Nested source.length) ∧
    (statementsOf (parser.answers modes)).Pairwise fun a b => a.span.stop ≤ b.span.start := by
  obtain ⟨row, each⟩ := rows_of_answers (.opened opened) modes
  constructor
  · intro result member node part
    obtain ⟨rows, within⟩ := each result member
    exact rows.nested within part
  · exact List.pairwise_map.mp row.apart

/-- A call that fails at a number out of range is followed by one that reads a sum, from the name in
front of the number on, and by one that reads the rest as a program. -/
theorem nested_of_calls_around_fault :
    ∃ parser sum negation, ofSource "x 9223372036854775808 + 2 (-y)" = .ok parser ∧
      parser.answers [.statement, .statement, .program] =
        [.error ⟨.malformedInteger "9223372036854775808", ⟨2, 21⟩⟩, .ok sum,
          .ok (.program [negation] ⟨0, 30⟩)] ∧
      sum.span = ⟨0, 25⟩ ∧ negation.span = ⟨27, 29⟩ ∧
      (∀ node, Tree.Part node sum → node.Nested 30) ∧
      [sum, negation].Pairwise fun a b => a.span.stop ≤ b.span.start := by
  have opened : ofSource "x 9223372036854775808 + 2 (-y)" =
      .ok ⟨⟨" 9223372036854775808 + 2 (-y)".toList, 1⟩, ⟨.identifier, "x", ⟨0, 1⟩⟩⟩ := rfl
  have failed : tree .statement
      ⟨⟨" 9223372036854775808 + 2 (-y)".toList, 1⟩, ⟨.identifier, "x", ⟨0, 1⟩⟩⟩ =
        .error ⟨.malformedInteger "9223372036854775808", ⟨2, 21⟩⟩
          ⟨⟨" + 2 (-y)".toList, 21⟩, ⟨.identifier, "x", ⟨0, 1⟩⟩⟩ := rfl
  have added : tree .statement ⟨⟨" + 2 (-y)".toList, 21⟩, ⟨.identifier, "x", ⟨0, 1⟩⟩⟩ =
      .ok (.binary .add ⟨.plus, "+", ⟨22, 23⟩⟩ (.identifier ⟨.identifier, "x", ⟨0, 1⟩⟩)
        (.literal 2 ⟨.integer, "2", ⟨24, 25⟩⟩))
        ⟨⟨"-y)".toList, 27⟩, ⟨.leftParen, "(", ⟨26, 27⟩⟩⟩ := rfl
  have negated : tree .program ⟨⟨"-y)".toList, 27⟩, ⟨.leftParen, "(", ⟨26, 27⟩⟩⟩ =
      .ok (.program [.unary .minus ⟨.minus, "-", ⟨27, 28⟩⟩
        (.identifier ⟨.identifier, "y", ⟨28, 29⟩⟩)] ⟨0, 30⟩) ⟨⟨[], 30⟩, .atEnd 30⟩ := rfl
  have answered := answers_of_error failed [.statement, .program]
  rw [answers_of_ok added, answers_of_ok negated] at answered
  obtain ⟨nested, apart⟩ := nested_of_calls opened [.statement, .statement, .program]
  rw [answered] at nested apart
  exact ⟨_, _, _, opened, answered, rfl, rfl, nested _ (by simp), apart⟩

end Parser

end Calculator
