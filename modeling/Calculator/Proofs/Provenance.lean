import Calculator.Proofs.Course
import Calculator.Proofs.Execution
import Calculator.Proofs.Places

/-!
# Where trees come from

A tree that parsing gives is the tree of a statement or a program of the grammar, see
`read_of_ofSource`, and every part of it is the tree of some of those tokens, see
`derives_of_part`. So the span of a part begins and ends where two of its tokens do.
-/

namespace Calculator

namespace Tree

/-- The one tree is the other or lies below its root. -/
inductive Part : Tree → Tree → Prop where
  | whole (tree : Tree) : Part tree tree
  | under {part child tree : Tree} (member : child ∈ tree.children) (inside : Part part child) :
      Part part tree

theorem Part.trans {part middle tree : Tree} (inner : Part part middle) (outer : Part middle tree) :
    Part part tree := by
  induction outer with
  | whole => exact inner
  | under member _ ih => exact .under member ih

theorem part_iff {part tree : Tree} :
    Part part tree ↔ part = tree ∨ ∃ child ∈ tree.children, Part part child := by
  constructor
  · intro h
    cases h with
    | whole => exact .inl rfl
    | under member inside => exact .inr ⟨_, member, inside⟩
  · intro h
    rcases h with rfl | ⟨child, member, inside⟩
    · exact .whole _
    · exact .under member inside

section
variable {part operand left right : Tree} {operator : Operator} {sign : Sign} {token : Token}
  {value : Int64}

theorem left_mem_children : left ∈ (Tree.binary operator token left right).children :=
  List.mem_cons_self

theorem right_mem_children : right ∈ (Tree.binary operator token left right).children :=
  List.mem_cons_of_mem _ List.mem_cons_self

theorem operand_mem_children : operand ∈ (Tree.unary sign token operand).children :=
  List.mem_cons_self

@[simp]
theorem part_literal : Part part (.literal value token) ↔ part = .literal value token := by
  rw [part_iff]
  simp [children]

@[simp]
theorem part_identifier : Part part (.identifier token) ↔ part = .identifier token := by
  rw [part_iff]
  simp [children]

@[simp]
theorem part_unary : Part part (.unary sign token operand) ↔
    part = .unary sign token operand ∨ Part part operand := by
  rw [part_iff]
  simp [children]

@[simp]
theorem part_binary : Part part (.binary operator token left right) ↔
    part = .binary operator token left right ∨ Part part left ∨ Part part right := by
  rw [part_iff]
  simp [children]

end

end Tree

namespace Grammar

section
variable {category : Category} {tokens : List Token} {tree other : Tree}

/-- A part of an expression is the tree of some of its tokens. -/
theorem derives_of_part (h : Derives category tokens tree) (part : Tree.Part other tree) :
    ∃ inner some, Derives inner some other ∧ some.Sublist tokens := by
  induction h with
  | literal kind read =>
    rcases Tree.part_iff.mp part with rfl | ⟨child, member, _⟩
    · exact ⟨_, _, .literal kind read, .refl _⟩
    · cases member
  | name kind =>
    rcases Tree.part_iff.mp part with rfl | ⟨child, member, _⟩
    · exact ⟨_, _, .name kind, .refl _⟩
    · cases member
  | group _ _ _ ih =>
    obtain ⟨inner, some, derived, sub⟩ := ih part
    exact ⟨inner, some, derived, (sub.trans (List.sublist_append_left _ _)).cons _⟩
  | signed signs operand ih =>
    rcases Tree.part_iff.mp part with rfl | ⟨child, member, inside⟩
    · exact ⟨_, _, .signed signs operand, .refl _⟩
    · obtain rfl := List.mem_singleton.mp member
      obtain ⟨inner, some, derived, sub⟩ := ih inside
      exact ⟨inner, some, derived, sub.cons _⟩
  | single _ ih => exact ih part
  | @pair level token operator before behind left right first joins second ihLeft ihRight =>
    rcases Tree.part_iff.mp part with rfl | ⟨child, member, inside⟩
    · exact ⟨_, _, .pair first joins second, .refl _⟩
    · simp only [Tree.children, List.mem_cons, List.not_mem_nil, or_false] at member
      rcases member with rfl | rfl
      · obtain ⟨inner, some, derived, sub⟩ := ihLeft inside
        exact ⟨inner, some, derived, sub.trans (List.sublist_append_left _ _)⟩
      · obtain ⟨inner, some, derived, sub⟩ := ihRight inside
        exact ⟨inner, some, derived, (sub.cons token).trans (List.sublist_append_right _ _)⟩

/-- The span of an expression reaches from the begin of a token to the end of one. -/
theorem span_of_derives (h : Derives category tokens tree) (order : Token.InOrder tokens) :
    tree.span.start < tree.span.stop ∧
      (∃ first ∈ tokens, first.span.start = tree.span.start) ∧
      ∃ last ∈ tokens, last.span.stop = tree.span.stop := by
  induction h with
  | @literal token | @name token =>
    exact ⟨order.some token List.mem_cons_self, ⟨token, List.mem_cons_self, rfl⟩,
      token, List.mem_cons_self, rfl⟩
  | @group opening closing inner tree _ _ _ ih =>
    have inside : Token.InOrder inner :=
      order.sublist ((List.sublist_append_left _ _).cons _)
    obtain ⟨some, ⟨first, member, starts⟩, last, member', stops⟩ := ih inside
    exact ⟨some, ⟨first, by simp [member], starts⟩, last, by simp [member'], stops⟩
  | @signed token sign inner operand _ _ ih =>
    obtain ⟨some, ⟨first, member, starts⟩, last, member', stops⟩ :=
      ih (order.sublist (List.sublist_cons_self _ _))
    have nonempty := order.some token List.mem_cons_self
    have apart := (List.pairwise_cons.mp order.apart).1 first member
    refine ⟨?_, ⟨token, List.mem_cons_self, rfl⟩, last, List.mem_cons_of_mem _ member', stops⟩
    show token.span.start < operand.span.stop
    omega
  | single _ ih => exact ih order
  | @pair level token operator before behind left right _ _ _ ihLeft ihRight =>
    obtain ⟨someLeft, ⟨first, member, starts⟩, last, member', stops⟩ :=
      ihLeft (order.sublist (List.sublist_append_left _ _))
    obtain ⟨someRight, ⟨first', inner, starts'⟩, last', inner', stops'⟩ :=
      ihRight (order.sublist ((List.sublist_cons_self _ _).trans
        (List.sublist_append_right _ _)))
    have apart := (List.pairwise_append.mp order.apart).2.2 last member' first'
      (List.mem_cons_of_mem _ inner)
    refine ⟨?_, ⟨first, by simp [member], starts⟩, last', by simp [inner'], stops'⟩
    show left.span.start < right.span.stop
    omega

theorem mem_of_derives {token : Token} (h : Derives category tokens (.identifier token)) :
    token ∈ tokens ∧ token.kind = .identifier := by
  generalize tree_eq : Tree.identifier token = tree at h
  induction h with
  | literal | signed | pair => cases tree_eq
  | name kind =>
    cases tree_eq
    exact ⟨List.mem_cons_self, kind⟩
  | group _ _ _ ih =>
    obtain ⟨member, kind⟩ := ih tree_eq
    exact ⟨by simp [member], kind⟩
  | single _ ih => exact ih tree_eq

/-- The statements of a program are those of stretches of its tokens. -/
theorem statement_of_sequence {trees : List Tree} (h : Sequence tokens trees) :
    ∀ tree ∈ trees, ∃ some, Statement some tree ∧ some.Sublist tokens := by
  induction h with
  | last statement => exact List.forall_mem_singleton.mpr ⟨_, statement, .refl _⟩
  | @more separator before behind tree trees statement _ _ ih =>
    refine List.forall_mem_cons.mpr ⟨⟨_, statement, List.sublist_append_left _ _⟩, ?_⟩
    intro tree member
    obtain ⟨some, statement, sub⟩ := ih tree member
    exact ⟨some, statement, (sub.cons separator).trans (List.sublist_append_right _ _)⟩

theorem statement_of_program {trees : List Tree} (h : Program tokens trees) :
    ∀ tree ∈ trees, ∃ some, Statement some tree ∧ some.Sublist tokens := by
  intro tree member
  cases h with
  | empty => cases member
  | closed sequence | terminated sequence =>
    obtain ⟨some, statement, sub⟩ := statement_of_sequence sequence tree member
    exact ⟨some, statement, sub.trans (List.sublist_append_left _ _)⟩

theorem eq_singleton_of_program (h : Program tokens []) :
    ∃ final, tokens = [final] ∧ final.kind = .endOfInput := by
  rcases program_cases h with ⟨final, same, ends, _⟩ | ⟨_, _, _, _, _, _, more⟩ |
    ⟨_, _, _, _, _, _, _, _, _, more⟩
  · exact ⟨final, same, ends⟩
  · cases more
  · cases more

end

end Grammar

namespace Parser
open Grammar

section
variable {parser after : Parser} {tokens : List Token} {result : Tree} {mode : Mode}

theorem Consumes.all_scanned (h : parser.Consumes tokens after) (held : parser.current.Scanned) :
    ∀ token ∈ tokens, token.Scanned := by
  obtain ⟨pulled, run, same⟩ := h
  have all := List.forall_mem_cons.mpr ⟨held, run.scanned⟩
  rw [same] at all
  exact fun token member => all token (List.mem_append_left _ member)

/-- A statement that is read is one of the grammar, and goes on with no further token. -/
theorem statement_eq_ok (held : parser.current.Scanned)
    (h : statement parser = .ok result after) :
    ∃ tokens, parser.Consumes tokens after ∧ Statement tokens result ∧
      ∀ rest other, Ahead after.current rest → Statement (tokens ++ rest) other → rest = [] := by
  have clear : ¬parser.Misled := by
    rintro ⟨named, seen, token, beyond, next, integer⟩
    cases h.symm.trans (statement_eq_error_of_misled named seen next integer)
  obtain ⟨taken, outcome⟩ := reading_alone held clear
  rw [h] at outcome
  cases outcome with
  | reads consumes sound complete =>
    have whole := sound [] result ⟨rfl, rfl⟩
    rw [List.append_nil] at whole
    exact ⟨taken, consumes, whole, fun rest other ahead longer =>
      (complete rest other ahead longer).1⟩

theorem program_eq_ok (held : parser.current.Scanned) (h : program parser = .ok result after) :
    ∃ tokens trees, parser.Consumes tokens after ∧ Program (tokens ++ [after.current]) trees ∧
      result = .program trees ⟨0, after.current.span.start⟩ := by
  obtain ⟨taken, outcome⟩ := reading_statements id held
  cases ran : statements parser with
  | error fault final => cases h.symm.trans (program_of_error ran)
  | ok trees final =>
    cases h.symm.trans (program_of_ok ran)
    have ends := atEnd_of_statements ran
    rw [ran] at outcome
    cases outcome with
    | reads consumes sound =>
      obtain ⟨_, derived, rfl⟩ := sound [after.current] trees ⟨_, rfl, ends, rfl⟩
      exact ⟨taken, _, consumes, derived, rfl⟩

/-- Tokens of a program are read as that program. -/
theorem ofSource_of_program {source : String} {final : Scanner} {statements : List Tree}
    (run : (Scanner.ofSource source).Yields tokens final) (program : Program tokens statements) :
    Tree.ofSource .program source = .ok (.program statements ⟨0, source.length⟩) := by
  rcases ofSource_program source with ⟨tokens', final', statements', run', program', only, read⟩ |
    ⟨fault, earliest, _⟩
  · have tokenized := Scanner.tokenize_eq_ok_iff.mpr ⟨run, complete_of_program program⟩
    have tokenized' := Scanner.tokenize_eq_ok_iff.mpr ⟨run', complete_of_program program'⟩
    cases tokenized.symm.trans tokenized'
    rw [only statements program, read]
  · exact absurd earliest (not_earliestFault run program)

/-- The tree of a text is that of a statement at its begin, or of the program that it is. -/
theorem read_of_ofSource {source : String} (h : Tree.ofSource mode source = .ok result) :
    ∃ tokens after, (Scanner.ofSource source).Yields tokens after ∧
      ((mode = .statement ∧ Statement tokens result) ∨
        (mode = .program ∧ ∃ trees, Program tokens trees ∧
          result = .program trees ⟨0, source.length⟩)) := by
  cases mode with
  | program =>
    rcases ofSource_program source with ⟨tokens, final, trees, run, program, _, read⟩ |
      ⟨fault, _, failed⟩
    · cases h.symm.trans read
      exact ⟨tokens, final, run, .inr ⟨rfl, trees, program, rfl⟩⟩
    · cases h.symm.trans failed
  | statement =>
    cases opened : ofSource source with
    | error fault => cases h.symm.trans (tree_ofSource_of_error opened)
    | ok parser =>
      obtain ⟨first, held⟩ := ofSource_eq_ok opened
      rw [tree_ofSource_of_ok opened, Parser.tree] at h
      cases ran : statement parser with
      | error fault final =>
        rw [ran] at h
        cases h
      | ok tree final =>
        rw [ran] at h
        cases h
        obtain ⟨tokens, consumes, derived, _⟩ := statement_eq_ok held ran
        obtain ⟨middle, run, _⟩ := Scanner.yields_append_iff.mp (consumes.yields first)
        exact ⟨tokens, middle, run, .inl ⟨rfl, derived⟩⟩

end

end Parser

end Calculator
