import Calculator.Proofs.Acceptance
import Calculator.Proofs.Erasure
import Calculator.Proofs.Failure
import Calculator.Proofs.Relocation

/-!
# Layout

Texts whose tokens differ in their places only are read alike, and have the same outcome:
`layout_irrelevant`. Two parsers that hold tokens of one index stay `Abreast` through every step,
and where one refuses its token so does the other. A statement also looks at characters ahead, but
by `Yields.peek_iff` what it looks for there depends on the kinds of the tokens.
-/

namespace Calculator

namespace Token

/-- What a token is and says, wherever it stands. -/
def form (token : Token) : Kind × String :=
  (token.kind, token.lexeme)

def unplaced (token : Token) : Token :=
  token.relocate fun _ => 0

theorem unplaced_eq_iff {token other : Token} :
    token.unplaced = other.unplaced ↔ token.form = other.form := by
  simp [unplaced, relocate, form, Span.relocate]

theorem Complete.drop {tokens rest : List Token} {token : Token} {index : Nat}
    (h : Complete tokens) (split : tokens.drop index = token :: rest) :
    Complete (token :: rest) := by
  induction index generalizing tokens with
  | zero => exact split ▸ h
  | succ index ih =>
    cases tokens with
    | nil => cases split
    | cons head tokens =>
      rcases complete_cons_iff.mp h with ⟨_, rfl⟩ | ⟨_, complete⟩
      · simp at split
      · exact ih complete split

end Token

namespace Tree

/-- A tree without the places of its tokens. -/
def unplaced (tree : Tree) : Tree :=
  tree.relocate fun _ => 0

def unplacedAll (trees : List Tree) : List Tree :=
  relocateAll (fun _ => 0) trees

mutual

theorem bare_relocate (offsets : Nat → Nat) : (tree : Tree) →
    (tree.relocate offsets).bare = tree.bare
  | .program statements _ => by rw [relocate, bare, bare, bareAll_relocateAll offsets statements]
  | .literal _ _ | .identifier _ => rfl
  | .binary _ _ left right => by
    rw [relocate, bare, bare, bare_relocate offsets left, bare_relocate offsets right]
  | .unary _ _ operand => by rw [relocate, bare, bare, bare_relocate offsets operand]
  | .declaration _ _ value | .assignment _ _ value => by
    rw [relocate, bare, bare, bare_relocate offsets value]
    rfl

theorem bareAll_relocateAll (offsets : Nat → Nat) : (trees : List Tree) →
    bareAll (relocateAll offsets trees) = bareAll trees
  | [] => rfl
  | tree :: trees => by
    rw [relocateAll, bareAll, bareAll, bare_relocate offsets tree,
      bareAll_relocateAll offsets trees]

end

theorem evaluate_of_unplaced {tree other : Tree} (same : tree.unplaced = other.unplaced) :
    tree.evaluate.adaptExcept Fault.cause = other.evaluate.adaptExcept Fault.cause := by
  apply evaluate_of_bare
  have bare := congrArg Tree.bare same
  rwa [unplaced, unplaced, bare_relocate, bare_relocate] at bare

end Tree

namespace Parser

/-! ### Places among tokens -/

section
variable {tokens : List Token} {parser : Parser} {index : Nat}

/-- The parser holds the token of the index, and its scanner hands out the ones behind it. -/
structure At (tokens : List Token) (index : Nat) (parser : Parser) : Prop where
  reaches : ∃ rest final, tokens.drop index = parser.current :: rest ∧
    parser.scanner.Yields rest final
  complete : Token.Complete tokens

theorem At.getElem? (h : parser.At tokens index) : tokens[index]? = some parser.current := by
  obtain ⟨rest, _, split, _⟩ := h.reaches
  have first := congrArg List.head? split
  rwa [List.head?_drop] at first

theorem At.mem (h : parser.At tokens index) : parser.current ∈ tokens :=
  List.mem_of_getElem? h.getElem?

theorem At.behind (h : parser.At tokens index) (more : parser.current.kind ≠ .endOfInput) :
    ∃ final, parser.scanner.Yields (tokens.drop (index + 1)) final ∧
      Token.Complete (tokens.drop (index + 1)) := by
  obtain ⟨rest, final, split, run⟩ := h.reaches
  rcases Token.complete_cons_iff.mp (h.complete.drop split) with ⟨ends, _⟩ | ⟨_, others⟩
  · exact absurd ends more
  · rw [← List.tail_drop, split]
    exact ⟨final, run, others⟩

theorem At.advance (h : parser.At tokens index) (more : parser.current.kind ≠ .endOfInput) :
    ∃ between, advance parser = .ok parser.current between ∧ between.At tokens (index + 1) := by
  obtain ⟨final, run, others⟩ := h.behind more
  cases split : tokens.drop (index + 1) with
  | nil => exact absurd (split ▸ others) Token.not_complete_nil
  | cons token rest =>
    rw [split] at run
    obtain ⟨between, scanned, run⟩ := Scanner.yields_cons_iff.mp run
    exact ⟨⟨between, token⟩, by rw [Parser.advance, scanned], ⟨rest, final, split, run⟩, h.complete⟩

theorem At.peek_iff (h : parser.At tokens index) (more : parser.current.kind ≠ .endOfInput) :
    parser.scanner.peek 0 = some '=' ↔
      (((tokens.drop (index + 1)).map Token.kind).dropWhile (· = .integer)).head? =
        some .equal := by
  obtain ⟨final, run, others⟩ := h.behind more
  exact run.peek_iff others

theorem at_ofSource {source : String} {final : Scanner}
    (h : (Scanner.ofSource source).tokenize = .ok tokens final) :
    ∃ parser, ofSource source = .ok parser ∧ parser.At tokens 0 := by
  obtain ⟨run, complete⟩ := Scanner.tokenize_eq_ok_iff.mp h
  cases run with
  | nil => exact absurd complete Token.not_complete_nil
  | @cons _ between _ token rest scanned run =>
    exact ⟨⟨between, token⟩, by rw [ofSource, scanned], ⟨rest, final, rfl, run⟩, complete⟩

end

/-! ### Steps abreast -/

/-- Parsers that hold the tokens of one index. -/
def Abreast (tokens others : List Token) (parser other : Parser) : Prop :=
  ∃ index, parser.At tokens index ∧ other.At others index

/-- Two results that are alike: values of which the same is seen, or two refusals of tokens of one
index. -/
inductive Together {α β : Type} (tokens others : List Token) (view : α → β) :
    EStateM.Result Fault Parser α → EStateM.Result Fault Parser α → Prop where
  | reads {value value' : α} {after after' : Parser} (abreast : Abreast tokens others after after')
      (alike : view value = view value') :
      Together tokens others view (.ok value after) (.ok value' after')
  | refuses {after after' : Parser} (expected : Token.Kind)
      (abreast : Abreast tokens others after after') :
      Together tokens others view (.error (after.unexpected expected) after)
        (.error (after'.unexpected expected) after')

/-- A step that goes alike for parsers abreast, wherever less than `bound` is left to read. -/
def Lockstep {α β : Type} (tokens others : List Token) (bound : Nat) (view : α → β)
    (step : Parse α) : Prop :=
  ∀ ⦃parser other⦄, parser.unread < bound → Abreast tokens others parser other →
    Together tokens others view (step parser) (step other)

section
variable {α β γ δ : Type} {tokens others : List Token} {parser other : Parser} {view : α → β}
  {view' : γ → δ}

theorem Together.bind {first : Parse α} {second second' : α → Parse γ}
    (h : Together tokens others view (first parser) (first other))
    (next : ∀ value value' between between', first parser = .ok value between →
      Abreast tokens others between between' → view value = view value' →
      Together tokens others view' (second value between) (second' value' between')) :
    Together tokens others view' ((first >>= second) parser) ((first >>= second') other) := by
  show Together _ _ _ (EStateM.bind first second parser) (EStateM.bind first second' other)
  unfold EStateM.bind
  generalize ran : first parser = ending at h ⊢
  generalize first other = ending' at h ⊢
  cases h with
  | reads abreast alike => exact next _ _ _ _ ran abreast alike
  | refuses expected abreast => exact .refuses expected abreast

variable (same : tokens.map Token.form = others.map Token.form)
include same

theorem Abreast.form (h : Abreast tokens others parser other) :
    parser.current.form = other.current.form := by
  obtain ⟨index, first, second⟩ := h
  have forms := congrArg (·[index]?) same
  simpa [first.getElem?, second.getElem?] using forms

theorem Abreast.kind (h : Abreast tokens others parser other) :
    parser.current.kind = other.current.kind :=
  congrArg Prod.fst (h.form same)

theorem Abreast.peek_iff (h : Abreast tokens others parser other)
    (more : parser.current.kind ≠ .endOfInput) :
    parser.scanner.peek 0 = some '=' ↔ other.scanner.peek 0 = some '=' := by
  have more' : other.current.kind ≠ .endOfInput := h.kind same ▸ more
  obtain ⟨index, first, second⟩ := h
  have kinds : tokens.map Token.kind = others.map Token.kind := by
    have kinds := congrArg (List.map Prod.fst) same
    simpa [Token.form, Function.comp_def] using kinds
  rw [first.peek_iff more, second.peek_iff more', List.map_drop, List.map_drop, kinds]

theorem Abreast.isKeyword (h : Abreast tokens others parser other) (word : String) :
    parser.current.isKeyword word = other.current.isKeyword word := by
  obtain ⟨kind, lexeme⟩ := Prod.mk.inj (h.form same)
  rw [Token.isKeyword, Token.isKeyword, kind, lexeme]

/-- The characters ahead count where a name is in hand, and there they are seen alike. -/
theorem Abreast.assigns (h : Abreast tokens others parser other) :
    (parser.current.kind = .identifier ∧ parser.scanner.peek 0 = some '=') ↔
      (other.current.kind = .identifier ∧ other.scanner.peek 0 = some '=') := by
  rw [← h.kind same]
  refine and_congr_right fun named => h.peek_iff same ?_
  simp [named]

theorem together_advance (h : Abreast tokens others parser other)
    (more : parser.current.kind ≠ .endOfInput) :
    Together tokens others Token.unplaced (advance parser) (advance other) := by
  have more' : other.current.kind ≠ .endOfInput := h.kind same ▸ more
  have alike := Token.unplaced_eq_iff.mpr (h.form same)
  obtain ⟨index, first, second⟩ := h
  obtain ⟨between, taken, at'⟩ := first.advance more
  obtain ⟨between', taken', at''⟩ := second.advance more'
  rw [taken, taken']
  exact .reads ⟨index + 1, at', at''⟩ alike

theorem together_expect {kind : Token.Kind} (h : Abreast tokens others parser other)
    (more : kind ≠ .endOfInput) :
    Together tokens others Token.unplaced (expect kind parser) (expect kind other) := by
  unfold expect
  rw [← h.kind same]
  split
  · rename_i found
    exact together_advance same h (found ▸ more)
  · exact .refuses kind h

/-! ### Expressions -/

theorem lockstep_chain {bound : Nat} {level : Operator.Level} {operand : Parse Tree}
    (takes : Takes operand) (h : Lockstep tokens others bound Tree.unplaced operand) :
    Lockstep tokens others bound Tree.unplaced (chain level operand) := by
  intro parser other small abreast
  refine Together.bind (h small abreast) fun left left' middle middle' read abreast alike => ?_
  have less := takes read
  rw [get_bind, get_bind, ← abreast.kind same]
  cases found : level.operator? middle.current.kind with
  | none => exact .reads abreast alike
  | some operator =>
    have more := ne_endOfInput_of_operator? found
    simp only [extend]
    refine Together.bind (together_advance same abreast more)
      fun token token' beyond beyond' taken abreast alikeToken => ?_
    have := unread_advance_lt taken more
    refine Together.bind (h (by omega) abreast) fun right right' _ _ _ abreast alikeRight => ?_
    refine .reads abreast ?_
    show Tree.binary operator token.unplaced left.unplaced right.unplaced =
      .binary operator token'.unplaced left'.unplaced right'.unplaced
    rw [alike, alikeToken, alikeRight]

variable (scanned : ∀ token ∈ tokens, token.Scanned)
include scanned

theorem lockstep_factorFrom {bound : Nat} {inner : Parse Tree} (takes : Takes inner)
    (h : Lockstep tokens others bound Tree.unplaced inner) :
    Lockstep tokens others (bound + 1) Tree.unplaced (factorFrom inner) := by
  intro parser other small abreast
  unfold factorFrom
  rw [← abreast.kind same]
  have held : parser.current.Scanned := scanned _ abreast.choose_spec.1.mem
  have signed (sign : Sign) (more : parser.current.kind ≠ .endOfInput) :
      Together tokens others Tree.unplaced
        ((advance >>= fun token => inner >>= fun operand => pure (.unary sign token operand) :
          Parse Tree) parser)
        ((advance >>= fun token => inner >>= fun operand => pure (.unary sign token operand) :
          Parse Tree) other) := by
    refine Together.bind (together_advance same abreast more)
      fun token token' between between' taken abreast alikeToken => ?_
    have := unread_advance_lt taken more
    refine Together.bind (h (by omega) abreast) fun operand operand' _ _ _ abreast alike => ?_
    refine .reads abreast ?_
    show Tree.unary sign token.unplaced operand.unplaced =
      .unary sign token'.unplaced operand'.unplaced
    rw [alikeToken, alike]
  cases found : parser.current.kind with
  | integer =>
    obtain ⟨value, read⟩ := held.read? found
    refine Together.bind (together_advance same abreast (by simp [found]))
      fun token token' between between' taken abreast alike => ?_
    obtain rfl := eq_current_of_advance taken
    -- A scanned literal is in range, so neither parser can fail here.
    have lexeme : token'.lexeme = parser.current.lexeme :=
      (congrArg Prod.snd (Token.unplaced_eq_iff.mp alike)).symm
    rw [integer_of_read read, integer_of_read (lexeme ▸ read)]
    refine .reads abreast ?_
    show Tree.literal value parser.current.unplaced = .literal value token'.unplaced
    rw [alike]
  | identifier =>
    refine Together.bind (together_advance same abreast (by simp [found]))
      fun token token' between between' taken abreast alike => ?_
    exact .reads abreast (congrArg Tree.identifier alike)
  | leftParen =>
    refine Together.bind (together_advance same abreast (by simp [found]))
      fun opening opening' between between' taken abreast _ => ?_
    have := unread_advance_lt taken (by simp [found])
    have term : Lockstep tokens others bound Tree.unplaced (chain .multiplicative inner) :=
      lockstep_chain same takes h
    have expression : Lockstep tokens others bound Tree.unplaced (chain .additive _) :=
      lockstep_chain same (takes_chain takes) term
    refine Together.bind (expression (by omega) abreast)
      fun tree tree' middle middle' _ abreast alike => ?_
    refine Together.bind (together_expect same abreast (by decide))
      fun closing closing' final final' _ abreast _ => ?_
    exact .reads abreast alike
  | plus => exact signed .plus (by simp [found])
  | minus => exact signed .minus (by simp [found])
  | _ => exact .refuses .integer abreast

theorem lockstep_factor (bound : Nat) : Lockstep tokens others bound Tree.unplaced factor := by
  induction bound with
  | zero => exact fun parser other small => absurd small (Nat.not_lt_zero _)
  | succ bound ih =>
    rw [factor_eq]
    exact lockstep_factorFrom same scanned takes_factor ih

theorem together_expression (h : Abreast tokens others parser other) :
    Together tokens others Tree.unplaced (expression parser) (expression other) := by
  have factor := lockstep_factor same scanned (parser.unread + 1)
  exact lockstep_chain same takes_term (lockstep_chain same takes_factor factor)
    (Nat.lt_succ_self _) h

/-! ### Statements and programs -/

theorem together_declaration (h : Abreast tokens others parser other) :
    Together tokens others Tree.unplaced (declaration parser) (declaration other) := by
  refine Together.bind (together_expect same h (by decide))
    fun _ _ _ _ _ abreast _ => ?_
  refine Together.bind (together_expect same abreast (by decide))
    fun name name' _ _ _ abreast alikeName => ?_
  refine Together.bind (together_expect same abreast (by decide))
    fun equals equals' _ _ _ abreast alikeEquals => ?_
  refine Together.bind (together_expression same scanned abreast)
    fun value value' _ _ _ abreast alike => ?_
  refine .reads abreast ?_
  show Tree.declaration name.unplaced equals.unplaced value.unplaced =
    .declaration name'.unplaced equals'.unplaced value'.unplaced
  rw [alikeName, alikeEquals, alike]

theorem together_assignment (h : Abreast tokens others parser other) :
    Together tokens others Tree.unplaced (assignment parser) (assignment other) := by
  refine Together.bind (together_expect same h (by decide))
    fun name name' _ _ _ abreast alikeName => ?_
  refine Together.bind (together_expect same abreast (by decide))
    fun equals equals' _ _ _ abreast alikeEquals => ?_
  refine Together.bind (together_expression same scanned abreast)
    fun value value' _ _ _ abreast alike => ?_
  refine .reads abreast ?_
  show Tree.assignment name.unplaced equals.unplaced value.unplaced =
    .assignment name'.unplaced equals'.unplaced value'.unplaced
  rw [alikeName, alikeEquals, alike]

theorem together_statement (h : Abreast tokens others parser other) :
    Together tokens others Tree.unplaced (statement parser) (statement other) := by
  unfold statement
  rw [get_bind, get_bind, ← h.isKeyword same]
  by_cases var : parser.current.isKeyword "var" = true
  · rw [if_pos var, if_pos var]
    exact together_declaration same scanned h
  · rw [if_neg var, if_neg var]
    by_cases assigned : parser.current.kind = .identifier ∧ parser.scanner.peek 0 = some '='
    · rw [if_pos assigned, if_pos ((h.assigns same).mp assigned)]
      exact together_assignment same scanned h
    · rw [if_neg assigned, if_neg fun found => assigned ((h.assigns same).mpr found)]
      exact together_expression same scanned h

theorem together_statements (h : Abreast tokens others parser other) :
    Together tokens others Tree.unplacedAll (statements parser) (statements other) := by
  -- On what is left to read for the first parser; the second one keeps step with it.
  induction size : parser.unread using Nat.strongRecOn generalizing parser other with
  | ind size ih =>
    rw [statements_eq]
    unfold statementsFrom
    rw [get_bind, get_bind, ← h.kind same]
    by_cases atEnd : parser.current.kind = .endOfInput
    · rw [if_pos atEnd]
      exact .reads h rfl
    · rw [if_neg atEnd]
      refine Together.bind (together_statement same scanned h)
        fun first first' middle middle' took abreast alike => ?_
      have less := takes_statement took
      rw [get_bind, get_bind, ← abreast.kind same]
      by_cases atEnd : middle.current.kind = .endOfInput
      · rw [if_pos atEnd, if_pos atEnd]
        exact .reads abreast (congrArg (fun tree => [tree]) alike)
      · rw [if_neg atEnd, if_neg atEnd]
        refine Together.bind (together_expect same abreast (by decide))
          fun _ _ beyond beyond' taken abreast _ => ?_
        have := takes_expect (by decide) taken
        refine Together.bind (ih beyond.unread (by omega) abreast rfl)
          fun rest rest' _ _ _ abreast alikeRest => ?_
        refine .reads abreast ?_
        show first.unplaced :: Tree.unplacedAll rest = first'.unplaced :: Tree.unplacedAll rest'
        rw [alike, alikeRest]

/-- Parsing goes alike for parsers abreast. -/
theorem together_tree (mode : Mode) (h : Abreast tokens others parser other) :
    Together tokens others Tree.unplaced (tree mode parser) (tree mode other) := by
  cases mode with
  | statement => exact together_statement same scanned h
  | program =>
    refine Together.bind (together_statements same scanned h)
      fun list list' after after' _ abreast alike => ?_
    refine .reads abreast ?_
    show Tree.program (Tree.unplacedAll list) ⟨0, 0⟩ = .program (Tree.unplacedAll list') ⟨0, 0⟩
    rw [alike]

end

end Parser

/-! ### Texts -/

section
variable {source other : String} {tokens others : List Token} {final final' : Scanner}

/-- The texts have one tree, but for places, or are refused at their tokens of one index for one
cause. -/
def ReadAlike (mode : Mode) (source other : String) (tokens others : List Token) : Prop :=
  (∃ tree tree', Tree.ofSource mode source = .ok tree ∧ Tree.ofSource mode other = .ok tree' ∧
    tree.unplaced = tree'.unplaced) ∨
  ∃ (index : Nat) (token token' : Token) (expected : Token.Kind),
    tokens[index]? = some token ∧ others[index]? = some token' ∧ token.kind = token'.kind ∧
    Tree.ofSource mode source = .error ⟨.unexpectedToken token.kind expected, token.span⟩ ∧
    Tree.ofSource mode other = .error ⟨.unexpectedToken token'.kind expected, token'.span⟩

theorem readAlike_of_forms (mode : Mode)
    (first : (Scanner.ofSource source).tokenize = .ok tokens final)
    (second : (Scanner.ofSource other).tokenize = .ok others final')
    (same : tokens.map Token.form = others.map Token.form) :
    ReadAlike mode source other tokens others := by
  obtain ⟨parser, opened, at'⟩ := Parser.at_ofSource first
  obtain ⟨parser', opened', at''⟩ := Parser.at_ofSource second
  have scanned := (Scanner.tokenize_eq_ok_iff.mp first).1.scanned
  have together := Parser.together_tree same scanned mode ⟨0, at', at''⟩
  rw [ReadAlike, Parser.tree_ofSource_of_ok opened, Parser.tree_ofSource_of_ok opened']
  generalize Parser.tree mode parser = ending at together ⊢
  generalize Parser.tree mode parser' = ending' at together ⊢
  cases together with
  | reads abreast alike => exact .inl ⟨_, _, rfl, rfl, alike⟩
  | refuses expected abreast =>
    have kind := abreast.kind same
    obtain ⟨index, at', at''⟩ := abreast
    exact .inr ⟨index, _, _, expected, at'.getElem?, at''.getElem?, kind, rfl, rfl⟩

/-- Texts with the same tokens, but for their places, are read alike. In every environment they have
the same value, or the same cause of failure, and leave the same environment. -/
theorem layout_irrelevant (mode : Mode)
    (first : (Scanner.ofSource source).tokenize = .ok tokens final)
    (second : (Scanner.ofSource other).tokenize = .ok others final')
    (same : tokens.map Token.form = others.map Token.form) :
    ReadAlike mode source other tokens others ∧
      ∀ env, (evaluate mode source).adaptExcept Fault.cause env =
        (evaluate mode other).adaptExcept Fault.cause env := by
  have alike := readAlike_of_forms mode first second same
  refine ⟨alike, fun env => ?_⟩
  obtain ⟨tree, tree', read, read', unplaced⟩ |
    ⟨_, token, token', expected, _, _, kind, failed, failed'⟩ := alike
  · rw [evaluate_of_ok read, evaluate_of_ok read', Tree.evaluate_of_unplaced unplaced]
  · rw [EStateM.adaptExcept, EStateM.adaptExcept, evaluate_of_error failed,
      evaluate_of_error failed', kind]

/-- A name that is taken for one that is assigned is so in another layout, too. -/
theorem layout_irrelevant_of_misled :
    ∃ tokens others final final',
      (Scanner.ofSource "x 12 = 3").tokenize = .ok tokens final ∧
      (Scanner.ofSource "x\n12=3 ").tokenize = .ok others final' ∧
      tokens.map Token.form = others.map Token.form ∧ tokens ≠ others ∧
      ReadAlike .statement "x 12 = 3" "x\n12=3 " tokens others ∧
      ∀ env, (evaluate .statement "x 12 = 3").adaptExcept Fault.cause env =
        (evaluate .statement "x\n12=3 ").adaptExcept Fault.cause env := by
  have run : (Scanner.ofSource "x 12 = 3").Yields
      [⟨.identifier, "x", ⟨0, 1⟩⟩, ⟨.integer, "12", ⟨2, 4⟩⟩, ⟨.equal, "=", ⟨5, 6⟩⟩,
        ⟨.integer, "3", ⟨7, 8⟩⟩, .atEnd 8] ⟨[], 8⟩ :=
    .cons rfl (.cons rfl (.cons rfl (.cons rfl (.cons rfl (.nil _)))))
  have run' : (Scanner.ofSource "x\n12=3 ").Yields
      [⟨.identifier, "x", ⟨0, 1⟩⟩, ⟨.integer, "12", ⟨2, 4⟩⟩, ⟨.equal, "=", ⟨4, 5⟩⟩,
        ⟨.integer, "3", ⟨5, 6⟩⟩, .atEnd 7] ⟨[], 7⟩ :=
    .cons rfl (.cons rfl (.cons rfl (.cons rfl (.cons rfl (.nil _)))))
  have first := Scanner.tokenize_eq_ok_iff.mpr ⟨run, [_, _, _, _], _, rfl, rfl, by decide⟩
  have second := Scanner.tokenize_eq_ok_iff.mpr ⟨run', [_, _, _, _], _, rfl, rfl, by decide⟩
  exact ⟨_, _, _, _, first, second, rfl, by decide, layout_irrelevant .statement first second rfl⟩

end

end Calculator
