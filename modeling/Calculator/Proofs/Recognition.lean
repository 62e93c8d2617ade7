import Calculator.Proofs.Reading

/-!
# The parser reads the grammar

Each rule of the parser reads the words of its rule of the grammar: `recognises_factor` by induction
on what is left to read, `reading_statement` and `reading_statements` from it. Only a name in front
of a number and an `=` misleads a statement, see `Misled`.
-/

namespace Calculator.Parser
open Grammar

/-- A step that reads the words of a category, wherever less than `bound` is left to read. What
follows such a word may not begin with an operator that would make the word a longer one. -/
def Recognises (β : Type) (bound : Nat) (category : Category) (step : Parse Tree) : Prop :=
  ∀ ⦃parser⦄ (follow : Tree → Words β), parser.unread < bound → parser.current.Scanned →
    Live follow → (∀ tree token rest result, follow tree (token :: rest) result →
      ¬Resumes category token.kind) →
    Reading parser (FollowedBy (Derives category) follow) follow (step parser)

section
variable {β : Type} {follow : Tree → Words β}

/-! ### Words that there are -/

def zero : Token :=
  ⟨.integer, "0", ⟨0, 1⟩⟩

theorem followedBy_zero (category : Category) {rest : List Token} {result : β}
    (h : follow (.literal 0 zero) rest result) :
    FollowedBy (Derives category) follow (zero :: rest) result := by
  have factor : Derives .factor [zero] (.literal 0 zero) := .literal rfl rfl
  refine ⟨[zero], rest, _, rfl, ?_, h⟩
  cases category with
  | factor => exact factor
  | chain level =>
    cases level with
    | multiplicative => exact .single factor
    | additive => exact .single (.single factor)

theorem exists_followedBy (category : Category) (live : Live follow) :
    ∃ rest result, FollowedBy (Derives category) follow rest result := by
  obtain ⟨rest, result, h⟩ := live (.literal 0 zero)
  exact ⟨_, result, followedBy_zero category h⟩

theorem exists_lead (kind : Token.Kind) {follow : Token → Words β} (live : Live follow) :
    ∃ rest result, Lead kind follow rest result := by
  obtain ⟨rest, result, h⟩ := live ⟨kind, "", ⟨0, 0⟩⟩
  exact ⟨_, result, lead_cons.mpr ⟨rfl, h⟩⟩

/-! ### Expressions -/

theorem joined_cons {level : Operator.Level} {operator : Operator} {left : Tree} {token : Token}
    {rest : List Token} {result : β} (joins : Joins level token.kind operator)
    (apart : ¬follow left (token :: rest) result) :
    Joined level follow left (token :: rest) result ↔
      FollowedBy (Derives (Category.operand level))
        (fun right => follow (.binary operator token left right)) rest result := by
  constructor
  · rintro (h | ⟨_, _, operator', same, joins', h⟩)
    · exact absurd h apart
    · obtain ⟨rfl, rfl⟩ := List.cons.inj same
      have same := (operator?_eq_some_iff.mpr joins).symm.trans (operator?_eq_some_iff.mpr joins')
      cases same
      exact h
  · intro h
    exact .inr ⟨token, rest, operator, rfl, joins, h⟩

theorem recognises_chain {bound : Nat} {level : Operator.Level} {operand : Parse Tree}
    (takes : Takes operand) (h : Recognises β bound (Category.operand level) operand) :
    Recognises β bound (.chain level) (chain level operand) := by
  intro parser follow small held live apart
  rw [followedBy_chain]
  have liveJoined : Live (Joined level follow) := fun left =>
    (live left).imp fun rest => Exists.imp fun result => .inl
  have operand := h _ small held liveJoined (Apart.joined apart)
  refine Reading.bind held operand fun left middle read held => ?_
  have less := takes read
  simp only [get_bind]
  cases found : level.operator? middle.current.kind with
  | none =>
    refine reading_pure (fun _ _ h => .inl h) fun rest result ahead h => ?_
    rcases h with h | ⟨token, _, operator, rfl, joins, _⟩
    · exact h
    · rw [ahead_cons.mp ahead] at joins
      exact absurd joins (operator?_eq_none_iff.mp found operator)
  | some operator =>
    have joins := operator?_eq_some_iff.mp found
    obtain ⟨rest, result, right⟩ := exists_followedBy (Category.operand level) (fun right =>
      live (.binary operator middle.current left right))
    refine Reading.advance_bind held (.inr ⟨_, rest, operator, rfl, joins, right⟩)
      fun beyond taken held => ?_
    have := unread_advance_lt taken (ne_endOfInput_of_operator? found)
    have joined (rest : List Token) (result : β) :
        Joined level follow left (middle.current :: rest) result ↔ _ :=
      joined_cons joins fun h => apart _ _ _ _ h (.here joins)
    have second := h (fun right => follow (.binary operator middle.current left right))
      (by omega) held (fun right => live _)
      fun right token rest result h resumes => apart _ _ _ _ h (.inside resumes)
    refine Reading.bind held (second.widen (fun rest result => (joined rest result).mpr)
      fun rest result _ => (joined rest result).mp) fun right final _ _ => ?_
    exact reading_return

theorem integer_of_read {token : Token} {value : Int64}
    (read : Numeral.read? token.lexeme = some value) :
    Tree.integer token = .ok (.literal value token) := by
  rw [Tree.integer, read]

theorem recognises_factorFrom {bound : Nat} {inner : Parse Tree} (takes : Takes inner)
    (h : Recognises β bound .factor inner) :
    Recognises β (bound + 1) .factor (factorFrom inner) := by
  intro parser follow small held live _
  unfold factorFrom
  have signed {sign : Sign} (signs : Signs parser.current.kind sign) :
      Reading parser (FollowedBy (Derives .factor) follow) follow
        ((advance >>= fun token => inner >>= fun operand => pure (.unary sign token operand) :
          Parse Tree) parser) := by
    have live := fun operand => live (.unary sign parser.current operand)
    obtain ⟨rest, result, word⟩ := exists_followedBy .factor live
    refine Reading.advance_bind held ((followedBy_factor_sign signs).mpr word)
      fun beyond taken held => ?_
    have := unread_advance_lt taken fun ends => not_divides_of_signs signs (.inr ends)
    have operand := h _ (by omega) held live fun _ _ _ _ _ => not_resumes_factor
    refine Reading.bind held (operand.widen (fun _ _ => (followedBy_factor_sign signs).mpr)
      fun _ _ _ => (followedBy_factor_sign signs).mp) fun operand final _ _ => ?_
    exact reading_return
  cases found : parser.current.kind with
  | integer =>
    obtain ⟨value, read⟩ := held.read? found
    obtain ⟨rest, result, word⟩ := live (.literal value parser.current)
    refine Reading.advance_bind held ((followedBy_factor_integer found read).mpr word)
      fun beyond taken _ => ?_
    rw [integer_of_read read]
    exact reading_pure (fun _ _ => (followedBy_factor_integer found read).mpr)
      fun _ _ _ => (followedBy_factor_integer found read).mp
  | identifier =>
    obtain ⟨rest, result, word⟩ := live (.identifier parser.current)
    refine Reading.advance_bind held ((followedBy_factor_identifier found).mpr word)
      fun beyond taken _ => ?_
    exact reading_pure (fun _ _ => (followedBy_factor_identifier found).mpr)
      fun _ _ _ => (followedBy_factor_identifier found).mp
  | leftParen =>
    have live' (tree : Tree) := exists_lead .rightParen fun _ => live tree
    obtain ⟨rest, result, word⟩ := exists_followedBy .expression live'
    refine Reading.advance_bind held ((followedBy_factor_leftParen found).mpr word)
      fun beyond taken held => ?_
    have := unread_advance_lt taken (by simp [found])
    have term : Recognises β bound .term (chain .multiplicative inner) :=
      recognises_chain takes h
    have expression : Recognises β bound .expression _ := recognises_chain (takes_chain takes) term
    have apart : Apart .expression fun tree => Lead .rightParen fun _ => follow tree :=
      apart_lead (by rintro _ _ ⟨⟩)
    have expression := expression _ (by omega) held live' apart
    refine Reading.bind held (expression.widen
      (fun _ _ => (followedBy_factor_leftParen found).mpr)
      fun _ _ _ => (followedBy_factor_leftParen found).mp) fun tree middle _ held => ?_
    refine Reading.bind held (reading_expect fun _ => live tree) fun closing final _ _ => ?_
    exact reading_return
  | plus => exact signed (found ▸ .plus)
  | minus => exact signed (found ▸ .minus)
  | _ =>
    obtain ⟨rest, result, word⟩ := live (.literal 0 zero)
    refine reading_refuse zero ?_ (followedBy_zero .factor word)
    intro rest result ahead h
    cases rest with
    | nil => exact not_followedBy_factor_nil h
    | cons token rest =>
      rw [ahead_cons] at ahead
      subst ahead
      simp [followedBy_factor_cons, signs_iff, found] at h

theorem recognises_factor (bound : Nat) : Recognises β bound .factor factor := by
  induction bound with
  | zero => exact fun parser follow small => absurd small (Nat.not_lt_zero _)
  | succ bound ih =>
    rw [factor_eq]
    exact recognises_factorFrom takes_factor ih

theorem recognises_expression (bound : Nat) : Recognises β bound .expression expression :=
  recognises_chain takes_term (recognises_chain takes_factor (recognises_factor bound))

/-! ### Statements -/

/-- What may follow a statement: a semicolon, the end of the input, or nothing. -/
def Delimits (follow : Tree → Words β) : Prop :=
  ∀ tree token rest result, follow tree (token :: rest) result → Divides token.kind

theorem Delimits.not_resumes (delimits : Delimits follow) {category : Category} (tree : Tree)
    (token : Token) (rest : List Token) (result : β) (h : follow tree (token :: rest) result) :
    ¬Resumes category token.kind := by
  intro resumes
  obtain ⟨_, _, joins⟩ := joins_of_resumes resumes
  exact not_divides_of_joins joins (delimits _ _ _ _ h)

/-- A name in hand, an integer behind it, and an `=` ahead of white space and digits: the name is
taken for one that is assigned. -/
def Misled (parser : Parser) : Prop :=
  parser.current.kind = .identifier ∧ parser.scanner.peek 0 = some '=' ∧
    ∃ token after, parser.scanner.next = .ok token after ∧ token.kind = .integer

variable {parser : Parser}

theorem reading_expression (held : parser.current.Scanned) (live : Live follow)
    (delimits : Delimits follow) :
    Reading parser (FollowedBy (Derives .expression) follow) follow (expression parser) :=
  recognises_expression _ follow (Nat.lt_succ_self _) held live delimits.not_resumes

theorem reading_value {γ : Type} {follow : Tree → Words γ} {parser : Parser}
    (build : Tree → Tree) (held : parser.current.Scanned) (live : Live follow)
    (delimits : Delimits follow) :
    Reading parser (FollowedBy (Derives .expression) fun value => follow (build value)) follow
      ((expression >>= fun value => pure (build value) : Parse Tree) parser) := by
  have value := reading_expression held (fun value => live (build value)) fun value =>
    delimits (build value)
  refine Reading.bind held value fun value final _ _ => ?_
  exact reading_return

theorem next_of_advance {after : Parser} {token : Token} (h : advance parser = .ok token after) :
    parser.scanner.next = .ok after.current after.scanner := by
  unfold advance at h
  split at h
  · rename_i scanned
    cases h
    exact scanned
  · cases h

theorem reading_declaration (held : parser.current.Scanned) (live : Live follow)
    (delimits : Delimits follow) (reserved : parser.current.kind = .keyword)
    (var : parser.current.lexeme = "var") :
    Reading parser (FollowedBy Statement follow) follow (declaration parser) := by
  have live₁ (name equals : Token) := exists_followedBy .expression fun value =>
    live (.declaration name equals value)
  have live₂ (name : Token) := exists_lead .equal (live₁ name)
  obtain ⟨rest, result, word⟩ := exists_lead .identifier live₂
  have word := (followedBy_statement_var reserved var).mpr word
  refine Reading.expect_bind reserved held word fun between _ held => ?_
  have name : Reading between _ _ (expect .identifier between) := reading_expect live₂
  refine Reading.bind held (name.widen (fun _ _ => (followedBy_statement_var reserved var).mpr)
    fun _ _ _ => (followedBy_statement_var reserved var).mp) fun name middle _ held => ?_
  refine Reading.bind held (reading_expect (live₁ name)) fun equals beyond _ held => ?_
  exact reading_value (.declaration name equals) held live delimits

theorem kind_behind_name {category : Category} (delimits : Delimits follow) {name token : Token}
    {rest : List Token} {result : β} (named : name.kind = .identifier)
    (h : FollowedBy (Derives category) follow (name :: token :: rest) result) :
    token.kind ≠ .equal ∧ token.kind ≠ .integer := by
  rcases followedBy_name named h with h | ⟨_, _, same, resumes⟩
  · rcases delimits _ _ _ _ h with kind | kind <;> simp [kind]
  · obtain ⟨rfl, rfl⟩ := List.cons.inj same
    obtain ⟨_, _, joins⟩ := joins_of_resumes resumes
    generalize token.kind = kind at joins
    cases joins <;> simp

theorem reading_assignment (held : parser.current.Scanned) (live : Live follow)
    (delimits : Delimits follow) (named : parser.current.kind = .identifier)
    (seen : parser.scanner.peek 0 = some '=')
    (clear : parser.Misled → ∀ tree result, ¬follow tree [] result) :
    Reading parser (FollowedBy Statement follow) follow (assignment parser) := by
  have live₁ (equals : Token) := exists_followedBy .expression fun value =>
    live (.assignment parser.current equals value)
  obtain ⟨rest, result, word⟩ := exists_lead .equal live₁
  have word := (followedBy_statement_name named).mpr (.inl word)
  refine Reading.expect_bind named held word fun between taken held => ?_
  have scanned := next_of_advance taken
  rcases Scanner.kind_of_peek scanned seen with equal | integer
  · have value (rest : List Token) (result : β) :
        FollowedBy Statement follow (parser.current :: between.current :: rest) result ↔
          FollowedBy (Derives .expression)
            (fun value => follow (.assignment parser.current between.current value))
            rest result := by
      rw [followedBy_statement_name named, lead_cons, and_iff_right equal]
      exact or_iff_left fun h => (kind_behind_name delimits named h).1 equal
    obtain ⟨rest, result, word⟩ := live₁ between.current
    refine Reading.expect_bind equal held ((value _ _).mpr word) fun beyond _ held => ?_
    exact (reading_value _ held live delimits).widen (fun _ _ => (value _ _).mpr)
      fun _ _ _ => (value _ _).mp
  · -- An integer stands where the `=` is looked for, so no word goes on here.
    have misled : parser.Misled := ⟨named, seen, _, _, scanned, integer⟩
    obtain ⟨rest, result, word⟩ := live₁ ⟨.equal, "=", ⟨0, 1⟩⟩
    have legal := (followedBy_statement_name named).mpr (.inl (lead_cons.mpr ⟨rfl, word⟩))
    have refused : expect .equal between = .error (between.unexpected .equal) between := by
      rw [expect, if_neg (by simp [integer])]
    show Reading between _ follow (EStateM.bind (expect .equal) _ between)
    unfold EStateM.bind
    rw [refused]
    refine reading_refuse ⟨.equal, "=", ⟨0, 1⟩⟩ ?_ legal
    intro rest result ahead h
    rcases (followedBy_statement_name named).mp h with ⟨token, _, rfl, equal, _⟩ | h
    · rw [ahead_cons.mp ahead] at equal
      cases integer.symm.trans equal
    · cases rest with
      | nil =>
        rcases followedBy_name named h with h | ⟨_, _, same, _⟩
        · exact clear misled _ _ h
        · cases same
      | cons token rest =>
        rw [ahead_cons.mp ahead] at h
        exact (kind_behind_name delimits named h).2 integer

theorem reading_expression_of_name (held : parser.current.Scanned) (live : Live follow)
    (delimits : Delimits follow) (named : parser.current.kind = .identifier)
    (unseen : parser.scanner.peek 0 ≠ some '=') :
    Reading parser (FollowedBy Statement follow) follow (expression parser) := by
  obtain ⟨taken, outcome⟩ := reading_expression held live delimits
  obtain ⟨rest, result, word⟩ := live (.identifier parser.current)
  have viable : FollowedBy (Derives .expression) follow (parser.current :: rest) result :=
    ⟨[parser.current], rest, _, rfl, .single (.single (.name named)), word⟩
  have sub (word : List Token) (result : β)
      (h : FollowedBy (Derives .expression) follow word result) :
      FollowedBy Statement follow word result := followedBy_statement.mpr (.inr (.inr h))
  have back {after : Parser} {rest : List Token} {result : β} (some_taken : taken ≠ [])
      (consumes : parser.Consumes taken after) (ahead : Ahead after.current rest)
      (h : FollowedBy Statement follow (taken ++ rest) result) :
      FollowedBy (Derives .expression) follow (taken ++ rest) result := by
    have first := consumes.ahead ahead
    cases taken with
    | nil => exact absurd rfl some_taken
    | cons token more =>
      obtain rfl := ahead_cons.mp first
      rcases (followedBy_statement_name named).mp h with ⟨equals, _, split, equal, _⟩ | h
      · obtain ⟨scanner, scanned⟩ := consumes.next ahead split
        exact absurd (Scanner.peek_of_equal scanned equal) unseen
      · exact h
  refine ⟨taken, ?_⟩
  generalize expression parser = ending at outcome ⊢
  cases outcome with
  | reads consumes sound complete =>
    have some_taken : taken ≠ [] := by
      rintro rfl
      obtain rfl := consumes_nil_iff.mp consumes
      have h := complete _ _ (ahead_cons.mpr rfl) viable
      rcases delimits _ _ _ _ h with kind | kind <;> cases named.symm.trans kind
    exact .reads consumes (fun rest result h => sub _ _ (sound rest result h))
      fun rest result ahead h => complete rest result ahead (back some_taken consumes ahead h)
  | refuses consumes dead legal =>
    have some_taken : taken ≠ [] := by
      rintro rfl
      obtain rfl := consumes_nil_iff.mp consumes
      exact dead _ _ (ahead_cons.mpr rfl) viable
    exact .refuses consumes
      (fun rest result ahead h => dead rest result ahead (back some_taken consumes ahead h))
      (sub _ _ legal)
  | breaks consumes scanned legal => exact .breaks consumes scanned (sub _ _ legal)

/-- A statement reads the statements of the grammar, unless it is misled where it might end. -/
theorem reading_statement (held : parser.current.Scanned) (live : Live follow)
    (delimits : Delimits follow) (clear : parser.Misled → ∀ tree result, ¬follow tree [] result) :
    Reading parser (FollowedBy Statement follow) follow (statement parser) := by
  unfold statement
  rw [get_bind]
  by_cases var : parser.current.isKeyword "var" = true
  · rw [if_pos var]
    simp only [Token.isKeyword, Bool.and_eq_true, decide_eq_true_eq] at var
    exact reading_declaration held live delimits var.1 var.2
  · rw [if_neg var]
    by_cases assigned : parser.current.kind = .identifier ∧ parser.scanner.peek 0 = some '='
    · rw [if_pos assigned]
      exact reading_assignment held live delimits assigned.1 assigned.2 clear
    · rw [if_neg assigned]
      by_cases named : parser.current.kind = .identifier
      · exact reading_expression_of_name held live delimits named fun seen =>
          assigned ⟨named, seen⟩
      · refine (reading_expression held live delimits).widen
          (fun _ _ h => followedBy_statement.mpr (.inr (.inr h))) ?_
        intro word result ahead h
        rcases followedBy_statement.mp h with ⟨token, _, rfl, reserved, lexeme, _⟩ |
          ⟨token, _, rfl, kind, _⟩ | h
        · obtain rfl := ahead_cons.mp ahead
          exact absurd (by simp [Token.isKeyword, reserved, lexeme]) var
        · obtain rfl := ahead_cons.mp ahead
          exact absurd kind named
        · exact h

/-! ### Programs -/

theorem not_statement_at_end {rest : List Token} {result : β}
    (atEnd : parser.current.kind = .endOfInput) (ahead : Ahead parser.current rest) :
    ¬FollowedBy Statement follow rest result := by
  rintro ⟨before, behind, tree, rfl, statement, _⟩
  cases before with
  | nil => exact ne_nil_of_statement statement rfl
  | cons token before =>
    rw [List.cons_append, ahead_cons] at ahead
    exact kind_ne_of_statement statement token (by simp) (ahead ▸ atEnd)

theorem live_afterStatement (read : List Tree → β) : Live (AfterStatement read) := fun tree =>
  ⟨[.atEnd 0], read [tree], .inl ⟨_, rfl, rfl, rfl⟩⟩

theorem delimits_afterStatement (read : List Tree → β) : Delimits (AfterStatement read) := by
  rintro tree token rest result (⟨_, same, ends, _⟩ | h)
  · obtain ⟨rfl, _⟩ := List.cons.inj same
    exact .inr ends
  · exact .inl (lead_cons.mp h).1

theorem not_afterStatement_nil {read : List Tree → β} {tree : Tree} {result : β} :
    ¬AfterStatement read tree [] result := by
  rintro (⟨_, same, _⟩ | h)
  · cases same
  · exact not_lead_nil h

/-- The statements of a program read the programs of the grammar, up to the end of the input. -/
theorem reading_statements (read : List Tree → β) (held : parser.current.Scanned) :
    Reading parser (ProgramAs read) (fun trees => Ends (read trees)) (statements parser) := by
  induction size : parser.unread using Nat.strongRecOn generalizing parser read with
  | ind size ih =>
    rw [statements_eq]
    unfold statementsFrom
    rw [get_bind]
    by_cases atEnd : parser.current.kind = .endOfInput
    · rw [if_pos atEnd]
      refine reading_pure (fun _ _ h => programAs_iff.mpr (.inl h)) fun rest result ahead h => ?_
      exact (programAs_iff.mp h).resolve_right (not_statement_at_end atEnd ahead)
    · rw [if_neg atEnd]
      have first := reading_statement held (live_afterStatement read) (delimits_afterStatement read)
        fun _ _ _ => not_afterStatement_nil
      have first : Reading parser (ProgramAs read) (AfterStatement read) (statement parser) := by
        refine first.widen (fun _ _ h => programAs_iff.mpr (.inr h)) fun word result ahead h => ?_
        refine (programAs_iff.mp h).resolve_left ?_
        rintro ⟨final, rfl, ends, _⟩
        exact atEnd (ahead_cons.mp ahead ▸ ends)
      refine Reading.bind held first fun tree middle took held => ?_
      have less := takes_statement took
      rw [get_bind]
      by_cases atEnd : middle.current.kind = .endOfInput
      · rw [if_pos atEnd]
        refine reading_pure (fun _ _ h => .inl h) fun rest result ahead h => ?_
        refine h.resolve_right ?_
        rintro ⟨separator, _, rfl, separates, _⟩
        rw [ahead_cons.mp ahead] at separates
        cases atEnd.symm.trans separates
      · rw [if_neg atEnd]
        have live : ∃ rest result, ProgramAs (fun trees => read (tree :: trees)) rest result :=
          ⟨[.atEnd 0], _, [], .empty rfl, rfl⟩
        have separator : Reading middle (AfterStatement read tree)
            (fun _ => ProgramAs fun trees => read (tree :: trees)) (expect .semicolon middle) := by
          refine Reading.widen (reading_expect fun _ => live) (fun _ _ h => .inr h) ?_
          intro word result ahead h
          refine h.resolve_left ?_
          rintro ⟨final, rfl, ends, _⟩
          exact atEnd (ahead_cons.mp ahead ▸ ends)
        refine Reading.bind held separator fun token beyond taken held => ?_
        have := takes_expect (by decide) taken
        have others := ih beyond.unread (by omega) (fun trees => read (tree :: trees)) held rfl
        refine Reading.bind held others fun trees final _ _ => ?_
        exact reading_pure (fun _ _ h => h) fun _ _ _ h => h

theorem atEnd_of_statements {after : Parser} {trees : List Tree}
    (h : statements parser = .ok trees after) : after.current.kind = .endOfInput := by
  induction size : parser.unread using Nat.strongRecOn generalizing parser trees with
  | ind size ih =>
    rw [statements_eq] at h
    unfold statementsFrom at h
    rw [get_bind] at h
    by_cases atEnd : parser.current.kind = .endOfInput
    · rw [if_pos atEnd] at h
      cases h
      exact atEnd
    · rw [if_neg atEnd] at h
      obtain ⟨tree, middle, took, h⟩ := bind_eq_ok.mp h
      rw [get_bind] at h
      by_cases atEnd : middle.current.kind = .endOfInput
      · rw [if_pos atEnd] at h
        cases h
        exact atEnd
      · rw [if_neg atEnd] at h
        obtain ⟨separator, beyond, taken, h⟩ := bind_eq_ok.mp h
        obtain ⟨others, final, rest, h⟩ := bind_eq_ok.mp h
        cases h
        have := takes_statement took
        have := takes_expect (by decide) taken
        exact ih beyond.unread (by omega) rest rfl

end

end Calculator.Parser
