import Calculator.Proofs.Provenance

/-!
# The longest statement

Whatever calls came before, a statement that is read takes as many of the tokens from the one in
hand on as any statement can have, and leaves the one behind them in hand: `longest_of_statement`.
So it ends in front of a second operator of one level.
-/

namespace Calculator

namespace Grammar

section
variable {β : Type} {category : Category} {level : Operator.Level} {operator other : Operator}
  {token second : Token} {tokens before behind rest : List Token} {tree left right : Tree}
  {follow : Tree → Words β} {result : β}

/-- The tokens do not go on with a word of the category in front of them. -/
def Stops (category : Category) (tokens : List Token) : Prop :=
  ∀ token ∈ tokens.head?, ¬Resumes category token.kind

theorem stops_cons : Stops category (token :: rest) ↔ ¬Resumes category token.kind := by
  simp [Stops]

theorem stops_of_chain (h : Stops (.chain level) rest) : Stops (Category.operand level) rest :=
  fun token head resumes => h token head (.inside resumes)

theorem stops_factor (rest : List Token) : Stops .factor rest :=
  fun _ _ => not_resumes_factor

/-- Where a word ends, it is the only one of its category that the tokens begin with. -/
theorem follow_of_derives (h : Derives category tokens tree) (apart : Apart category follow)
    (stops : Stops category rest)
    (word : FollowedBy (Derives category) follow (tokens ++ rest) result) :
    follow tree rest result := by
  induction h generalizing follow rest with
  | literal kind read => exact (followedBy_factor_integer kind read).mp word
  | name kind => exact (followedBy_factor_identifier kind).mp word
  | @group _ closing inside _ opens _ closes ih =>
    have neither : ∀ level operator, ¬Joins level .rightParen operator := by rintro _ _ ⟨⟩
    have split : inside ++ [closing] ++ rest = inside ++ closing :: rest := by simp
    have inner := (followedBy_factor_leftParen opens).mp word
    rw [List.append_eq, split] at inner
    have stops : Stops .expression (closing :: rest) := by
      rw [stops_cons, closes]
      intro resumes
      obtain ⟨level, operator, joins⟩ := joins_of_resumes resumes
      exact neither level operator joins
    exact (lead_cons.mp (ih (apart_lead neither) stops inner)).2
  | signed signs _ ih =>
    exact ih (fun _ _ _ _ _ => not_resumes_factor) (stops_factor rest)
      ((followedBy_factor_sign signs).mp word)
  | single _ ih =>
    rw [followedBy_chain] at word
    rcases ih apart.joined (stops_of_chain stops) word with h | ⟨_, _, _, rfl, joins, _⟩
    · exact h
    · exact absurd (.here joins) (stops_cons.mp stops)
  | @pair level token operator before behind left right _ joins _ first second =>
    have split : before ++ token :: behind ++ rest = before ++ token :: (behind ++ rest) := by simp
    rw [split, followedBy_chain] at word
    have joined := first apart.joined (stops_cons.mpr (not_resumes_operand joins)) word
    rw [Parser.joined_cons joins fun h => apart _ _ _ _ h (.here joins)] at joined
    exact second (fun _ _ _ _ h resumes => apart _ _ _ _ h (.inside resumes))
      (stops_of_chain stops) joined

/-- A level takes one operator, so no word goes on with a second one. -/
theorem not_followedBy_of_joins (first : Derives (Category.operand level) before left)
    (joins : Joins level token.kind operator) (last : Derives (Category.operand level) behind right)
    (joins' : Joins level second.kind other) (apart : Apart (.chain level) follow) :
    ¬FollowedBy (Derives (.chain level)) follow (before ++ token :: (behind ++ second :: rest))
      result := by
  intro word
  have stops {kind : Token.Kind} {operator : Operator} (joins : Joins level kind operator) :
      ¬Resumes (Category.operand level) kind := not_resumes_operand joins
  rw [followedBy_chain] at word
  have joined := follow_of_derives first apart.joined (stops_cons.mpr (stops joins)) word
  rw [Parser.joined_cons joins fun h => apart _ _ _ _ h (.here joins)] at joined
  have h := follow_of_derives last
    (fun _ _ _ _ h resumes => apart _ _ _ _ h (.inside resumes)) (stops_cons.mpr (stops joins'))
    joined
  exact apart _ _ _ _ h (.here joins')

/-- Two operands have two tokens at least, and what stands behind a name is no part of a binding. -/
theorem begins_of_pair (first : Derives (Category.operand level) before left)
    (joins : Joins level token.kind operator)
    (last : Derives (Category.operand level) behind right) :
    ∃ head next more, before ++ token :: behind = head :: next :: more ∧ Begins head.kind ∧
      (head.kind = .identifier → next.kind ≠ .equal ∧ next.kind ≠ .integer) := by
  have whole : Derives (.chain level) (before ++ token :: behind) _ := .pair first joins last
  have two : ∃ head next more, before ++ token :: behind = head :: next :: more ∧
      Begins head.kind := by
    obtain ⟨head, more, rfl, begins⟩ := begins_of_derives first
    cases more with
    | nil => exact ⟨head, token, behind, rfl, begins⟩
    | cons next more => exact ⟨head, next, more ++ token :: behind, rfl, begins⟩
  obtain ⟨head, next, more, split, begins⟩ := two
  rw [split] at whole
  exact ⟨head, next, more, split, begins, fun named =>
    Parser.kind_behind_name Parser.delimits_alone named
      ⟨_, [], _, (List.append_nil _).symm, whole, rfl, rfl⟩⟩

theorem not_opensStatement_of_joins (first : Derives (Category.operand level) before left)
    (joins : Joins level token.kind operator) (last : Derives (Category.operand level) behind right)
    (joins' : Joins level second.kind other) :
    ¬OpensStatement (before ++ token :: behind ++ [second]) := by
  rintro ⟨rest, tree, statement⟩
  obtain ⟨head, next, more, split, begins, behindName⟩ := begins_of_pair first joins last
  generalize word : before ++ token :: behind ++ [second] ++ rest = tokens at statement
  cases statement with
  | declaration reserved =>
    rw [split] at word
    obtain ⟨rfl, _⟩ := List.cons.inj word
    simp [Begins, reserved] at begins
  | assignment named assigned =>
    rw [split] at word
    obtain ⟨rfl, others⟩ := List.cons.inj word
    obtain ⟨rfl, _⟩ := List.cons.inj others
    exact (behindName named).1 assigned
  | expression inner =>
    have alone {category : Category} : Apart category Parser.Alone :=
      Parser.delimits_alone.not_resumes
    have whole : FollowedBy (Derives .expression) Parser.Alone tokens tree :=
      ⟨_, [], tree, (List.append_nil _).symm, inner, rfl, rfl⟩
    have split : tokens = before ++ token :: (behind ++ second :: rest) := by simp [← word]
    rw [split] at whole
    cases level with
    | additive => exact not_followedBy_of_joins first joins last joins' alone whole
    | multiplicative =>
      rw [followedBy_chain] at whole
      have apart : Apart .term (Joined .additive Parser.Alone) := Apart.joined alone
      exact not_followedBy_of_joins first joins last joins' apart whole

end

end Grammar

namespace Parser
open Grammar

section
variable {parser after : Parser} {taken longer : List Token}

/-- The tokens are the first ones from the one in hand on. -/
def Meets (parser : Parser) (tokens : List Token) : Prop :=
  ∃ pulled final, parser.scanner.Yields pulled final ∧ tokens <+: parser.current :: pulled

theorem Meets.extends (meets : parser.Meets longer) (consumes : parser.Consumes taken after)
    (more : taken.length < longer.length) : ∃ rest, longer = taken ++ after.current :: rest := by
  obtain ⟨pulled, final, run, begins⟩ := meets
  obtain ⟨pulled', run', same⟩ := consumes
  have common : ∃ all, longer <+: all ∧ taken ++ [after.current] <+: all := by
    rcases run.prefix_or_prefix run' with ⟨rest, rfl, _⟩ | ⟨rest, rfl, _⟩
    · refine ⟨_, begins.trans (List.prefix_append _ rest), ?_⟩
      rw [← same]
      exact List.prefix_rfl
    · refine ⟨_, begins, ?_⟩
      rw [← same]
      exact List.prefix_append _ rest
  obtain ⟨all, left, right⟩ := common
  obtain ⟨rest, rfl⟩ := List.prefix_of_prefix_length_le right left (by simp; omega)
  exact ⟨rest, by simp⟩

theorem longest_of_read {result : Tree} (held : parser.current.Scanned)
    (h : statement parser = .ok result after) :
    ∃ taken, taken ≠ [] ∧ Statement taken result ∧ parser.Consumes taken after ∧
      ∀ longer other, parser.Meets longer → taken.length < longer.length →
        ¬Statement longer other := by
  obtain ⟨taken, consumes, whole, ends⟩ := statement_eq_ok held h
  refine ⟨taken, ne_nil_of_statement whole, whole, consumes, ?_⟩
  intro longer other meets more statement
  obtain ⟨rest, rfl⟩ := meets.extends consumes more
  have none := ends _ other (ahead_cons.mpr rfl) statement
  cases none

theorem statement_of_joins {level : Operator.Level} {operator other : Operator}
    {before behind : List Token} {token : Token} {left right : Tree}
    (held : parser.current.Scanned) (first : Derives (Category.operand level) before left)
    (joins : Joins level token.kind operator) (last : Derives (Category.operand level) behind right)
    (joins' : Joins level after.current.kind other)
    (consumes : parser.Consumes (before ++ token :: behind) after) :
    statement parser = .ok (.binary operator token left right) after := by
  have whole : Derives (.chain level) (before ++ token :: behind) _ := .pair first joins last
  have clear : ¬parser.Misled := by
    rintro ⟨named, _, second, beyond, next, integer⟩
    obtain ⟨head, third, more, split, _, behindName⟩ := begins_of_pair first joins last
    have taken := consumes
    rw [split] at taken
    obtain rfl : head = parser.current := ahead_cons.mp (taken.ahead (ahead_nil _))
    obtain ⟨scanner, scanned⟩ := taken.next (ahead_nil _) (List.append_nil _)
    cases next.symm.trans scanned
    exact (behindName named).2 integer
  exact statement_eq_ok_of_clear held clear consumes (.expression (expression_of_chain whole))
    (not_opensStatement_of_joins first joins last joins')

/-- A statement that is read is the longest one, and the token behind it is in hand. In particular
it ends behind two operands if another operator of the same level stands there. -/
theorem longest_of_statement {source : String} (reachable : Reachable source parser) :
    (∀ result after, tree .statement parser = .ok result after →
      ∃ taken, taken ≠ [] ∧ Statement taken result ∧ parser.Consumes taken after ∧
        ∀ longer other, parser.Meets longer → taken.length < longer.length →
          ¬Statement longer other) ∧
    ∀ level before left token operator behind right other after,
      Derives (Category.operand level) before left → Joins level token.kind operator →
      Derives (Category.operand level) behind right → Joins level after.current.kind other →
      parser.Consumes (before ++ token :: behind) after →
      tree .statement parser = .ok (.binary operator token left right) after := by
  have held := reachable.scanned
  constructor
  · intro result after h
    exact longest_of_read held h
  · intro level before left token operator behind right other after first joins last joins' consumes
    exact statement_of_joins held first joins last joins' consumes

/-- A call has failed at a number out of range, and the name in front of it is still in hand. The
next call assigns to that name, and leaves the second sign. -/
theorem longest_of_statement_behind_fault :
    ∃ after, Reachable "x 9223372036854775808 = 1 + 2 - 3"
        ⟨⟨" = 1 + 2 - 3".toList, 21⟩, ⟨.identifier, "x", ⟨0, 1⟩⟩⟩ ∧
      tree .statement ⟨⟨" = 1 + 2 - 3".toList, 21⟩, ⟨.identifier, "x", ⟨0, 1⟩⟩⟩ =
        .ok (.assignment ⟨.identifier, "x", ⟨0, 1⟩⟩ ⟨.equal, "=", ⟨22, 23⟩⟩
          (.binary .add ⟨.plus, "+", ⟨26, 27⟩⟩ (.literal 1 ⟨.integer, "1", ⟨24, 25⟩⟩)
            (.literal 2 ⟨.integer, "2", ⟨28, 29⟩⟩))) after ∧
      after.current = ⟨.minus, "-", ⟨30, 31⟩⟩ ∧
      ∃ taken, Consumes ⟨⟨" = 1 + 2 - 3".toList, 21⟩, ⟨.identifier, "x", ⟨0, 1⟩⟩⟩ taken after ∧
        ∀ longer other, Meets ⟨⟨" = 1 + 2 - 3".toList, 21⟩, ⟨.identifier, "x", ⟨0, 1⟩⟩⟩ longer →
          taken.length < longer.length → ¬Statement longer other := by
  have opened : ofSource "x 9223372036854775808 = 1 + 2 - 3" = .ok
      ⟨⟨" 9223372036854775808 = 1 + 2 - 3".toList, 1⟩, ⟨.identifier, "x", ⟨0, 1⟩⟩⟩ := rfl
  have failed : tree .statement
      ⟨⟨" 9223372036854775808 = 1 + 2 - 3".toList, 1⟩, ⟨.identifier, "x", ⟨0, 1⟩⟩⟩ =
        .error ⟨.malformedInteger "9223372036854775808", ⟨2, 21⟩⟩
          ⟨⟨" = 1 + 2 - 3".toList, 21⟩, ⟨.identifier, "x", ⟨0, 1⟩⟩⟩ := rfl
  have read : tree .statement ⟨⟨" = 1 + 2 - 3".toList, 21⟩, ⟨.identifier, "x", ⟨0, 1⟩⟩⟩ =
      .ok _ _ := rfl
  have reachable := Reachable.failed (.opened opened) failed
  obtain ⟨taken, _, _, consumes, longest⟩ := (longest_of_statement reachable).1 _ _ read
  exact ⟨_, reachable, read, rfl, taken, consumes, longest⟩

end

end Parser

end Calculator
