import Calculator.Proofs.Acceptance

/-!
# Tokens behind a statement

A statement ends in front of the first token that cannot go on with it.
`ofSource_statement_eq_ok_iff` says when its tree is what reading the text gives, whatever comes
behind that token: always, unless the statement is a name alone that `SeemsAssigned`.
-/

namespace Calculator.Parser
open Grammar

/-- A name alone, with an `=` ahead of the white space and the digits behind it. -/
def SeemsAssigned (statement : List Token) (behind : Scanner) : Prop :=
  (∃ name, statement = [name] ∧ name.kind = .identifier) ∧ behind.peek 0 = some '='

section
variable {parser : Parser} {start middle after : Scanner} {tokens more : List Token} {token : Token}
  {tree : Tree}

/-- The tree of a statement, with nothing behind it. -/
def Alone (tree : Tree) : Words Tree := fun rest result =>
  rest = [] ∧ result = tree

theorem followedBy_alone {result : Tree} :
    FollowedBy Statement Alone tokens result ↔ Statement tokens result := by
  constructor
  · rintro ⟨before, _, tree, rfl, statement, rfl, rfl⟩
    rwa [List.append_nil]
  · intro statement
    exact ⟨tokens, [], result, (List.append_nil tokens).symm, statement, rfl, rfl⟩

theorem delimits_alone : Delimits Alone := by
  rintro tree token rest result ⟨same, _⟩
  cases same

theorem reading_alone (held : parser.current.Scanned) (clear : ¬parser.Misled) :
    Reading parser Statement Alone (statement parser) := by
  have live : Live Alone := fun tree => ⟨[], tree, rfl, rfl⟩
  refine (reading_statement held live delimits_alone fun misled => absurd misled clear).widen ?_ ?_
  · intro word result h
    exact followedBy_alone.mp h
  · intro word result _ h
    exact followedBy_alone.mpr h

theorem statement_eq_ok_of_clear {parser between : Parser} (held : parser.current.Scanned)
    (clear : ¬parser.Misled) (consumes : parser.Consumes tokens between)
    (derived : Statement tokens tree) (stops : ¬OpensStatement (tokens ++ [between.current])) :
    statement parser = .ok tree between := by
  have longer {rest : List Token} {tree : Tree} :
      ¬Statement (tokens ++ between.current :: rest) tree := by
    intro h
    exact stops ⟨rest, tree, by simpa using h⟩
  obtain ⟨taken, outcome⟩ := reading_alone held clear
  generalize statement parser = ending at outcome ⊢
  cases outcome with
  | @reads value final reads sound complete =>
    have whole : Statement taken value := by
      have h := sound [] value ⟨rfl, rfl⟩
      rwa [List.append_nil] at h
    rcases consumes.compare reads with ⟨rfl, rfl⟩ | ⟨rest, rfl, _⟩ | ⟨rest, rfl, _⟩
    · obtain ⟨_, rfl⟩ := complete [] tree (ahead_nil _) (by rwa [List.append_nil])
      rfl
    · exact absurd whole longer
    · obtain ⟨same, _⟩ := complete _ tree (ahead_cons.mpr rfl) derived
      cases same
  | @refuses final other rest result reads dead legal =>
    rcases consumes.compare reads with ⟨rfl, _⟩ | ⟨rest, rfl, _⟩ | ⟨rest, rfl, _⟩
    · exact absurd (by rwa [List.append_nil]) (dead [] tree (ahead_nil _))
    · rw [List.append_assoc] at legal
      exact absurd legal longer
    · exact absurd derived (dead _ tree (ahead_cons.mpr rfl))
  | breaks reads scanned legal =>
    rcases consumes.compare reads with ⟨rfl, rfl⟩ | ⟨rest, rfl, _⟩ | ⟨rest, rfl, pulled, goes, same⟩
    · exact absurd legal longer
    · rw [List.append_assoc] at legal
      exact absurd legal longer
    · -- The scanner goes on where it is said to fail.
      obtain ⟨_, rfl⟩ := List.cons.inj same
      obtain ⟨_, _, scanned'⟩ := goes.next_of_ne_nil (by simp)
      cases scanned.symm.trans scanned'

theorem statement_eq_error_of_misled (named : parser.current.kind = .identifier)
    (seen : parser.scanner.peek 0 = some '=') (next : parser.scanner.next = .ok token after)
    (integer : token.kind = .integer) :
    statement parser = .error ⟨.unexpectedToken .integer .equal, token.span⟩ ⟨after, token⟩ := by
  have plain : ¬parser.current.isKeyword "var" = true := by
    simp [Token.isKeyword, named]
  have taken : expect .identifier parser = .ok parser.current ⟨after, token⟩ := by
    rw [expect_of_kind named, advance, next]
  have refused : expect .equal ⟨after, token⟩ =
      .error ⟨.unexpectedToken .integer .equal, token.span⟩ ⟨after, token⟩ := by
    rw [expect, if_neg (by simp [integer]), unexpected, integer]
  unfold statement
  rw [get_bind, if_neg plain, if_pos ⟨named, seen⟩]
  unfold assignment
  rw [bind_of_ok taken, bind_of_error refused]

theorem not_opensStatement_of_integer {name : Token} {rest : List Token}
    (named : name.kind = .identifier) (integer : token.kind = .integer) :
    ¬OpensStatement (name :: token :: rest) := by
  rintro ⟨others, tree, h⟩
  rcases (followedBy_statement_name named).mp (followedBy_alone.mpr h) with h | h
  · cases integer.symm.trans (lead_cons.mp h).1
  · exact (kind_behind_name delimits_alone named h).2 integer

theorem opensStatement_of_equal {name : Token} (named : name.kind = .identifier)
    (equal : token.kind = .equal) : OpensStatement [name, token] :=
  ⟨[zero], _, .assignment named equal (.single (.single (.literal rfl rfl)))⟩

theorem misled_iff_seemsAssigned (parser : Parser) (run : parser.scanner.Yields more middle)
    (next : middle.next = .ok token after) (derived : Statement (parser.current :: more) tree)
    (stops : ¬OpensStatement (parser.current :: more ++ [token])) :
    parser.Misled ↔ SeemsAssigned (parser.current :: more) middle := by
  constructor
  · rintro ⟨named, seen, second, _, scanned, integer⟩
    cases run with
    | nil => exact ⟨⟨_, rfl, named⟩, seen⟩
    | cons scanned' _ =>
      cases scanned.symm.trans scanned'
      have opens : OpensStatement _ := ⟨[], tree, by rwa [List.append_nil]⟩
      exact absurd opens (not_opensStatement_of_integer named integer)
  · rintro ⟨⟨name, single, named⟩, seen⟩
    obtain ⟨rfl, rfl⟩ := List.cons.inj single
    cases run
    rcases Scanner.kind_of_peek next seen with equal | integer
    · exact absurd (opensStatement_of_equal named equal) stops
    · exact ⟨named, seen, token, after, next, integer⟩

end

/-! ### Reading a statement -/

section
variable {source : String} {middle after : Scanner} {tokens : List Token} {token : Token}
  {tree : Tree}

theorem ofSource_of_yields {first : Token} {rest : List Token}
    (run : (Scanner.ofSource source).Yields (first :: rest) middle) :
    ∃ scanner, ofSource source = .ok ⟨scanner, first⟩ ∧ scanner.Yields rest middle := by
  obtain ⟨scanner, scanned, more⟩ := Scanner.yields_cons_iff.mp run
  refine ⟨scanner, ?_, more⟩
  rw [ofSource, scanned]

theorem ofSource_statement_of_not_seemsAssigned
    (run : (Scanner.ofSource source).Yields tokens middle) (next : middle.next = .ok token after)
    (derived : Statement tokens tree) (stops : ¬OpensStatement (tokens ++ [token]))
    (clear : ¬SeemsAssigned tokens middle) : Tree.ofSource .statement source = .ok tree := by
  obtain ⟨first, rest, rfl⟩ := List.exists_cons_of_ne_nil (ne_nil_of_statement derived)
  obtain ⟨scanner, opened, more⟩ := ofSource_of_yields run
  rw [← misled_iff_seemsAssigned ⟨scanner, first⟩ more next derived stops] at clear
  have consumes : Consumes ⟨scanner, first⟩ (first :: rest) ⟨after, token⟩ :=
    ⟨rest ++ [token], Scanner.yields_append_iff.mpr
      ⟨middle, more, Scanner.yields_singleton_iff.mpr next⟩, rfl⟩
  have read := statement_eq_ok_of_clear (ofSource_eq_ok opened).2 clear consumes derived stops
  rw [tree_ofSource_of_ok opened, Parser.tree, read]

theorem ofSource_statement_of_seemsAssigned
    (run : (Scanner.ofSource source).Yields tokens middle) (next : middle.next = .ok token after)
    (derived : Statement tokens tree) (stops : ¬OpensStatement (tokens ++ [token]))
    (seems : SeemsAssigned tokens middle) :
    Tree.ofSource .statement source = .error ⟨.unexpectedToken .integer .equal, token.span⟩ := by
  obtain ⟨first, rest, rfl⟩ := List.exists_cons_of_ne_nil (ne_nil_of_statement derived)
  obtain ⟨scanner, opened, more⟩ := ofSource_of_yields run
  have misled := (misled_iff_seemsAssigned ⟨scanner, first⟩ more next derived stops).mpr seems
  obtain ⟨named, seen, second, beyond, scanned, integer⟩ := misled
  obtain ⟨⟨_, single, _⟩, _⟩ := seems
  obtain ⟨rfl, rfl⟩ := List.cons.inj single
  cases more
  cases next.symm.trans scanned
  rw [tree_ofSource_of_ok opened, Parser.tree,
    statement_eq_error_of_misled named seen scanned integer]

theorem ofSource_statement_of_complete (run : (Scanner.ofSource source).Yields tokens middle)
    (next : middle.next = .ok token after) (ends : token.kind = .endOfInput)
    (derived : Statement tokens tree) : Tree.ofSource .statement source = .ok tree := by
  have stops : ¬OpensStatement (tokens ++ [token]) := by
    rintro ⟨rest, tree, h⟩
    exact kind_ne_of_statement h token (by simp) ends
  refine ofSource_statement_of_not_seemsAssigned run next derived stops ?_
  rintro ⟨_, seen⟩
  rcases Scanner.kind_of_peek next seen with equal | integer
  · cases ends.symm.trans equal
  · cases ends.symm.trans integer

/-- In front of a token that cannot go on with a statement, the statement is what is read, unless it
seems to be assigned. In that case it is refused for want of the `=` that is further ahead. -/
theorem ofSource_statement_eq_ok_iff (run : (Scanner.ofSource source).Yields tokens middle)
    (next : middle.next = .ok token after) (derived : Statement tokens tree)
    (stops : ¬OpensStatement (tokens ++ [token])) :
    (Tree.ofSource .statement source = .ok tree ↔ ¬SeemsAssigned tokens middle) ∧
      (SeemsAssigned tokens middle → Tree.ofSource .statement source =
        .error ⟨.unexpectedToken .integer .equal, token.span⟩) := by
  have refused := ofSource_statement_of_seemsAssigned run next derived stops
  refine ⟨⟨fun read seems => ?_, ?_⟩, refused⟩
  · cases read.symm.trans (refused seems)
  · exact ofSource_statement_of_not_seemsAssigned run next derived stops

theorem statement_of_name {name : Token} (named : name.kind = .identifier) :
    Statement [name] (.identifier name) :=
  .expression (.single (.single (.name named)))

theorem ofSource_statement_before_unscannable :
    Tree.ofSource .statement "x 12 @" = .ok (.identifier ⟨.identifier, "x", ⟨0, 1⟩⟩) := by
  have run : (Scanner.ofSource "x 12 @").Yields [⟨.identifier, "x", ⟨0, 1⟩⟩]
      ⟨[' ', '1', '2', ' ', '@'], 1⟩ := Scanner.yields_singleton_iff.mpr rfl
  have next : (⟨[' ', '1', '2', ' ', '@'], 1⟩ : Scanner).next =
      .ok ⟨.integer, "12", ⟨2, 4⟩⟩ ⟨[' ', '@'], 4⟩ := rfl
  have read := ofSource_statement_eq_ok_iff run next (statement_of_name rfl)
    (not_opensStatement_of_integer rfl rfl)
  refine read.1.mpr ?_
  rintro ⟨_, seen⟩
  have ahead : (⟨[' ', '1', '2', ' ', '@'], 1⟩ : Scanner).peek 0 = some '@' := by decide +kernel
  cases ahead.symm.trans seen

/-- The tokens behind a statement may turn it into a fault. -/
theorem not_forall_ofSource_statement :
    ¬∀ (source : String) (tokens : List Token) (token : Token) (tree : Tree)
      (middle after : Scanner), (Scanner.ofSource source).Yields tokens middle →
      middle.next = .ok token after → Statement tokens tree →
      ¬OpensStatement (tokens ++ [token]) → Tree.ofSource .statement source = .ok tree := by
  intro ignored
  have run : (Scanner.ofSource "x 12 = 3").Yields [⟨.identifier, "x", ⟨0, 1⟩⟩]
      ⟨[' ', '1', '2', ' ', '=', ' ', '3'], 1⟩ := Scanner.yields_singleton_iff.mpr rfl
  have next : (⟨[' ', '1', '2', ' ', '=', ' ', '3'], 1⟩ : Scanner).next =
      .ok ⟨.integer, "12", ⟨2, 4⟩⟩ ⟨[' ', '=', ' ', '3'], 4⟩ := rfl
  have read := ignored _ _ _ _ _ _ run next (statement_of_name rfl)
    (not_opensStatement_of_integer rfl rfl)
  have refused : Tree.ofSource .statement "x 12 = 3" =
      .error ⟨.unexpectedToken .integer .equal, ⟨2, 4⟩⟩ := rfl
  cases refused.symm.trans read

end

end Calculator.Parser
