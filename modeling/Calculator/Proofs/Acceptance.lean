import Calculator.Proofs.Recognition

/-!
# Programs that are accepted and refused

`ofSource_program_eq_ok_iff` says which texts are read as programs, and as which trees.
`earliestFault_of_ofSource_program` says where the fault of any other text is: at the first place
behind which no program can go on.
-/

namespace Calculator.Parser
open Grammar

/-! ### Whole texts -/

theorem ofSource_eq_ok {source : String} {parser : Parser} (h : ofSource source = .ok parser) :
    (Scanner.ofSource source).Yields [parser.current] parser.scanner ∧ parser.current.Scanned := by
  unfold ofSource at h
  split at h
  · rename_i scanned
    cases h
    exact ⟨Scanner.yields_singleton_iff.mpr scanned, _, _, scanned⟩
  · cases h

theorem ofSource_eq_error {source : String} {fault : Fault} (h : ofSource source = .error fault) :
    ∃ after, (Scanner.ofSource source).next = .error fault after := by
  unfold ofSource at h
  split at h
  · cases h
  · rename_i after failed
    cases h
    exact ⟨after, failed⟩

theorem tree_ofSource_of_error {mode : Mode} {source : String} {fault : Fault}
    (h : ofSource source = .error fault) : Tree.ofSource mode source = .error fault := by
  rw [Tree.ofSource, h]
  rfl

theorem tree_ofSource_of_ok {mode : Mode} {source : String} {parser : Parser}
    (h : ofSource source = .ok parser) :
    Tree.ofSource mode source = match tree mode parser with
      | .ok tree _ => .ok tree
      | .error fault _ => .error fault := by
  rw [Tree.ofSource, h]
  rfl

theorem complete_of_program {tokens : List Token} {trees : List Tree}
    (h : Program tokens trees) : Token.Complete tokens :=
  end_of_program h

theorem eq_nil_of_viable {tokens rest : List Token} {trees : List Tree}
    (program : Program tokens trees) (viable : Viable (tokens ++ rest)) : rest = [] := by
  obtain ⟨more, others, longer⟩ := viable
  have longer := complete_of_program longer
  rw [List.append_assoc] at longer
  exact (List.append_eq_nil_iff.mp ((complete_of_program program).eq_nil longer)).1

/-! ### The first fault of a text -/

/-- The fault at the first place of a text behind which no program can go on. Either a token stands
there that no program has in this place, and it is told which kind of token one could have, or no
token can be scanned. A program that may not end yet has no place for the end of the input. -/
inductive EarliestFault (start : Scanner) : Fault → Prop where
  | grammatical {before : List Token} {token other : Token} {after : Scanner}
      (scanned : start.Yields (before ++ [token]) after) (viable : Viable before)
      (dead : ¬Viable (before ++ [token])) (legal : Viable (before ++ [other])) :
      EarliestFault start ⟨.unexpectedToken token.kind other.kind, token.span⟩
  | lexical {before : List Token} {scanner after : Scanner} {fault : Fault}
      (scanned : start.Yields before scanner) (viable : Viable before)
      (failed : scanner.next = .error fault after) :
      EarliestFault start fault

theorem not_earliestFault {start final : Scanner} {tokens : List Token} {trees : List Tree}
    {fault : Fault} (run : start.Yields tokens final) (program : Program tokens trees) :
    ¬EarliestFault start fault := by
  rintro (@⟨before, token, other, after, scanned, viable, dead, legal⟩ |
    @⟨before, scanner, after, fault, scanned, viable, failed⟩)
  · obtain ⟨front, last, rfl, _⟩ := end_of_program program
    rcases scanned.compare run with ⟨rfl, rfl⟩ | ⟨rest, rfl, _⟩ | ⟨rest, rfl, _⟩
    · exact dead ⟨[], trees, by rwa [List.append_nil]⟩
    · exact dead ⟨rest ++ [last], trees, by simpa using program⟩
    · -- The token would stand behind the end of the input, where nothing can.
      have nothing : rest ++ [other] = [] := eq_nil_of_viable program (by simpa using legal)
      simp at nothing
  · obtain ⟨last, behind⟩ := run.next_of_complete (complete_of_program program)
    rcases scanned.prefix_or_prefix run with ⟨rest, rfl, others⟩ | ⟨rest, rfl, others⟩
    · cases others with
      | nil => cases failed.symm.trans behind
      | cons scanned' => cases failed.symm.trans scanned'
    · obtain rfl := eq_nil_of_viable program viable
      cases others
      cases failed.symm.trans behind

theorem program_of_ok {parser after : Parser} {trees : List Tree}
    (h : statements parser = .ok trees after) :
    program parser = .ok (.program trees ⟨0, after.current.span.start⟩) after :=
  bind_eq_ok.mpr ⟨trees, after, h, rfl⟩

theorem program_of_error {parser after : Parser} {fault : Fault}
    (h : statements parser = .error fault after) : program parser = .error fault after :=
  bind_of_error h

/-- A text is a program of the grammar, with one reading, or it has a fault. -/
theorem ofSource_program (source : String) :
    (∃ tokens final statements, (Scanner.ofSource source).Yields tokens final ∧
      Program tokens statements ∧ (∀ others, Program tokens others → others = statements) ∧
      Tree.ofSource .program source = .ok (.program statements ⟨0, source.length⟩)) ∨
    ∃ fault, EarliestFault (Scanner.ofSource source) fault ∧
      Tree.ofSource .program source = .error fault := by
  cases opened : ofSource source with
  | error fault =>
    obtain ⟨after, failed⟩ := ofSource_eq_error opened
    have viable : Viable [] := ⟨[.atEnd 0], [], .empty rfl⟩
    exact .inr ⟨fault, .lexical (.nil _) viable failed, tree_ofSource_of_error opened⟩
  | ok parser =>
    obtain ⟨first, held⟩ := ofSource_eq_ok opened
    rw [tree_ofSource_of_ok opened]
    obtain ⟨taken, outcome⟩ := reading_statements id held
    cases ran : statements parser with
    | ok trees after =>
      have ends := atEnd_of_statements ran
      rw [ran] at outcome
      cases outcome with
      | reads consumes sound complete =>
        have run := consumes.yields first
        obtain ⟨_, derived, rfl⟩ := sound [after.current] trees ⟨_, rfl, ends, rfl⟩
        have start : after.current.span.start = source.length := by
          obtain ⟨between, _, last⟩ := Scanner.yields_append_iff.mp run
          have scanned := Scanner.yields_singleton_iff.mp last
          rw [(Scanner.next_atEnd scanned ends).1, ← Scanner.extent_next scanned, run.extent_eq,
            Scanner.extent_ofSource]
          rfl
        refine .inl ⟨_, _, _, run, derived, fun others program => ?_, ?_⟩
        · obtain ⟨_, _, _, same⟩ := complete [after.current] others (ahead_cons.mpr rfl)
            ⟨others, program, rfl⟩
          exact same
        · rw [tree, program_of_ok ran, start]
    | error fault after =>
      rw [ran] at outcome
      refine .inr ⟨fault, ?_, by rw [tree, program_of_error ran]⟩
      cases outcome with
      | refuses consumes dead legal =>
        obtain ⟨trees, program, _⟩ := legal
        refine .grammatical (consumes.yields first) ⟨_, trees, program⟩ ?_
          ⟨_, trees, by simpa using program⟩
        rintro ⟨rest, trees, program⟩
        rw [List.append_assoc] at program
        exact dead (after.current :: rest) trees (ahead_cons.mpr rfl) ⟨trees, program, rfl⟩
      | breaks consumes scanned legal =>
        obtain ⟨trees, program, _⟩ := legal
        exact .lexical (consumes.yields first) ⟨_, trees, by simpa using program⟩ scanned

/-! ### Acceptance and refusal -/

/-- A text is read as a program just where its tokens are one of the grammar, as the tree of its
derivation. -/
theorem ofSource_program_eq_ok_iff {source : String} {tree : Tree} :
    Tree.ofSource .program source = .ok tree ↔
      ∃ tokens final statements, (Scanner.ofSource source).tokenize = .ok tokens final ∧
        Program tokens statements ∧ tree = .program statements ⟨0, source.length⟩ := by
  rcases ofSource_program source with ⟨tokens, final, statements, run, program, only, read⟩ |
    ⟨fault, earliest, failed⟩
  · rw [read]
    constructor
    · rintro ⟨⟩
      exact ⟨tokens, final, statements,
        Scanner.tokenize_eq_ok_iff.mpr ⟨run, complete_of_program program⟩, program, rfl⟩
    · rintro ⟨tokens', final', statements', tokenized, program', rfl⟩
      obtain ⟨run', complete'⟩ := Scanner.tokenize_eq_ok_iff.mp tokenized
      have tokenized' := Scanner.tokenize_eq_ok_iff.mpr ⟨run, complete_of_program program⟩
      cases tokenized.symm.trans tokenized'
      rw [only statements' program']
  · rw [failed]
    constructor
    · rintro ⟨⟩
    · rintro ⟨tokens, final, statements, tokenized, program, _⟩
      exact absurd earliest
        (not_earliestFault (Scanner.tokenize_eq_ok_iff.mp tokenized).1 program)

/-- The fault of a text that is no program is the earliest one. -/
theorem earliestFault_of_ofSource_program {source : String} {fault : Fault}
    (h : Tree.ofSource .program source = .error fault) :
    EarliestFault (Scanner.ofSource source) fault := by
  rcases ofSource_program source with ⟨_, _, _, _, _, _, read⟩ | ⟨found, earliest, failed⟩
  · cases h.symm.trans read
  · cases h.symm.trans failed
    exact earliest

theorem earliestFault_of_misled :
    Tree.ofSource .program "x 12 = @" =
        .error ⟨.unexpectedToken .integer .equal, ⟨2, 4⟩⟩ ∧
      EarliestFault (Scanner.ofSource "x 12 = @")
        ⟨.unexpectedToken .integer .equal, ⟨2, 4⟩⟩ :=
  ⟨rfl, earliestFault_of_ofSource_program rfl⟩

end Calculator.Parser
