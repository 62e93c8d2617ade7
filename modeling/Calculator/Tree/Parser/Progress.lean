import Calculator.Tree.Parser

/-!
# Progress of parsing

Every token that is taken makes `Parser.unread` smaller, so the bounds in `factorWithin` and
`statementsWithin` are never felt: `factor_eq` and `statements_eq` say that factors and statements
satisfy their rules of the grammar without any bound.
-/

namespace Calculator

namespace Scanner

theorem tokenHere_length_le {scanner after : Scanner} {token : Token}
    (h : scanner.tokenHere = .ok token after) :
    after.rest.length ≤ scanner.rest.length := by
  by_cases more : token.kind = .endOfInput
  · unfold tokenHere at h
    split at h
    · simp only [EStateM.Result.ok.injEq] at h
      exact h.2 ▸ Nat.le_refl _
    · rename_i c rest ahead
      split at h
      · simp only [integer] at h
        split at h
        · simp only [EStateM.Result.ok.injEq] at h
          exact h.2 ▸ length_past_le _ _
        · cases h
      · split at h
        · simp only [word, EStateM.Result.ok.injEq] at h
          exact h.2 ▸ length_past_le _ _
        · split at h
          · simp only [EStateM.Result.ok.injEq] at h
            rw [← h.2, ahead]
            exact Nat.le_succ _
          · cases h
  · exact Nat.le_of_lt (tokenHere_shortens h more)

/-- No token gives characters back. -/
theorem next_length_le {scanner after : Scanner} {token : Token}
    (h : scanner.next = .ok token after) : after.rest.length ≤ scanner.rest.length :=
  Nat.le_trans (tokenHere_length_le h) (length_past_le _ _)

end Scanner

namespace Parser

/-! ### Running steps one after the other -/

theorem bind_eq_ok {α β : Type} {first : Parse α} {second : α → Parse β} {parser after : Parser}
    {result : β} :
    (first >>= second) parser = .ok result after ↔
      ∃ value between, first parser = .ok value between ∧
        second value between = .ok result after := by
  simp only [bind, EStateM.bind]
  cases first parser with
  | ok value between =>
    refine ⟨fun h => ⟨value, between, rfl, h⟩, ?_⟩
    rintro ⟨_, _, same, h⟩
    cases same
    exact h
  | error fault between => simp

theorem bind_of_ok {α β : Type} {first : Parse α} {second : α → Parse β} {parser after : Parser}
    {value : α} (h : first parser = .ok value after) :
    (first >>= second) parser = second value after := by
  simp only [bind, EStateM.bind, h]

theorem bind_of_error {α β : Type} {first : Parse α} {second : α → Parse β}
    {parser after : Parser} {fault : Fault} (h : first parser = .error fault after) :
    (first >>= second) parser = .error fault after := by
  simp only [bind, EStateM.bind, h]

theorem bind_congr {α β : Type} {first other : Parse α} {second second' : α → Parse β}
    {parser : Parser} (same : first parser = other parser)
    (sameAfter : ∀ value between, first parser = .ok value between →
      second value between = second' value between) :
    (first >>= second) parser = (other >>= second') parser := by
  simp only [bind, EStateM.bind, ← same]
  cases h : first parser with
  | ok value between => exact sameAfter value between h
  | error fault between => rfl

theorem get_bind {α : Type} (next : Parser → Parse α) (parser : Parser) :
    (get >>= next) parser = next parser parser := rfl

/-! ### What a step takes -/

/-- How much is left to read: the characters ahead, and one for a token in hand. It is zero only
at the end of the text. -/
def unread (parser : Parser) : Nat :=
  parser.scanner.rest.length + if parser.current.kind = .endOfInput then 0 else 1

/-- A step that leaves less to read whenever it succeeds. -/
def Takes {α : Type} (step : Parse α) : Prop :=
  ∀ ⦃parser value after⦄, step parser = .ok value after → after.unread < parser.unread

theorem unread_of_next {scanner after : Scanner} {token : Token}
    (h : scanner.next = .ok token after) :
    (⟨after, token⟩ : Parser).unread ≤ scanner.rest.length := by
  unfold unread
  split
  · exact Scanner.next_length_le h
  · rename_i more
    exact Scanner.next_shortens h more

/-- Handing over a token takes it, unless it is the end of the input. -/
theorem unread_advance_lt {parser after : Parser} {token : Token}
    (h : advance parser = .ok token after) (more : parser.current.kind ≠ .endOfInput) :
    after.unread < parser.unread := by
  unfold advance at h
  split at h
  · rename_i next scanner scanned
    simp only [EStateM.Result.ok.injEq] at h
    have bound := unread_of_next scanned
    rw [h.2] at bound
    simp only [unread, more, if_false] at bound ⊢
    omega
  · cases h

theorem takes_expect {kind : Token.Kind} (more : kind ≠ .endOfInput) : Takes (expect kind) := by
  intro parser token after h
  unfold expect at h
  split at h
  · rename_i found
    exact unread_advance_lt h (found ▸ more)
  · cases h

theorem takes_refuse (expected : Token.Kind) : Takes (refuse expected) := by
  intro parser tree after h
  cases h

theorem ne_endOfInput_of_operator? {level : Operator.Level} {kind : Token.Kind}
    {operator : Operator} (h : level.operator? kind = some operator) : kind ≠ .endOfInput := by
  rintro rfl
  cases h

theorem takes_chain {level : Operator.Level} {operand : Parse Tree} (takes : Takes operand) :
    Takes (chain level operand) := by
  intro parser tree after h
  obtain ⟨left, middle, first, h⟩ := bind_eq_ok.mp h
  have less := takes first
  cases found : level.operator? middle.current.kind with
  | none =>
    simp only [get_bind, found, extend] at h
    cases h
    exact less
  | some operator =>
    simp only [get_bind, found, extend] at h
    obtain ⟨token, beyond, taken, h⟩ := bind_eq_ok.mp h
    obtain ⟨right, final, second, h⟩ := bind_eq_ok.mp h
    cases h
    have := unread_advance_lt taken (ne_endOfInput_of_operator? found)
    have := takes second
    omega

theorem takes_factorFrom {inner : Parse Tree} (takes : Takes inner) : Takes (factorFrom inner) := by
  intro parser tree after h
  unfold factorFrom at h
  cases found : parser.current.kind with
  | integer =>
    rw [found] at h
    obtain ⟨token, beyond, taken, h⟩ := bind_eq_ok.mp h
    have less := unread_advance_lt taken (by simp [found])
    cases read : Tree.integer token with
    | ok literal => rw [read] at h; cases h; exact less
    | error fault => rw [read] at h; cases h
  | leftParen =>
    rw [found] at h
    obtain ⟨token, beyond, taken, h⟩ := bind_eq_ok.mp h
    obtain ⟨expression, middle, read, h⟩ := bind_eq_ok.mp h
    obtain ⟨closing, final, closed, h⟩ := bind_eq_ok.mp h
    cases h
    have := unread_advance_lt taken (by simp [found])
    have := takes_chain (takes_chain takes) read
    have := takes_expect (by decide) closed
    omega
  | plus | minus =>
    rw [found] at h
    obtain ⟨token, beyond, taken, h⟩ := bind_eq_ok.mp h
    obtain ⟨operand, final, read, h⟩ := bind_eq_ok.mp h
    cases h
    have := unread_advance_lt taken (by simp [found])
    have := takes read
    omega
  | identifier =>
    rw [found] at h
    obtain ⟨token, beyond, taken, h⟩ := bind_eq_ok.mp h
    cases h
    exact unread_advance_lt taken (by simp [found])
  | _ =>
    rw [found] at h
    cases h

theorem takes_factorWithin (bound : List Char) : Takes (factorWithin bound) := by
  induction bound with
  | nil => exact takes_refuse _
  | cons _ bound ih => exact takes_factorFrom ih

theorem takes_factor : Takes factor := fun _ _ _ h => takes_factorFrom (takes_factorWithin _) h

theorem takes_term : Takes term := takes_chain takes_factor

theorem takes_expression : Takes expression := takes_chain takes_term

theorem takes_declaration : Takes declaration := by
  intro parser tree after h
  unfold declaration at h
  obtain ⟨_, _, first, h⟩ := bind_eq_ok.mp h
  obtain ⟨_, _, second, h⟩ := bind_eq_ok.mp h
  obtain ⟨_, _, third, h⟩ := bind_eq_ok.mp h
  obtain ⟨_, _, fourth, h⟩ := bind_eq_ok.mp h
  cases h
  have := takes_expect (by decide) first
  have := takes_expect (by decide) second
  have := takes_expect (by decide) third
  have := takes_expression fourth
  omega

theorem takes_assignment : Takes assignment := by
  intro parser tree after h
  unfold assignment at h
  obtain ⟨_, _, first, h⟩ := bind_eq_ok.mp h
  obtain ⟨_, _, second, h⟩ := bind_eq_ok.mp h
  obtain ⟨_, _, third, h⟩ := bind_eq_ok.mp h
  cases h
  have := takes_expect (by decide) first
  have := takes_expect (by decide) second
  have := takes_expression third
  omega

/-- A statement takes a token at least. -/
theorem takes_statement : Takes statement := by
  intro parser tree after h
  unfold statement at h
  obtain ⟨_, _, got, h⟩ := bind_eq_ok.mp h
  cases got
  split at h
  · exact takes_declaration h
  · split at h
    · exact takes_assignment h
    · exact takes_expression h

/-! ### The bounds are never felt -/

/-- Two steps that do the same wherever at most `bound` is left to read. -/
def AgreeWithin {α : Type} (bound : Nat) (step other : Parse α) : Prop :=
  ∀ ⦃parser⦄, parser.unread ≤ bound → step parser = other parser

theorem agree_chain {bound : Nat} {level : Operator.Level} {operand other : Parse Tree}
    (takes : Takes operand) (agree : AgreeWithin bound operand other) :
    AgreeWithin bound (chain level operand) (chain level other) := by
  intro parser small
  refine bind_congr (agree small) fun left middle first => ?_
  simp only [get_bind]
  cases found : level.operator? middle.current.kind with
  | none => rfl
  | some operator =>
    refine bind_congr rfl fun token beyond taken => ?_
    have := takes first
    have := unread_advance_lt taken (ne_endOfInput_of_operator? found)
    exact bind_congr (agree (by omega)) fun _ _ _ => rfl

theorem agree_factorFrom {bound : Nat} {inner other : Parse Tree} (takes : Takes inner)
    (agree : AgreeWithin bound inner other) :
    AgreeWithin (bound + 1) (factorFrom inner) (factorFrom other) := by
  intro parser small
  unfold factorFrom
  cases found : parser.current.kind with
  | leftParen =>
    refine bind_congr rfl fun token beyond taken => ?_
    have := unread_advance_lt taken (by simp [found])
    exact bind_congr (agree_chain (takes_chain takes) (agree_chain takes agree) (by omega))
      fun _ _ _ => rfl
  | plus | minus =>
    refine bind_congr rfl fun token beyond taken => ?_
    have := unread_advance_lt taken (by simp [found])
    exact bind_congr (agree (by omega)) fun _ _ _ => rfl
  | _ => rfl

/-- Where nothing is left to read, the end of the input is in hand. -/
theorem atEnd_of_unread_eq_zero {parser : Parser} (h : parser.unread = 0) :
    parser.current.kind = .endOfInput := by
  unfold unread at h
  split at h
  · assumption
  · omega

theorem factorFrom_atEnd (inner : Parse Tree) {parser : Parser}
    (h : parser.current.kind = .endOfInput) :
    factorFrom inner parser = refuse .integer parser := by
  rw [factorFrom, h]
  rfl

theorem agree_factorWithin {count : Nat} {bound other : List Char} (enough : count ≤ bound.length)
    (enough' : count ≤ other.length) :
    AgreeWithin count (factorWithin bound) (factorWithin other) := by
  induction count generalizing bound other with
  | zero =>
    have refuses (bound : List Char) {parser : Parser} (h : parser.current.kind = .endOfInput) :
        factorWithin bound parser = refuse .integer parser := by
      cases bound with
      | nil => rfl
      | cons _ bound => exact factorFrom_atEnd _ h
    intro parser small
    have atEnd := atEnd_of_unread_eq_zero (Nat.le_zero.mp small)
    rw [refuses bound atEnd, refuses other atEnd]
  | succ count ih =>
    cases bound with
    | nil => exact absurd enough (Nat.not_succ_le_zero count)
    | cons _ bound =>
      cases other with
      | nil => exact absurd enough' (Nat.not_succ_le_zero count)
      | cons _ other =>
        exact agree_factorFrom (takes_factorWithin bound)
          (ih (Nat.le_of_succ_le_succ enough) (Nat.le_of_succ_le_succ enough'))

theorem unread_le (parser : Parser) : parser.unread ≤ parser.scanner.rest.length + 1 := by
  unfold unread
  split <;> omega

/-- A bound that has a character for all that is unread is not felt. -/
theorem factorWithin_eq_factor {parser : Parser} {bound : List Char}
    (enough : parser.unread ≤ bound.length) : factorWithin bound parser = factor parser := by
  have enough' : parser.unread ≤ ('(' :: parser.scanner.rest).length := unread_le parser
  exact agree_factorWithin enough enough' (Nat.le_refl _)

/-- A factor is what its rule says, with factors inside. -/
theorem factor_eq : factor = factorFrom factor :=
  funext fun parser =>
    agree_factorFrom (takes_factorWithin _) (fun _ small => factorWithin_eq_factor small)
      (unread_le parser)

theorem agree_statementsFrom {bound : Nat} {others others' : Parse (List Tree)}
    (agree : AgreeWithin bound others others') :
    AgreeWithin (bound + 1) (statementsFrom others) (statementsFrom others') := by
  intro parser small
  refine bind_congr rfl fun state same got => ?_
  cases got
  split
  · rfl
  · refine bind_congr rfl fun first middle read => ?_
    refine bind_congr rfl fun state same got => ?_
    cases got
    split
    · rfl
    · refine bind_congr rfl fun separator beyond taken => ?_
      have := takes_statement read
      have := takes_expect (by decide) taken
      exact bind_congr (agree (by omega)) fun _ _ _ => rfl

theorem statementsFrom_atEnd (others : Parse (List Tree)) {parser : Parser}
    (h : parser.current.kind = .endOfInput) : statementsFrom others parser = .ok [] parser := by
  show (if parser.current.kind = .endOfInput then _ else _ : Parse (List Tree)) parser = _
  rw [if_pos h]
  rfl

theorem agree_statementsWithin {count : Nat} {bound other : List Char}
    (enough : count ≤ bound.length) (enough' : count ≤ other.length) :
    AgreeWithin count (statementsWithin bound) (statementsWithin other) := by
  induction count generalizing bound other with
  | zero =>
    have finds_none (bound : List Char) {parser : Parser}
        (h : parser.current.kind = .endOfInput) :
        statementsWithin bound parser = .ok [] parser := by
      cases bound with
      | nil => rfl
      | cons _ bound => exact statementsFrom_atEnd _ h
    intro parser small
    have atEnd := atEnd_of_unread_eq_zero (Nat.le_zero.mp small)
    rw [finds_none bound atEnd, finds_none other atEnd]
  | succ count ih =>
    cases bound with
    | nil => exact absurd enough (Nat.not_succ_le_zero count)
    | cons _ bound =>
      cases other with
      | nil => exact absurd enough' (Nat.not_succ_le_zero count)
      | cons _ other =>
        exact agree_statementsFrom
          (ih (Nat.le_of_succ_le_succ enough) (Nat.le_of_succ_le_succ enough'))

/-- A bound that has a character for all that is unread is not felt. -/
theorem statementsWithin_eq_statements {parser : Parser} {bound : List Char}
    (enough : parser.unread ≤ bound.length) :
    statementsWithin bound parser = statements parser := by
  have enough' : parser.unread ≤ (';' :: parser.scanner.rest).length := unread_le parser
  exact agree_statementsWithin enough enough' (Nat.le_refl _)

/-- Statements are what their rule says, with statements behind the first. -/
theorem statements_eq : statements = statementsFrom statements :=
  funext fun parser =>
    agree_statementsFrom (fun _ small => statementsWithin_eq_statements small) (unread_le parser)

end Parser

end Calculator
