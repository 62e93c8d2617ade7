import Calculator.Proofs.Moves
import Calculator.Proofs.Recovery

/-!
# The pace of parsing

A parser takes a token between any two times that it begins a rule, and no call takes the end of
the input, see `Leads`. So what is left to read bounds what a call does: `progress_of_reachable` says
how many tokens it takes, how often it begins a rule, and that it ends because of the text and not
because of a bound.
-/

namespace Calculator

namespace Scanner

theorem shrinks_of_error {scanner after : Scanner} {fault : Fault}
    (failed : scanner.next = .error fault after) :
    after.extent = scanner.extent ∧ after.rest.length ≤ scanner.rest.length := by
  have same : after.extent = scanner.extent := by
    rw [← beyond_of_error failed, (passes_beyond scanner).extent_eq]
  have moved := position_le_of_error failed
  refine ⟨same, ?_⟩
  simp only [extent] at same
  omega

end Scanner

namespace Parser

theorem next_of_advance_error {parser after : Parser} {fault : Fault}
    (failed : advance parser = .error fault after) :
    parser.scanner.next = .error fault after.scanner ∧ after.current = parser.current := by
  unfold advance at failed
  split at failed
  · cases failed
  · cases failed
    exact ⟨by assumption, rfl⟩

theorem unread_of_advance_error {parser after : Parser} {fault : Fault}
    (failed : advance parser = .error fault after) : after.unread ≤ parser.unread := by
  obtain ⟨broken, same⟩ := next_of_advance_error failed
  have less := (Scanner.shrinks_of_error broken).2
  simp only [unread, same]
  omega

/-- A parser, and the rules that it has begun since it last took a token. -/
structure Place where
  parser : Parser
  begun : List Rule

/-- The moves lead from one place to another. A rule is begun again only behind a token, the end of
the input is not taken, and no bound is exhausted. -/
inductive Leads : Place → List Move → Place → Prop where
  | nil {place : Place} : Leads place [] place
  | begins {parser : Parser} {begun : List Rule} {rule : Rule} {moves : List Move} {final : Place}
      (new : rule ∉ begun) (rest : Leads ⟨parser, rule :: begun⟩ moves final) :
      Leads ⟨parser, begun⟩ (.begins rule :: moves) final
  | takes {parser after : Parser} {begun : List Rule} {token : Token} {moves : List Move}
      {final : Place} (more : parser.current.kind ≠ .endOfInput)
      (taken : advance parser = .ok token after) (rest : Leads ⟨after, []⟩ moves final) :
      Leads ⟨parser, begun⟩ (.takes parser after :: moves) final
  | fails {parser after : Parser} {begun : List Rule} {fault : Fault} {moves : List Move}
      {final : Place} (failed : advance parser = .error fault after)
      (rest : Leads ⟨after, begun⟩ moves final) :
      Leads ⟨parser, begun⟩ (.fails parser :: moves) final

def Move.isTaking : Move → Bool
  | .takes _ _ => true
  | _ => false

def Move.isFailing : Move → Bool
  | .fails _ => true
  | _ => false

/-- Between two times that the rule is begun a token is taken. -/
def Spaced (rule : Rule) (moves : List Move) : Prop :=
  ∀ ⦃front between behind⦄, moves = front ++ .begins rule :: (between ++ .begins rule :: behind) →
    ∃ before after, .takes before after ∈ between

section
variable {place between final : Place} {moves more : List Move} {before after : Parser}
  {rule : Rule}

theorem Leads.append (first : Leads place moves between) (second : Leads between more final) :
    Leads place (moves ++ more) final := by
  induction first with
  | nil => exact second
  | begins new _ ih => exact .begins new (ih second)
  | takes more taken _ ih => exact .takes more taken (ih second)
  | fails failed _ ih => exact .fails failed (ih second)

theorem Leads.split (leads : Leads place (moves ++ more) final) :
    ∃ between, Leads place moves between ∧ Leads between more final := by
  induction moves generalizing place with
  | nil => exact ⟨place, .nil, leads⟩
  | cons move moves ih =>
    cases leads with
    | begins new rest =>
      obtain ⟨between, first, second⟩ := ih rest
      exact ⟨between, .begins new first, second⟩
    | takes more taken rest =>
      obtain ⟨between, first, second⟩ := ih rest
      exact ⟨between, .takes more taken first, second⟩
    | fails failed rest =>
      obtain ⟨between, first, second⟩ := ih rest
      exact ⟨between, .fails failed first, second⟩

/-- Each token that is taken leaves less to read. -/
theorem Leads.unread_add_takes_le (leads : Leads place moves final) :
    final.parser.unread + moves.countP Move.isTaking ≤ place.parser.unread := by
  induction leads with
  | nil => exact Nat.le_refl _
  | begins _ _ ih => exact ih
  | takes more taken _ ih =>
    have := unread_advance_lt taken more
    rw [List.countP_cons_of_pos rfl]
    simp only at ih ⊢
    omega
  | fails failed _ ih =>
    have := unread_of_advance_error failed
    rw [List.countP_cons_of_neg Bool.false_ne_true]
    simp only at ih ⊢
    omega

theorem Leads.unread_le (leads : Leads place moves final) :
    final.parser.unread ≤ place.parser.unread :=
  Nat.le_trans (Nat.le_add_right _ _) leads.unread_add_takes_le

/-- The moves tell of every call of the scanner. -/
theorem Leads.scanner_eq (leads : Leads place moves final) :
    final.parser.scanner =
      Scanner.beyond^[moves.countP Move.isTaking + moves.countP Move.isFailing]
        place.parser.scanner := by
  induction leads with
  | nil => rfl
  | begins _ _ ih => exact ih
  | takes _ taken _ ih =>
    rw [List.countP_cons_of_pos rfl, List.countP_cons_of_neg Bool.false_ne_true,
      Nat.add_right_comm, Function.iterate_succ_apply,
      Scanner.beyond_of_ok (next_of_advance taken)]
    exact ih
  | fails failed _ ih =>
    rw [List.countP_cons_of_neg Bool.false_ne_true, List.countP_cons_of_pos rfl,
      ← Nat.add_assoc, Function.iterate_succ_apply,
      Scanner.beyond_of_error (next_of_advance_error failed).1]
    exact ih

theorem Leads.not_exhausts (leads : Leads place moves final) : .exhausts rule ∉ moves := by
  induction leads with
  | nil => exact List.not_mem_nil
  | begins _ _ ih | takes _ _ _ ih | fails _ _ ih =>
    rintro (_ | ⟨_, inside⟩)
    exact ih inside

theorem Leads.of_takes (leads : Leads place moves final) (inside : .takes before after ∈ moves) :
    before.current.kind ≠ .endOfInput ∧ advance before = .ok before.current after ∧
      before.scanner.extent = place.parser.scanner.extent := by
  induction leads with
  | nil => cases inside
  | begins _ _ ih =>
    cases inside with
    | tail _ inside => exact ih inside
  | takes more taken _ ih =>
    cases inside with
    | head =>
      obtain rfl := eq_current_of_advance taken
      exact ⟨more, taken, rfl⟩
    | tail _ inside =>
      obtain ⟨more, next, same⟩ := ih inside
      exact ⟨more, next, same.trans (Scanner.extent_next (next_of_advance taken))⟩
  | fails failed _ ih =>
    cases inside with
    | tail _ inside =>
      obtain ⟨more, next, same⟩ := ih inside
      exact ⟨more, next, same.trans (Scanner.shrinks_of_error (next_of_advance_error failed).1).1⟩

theorem Leads.parser_eq (leads : Leads place moves final)
    (untaken : moves.countP Move.isTaking = 0) (whole : moves.countP Move.isFailing = 0) :
    final.parser = place.parser := by
  induction leads with
  | nil => rfl
  | begins _ _ ih => exact ih untaken whole
  | takes =>
    rw [List.countP_cons_of_pos rfl] at untaken
    cases untaken
  | fails =>
    rw [List.countP_cons_of_pos rfl] at whole
    cases whole

theorem Leads.begun_subset (leads : Leads place moves final)
    (none : ∀ before after, .takes before after ∉ moves) : place.begun ⊆ final.begun := by
  induction leads with
  | nil => exact List.Subset.refl _
  | begins _ _ ih =>
    intro rule member
    exact ih (fun before after inside => none before after (.tail _ inside)) (.tail _ member)
  | takes => exact absurd (.head _) (none _ _)
  | fails _ _ ih => exact ih fun before after inside => none before after (.tail _ inside)

theorem Leads.spaced (leads : Leads place moves final) (rule : Rule) : Spaced rule moves := by
  rintro front between behind rfl
  obtain ⟨_, _, leads⟩ := leads.split
  cases leads with
  | begins _ rest =>
    obtain ⟨again, within, rest⟩ := rest.split
    by_contra none
    -- With no token in between, the rule is still among those that have been begun.
    have member : rule ∈ again.begun :=
      within.begun_subset (fun before after inside => none ⟨before, after, inside⟩) (.head _)
    cases rest with
    | begins new _ => exact new member

/-- A rule is begun at most once more than tokens are taken. -/
theorem Leads.count_begins_le (leads : Leads place moves final) (rule : Rule) :
    moves.count (.begins rule) + (if rule ∈ place.begun then 1 else 0) ≤
      moves.countP Move.isTaking + 1 := by
  induction leads with
  | nil =>
    simp only [List.count_nil, List.countP_nil]
    split <;> omega
  | @begins parser begun other moves _ new _ ih =>
    rw [List.countP_cons_of_neg Bool.false_ne_true]
    by_cases same : other = rule
    · subst same
      rw [if_pos (List.mem_cons_self ..)] at ih
      rw [if_neg new, List.count_cons_self]
      exact ih
    · have apart : Move.begins other ≠ .begins rule := fun h => same (Move.begins.inj h)
      have kept : rule ∈ other :: begun ↔ rule ∈ begun := by
        rw [List.mem_cons, or_iff_right (Ne.symm same)]
      rw [List.count_cons_of_ne apart]
      simpa only [kept] using ih
  | @takes parser after _ _ _ _ _ _ _ ih =>
    have apart : Move.takes parser after ≠ .begins rule := nofun
    rw [List.countP_cons_of_pos rfl, List.count_cons_of_ne apart]
    simp only [List.not_mem_nil, if_false] at ih
    split <;> omega
  | @fails parser _ _ _ _ _ _ _ ih =>
    have apart : Move.fails parser ≠ .begins rule := nofun
    rwa [List.countP_cons_of_neg Bool.false_ne_true, List.count_cons_of_ne apart]

end

/-! ### The pace of the rules -/

/-- How a step goes on from a place. Where it succeeds the scanner has not failed, and since the
last token the rules in `begun` have been begun. Where it fails the scanner has failed once at
most. -/
inductive Pace {α : Type} (place : Place) (begun : List Rule) (moves : List Move) :
    EStateM.Result Fault Parser α → Prop where
  | done {value : α} {after : Parser} (leads : Leads place moves ⟨after, begun⟩)
      (whole : moves.countP Move.isFailing = 0) : Pace place begun moves (.ok value after)
  | stopped {fault : Fault} {after : Parser} {other : List Rule}
      (leads : Leads place moves ⟨after, other⟩) (once : moves.countP Move.isFailing ≤ 1) :
      Pace place begun moves (.error fault after)

theorem Pace.prepend {α : Type} {place middle : Place} {begun : List Rule} {front moves : List Move}
    {ending : EStateM.Result Fault Parser α} (first : Leads place front middle)
    (whole : front.countP Move.isFailing = 0) (rest : Pace middle begun moves ending) :
    Pace place begun (front ++ moves) ending := by
  cases rest with
  | done leads again =>
    refine .done (first.append leads) ?_
    rw [List.countP_append, whole, again]
  | stopped leads once =>
    refine .stopped (first.append leads) ?_
    rwa [List.countP_append, whole, Nat.zero_add]

namespace Noted

section
variable {α β : Type} {parser : Parser} {start begun : List Rule} {bound : Nat}

/-- The step keeps pace where it is taken, from the rules in `start` to those in `begun`. -/
def PacedFrom (step : Noted α) (parser : Parser) (start begun : List Rule) : Prop :=
  Pace ⟨parser, start⟩ begun (step.moves parser) (step.step parser)

theorem pacedFrom_pure (value : α) : PacedFrom (pure value) parser begun begun :=
  .done .nil rfl

theorem pacedFrom_fault (other : Fault) :
    (fault other : Noted α).PacedFrom parser start begun :=
  .stopped .nil (Nat.zero_le 1)

theorem PacedFrom.bind {first : Noted α} {next : α → Noted β} {middle : List Rule}
    (paced : first.PacedFrom parser start middle)
    (rest : ∀ value between, first.step parser = .ok value between →
      between.unread ≤ parser.unread → (next value).PacedFrom between middle begun) :
    (first >>= next).PacedFrom parser start begun := by
  unfold PacedFrom at paced
  rw [PacedFrom, step_bind]
  cases ran : first.step parser with
  | ok value between =>
    rw [ran] at paced
    rw [moves_bind_of_ok ran, bind_of_ok ran]
    cases paced with
    | done leads whole => exact (rest value between ran leads.unread_le).prepend leads whole
  | error fault between =>
    rw [ran] at paced
    rw [moves_bind_of_error ran, bind_of_error ran]
    cases paced with
    | stopped leads once => exact .stopped leads once

theorem pacedFrom_hand_bind {next : Parser → Noted α}
    (rest : (next parser).PacedFrom parser start begun) :
    (hand >>= next).PacedFrom parser start begun :=
  rest

theorem pacedFrom_begins_bind {rule : Rule} {next : Unit → Noted α} (new : rule ∉ start)
    (rest : (next ()).PacedFrom parser (rule :: start) begun) :
    (note (.begins rule) >>= next).PacedFrom parser start begun :=
  Pace.prepend (.begins new .nil) rfl rest

theorem pacedFrom_take (more : parser.current.kind ≠ .endOfInput) :
    take.PacedFrom parser start [] := by
  simp only [PacedFrom, take]
  cases taken : advance parser with
  | ok token after => exact .done (.takes more taken .nil) rfl
  | error fault after => exact .stopped (.fails taken .nil) (Nat.le_refl 1)

theorem pacedFrom_take_bind {next : Token → Noted α} (more : parser.current.kind ≠ .endOfInput)
    (rest : ∀ token after, after.unread < parser.unread → (next token).PacedFrom after [] begun) :
    (take >>= next).PacedFrom parser start begun :=
  (pacedFrom_take more).bind fun token after taken _ =>
    rest token after (unread_advance_lt taken more)

theorem pacedFrom_expect_bind {kind : Token.Kind} {next : Token → Noted α}
    (more : kind ≠ .endOfInput)
    (rest : ∀ token after, after.unread < parser.unread → (next token).PacedFrom after [] begun) :
    (expect kind >>= next).PacedFrom parser start begun := by
  have paced : (expect kind).PacedFrom parser start [] := by
    refine pacedFrom_hand_bind ?_
    split
    · rename_i found
      exact pacedFrom_take (found ▸ more)
    · exact pacedFrom_fault _
  refine paced.bind fun token after taken _ => rest token after ?_
  rw [step_expect] at taken
  exact takes_expect more taken

/-- From places where less than `bound` is left to read and no factor has been begun since the last
token, the operand keeps pace. -/
def PacedBelow (bound : Nat) (operand : Noted Tree) : Prop :=
  ∀ ⦃parser start⦄, parser.unread < bound → .factor ∉ start → operand.PacedFrom parser start []

theorem pacedBelow_chain {level : Operator.Level} {operand : Noted Tree}
    (paced : operand.PacedBelow bound) : (chain level operand).PacedBelow bound := by
  intro parser start small new
  refine (paced small new).bind fun left middle _ less => pacedFrom_hand_bind ?_
  cases found : level.operator? middle.current.kind with
  | none => exact pacedFrom_pure _
  | some operator =>
    refine pacedFrom_take_bind (ne_endOfInput_of_operator? found) fun token after fewer => ?_
    refine (paced (by omega) List.not_mem_nil).bind fun right final _ _ => ?_
    exact pacedFrom_pure _

theorem pacedBelow_factorFrom {inner : Noted Tree} (paced : inner.PacedBelow bound) :
    (factorFrom inner).PacedBelow (bound + 1) := by
  intro parser start small new
  refine pacedFrom_begins_bind new (pacedFrom_hand_bind ?_)
  cases found : parser.current.kind with
  | integer =>
    refine pacedFrom_take_bind (by simp [found]) fun token after _ => ?_
    simp only [literal, PacedFrom]
    cases Tree.integer token with
    | ok tree => exact pacedFrom_pure tree
    | error other => exact pacedFrom_fault other
  | leftParen =>
    refine pacedFrom_take_bind (by simp [found]) fun token after fewer => ?_
    have inside : (chain .additive (chain .multiplicative inner)).PacedBelow bound :=
      pacedBelow_chain (pacedBelow_chain paced)
    refine (inside (by omega) List.not_mem_nil).bind fun expression closing _ _ => ?_
    refine pacedFrom_expect_bind (by decide) fun _ final _ => ?_
    exact pacedFrom_pure _
  | plus | minus =>
    refine pacedFrom_take_bind (by simp [found]) fun token after fewer => ?_
    refine (paced (by omega) List.not_mem_nil).bind fun operand final _ _ => ?_
    exact pacedFrom_pure _
  | identifier =>
    refine pacedFrom_take_bind (by simp [found]) fun token after _ => ?_
    exact pacedFrom_pure _
  | _ => exact pacedFrom_fault _

theorem pacedBelow_factorWithin (bound : Nat) : (factorWithin bound).PacedBelow bound := by
  induction bound with
  | zero =>
    intro parser start small
    exact absurd small (Nat.not_lt_zero _)
  | succ bound ih => exact pacedBelow_factorFrom ih

theorem pacedBelow_factor : factor.PacedBelow bound := by
  intro parser start _ new
  exact pacedBelow_factorWithin _ (Nat.lt_succ_of_le (unread_le parser)) new

theorem pacedFrom_expression (new : .factor ∉ start) : expression.PacedFrom parser start [] :=
  pacedBelow_chain (pacedBelow_chain pacedBelow_factor) (Nat.lt_succ_self _) new

theorem pacedFrom_binding (build : Token → Token → Tree → Tree) :
    (binding build).PacedFrom parser start [] := by
  refine pacedFrom_expect_bind (by decide) fun name _ _ => ?_
  refine pacedFrom_expect_bind (by decide) fun equals _ _ => ?_
  refine (pacedFrom_expression List.not_mem_nil).bind fun value _ _ _ => ?_
  exact pacedFrom_pure _

theorem pacedFrom_statement (new : .factor ∉ start) : statement.PacedFrom parser start [] := by
  refine pacedFrom_hand_bind ?_
  split
  · exact pacedFrom_expect_bind (by decide) fun _ _ _ => pacedFrom_binding _
  · split
    · exact pacedFrom_binding _
    · exact pacedFrom_expression new

theorem pacedFrom_statementsWithin (bound : Nat) (enough : parser.unread < bound) :
    (statementsWithin bound).PacedFrom parser [] [] := by
  induction bound generalizing parser with
  | zero => exact absurd enough (Nat.not_lt_zero _)
  | succ bound ih =>
    refine pacedFrom_hand_bind ?_
    split
    · exact pacedFrom_pure _
    · refine pacedFrom_begins_bind List.not_mem_nil ?_
      refine (pacedFrom_statement (by decide)).bind fun first middle _ less => ?_
      refine pacedFrom_hand_bind ?_
      split
      · exact pacedFrom_pure _
      · refine pacedFrom_expect_bind (by decide) fun _ after fewer => ?_
        refine (ih (by omega)).bind fun others final _ _ => ?_
        exact pacedFrom_pure _

theorem pacedFrom_statements : statements.PacedFrom parser [] [] := by
  unfold statements
  refine pacedFrom_hand_bind ?_
  exact pacedFrom_statementsWithin _ (Nat.lt_succ_of_le (unread_le parser))

theorem pacedFrom_program : program.PacedFrom parser [] [] := by
  refine pacedFrom_statements.bind fun list final _ _ => ?_
  exact pacedFrom_hand_bind (pacedFrom_pure _)

theorem pacedFrom_tree (mode : Mode) : (tree mode).PacedFrom parser [] [] := by
  cases mode with
  | statement => exact pacedFrom_statement List.not_mem_nil
  | program => exact pacedFrom_program

end

end Noted

/-! ### The progress of a call -/

/-- How many characters of the text are ahead, and one more for a token in hand. -/
def left (source : String) (parser : Parser) : Nat :=
  (source.length - parser.scanner.position) + if parser.current.kind = .endOfInput then 0 else 1

/-- What a call does on the way to its answer, told by its moves. -/
structure Progresses (source : String) (mode : Mode) (parser : Parser) (moves : List Move) :
    Prop where
  /-- A token that is taken is not the end of the input, and less is left behind it. -/
  takes : ∀ before after, .takes before after ∈ moves →
    before.current.kind ≠ .endOfInput ∧ advance before = .ok before.current after ∧
      left source after < left source before
  /-- A rule is begun again only behind a token. -/
  spaced : ∀ rule, Spaced rule moves
  begins : ∀ rule, moves.count (.begins rule) ≤ left source parser + 1
  /-- No rule is cut short by its bound, so the text alone ends the call. -/
  ends : ∀ rule, .exhausts rule ∉ moves
  /-- The scanner is called for each token that is taken, and where it fails. -/
  calls : (parser.beyond mode).scanner =
    Scanner.beyond^[moves.countP Move.isTaking + moves.countP Move.isFailing] parser.scanner
  taken : moves.countP Move.isTaking ≤ left source parser
  failed : moves.countP Move.isFailing ≤ 1

section
variable {source : String} {mode : Mode} {parser : Parser}

theorem left_eq_unread (whole : parser.scanner.extent = source.length) :
    parser.left source = parser.unread := by
  simp only [Scanner.extent] at whole
  simp only [left, unread]
  omega

/-- A call leads to the parser behind it, and its scanner fails once at most. -/
theorem leads_of_tree (mode : Mode) (parser : Parser) :
    (∃ begun, Leads ⟨parser, []⟩ ((Noted.tree mode).moves parser) ⟨parser.beyond mode, begun⟩) ∧
      ((Noted.tree mode).moves parser).countP Move.isFailing ≤ 1 := by
  have paced : (Noted.tree mode).PacedFrom parser [] [] := Noted.pacedFrom_tree mode
  rw [Noted.PacedFrom, Noted.step_tree] at paced
  rw [beyond]
  generalize tree mode parser = ending at paced ⊢
  cases paced with
  | done leads whole => exact ⟨⟨_, leads⟩, by omega⟩
  | stopped leads once => exact ⟨⟨_, leads⟩, once⟩

theorem progresses_of_extent (whole : parser.scanner.extent = source.length) (mode : Mode) :
    Progresses source mode parser ((Noted.tree mode).moves parser) := by
  obtain ⟨⟨begun, leads⟩, once⟩ := leads_of_tree mode parser
  have taken : ((Noted.tree mode).moves parser).countP Move.isTaking ≤ parser.left source := by
    rw [left_eq_unread whole]
    exact Nat.le_trans (Nat.le_add_left _ _) leads.unread_add_takes_le
  constructor
  case takes =>
    intro before after inside
    obtain ⟨more, next, same⟩ := leads.of_takes inside
    have whole := same.trans whole
    rw [left_eq_unread whole,
      left_eq_unread ((Scanner.extent_next (next_of_advance next)).trans whole)]
    exact ⟨more, next, unread_advance_lt next more⟩
  case spaced => exact leads.spaced
  case begins =>
    intro rule
    exact Nat.le_trans (leads.count_begins_le rule) (Nat.succ_le_succ taken)
  case ends => exact fun rule => leads.not_exhausts
  case calls => exact leads.scanner_eq
  case taken => exact taken
  case failed => exact once

theorem takes_of_statement {result : Tree} {after : Parser}
    (read : statement parser = .ok result after) :
    0 < (Noted.statement.moves parser).countP Move.isTaking := by
  have paced : (Noted.tree .statement).PacedFrom parser [] [] :=
    Noted.pacedFrom_tree .statement
  rw [Noted.PacedFrom, Noted.step_tree, tree, read] at paced
  cases paced with
  | done leads whole =>
    rw [Nat.pos_iff_ne_zero]
    intro untaken
    have same : after = parser := leads.parser_eq untaken whole
    exact Nat.lt_irrefl _ (same ▸ takes_statement read)

/-- But for the account that they keep, the rules that tell of their moves are those of the parser.
They take tokens of the text only, each of which leaves less to read, and no rule is begun twice
without one in between; so every call ends, and takes as many tokens as are left at most. A
statement takes one at least, and a program is read up to the end of the text. -/
theorem progress_of_reachable (reachable : Reachable source parser) :
    (∀ mode, (Noted.tree mode).step = tree mode ∧
      Progresses source mode parser ((Noted.tree mode).moves parser)) ∧
    (∀ result after, tree .statement parser = .ok result after →
      0 < ((Noted.tree .statement).moves parser).countP Move.isTaking) ∧
    ∀ result after, tree .program parser = .ok result after →
      after.current.kind = .endOfInput := by
  have whole : parser.scanner.extent = source.length := by
    rw [Scanner.extent_of_stands reachable.settled.stands, String.length_toList]
  refine ⟨fun mode => ⟨Noted.step_tree mode, progresses_of_extent whole mode⟩, ?_, ?_⟩
  · intro result after read
    exact takes_of_statement read
  · intro result after read
    obtain ⟨trees, final, ran, read⟩ := bind_eq_ok.mp read
    cases read
    exact atEnd_of_statements ran

/-- The tokens in front of the number are taken, and behind the number the scanner fails. Three
factors are one inside the other in the first statement, and the number is begun as a fourth. -/
theorem progress_of_reachable_of_failure :
    ∃ parser, Reachable "-(x) ; 2 @" parser ∧ left "-(x) ; 2 @" parser = 10 ∧
      ((Noted.tree .program).moves parser).countP Move.isTaking = 5 ∧
      ((Noted.tree .program).moves parser).countP Move.isFailing = 1 ∧
      ((Noted.tree .program).moves parser).count (.begins .factor) = 4 ∧
      ((Noted.tree .program).moves parser).count (.begins .statement) = 2 ∧
      Progresses "-(x) ; 2 @" .program parser ((Noted.tree .program).moves parser) := by
  have opened : ofSource "-(x) ; 2 @" =
      .ok ⟨⟨"(x) ; 2 @".toList, 1⟩, ⟨.minus, "-", ⟨0, 1⟩⟩⟩ := rfl
  obtain ⟨both, _⟩ := progress_of_reachable (.opened opened)
  exact ⟨_, .opened opened, rfl, rfl, rfl, rfl, rfl, (both .program).2⟩

end

end Parser

end Calculator
