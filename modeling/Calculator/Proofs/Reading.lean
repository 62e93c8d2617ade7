import Calculator.Tree.Parser.Progress
import Calculator.Proofs.Grammar
import Calculator.Proofs.Stream

/-!
# Reading a language

What a step of parsing makes of the words that it may meet. `Outcome` relates the words that may be
ahead in front of a step to those that may be ahead behind it, and says of a failure why no word
goes on here. `Reading.bind` puts two steps together.
-/

namespace Calculator.Parser
open Grammar

/-! ### Tokens that a parser takes -/

/-- The parser takes the tokens, and has the one behind them in hand. -/
def Consumes (parser : Parser) (tokens : List Token) (after : Parser) : Prop :=
  ∃ pulled, parser.scanner.Yields pulled after.scanner ∧
    parser.current :: pulled = tokens ++ [after.current]

section
variable {parser between after : Parser} {token second : Token} {tokens more rest tail : List Token}

theorem consumes_nil (parser : Parser) : parser.Consumes [] parser :=
  ⟨[], .nil _, rfl⟩

theorem consumes_nil_iff : parser.Consumes [] after ↔ after = parser := by
  constructor
  · rintro ⟨pulled, run, same⟩
    obtain ⟨current, rfl⟩ := List.cons.inj same
    obtain ⟨scanner, held⟩ := after
    cases run
    cases current
    rfl
  · rintro rfl
    exact consumes_nil _

theorem Consumes.trans (first : parser.Consumes tokens between)
    (second : between.Consumes more after) : parser.Consumes (tokens ++ more) after := by
  obtain ⟨pulled, run, same⟩ := first
  obtain ⟨pulled', run', same'⟩ := second
  refine ⟨pulled ++ pulled', Scanner.yields_append_iff.mpr ⟨_, run, run'⟩, ?_⟩
  rw [← List.cons_append, same, List.append_assoc, List.append_assoc, ← same']
  rfl

theorem consumes_of_next {scanner : Scanner} (scanned : parser.scanner.next = .ok token scanner) :
    parser.Consumes [parser.current] ⟨scanner, token⟩ :=
  ⟨[token], Scanner.yields_singleton_iff.mpr scanned, rfl⟩

theorem Consumes.scanned (h : parser.Consumes tokens after) (held : parser.current.Scanned) :
    after.current.Scanned := by
  obtain ⟨pulled, run, same⟩ := h
  have all := List.forall_mem_cons.mpr ⟨held, run.scanned⟩
  rw [same] at all
  exact all _ (by simp)

theorem Consumes.yields {start : Scanner} (h : parser.Consumes tokens after)
    (first : start.Yields [parser.current] parser.scanner) :
    start.Yields (tokens ++ [after.current]) after.scanner := by
  obtain ⟨pulled, run, same⟩ := h
  rw [← same]
  exact Scanner.yields_append_iff.mpr ⟨_, first, run⟩

/-- Words that go on with the given token, or not at all. -/
def Ahead (token : Token) (word : List Token) : Prop :=
  ∀ first ∈ word.head?, first = token

theorem ahead_nil (token : Token) : Ahead token [] := by
  simp [Ahead]

theorem ahead_cons : Ahead token (second :: rest) ↔ second = token := by
  simp [Ahead]

theorem Consumes.ahead (h : parser.Consumes tokens after) (ahead : Ahead after.current rest) :
    Ahead parser.current (tokens ++ rest) := by
  cases tokens with
  | nil =>
    obtain rfl := consumes_nil_iff.mp h
    exact ahead
  | cons token tokens =>
    obtain ⟨pulled, run, same⟩ := h
    exact ahead_cons.mpr (List.cons.inj same).1.symm

/-- Of two stretches of tokens from one place on, one goes on where the other one ends. -/
theorem Consumes.compare (left : parser.Consumes tokens between)
    (right : parser.Consumes more after) :
    (tokens = more ∧ between = after) ∨
      (∃ rest, more = tokens ++ between.current :: rest ∧
        between.Consumes (between.current :: rest) after) ∨
      ∃ rest, tokens = more ++ after.current :: rest ∧
        after.Consumes (after.current :: rest) between := by
  obtain ⟨scanner, current⟩ := between
  obtain ⟨scanner', current'⟩ := after
  obtain ⟨pulled, run, same⟩ := left
  obtain ⟨pulled', run', same'⟩ := right
  rcases run.prefix_or_prefix run' with ⟨rest, rfl, beyond⟩ | ⟨rest, rfl, beyond⟩
  · rw [← List.cons_append, same] at same'
    rcases Scanner.concat_eq_append same'.symm with ⟨rfl, rfl⟩ | ⟨rest, rfl, rfl⟩
    · obtain rfl : rest = [] := by simpa using same'
      cases beyond
      exact .inl ⟨rfl, rfl⟩
    · exact .inr (.inl ⟨rest, rfl, _, beyond, rfl⟩)
  · rw [← List.cons_append, same'] at same
    rcases Scanner.concat_eq_append same.symm with ⟨rfl, rfl⟩ | ⟨rest, rfl, rfl⟩
    · obtain rfl : rest = [] := by simpa using same
      cases beyond
      exact .inl ⟨rfl, rfl⟩
    · exact .inr (.inr ⟨rest, rfl, _, beyond, rfl⟩)

theorem Consumes.uncons (h : parser.Consumes (token :: tokens) after) :
    ∃ next scanner, parser.scanner.next = .ok next scanner ∧
      Consumes ⟨scanner, next⟩ tokens after := by
  obtain ⟨pulled, run, same⟩ := h
  obtain ⟨_, others⟩ := List.cons.inj same
  cases pulled with
  | nil => simp at others
  | cons next pulled =>
    obtain ⟨scanner, scanned, run⟩ := Scanner.yields_cons_iff.mp run
    exact ⟨next, scanner, scanned, pulled, run, others⟩

theorem Consumes.next (h : parser.Consumes (token :: tokens) after)
    (ahead : Ahead after.current rest) (split : tokens ++ rest = second :: tail) :
    ∃ scanner, parser.scanner.next = .ok second scanner := by
  obtain ⟨next, scanner, scanned, consumes⟩ := h.uncons
  have first := consumes.ahead ahead
  rw [split, ahead_cons] at first
  exact ⟨scanner, first ▸ scanned⟩

end

/-! ### Outcomes of a step -/

/-- How a step went that took `taken`. In front of it the words of `start` may be ahead, and behind
it, for its value, those of `follow`. Where it refuses the token in hand no word goes on with that
token or ends, and a word goes on with one of the expected kind. Where no token can be scanned, a
word goes on with the token in hand. -/
inductive Outcome {α β : Type} (parser : Parser) (start : Words β) (follow : α → Words β)
    (taken : List Token) : EStateM.Result Fault Parser α → Prop where
  | reads {value : α} {after : Parser} (consumes : parser.Consumes taken after)
      (sound : ∀ rest result, follow value rest result → start (taken ++ rest) result)
      (complete : ∀ rest result, Ahead after.current rest → start (taken ++ rest) result →
        follow value rest result) :
      Outcome parser start follow taken (.ok value after)
  | refuses {after : Parser} {other : Token} {rest : List Token} {result : β}
      (consumes : parser.Consumes taken after)
      (dead : ∀ rest result, Ahead after.current rest → ¬start (taken ++ rest) result)
      (legal : start (taken ++ other :: rest) result) :
      Outcome parser start follow taken (.error (after.unexpected other.kind) after)
  | breaks {before beyond : Scanner} {current : Token} {fault : Fault} {rest : List Token}
      {result : β} (consumes : parser.Consumes taken ⟨before, current⟩)
      (scanned : before.next = .error fault beyond)
      (legal : start (taken ++ current :: rest) result) :
      Outcome parser start follow taken (.error fault ⟨beyond, current⟩)

/-- An outcome, whatever the step took. -/
def Reading {α β : Type} (parser : Parser) (start : Words β) (follow : α → Words β)
    (result : EStateM.Result Fault Parser α) : Prop :=
  ∃ taken, Outcome parser start follow taken result

section
variable {α β γ : Type} {parser : Parser} {start other : Words β}

theorem Outcome.widen {follow : α → Words β} {taken : List Token}
    {ending : EStateM.Result Fault Parser α} (h : Outcome parser start follow taken ending)
    (sub : ∀ word result, start word result → other word result)
    (back : ∀ word result, Ahead parser.current word → other word result → start word result) :
    Outcome parser other follow taken ending := by
  cases h with
  | reads consumes sound complete =>
    exact .reads consumes (fun rest result h => sub _ _ (sound rest result h))
      fun rest result ahead h => complete rest result ahead (back _ _ (consumes.ahead ahead) h)
  | refuses consumes dead legal =>
    exact .refuses consumes
      (fun rest result ahead h => dead rest result ahead (back _ _ (consumes.ahead ahead) h))
      (sub _ _ legal)
  | breaks consumes scanned legal => exact .breaks consumes scanned (sub _ _ legal)

/-- Words that the token in hand rules out may come and go. -/
theorem Reading.widen {follow : α → Words β} {ending : EStateM.Result Fault Parser α}
    (h : Reading parser start follow ending)
    (sub : ∀ word result, start word result → other word result)
    (back : ∀ word result, Ahead parser.current word → other word result → start word result) :
    Reading parser other follow ending := by
  obtain ⟨taken, outcome⟩ := h
  exact ⟨taken, outcome.widen sub back⟩

theorem Outcome.prepend {between : Parser} {middle : Words β} {follow : γ → Words β}
    {taken more : List Token} {ending : EStateM.Result Fault Parser γ}
    (consumes : parser.Consumes taken between)
    (sound : ∀ rest result, middle rest result → start (taken ++ rest) result)
    (complete : ∀ rest result, Ahead between.current rest → start (taken ++ rest) result →
      middle rest result)
    (h : Outcome between middle follow more ending) :
    Outcome parser start follow (taken ++ more) ending := by
  cases h with
  | @reads value after consumesMore soundMore completeMore =>
    refine .reads (consumes.trans consumesMore) ?_ ?_
    · intro rest result h
      rw [List.append_assoc]
      exact sound _ _ (soundMore rest result h)
    · intro rest result ahead h
      rw [List.append_assoc] at h
      exact completeMore rest result ahead (complete _ _ (consumesMore.ahead ahead) h)
  | refuses consumesMore dead legal =>
    have legal := sound _ _ legal
    rw [← List.append_assoc] at legal
    refine .refuses (consumes.trans consumesMore) ?_ legal
    intro rest result ahead h
    rw [List.append_assoc] at h
    exact dead rest result ahead (complete _ _ (consumesMore.ahead ahead) h)
  | breaks consumesMore scanned legal =>
    have legal := sound _ _ legal
    rw [← List.append_assoc] at legal
    exact .breaks (consumes.trans consumesMore) scanned legal

theorem Reading.bind {first : Parse α} {second : α → Parse γ} {middle : α → Words β}
    {follow : γ → Words β} (held : parser.current.Scanned)
    (h : Reading parser start middle (first parser))
    (next : ∀ value between, first parser = .ok value between → between.current.Scanned →
      Reading between (middle value) follow (second value between)) :
    Reading parser start follow ((first >>= second) parser) := by
  obtain ⟨taken, outcome⟩ := h
  show Reading _ _ _ (EStateM.bind first second parser)
  unfold EStateM.bind
  cases ran : first parser with
  | error fault after =>
    rw [ran] at outcome
    cases outcome with
    | refuses consumes dead legal => exact ⟨taken, .refuses consumes dead legal⟩
    | breaks consumes scanned legal => exact ⟨taken, .breaks consumes scanned legal⟩
  | ok value between =>
    rw [ran] at outcome
    cases outcome with
    | reads consumes sound complete =>
      obtain ⟨more, outcome⟩ := next value between ran (consumes.scanned held)
      exact ⟨taken ++ more, outcome.prepend consumes sound complete⟩

theorem Reading.refollow {middle follow : α → Words β} {ending : EStateM.Result Fault Parser α}
    (h : Reading parser start middle ending)
    (same : ∀ value after, ending = .ok value after →
      ∀ rest result, middle value rest result ↔ follow value rest result) :
    Reading parser start follow ending := by
  obtain ⟨taken, outcome⟩ := h
  refine ⟨taken, ?_⟩
  cases outcome with
  | reads consumes sound complete =>
    exact .reads consumes (fun rest result h => sound rest result ((same _ _ rfl _ _).mpr h))
      fun rest result ahead h => (same _ _ rfl _ _).mp (complete rest result ahead h)
  | refuses consumes dead legal => exact .refuses consumes dead legal
  | breaks consumes scanned legal => exact .breaks consumes scanned legal

theorem reading_pure {value : α} {follow : α → Words β}
    (sound : ∀ rest result, follow value rest result → start rest result)
    (complete : ∀ rest result, Ahead parser.current rest → start rest result →
      follow value rest result) :
    Reading parser start follow (.ok value parser) :=
  ⟨[], .reads (consumes_nil parser) sound complete⟩

theorem reading_return {value : α} {follow : α → Words β} :
    Reading parser (follow value) follow (.ok value parser) :=
  reading_pure (fun _ _ h => h) fun _ _ _ h => h

theorem reading_advance {rest : List Token} {result : β}
    (legal : start (parser.current :: rest) result) :
    Reading parser start (fun token rest => start (token :: rest)) (advance parser) := by
  unfold advance
  split
  · rename_i token scanner scanned
    exact ⟨[parser.current], .reads (consumes_of_next scanned) (fun _ _ h => h) fun _ _ _ h => h⟩
  · rename_i fault scanner scanned
    exact ⟨[], .breaks (consumes_nil parser) scanned legal⟩

theorem eq_current_of_advance {after : Parser} {token : Token}
    (h : advance parser = .ok token after) : token = parser.current := by
  unfold advance at h
  split at h
  · cases h
    rfl
  · cases h

theorem expect_of_kind {kind : Token.Kind} (found : parser.current.kind = kind) :
    expect kind parser = advance parser := by
  rw [expect, if_pos found]

theorem Reading.advance_bind {second : Token → Parse γ} {follow : γ → Words β} {rest : List Token}
    {result : β} (held : parser.current.Scanned) (legal : start (parser.current :: rest) result)
    (next : ∀ between, advance parser = .ok parser.current between → between.current.Scanned →
      Reading between (fun rest => start (parser.current :: rest)) follow
        (second parser.current between)) :
    Reading parser start follow ((advance >>= second) parser) := by
  refine Reading.bind held (reading_advance legal) fun token between taken held => ?_
  obtain rfl := eq_current_of_advance taken
  exact next between taken held

theorem Reading.expect_bind {kind : Token.Kind} {second : Token → Parse γ} {follow : γ → Words β}
    {rest : List Token} {result : β} (found : parser.current.kind = kind)
    (held : parser.current.Scanned) (legal : start (parser.current :: rest) result)
    (next : ∀ between, advance parser = .ok parser.current between → between.current.Scanned →
      Reading between (fun rest => start (parser.current :: rest)) follow
        (second parser.current between)) :
    Reading parser start follow ((expect kind >>= second) parser) := by
  have same : (expect kind >>= second) parser = (advance >>= second) parser := by
    show EStateM.bind _ _ _ = EStateM.bind _ _ _
    unfold EStateM.bind
    rw [expect_of_kind found]
  rw [same]
  exact Reading.advance_bind held legal next

/-- Every value leads to a word. -/
def Live (follow : α → Words β) : Prop :=
  ∀ value, ∃ rest result, follow value rest result

theorem reading_refuse {follow : α → Words β} (token : Token) {rest : List Token} {result : β}
    (dead : ∀ rest result, Ahead parser.current rest → ¬start rest result)
    (legal : start (token :: rest) result) :
    Reading parser start follow (.error (parser.unexpected token.kind) parser) :=
  ⟨[], .refuses (consumes_nil parser) dead legal⟩

theorem reading_expect {kind : Token.Kind} {follow : Token → Words β} (live : Live follow) :
    Reading parser (Lead kind follow) follow (expect kind parser) := by
  unfold expect
  split
  · rename_i found
    obtain ⟨rest, result, h⟩ := live parser.current
    refine (reading_advance (lead_cons.mpr ⟨found, h⟩)).refollow fun token after taken => ?_
    intro rest result
    rw [lead_cons, eq_current_of_advance taken, and_iff_right found]
  · rename_i found
    obtain ⟨rest, result, h⟩ := live ⟨kind, "", ⟨0, 0⟩⟩
    refine reading_refuse ⟨kind, "", ⟨0, 0⟩⟩ ?_ (lead_cons.mpr ⟨rfl, h⟩)
    rintro _ _ ahead ⟨token, _, rfl, same, _⟩
    exact found (ahead_cons.mp ahead ▸ same)

end

end Calculator.Parser
