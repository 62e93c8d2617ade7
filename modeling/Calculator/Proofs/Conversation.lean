import Calculator.Proofs.Failure
import Calculator.Proofs.Writing
import Calculator.Session

/-!
# Conversations

A session as the exchanges it is made of, which is what it writes by `says_serve`. Lines that are
blank or have no value change nothing for the lines behind them, so a session without some of them
is the same but for their exchanges: `run_without`.
-/

namespace Calculator

/-! ### Lines -/

namespace Utf8

/-- The lines of a stream. Each has the byte that ends a line at its end and nowhere else, but the
last may lack it. -/
inductive Cut : List (List UInt8) → Prop where
  | nil : Cut []
  | last {line : List UInt8} (some : line ≠ []) (inside : lineFeed ∉ line) : Cut [line]
  | cons {body : List UInt8} {others : List (List UInt8)} (inside : lineFeed ∉ body)
      (rest : Cut others) : Cut ((body ++ [lineFeed]) :: others)

section
variable {body rest : List UInt8} {list other : List (List UInt8)}

theorem lines_of_not_mem (some : body ≠ []) (inside : lineFeed ∉ body) : lines body = [body] := by
  induction body with
  | nil => exact absurd rfl some
  | cons byte body ih =>
    rw [lines, if_neg (Ne.symm (List.ne_of_not_mem_cons inside))]
    cases body with
    | nil => rfl
    | cons next body => rw [ih (by simp) (List.not_mem_of_not_mem_cons inside)]

theorem lines_append (inside : lineFeed ∉ body) (rest : List UInt8) :
    lines (body ++ [lineFeed] ++ rest) = (body ++ [lineFeed]) :: lines rest := by
  induction body with
  | nil => rw [List.nil_append, List.singleton_append, lines, if_pos rfl]
  | cons byte body ih =>
    rw [List.cons_append, List.cons_append, lines,
      if_neg (Ne.symm (List.ne_of_not_mem_cons inside)), ih (List.not_mem_of_not_mem_cons inside)]

theorem cut_lines (bytes : List UInt8) : Cut (lines bytes) := by
  fun_induction lines bytes with
  | case1 => exact .nil
  | case2 rest ih => exact @Cut.cons [] _ List.not_mem_nil ih
  | case3 byte rest other => exact .last (by simp) (by simp [Ne.symm other])
  | case4 byte rest other line others cut ih =>
    have longer {tail : List UInt8} (inside : lineFeed ∉ tail) : lineFeed ∉ byte :: tail :=
      List.not_mem_cons_of_ne_of_not_mem (Ne.symm other) inside
    rw [cut] at ih
    cases ih with
    | last some inside => exact .last (by simp) (longer inside)
    | @cons body _ inside rest => exact @Cut.cons (byte :: body) _ (longer inside) rest

theorem Cut.lines_flatten (h : Cut list) : lines list.flatten = list := by
  induction h with
  | nil => rfl
  | last some inside => rw [List.flatten_singleton, lines_of_not_mem some inside]
  | cons inside _ ih => rw [List.flatten_cons, lines_append inside, ih]

theorem Cut.sublist (h : Cut list) (sub : other.Sublist list) : Cut other := by
  induction h generalizing other with
  | nil => exact List.sublist_nil.mp sub ▸ .nil
  | last some inside =>
    cases sub with
    | cons _ sub => exact List.sublist_nil.mp sub ▸ .nil
    | cons_cons _ sub =>
      obtain rfl := List.sublist_nil.mp sub
      exact .last some inside
  | cons inside _ ih =>
    cases sub with
    | cons _ sub => exact ih sub
    | cons_cons _ sub => exact .cons inside (ih sub)

end

end Utf8

/-! ### Exchanges -/

namespace Session

/-- What a line that does not end the session is answered with. -/
inductive Reply where
  /-- The line is blank. -/
  | nothing
  | value (result : Int64)
  /-- The text has no value. -/
  | diagnostic (fault : Fault) (text : String)
  deriving DecidableEq

def Reply.text : Reply → String
  | .nothing => ""
  | .value result => Numeral.write result ++ "\n"
  | .diagnostic fault text => fault.diagnostic text none

/-- Whether the line had no value. -/
def Reply.isIdle : Reply → Bool
  | .value _ => false
  | .nothing | .diagnostic _ _ => true

/-- The reply to a line and the environment for the next one, or nothing where the line ends the
session. -/
def replyTo (line : String) (env : Environment) : Option (Reply × Environment) :=
  let text := Unicode.trim line
  if text = "" then some (.nothing, env)
  else if text ∈ stopWords then none
  else match evaluate .statement text env with
    | .ok value after => some (.value value, after)
    | .error fault after => some (.diagnostic fault text, after)

structure Exchange where
  line : List UInt8
  reply : Reply
  deriving DecidableEq

/-- What the session writes for a line: its prompt and its answer. -/
def Exchange.bytes (exchange : Exchange) : List UInt8 :=
  Utf8.encode prompt ++ Utf8.encode exchange.reply.text

/-- Why a session ends. -/
inductive Ending where
  | endOfInput
  | stopped
  | invalidText
  deriving DecidableEq

/-- What the session writes behind its last prompt. -/
def Ending.text : Ending → String
  | .endOfInput => "\n"
  | .stopped => "Goodbye!\n"
  | .invalidText => ""

def Ending.result : Ending → Except Failure Unit
  | .endOfInput | .stopped => .ok ()
  | .invalidText => .error .invalidText

/-- The exchanges of a session, and why there are no more. -/
structure Conversation where
  exchanges : List Exchange
  ending : Ending
  deriving DecidableEq

namespace Conversation

def after (exchange : Exchange) (conversation : Conversation) : Conversation :=
  { conversation with exchanges := exchange :: conversation.exchanges }

/-- The bytes of the exchanges, the last prompt, and what is written behind it. -/
def transcript (conversation : Conversation) : List UInt8 :=
  conversation.exchanges.flatMap Exchange.bytes ++
    (Utf8.encode prompt ++ Utf8.encode conversation.ending.text)

/-- How a session ends on a writer that takes everything. -/
def outcome (conversation : Conversation) : EStateM.Result Failure Writer Unit :=
  Output.ended conversation.ending.result (Writer.unlimited.take conversation.transcript)

end Conversation

/-- The conversation over lines. -/
def converse : List (List UInt8) → Environment → Conversation
  | [], _ => ⟨[], .endOfInput⟩
  | line :: lines, env =>
    match Utf8.decode? line with
    | none => ⟨[], .invalidText⟩
    | some text =>
      match replyTo text env with
      | none => ⟨[], .stopped⟩
      | some (reply, after) => (converse lines after).after ⟨line, reply⟩

/-- The conversation over all lines of an input. -/
def conversation (input : List UInt8) : Conversation :=
  converse (Utf8.lines input) .empty

section
variable {line : String} {env after : Environment} {reply : Reply}

theorem says_answerLine_of_stop (stop : replyTo line env = none) :
    (answerLine line env).Says (Utf8.encode Ending.stopped.text) (.ok none) := by
  unfold replyTo at stop
  unfold answerLine
  dsimp only at stop ⊢
  split at stop
  · cases stop
  · rename_i text
    split at stop
    · rename_i stops
      rw [if_neg text, if_pos stops]
      exact (Output.says_print "Goodbye!\n").bind_pure fun _ => none
    · split at stop <;> cases stop

theorem says_answerLine (replies : replyTo line env = some (reply, after)) :
    (answerLine line env).Says (Utf8.encode reply.text) (.ok (some after)) := by
  unfold replyTo at replies
  unfold answerLine
  dsimp only at replies ⊢
  split at replies
  · rename_i blank
    cases replies
    rw [if_pos blank]
    exact Output.says_pure (some env)
  · rename_i text
    split at replies
    · cases replies
    · rename_i goes_on
      rw [if_neg text, if_neg goes_on]
      split at replies
      · rename_i ran
        cases replies
        exact (Output.says_answer_of_ok ran none).map some
      · rename_i failed
        cases replies
        exact (Output.says_answer_of_error failed none).map some

theorem transcript_after (exchange : Exchange) (conversation : Conversation) :
    (conversation.after exchange).transcript = exchange.bytes ++ conversation.transcript := by
  simp [Conversation.transcript, Conversation.after]

/-- A session writes its conversation. -/
theorem says_serve (lines : List (List UInt8)) (env : Environment) :
    (serve lines env).Says (converse lines env).transcript (converse lines env).ending.result := by
  induction lines generalizing env with
  | nil => exact (Output.says_print prompt).bind (Output.says_print "\n")
  | cons line lines ih =>
    rw [serve, converse]
    cases decoded : Utf8.decode? line with
    | none => exact (Output.says_print prompt).bind (Output.says_throw .invalidText)
    | some text =>
      dsimp only
      cases replies : replyTo text env with
      | none =>
        dsimp only
        refine (Output.says_print prompt).bind ?_
        rw [← List.append_nil (Utf8.encode _)]
        exact (says_answerLine_of_stop replies).bind (Output.says_pure ())
      | some pair =>
        obtain ⟨reply, after⟩ := pair
        dsimp only
        rw [transcript_after, Exchange.bytes, List.append_assoc]
        refine (Output.says_print prompt).bind ?_
        exact (says_answerLine replies).bind (ih after)

end

/-! ### Deleted lines -/

/-- A list without the elements at some of its places. -/
def without {α : Type} (deleted : Nat → Bool) : List α → List α
  | [] => []
  | head :: rest =>
    if deleted 0 then without (fun index => deleted (index + 1)) rest
    else head :: without (fun index => deleted (index + 1)) rest

theorem without_sublist {α : Type} (deleted : Nat → Bool) (list : List α) :
    (without deleted list).Sublist list := by
  induction list generalizing deleted with
  | nil => exact .slnil
  | cons head rest ih =>
    rw [without]
    split
    · exact (ih _).cons head
    · exact (ih _).cons_cons head

namespace Conversation

def without (deleted : Nat → Bool) (conversation : Conversation) : Conversation :=
  { conversation with exchanges := Session.without deleted conversation.exchanges }

/-- The places are those of lines without a value. -/
def IdleAt (deleted : Nat → Bool) (conversation : Conversation) : Prop :=
  ∀ index, deleted index = true → ∃ exchange,
    conversation.exchanges[index]? = some exchange ∧ exchange.reply.isIdle = true

end Conversation

section
variable {line : String} {env after : Environment} {reply : Reply} {deleted : Nat → Bool}
  {lines : List (List UInt8)} {exchange : Exchange} {others : Conversation} {ending : Ending}
  {input : List UInt8}

/-- A line without a value changes nothing. -/
theorem eq_of_idle (replies : replyTo line env = some (reply, after))
    (idle : reply.isIdle = true) : after = env := by
  unfold replyTo at replies
  dsimp only at replies
  split at replies
  · cases replies
    rfl
  · split at replies
    · cases replies
    · split at replies
      · cases replies
        cases idle
      · rename_i failed
        cases replies
        exact evaluate_statement_error failed

theorem not_deleted (idle : Conversation.IdleAt deleted ⟨[], ending⟩) : deleted 0 = false := by
  by_cases first : deleted 0 = true
  · obtain ⟨exchange, absent, _⟩ := idle 0 first
    cases absent
  · exact Bool.eq_false_iff.mpr first

theorem Conversation.IdleAt.behind (idle : (others.after exchange).IdleAt deleted) :
    others.IdleAt fun index => deleted (index + 1) :=
  fun index gone => idle (index + 1) gone

/-- Without lines that have no value the conversation lacks their exchanges, and nothing else. -/
theorem converse_without (idle : (converse lines env).IdleAt deleted) :
    converse (without deleted lines) env = (converse lines env).without deleted := by
  induction lines generalizing env deleted with
  | nil => rfl
  | cons line lines ih =>
    rw [converse] at idle ⊢
    cases decoded : Utf8.decode? line with
    | none =>
      rw [decoded] at idle
      rw [without, not_deleted idle]
      simp [converse, decoded, Conversation.without, without]
    | some text =>
      rw [decoded] at idle
      dsimp only at idle ⊢
      cases replies : replyTo text env with
      | none =>
        rw [replies] at idle
        rw [without, not_deleted idle]
        simp [converse, decoded, replies, Conversation.without, without]
      | some pair =>
        obtain ⟨reply, after⟩ := pair
        rw [replies] at idle
        dsimp only at idle ⊢
        have others := ih idle.behind
        by_cases gone : deleted 0 = true
        · -- The lines behind start from the environment that this one started from.
          obtain ⟨_, first, nothing⟩ := idle 0 gone
          cases first
          obtain rfl := eq_of_idle replies nothing
          rw [without, if_pos gone, others]
          simp [Conversation.without, Conversation.after, without, gone]
        · rw [without, if_neg gone, converse, decoded]
          dsimp only
          rw [replies]
          dsimp only
          rw [others]
          simp [Conversation.without, Conversation.after, without, gone]

theorem lines_of_converse (lines : List (List UInt8)) (env : Environment) :
    (converse lines env).exchanges.map Exchange.line <+: lines := by
  induction lines generalizing env with
  | nil => exact List.prefix_rfl
  | cons line lines ih =>
    rw [converse]
    split
    · exact List.nil_prefix
    · split
      · exact List.nil_prefix
      · exact List.cons_prefix_cons.mpr ⟨rfl, ih _⟩

theorem run_unlimited (input : List UInt8) :
    run input .unlimited = (conversation input).outcome := by
  have fits (bytes : Nat) : Writer.unlimited.fits bytes = true := rfl
  rw [run, says_serve _ _ .unlimited rfl, if_pos (fits _)]
  rfl

theorem conversation_without (idle : (conversation input).IdleAt deleted) :
    conversation (without deleted (Utf8.lines input)).flatten =
      (conversation input).without deleted := by
  have cut := (Utf8.cut_lines input).sublist (without_sublist deleted _)
  rw [conversation, cut.lines_flatten]
  exact converse_without idle

/-- Each line of a session up to its end has an exchange. Any lines that are blank or fail can be
deleted from the input: what is written is the same without their prompts and answers, every other
line has the same answer, and the session ends the same way. -/
theorem run_without (idle : (conversation input).IdleAt deleted) :
    (conversation input).exchanges.map Exchange.line <+: Utf8.lines input ∧
    conversation (without deleted (Utf8.lines input)).flatten =
      (conversation input).without deleted ∧
    run input .unlimited = (conversation input).outcome ∧
    run (without deleted (Utf8.lines input)).flatten .unlimited =
      ((conversation input).without deleted).outcome := by
  have same := conversation_without idle
  refine ⟨lines_of_converse _ _, same, run_unlimited input, ?_⟩
  rw [run_unlimited, same]

/-- A blank line and one that fails are deleted, and a name stays bound. -/
theorem run_without_two :
    (conversation (Utf8.encode "var a = 1\n \nb = 2\na + 1")).IdleAt
        (fun index => index == 1 || index == 2) ∧
      (conversation (Utf8.encode "var a = 1\na + 1")).exchanges =
        [⟨Utf8.encode "var a = 1\n", .value 1⟩, ⟨Utf8.encode "a + 1", .value 2⟩] ∧
      run (Utf8.encode "var a = 1\na + 1") .unlimited =
        .ok () (Writer.unlimited.take (Utf8.encode ">>> 1\n>>> 2\n>>> \n")) := by
  have all : conversation (Utf8.encode "var a = 1\n \nb = 2\na + 1") =
      ⟨[⟨Utf8.encode "var a = 1\n", .value 1⟩, ⟨Utf8.encode " \n", .nothing⟩,
        ⟨Utf8.encode "b = 2\n", .diagnostic ⟨.undefinedVariable "b", ⟨0, 1⟩⟩ "b = 2"⟩,
        ⟨Utf8.encode "a + 1", .value 2⟩], .endOfInput⟩ := by
    decide +kernel
  have idle : (conversation (Utf8.encode "var a = 1\n \nb = 2\na + 1")).IdleAt
      (fun index => index == 1 || index == 2) := by
    intro index gone
    rw [all]
    simp only [Bool.or_eq_true, beq_iff_eq] at gone
    rcases gone with rfl | rfl
    · exact ⟨_, rfl, rfl⟩
    · exact ⟨_, rfl, rfl⟩
  have kept : (without (fun index => index == 1 || index == 2)
      (Utf8.lines (Utf8.encode "var a = 1\n \nb = 2\na + 1"))).flatten =
        Utf8.encode "var a = 1\na + 1" := by
    decide +kernel
  obtain ⟨_, same, _, ran⟩ := run_without idle
  rw [kept, all] at same ran
  have said : (conversation (Utf8.encode "var a = 1\na + 1")).transcript =
      Utf8.encode ">>> 1\n>>> 2\n>>> \n" := by
    rw [same]
    decide +kernel
  refine ⟨idle, by rw [same]; rfl, ?_⟩
  rw [ran, ← same, ← said, Conversation.outcome, same]
  rfl

end

end Session

end Calculator
