import Calculator.Proofs.Conversation

/-!
# Full writers

A writer that runs full has taken a first part of what a step writes, and the step has failed there:
`Truncates`. That is so for every step that says the same to all writers, so for diagnostics, for
programs and for whole sessions, see `output_truncates`.
-/

namespace Calculator

namespace Output

section
variable {α : Type}

/-- What the writer has taken when a step ends. -/
def takenBy : EStateM.Result Failure Writer α → List UInt8
  | .ok _ writer | .error _ writer => writer.taken.toList

/-- How a step ends. -/
def endOf : EStateM.Result Failure Writer α → Except Failure α
  | .ok value _ => .ok value
  | .error failure _ => .error failure

/-- Where there is room for some bytes only, the step writes the first of those that it writes where
there is room for all. It fails if any are left, and else it ends as it does there. -/
def Truncates (step : Output α) : Prop :=
  ∀ room : Nat,
    takenBy (step (.ofRoom room)) =
      (takenBy (step .unlimited)).take (min room (takenBy (step .unlimited)).length) ∧
    endOf (step (.ofRoom room)) =
      if room < (takenBy (step .unlimited)).length then .error .closed else endOf (step .unlimited)

theorem takenBy_ended (result : Except Failure α) (writer : Writer) :
    takenBy (ended result writer) = writer.taken.toList := by
  cases result <;> rfl

theorem endOf_ended (result : Except Failure α) (writer : Writer) :
    endOf (ended result writer) = result := by
  cases result <;> rfl

theorem toList_taken_unlimited (bytes : List UInt8) :
    (Writer.unlimited.take bytes).taken.toList = bytes := by
  simp [Writer.take, Writer.unlimited]

theorem toList_taken_ofRoom (room : Nat) (bytes : List UInt8) :
    ((Writer.ofRoom room).take bytes).taken.toList = bytes.take room := by
  simp [Writer.take, Writer.ofRoom]

theorem fits_ofRoom (room count : Nat) : (Writer.ofRoom room).fits count = decide (count ≤ room) :=
  rfl

section
variable {step other : Output α} {bytes more : List UInt8} {result : Except Failure α} {room : Nat}

theorem Says.unlimited (h : step.Says bytes result) :
    step .unlimited = ended result (Writer.unlimited.take bytes) :=
  h .unlimited rfl

theorem Says.truncates (h : step.Says bytes result) : step.Truncates := by
  intro room
  rw [h.unlimited, takenBy_ended, endOf_ended, toList_taken_unlimited, h (.ofRoom room) rfl,
    fits_ofRoom]
  by_cases fits : bytes.length ≤ room
  · rw [if_pos (decide_eq_true fits), takenBy_ended, endOf_ended, toList_taken_ofRoom,
      Nat.min_eq_right fits, if_neg (Nat.not_lt.mpr fits), List.take_of_length_le fits,
      List.take_length]
    exact ⟨rfl, rfl⟩
  · have less : room < bytes.length := Nat.lt_of_not_le fits
    rw [if_neg (by simpa using less), takenBy_ended, endOf_ended, toList_taken_ofRoom,
      Nat.min_eq_left (Nat.le_of_lt less), if_pos less]
    exact ⟨rfl, rfl⟩

/-- What comes behind the end of the room makes no difference. -/
theorem Says.ofRoom_of_lt (h : step.Says (bytes ++ more) result) (less : room < bytes.length) :
    step (.ofRoom room) = ended (.error .closed) ((Writer.ofRoom room).take bytes) := by
  have full : ¬(Writer.ofRoom room).fits bytes.length = true := by
    rw [fits_ofRoom]
    simpa using less
  rw [h (.ofRoom room) rfl, Writer.fits_append, Bool.eq_false_iff.mpr full, Bool.false_and,
    if_neg Bool.false_ne_true, Writer.take_append, (Writer.take_of_full full).1]

end

end

end Output

/-! ### Programs and sessions -/

theorem says_report (fault : Fault) (source : String) (filename : Option String) :
    (fault.report source filename).Says (Utf8.encode (fault.diagnostic source filename)) (.ok ()) :=
  Output.says_print _

theorem says_answerProgram (source : String) (filename : Option String) :
    ∃ text, (answerProgram source filename).Says (Utf8.encode text) (.ok ()) := by
  unfold answerProgram
  cases ran : evaluate .program source .empty with
  | ok value after =>
    exact ⟨_, (Output.says_answer_of_ok ran filename).bind_pure fun _ => ()⟩
  | error fault after =>
    exact ⟨_, (Output.says_answer_of_error ran filename).bind_pure fun _ => ()⟩

namespace Session

/-- A session over more lines begins with the same exchanges. -/
theorem exchanges_append (before behind : List (List UInt8)) (env : Environment) :
    ∃ more, (converse (before ++ behind) env).transcript =
      (converse before env).exchanges.flatMap Exchange.bytes ++ more := by
  induction before generalizing env with
  | nil => exact ⟨_, rfl⟩
  | cons line lines ih =>
    rw [List.cons_append, converse, converse]
    split
    · exact ⟨_, rfl⟩
    · split
      · exact ⟨_, rfl⟩
      · rename_i reply after _
        obtain ⟨more, same⟩ := ih after
        refine ⟨more, ?_⟩
        rw [transcript_after, same, Conversation.after, List.flatMap_cons, List.append_assoc]

/-- A session that runs out of room while it answers some lines is over: the lines behind them do
not count. -/
theorem serve_append_of_lt {before : List (List UInt8)} {env : Environment} {room : Nat}
    (less : room < ((converse before env).exchanges.flatMap Exchange.bytes).length)
    (behind : List (List UInt8)) :
    serve (before ++ behind) env (.ofRoom room) =
      Output.ended (.error .closed)
        ((Writer.ofRoom room).take ((converse before env).exchanges.flatMap Exchange.bytes)) := by
  obtain ⟨more, same⟩ := exchanges_append before behind env
  have said := says_serve (before ++ behind) env
  rw [same] at said
  exact said.ofRoom_of_lt less

end Session

/-- Diagnostics, with a bare message to fall back on or without, programs and sessions are cut off
where the room ends, and nowhere else. The bare message adds nothing to a diagnostic that is cut
off, and a session that is cut off does nothing for the lines behind. -/
theorem output_truncates :
    (∀ (fault : Fault) (source : String) (filename : Option String),
      (fault.report source filename).Truncates) ∧
    (∀ (fault : Fault) (source : String) (filename : Option String),
      (fault.emit source filename).Truncates) ∧
    (∀ (source : String) (filename : Option String), (answerProgram source filename).Truncates) ∧
    (∀ input, (Session.run input).Truncates) ∧
    (∀ (fault : Fault) (source : String) (filename : Option String) (room : Nat),
      fault.emit source filename (.ofRoom room) = fault.report source filename (.ofRoom room)) ∧
    (∀ (before behind other : List (List UInt8)) (env : Environment) (room : Nat),
      room < ((Session.converse before env).exchanges.flatMap Session.Exchange.bytes).length →
      Session.serve (before ++ behind) env (.ofRoom room) =
        Session.serve (before ++ other) env (.ofRoom room)) := by
  refine ⟨?_, ?_, ?_, ?_, ?_, ?_⟩
  · exact fun fault source filename => (says_report fault source filename).truncates
  · exact fun fault source filename => (Output.says_emit fault source filename).truncates
  · intro source filename
    obtain ⟨_, said⟩ := says_answerProgram source filename
    exact said.truncates
  · exact fun input => (Session.says_serve (Utf8.lines input) .empty).truncates
  · intro fault source filename room
    rw [Output.says_emit fault source filename (.ofRoom room) rfl,
      says_report fault source filename (.ofRoom room) rfl]
  · intro before behind other env room less
    rw [Session.serve_append_of_lt less behind, Session.serve_append_of_lt less other]

/-- The room ends inside the value of the first line, and the second line is not even text. -/
theorem output_truncates_inside_value :
    Output.takenBy (Session.run (Utf8.encode "12+30\n" ++ [0xff]) (.ofRoom 5)) =
        Utf8.encode ">>> 4" ∧
      Output.endOf (Session.run (Utf8.encode "12+30\n" ++ [0xff]) (.ofRoom 5)) =
        .error .closed := by
  obtain ⟨bytes, ending⟩ := output_truncates.2.2.2.1 (Utf8.encode "12+30\n" ++ [0xff]) 5
  have all : Output.takenBy (Session.run (Utf8.encode "12+30\n" ++ [0xff]) .unlimited) =
      Utf8.encode ">>> 42\n>>> " := by
    decide +kernel
  rw [all] at bytes ending
  exact ⟨bytes.trans (by decide +kernel), ending.trans (if_pos (by decide +kernel))⟩

end Calculator
