import Calculator.Answer

/-!
# Writing

What a step of output writes and how it ends, on every writer that refuses nothing: `Says`. A writer
that runs full takes what it has room for, and nothing more is written behind that.
-/

namespace Calculator

namespace Writer

section
variable {writer : Writer} {bytes more : List UInt8}

@[simp]
theorem refusing_take (writer : Writer) (bytes : List UInt8) :
    (writer.take bytes).refusing = writer.refusing := by
  unfold take
  split <;> rfl

theorem take_nil (writer : Writer) : writer.take [] = writer := by
  obtain ⟨taken, room, refusing⟩ := writer
  cases room with
  | none => simp [take]
  | some room => simp [take]

theorem fits_nil (writer : Writer) : writer.fits ([] : List UInt8).length = true := by
  obtain ⟨taken, room, refusing⟩ := writer
  cases room with
  | none => rfl
  | some room => exact decide_eq_true (Nat.zero_le room)

theorem take_append (writer : Writer) (bytes more : List UInt8) :
    writer.take (bytes ++ more) = (writer.take bytes).take more := by
  obtain ⟨taken, room, refusing⟩ := writer
  cases room with
  | none =>
    have same : taken ++ (bytes ++ more) = taken ++ bytes ++ more := Array.ext' (by simp)
    simp [take, same]
  | some room =>
    have same : taken ++ (bytes ++ more).take room =
        taken ++ bytes.take room ++ more.take (room - bytes.length) :=
      Array.ext' (by simp [List.take_append])
    simp [take, same, Nat.sub_sub]

theorem fits_append (writer : Writer) (bytes more : List UInt8) :
    writer.fits (bytes ++ more).length =
      (writer.fits bytes.length && (writer.take bytes).fits more.length) := by
  obtain ⟨taken, room, refusing⟩ := writer
  cases room with
  | none => rfl
  | some room =>
    simp only [fits, take, Option.all_some, List.length_append, ← Bool.decide_and]
    congr 1
    apply propext
    omega

/-- A writer that has run full takes no more. -/
theorem take_of_full (full : ¬writer.fits bytes.length = true) :
    (writer.take bytes).take more = writer.take bytes ∧
      (more ≠ [] → ¬(writer.take bytes).fits more.length = true) := by
  obtain ⟨taken, room, refusing⟩ := writer
  cases room with
  | none => exact absurd rfl full
  | some room =>
    simp only [fits, Option.all_some, decide_eq_true_eq] at full
    have none_left : room - bytes.length = 0 := by omega
    simp [take, fits, none_left]

end

end Writer

namespace Output

/-- The end of a step that leaves the writer. -/
def ended {α : Type} (result : Except Failure α) (writer : Writer) :
    EStateM.Result Failure Writer α :=
  match result with
  | .ok value => .ok value writer
  | .error failure => .error failure writer

/-- The step offers the bytes and ends with the result, on any writer that refuses nothing. One that
runs full takes the bytes it has room for, and the step fails. -/
def Says {α : Type} (step : Output α) (bytes : List UInt8) (result : Except Failure α) : Prop :=
  ∀ writer : Writer, writer.refusing = false →
    step writer =
      if writer.fits bytes.length then ended result (writer.take bytes)
      else ended (.error .closed) (writer.take bytes)

section
variable {α β : Type} {first : Output α} {second : α → Output β} {value : α}
  {bytes more : List UInt8} {result : Except Failure β}

theorem says_pure (value : α) : (pure value : Output α).Says [] (.ok value) := by
  intro writer _
  rw [if_pos writer.fits_nil, Writer.take_nil]
  rfl

theorem says_throw (failure : Failure) : (throw failure : Output α).Says [] (.error failure) := by
  intro writer _
  rw [if_pos writer.fits_nil, Writer.take_nil]
  rfl

theorem says_print (text : String) : (print text).Says (Utf8.encode text) (.ok ()) := by
  intro writer taking
  unfold print write
  by_cases empty : Utf8.encode text = []
  · rw [empty]
    exact says_pure () writer taking
  · rw [if_neg empty, taking]
    rfl

theorem Says.bind (h : first.Says bytes (.ok value)) (next : (second value).Says more result) :
    (first >>= second).Says (bytes ++ more) result := by
  intro writer taking
  show EStateM.bind first second writer = _
  unfold EStateM.bind
  rw [h writer taking, Writer.fits_append]
  by_cases fits : writer.fits bytes.length = true
  · rw [if_pos fits, fits, Bool.true_and, Writer.take_append]
    exact next _ (by simp [taking])
  · rw [if_neg fits, Bool.eq_false_iff.mpr fits, Bool.false_and, Writer.take_append,
      (Writer.take_of_full fits).1]
    rfl

theorem Says.bind_pure (h : first.Says bytes (.ok value)) (function : α → β) :
    (first >>= fun value => pure (function value)).Says bytes (.ok (function value)) := by
  rw [← List.append_nil bytes]
  exact h.bind (says_pure (function value))

theorem Says.map (h : first.Says bytes (.ok value)) (function : α → β) :
    (function <$> first).Says bytes (.ok (function value)) :=
  h.bind_pure function

theorem tryCatch_eq (step : Output α) (other : Failure → Output α) (writer : Writer) :
    (tryCatch step other : Output α) writer = match step writer with
      | .ok value after => .ok value after
      | .error failure after => other failure after := by
  show EStateM.tryCatch step other writer = _
  unfold EStateM.tryCatch
  cases step writer with
  | ok value after => rfl
  | error failure after => rfl

end

section
variable {mode : Mode} {source : String} {env after : Environment}

/-- The bare message is not written where there is no room for the diagnostic. -/
theorem says_emit (fault : Fault) (source : String) (filename : Option String) :
    (fault.emit source filename).Says (Utf8.encode (fault.diagnostic source filename))
      (.ok ()) := by
  intro writer taking
  unfold Fault.emit Fault.report
  rw [tryCatch_eq, says_print _ writer taking]
  by_cases fits : writer.fits (Utf8.encode (fault.diagnostic source filename)).length = true
  · rw [if_pos fits]
    rfl
  · have said := says_print ("error: " ++ fault.message ++ "\n")
      (writer.take (Utf8.encode (fault.diagnostic source filename))) (by simp [taking])
    have some : Utf8.encode ("error: " ++ fault.message ++ "\n") ≠ [] := by
      rw [Utf8.encode_append]
      exact List.append_ne_nil_of_right_ne_nil _ (by decide +kernel)
    obtain ⟨same, full⟩ := Writer.take_of_full fits
    rw [if_neg fits]
    rw [if_neg (full some), same] at said
    exact said

theorem says_answer_of_ok {value : Int64}
    (ran : evaluate mode source env = .ok value after) (filename : Option String) :
    (answer mode source filename env).Says (Utf8.encode (Numeral.write value ++ "\n"))
      (.ok after) := by
  unfold answer
  rw [ran]
  exact (says_print _).bind_pure fun _ => after

theorem says_answer_of_error {fault : Fault}
    (failed : evaluate mode source env = .error fault after) (filename : Option String) :
    (answer mode source filename env).Says (Utf8.encode (fault.diagnostic source filename))
      (.ok after) := by
  unfold answer
  rw [failed]
  exact (says_emit fault source filename).bind_pure fun _ => after

end

end Output

end Calculator
