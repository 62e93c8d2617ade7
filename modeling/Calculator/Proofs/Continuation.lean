import Calculator.Proofs.Ledger
import Calculator.Proofs.Truncation

/-!
# Sessions that go on

A session over more input goes on in the environment that the lines so far have left, unless one of
them has ended it: see `converse_append` and `serve_cons_of_stops`, which `run_input_append` puts
together. A last line without the byte that ends a line is answered as if it had it, by
`serve_ended`.
-/

namespace Calculator

namespace Utf8

section
variable {bytes rest : List UInt8} {text : String}

/-! ### Texts and their bytes -/

theorem decode?_eq_some_iff : decode? bytes = some text ↔ bytes = encode text := by
  have array (text : String) : (encode text).toByteArray = text.toByteArray :=
    String.utf8Encode_toList
  constructor
  · intro decoded
    unfold decode? String.fromUTF8? at decoded
    split at decoded
    · rename_i valid
      cases decoded
      have same := congrArg (fun bytes : ByteArray => bytes.data.toList)
        (array (String.fromUTF8 bytes.toByteArray valid))
      simp only [List.data_toByteArray] at same
      rw [same]
      simp [String.fromUTF8]
    · cases decoded
  · rintro rfl
    rw [decode?, array, String.fromUTF8?, dif_pos text.isValidUTF8]
    rfl

/-- The byte that ends a line is the last one of no character but its own. -/
theorem eq_of_utf8EncodeChar {c : Char} (h : String.utf8EncodeChar c = rest ++ [lineFeed]) :
    c = '\n' ∧ rest = [] := by
  have continues (value : Nat) : UInt8.ofNat (value % 64 + 128) ≠ lineFeed := by
    intro same
    have value := congrArg UInt8.toNat same
    simp [lineFeed] at value
    omega
  have last := congrArg List.getLast? h
  rw [List.getLast?_append, List.getLast?_singleton, Option.some_or] at last
  unfold String.utf8EncodeChar at h last
  dsimp only at h last
  split at h
  · have split : [] ++ [UInt8.ofNat c.val.toNat] = rest ++ [lineFeed] := h
    obtain ⟨rfl, same⟩ := List.append_inj' split rfl
    have value := congrArg UInt8.toNat (List.cons.inj same).1
    rw [UInt8.toNat_ofNat_of_lt' (show c.val.toNat < 256 by omega)] at value
    exact ⟨Char.ext (UInt32.toNat_inj.mp value), rfl⟩
  · rename_i wide
    rw [if_neg wide] at last
    split at last
    · exact absurd (Option.some.inj last) (continues _)
    · split at last
      · exact absurd (Option.some.inj last) (continues _)
      · exact absurd (Option.some.inj last) (continues _)

theorem encode_line (text : String) : encode (text ++ "\n") = encode text ++ [lineFeed] :=
  encode_append text "\n"

theorem exists_of_encode_eq (h : encode text = bytes ++ [lineFeed]) :
    ∃ front, bytes = encode front := by
  rcases List.eq_nil_or_concat text.toList with empty | ⟨front, c, spelled⟩
  · rw [encode, empty] at h
    simp at h
  · rw [encode, spelled, List.concat_eq_append, List.flatMap_append, List.flatMap_singleton] at h
    have some : String.utf8EncodeChar c ≠ [] :=
      List.ne_nil_of_length_pos (by rw [String.length_utf8EncodeChar]; exact c.utf8Size_pos)
    obtain ⟨init, last, split⟩ := (List.eq_nil_or_concat _).resolve_left some
    rw [split, List.concat_eq_append, ← List.append_assoc] at h
    obtain ⟨rfl, same⟩ := List.append_inj' h rfl
    obtain rfl := (List.cons.inj same).1
    rw [List.concat_eq_append] at split
    obtain ⟨_, rfl⟩ := eq_of_utf8EncodeChar split
    exact ⟨String.ofList front, by simp [encode]⟩

/-- Bytes are a text just where they are one with the end of a line behind them. -/
theorem decode?_append_lineFeed (bytes : List UInt8) :
    decode? (bytes ++ [lineFeed]) = (decode? bytes).map (· ++ "\n") := by
  cases decoded : decode? bytes with
  | some text =>
    rw [decode?_eq_some_iff] at decoded
    rw [Option.map_some, decode?_eq_some_iff, decoded, encode_line]
  | none =>
    cases longer : decode? (bytes ++ [lineFeed]) with
    | none => rfl
    | some text =>
      obtain ⟨front, same⟩ := exists_of_encode_eq (decode?_eq_some_iff.mp longer).symm
      rw [decode?_eq_some_iff.mpr same] at decoded
      cases decoded

/-! ### Lines of more bytes -/

theorem lines_append_of_ends (ends : bytes = [] ∨ bytes.getLast? = some lineFeed)
    (more : List UInt8) : lines (bytes ++ more) = lines bytes ++ lines more := by
  fun_induction lines bytes with
  | case1 => rfl
  | case2 tail ih =>
    have ends : tail = [] ∨ tail.getLast? = some lineFeed := by
      cases tail with
      | nil => exact .inl rfl
      | cons => exact .inr (by simpa using ends)
    rw [List.cons_append, lines, if_pos rfl, ih ends]
    rfl
  | case3 byte tail other none _ =>
    have empty := flatten_lines tail
    rw [none] at empty
    simp [← empty, other] at ends
  | case4 byte tail other line others cut ih =>
    have ends : tail.getLast? = some lineFeed := by
      cases tail with
      | nil => cases cut
      | cons => simpa using ends
    rw [List.cons_append, lines, if_neg other, ih (.inr ends), cut]
    rfl

/-- Whatever comes behind a line that has its end, the lines up to it stay. -/
theorem exists_lines_append {before behind : List (List UInt8)} {line : List UInt8}
    (cut : lines bytes = before ++ line :: behind) (ended : line.getLast? = some lineFeed)
    (more : List UInt8) : ∃ others, lines (bytes ++ more) = before ++ line :: others := by
  have split : bytes = (before ++ [line]).flatten ++ behind.flatten := by
    rw [← flatten_lines bytes, cut]
    simp
  have front : lines (before ++ [line]).flatten = before ++ [line] := by
    have all := cut_lines bytes
    rw [cut] at all
    have shorter : (before ++ [line]).Sublist (before ++ line :: behind) :=
      ((List.nil_sublist behind).cons_cons line).append_left before
    exact (all.sublist shorter).lines_flatten
  have ends : (before ++ [line]).flatten.getLast? = some lineFeed := by
    rw [List.flatten_append, List.flatten_singleton, List.getLast?_append, ended, Option.some_or]
  refine ⟨lines (behind.flatten ++ more), ?_⟩
  rw [split, List.append_assoc, lines_append_of_ends (.inr ends), front, List.append_assoc]
  rfl

/-- Where its end is put behind it, the last line alone is another one. -/
theorem exists_lines_ended (nonempty : bytes ≠ []) (lacking : bytes.getLast? ≠ some lineFeed) :
    ∃ before line, lines bytes = before ++ [line] ∧
      lines (bytes ++ [lineFeed]) = before ++ [line ++ [lineFeed]] := by
  fun_induction lines bytes with
  | case1 => exact absurd rfl nonempty
  | case2 tail ih =>
    cases tail with
    | nil => exact absurd rfl lacking
    | cons next tail =>
      obtain ⟨before, line, same, ended⟩ := ih (by simp) (by simpa using lacking)
      refine ⟨[lineFeed] :: before, line, by rw [same]; rfl, ?_⟩
      rw [List.cons_append, lines, if_pos rfl, ended]
      rfl
  | case3 byte tail other none _ =>
    have empty := flatten_lines tail
    rw [none] at empty
    obtain rfl : [] = tail := empty
    exact ⟨[], [byte], rfl, by simp [lines, other]⟩
  | case4 byte tail other line others cut ih =>
    cases tail with
    | nil => cases cut
    | cons next tail =>
      obtain ⟨before, last, same, ended⟩ := ih (by simp) (by simpa using lacking)
      rw [same] at cut
      cases before with
      | nil =>
        obtain ⟨rfl, rfl⟩ := List.cons.inj cut
        refine ⟨[], byte :: last, rfl, ?_⟩
        rw [List.cons_append, lines, if_neg other, ended]
        rfl
      | cons first before =>
        obtain ⟨rfl, rfl⟩ := List.cons.inj cut
        refine ⟨(byte :: first) :: before, last, rfl, ?_⟩
        rw [List.cons_append, lines, if_neg other, ended]
        rfl

end

end Utf8

/-- The end of a line is white space. -/
theorem Unicode.trim_line (text : String) : trim (text ++ "\n") = trim text := by
  have blank : isWhitespace '\n' = true := by decide
  have ended (rest : List Char) : trimEnd (rest ++ ['\n']) = trimEnd rest := by
    rw [trimEnd, List.reverse_append, List.reverse_singleton, List.singleton_append,
      List.dropWhile_cons_of_pos blank, trimEnd]
  have spelled : (text ++ "\n").toList = text.toList ++ ['\n'] := String.toList_append
  rw [trim, spelled, List.dropWhile_append, trim]
  split
  · rename_i empty
    rw [List.isEmpty_iff.mp empty, List.dropWhile_cons_of_pos blank, List.dropWhile_nil]
  · rw [ended]

namespace Session

/-- Whether a line ends a session: it is not text, or a stop word but for white space around it. -/
def stops (line : List UInt8) : Bool :=
  match Utf8.decode? line with
  | none => true
  | some text => Unicode.trim text ∈ stopWords

/-- The environment behind a line. One that is not blank is a statement. -/
def behindLine (env : Environment) (line : List UInt8) : Environment :=
  match Utf8.decode? line with
  | none => env
  | some text =>
    if Unicode.trim text = "" then env
    else leftBy (evaluate .statement (Unicode.trim text) env)

/-- The environment that lines leave which do not end the session. -/
def behindLines (lines : List (List UInt8)) (env : Environment) : Environment :=
  lines.foldl behindLine env

/-- The conversation that goes on from some exchanges. -/
def Conversation.behind (exchanges : List Exchange) (conversation : Conversation) : Conversation :=
  { conversation with exchanges := exchanges ++ conversation.exchanges }

section
variable {line : List UInt8} {text : String} {env : Environment} {before : List (List UInt8)}

/-! ### Lines that do not end the session -/

theorem replyTo_of_not_stop (going : Unicode.trim text ∉ stopWords) (env : Environment) :
    ∃ reply, replyTo text env = some (reply, if Unicode.trim text = "" then env
      else leftBy (evaluate .statement (Unicode.trim text) env)) := by
  unfold replyTo
  dsimp only
  by_cases blank : Unicode.trim text = ""
  · rw [if_pos blank, if_pos blank]
    exact ⟨_, rfl⟩
  · rw [if_neg blank, if_neg going, if_neg blank]
    cases evaluate .statement (Unicode.trim text) env with
    | ok value after => exact ⟨_, rfl⟩
    | error fault after => exact ⟨_, rfl⟩

theorem converse_cons (going : stops line = false) (env : Environment) :
    ∃ exchange, ∀ lines, converse (line :: lines) env =
      (converse lines (behindLine env line)).after exchange := by
  unfold stops at going
  unfold behindLine
  cases decoded : Utf8.decode? line with
  | none => simp [decoded] at going
  | some text =>
    rw [decoded] at going
    obtain ⟨reply, replies⟩ := replyTo_of_not_stop (of_decide_eq_false going) env
    refine ⟨⟨line, reply⟩, fun lines => ?_⟩
    rw [converse, decoded]
    dsimp only
    rw [replies]

/-- Behind lines that do not end it, a session goes on in the environment that they leave. -/
theorem converse_append (going : ∀ line ∈ before, stops line = false) (env : Environment) :
    ∃ exchanges, ∀ behind, converse (before ++ behind) env =
      (converse behind (behindLines before env)).behind exchanges := by
  induction before generalizing env with
  | nil => exact ⟨[], fun _ => rfl⟩
  | cons line lines ih =>
    obtain ⟨first, others⟩ := List.forall_mem_cons.mp going
    obtain ⟨exchange, said⟩ := converse_cons first env
    obtain ⟨exchanges, same⟩ := ih others (behindLine env line)
    refine ⟨exchange :: exchanges, fun behind => ?_⟩
    rw [List.cons_append, said, same]
    rfl

theorem transcript_behind (exchanges : List Exchange) (conversation : Conversation) :
    (conversation.behind exchanges).transcript =
      exchanges.flatMap Exchange.bytes ++ conversation.transcript := by
  simp [Conversation.transcript, Conversation.behind]

theorem takenBy_serve (lines : List (List UInt8)) (env : Environment) :
    Output.takenBy (serve lines env .unlimited) = (converse lines env).transcript := by
  rw [(says_serve lines env).unlimited, Output.takenBy_ended, Output.toList_taken_unlimited]

theorem endOf_serve (lines : List (List UInt8)) (env : Environment) :
    Output.endOf (serve lines env .unlimited) = (converse lines env).ending.result := by
  rw [(says_serve lines env).unlimited, Output.endOf_ended]

/-! ### Lines that end the session -/

theorem serve_append_congr {first second : List (List UInt8)}
    (same : ∀ env, serve first env = serve second env) (before : List (List UInt8))
    (env : Environment) : serve (before ++ first) env = serve (before ++ second) env := by
  induction before generalizing env with
  | nil => exact same env
  | cons line lines ih =>
    rw [List.cons_append, List.cons_append, serve, serve]
    simp only [ih]

/-- Behind a line that ends the session nothing is read. -/
theorem serve_cons_of_stops (stopping : stops line = true) (behind : List (List UInt8))
    (env : Environment) : serve (line :: behind) env = serve [line] env := by
  unfold stops at stopping
  rw [serve, serve]
  cases decoded : Utf8.decode? line with
  | none => rfl
  | some text =>
    rw [decoded] at stopping
    have stop : Unicode.trim text ∈ stopWords := of_decide_eq_true stopping
    have nonempty : Unicode.trim text ≠ "" := fun blank => by simp [blank, stopWords] at stop
    simp only [answerLine, nonempty, stop, if_false, if_true, bind_assoc, pure_bind]

/-- The end of the last line makes no difference. -/
theorem serve_ended (line : List UInt8) (env : Environment) :
    serve [line ++ [Utf8.lineFeed]] env = serve [line] env := by
  rw [serve, serve, Utf8.decode?_append_lineFeed]
  cases Utf8.decode? line with
  | none => rfl
  | some text => simp only [Option.map_some, answerLine, Unicode.trim_line]

end

/-- A session over more input goes on behind lines that do not end it: its output is that over the
first input without the last prompt and the empty line, and then that of a session over the rest,
which starts in the environment that those lines leave. Behind a line that ends the session, once
that line is complete, no input makes any difference. Neither does the end of the last line. -/
theorem run_input_append (input : List UInt8) :
    ((input = [] ∨ input.getLast? = some Utf8.lineFeed) →
      (∀ line ∈ Utf8.lines input, stops line = false) →
      ∃ said, Output.takenBy (run input .unlimited) = said ++ Utf8.encode (prompt ++ "\n") ∧
        ∀ more,
          Output.takenBy (run (input ++ more) .unlimited) = said ++ Output.takenBy
            (serve (Utf8.lines more) (behindLines (Utf8.lines input) .empty) .unlimited) ∧
          Output.endOf (run (input ++ more) .unlimited) = Output.endOf
            (serve (Utf8.lines more) (behindLines (Utf8.lines input) .empty) .unlimited)) ∧
    ((∃ line ∈ Utf8.lines input, line.getLast? = some Utf8.lineFeed ∧ stops line = true) →
      ∀ more, run (input ++ more) = run input) ∧
    (input ≠ [] → input.getLast? ≠ some Utf8.lineFeed →
      run (input ++ [Utf8.lineFeed]) = run input) := by
  refine ⟨?_, ?_, ?_⟩
  · intro ends going
    obtain ⟨exchanges, same⟩ := converse_append going .empty
    refine ⟨exchanges.flatMap Exchange.bytes, ?_, fun more => ?_⟩
    · have alone := same []
      rw [List.append_nil] at alone
      rw [run, takenBy_serve, alone, transcript_behind, Utf8.encode_append]
      rfl
    · rw [run, Utf8.lines_append_of_ends ends, takenBy_serve, endOf_serve, takenBy_serve,
        endOf_serve, same, transcript_behind]
      exact ⟨rfl, rfl⟩
  · rintro ⟨line, member, ended, stopping⟩ more
    obtain ⟨before, behind, cut⟩ := List.append_of_mem member
    obtain ⟨others, longer⟩ := Utf8.exists_lines_append cut ended more
    have last (behind : List (List UInt8)) (env : Environment) :
        serve (line :: behind) env = serve [line] env := serve_cons_of_stops stopping behind env
    rw [run, run, longer, cut, serve_append_congr (last others), serve_append_congr (last behind)]
  · intro nonempty lacking
    obtain ⟨before, line, cut, ended⟩ := Utf8.exists_lines_ended nonempty lacking
    rw [run, run, ended, cut]
    exact serve_append_congr (serve_ended line) before .empty

/-- A name is bound in front of the cut and read behind it. A stop word among white space ends the
session, and so does a line that is not text. -/
theorem run_input_append_of_binding :
    Output.takenBy (run (Utf8.encode "var x = 2\n\n" ++ Utf8.encode "x * 3") .unlimited) =
        Utf8.encode ">>> 2\n>>> >>> 6\n>>> \n" ∧
      (∀ more, run (Utf8.encode "1\n\t quit\n2" ++ more) = run (Utf8.encode "1\n\t quit\n2")) ∧
      (∀ more, run ([0xc3, 0x0a] ++ more) = run [0xc3, 0x0a]) ∧
      run (Utf8.encode "1\nx" ++ [Utf8.lineFeed]) = run (Utf8.encode "1\nx") := by
  refine ⟨?_, ?_, ?_, ?_⟩
  · obtain ⟨said, alone, longer⟩ := (run_input_append (Utf8.encode "var x = 2\n\n")).1
      (by decide +kernel) (by decide +kernel)
    have all : Output.takenBy (run (Utf8.encode "var x = 2\n\n") .unlimited) =
        Utf8.encode ">>> 2\n>>> " ++ Utf8.encode (prompt ++ "\n") := by
      decide +kernel
    obtain rfl := List.append_cancel_right (alone.symm.trans all)
    rw [(longer _).1]
    decide +kernel
  · exact (run_input_append _).2.1 (by decide +kernel)
  · exact (run_input_append _).2.1 (by decide +kernel)
  · exact (run_input_append _).2.2 (by decide +kernel) (by decide +kernel)

end Session

end Calculator
