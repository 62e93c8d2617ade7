import Calculator.Proofs.Decimal
import Calculator.Proofs.Locality

/-!
# The texts of tokens

`Lexeme` says which texts the tokens of a kind are written as, character by character and apart from
any scanner. `next_of_ended` says that a scanner reads such a text as one token. What `write` writes
of a number without a sign is such a text.
-/

namespace Calculator

/-! ### Digits -/

theorem mem_of_isDigit {c : Char} (digit : c.isDigit = true) : c.toNat ∈ List.range' 48 10 := by
  obtain ⟨low, high⟩ := Char.isDigit_iff_toNat.mp digit
  rw [List.mem_range'_1]
  exact ⟨low, Nat.lt_succ_of_le high⟩

theorem isWordPart_of_isDigit {c : Char} (digit : c.isDigit = true) :
    Token.isWordPart c = true := by
  have all : ∀ point ∈ List.range' 48 10, Token.isWordPart (Char.ofNat point) = true := by
    decide +kernel
  have part := all c.toNat (mem_of_isDigit digit)
  rwa [Char.ofNat_toNat] at part

theorem isDigit_of_not_isWordPart {c : Char} (part : Token.isWordPart c = false) :
    c.isDigit = false := by
  rw [← Bool.not_eq_true]
  intro digit
  rw [isWordPart_of_isDigit digit] at part
  cases part

theorem isWordStart_of_not_isWordPart {c : Char} (part : Token.isWordPart c = false) :
    Token.isWordStart c = false := by
  rw [← Bool.not_eq_true]
  intro start
  rw [Scanner.isWordPart_of_isWordStart start] at part
  cases part

theorem isDigit_of_isWordStart {c : Char} (start : Token.isWordStart c = true) :
    c.isDigit = false := by
  have all : ∀ point ∈ List.range' 48 10, Token.isWordStart (Char.ofNat point) = false := by
    decide +kernel
  rw [← Bool.not_eq_true]
  intro digit
  have none := all c.toNat (mem_of_isDigit digit)
  rw [Char.ofNat_toNat, start] at none
  cases none

/-- The members of a set of code points. -/
def Unicode.Ranges.points (ranges : Ranges) : List Nat :=
  ranges.flatMap fun range => List.range' range.1 (range.2 + 1 - range.1)

theorem Unicode.mem_points_of_covers {ranges : Ranges} {point : Nat}
    (h : ranges.covers point = true) : point ∈ ranges.points := by
  induction ranges with
  | nil => cases h
  | cons range rest ih =>
    obtain ⟨first, last⟩ := range
    simp only [Ranges.points, List.flatMap_cons, List.mem_append, List.mem_range'_1]
    unfold Ranges.covers at h
    split at h
    · cases h
    · split at h
      · exact .inl ⟨by omega, by omega⟩
      · exact .inr (ih h)

theorem isWordPart_of_isWhitespace {c : Char} (blank : Unicode.isWhitespace c = true) :
    Token.isWordPart c = false := by
  have all : ∀ point ∈ Unicode.whiteSpace.points,
      Token.isWordPart (Char.ofNat point) = false := by decide +kernel
  have none := all c.toNat (Unicode.mem_points_of_covers blank)
  rwa [Char.ofNat_toNat] at none

theorem isWhitespace_of_isWordPart {c : Char} (part : Token.isWordPart c = true) :
    Unicode.isWhitespace c = false := by
  rw [← Bool.not_eq_true]
  intro blank
  rw [isWordPart_of_isWhitespace blank] at part
  cases part

theorem isWhitespace_of_isDigit {c : Char} (digit : c.isDigit = true) :
    Unicode.isWhitespace c = false :=
  isWhitespace_of_isWordPart (isWordPart_of_isDigit digit)

theorem isWhitespace_of_isWordStart {c : Char} (start : Token.isWordStart c = true) :
    Unicode.isWhitespace c = false :=
  isWhitespace_of_isWordPart (Scanner.isWordPart_of_isWordStart start)

namespace Token

/-- The texts of the tokens of a kind. -/
inductive Lexeme : Kind → List Char → Prop where
  | number {digits : List Char} (some : digits ≠ []) (all : ∀ c ∈ digits, c.isDigit = true)
      (small : (Nat.ofDigitChars 10 digits 0 : Int) ≤ Int64.maxValue.toInt) :
      Lexeme .integer digits
  | word {c : Char} {rest : List Char} (start : isWordStart c = true)
      (parts : ∀ d ∈ rest, isWordPart d = true) :
      Lexeme (wordKind (String.ofList (c :: rest))) (c :: rest)
  | symbol {c : Char} {kind : Kind} (symbol : Kind.ofSymbol? c = some kind) : Lexeme kind [c]

/-- Whether a character goes on with the tokens of a kind. -/
def Kind.goesOn : Kind → Char → Bool
  | .integer, c => c.isDigit
  | .identifier, c | .keyword, c => isWordPart c
  | _, _ => false

theorem goesOn_wordKind (word : String) (c : Char) : (wordKind word).goesOn c = isWordPart c := by
  rcases kind_of_wordKind (rfl : wordKind word = _) with kind | kind <;> rw [kind] <;> rfl

theorem goesOn_of_ofSymbol? {d : Char} {kind : Kind} (symbol : Kind.ofSymbol? d = some kind)
    (c : Char) : kind.goesOn c = false := by
  obtain ⟨_, integer, identifier, keyword⟩ := kind_ne_of_ofSymbol? symbol
  cases kind with
  | integer => exact absurd rfl integer
  | identifier => exact absurd rfl identifier
  | keyword => exact absurd rfl keyword
  | _ => rfl

theorem goesOn_of_not_isWordPart {c : Char} (part : isWordPart c = false) (kind : Kind) :
    kind.goesOn c = false := by
  cases kind with
  | integer => exact isDigit_of_not_isWordPart part
  | identifier | keyword => exact part
  | _ => rfl

theorem lexeme_write {value : Int64} (unsigned : 0 ≤ value) :
    Lexeme .integer (Numeral.write value).toList := by
  rw [Int64.le_iff_toInt_le, Int64.toInt_zero] at unsigned
  obtain ⟨some, all⟩ := Numeral.digits_writeNatural value.toInt.natAbs
  rw [Numeral.write_of_nonneg unsigned]
  apply Lexeme.number some all
  rw [Numeral.ofDigitChars_writeNatural, Int.natAbs_of_nonneg unsigned]
  exact value.toInt_le

theorem lexeme_var : Lexeme .keyword "var".toList := by
  have word : wordKind (String.ofList ['v', 'a', 'r']) = .keyword := by decide
  rw [← word]
  apply Lexeme.word
  · decide +kernel
  · rw [List.forall_mem_cons, List.forall_mem_singleton]
    decide +kernel

theorem Lexeme.ne_nil {kind : Kind} {text : List Char} (h : Lexeme kind text) : text ≠ [] := by
  cases h with
  | number some => exact some
  | word | symbol => exact List.cons_ne_nil _ _

theorem Lexeme.digits {text : List Char} (h : Lexeme .integer text) :
    text ≠ [] ∧ ∀ c ∈ text, c.isDigit = true := by
  generalize integer : Kind.integer = kind at h
  cases h with
  | number some all => exact ⟨some, all⟩
  | word => rcases kind_of_wordKind integer.symm with found | found <;> cases found
  | symbol symbol => exact absurd integer.symm (kind_ne_of_ofSymbol? symbol).2.1

/-- Some token begins with the character. -/
def Opens (c : Char) : Prop :=
  ∃ kind rest, Lexeme kind (c :: rest)

theorem opens_iff {c : Char} :
    Opens c ↔ c.isDigit = true ∨ isWordStart c = true ∨ ∃ kind, Kind.ofSymbol? c = some kind := by
  constructor
  · intro ⟨kind, rest, lexeme⟩
    cases lexeme with
    | number _ all => exact .inl (all c List.mem_cons_self)
    | word start => exact .inr (.inl start)
    | symbol symbol => exact .inr (.inr ⟨kind, symbol⟩)
  · intro h
    rcases h with digit | start | ⟨kind, symbol⟩
    · -- A single digit writes less than ten.
      have all : ∀ point ∈ List.range' 48 10,
          (Nat.ofDigitChars 10 [Char.ofNat point] 0 : Int) ≤ Int64.maxValue.toInt := by
        decide +kernel
      have small := all c.toNat (mem_of_isDigit digit)
      rw [Char.ofNat_toNat] at small
      exact ⟨.integer, [], .number (List.cons_ne_nil c []) (by simp [digit]) small⟩
    · exact ⟨_, [], .word start (by simp)⟩
    · exact ⟨kind, [], .symbol symbol⟩

theorem isWordPart_of_ofSymbol? {c : Char} {kind : Kind} (h : Kind.ofSymbol? c = some kind) :
    isWordPart c = false := by
  unfold Kind.ofSymbol? at h
  split at h
  all_goals first | decide +kernel | cases h

theorem isWhitespace_of_ofSymbol? {c : Char} {kind : Kind} (h : Kind.ofSymbol? c = some kind) :
    Unicode.isWhitespace c = false := by
  unfold Kind.ofSymbol? at h
  split at h
  all_goals first | decide +kernel | cases h

end Token

namespace Scanner

/-- The characters ahead do not go on with a word or a number. -/
def Breaks (rest : List Char) : Prop :=
  ∀ c ∈ rest.head?, Token.isWordPart c = false

theorem breaks_nil : Breaks [] := by
  simp [Breaks]

theorem breaks_cons {c : Char} {rest : List Char} :
    Breaks (c :: rest) ↔ Token.isWordPart c = false := by
  simp [Breaks]

theorem breaks_of_symbol {c : Char} {rest : List Char} {kind : Token.Kind}
    (symbol : Token.Kind.ofSymbol? c = some kind) : Breaks (c :: rest) :=
  breaks_cons.mpr (Token.isWordPart_of_ofSymbol? symbol)

section
variable {test : Char → Bool} {text rest : List Char} {position : Nat}

theorem takeWhile_run (all : ∀ c ∈ text, test c = true)
    (stops : ∀ c ∈ rest.head?, test c = false) : (text ++ rest).takeWhile test = text := by
  rw [List.takeWhile_append_of_pos all]
  cases rest with
  | nil => simp
  | cons c rest => simp [stops c rfl]

theorem dropWhile_run (all : ∀ c ∈ text, test c = true)
    (stops : ∀ c ∈ rest.head?, test c = false) : (text ++ rest).dropWhile test = rest := by
  rw [List.dropWhile_append_of_pos all]
  cases rest with
  | nil => rfl
  | cons c rest => simp [stops c rfl]

theorem past_run (all : ∀ c ∈ text, test c = true) (stops : ∀ c ∈ rest.head?, test c = false) :
    (⟨text ++ rest, position⟩ : Scanner).past test = ⟨rest, position + text.length⟩ := by
  simp only [past, takeWhile_run all stops, dropWhile_run all stops]

theorem run_run (all : ∀ c ∈ text, test c = true) (stops : ∀ c ∈ rest.head?, test c = false) :
    (⟨text ++ rest, position⟩ : Scanner).run test = String.ofList text := by
  simp only [run, takeWhile_run all stops]

theorem runSpan_run (all : ∀ c ∈ text, test c = true)
    (stops : ∀ c ∈ rest.head?, test c = false) :
    (⟨text ++ rest, position⟩ : Scanner).runSpan test =
      ⟨position, position + text.length⟩ := by
  rw [runSpan, past_run all stops]

theorem past_of_head {c : Char} (fails : test c = false) :
    (⟨c :: rest, position⟩ : Scanner).past test = ⟨c :: rest, position⟩ := by
  simp [past, fails]

end

section
variable {kind : Token.Kind} {text rest : List Char} {c : Char} (position : Nat)

theorem next_of_symbol (symbol : Token.Kind.ofSymbol? c = some kind) :
    (⟨c :: rest, position⟩ : Scanner).next =
      .ok ⟨kind, c.toString, .single position⟩ ⟨rest, position + 1⟩ := by
  have part := Token.isWordPart_of_ofSymbol? symbol
  rw [next, past_of_head (Token.isWhitespace_of_ofSymbol? symbol)]
  exact eq_of_finds (.symbol rfl (isDigit_of_not_isWordPart part)
    (isWordStart_of_not_isWordPart part) symbol)

/-- A scanner reads the text of a token as that token where the text behind it does not go on with
it. -/
theorem next_of_ended (lexeme : Token.Lexeme kind text)
    (ended : ∀ c ∈ rest.head?, kind.goesOn c = false) :
    (⟨text ++ rest, position⟩ : Scanner).next =
      .ok ⟨kind, String.ofList text, ⟨position, position + text.length⟩⟩
        ⟨rest, position + text.length⟩ := by
  cases lexeme with
  | number some all small =>
    obtain ⟨c, others, rfl⟩ := List.exists_cons_of_ne_nil some
    have digit : c.isDigit = true := all c List.mem_cons_self
    have read := Numeral.read?_of_digits some all
    have ran : (⟨c :: others ++ rest, position⟩ : Scanner).run Char.isDigit =
        String.ofList (c :: others) := run_run all ended
    rw [if_pos small, ← ran] at read
    have found := eq_of_finds (.number rfl digit read)
    rw [run_run all ended, runSpan_run all ended, past_run all ended] at found
    rw [next, List.cons_append, past_of_head (isWhitespace_of_isDigit digit)]
    exact found
  | @word c others start parts =>
    simp only [Token.goesOn_wordKind] at ended
    have all : ∀ d ∈ c :: others, Token.isWordPart d = true :=
      List.forall_mem_cons.mpr ⟨isWordPart_of_isWordStart start, parts⟩
    have here : Finds ⟨c :: others ++ rest, position⟩ _ :=
      .word rfl (isDigit_of_isWordStart start) start
    have found := eq_of_finds here
    rw [run_run all ended, runSpan_run all ended, past_run all ended] at found
    rw [next, List.cons_append, past_of_head (isWhitespace_of_isWordStart start)]
    exact found
  | symbol symbol => exact next_of_symbol position symbol

theorem next_of_lexeme (lexeme : Token.Lexeme kind text) (breaks : Breaks rest) :
    (⟨text ++ rest, position⟩ : Scanner).next =
      .ok ⟨kind, String.ofList text, ⟨position, position + text.length⟩⟩
        ⟨rest, position + text.length⟩ :=
  next_of_ended position lexeme fun c head =>
    Token.goesOn_of_not_isWordPart (breaks c head) kind

end

/-! ### White space -/

theorem isWhitespace_space : Unicode.isWhitespace ' ' = true := by
  decide +kernel

theorem breaks_space (rest : List Char) : Breaks (' ' :: rest) := by
  rw [breaks_cons]
  decide +kernel

theorem next_blanks {gap : List Char} (all : ∀ c ∈ gap, Unicode.isWhitespace c = true)
    (rest : List Char) (position : Nat) :
    (⟨gap ++ rest, position⟩ : Scanner).next = (⟨rest, position + gap.length⟩ : Scanner).next := by
  simp only [next, past, List.dropWhile_append_of_pos all, List.takeWhile_append_of_pos all,
    List.length_append, Nat.add_assoc]

theorem next_space (rest : List Char) (position : Nat) :
    (⟨' ' :: rest, position⟩ : Scanner).next = (⟨rest, position + 1⟩ : Scanner).next := by
  have all : ∀ c ∈ [' '], Unicode.isWhitespace c = true := by simp [isWhitespace_space]
  exact next_blanks all rest position

theorem yields_space {rest : List Char} {position : Nat} {tokens : List Token} {after : Scanner}
    (run : (⟨rest, position + 1⟩ : Scanner).Yields tokens after) (some : tokens ≠ []) :
    (⟨' ' :: rest, position⟩ : Scanner).Yields tokens after := by
  cases run with
  | nil => exact absurd rfl some
  | cons scanned more => exact .cons ((next_space rest position).trans scanned) more

end Scanner

end Calculator
