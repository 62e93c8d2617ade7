import Calculator.Proofs.RoundTrip
import Calculator.Tree.Display

/-!
# What the prefix form tells apart

The prefix form of a tree is a numeral or a word, or it is a tag with the prefix forms of operands
behind it, all in parentheses. No tree has a prefix form that begins with that of another, so trees
with one prefix form are the same up to their tokens: `display_eq_iff`.
-/

namespace Calculator

/-- A letter or an underscore with letters, digits and underscores behind it. -/
def Token.IsWord (text : String) : Prop :=
  ∃ c rest, text.toList = c :: rest ∧ isWordStart c = true ∧ ∀ d ∈ rest, isWordPart d = true

theorem Token.isWord_of_isName {text : String} (h : IsName text) : IsWord text := by
  have lexeme := lexeme_of_isName h
  generalize identifier : Kind.identifier = kind at lexeme
  generalize written : text.toList = characters at lexeme
  cases lexeme with
  | number => cases identifier
  | word start parts => exact ⟨_, _, written, start, parts⟩
  | symbol symbol => exact absurd identifier.symm (kind_ne_of_ofSymbol? symbol).2.2.1

namespace Tree

/-- Trees of any shape whose names are words, with no program in them. -/
inductive Legible : Tree → Prop where
  | literal {value : Int64} {token : Token} : Legible (.literal value token)
  | identifier {token : Token} (word : Token.IsWord token.lexeme) : Legible (.identifier token)
  | unary {sign : Sign} {token : Token} {operand : Tree} (inner : Legible operand) :
      Legible (.unary sign token operand)
  | binary {operator : Operator} {token : Token} {left right : Tree} (first : Legible left)
      (second : Legible right) : Legible (.binary operator token left right)
  | declaration {name equals : Token} {value : Tree} (word : Token.IsWord name.lexeme)
      (inner : Legible value) : Legible (.declaration name equals value)
  | assignment {name equals : Token} {value : Tree} (word : Token.IsWord name.lexeme)
      (inner : Legible value) : Legible (.assignment name equals value)

/-! ### Parts of a prefix form -/

/-- What stands behind the opening parenthesis. -/
def tag? : Tree → Option String
  | .unary sign _ _ => some sign.symbol
  | .binary operator _ _ _ => some operator.symbol
  | .declaration _ _ _ => some "var"
  | .assignment _ _ _ => some "="
  | .program _ _ | .literal _ _ | .identifier _ => none

/-- What stands behind the tag, where a name is an operand like any other. -/
def operands : Tree → List Tree
  | .unary _ _ operand => [operand]
  | .binary _ _ left right => [left, right]
  | .declaration name _ value | .assignment name _ value => [.identifier name, value]
  | .program _ _ | .literal _ _ | .identifier _ => []

/-- The prefix forms of trees, each behind a separator. -/
def listing (separator : List Char) (trees : List Tree) : List Char :=
  trees.flatMap fun tree => separator ++ tree.display.toList

theorem toList_display_of_tag {tree : Tree} {tag : String} (h : tree.tag? = some tag) :
    tree.display.toList =
      '(' :: (tag.toList ++ (listing [' '] tree.operands ++ [')'])) := by
  cases tree with
  | program | literal | identifier => cases h
  | unary | binary | declaration | assignment =>
    cases h
    simp [display, operands, listing]

theorem displayAll_cons_cons (statement next : Tree) (statements : List Tree) :
    displayAll (statement :: next :: statements) =
      statement.display ++ "; " ++ displayAll (next :: statements) :=
  rfl

theorem toList_displayAll (statement : Tree) (statements : List Tree) :
    (displayAll (statement :: statements)).toList =
      statement.display.toList ++ listing [';', ' '] statements := by
  induction statements generalizing statement with
  | nil => simp [displayAll, listing]
  | cons next statements ih =>
    rw [displayAll_cons_cons, String.toList_append, ih]
    simp [listing]

/-- The tree that a tag makes of operands. -/
def ofTag? (tag : String) : List Tree → Option Tree
  | [operand] =>
    match tag with
    | "+" => some (.unary .plus (.named "") operand)
    | "-" => some (.unary .minus (.named "") operand)
    | _ => none
  | [first, second] =>
    match tag with
    | "+" => some (.binary .add (.named "") first second)
    | "-" => some (.binary .subtract (.named "") first second)
    | "*" => some (.binary .multiply (.named "") first second)
    | "/" => some (.binary .divide (.named "") first second)
    | "var" =>
      match first with
      | .identifier name => some (.declaration name (.named "") second)
      | _ => none
    | "=" =>
      match first with
      | .identifier name => some (.assignment name (.named "") second)
      | _ => none
    | _ => none
  | _ => none

theorem ofTag?_operands {tree : Tree} {tag : String} (h : tree.tag? = some tag) :
    ofTag? tag (bareAll tree.operands) = some tree.bare := by
  cases tree with
  | program | literal | identifier => cases h
  | unary sign => cases sign <;> cases h <;> rfl
  | binary operator => cases operator <;> cases h <;> rfl
  | declaration | assignment =>
    cases h
    rfl

/-! ### Where a word of the form ends -/

/-- The characters of numerals, words and tags: those that do not stand between them. -/
def isPlain (c : Char) : Bool :=
  c ∉ [' ', '(', ')', ';']

theorem isPlain_of_isWordPart {c : Char} (part : Token.isWordPart c = true) :
    isPlain c = true := by
  have others : [' ', '(', ')', ';'].all (!Token.isWordPart ·) = true := by decide +kernel
  rw [isPlain, decide_eq_true_iff]
  intro between
  have other := List.all_eq_true.mp others c between
  rw [part] at other
  cases other

theorem plain_of_denotes {text : List Char} {number : Int} (h : Numeral.Denotes text number) :
    ∀ c ∈ text, isPlain c = true := by
  have plain {digits : List Char} (all : ∀ c ∈ digits, c.isDigit = true) :
      ∀ c ∈ digits, isPlain c = true :=
    fun c member => isPlain_of_isWordPart (isWordPart_of_isDigit (all c member))
  cases h with
  | unsigned _ all => exact plain all
  | plus _ all | minus _ all => exact List.forall_mem_cons.mpr ⟨by decide, plain all⟩

theorem plain_of_isWord {text : String} (h : Token.IsWord text) :
    ∀ c ∈ text.toList, isPlain c = true := by
  obtain ⟨c, rest, written, start, parts⟩ := h
  rw [written]
  exact List.forall_mem_cons.mpr ⟨isPlain_of_isWordPart (Scanner.isWordPart_of_isWordStart start),
    fun d member => isPlain_of_isWordPart (parts d member)⟩

theorem not_denotes_of_isWord {text : String} (h : Token.IsWord text) (number : Int) :
    ¬Numeral.Denotes text.toList number := by
  obtain ⟨c, rest, written, start, _⟩ := h
  have sign : Token.isWordStart '+' = false ∧ Token.isWordStart '-' = false := by decide +kernel
  rw [written]
  intro numeral
  cases numeral with
  | unsigned _ all =>
    have digit := all c List.mem_cons_self
    rw [isDigit_of_isWordStart start] at digit
    cases digit
  | plus => simp [sign] at start
  | minus => simp [sign] at start

theorem plain_of_tag {tree : Tree} {tag : String} (h : tree.tag? = some tag) :
    ∀ c ∈ tag.toList, isPlain c = true := by
  cases tree with
  | program | literal | identifier => cases h
  | unary sign => cases sign <;> cases h <;> exact List.all_eq_true.mp (by decide)
  | binary operator => cases operator <;> cases h <;> exact List.all_eq_true.mp (by decide)
  | declaration | assignment =>
    cases h
    exact List.all_eq_true.mp (by decide)

/-- What is behind a tree in a prefix form. -/
def Ended (rest : List Char) : Prop :=
  ∀ c ∈ rest.head?, isPlain c = false

theorem ended_cons {c : Char} {rest : List Char} : Ended (c :: rest) ↔ isPlain c = false := by
  simp [Ended]

theorem run_inj {text other rest rest' : List Char} (plain : ∀ c ∈ text, isPlain c = true)
    (plain' : ∀ c ∈ other, isPlain c = true) (ended : Ended rest) (ended' : Ended rest')
    (same : text ++ rest = other ++ rest') : text = other ∧ rest = rest' := by
  have before := congrArg (List.takeWhile isPlain) same
  have behind := congrArg (List.dropWhile isPlain) same
  rw [Scanner.takeWhile_run plain ended, Scanner.takeWhile_run plain' ended'] at before
  rw [Scanner.dropWhile_run plain ended, Scanner.dropWhile_run plain' ended'] at behind
  exact ⟨before, behind⟩

/-! ### Where a tree ends -/

/-- No tree has a prefix form that goes on behind that of the given one, other than the same tree up
to tokens. -/
def Unambiguous (one : Tree) : Prop :=
  ∀ (other : Tree) (rest rest' : List Char), other.Legible → Ended rest → Ended rest' →
    one.display.toList ++ rest = other.display.toList ++ rest' →
      one.bare = other.bare ∧ rest = rest'

section
variable {c : Char} {separator rest rest' : List Char}

theorem listing_cons (tree : Tree) (trees : List Tree) :
    listing (c :: separator) (tree :: trees) ++ rest =
      c :: (separator ++ (tree.display.toList ++ (listing (c :: separator) trees ++ rest))) := by
  simp [listing]

theorem ended_listing (between : isPlain c = false) (ended : Ended rest) (trees : List Tree) :
    Ended (listing (c :: separator) trees ++ rest) := by
  cases trees with
  | nil => exact ended
  | cons tree trees =>
    rw [listing_cons]
    exact ended_cons.mpr between

theorem bareAll_of_listing {ones others : List Tree} (each : ∀ one ∈ ones, one.Unambiguous)
    (legible : ∀ other ∈ others, other.Legible) (between : isPlain c = false)
    (ended : Ended rest) (ended' : Ended rest') (last : c ∉ rest.head?) (last' : c ∉ rest'.head?)
    (same : listing (c :: separator) ones ++ rest = listing (c :: separator) others ++ rest') :
    bareAll ones = bareAll others ∧ rest = rest' := by
  induction ones generalizing others with
  | nil =>
    cases others with
    | nil => exact ⟨rfl, same⟩
    | cons other others =>
      rw [listing_cons] at same
      have same : rest = _ := same
      simp [same] at last
  | cons one ones ih =>
    obtain ⟨first, each⟩ := List.forall_mem_cons.mp each
    rw [listing_cons] at same
    cases others with
    | nil =>
      have same : _ = rest' := same
      simp [← same] at last'
    | cons other others =>
      obtain ⟨here, legible⟩ := List.forall_mem_cons.mp legible
      rw [listing_cons] at same
      have same := List.append_cancel_left (List.cons.inj same).2
      obtain ⟨bare, same⟩ := first other _ _ here (ended_listing between ended ones)
        (ended_listing between ended' others) same
      obtain ⟨others, done⟩ := ih each legible same
      rw [bareAll, bareAll, bare, others]
      exact ⟨rfl, done⟩

end

theorem Legible.operands {tree : Tree} (h : tree.Legible) :
    ∀ operand ∈ tree.operands, operand.Legible := by
  cases h with
  | literal | identifier => simp [Tree.operands]
  | unary inner => exact List.forall_mem_singleton.mpr inner
  | binary first second => exact List.forall_mem_cons.mpr ⟨first, List.forall_mem_singleton.mpr second⟩
  | declaration word inner | assignment word inner =>
    exact List.forall_mem_cons.mpr ⟨.identifier word, List.forall_mem_singleton.mpr inner⟩

/-! ### Unique readability -/

section
variable {one other : Tree} {rest rest' : List Char}

theorem plain_of_atom (h : one.Legible) (atom : one.tag? = none) :
    one.display.toList ≠ [] ∧ ∀ c ∈ one.display.toList, isPlain c = true := by
  cases h with
  | @literal value =>
    have written := Numeral.denotes_write value
    exact ⟨written.ne_nil, plain_of_denotes written⟩
  | identifier word =>
    refine ⟨?_, plain_of_isWord word⟩
    obtain ⟨c, rest, written, _⟩ := word
    rw [display, written]
    exact List.cons_ne_nil c rest
  | unary | binary | declaration | assignment => cases atom

theorem bare_of_atoms (h : one.Legible) (h' : other.Legible) (atom : one.tag? = none)
    (atom' : other.tag? = none) (same : one.display = other.display) : one.bare = other.bare := by
  -- Of a numeral and a word only one can be the text.
  cases h with
  | @literal value =>
    cases h' with
    | literal =>
      rw [bare, bare, Numeral.write_inj.mp same]
    | identifier word =>
      rw [display] at same
      exact absurd (Numeral.denotes_write value) (same ▸ not_denotes_of_isWord word _)
    | unary | binary | declaration | assignment => cases atom'
  | identifier word =>
    cases h' with
    | @literal value =>
      rw [display] at same
      exact absurd (Numeral.denotes_write value) (same ▸ not_denotes_of_isWord word _)
    | identifier =>
      rw [display, display] at same
      rw [bare, bare, same]
    | unary | binary | declaration | assignment => cases atom'
  | unary | binary | declaration | assignment => cases atom

theorem display_ne_of_tag {tag : String} (h : one.Legible) (atom : one.tag? = none)
    (tagged : other.tag? = some tag) :
    one.display.toList ++ rest ≠ other.display.toList ++ rest' := by
  obtain ⟨some, plain⟩ := plain_of_atom h atom
  obtain ⟨c, others, written⟩ := List.exists_cons_of_ne_nil some
  rw [toList_display_of_tag tagged, written]
  intro same
  obtain ⟨rfl, _⟩ := List.cons.inj same
  rw [written] at plain
  have parenthesis := plain '(' List.mem_cons_self
  cases parenthesis

theorem unambiguous_of_atom (h : one.Legible) (atom : one.tag? = none) : one.Unambiguous := by
  intro other rest rest' h' ended ended' same
  cases tagged : other.tag? with
  | none =>
    obtain ⟨text, done⟩ :=
      run_inj (plain_of_atom h atom).2 (plain_of_atom h' tagged).2 ended ended' same
    exact ⟨bare_of_atoms h h' atom tagged (String.toList_inj.mp text), done⟩
  | some tag => exact absurd same (display_ne_of_tag h atom tagged)

theorem unambiguous_of_tag {tag : String} (tagged : one.tag? = some tag)
    (each : ∀ operand ∈ one.operands, operand.Unambiguous) : one.Unambiguous := by
  intro other rest rest' h' ended ended' same
  cases tagged' : other.tag? with
  | none => exact absurd same.symm (display_ne_of_tag h' tagged' tagged)
  | some tag' =>
    have closed (behind : List Char) : Ended (')' :: behind) := ended_cons.mpr rfl
    rw [toList_display_of_tag tagged, toList_display_of_tag tagged'] at same
    simp only [List.cons_append, List.append_assoc, List.nil_append, List.cons.injEq,
      true_and] at same
    obtain ⟨tags, same⟩ := run_inj (plain_of_tag tagged) (plain_of_tag tagged')
      (ended_listing rfl (closed rest) _) (ended_listing rfl (closed rest') _) same
    -- A sign and an operator may have the same tag, but not as many operands.
    obtain ⟨operands, done⟩ := bareAll_of_listing each h'.operands rfl (closed rest) (closed rest')
      (by simp) (by simp) same
    have whole := ofTag?_operands tagged
    rw [String.toList_inj.mp tags, operands, ofTag?_operands tagged'] at whole
    exact ⟨(Option.some.inj whole).symm, (List.cons.inj done).2⟩

theorem unambiguous (h : one.Legible) : one.Unambiguous := by
  induction h with
  | literal => exact unambiguous_of_atom .literal rfl
  | identifier word => exact unambiguous_of_atom (.identifier word) rfl
  | unary inner ih => exact unambiguous_of_tag rfl (List.forall_mem_singleton.mpr ih)
  | binary first second ih ih' =>
    exact unambiguous_of_tag rfl (List.forall_mem_cons.mpr ⟨ih, List.forall_mem_singleton.mpr ih'⟩)
  | declaration word inner ih | assignment word inner ih =>
    have name := unambiguous_of_atom (.identifier word) rfl
    exact unambiguous_of_tag rfl (List.forall_mem_cons.mpr ⟨name, List.forall_mem_singleton.mpr ih⟩)

end

/-! ### Whole texts -/

theorem ended_nil : Ended [] := by
  simp [Ended]

theorem display_ne_nil {one : Tree} (h : one.Legible) : one.display.toList ≠ [] := by
  cases tagged : one.tag? with
  | none => exact (plain_of_atom h tagged).1
  | some tag =>
    rw [toList_display_of_tag tagged]
    exact List.cons_ne_nil _ _

theorem displayAll_ne_empty {statement : Tree} (h : statement.Legible) (statements : List Tree) :
    displayAll (statement :: statements) ≠ "" := by
  intro empty
  have none := congrArg String.toList empty
  rw [toList_displayAll] at none
  exact display_ne_nil h (List.append_eq_nil_iff.mp none).1

theorem bareAll_of_displayAll {statements others : List Tree}
    (legible : ∀ statement ∈ statements, statement.Legible)
    (legible' : ∀ statement ∈ others, statement.Legible)
    (same : displayAll statements = displayAll others) : bareAll statements = bareAll others := by
  cases statements with
  | nil =>
    cases others with
    | nil => rfl
    | cons other others =>
      have here := (List.forall_mem_cons.mp legible').1
      exact absurd same.symm (displayAll_ne_empty here others)
  | cons statement statements =>
    obtain ⟨here, legible⟩ := List.forall_mem_cons.mp legible
    cases others with
    | nil => exact absurd same (displayAll_ne_empty here statements)
    | cons other others =>
      obtain ⟨here', legible'⟩ := List.forall_mem_cons.mp legible'
      have text := congrArg String.toList same
      rw [toList_displayAll, toList_displayAll, ← List.append_nil (listing _ statements),
        ← List.append_nil (listing _ others)] at text
      have ended (trees : List Tree) : Ended (listing [';', ' '] trees ++ []) :=
        ended_listing rfl ended_nil trees
      obtain ⟨first, text⟩ := unambiguous here other _ _ here' (ended _) (ended _) text
      have each : ∀ tree ∈ statements, tree.Unambiguous :=
        fun tree member => unambiguous (legible tree member)
      have others := bareAll_of_listing each legible' rfl ended_nil ended_nil (by simp) (by simp) text
      rw [bareAll, bareAll, first, others.1]

/-! ### Tokens leave no trace -/

mutual

theorem display_bare (tree : Tree) : tree.bare.display = tree.display := by
  cases tree with
  | program statements => rw [bare, display, display, displayAll_bareAll]
  | literal | identifier => rfl
  | binary _ _ left right =>
    rw [bare, display, display, display_bare left, display_bare right]
  | unary _ _ operand => rw [bare, display, display, display_bare operand]
  | declaration _ _ value | assignment _ _ value =>
    rw [bare, display, display, display_bare value, Token.named]

theorem displayAll_bareAll (statements : List Tree) :
    displayAll (bareAll statements) = displayAll statements := by
  match statements with
  | [] => rfl
  | [statement] => rw [bareAll, bareAll, displayAll, displayAll, display_bare statement]
  | statement :: next :: others =>
    have rest := displayAll_bareAll (next :: others)
    rw [bareAll] at rest
    rw [bareAll, bareAll, displayAll_cons_cons, displayAll_cons_cons, display_bare statement, rest]

end

theorem display_of_bare {one other : Tree} (same : one.bare = other.bare) :
    one.display = other.display := by
  rw [← display_bare, same, display_bare]

/-- Trees have the same prefix form if and only if they are the same up to their tokens, and so have
programs. -/
theorem display_eq_iff :
    (∀ {one other : Tree}, one.Legible → other.Legible →
      (one.display = other.display ↔ one.bare = other.bare)) ∧
    ∀ {statements others : List Tree} {span span' : Span},
      (∀ statement ∈ statements, statement.Legible) → (∀ statement ∈ others, statement.Legible) →
      ((program statements span).display = (program others span').display ↔
        (program statements span).bare = (program others span').bare) := by
  refine ⟨?_, ?_⟩
  · intro one other legible legible'
    refine ⟨fun same => ?_, display_of_bare⟩
    have text := congrArg (fun form => form.toList ++ []) same
    exact (unambiguous legible other _ _ legible' ended_nil ended_nil text).1
  · intro statements others span span' legible legible'
    refine ⟨fun same => ?_, display_of_bare⟩
    rw [bare, bare, bareAll_of_displayAll legible legible' same]

/-- A sign, an operator and a negative literal, all written with a minus, in trees that differ in
their tokens. -/
theorem display_eq_iff_of_minus :
    ∃ one other : Tree, one ≠ other ∧ one.display = "(= x (- (- 1) -1))" ∧
      one.bare = other.bare ∧
      (program [one, other] ⟨0, 0⟩).bare = (program [other, one] ⟨0, 9⟩).bare := by
  have word : Token.IsWord "x" := Token.isWord_of_isName ⟨_, _, rfl, rfl, rfl⟩
  have legible (token : Token) : (Tree.assignment (.named "x") token
      (.binary .subtract token (.unary .minus token (.literal 1 token))
        (.literal (-1) token))).Legible :=
    .assignment word (.binary (.unary .literal) .literal)
  have one := legible (.named "")
  have other := legible ⟨.minus, "-", ⟨3, 4⟩⟩
  refine ⟨_, _, ?_, by decide +kernel, (display_eq_iff.1 one other).mp (by decide +kernel),
    (display_eq_iff.2 ?_ ?_).mp (by decide +kernel)⟩
  · intro same
    cases same
  · exact List.forall_mem_cons.mpr ⟨one, List.forall_mem_singleton.mpr other⟩
  · exact List.forall_mem_cons.mpr ⟨other, List.forall_mem_singleton.mpr one⟩

end Tree

end Calculator
