import Calculator.Tree.Basic

/-!
# Grammar

The rules of the language over lists of tokens, apart from any way to read them: `Derives` for
expressions, `Statement` and `Program` around them. A language followed by another one is
`FollowedBy`, and the lemmas with `followedBy_` say what its first token leaves to be read.
-/

namespace Calculator.Grammar

/-- Words of tokens, each with what it may be read as. -/
abbrev Words (α : Type) := List Token → α → Prop

inductive Category where
  | factor
  | chain (level : Operator.Level)

namespace Category

abbrev term : Category := .chain .multiplicative

abbrev expression : Category := .chain .additive

/-- What stands on both sides of the operators of a level. -/
def operand : Operator.Level → Category
  | .multiplicative => .factor
  | .additive => .term

end Category

/-- The tokens that write the operators of a level. -/
inductive Joins : Operator.Level → Token.Kind → Operator → Prop where
  | plus : Joins .additive .plus .add
  | minus : Joins .additive .minus .subtract
  | star : Joins .multiplicative .star .multiply
  | slash : Joins .multiplicative .slash .divide

inductive Signs : Token.Kind → Sign → Prop where
  | plus : Signs .plus .plus
  | minus : Signs .minus .minus

theorem signs_iff {kind : Token.Kind} {sign : Sign} :
    Signs kind sign ↔ (kind = .plus ∧ sign = .plus) ∨ (kind = .minus ∧ sign = .minus) := by
  constructor
  · rintro ⟨⟩
    · exact .inl ⟨rfl, rfl⟩
    · exact .inr ⟨rfl, rfl⟩
  · rintro (⟨rfl, rfl⟩ | ⟨rfl, rfl⟩)
    · exact .plus
    · exact .minus

/-- The rules for expressions, with the tree that each derivation builds from its tokens. -/
inductive Derives : Category → List Token → Tree → Prop where
  | literal {token : Token} {value : Int64} (kind : token.kind = .integer)
      (read : Numeral.read? token.lexeme = some value) :
      Derives .factor [token] (.literal value token)
  | name {token : Token} (kind : token.kind = .identifier) :
      Derives .factor [token] (.identifier token)
  | group {opening closing : Token} {tokens : List Token} {tree : Tree}
      (opens : opening.kind = .leftParen) (inner : Derives .expression tokens tree)
      (closes : closing.kind = .rightParen) :
      Derives .factor (opening :: (tokens ++ [closing])) tree
  | signed {token : Token} {sign : Sign} {tokens : List Token} {operand : Tree}
      (signs : Signs token.kind sign) (inner : Derives .factor tokens operand) :
      Derives .factor (token :: tokens) (.unary sign token operand)
  | single {level : Operator.Level} {tokens : List Token} {tree : Tree}
      (inner : Derives (Category.operand level) tokens tree) :
      Derives (.chain level) tokens tree
  | pair {level : Operator.Level} {token : Token} {operator : Operator}
      {before behind : List Token} {left right : Tree}
      (first : Derives (Category.operand level) before left)
      (joins : Joins level token.kind operator)
      (second : Derives (Category.operand level) behind right) :
      Derives (.chain level) (before ++ token :: behind) (.binary operator token left right)

theorem expression_of_chain {level : Operator.Level} {tokens : List Token} {tree : Tree}
    (h : Derives (.chain level) tokens tree) : Derives .expression tokens tree := by
  cases level with
  | additive => exact h
  | multiplicative => exact .single h

inductive Statement : List Token → Tree → Prop where
  | declaration {keyword name equals : Token} {tokens : List Token} {value : Tree}
      (reserved : keyword.kind = .keyword) (var : keyword.lexeme = "var")
      (named : name.kind = .identifier) (assigned : equals.kind = .equal)
      (inner : Derives .expression tokens value) :
      Statement (keyword :: name :: equals :: tokens) (.declaration name equals value)
  | assignment {name equals : Token} {tokens : List Token} {value : Tree}
      (named : name.kind = .identifier) (assigned : equals.kind = .equal)
      (inner : Derives .expression tokens value) :
      Statement (name :: equals :: tokens) (.assignment name equals value)
  | expression {tokens : List Token} {tree : Tree} (inner : Derives .expression tokens tree) :
      Statement tokens tree

inductive Sequence : List Token → List Tree → Prop where
  | last {tokens : List Token} {tree : Tree} (statement : Statement tokens tree) :
      Sequence tokens [tree]
  | more {separator : Token} {tokens others : List Token} {tree : Tree} {trees : List Tree}
      (statement : Statement tokens tree) (separates : separator.kind = .semicolon)
      (sequence : Sequence others trees) :
      Sequence (tokens ++ separator :: others) (tree :: trees)

/-- Statements up to the end of the input, which a semicolon may stand in front of. -/
inductive Program : List Token → List Tree → Prop where
  | empty {final : Token} (ends : final.kind = .endOfInput) : Program [final] []
  | closed {final : Token} {tokens : List Token} {trees : List Tree}
      (sequence : Sequence tokens trees) (ends : final.kind = .endOfInput) :
      Program (tokens ++ [final]) trees
  | terminated {separator final : Token} {tokens : List Token} {trees : List Tree}
      (sequence : Sequence tokens trees) (separates : separator.kind = .semicolon)
      (ends : final.kind = .endOfInput) :
      Program (tokens ++ [separator, final]) trees

/-- Tokens with which a program can begin. -/
def Viable (tokens : List Token) : Prop :=
  ∃ rest trees, Program (tokens ++ rest) trees

def OpensStatement (tokens : List Token) : Prop :=
  ∃ rest tree, Statement (tokens ++ rest) tree

/-! ### Operators and their levels -/

theorem operator?_eq_some_iff {level : Operator.Level} {kind : Token.Kind} {operator : Operator} :
    level.operator? kind = some operator ↔ Joins level kind operator := by
  constructor
  · intro h
    cases level <;> cases kind <;> cases h <;> constructor
  · intro h
    cases h <;> rfl

theorem operator?_eq_none_iff {level : Operator.Level} {kind : Token.Kind} :
    level.operator? kind = none ↔ ∀ operator, ¬Joins level kind operator := by
  simp only [← operator?_eq_some_iff, Option.eq_none_iff_forall_ne_some, ne_eq]

/-- The tokens behind a complete word of a category that would make it a longer one. -/
inductive Resumes : Category → Token.Kind → Prop where
  | here {level : Operator.Level} {kind : Token.Kind} {operator : Operator}
      (joins : Joins level kind operator) : Resumes (.chain level) kind
  | inside {level : Operator.Level} {kind : Token.Kind}
      (inner : Resumes (Category.operand level) kind) : Resumes (.chain level) kind

theorem not_resumes_factor {kind : Token.Kind} : ¬Resumes .factor kind := by
  rintro ⟨⟩

theorem not_resumes_operand {level : Operator.Level} {kind : Token.Kind} {operator : Operator}
    (joins : Joins level kind operator) : ¬Resumes (Category.operand level) kind := by
  intro h
  cases joins with
  | plus | minus =>
    cases h with
    | here joins => cases joins
    | inside inner => exact not_resumes_factor inner
  | star | slash => exact not_resumes_factor h

theorem joins_of_resumes {category : Category} {kind : Token.Kind} (h : Resumes category kind) :
    ∃ level operator, Joins level kind operator := by
  induction h with
  | here joins => exact ⟨_, _, joins⟩
  | inside _ ih => exact ih

/-! ### The first token of a word -/

def Begins (kind : Token.Kind) : Prop :=
  kind ∈ [.integer, .identifier, .leftParen, .plus, .minus]

theorem begins_of_derives {category : Category} {tokens : List Token} {tree : Tree}
    (h : Derives category tokens tree) :
    ∃ token rest, tokens = token :: rest ∧ Begins token.kind := by
  induction h with
  | literal kind | name kind => exact ⟨_, [], rfl, by simp [Begins, kind]⟩
  | group opens => exact ⟨_, _, rfl, by simp [Begins, opens]⟩
  | @signed token _ tokens _ signs _ =>
    refine ⟨token, tokens, rfl, ?_⟩
    rcases signs_iff.mp signs with ⟨kind, _⟩ | ⟨kind, _⟩
    · simp [Begins, kind]
    · simp [Begins, kind]
  | single _ ih => exact ih
  | pair _ _ _ ih =>
    obtain ⟨token, rest, rfl, begins⟩ := ih
    exact ⟨token, _, rfl, begins⟩

theorem ne_nil_of_statement {tokens : List Token} {tree : Tree} (h : Statement tokens tree) :
    tokens ≠ [] := by
  cases h with
  | expression inner =>
    obtain ⟨token, rest, rfl, _⟩ := begins_of_derives inner
    exact List.cons_ne_nil token rest
  | _ => simp

/-! ### One language behind another -/

section
variable {α β : Type}

/-- A word of the one language, and behind it a word of the language that its reading leads to. -/
def FollowedBy (first : Words α) (follow : α → Words β) : Words β := fun tokens result =>
  ∃ before behind value, tokens = before ++ behind ∧ first before value ∧ follow value behind result

/-- A token of the given kind, and behind it a word of the language that the token leads to. -/
def Lead (kind : Token.Kind) (follow : Token → Words β) : Words β := fun tokens result =>
  ∃ token rest, tokens = token :: rest ∧ token.kind = kind ∧ follow token rest result

theorem lead_cons {kind : Token.Kind} {follow : Token → Words β} {token : Token}
    {rest : List Token} {result : β} :
    Lead kind follow (token :: rest) result ↔ token.kind = kind ∧ follow token rest result := by
  constructor
  · rintro ⟨_, _, same, found, h⟩
    obtain ⟨rfl, rfl⟩ := List.cons.inj same
    exact ⟨found, h⟩
  · rintro ⟨found, h⟩
    exact ⟨token, rest, rfl, found, h⟩

theorem not_lead_nil {kind : Token.Kind} {follow : Token → Words β} {result : β} :
    ¬Lead kind follow [] result := by
  rintro ⟨_, _, same, _⟩
  cases same

/-- What may follow the left operand of a level: what follows the whole, or an operator of the
level and a right operand in front of it. -/
def Joined (level : Operator.Level) (follow : Tree → Words β) (left : Tree) : Words β :=
  fun tokens result => follow left tokens result ∨
    ∃ token rest operator, tokens = token :: rest ∧ Joins level token.kind operator ∧
      FollowedBy (Derives (Category.operand level))
        (fun right => follow (.binary operator token left right)) rest result

def Binding (build : Token → Token → Tree → Tree) (follow : Tree → Words β) : Words β :=
  Lead .identifier fun name => Lead .equal fun equals =>
    FollowedBy (Derives .expression) fun value => follow (build name equals value)

variable {follow : Tree → Words β} {tokens rest : List Token} {token : Token} {result : β}

theorem followedBy_factor_cons :
    FollowedBy (Derives .factor) follow (token :: rest) result ↔
      (token.kind = .integer ∧ ∃ value, Numeral.read? token.lexeme = some value ∧
        follow (.literal value token) rest result) ∨
      (token.kind = .identifier ∧ follow (.identifier token) rest result) ∨
      (token.kind = .leftParen ∧ FollowedBy (Derives .expression)
        (fun tree => Lead .rightParen fun _ => follow tree) rest result) ∨
      (∃ sign, Signs token.kind sign ∧ FollowedBy (Derives .factor)
        (fun operand => follow (.unary sign token operand)) rest result) := by
  constructor
  · rintro ⟨before, behind, tree, split, derived, h⟩
    cases derived with
    | literal kind read =>
      obtain ⟨rfl, rfl⟩ := List.cons.inj split
      exact .inl ⟨kind, _, read, h⟩
    | name kind =>
      obtain ⟨rfl, rfl⟩ := List.cons.inj split
      exact .inr (.inl ⟨kind, h⟩)
    | group opens inner closes =>
      obtain ⟨rfl, rfl⟩ := List.cons.inj split
      refine .inr (.inr (.inl ⟨opens, _, _, tree, ?_, inner, _, behind, rfl, closes, h⟩))
      simp
    | signed signs inner =>
      obtain ⟨rfl, rfl⟩ := List.cons.inj split
      exact .inr (.inr (.inr ⟨_, signs, _, behind, _, rfl, inner, h⟩))
  · rintro (⟨kind, value, read, h⟩ | ⟨kind, h⟩ | ⟨opens, inside, _, tree, rfl, inner, h⟩ |
      ⟨sign, signs, operand, behind, tree, rfl, inner, h⟩)
    · exact ⟨[token], rest, _, rfl, .literal kind read, h⟩
    · exact ⟨[token], rest, _, rfl, .name kind, h⟩
    · obtain ⟨closing, behind, rfl, closes, h⟩ := h
      exact ⟨token :: (inside ++ [closing]), behind, tree, by simp, .group opens inner closes, h⟩
    · exact ⟨token :: operand, behind, _, rfl, .signed signs inner, h⟩

theorem followedBy_factor_integer {value : Int64} (kind : token.kind = .integer)
    (read : Numeral.read? token.lexeme = some value) :
    FollowedBy (Derives .factor) follow (token :: rest) result ↔
      follow (.literal value token) rest result := by
  simp [followedBy_factor_cons, signs_iff, kind, read]

theorem followedBy_factor_identifier (kind : token.kind = .identifier) :
    FollowedBy (Derives .factor) follow (token :: rest) result ↔
      follow (.identifier token) rest result := by
  simp [followedBy_factor_cons, signs_iff, kind]

theorem followedBy_factor_leftParen (kind : token.kind = .leftParen) :
    FollowedBy (Derives .factor) follow (token :: rest) result ↔
      FollowedBy (Derives .expression) (fun tree => Lead .rightParen fun _ => follow tree)
        rest result := by
  simp [followedBy_factor_cons, signs_iff, kind]

theorem followedBy_factor_sign {sign : Sign} (signs : Signs token.kind sign) :
    FollowedBy (Derives .factor) follow (token :: rest) result ↔
      FollowedBy (Derives .factor) (fun operand => follow (.unary sign token operand))
        rest result := by
  rcases signs_iff.mp signs with ⟨kind, rfl⟩ | ⟨kind, rfl⟩
  · simp [followedBy_factor_cons, signs_iff, kind]
  · simp [followedBy_factor_cons, signs_iff, kind]

theorem not_followedBy_factor_nil : ¬FollowedBy (Derives .factor) follow [] result := by
  rintro ⟨before, behind, tree, split, derived, _⟩
  rw [(List.append_eq_nil_iff.mp split.symm).1] at derived
  cases derived

theorem followedBy_chain {level : Operator.Level} :
    FollowedBy (Derives (.chain level)) follow =
      FollowedBy (Derives (Category.operand level)) (Joined level follow) := by
  funext tokens result
  apply propext
  constructor
  · rintro ⟨before, behind, tree, rfl, derived, h⟩
    cases derived with
    | single inner => exact ⟨before, behind, tree, rfl, inner, .inl h⟩
    | pair first joins second =>
      refine ⟨_, _, _, List.append_assoc _ _ _, first, .inr ⟨_, _, _, rfl, joins, ?_⟩⟩
      exact ⟨_, behind, _, rfl, second, h⟩
  · rintro ⟨before, behind, left, rfl, first, h | ⟨token, _, _, rfl, joins, right⟩⟩
    · exact ⟨before, behind, left, rfl, .single first, h⟩
    · obtain ⟨inside, behind, right, rfl, second, h⟩ := right
      exact ⟨before ++ token :: inside, behind, _, by simp, .pair first joins second, h⟩

/-- What may follow a word of the category does not go on with it. -/
def Apart (category : Category) (follow : Tree → Words β) : Prop :=
  ∀ tree token rest result, follow tree (token :: rest) result → ¬Resumes category token.kind

theorem Apart.joined {level : Operator.Level} (apart : Apart (.chain level) follow) :
    Apart (Category.operand level) (Joined level follow) := by
  intro left token rest result h
  rcases h with h | ⟨_, _, _, same, joins, _⟩
  · exact fun resumes => apart _ _ _ _ h (.inside resumes)
  · obtain ⟨rfl, rfl⟩ := List.cons.inj same
    exact not_resumes_operand joins

theorem apart_lead {category : Category} {kind : Token.Kind}
    (neither : ∀ level operator, ¬Joins level kind operator) :
    Apart category fun tree => Lead kind fun _ => follow tree := by
  intro tree token rest result h resumes
  obtain ⟨level, operator, joins⟩ := joins_of_resumes resumes
  rw [(lead_cons.mp h).1] at joins
  exact neither level operator joins

theorem begins_of_followedBy {category : Category}
    (h : FollowedBy (Derives category) follow (token :: rest) result) : Begins token.kind := by
  obtain ⟨before, behind, tree, split, derived, _⟩ := h
  obtain ⟨head, others, rfl, begins⟩ := begins_of_derives derived
  obtain ⟨rfl, _⟩ := List.cons.inj split
  exact begins

/-- Behind a name stands what follows the whole expression, or an operator. -/
theorem followedBy_name {category : Category} (named : token.kind = .identifier)
    (h : FollowedBy (Derives category) follow (token :: rest) result) :
    follow (.identifier token) rest result ∨
      ∃ next more, rest = next :: more ∧ Resumes category next.kind := by
  have factor {follow : Tree → Words β}
      (h : FollowedBy (Derives .factor) follow (token :: rest) result) :
      follow (.identifier token) rest result :=
    (followedBy_factor_identifier named).mp h
  have joined {level : Operator.Level} {follow : Tree → Words β}
      (h : Joined level follow (.identifier token) rest result) :
      follow (.identifier token) rest result ∨
        ∃ next more, rest = next :: more ∧ Resumes (.chain level) next.kind := by
    rcases h with h | ⟨next, more, _, same, joins, _⟩
    · exact .inl h
    · exact .inr ⟨next, more, same, .here joins⟩
  cases category with
  | factor => exact .inl (factor h)
  | chain level =>
    rw [followedBy_chain] at h
    cases level with
    | multiplicative => exact joined (factor h)
    | additive =>
      rw [Category.operand, followedBy_chain] at h
      rcases joined (factor h) with h | ⟨next, more, same, resumes⟩
      · exact joined h
      · exact .inr ⟨next, more, same, .inside resumes⟩

theorem followedBy_statement :
    FollowedBy Statement follow tokens result ↔
      Lead .keyword (fun keyword rest result => keyword.lexeme = "var" ∧
        Binding .declaration follow rest result) tokens result ∨
      Binding .assignment follow tokens result ∨
      FollowedBy (Derives .expression) follow tokens result := by
  constructor
  · rintro ⟨before, behind, tree, rfl, statement, h⟩
    cases statement with
    | declaration reserved var named assigned inner =>
      exact .inl ⟨_, _, rfl, reserved, var, _, _, rfl, named, _, _, rfl, assigned,
        _, behind, _, rfl, inner, h⟩
    | assignment named assigned inner =>
      exact .inr (.inl ⟨_, _, rfl, named, _, _, rfl, assigned, _, behind, _, rfl, inner, h⟩)
    | expression inner => exact .inr (.inr ⟨before, behind, tree, rfl, inner, h⟩)
  · rintro (⟨keyword, _, rfl, reserved, var, h⟩ | h | ⟨before, behind, tree, rfl, inner, h⟩)
    · obtain ⟨name, _, rfl, named, equals, _, rfl, assigned, before, behind, _, rfl, inner, h⟩ := h
      exact ⟨keyword :: name :: equals :: before, behind, _, rfl,
        .declaration reserved var named assigned inner, h⟩
    · obtain ⟨name, _, rfl, named, equals, _, rfl, assigned, before, behind, _, rfl, inner, h⟩ := h
      exact ⟨name :: equals :: before, behind, _, rfl, .assignment named assigned inner, h⟩
    · exact ⟨before, behind, tree, rfl, .expression inner, h⟩

theorem followedBy_statement_var (reserved : token.kind = .keyword) (var : token.lexeme = "var") :
    FollowedBy Statement follow (token :: rest) result ↔
      Binding .declaration follow rest result := by
  rw [followedBy_statement, lead_cons, and_iff_right reserved, and_iff_right var]
  refine or_iff_left ?_
  rintro (h | h)
  · cases reserved.symm.trans (lead_cons.mp h).1
  · have begins := begins_of_followedBy h
    simp [Begins, reserved] at begins

theorem followedBy_statement_name (named : token.kind = .identifier) :
    FollowedBy Statement follow (token :: rest) result ↔
      (Lead .equal fun equals => FollowedBy (Derives .expression) fun value =>
        follow (.assignment token equals value)) rest result ∨
      FollowedBy (Derives .expression) follow (token :: rest) result := by
  have bound : Binding .assignment follow (token :: rest) result ↔
      (Lead .equal fun equals => FollowedBy (Derives .expression) fun value =>
        follow (.assignment token equals value)) rest result :=
    lead_cons.trans (and_iff_right named)
  rw [followedBy_statement, bound]
  refine or_iff_right ?_
  rintro ⟨_, _, same, kind, _⟩
  obtain ⟨rfl, _⟩ := List.cons.inj same
  cases named.symm.trans kind

end

/-! ### Programs, one statement at a time -/

section
variable {β : Type} {tokens : List Token} {result : β}

def Ends (value : β) : Words β := fun tokens result =>
  ∃ final, tokens = [final] ∧ final.kind = .endOfInput ∧ result = value

/-- Programs, read as the value of a function of their statements. -/
def ProgramAs (read : List Tree → β) : Words β := fun tokens result =>
  ∃ trees, Program tokens trees ∧ result = read trees

/-- What may follow a statement of a program. -/
def AfterStatement (read : List Tree → β) (tree : Tree) : Words β := fun tokens result =>
  Ends (read [tree]) tokens result ∨
    Lead .semicolon (fun _ => ProgramAs fun trees => read (tree :: trees)) tokens result

theorem programAs_iff {read : List Tree → β} :
    ProgramAs read tokens result ↔
      Ends (read []) tokens result ∨ FollowedBy Statement (AfterStatement read) tokens result := by
  constructor
  · rintro ⟨trees, program, rfl⟩
    cases program with
    | empty ends => exact .inl ⟨_, rfl, ends, rfl⟩
    | closed sequence ends =>
      cases sequence with
      | last statement => exact .inr ⟨_, _, _, rfl, statement, .inl ⟨_, rfl, ends, rfl⟩⟩
      | more statement separates sequence =>
        exact .inr ⟨_, _, _, List.append_assoc _ _ _, statement,
          .inr ⟨_, _, rfl, separates, _, .closed sequence ends, rfl⟩⟩
    | terminated sequence separates ends =>
      cases sequence with
      | last statement =>
        exact .inr ⟨_, _, _, rfl, statement, .inr ⟨_, _, rfl, separates, _, .empty ends, rfl⟩⟩
      | more statement between sequence =>
        exact .inr ⟨_, _, _, List.append_assoc _ _ _, statement,
          .inr ⟨_, _, rfl, between, _, .terminated sequence separates ends, rfl⟩⟩
  · rintro (⟨final, rfl, ends, rfl⟩ | ⟨before, _, tree, rfl, statement, h⟩)
    · exact ⟨[], .empty ends, rfl⟩
    · rcases h with ⟨final, rfl, ends, rfl⟩ | ⟨separator, _, rfl, separates, trees, program, rfl⟩
      · exact ⟨[tree], .closed (.last statement) ends, rfl⟩
      · refine ⟨tree :: trees, ?_, rfl⟩
        cases program with
        | @empty final ends => exact .terminated (.last statement) separates ends
        | @closed final others _ sequence ends =>
          have program := Program.closed (.more statement separates sequence) ends
          rwa [List.append_assoc] at program
        | @terminated last final others _ sequence terminates ends =>
          have program := Program.terminated (.more statement separates sequence) terminates ends
          rwa [List.append_assoc] at program

end

/-- A program has no statement, or one up to the end of the input, or one in front of a semicolon
and others behind it. -/
theorem program_cases {tokens : List Token} {trees : List Tree} (h : Program tokens trees) :
    (∃ final, tokens = [final] ∧ final.kind = .endOfInput ∧ trees = []) ∨
      (∃ before final tree, tokens = before ++ [final] ∧ Statement before tree ∧
        final.kind = .endOfInput ∧ trees = [tree]) ∨
      ∃ before separator behind tree others, tokens = before ++ separator :: behind ∧
        Statement before tree ∧ separator.kind = .semicolon ∧ Program behind others ∧
        trees = tree :: others := by
  have whole : ProgramAs id tokens trees := ⟨trees, h, rfl⟩
  rcases programAs_iff.mp whole with ⟨final, same, ends, empty⟩ |
    ⟨before, behind, tree, split, statement, h⟩
  · exact .inl ⟨final, same, ends, empty⟩
  · rcases h with ⟨final, rfl, ends, single⟩ | ⟨separator, rest, rfl, separates, others, more, all⟩
    · exact .inr (.inl ⟨before, final, tree, split, statement, ends, single⟩)
    · exact .inr (.inr ⟨before, separator, rest, tree, others, split, statement, separates, more,
        all⟩)

/-! ### What stands behind statements -/

/-- The kinds of tokens that stand behind statements, and nowhere else. -/
def Divides (kind : Token.Kind) : Prop :=
  kind = .semicolon ∨ kind = .endOfInput

theorem not_divides_of_joins {level : Operator.Level} {kind : Token.Kind} {operator : Operator}
    (h : Joins level kind operator) : ¬Divides kind := by
  cases h <;> simp [Divides]

theorem not_divides_of_signs {kind : Token.Kind} {sign : Sign} (h : Signs kind sign) :
    ¬Divides kind := by
  cases h <;> simp [Divides]

theorem not_divides_of_derives {category : Category} {tokens : List Token} {tree : Tree}
    (h : Derives category tokens tree) : ∀ token ∈ tokens, ¬Divides token.kind := by
  induction h with
  | literal kind | name kind => simp [Divides, kind]
  | group opens _ closes ih =>
    simp only [List.forall_mem_cons, List.forall_mem_append]
    exact ⟨by simp [Divides, opens], ih, by simp [Divides, closes], by simp⟩
  | signed signs _ ih => exact List.forall_mem_cons.mpr ⟨not_divides_of_signs signs, ih⟩
  | single _ ih => exact ih
  | pair _ joins _ first second =>
    simp only [List.forall_mem_cons, List.forall_mem_append]
    exact ⟨first, not_divides_of_joins joins, second⟩

theorem not_divides_of_statement {tokens : List Token} {tree : Tree} (h : Statement tokens tree) :
    ∀ token ∈ tokens, ¬Divides token.kind := by
  cases h with
  | declaration reserved _ named assigned inner =>
    simp only [List.forall_mem_cons, Divides, reserved, named, assigned]
    exact ⟨by simp, by simp, by simp, not_divides_of_derives inner⟩
  | assignment named assigned inner =>
    simp only [List.forall_mem_cons, Divides, named, assigned]
    exact ⟨by simp, by simp, not_divides_of_derives inner⟩
  | expression inner => exact not_divides_of_derives inner

theorem kind_ne_of_statement {tokens : List Token} {tree : Tree} (h : Statement tokens tree) :
    ∀ token ∈ tokens, token.kind ≠ .endOfInput := fun token member ends =>
  not_divides_of_statement h token member (.inr ends)

theorem kind_ne_of_sequence {tokens : List Token} {trees : List Tree} (h : Sequence tokens trees) :
    ∀ token ∈ tokens, token.kind ≠ .endOfInput := by
  induction h with
  | last statement => exact kind_ne_of_statement statement
  | more statement separates _ ih =>
    simp only [List.forall_mem_cons, List.forall_mem_append]
    exact ⟨kind_ne_of_statement statement, by simp [separates], ih⟩

theorem end_of_program {tokens : List Token} {trees : List Tree} (h : Program tokens trees) :
    ∃ before final, tokens = before ++ [final] ∧ final.kind = .endOfInput ∧
      ∀ token ∈ before, token.kind ≠ .endOfInput := by
  cases h with
  | @empty final ends => exact ⟨[], final, rfl, ends, by simp⟩
  | @closed final tokens _ sequence ends =>
    exact ⟨tokens, final, rfl, ends, kind_ne_of_sequence sequence⟩
  | @terminated separator final tokens _ sequence separates ends =>
    refine ⟨tokens ++ [separator], final, by simp, ends, ?_⟩
    simp only [List.forall_mem_append, List.forall_mem_singleton]
    exact ⟨kind_ne_of_sequence sequence, by simp [separates]⟩

end Calculator.Grammar
