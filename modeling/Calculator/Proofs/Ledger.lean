import Calculator.Proofs.Failure

/-!
# The ledger of a run

The events of a run are the look-ups, declarations and assignments that succeed, statement by
statement; `value_of_reads` says that an expression looks up all that its value depends on.
`records_run` says that the environment of a run is what its events make of the empty one, and that
each of them was allowed where it happened. The rest is a matter of events: `ledger_of_calls`.
-/

namespace Calculator

/-! ### Events -/

/-- What can happen to a name. -/
inductive Event where
  | declared (name : String) (value : Int64)
  | assigned (name : String) (value : Int64)
  | read (name : String) (value : Int64)
  deriving DecidableEq

namespace Event

def name : Event → String
  | .declared name _ | .assigned name _ | .read name _ => name

def isDeclaration : Event → Bool
  | .declared _ _ => true
  | .assigned _ _ | .read _ _ => false

def declares (event : Event) (name : String) : Bool :=
  event.isDeclaration && event.name = name

/-- The value that an event stores under a name. -/
def stored? (event : Event) (asked : String) : Option Int64 :=
  match event with
  | .declared name value | .assigned name value => if asked = name then some value else none
  | .read _ _ => none

def apply (event : Event) (env : Environment) : Environment :=
  match event with
  | .declared name value | .assigned name value => env.bind name value
  | .read _ _ => env

/-- A name is declared where it has no value, and read or assigned where it has one. -/
inductive Allowed (env : Environment) : Event → Prop where
  | declared {name : String} {value : Int64} (absent : env.binds name = false) :
      Allowed env (.declared name value)
  | assigned {name : String} {value : Int64} (present : env.binds name = true) :
      Allowed env (.assigned name value)
  | read {name : String} {value : Int64} (present : env.get? name = some value) :
      Allowed env (.read name value)

end Event

theorem Environment.binds_bind (env : Environment) (name : String) (value : Int64)
    (asked : String) :
    (env.bind name value).binds asked = (decide (asked = name) || env.binds asked) := by
  rw [binds, binds, get?_bind]
  by_cases same : asked = name
  · simp [same]
  · simp [same]

/-- The events lead from the empty environment to this one, each allowed where it happens. -/
inductive Records : List Event → Environment → Prop where
  | nil : Records [] .empty
  | snoc {log : List Event} {env : Environment} {event : Event} (h : Records log env)
      (allowed : event.Allowed env) : Records (log ++ [event]) (event.apply env)

section
variable {log before behind : List Event} {env : Environment} {event : Event}

theorem Records.get? (h : Records log env) (name : String) :
    env.get? name = (log.filterMap (·.stored? name)).getLast? := by
  induction h with
  | nil => rfl
  | @snoc log env event _ allowed ih =>
    rw [List.filterMap_append, List.getLast?_append]
    cases event with
    | declared other value | assigned other value =>
      by_cases same : name = other
      · simp [Event.apply, Event.stored?, same]
      · simp [Event.apply, Event.stored?, Environment.get?_bind, same, ih]
    | read other value => simp [Event.apply, Event.stored?, ih]

/-- A name that has a value is declared once, and any other not at all. -/
theorem Records.countP_declares (h : Records log env) (name : String) :
    log.countP (·.declares name) = if env.binds name then 1 else 0 := by
  induction h with
  | nil => rfl
  | @snoc log env event _ allowed ih =>
    rw [List.countP_append, List.countP_singleton, ih]
    cases allowed with
    | @declared other value absent =>
      by_cases same : name = other
      · subst same
        simp [Event.apply, Event.declares, Event.isDeclaration, Event.name,
          Environment.binds_bind, absent]
      · simp [Event.apply, Event.declares, Event.isDeclaration, Event.name,
          Environment.binds_bind, same, Ne.symm same]
    | @assigned other value present =>
      by_cases same : name = other
      · subst same
        simp [Event.apply, Event.declares, Event.isDeclaration, Environment.binds_bind, present]
      · simp [Event.apply, Event.declares, Event.isDeclaration, Environment.binds_bind, same]
    | read => rfl

theorem Records.size (h : Records log env) : env.size = log.countP Event.isDeclaration := by
  induction h with
  | nil => rfl
  | @snoc log env event _ allowed ih =>
    rw [List.countP_append, List.countP_singleton, ← ih]
    cases allowed with
    | declared absent =>
      rw [Event.apply, Environment.size_bind, absent]
      rfl
    | assigned present =>
      rw [Event.apply, Environment.size_bind, present]
      rfl
    | read => rfl

theorem Records.declared_of_binds (h : Records log env) {name : String}
    (bound : env.binds name = true) : ∃ value, Event.declared name value ∈ log := by
  have count := h.countP_declares name
  rw [if_pos bound] at count
  obtain ⟨event, member, declares⟩ := List.countP_pos_iff.mp (count ▸ Nat.one_pos)
  cases event with
  | declared other value =>
    obtain rfl : other = name := of_decide_eq_true declares
    exact ⟨value, member⟩
  | assigned | read => cases declares

theorem Records.split (h : Records (before ++ event :: behind) env) :
    ∃ between, Records before between ∧ event.Allowed between := by
  -- From the end: a split that leaves the last event behind is one of the events before it.
  generalize whole : before ++ event :: behind = log at h
  induction h generalizing behind with
  | nil => simp at whole
  | @snoc log env last h allowed ih =>
    rcases List.eq_nil_or_concat behind with rfl | ⟨more, final, rfl⟩
    · obtain ⟨rfl, same⟩ := List.append_inj' whole rfl
      cases same
      exact ⟨env, h, allowed⟩
    · rw [List.concat_eq_append, ← List.cons_append, ← List.append_assoc] at whole
      exact ih (List.append_inj' whole rfl).1

/-- A name is declared before it is read or assigned. -/
theorem Records.declared_before (h : Records (before ++ event :: behind) env)
    (uses : event.isDeclaration = false) : ∃ value, Event.declared event.name value ∈ before := by
  obtain ⟨between, records, allowed⟩ := h.split
  cases allowed with
  | declared => cases uses
  | assigned present => exact records.declared_of_binds present
  | read present => exact records.declared_of_binds (Option.isSome_of_eq_some present)

end

/-! ### What a statement does to names -/

/-- The environment that is left, with a value or without. -/
def leftBy {α : Type} : EStateM.Result Fault Environment α → Environment
  | .ok _ after | .error _ after => after

namespace Tree

/-- The look-ups of an expression that succeed, up to the first part without a value. -/
def reads (env : Environment) : Tree → List Event
  | .binary _ _ left right =>
    left.reads env ++ match left.value env with
      | .ok _ => right.reads env
      | .error _ => []
  | .unary _ _ operand => operand.reads env
  | .identifier token =>
    match env.get? token.lexeme with
    | some value => [.read token.lexeme value]
    | none => []
  | .literal _ _ | .program _ _ | .declaration _ _ _ | .assignment _ _ _ => []

/-- The look-ups of a statement. One that is refused for its name looks nothing up. -/
def lookups (env : Environment) : Tree → List Event
  | .declaration name _ expression => if env.binds name.lexeme then [] else expression.reads env
  | .assignment name _ expression => if env.binds name.lexeme then expression.reads env else []
  | tree => tree.reads env

/-- The declaration or the assignment that a statement is once it has its value. -/
def storesAs : Tree → Int64 → List Event
  | .declaration name _ _, value => [.declared name.lexeme value]
  | .assignment name _ _, value => [.assigned name.lexeme value]
  | _, _ => []

/-- What a statement stores, if it succeeds. -/
def stores (env : Environment) (statement : Tree) : List Event :=
  match statement.execute env with
  | .ok value _ => statement.storesAs value
  | .error _ _ => []

def events (env : Environment) (statement : Tree) : List Event :=
  statement.lookups env ++ statement.stores env

section
variable {env other after : Environment} {tree statement : Tree} {event : Event} {log : List Event}
  {value : Int64}

/-- An expression reads all that its value depends on. -/
theorem value_of_reads (h : tree.value env = .ok value)
    (same : ∀ name result, Event.read name result ∈ tree.reads env →
      other.get? name = some result) : tree.value other = .ok value := by
  induction tree using Tree.value.induct env generalizing value with
  | case1 => exact h
  | case2 operator token left right ihLeft ihRight =>
    obtain ⟨leftValue, rightValue, first, second, applied⟩ := value_binary_ok h
    rw [reads, first] at same
    have leftSame := ihLeft first fun name result member =>
      same name result (List.mem_append_left _ member)
    have rightSame := ihRight second fun name result member =>
      same name result (List.mem_append_right _ member)
    rw [value_binary, leftSame, rightSame]
    dsimp only
    rw [applied]
  | case3 sign token operand ih =>
    obtain ⟨operandValue, inner, rfl⟩ := value_unary_ok h
    rw [value_unary, ih inner same]
  | case4 | case5 =>
    have bound := value_identifier_ok h
    rw [reads, bound] at same
    rw [Tree.value, same _ _ List.mem_cons_self]
  | case6 | case7 | case8 => cases h

theorem exists_of_mem_reads (member : event ∈ tree.reads env) :
    ∃ name value, event = .read name value ∧ env.get? name = some value := by
  fun_induction reads env tree with
  | case1 operator token left right ihLeft ihRight =>
    rcases List.mem_append.mp member with member | member
    · exact ihLeft member
    · split at member
      · exact ihRight member
      · cases member
  | case2 sign token operand ih => exact ih member
  | case3 token value bound =>
    obtain rfl := List.mem_singleton.mp member
    exact ⟨_, _, rfl, bound⟩
  | case4 | case5 | case6 | case7 | case8 => cases member

theorem exists_of_mem_lookups (member : event ∈ statement.lookups env) :
    ∃ name value, event = .read name value ∧ env.get? name = some value := by
  unfold lookups at member
  split at member
  · split at member
    · cases member
    · exact exists_of_mem_reads member
  · split at member
    · exact exists_of_mem_reads member
    · cases member
  · exact exists_of_mem_reads member

theorem stores_of_ok (ran : statement.execute env = .ok value after) :
    statement.stores env = statement.storesAs value := by
  rw [stores, ran]

theorem stores_of_error {fault : Fault} (failed : statement.execute env = .error fault after) :
    statement.stores env = [] := by
  rw [stores, failed]

/-- A statement that fails changes nothing. One that succeeds changes nothing either, or it stores
its value under a name, for which that was allowed. -/
theorem execute_cases (statement : Tree) (env : Environment) :
    (statement.stores env = [] ∧ leftBy (statement.execute env) = env) ∨
      ∃ event, statement.stores env = [event] ∧ leftBy (statement.execute env) = event.apply env ∧
        event.Allowed env := by
  rcases succeeds_or_fails statement env with ⟨value, after, succeeds⟩ | ⟨fault, fails⟩
  · rw [stores_of_ok succeeds.execute, succeeds.execute]
    cases succeeds with
    | expression root =>
      have none : statement.storesAs value = [] := by
        cases statement with
        | declaration | assignment => simp [Kind.IsExpression, kind] at root
        | _ => rfl
      exact .inl ⟨none, rfl⟩
    | declaration absent => exact .inr ⟨_, rfl, rfl, .declared absent⟩
    | assignment present => exact .inr ⟨_, rfl, rfl, .assigned present⟩
  · rw [stores_of_error fails.execute, fails.execute]
    exact .inl ⟨rfl, rfl⟩

theorem records_lookups {found : List Event} (h : Records log env)
    (each : ∀ event ∈ found, ∃ name value, event = .read name value ∧ env.get? name = some value) :
    Records (log ++ found) env := by
  induction found generalizing log with
  | nil => rwa [List.append_nil]
  | cons event found ih =>
    obtain ⟨⟨name, value, rfl, bound⟩, others⟩ := List.forall_mem_cons.mp each
    rw [List.append_cons]
    exact ih (h.snoc (.read bound)) others

/-- A statement adds its events to those that lead to its environment. -/
theorem records_execute (h : Records log env) (statement : Tree) :
    Records (log ++ statement.events env) (leftBy (statement.execute env)) := by
  have looked : Records (log ++ statement.lookups env) env :=
    records_lookups h fun _ member => exists_of_mem_lookups member
  rw [events, ← List.append_assoc]
  rcases execute_cases statement env with ⟨none, same⟩ | ⟨event, one, same, allowed⟩
  · rw [none, same, List.append_nil]
    exact looked
  · rw [one, same]
    exact looked.snoc allowed

end

/-! ### What is executed -/

/-- The statements of a program; any other tree is a statement itself. -/
def statements : Tree → List Tree
  | .program statements _ => statements
  | statement => [statement]

theorem statements_of_kind {tree : Tree} (h : tree.kind ≠ .program) : tree.statements = [tree] := by
  cases tree with
  | program => exact absurd rfl h
  | _ => rfl

/-- A tree is evaluated by executing its statements, if it has any. -/
theorem executeAll_statements {tree : Tree} (nonempty : tree.statements ≠ []) (env : Environment) :
    executeAll tree.statements env = match tree.evaluate env with
      | .ok value after => .ok (some value) after
      | .error fault after => .error fault after := by
  rcases program_or_kind tree with ⟨statements, span, rfl⟩ | root
  · show executeAll statements env = _
    rw [evaluate_program]
    cases ran : executeAll statements env with
    | error fault after => rfl
    | ok result after =>
      cases result with
      | none => exact absurd (foldlM_ok ran) nonempty
      | some value => rfl
  · rw [statements_of_kind root, evaluate_of_kind root, executeAll]
    cases ran : tree.execute env with
    | ok value after => exact foldlM_of_ok ran
    | error fault after => exact foldlM_of_error ran

/-- Statements up to the first that fails, each with the environment it is executed in. -/
def executions : List Tree → Environment → List (Environment × Tree)
  | [], _ => []
  | statement :: rest, env =>
    (env, statement) :: match statement.execute env with
      | .ok _ after => executions rest after
      | .error _ _ => []

end Tree

/-- The executions lead from an environment to another, each from where the last one left it. -/
inductive Linked : Environment → List (Environment × Tree) → Environment → Prop where
  | nil (env : Environment) : Linked env [] env
  | cons {env after : Environment} {statement : Tree} {rest : List (Environment × Tree)}
      (more : Linked (leftBy (statement.execute env)) rest after) :
      Linked env ((env, statement) :: rest) after

/-- The later environment has a value for every name that the earlier one has one for. -/
def Keeps (earlier later : Environment) : Prop :=
  ∀ name, earlier.binds name = true → later.binds name = true

section
variable {env between after : Environment} {list more : List (Environment × Tree)}
  {log : List Event} {statement tree : Tree}

theorem Linked.append (first : Linked env list between) (second : Linked between more after) :
    Linked env (list ++ more) after := by
  induction first with
  | nil => exact second
  | cons _ ih => exact .cons (ih second)

theorem Linked.records (h : Linked env list after) (start : Records log env) :
    Records (log ++ list.flatMap fun entry => entry.2.events entry.1) after := by
  induction h generalizing log with
  | nil => rwa [List.flatMap_nil, List.append_nil]
  | @cons _ _ statement _ _ ih =>
    rw [List.flatMap_cons, ← List.append_assoc]
    exact ih (Tree.records_execute start statement)

theorem keeps_execute (statement : Tree) (env : Environment) :
    Keeps env (leftBy (statement.execute env)) := by
  intro name bound
  rcases Tree.execute_cases statement env with ⟨_, same⟩ | ⟨event, _, same, _⟩
  · rwa [same]
  · rw [same]
    cases event with
    | declared | assigned => rw [Event.apply, Environment.binds_bind, bound, Bool.or_true]
    | read => exact bound

theorem Linked.keeps (h : Linked env list after) :
    (∀ later ∈ list.map Prod.fst ++ [after], Keeps env later) ∧
      (list.map Prod.fst ++ [after]).Pairwise Keeps := by
  induction h with
  | nil => simp [Keeps]
  | @cons env _ statement _ _ ih =>
    obtain ⟨first, others⟩ := ih
    have kept := keeps_execute statement env
    have all : ∀ later ∈ _, Keeps env later := fun later member name bound =>
      first later member name (kept name bound)
    exact ⟨List.forall_mem_cons.mpr ⟨fun _ bound => bound, all⟩,
      List.pairwise_cons.mpr ⟨all, others⟩⟩

theorem linked_foldlM (statements : List Tree) (last : Option Int64) (env : Environment) :
    Linked env (Tree.executions statements env)
      (leftBy (statements.foldlM (fun _ tree => some <$> tree.execute) last env)) := by
  induction statements generalizing last env with
  | nil => exact .nil env
  | cons statement rest ih =>
    rw [Tree.executions]
    cases ran : statement.execute env with
    | ok value between =>
      have more := ih (some value) between
      rw [Tree.foldlM_of_ok ran]
      refine .cons ?_
      rwa [ran]
    | error fault after =>
      rw [Tree.foldlM_of_error ran]
      refine .cons ?_
      rw [ran]
      exact .nil after

theorem linked_evaluate (tree : Tree) (env : Environment) :
    Linked env (Tree.executions tree.statements env) (leftBy (tree.evaluate env)) := by
  by_cases none : tree.statements = []
  · cases tree with
    | program statements span =>
      obtain rfl : statements = [] := none
      exact .nil env
    | _ => cases none
  · have linked : Linked env (Tree.executions tree.statements env)
      (leftBy (Tree.executeAll tree.statements env)) := linked_foldlM tree.statements .none env
    rw [Tree.executeAll_statements none] at linked
    cases ran : tree.evaluate env with
    | ok value after => rwa [ran] at linked
    | error fault after => rwa [ran] at linked

end

/-! ### Runs -/

/-- A call of the evaluator: for a text, or for a tree that may have been put together by hand. -/
inductive Call where
  | text (mode : Mode) (source : String)
  | built (tree : Tree)

namespace Call

def perform : Call → EStateM Fault Environment Int64
  | .text mode source => evaluate mode source
  | .built tree => tree.evaluate

/-- The statements that a call may execute. A text that cannot be read has none. -/
def statements : Call → List Tree
  | .text mode source =>
    match Tree.ofSource mode source with
    | .ok tree => tree.statements
    | .error _ => []
  | .built tree => tree.statements

def isText : Call → Bool
  | .text _ _ => true
  | .built _ => false

end Call

namespace Ledger

/-- The environment that calls leave, each starting from what the last one has left. -/
def run : List Call → Environment → Environment
  | [], env => env
  | call :: calls, env => run calls (leftBy (call.perform env))

/-- All statements that calls execute, with the environments they are executed in. -/
def executions : List Call → Environment → List (Environment × Tree)
  | [], _ => []
  | call :: calls, env =>
    Tree.executions call.statements env ++ executions calls (leftBy (call.perform env))

/-- The environments in front of each statement of a run, and the one at its end. -/
def moments (calls : List Call) : List Environment :=
  (executions calls .empty).map Prod.fst ++ [run calls .empty]

/-- The events of a run. -/
def log (calls : List Call) : List Event :=
  (executions calls .empty).flatMap fun entry => entry.2.events entry.1

theorem linked_perform (call : Call) (env : Environment) :
    Linked env (Tree.executions call.statements env) (leftBy (call.perform env)) := by
  cases call with
  | built tree => exact linked_evaluate tree env
  | text mode source =>
    unfold Call.statements Call.perform
    dsimp only
    cases read : Tree.ofSource mode source with
    | ok tree =>
      rw [evaluate_of_ok read]
      exact linked_evaluate tree env
    | error fault =>
      rw [evaluate_of_error read]
      exact .nil env

theorem linked_run (calls : List Call) (env : Environment) :
    Linked env (executions calls env) (run calls env) := by
  induction calls generalizing env with
  | nil => exact .nil env
  | cons call calls ih => exact (linked_perform call env).append (ih _)

/-- The environment of a run is what its events make of the empty one. -/
theorem records_run (calls : List Call) : Records (log calls) (run calls .empty) :=
  (linked_run calls .empty).records .nil

end Ledger

/-! ### Names of texts -/

/-- A text that begins with a letter or `_`, goes on with letters, digits and `_`, and is not
reserved. -/
def Token.Nameable (text : String) : Prop :=
  ∃ c rest, text.toList = c :: rest ∧ (Unicode.isAlphabetic c = true ∨ c = '_') ∧
    (∀ d ∈ rest, Unicode.isAlphanumeric d = true ∨ d = '_') ∧ text ≠ "var" ∧ text ≠ "func"

theorem nameable_of_scanned {token : Token} (h : token.Scanned) (named : token.kind = .identifier) :
    Token.Nameable token.lexeme := by
  have lexeme := Scanner.lexeme_of_scanned h (by simp [named])
  rw [named] at lexeme
  generalize identifier : Token.Kind.identifier = kind at lexeme
  generalize spelled : token.lexeme.toList = text at lexeme
  cases lexeme with
  | number => cases identifier
  | symbol symbol => exact absurd identifier.symm (Token.kind_ne_of_ofSymbol? symbol).2.2.1
  | @word c rest start parts =>
    have unreserved : token.lexeme ∉ Token.keywords := by
      rw [← spelled, String.ofList_toList] at identifier
      unfold Token.wordKind at identifier
      split at identifier
      · cases identifier
      · assumption
    refine ⟨c, rest, spelled, ?_, ?_, ?_, ?_⟩
    · simpa [Token.isWordStart] using start
    · intro d member
      simpa [Token.isWordPart] using parts d member
    · rintro same
      exact unreserved (same ▸ by decide)
    · rintro same
      exact unreserved (same ▸ by decide)

section
variable {tokens : List Token} {name equals : Token} {expression statement : Tree}
  {env : Environment}

theorem nameable_of_statement (h : Grammar.Statement tokens (.declaration name equals expression))
    (scanned : ∀ token ∈ tokens, token.Scanned) : Token.Nameable name.lexeme := by
  cases h with
  | declaration _ _ named =>
    exact nameable_of_scanned (scanned name (by simp)) named
  | expression inner =>
    have root := Tree.kind_of_derives inner
    simp [Tree.Kind.IsExpression, Tree.kind] at root

theorem nameable_of_text {call : Call} (text : call.isText = true)
    (member : .declaration name equals expression ∈ call.statements) :
    Token.Nameable name.lexeme := by
  cases call with
  | built => cases text
  | text mode source =>
    unfold Call.statements at member
    dsimp only at member
    split at member
    · rename_i tree read
      obtain ⟨tokens, after, run, ⟨_, statement⟩ | ⟨_, trees, program, rfl⟩⟩ :=
        Parser.read_of_ofSource read
      · rw [Tree.statements_of_kind (Tree.kind_of_statement statement)] at member
        obtain rfl := List.mem_singleton.mp member
        exact nameable_of_statement statement run.scanned
      · obtain ⟨some, statement, sub⟩ := Grammar.statement_of_program program _ member
        exact nameable_of_statement statement fun token inside =>
          run.scanned token (sub.subset inside)
    · cases member

end

namespace Ledger

section
variable {calls : List Call} {env start : Environment} {statement : Tree} {name : String}
  {value : Int64}

theorem mem_of_mem_executions {statements : List Tree}
    (h : (env, statement) ∈ Tree.executions statements start) : statement ∈ statements := by
  induction statements generalizing start with
  | nil => cases h
  | cons first rest ih =>
    rw [Tree.executions] at h
    rcases List.mem_cons.mp h with same | more
    · cases same
      exact List.mem_cons_self
    · split at more
      · exact List.mem_cons_of_mem _ (ih more)
      · cases more

theorem exists_of_mem_executions (h : (env, statement) ∈ executions calls start) :
    ∃ call ∈ calls, statement ∈ call.statements := by
  induction calls generalizing start with
  | nil => cases h
  | cons call calls ih =>
    rcases List.mem_append.mp h with first | more
    · exact ⟨call, List.mem_cons_self, mem_of_mem_executions first⟩
    · obtain ⟨other, member, inside⟩ := ih more
      exact ⟨other, List.mem_cons_of_mem _ member, inside⟩

theorem exists_of_declared (h : Event.declared name value ∈ log calls) :
    ∃ call ∈ calls, ∃ token equals expression, token.lexeme = name ∧
      .declaration token equals expression ∈ call.statements := by
  obtain ⟨⟨env, statement⟩, member, event⟩ := List.mem_flatMap.mp h
  obtain ⟨call, inside, executed⟩ := exists_of_mem_executions member
  rcases List.mem_append.mp event with looked | stored
  · obtain ⟨_, _, same, _⟩ := Tree.exists_of_mem_lookups looked
    cases same
  · unfold Tree.stores at stored
    split at stored
    · cases statement with
      | declaration =>
        cases List.mem_singleton.mp stored
        exact ⟨call, inside, _, _, _, rfl, executed⟩
      | assignment => cases List.mem_singleton.mp stored
      | _ => cases stored
    · cases stored

end

/-- The environment is a log of what has been stored, over any calls in any modes, for texts and for
trees that were put together by hand, whether they fail or not. No name loses its value. A name is
declared at most once, and before it is read or assigned. There are as many names as declarations.
A name has the value that was stored last, also by a program that failed later. Names that texts
declare are written as names. -/
theorem ledger_of_calls (calls : List Call) :
    (moments calls).Pairwise Keeps ∧
    (∀ name, (log calls).countP (·.declares name) ≤ 1) ∧
    (∀ before event behind, log calls = before ++ event :: behind → event.isDeclaration = false →
      ∃ value, Event.declared event.name value ∈ before) ∧
    (run calls .empty).size = (log calls).countP Event.isDeclaration ∧
    ((run calls .empty).isEmpty = true ↔ (log calls).countP Event.isDeclaration = 0) ∧
    (∀ name, (run calls .empty).get? name =
      ((log calls).filterMap (·.stored? name)).getLast?) ∧
    ((∀ call ∈ calls, call.isText = true) → ∀ name, (run calls .empty).binds name = true →
      Token.Nameable name) := by
  have records := records_run calls
  refine ⟨(linked_run calls .empty).keeps.2, ?_, ?_, records.size, ?_, records.get?, ?_⟩
  · intro name
    rw [records.countP_declares]
    split <;> omega
  · intro before event behind split uses
    rw [split] at records
    exact records.declared_before uses
  · rw [Environment.isEmpty_iff_size, records.size]
  · intro texts name bound
    obtain ⟨value, declared⟩ := records.declared_of_binds bound
    obtain ⟨call, member, token, _, _, rfl, inside⟩ := exists_of_declared declared
    exact nameable_of_text (texts call member) inside

example : log [.text .program "var a = 1; a = a + 2; b; a = 9", .text .statement "a / 0"] =
    [.declared "a" 1, .read "a" 1, .assigned "a" 3, .read "a" 3] := by
  decide +kernel

end Ledger

end Calculator
