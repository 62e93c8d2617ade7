import Calculator.Proofs.Leftover
import Calculator.Proofs.Locality

/-!
# The segments of a program

A text is cut at every semicolon into segments. Where it is a program, each segment is a statement,
but for a last one that may be blank. `evaluate_program_eq_evaluateInTurn` says that such a text
does what its segments do, each evaluated by itself as one statement after the other.
-/

namespace Calculator

/-- A part of a text, and the number of characters in front of it. -/
structure Segment where
  offset : Nat
  text : String

namespace Segment
open Grammar

def place (offset : Nat) : List (List Char) → List Segment
  | [] => []
  | part :: parts => ⟨offset, String.ofList part⟩ :: place (offset + part.length + 1) parts

/-- The parts of a text between semicolons. -/
def ofSource (source : String) : List Segment :=
  place 0 (source.toList.splitOn ';')

def blank (segment : Segment) : Bool :=
  segment.text.toList.all Unicode.isWhitespace

/-- The tokens of the segment are those of one statement, which has the tree. -/
def Reads (segment : Segment) (tree : Tree) : Prop :=
  ∃ tokens final after, (Scanner.ofSource segment.text).tokenize = .ok (tokens ++ [final]) after ∧
    final.kind = .endOfInput ∧ Statement tokens tree

/-- Evaluates a segment as one statement. Faults are where they are in the whole text. -/
def evaluate (segment : Segment) : EStateM Fault Environment Int64 :=
  (Calculator.evaluate .statement segment.text).adaptExcept (Fault.relocate (· + segment.offset))

def evaluateAll (segments : List Segment) : EStateM Fault Environment (Option Int64) :=
  segments.foldlM (fun _ segment => some <$> segment.evaluate) none

/-! ### One segment -/

section
variable {segment : Segment} {tree : Tree}

theorem ofSource_of_reads (h : segment.Reads tree) :
    Tree.ofSource .statement segment.text = .ok tree := by
  obtain ⟨tokens, final, after, tokenized, ends, statement⟩ := h
  obtain ⟨run, _⟩ := Scanner.tokenize_eq_ok_iff.mp tokenized
  obtain ⟨middle, run, last⟩ := Scanner.yields_append_iff.mp run
  exact Parser.ofSource_statement_of_complete run (Scanner.yields_singleton_iff.mp last) ends
    statement

theorem evaluate_of_reads (h : segment.Reads tree) :
    segment.evaluate = (tree.relocate (· + segment.offset)).execute := by
  have read := ofSource_of_reads h
  obtain ⟨_, _, _, _, _, statement⟩ := h
  rw [evaluate, evaluate_of_ok read, Tree.evaluate_of_statement statement, Tree.execute_relocate]

theorem not_blank_of_reads (h : segment.Reads tree) : segment.blank = false := by
  obtain ⟨tokens, final, after, tokenized, _, statement⟩ := h
  obtain ⟨run, _⟩ := Scanner.tokenize_eq_ok_iff.mp tokenized
  obtain ⟨first, rest, rfl⟩ := List.exists_cons_of_ne_nil (ne_nil_of_statement statement)
  obtain ⟨_, scanned, _⟩ := Scanner.yields_cons_iff.mp run
  rw [Bool.eq_false_iff]
  intro blank
  have found : (Scanner.ofSource segment.text).next = .ok (.atEnd _) _ :=
    Scanner.next_of_blank (List.all_eq_true.mp blank)
  cases scanned.symm.trans found
  exact not_divides_of_statement statement _ List.mem_cons_self (.inr rfl)

end

theorem exists_reads {part : List Char} {offset : Nat} {tokens : List Token} {final : Token}
    {after : Scanner} {tree : Tree}
    (run : (⟨part, offset⟩ : Scanner).Yields (tokens ++ [final]) after)
    (ends : final.kind = .endOfInput) (statement : Statement tokens tree) :
    ∃ original, Reads ⟨offset, String.ofList part⟩ original ∧
      tree = original.relocate (· + offset) := by
  have moved : (⟨part, offset⟩ : Scanner) = (⟨part, 0⟩ : Scanner).shift offset := by
    rw [Scanner.shift, Nat.zero_add]
  rw [moved] at run
  obtain ⟨all, last, same, run'⟩ := Scanner.yields_of_shift run
  obtain ⟨before, behind, rfl, rfl, single⟩ := List.map_eq_append_iff.mp same.symm
  obtain ⟨final, rfl, rfl⟩ := List.map_eq_singleton_iff.mp single
  obtain ⟨original, derived, rfl⟩ := statement_of_relocate statement
  have complete : Token.Complete (before ++ [final]) :=
    ⟨before, final, rfl, ends, kind_ne_of_statement derived⟩
  refine ⟨original, ⟨before, final, last, ?_, ends, derived⟩, rfl⟩
  rw [Scanner.ofSource, String.toList_ofList]
  exact Scanner.tokenize_eq_ok_iff.mpr ⟨run', complete⟩

/-! ### All segments -/

/-- Each segment reads its statement, and a blank one may stand behind the others. -/
inductive Covers : List Segment → List Tree → Prop where
  | blank {segment : Segment} (blank : segment.blank = true) : Covers [segment] []
  | last {segment : Segment} {tree : Tree} (reads : segment.Reads tree) :
      Covers [segment] [tree.relocate (· + segment.offset)]
  | more {segment : Segment} {segments : List Segment} {tree : Tree} {trees : List Tree}
      (reads : segment.Reads tree) (rest : Covers segments trees) :
      Covers (segment :: segments) (tree.relocate (· + segment.offset) :: trees)

theorem blank_of_end {chars : List Char} {offset : Nat} {token : Token} {after : Scanner}
    (h : (⟨chars, offset⟩ : Scanner).next = .ok token after) (ends : token.kind = .endOfInput) :
    blank ⟨offset, String.ofList chars⟩ = true := by
  rw [blank, String.toList_ofList]
  exact List.all_eq_true.mpr (Scanner.blank_of_next h ends)

/-- A text with a semicolon is cut at the first one. The tokens up to the first that divides
statements are those of the part in front of it. -/
theorem cut_of_mem {chars : List Char} {offset : Nat} {tokens rest : List Token} {token : Token}
    {final : Scanner} (member : ';' ∈ chars)
    (run : (⟨chars, offset⟩ : Scanner).Yields (tokens ++ token :: rest) final)
    (inside : ∀ other ∈ tokens, ¬Divides other.kind) (divides : Divides token.kind) :
    ∃ part more after, chars = part ++ ';' :: more ∧ ';' ∉ part ∧ token.kind = .semicolon ∧
      (⟨part, offset⟩ : Scanner).Yields (tokens ++ [.atEnd (offset + part.length)]) after ∧
      (⟨more, offset + part.length + 1⟩ : Scanner).Yields rest final := by
  obtain ⟨part, more, rfl, free⟩ := List.eq_append_cons_of_mem member
  have start : (⟨part ++ ';' :: more, offset⟩ : Scanner) =
      (⟨part, offset⟩ : Scanner).append (';' :: more) := rfl
  rw [start] at run
  obtain ⟨kind, front, behind⟩ := Scanner.yields_append_semicolon free run inside divides
  exact ⟨part, more, _, rfl, free, kind, front, behind⟩

theorem not_mem_of_ends {chars : List Char} {offset : Nat} {tokens : List Token} {final : Token}
    {after : Scanner} (run : (⟨chars, offset⟩ : Scanner).Yields (tokens ++ [final]) after)
    (inside : ∀ token ∈ tokens, ¬Divides token.kind) (ends : final.kind = .endOfInput) :
    ';' ∉ chars := by
  intro member
  obtain ⟨_, _, _, _, _, kind, _⟩ := cut_of_mem member run inside (.inr ends)
  cases ends.symm.trans kind

theorem covers_of_program {chars : List Char} {offset : Nat} {tokens : List Token}
    {final : Scanner} {trees : List Tree}
    (run : (⟨chars, offset⟩ : Scanner).Yields tokens final) (program : Program tokens trees) :
    Covers (place offset (chars.splitOn ';')) trees := by
  -- Each step takes one statement from the program and one segment from the text.
  induction trees generalizing chars offset tokens with
  | nil =>
    rcases program_cases program with ⟨last, rfl, ends, _⟩ | ⟨_, _, _, _, _, _, more⟩ |
      ⟨_, _, _, _, _, _, _, _, _, more⟩
    · have run' : (⟨chars, offset⟩ : Scanner).Yields ([] ++ [last]) final := run
      rw [List.splitOn_eq_singleton (not_mem_of_ends run' (by simp) ends)]
      exact .blank (blank_of_end (Scanner.yields_singleton_iff.mp run) ends)
    · cases more
    · cases more
  | cons tree trees ih =>
    rcases program_cases program with ⟨_, _, _, none⟩ |
      ⟨before, last, _, rfl, statement, ends, same⟩ |
      ⟨before, separator, behind, _, _, rfl, statement, separates, others, same⟩
    · cases none
    · cases same
      obtain ⟨original, reads, rfl⟩ := exists_reads run ends statement
      rw [List.splitOn_eq_singleton
        (not_mem_of_ends run (not_divides_of_statement statement) ends)]
      exact .last reads
    · cases same
      have member : ';' ∈ chars := run.mem_of_semicolon (by simp) separates
      obtain ⟨part, more, _, rfl, free, _, front, rest⟩ := cut_of_mem member run
        (not_divides_of_statement statement) (.inl separates)
      obtain ⟨original, reads, rfl⟩ := exists_reads front rfl statement
      rw [List.splitOn_append_cons_self_of_not_mem free]
      exact .more reads (ih rest others)

section
variable {segments : List Segment} {trees : List Tree}

theorem statements_of_covers (h : Covers segments trees) :
    ∃ front rest, segments = front ++ rest ∧
      (rest = [] ∨ ∃ last, rest = [last] ∧ last.blank = true) ∧
      ∀ segment ∈ front, segment.blank = false ∧
        ∃ tree, segment.Reads tree ∧ Tree.ofSource .statement segment.text = .ok tree := by
  induction h with
  | blank blank => exact ⟨[], _, rfl, .inr ⟨_, rfl, blank⟩, by simp⟩
  | @last segment tree reads =>
    refine ⟨[segment], [], rfl, .inl rfl, ?_⟩
    exact List.forall_mem_singleton.mpr
      ⟨not_blank_of_reads reads, tree, reads, ofSource_of_reads reads⟩
  | @more segment segments tree trees reads _ ih =>
    obtain ⟨front, rest, rfl, last, all⟩ := ih
    refine ⟨segment :: front, rest, rfl, last, ?_⟩
    exact List.forall_mem_cons.mpr
      ⟨⟨not_blank_of_reads reads, tree, reads, ofSource_of_reads reads⟩, all⟩

theorem evaluate_of_covers (h : Covers segments trees) (value : Option Int64) :
    (segments.filter (!·.blank)).foldlM (fun _ segment => some <$> segment.evaluate) value =
      trees.foldlM (fun _ tree => some <$> tree.execute) value := by
  induction h generalizing value with
  | blank blank =>
    rw [List.filter_cons_of_neg (by simp [blank])]
    rfl
  | last reads =>
    rw [List.filter_cons_of_pos (by simp [not_blank_of_reads reads]), List.foldlM_cons,
      List.foldlM_cons, evaluate_of_reads reads]
    rfl
  | more reads _ ih =>
    rw [List.filter_cons_of_pos (by simp [not_blank_of_reads reads]), List.foldlM_cons,
      List.foldlM_cons, evaluate_of_reads reads]
    exact congrArg _ (funext ih)

end

/-- Evaluates the segments of a text that are not blank, one after the other. -/
def evaluateInTurn (source : String) : EStateM Fault Environment Int64 := do
  match ← evaluateAll ((ofSource source).filter (!·.blank)) with
  | some value => return value
  | none => throw ⟨.emptyProgram, ⟨0, source.length⟩⟩

theorem evaluateInTurn_of_blank {source : String}
    (blank : ∀ segment ∈ ofSource source, segment.blank = true) (env : Environment) :
    evaluateInTurn source env = .error ⟨.emptyProgram, ⟨0, source.length⟩⟩ env := by
  have none : (ofSource source).filter (!·.blank) = [] :=
    List.filter_eq_nil_iff.mpr fun segment member => by simp [blank segment member]
  rw [evaluateInTurn, none]
  rfl

theorem covers_of_ofSource {source : String} {tree : Tree}
    (read : Tree.ofSource .program source = .ok tree) :
    ∃ statements, tree = .program statements ⟨0, source.length⟩ ∧
      Covers (ofSource source) statements := by
  rcases Parser.ofSource_program source with ⟨tokens, final, statements, run, program, _, found⟩ |
    ⟨fault, _, failed⟩
  · cases read.symm.trans found
    exact ⟨statements, rfl, covers_of_program run program⟩
  · cases read.symm.trans failed

/-- A text that is a program is cut into statements, but for a last segment that may be blank, and
evaluating it is evaluating them in turn. -/
theorem evaluate_program_eq_evaluateInTurn {source : String} {tree : Tree}
    (read : Tree.ofSource .program source = .ok tree) :
    (∃ front rest, ofSource source = front ++ rest ∧
      (rest = [] ∨ ∃ last, rest = [last] ∧ last.blank = true) ∧
      ∀ segment ∈ front, segment.blank = false ∧
        ∃ tree, segment.Reads tree ∧ Tree.ofSource .statement segment.text = .ok tree) ∧
    Calculator.evaluate .program source = evaluateInTurn source ∧
    ((∀ segment ∈ ofSource source, segment.blank = true) → ∀ env,
      Calculator.evaluate .program source env =
        .error ⟨.emptyProgram, ⟨0, source.length⟩⟩ env) := by
  obtain ⟨statements, rfl, covers⟩ := covers_of_ofSource read
  have same : Calculator.evaluate .program source = evaluateInTurn source := by
    rw [evaluate_of_ok read, evaluateInTurn, evaluateAll, evaluate_of_covers covers]
    rfl
  refine ⟨statements_of_covers covers, same, fun blank env => ?_⟩
  rw [same]
  exact evaluateInTurn_of_blank blank env

theorem evaluateInTurn_of_undefined :
    evaluateInTurn "1; a" .empty = .error ⟨.undefinedVariable "a", ⟨3, 4⟩⟩ .empty := by
  have read : Tree.ofSource .program "1; a" = .ok (.program
      [.literal 1 ⟨.integer, "1", ⟨0, 1⟩⟩, .identifier ⟨.identifier, "a", ⟨3, 4⟩⟩] ⟨0, 4⟩) := rfl
  have same := (evaluate_program_eq_evaluateInTurn read).2.1
  rw [← same, evaluate_of_ok read]
  rfl

end Segment

end Calculator
