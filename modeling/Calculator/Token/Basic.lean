import Calculator.Span
import Calculator.Unicode.Numeric

/-!
# Tokens

The words of the language: integers, names, keywords, symbols of one character, and the end of
the input.
-/

namespace Calculator

/-- What a token is. -/
inductive Token.Kind where
  | integer
  | identifier
  | keyword
  | plus
  | minus
  | star
  | slash
  | leftParen
  | rightParen
  | leftBrace
  | rightBrace
  | equal
  | semicolon
  | colon
  | endOfInput
  deriving DecidableEq

/-- The name that messages give to a kind of token. -/
def Token.Kind.name : Token.Kind → String
  | .integer => "INTEGER"
  | .identifier => "IDENTIFIER"
  | .keyword => "KEYWORD"
  | .plus => "PLUS"
  | .minus => "MINUS"
  | .star => "STAR"
  | .slash => "SLASH"
  | .leftParen => "LPAREN"
  | .rightParen => "RPAREN"
  | .leftBrace => "LCURLY"
  | .rightBrace => "RCURLY"
  | .equal => "EQUALS"
  | .semicolon => "SEMI"
  | .colon => "COLON"
  | .endOfInput => "EOF"

/-- The kind of the token that a symbol is by itself. -/
def Token.Kind.ofSymbol? : Char → Option Token.Kind
  | '+' => some .plus
  | '-' => some .minus
  | '*' => some .star
  | '/' => some .slash
  | '(' => some .leftParen
  | ')' => some .rightParen
  | '\x7b' => some .leftBrace
  | '\x7d' => some .rightBrace
  | '=' => some .equal
  | ';' => some .semicolon
  | ':' => some .colon
  | _ => none

/-- A token: its kind, the text it stands for, and where that text is. -/
structure Token where
  kind : Token.Kind
  lexeme : String
  span : Span
  deriving DecidableEq

namespace Token

/-- The token at the end of an input of `length` characters. Its span is one past the last. -/
def atEnd (length : Nat) : Token :=
  ⟨.endOfInput, "", .single length⟩

/-- The reserved words. The grammar has no use for `func` yet. -/
def keywords : List String :=
  ["var", "func"]

/-- Whether a token is the given reserved word. -/
def isKeyword (token : Token) (word : String) : Bool :=
  token.kind = .keyword && token.lexeme = word

/-- The kind of a word: a keyword if it is reserved, else an identifier. -/
def wordKind (word : String) : Kind :=
  if word ∈ keywords then .keyword else .identifier

/-- Whether a word may begin with a character. -/
def isWordStart (c : Char) : Bool :=
  Unicode.isAlphabetic c || c == '_'

/-- Whether a character may stand in a word after its first. -/
def isWordPart (c : Char) : Bool :=
  Unicode.isAlphanumeric c || c == '_'

end Token

end Calculator
