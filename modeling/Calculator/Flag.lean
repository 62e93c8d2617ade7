import Calculator.Similarity

/-!
# Flags

The options that the command line knows, and which of them a misspelt one was meant to be.
-/

namespace Calculator

/-- An option without a value. -/
inductive Flag where
  | help
  | version
  deriving DecidableEq

namespace Flag

/-- Every flag. -/
def all : List Flag :=
  [.help, .version]

/-- What stands behind two hyphens. -/
def name : Flag → String
  | .help => "help"
  | .version => "version"

/-- What stands behind a single hyphen. -/
def letter : Flag → Char
  | .help => 'h'
  | .version => 'V'

/-- The flag of a name. -/
def ofName? (name : String) : Option Flag :=
  all.find? (·.name = name)

/-- The flag of a letter. -/
def ofLetter? (letter : Char) : Option Flag :=
  all.find? (·.letter = letter)

/-- A word is taken for a misspelt flag if it is more like the flag's name than this. -/
def likeness : Float :=
  0.7

/-- The flag whose name is most like a word, if there is one that is like enough. Of two that are
equally so it is the later. -/
def like? (word : String) : Option Flag :=
  let close := fun flag : Flag => Similarity.similarity word flag.name
  all.foldl
    (fun best flag =>
      if close flag > likeness ∧ best.all (close · ≤ close flag) then some flag else best)
    none

end Flag

end Calculator
