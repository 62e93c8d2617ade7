import Calculator.Tree.Evaluation
import Calculator.Tree.Parser

/-!
# Evaluating a text
-/

namespace Calculator

/-- Reads a text by the rule that the mode names, and evaluates its tree. A text that cannot be
read leaves the environment as it is. -/
def evaluate (mode : Mode) (source : String) : EStateM Fault Environment Int64 := do
  let tree ← MonadExcept.ofExcept (Tree.ofSource mode source)
  tree.evaluate

end Calculator
