import Calculator.Main
import Calculator.Tree.Display
import Calculator.Tree.Parser.Progress
import Calculator.Proofs.Formation
import Calculator.Proofs.Location
import Calculator.Proofs.RoundTrip
import Calculator.Proofs.Segments
import Calculator.Proofs.Longest
import Calculator.Proofs.Conversation
import Calculator.Proofs.Layout
import Calculator.Proofs.Ledger
import Calculator.Proofs.Scope
import Calculator.Proofs.Frame
import Calculator.Proofs.Truncation
import Calculator.Proofs.Residue
import Calculator.Proofs.Calls
import Calculator.Proofs.Walk
import Calculator.Proofs.Concatenation
import Calculator.Proofs.Tiling
import Calculator.Proofs.Nesting
import Calculator.Proofs.Literals
import Calculator.Proofs.PrefixForm
import Calculator.Proofs.Continuation
import Calculator.Proofs.Renaming
import Calculator.Proofs.Pace
import Calculator.Proofs.Lookahead
