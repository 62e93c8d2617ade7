import Calculator.Diagnostic.Report
import Calculator.Source
import Calculator.Output.Writer

/-!
# Answers

What is written for a text: its value, or a diagnostic.
-/

namespace Calculator

/-- Writes the diagnostic of a fault. -/
def Fault.report (fault : Fault) (source : String) (filename : Option String) : Output Unit :=
  Output.print (fault.diagnostic source filename)

/-- Writes the diagnostic of a fault, or its bare message where that fails. -/
def Fault.emit (fault : Fault) (source : String) (filename : Option String) : Output Unit :=
  tryCatch (fault.report source filename) fun _ => Output.print ("error: " ++ fault.message ++ "\n")

/-- Evaluates a text, writes its value or its diagnostic, and returns the environment that is left. -/
def answer (mode : Mode) (source : String) (filename : Option String) (env : Environment) :
    Output Environment :=
  match evaluate mode source env with
  | .ok value after => do
    Output.print (Numeral.write value ++ "\n")
    return after
  | .error fault after => do
    fault.emit source filename
    return after

/-- Answers a text as one program, which starts without bindings. -/
def answerProgram (source : String) (filename : Option String) : Output Unit := do
  let _ ← answer .program source filename .empty

end Calculator
