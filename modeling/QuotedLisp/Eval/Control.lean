import QuotedLisp.Eval.Arguments
import QuotedLisp.Eval.Basic
import QuotedLisp.Value.Parser
import QuotedLisp.Value.Printer

/-!
# Control, bindings, modules and output

The builtin functions that evaluate further code or act on the world. Nested code goes to a
`Runner`, so nothing here is recursive in the code it evaluates. An error ends whatever contains
it.
-/

namespace QuotedLisp

/-- Evaluates one value. Names are looked up and round lists are run; everything else is its own
value, but an error counts as a failure. -/
def evalValue (run : Runner) : Value → Evaluation Value
  | .identifier name => Evaluation.lookup name
  | .list .round items => run .round items
  | v => Evaluation.ofExcept v.toResult

/-- Evaluates values from left to right. -/
def evalValues (run : Runner) : List Value → Evaluation (List Value)
  | [] => pure []
  | v :: rest => do
    let result ← evalValue run v
    let results ← evalValues run rest
    pure (result :: results)

/-- Evaluates statements from left to right for their effects. -/
def evalStatements (run : Runner) : List Value → Evaluation Value
  | [] => pure .unit
  | statement :: rest => do
    let _ ← evalValue run statement
    evalStatements run rest

namespace Builtin

/-- Evaluates a value, a list as an application whatever its bracket. -/
def evaluation (run : Runner) : List Value → Evaluation Value
  | [.list bracket items] => run bracket items
  | [v] => evalValue run v
  | args => throw (Builtin.eval.arityError args)

/-- Binds names in one of the two places for it, all of them or none. -/
def binding (b : Builtin) (bind : Name → Value → Evaluation Unit) (args : List Value) :
    Evaluation Value := do
  let entries ← Evaluation.ofExcept (b.pairs args)
  entries.forM fun entry => bind entry.1 entry.2
  pure .unit

/-- Runs one of two quoted lists, the first if the number before them is not zero. -/
def choice (run : Runner) : List Value → Evaluation Value
  | [condition, yes, no] => do
    let x ← Evaluation.ofExcept (condition.expectNumber Builtin.branch.name)
    let accepted ← Evaluation.ofExcept (yes.expectQuoted Builtin.branch.name)
    let rejected ← Evaluation.ofExcept (no.expectQuoted Builtin.branch.name)
    run .curly (if x.isZero then rejected else accepted)
  | args => throw (Builtin.branch.arityError args)

/-- Fails with the message that the program gives. -/
def failure : List Value → Except RuntimeError Value
  | [arg] => do
    let message ← arg.expectString Builtin.raise.name
    .error (.user message)
  | args => .error (Builtin.raise.arityError args)

/-- Evaluates the statements of a module where the call stands. A module that does not exist is
passed over. -/
def inclusion (host : Host) (run : Runner) : List Value → Evaluation Value
  | [arg] => do
    let name ← Evaluation.ofExcept (arg.expectString Builtin.load.name)
    match host.modules with
    | none => pure .unit
    | some source =>
      match source.read name with
      | .error message => throw (.moduleFailure name message)
      | .ok none => pure .unit
      | .ok (some text) =>
        match Value.ofSource text with
        | .error e => throw (.moduleFailure name e.message)
        | .ok statements => evalStatements run statements
  | args => throw (Builtin.load.arityError args)

/-- A value as it is printed: strings without quotes. -/
def printedText : Value → List Char
  | .string text => text.toList
  | v => v.toText

/-- Prints the arguments on one line. -/
def output (host : Host) (args : List Value) : Evaluation Value := do
  match host.outputFault with
  | some message => throw (.outputFailure Builtin.print.name message)
  | none =>
    Evaluation.write (String.ofList (spaced (args.map printedText) ++ ['\n']))
    pure .unit

end Builtin

end QuotedLisp
