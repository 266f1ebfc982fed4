import QuotedLisp.Eval.Arithmetic
import QuotedLisp.Eval.Closure
import QuotedLisp.Eval.Control
import QuotedLisp.Eval.Sequence

/-!
# Running code

The application of functions to arguments, and evaluation proper. Application takes the `Runner` of
nested code as a parameter; `run` ties the knot, and is the only recursion on the allowance of
nested applications.
-/

namespace QuotedLisp

/-- What a builtin function does. -/
def Builtin.apply (host : Host) (run : Runner) : Builtin → List Value → Evaluation Value
  | .add, args => Evaluation.ofExcept (sum args)
  | .subtract, args => Evaluation.ofExcept (difference args)
  | .multiply, args => Evaluation.ofExcept (product args)
  | .divide, args => Evaluation.ofExcept (quotient args)
  | .modulo, args => Evaluation.ofExcept (remainder args)
  | .less, args => Evaluation.ofExcept (comparison .less Binary64.less args)
  | .lessEqual, args => Evaluation.ofExcept (comparison .lessEqual Binary64.lessEqual args)
  | .greater, args => Evaluation.ofExcept (comparison .greater (fun x y => y.less x) args)
  | .greaterEqual, args =>
    Evaluation.ofExcept (comparison .greaterEqual (fun x y => y.lessEqual x) args)
  | .equal, args => Evaluation.ofExcept (equality args)
  | .head, args => Evaluation.ofExcept (first args)
  | .tail, args => Evaluation.ofExcept (afterFirst args)
  | .list, args => pure (.quoted args)
  | .eval, args => evaluation run args
  | .join, args => Evaluation.ofExcept (concatenation args)
  | .define, args => binding .define Evaluation.define args
  | .put, args => binding .put Evaluation.put args
  | .lambda, args => Evaluation.ofExcept (Closure.make args)
  | .branch, args => choice run args
  | .raise, args => Evaluation.ofExcept (failure args)
  | .load, args => inclusion host run args
  | .print, args => output host args

/-- Applies a function to arguments that are already evaluated. The body of a closure runs in a
frame of its own, once every formal has its argument. -/
def call (host : Host) (run : Runner) : Value → List Value → Evaluation Value
  | .builtin b, args => b.apply host run args
  | .closure bound formals bracket body, args => do
    let (frame, waiting) ← Evaluation.ofExcept (Closure.bindArguments bound formals args)
    if waiting.isEmpty then Evaluation.inFrame frame (run bracket body)
    else pure (.closure frame waiting bracket body)
  | v, _ => throw (.notAFunction v.typeName)

/-- Evaluates the items of a list as an application: the first result is called with the others.
A single result stands for itself, and an empty list stays as it is. -/
def runItems (host : Host) (run : Runner) : Runner
  | bracket, [] => pure (.list bracket [])
  | _, item :: rest => do
    let function ← evalValue run item
    let args ← evalValues run rest
    if args.isEmpty then pure function else call host run function args

/-- Runs the items of a list, with an allowance for how deep runs may nest. -/
def run (host : Host) : Nat → Runner
  | 0 => fun _ _ => Evaluation.exhausted
  | allowance + 1 => runItems host (run host allowance)

namespace World

/-- The outcome of an evaluation in a world, if it has one. -/
def perform {α : Type} (w : World) (evaluation : Evaluation α) :
    Option (Except RuntimeError α × World) :=
  evaluation.run.run w

/-- Reads a source text and performs an evaluation of its items. A text that cannot be read leaves
the world alone. -/
def withSource (w : World) (source : String) (evaluation : List Value → Evaluation Value) :
    Option (Except Error Value × World) :=
  match Value.ofSource source with
  | .error e => some (.error e, w)
  | .ok items =>
    (w.perform (evaluation items)).map fun (result, after) =>
      (result.mapError Error.runtime, after)

/-- Evaluates a source text as one application. -/
def evaluate (w : World) (host : Host) (allowance : Nat) (source : String) :
    Option (Except Error Value × World) :=
  w.withSource source fun items => run host allowance .round items

/-- Evaluates a source text as a sequence of statements, up to the first that fails. -/
def load (w : World) (host : Host) (allowance : Nat) (source : String) :
    Option (Except Error Value × World) :=
  w.withSource source fun items => evalStatements (run host allowance) items

end World

end QuotedLisp
