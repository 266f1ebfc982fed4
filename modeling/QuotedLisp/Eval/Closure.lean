import QuotedLisp.Eval.Arguments
import QuotedLisp.Scope.Bindings

/-!
# Closures

How closures are made and how they take their arguments. A closure called with fewer arguments than
it has formals is a closure that waits for the others; the name after the variadic marker takes all
arguments that are left, as a quoted list.
-/

namespace QuotedLisp

/-- The formal that announces that the next one takes all arguments that are left. -/
def variadicMarker : Name :=
  "&"

namespace Closure

/-- The one name that may follow a variadic marker. -/
def restName : List Name → Except RuntimeError Name
  | [name] => if name = variadicMarker then .error .malformedVariadic else .ok name
  | _ => .error .malformedVariadic

/-- Binds arguments to formals in order. What is left are the formals that still wait; `expected`
and `given` are the numbers of all formals and all arguments, for the message. A variadic marker
that is reached takes what is left of the arguments, even if that is nothing. -/
def bindInOrder (expected given : Nat) (frame : Bindings) :
    List Name → List Value → Except RuntimeError (Bindings × List Name)
  | [], [] => .ok (frame, [])
  | [], _ :: _ => .error (.tooManyArguments expected given)
  | formal :: formals, args =>
    if formal = variadicMarker then do
      let name ← restName formals
      .ok (frame.set name (.quoted args), [])
    else
      match args with
      | [] => .ok (frame, formal :: formals)
      | arg :: rest => bindInOrder expected given (frame.set formal arg) formals rest

/-- The bindings of a call and the formals that still wait for an argument. -/
def bindArguments (bound : Bindings) (formals : List Name) (args : List Value) :
    Except RuntimeError (Bindings × List Name) :=
  bindInOrder formals.length args.length bound formals args

/-- A variadic marker stands at most once, and then right before the last formal. -/
def wellPlaced (formals : List Name) : Bool :=
  formals.count variadicMarker == 0 ||
    (formals.count variadicMarker == 1 && formals.reverse[1]? == some variadicMarker)

/-- A closure from a list of names and a body. -/
def make : List Value → Except RuntimeError Value
  | [names, code] => do
    let formals ← names.expectIdentifiers Builtin.lambda.name
    let body ← code.expectQuoted Builtin.lambda.name
    if wellPlaced formals then .ok (.closure [] formals .curly body)
    else .error .malformedVariadic
  | args => .error (Builtin.lambda.arityError args)

end Closure

end QuotedLisp
