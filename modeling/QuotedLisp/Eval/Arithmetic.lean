import QuotedLisp.Binary64.Arithmetic
import QuotedLisp.Eval.Arguments
import QuotedLisp.Value.Equality

/-!
# Arithmetic and comparison

The four operations fold their arguments from the left; each intermediate result has to be finite,
and each argument is looked at only when the fold comes to it. Comparisons answer one or zero.
-/

namespace QuotedLisp.Builtin

/-- A step of a fold on numbers: the next argument, the operation on it, and a finite result. -/
def foldStep (b : Builtin) (operation : Binary64 → Binary64 → Except RuntimeError Binary64)
    (total : Binary64) (arg : Value) : Except RuntimeError Binary64 := do
  let x ← arg.expectNumber b.name
  let result ← operation total x
  if result.isFinite then .ok result else .error (.outOfRange b.name)

/-- The arguments combined from the left. A single argument is its own result. -/
def foldNumbers (b : Builtin) (operation : Binary64 → Binary64 → Except RuntimeError Binary64) :
    List Value → Except RuntimeError Value
  | [] => .error (b.arityError [])
  | first :: rest => do
    let start ← first.expectNumber b.name
    let total ← rest.foldlM (foldStep b operation) start
    .ok (.number total)

/-- A division, unless it is by zero. -/
def guardedDivision (b : Builtin) (operation : Binary64 → Binary64 → Binary64)
    (x y : Binary64) : Except RuntimeError Binary64 :=
  if y.isZero then .error (.divisionByZero b.name) else .ok (operation x y)

/-- The sum. -/
def sum : List Value → Except RuntimeError Value :=
  foldNumbers .add fun x y => .ok (x.add y)

/-- The first argument less all the others, or the negated argument if there is only one. -/
def difference : List Value → Except RuntimeError Value
  | [only] => do
    let x ← only.expectNumber Builtin.subtract.name
    .ok (.number x.neg)
  | args => foldNumbers .subtract (fun x y => .ok (x.sub y)) args

/-- The product. -/
def product : List Value → Except RuntimeError Value :=
  foldNumbers .multiply fun x y => .ok (x.mul y)

/-- The first argument divided by all the others in turn. -/
def quotient : List Value → Except RuntimeError Value :=
  foldNumbers .divide (guardedDivision .divide Binary64.div)

/-- The remainder, with the sign of the dividend. -/
def remainder : List Value → Except RuntimeError Value
  | [a, b] => do
    let x ← a.expectNumber Builtin.modulo.name
    let y ← b.expectNumber Builtin.modulo.name
    let result ← guardedDivision .modulo Binary64.rem x y
    .ok (.number result)
  | args => .error (Builtin.modulo.arityError args)

/-- A relation of two numbers. -/
def comparison (b : Builtin) (relation : Binary64 → Binary64 → Bool) :
    List Value → Except RuntimeError Value
  | [left, right] => do
    let x ← left.expectNumber b.name
    let y ← right.expectNumber b.name
    .ok (.ofBool (relation x y))
  | args => .error (b.arityError args)

/-- All values are equal to the first, decided up to the first that is not. -/
def allEqual (first : Value) : List Value → Except RuntimeError Bool
  | [] => .ok true
  | other :: rest =>
    match first.equal? other with
    | .ok true => allEqual first rest
    | answer => answer

/-- Equality of all arguments. -/
def equality : List Value → Except RuntimeError Value
  | first :: second :: rest => do
    let answer ← allEqual first (second :: rest)
    .ok (.ofBool answer)
  | args => .error (Builtin.equal.arityError args)

end QuotedLisp.Builtin
