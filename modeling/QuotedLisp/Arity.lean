/-!
# Arities

How many arguments a builtin function takes.
-/

namespace QuotedLisp

/-- An exact number of arguments, or a least one. -/
inductive Arity where
  | exactly (count : Nat)
  | atLeast (count : Nat)
deriving DecidableEq, Repr

namespace Arity

/-- The arity admits this many arguments. -/
def accepts : Arity → Nat → Bool
  | .exactly n, count => count == n
  | .atLeast n, count => n ≤ count

/-- The arity in words. -/
def describe : Arity → String
  | .exactly n => s!"exactly {n}"
  | .atLeast n => s!"at least {n}"

end Arity

end QuotedLisp
