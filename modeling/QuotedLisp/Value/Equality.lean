import QuotedLisp.Value.Basic

/-!
# Equality of values

There are two. `Value.same` compares any two values by their structure; its numbers are compared
as numbers, so the zeros are equal and NaN differs from itself, and the arguments that closures
hold are compared as maps. `Value.equal?` is the equality of the language, which agrees with it on
data and refuses to compare two functions or two errors.
-/

namespace QuotedLisp.Value

mutual

/-- The two values have the same structure. -/
def same : Value → Value → Bool
  | .number x, .number y => x.equal y
  | .string s, .string t => s == t
  | .identifier m, .identifier n => m == n
  | .list b xs, .list c ys => b == c && sameItems xs ys
  | .builtin f, .builtin g => f == g
  | .closure bound formals b body, .closure bound' formals' b' body' =>
    bound.length == bound'.length && sameEntries bound bound' &&
      formals == formals' && b == b' && sameItems body body'
  | .error e, .error f => e == f
  | _, _ => false

/-- The lists have the same length and the same values at the same places. -/
def sameItems : List Value → List Value → Bool
  | [], [] => true
  | x :: xs, y :: ys => same x y && sameItems xs ys
  | _, _ => false

/-- Each name bound on the left has a value of the same structure on the right. -/
def sameEntries : List (Name × Value) → List (Name × Value) → Bool
  | [], _ => true
  | (name, x) :: rest, entries =>
    (match entries.lookup name with
    | some y => same x y
    | none => false) && sameEntries rest entries

end

mutual

/-- Equality as the language decides it. Items are compared from the left, up to the first that
differ or cannot be compared; lists of different kinds or lengths differ without a look at their
items. -/
def equal? : Value → Value → Except RuntimeError Bool
  | .number x, .number y => .ok (x.equal y)
  | .string s, .string t => .ok (s == t)
  | .identifier m, .identifier n => .ok (m == n)
  | .list b xs, .list c ys =>
    if b ≠ c ∨ xs.length ≠ ys.length then .ok false else equalItems? xs ys
  | .builtin _, .builtin _ | .builtin _, .closure .. | .closure .., .builtin _
  | .closure .., .closure .. => .error (.incomparable "Function")
  | .error _, .error _ => .error (.incomparable "Error")
  | _, _ => .ok false

/-- Equality of two lists of the same length, item by item. -/
def equalItems? : List Value → List Value → Except RuntimeError Bool
  | x :: xs, y :: ys =>
    match equal? x y with
    | .ok true => equalItems? xs ys
    | other => other
  | _, _ => .ok true

end

end QuotedLisp.Value
