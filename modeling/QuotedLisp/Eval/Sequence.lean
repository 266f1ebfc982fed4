import QuotedLisp.Eval.Arguments
import QuotedLisp.Text.Grapheme

/-!
# Lists and strings

The first part of a list or a string, what follows it, and concatenation. The parts of a string
are its grapheme clusters.
-/

namespace QuotedLisp.Builtin

/-- The first item, in a list of its own, or the first grapheme cluster. -/
def first : List Value → Except RuntimeError Value
  | [.string text] =>
    match Text.splitFirst? text.toList with
    | none => .error (.emptyInput Builtin.head.name "string")
    | some (cluster, _) => .ok (.string (String.ofList cluster))
  | [arg] => do
    match ← arg.expectQuoted Builtin.head.name with
    | [] => .error (.emptyInput Builtin.head.name "list")
    | item :: _ => .ok (.quoted [item])
  | args => .error (Builtin.head.arityError args)

/-- Everything but the first item, or but the first grapheme cluster. -/
def afterFirst : List Value → Except RuntimeError Value
  | [.string text] =>
    match Text.splitFirst? text.toList with
    | none => .error (.emptyInput Builtin.tail.name "string")
    | some (_, rest) => .ok (.string (String.ofList rest))
  | [arg] => do
    match ← arg.expectQuoted Builtin.tail.name with
    | [] => .error (.emptyInput Builtin.tail.name "list")
    | _ :: rest => .ok (.quoted rest)
  | args => .error (Builtin.tail.arityError args)

/-- Strings or quoted lists one after the other; the first argument decides which. -/
def concatenation : List Value → Except RuntimeError Value
  | [] => .error (Builtin.join.arityError [])
  | .string text :: rest => do
    let texts ← rest.mapM (Value.expectString Builtin.join.name)
    .ok (.string (String.join (text :: texts)))
  | args => do
    let lists ← args.mapM (Value.expectQuoted Builtin.join.name)
    .ok (.quoted lists.flatten)

end QuotedLisp.Builtin
