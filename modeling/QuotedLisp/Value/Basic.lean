import QuotedLisp.Binary64.Basic
import QuotedLisp.Builtin
import QuotedLisp.Error

/-!
# Values

Programs and data are the same thing: what is read, evaluated, bound and printed is a `Value`. An
error can be a value too, for a caller from outside can put one anywhere; the language itself never
stores one.
-/

namespace QuotedLisp

/-- What names are made of. -/
abbrev Name := String

/-- A value. A closure holds the arguments it was already given, the names that still wait for one,
and its body, a list in either bracket. -/
inductive Value where
  | number (x : Binary64)
  | string (text : String)
  | identifier (name : Name)
  | list (bracket : Bracket) (items : List Value)
  | builtin (function : Builtin)
  | closure (bound : List (Name × Value)) (formals : List Name) (bracket : Bracket)
      (body : List Value)
  | error (error : RuntimeError)

namespace Value

/-- The empty round list, the result of what is done for its effect. -/
def unit : Value :=
  .list .round []

/-- The empty list is a value. -/
instance : Inhabited Value :=
  ⟨unit⟩

/-- A quoted list. -/
abbrev quoted (items : List Value) : Value :=
  .list .curly items

/-- Truth as the language spells it. -/
def ofBool (b : Bool) : Value :=
  .number (.ofBool b)

/-- The name of a value's type, as errors give it. -/
def typeName : Value → String
  | .number _ => "Number"
  | .string _ => "String"
  | .identifier _ => "Identifier"
  | .list .round _ => "S-Expression"
  | .list .curly _ => "Q-Expression"
  | .builtin _ => "Function"
  | .closure .. => "Function"
  | .error _ => "Error"

/-- A value that stands for a failure counts as that failure, any other as a result. -/
def toResult : Value → Except RuntimeError Value
  | .error e => .error e
  | v => .ok v

end Value

end QuotedLisp
