import QuotedLisp.Value.Basic

/-!
# Arguments of builtin functions

Every builtin function checks its own arguments: first how many there are, then the type of each as
it comes to it. A failed check names the function.
-/

namespace QuotedLisp

/-- How many arguments a builtin function takes. -/
def Builtin.arity : Builtin → Arity
  | .add | .subtract | .multiply | .divide => .atLeast 1
  | .modulo | .less | .lessEqual | .greater | .greaterEqual => .exactly 2
  | .equal => .atLeast 2
  | .head | .tail | .eval | .raise | .load => .exactly 1
  | .list | .print => .atLeast 0
  | .join | .define | .put => .atLeast 1
  | .lambda => .exactly 2
  | .branch => .exactly 3

/-- Admits a number of arguments, or fails. -/
def checkArity (function : String) (expected : Arity) (count : Nat) : Except RuntimeError Unit :=
  if expected.accepts count then .ok () else .error (.arityMismatch function expected count)

/-- The failure of a builtin function that was given the wrong number of arguments. -/
def Builtin.arityError (b : Builtin) (args : List Value) : RuntimeError :=
  .arityMismatch b.name b.arity args.length

namespace Value

/-- The failure of a function that expected another type of value. -/
def mismatch (function expected : String) (v : Value) : RuntimeError :=
  .typeMismatch function expected v.typeName

/-- The number that a value is. -/
def expectNumber (function : String) : Value → Except RuntimeError Binary64
  | .number x => .ok x
  | v => .error (v.mismatch function "Number")

/-- The string that a value is. -/
def expectString (function : String) : Value → Except RuntimeError String
  | .string text => .ok text
  | v => .error (v.mismatch function "String")

/-- The items of the quoted list that a value is. -/
def expectQuoted (function : String) : Value → Except RuntimeError (List Value)
  | .list .curly items => .ok items
  | v => .error (v.mismatch function "Q-Expression")

/-- The name that a value is. -/
def expectIdentifier (function : String) : Value → Except RuntimeError Name
  | .identifier name => .ok name
  | v => .error (v.mismatch function "Identifier")

/-- The names of which a value is a quoted list. -/
def expectIdentifiers (function : String) (v : Value) : Except RuntimeError (List Name) := do
  let items ← v.expectQuoted function
  items.mapM (expectIdentifier function)

end Value

/-- The names and values that a binding form pairs up: a quoted list of names, then as many
values. -/
def Builtin.pairs (b : Builtin) : List Value → Except RuntimeError (List (Name × Value))
  | [] => .error (b.arityError [])
  | first :: values => do
    let names ← first.expectIdentifiers b.name
    if names.length = values.length then .ok (names.zip values)
    else .error (.bindingCountMismatch b.name names.length values.length)

end QuotedLisp
