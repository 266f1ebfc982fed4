/-!
# Builtin functions

The names of the functions that a root scope starts with. What they do is in the modules under
`Eval`.
-/

namespace QuotedLisp

/-- A builtin function. -/
inductive Builtin where
  | add
  | subtract
  | multiply
  | divide
  | modulo
  | less
  | lessEqual
  | greater
  | greaterEqual
  | equal
  | head
  | tail
  | list
  | eval
  | join
  | define
  | put
  | lambda
  | branch
  | raise
  | load
  | print
deriving DecidableEq, Repr

namespace Builtin

/-- Every builtin function. -/
def all : List Builtin :=
  [.add, .subtract, .multiply, .divide, .modulo, .less, .lessEqual, .greater, .greaterEqual,
   .equal, .head, .tail, .list, .eval, .join, .define, .put, .lambda, .branch, .raise, .load,
   .print]

/-- The list of all builtin functions misses none. -/
theorem mem_all (b : Builtin) : b ∈ all := by
  cases b <;> decide

/-- The name under which a function is bound and which its errors give. -/
def name : Builtin → String
  | .add => "+"
  | .subtract => "-"
  | .multiply => "*"
  | .divide => "/"
  | .modulo => "mod"
  | .less => "<"
  | .lessEqual => "<="
  | .greater => ">"
  | .greaterEqual => ">="
  | .equal => "="
  | .head => "head"
  | .tail => "tail"
  | .list => "list"
  | .eval => "eval"
  | .join => "join"
  | .define => "def"
  | .put => "let"
  | .lambda => "fn"
  | .branch => "if"
  | .raise => "error"
  | .load => "import"
  | .print => "print"

/-- The function with a given name. -/
def ofName? (name : String) : Option Builtin :=
  all.find? fun b => b.name == name

end Builtin

end QuotedLisp
