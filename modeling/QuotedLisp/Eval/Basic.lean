import QuotedLisp.Module.Source
import QuotedLisp.Scope.Chain

/-!
# Evaluations

The setting in which code is evaluated. An evaluation changes a world, the chain of scopes and the
text printed so far, and ends in a value or an error; it has no answer at all if its allowance of
nested applications runs out. What it cannot change is its host: the modules at hand and the state
of the output device.
-/

namespace QuotedLisp

/-- What evaluation changes. -/
structure World where
  scopes : Scopes
  printed : String

/-- What evaluation relies on: where modules are found, if anywhere, and the message with which
output fails, if it does. -/
structure Host where
  modules : Option ModuleSource
  outputFault : Option String

/-- A computation on the world that ends in a result, in an error, or without an answer. -/
abbrev Evaluation := ExceptT RuntimeError (StateT World Option)

/-- How the items of a list are evaluated as an application. -/
abbrev Runner := Bracket → List Value → Evaluation Value

namespace Evaluation

/-- No answer. -/
def exhausted {α : Type} : Evaluation α :=
  ExceptT.mk fun _ => none

/-- The result of a check or a computation that has no effect. -/
def ofExcept {α : Type} (result : Except RuntimeError α) : Evaluation α :=
  ExceptT.mk (pure result)

/-- The value of a name. A name that is bound to an error fails with it, as does an unbound
name. -/
def lookup (name : Name) : Evaluation Value := do
  match (← get).scopes.get? name with
  | some v => ofExcept v.toResult
  | none => throw (.unknownIdentifier name)

/-- Binds a name in the innermost scope. -/
def put (name : Name) (v : Value) : Evaluation Unit :=
  modify fun w => { w with scopes := w.scopes.put name v }

/-- Binds a name in the root. -/
def define (name : Name) (v : Value) : Evaluation Unit :=
  modify fun w => { w with scopes := w.scopes.define name v }

/-- Prints a text. -/
def write (text : String) : Evaluation Unit :=
  modify fun w => { w with printed := w.printed ++ text }

/-- Carries out an evaluation in a frame of its own, which is gone afterwards, also after an
error. -/
def inFrame {α : Type} (frame : Bindings) (body : Evaluation α) : Evaluation α :=
  ExceptT.mk fun w =>
    match body.run.run { w with scopes := w.scopes.push frame } with
    | none => none
    | some (result, after) => some (result, { after with scopes := after.scopes.pop })

end Evaluation

end QuotedLisp
