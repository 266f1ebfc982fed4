import QuotedLisp.Eval.Run
import QuotedLisp.Scope.Workspace

/-!
# Evaluation in a workspace

Code is evaluated on behalf of a scope of a workspace: in its chain, with the modules that the end
of the chain offers. The functions here carry an evaluation out there and put the changed scopes
back.
-/

namespace QuotedLisp

/-- The bindings with all builtin functions under their names. -/
def Bindings.withBuiltins (bindings : Bindings) : Bindings :=
  bindings.setAll (Builtin.all.map fun b => (b.name, .builtin b))

/-- A world in which nothing but the builtin functions is bound. -/
def World.bare : World :=
  ⟨⟨[], Bindings.withBuiltins []⟩, ""⟩

namespace Workspace

/-- The outcome of evaluating code in a scope: the result, what was printed, and the workspace
afterwards. -/
structure Outcome (α : Type) where
  result : α
  printed : String
  workspace : Workspace

/-- Binds all builtin functions at the end of the chain of a scope. -/
def defineBuiltins (w : Workspace) (id : ScopeId) : Workspace :=
  w.setBindings (w.rootId id) (w.bindings (w.rootId id)).withBuiltins

/-- Carries out an evaluation in a scope. -/
def perform {α : Type} (w : Workspace) (id : ScopeId) (outputFault : Option String)
    (evaluation : Host → World → Option (α × World)) : Option (Outcome α) :=
  (evaluation ⟨w.modules id, outputFault⟩ ⟨w.scopesOf id, ""⟩).map fun (result, after) =>
    ⟨result, after.printed, w.withScopes id after.scopes⟩

end Workspace

end QuotedLisp
