import QuotedLisp.Scope.Workspace

/-!
# Operations on handles

What callers do with a workspace, one operation after the other. They know its scopes by handles
only, and an operation on a handle that does not exist does nothing.
-/

namespace QuotedLisp.Workspace

/-- An operation. A new handle takes the place of an older one of the same name. -/
inductive Operation where
  | addRoot (handle : String) (modules : Option ModuleSource)
  /-- Makes a frame under the scope of a handle. -/
  | addFrame (outer handle : String) (bindings : Bindings)
  | put (handle : String) (name : Name) (v : Value)
  | define (handle : String) (name : Name) (v : Value)
  /-- Makes a handle on the parent of a scope, if it has one. -/
  | holdParent (inner handle : String)
  /-- Makes a handle on the end of the chain of a scope. -/
  | holdRoot (inner handle : String)
  | drop (handle : String)

/-- The workspace after a change to the scope of a handle. -/
def withHandle (w : Workspace) (handle : String) (change : ScopeId → Workspace) : Workspace :=
  match w.find? handle with
  | none => w
  | some id => change id

/-- The workspace after an operation. -/
def apply (w : Workspace) : Operation → Workspace
  | .addRoot handle modules => w.addRoot handle modules
  | .addFrame outer handle bindings =>
    w.withHandle outer fun id => w.addFrame id handle bindings
  | .put handle name v => w.withHandle handle fun id => w.put id name v
  | .define handle name v => w.withHandle handle fun id => w.define id name v
  | .holdParent inner handle =>
    w.withHandle inner fun id =>
      match w.parentId? id with
      | none => w
      | some parent => w.hold handle parent
  | .holdRoot inner handle => w.withHandle inner fun id => w.hold handle (w.rootId id)
  | .drop handle => w.drop handle

/-- The workspace after operations in turn. -/
def applyAll (w : Workspace) (operations : List Operation) : Workspace :=
  operations.foldl apply w

end QuotedLisp.Workspace
