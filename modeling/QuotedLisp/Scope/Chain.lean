import QuotedLisp.Scope.Bindings

/-!
# Chains of scopes

Evaluation works in a chain of scopes: frames, one for each call in progress, and the root at its
end. A name is looked up from the innermost frame outward. New bindings go into the innermost scope
or into the root, and into no other.
-/

namespace QuotedLisp

/-- A chain of scopes, its frames listed from the innermost. -/
structure Scopes where
  frames : List Bindings
  root : Bindings

namespace Scopes

/-- The value of a name in the innermost scope that binds it. -/
def get? (scopes : Scopes) (name : Name) : Option Value :=
  (scopes.frames.findSome? fun frame => frame.get? name).or (scopes.root.get? name)

/-- Binds a name in the root. -/
def define (scopes : Scopes) (name : Name) (v : Value) : Scopes :=
  { scopes with root := scopes.root.set name v }

/-- Binds a name in the innermost scope, which is the root if there are no frames. -/
def put (scopes : Scopes) (name : Name) (v : Value) : Scopes :=
  match scopes.frames with
  | [] => scopes.define name v
  | frame :: outer => { scopes with frames := frame.set name v :: outer }

/-- The chain with one more frame, as its innermost scope. -/
def push (scopes : Scopes) (frame : Bindings) : Scopes :=
  { scopes with frames := frame :: scopes.frames }

/-- The chain without its innermost frame. -/
def pop (scopes : Scopes) : Scopes :=
  { scopes with frames := scopes.frames.tail }

end Scopes

end QuotedLisp
