import QuotedLisp.Module.Source
import QuotedLisp.Scope.Chain

/-!
# Workspaces

A workspace holds scopes and the handles by which a caller knows them. A scope is alive as long as
some handle refers to it. A frame depends on the scope it was made under only while that scope is
alive: once it is dead, the frame is the end of its own chain, whatever lies further out.
`parentId?_lt` shows that links to parents lead to older scopes, so every chain ends.
-/

namespace QuotedLisp

/-- The number of a scope in the order in which scopes were made. -/
abbrev ScopeId := Nat

/-- A scope: what it binds, the scope it was made under, and the modules that it offers. -/
structure ScopeRecord where
  bindings : Bindings
  parent : Option ScopeId
  modules : Option ModuleSource

/-- Scopes, dead ones included, and the handles on those that are alive. -/
structure Workspace where
  scopes : List ScopeRecord
  handles : List (String × ScopeId)

namespace Workspace

/-- A workspace without scopes. -/
def empty : Workspace :=
  ⟨[], []⟩

/-- The scope that a handle refers to. -/
def find? (w : Workspace) (handle : String) : Option ScopeId :=
  w.handles.lookup handle

/-- Some handle refers to the scope. -/
def isAlive (w : Workspace) (id : ScopeId) : Bool :=
  w.handles.any fun entry => entry.2 == id

/-- Forgets a handle. -/
def drop (w : Workspace) (handle : String) : Workspace :=
  { w with handles := w.handles.filter fun entry => entry.1 != handle }

/-- Makes a handle refer to a scope, whatever it referred to before. -/
def hold (w : Workspace) (handle : String) (id : ScopeId) : Workspace :=
  { w with handles := (handle, id) :: (w.drop handle).handles }

/-- Adds a scope and a handle on it. -/
def add (w : Workspace) (handle : String) (record : ScopeRecord) : Workspace :=
  ({ w with scopes := w.scopes ++ [record] } : Workspace).hold handle w.scopes.length

/-- Makes a root scope without bindings. -/
def addRoot (w : Workspace) (handle : String) (modules : Option ModuleSource) : Workspace :=
  w.add handle ⟨[], none, modules⟩

/-- Makes a frame under a scope. -/
def addFrame (w : Workspace) (parent : ScopeId) (handle : String) (bindings : Bindings) :
    Workspace :=
  w.add handle ⟨bindings, some parent, none⟩

/-- What a scope binds by itself. -/
def bindings (w : Workspace) (id : ScopeId) : Bindings :=
  (w.scopes[id]?.map (·.bindings)).getD []

/-- The scope was made as a root. -/
def isRoot (w : Workspace) (id : ScopeId) : Bool :=
  (w.scopes[id]?.bind (·.parent)).isNone

/-- The scope that a frame was made under, if that is an older one and still alive. -/
def parentId? (w : Workspace) (id : ScopeId) : Option ScopeId :=
  (w.scopes[id]?.bind (·.parent)).filter fun parent => parent < id && w.isAlive parent

/-- A parent is older than the scopes made under it. -/
theorem parentId?_lt {w : Workspace} {id parent : ScopeId} (h : w.parentId? id = some parent) :
    parent < id := by
  have hfilter := (Option.filter_eq_some_iff.mp h).2
  simp only [Bool.and_eq_true, decide_eq_true_eq] at hfilter
  exact hfilter.1

/-- The scopes around a scope, from the nearest one. -/
def ancestors (w : Workspace) (id : ScopeId) : List ScopeId :=
  match _h : w.parentId? id with
  | none => []
  | some parent => parent :: w.ancestors parent
termination_by id
decreasing_by exact parentId?_lt _h

/-- The scope and those around it, in the order of look-up. -/
def chain (w : Workspace) (id : ScopeId) : List ScopeId :=
  id :: w.ancestors id

/-- The end of the chain of a scope. -/
def rootId (w : Workspace) (id : ScopeId) : ScopeId :=
  (w.ancestors id).getLastD id

/-- The modules that a scope offers through the end of its chain. -/
def modules (w : Workspace) (id : ScopeId) : Option ModuleSource :=
  w.scopes[w.rootId id]?.bind (·.modules)

/-- The value of a name in the nearest scope of the chain that binds it. -/
def get? (w : Workspace) (id : ScopeId) (name : Name) : Option Value :=
  (w.chain id).findSome? fun scope => (w.bindings scope).get? name

/-- Replaces what a scope binds by itself. -/
def setBindings (w : Workspace) (id : ScopeId) (bindings : Bindings) : Workspace :=
  { w with scopes := w.scopes.modify id fun record => { record with bindings } }

/-- Binds a name in a scope. -/
def put (w : Workspace) (id : ScopeId) (name : Name) (v : Value) : Workspace :=
  w.setBindings id ((w.bindings id).set name v)

/-- Binds a name at the end of the chain of a scope. -/
def define (w : Workspace) (id : ScopeId) (name : Name) (v : Value) : Workspace :=
  w.put (w.rootId id) name v

/-- The chain of a scope as evaluation sees it. -/
def scopesOf (w : Workspace) (id : ScopeId) : Scopes :=
  ⟨(w.chain id).dropLast.map w.bindings, w.bindings (w.rootId id)⟩

/-- The workspace after evaluation has changed the chain of a scope. -/
def withScopes (w : Workspace) (id : ScopeId) (scopes : Scopes) : Workspace :=
  ((w.chain id).zip (scopes.frames ++ [scopes.root])).foldl
    (fun w entry => w.setBindings entry.1 entry.2) w

end Workspace

end QuotedLisp
