import QuotedLisp.Proofs.Eval.Arguments
import QuotedLisp.Proofs.Scope.Entries
import QuotedLisp.Proofs.Scope.LiveChain

/-!
# Binding several names at once

The two binding forms check all their arguments before they bind the first name, so they bind all of
them or none, `binding_all_or_nothing`. They differ in the scope that they write to, and nothing
else changes: `perform_binding` reduces either to a single write, and `Bindings.get?_setAll_last`
says that of several values for a name the last is kept.
-/

namespace QuotedLisp

namespace Bindings

variable {bindings : Bindings} {entries earlier later : List (Name × Value)} {name : Name}

/-- There is nothing to look up for a name without an entry. -/
theorem lookup_reverse_eq_none (h : name ∉ entries.map Prod.fst) :
    entries.reverse.lookup name = none := by
  rw [List.lookup_eq_none_iff]
  intro entry hentry
  have hne : name ≠ entry.1 := by
    rintro rfl
    exact h (List.mem_map_of_mem (List.mem_reverse.mp hentry))
  simpa using hne

/-- A name that was bound several times has the value of its last entry. -/
theorem get?_setAll_last {v : Value} (h : name ∉ later.map Prod.fst) :
    (bindings.setAll (earlier ++ (name, v) :: later)).get? name = some v := by
  rw [get?_setAll, List.reverse_append, List.reverse_cons, List.append_assoc, List.lookup_append,
    lookup_reverse_eq_none h]
  simp

/-- A name without an entry keeps its value. -/
theorem get?_setAll_of_not_mem (h : name ∉ entries.map Prod.fst) :
    (bindings.setAll entries).get? name = bindings.get? name := by
  rw [get?_setAll, lookup_reverse_eq_none h, Option.none_or]

end Bindings

namespace Scopes

/-- The chain after names were bound in the root, one after the other. -/
def defineAll (scopes : Scopes) (entries : List (Name × Value)) : Scopes :=
  entries.foldl (fun scopes entry => scopes.define entry.1 entry.2) scopes

/-- The chain after names were bound in the innermost scope, one after the other. -/
def putAll (scopes : Scopes) (entries : List (Name × Value)) : Scopes :=
  entries.foldl (fun scopes entry => scopes.put entry.1 entry.2) scopes

/-- Only the root has other bindings then. -/
theorem defineAll_eq (scopes : Scopes) (entries : List (Name × Value)) :
    scopes.defineAll entries = { scopes with root := scopes.root.setAll entries } :=
  List.foldl_hom (fun root => Scopes.mk scopes.frames root) fun _ _ => rfl

/-- If there are frames, only the innermost one has other bindings then. -/
theorem putAll_frame (frame : Bindings) (outer : List Bindings) (root : Bindings)
    (entries : List (Name × Value)) :
    (Scopes.mk (frame :: outer) root).putAll entries = ⟨frame.setAll entries :: outer, root⟩ :=
  List.foldl_hom (fun frame => Scopes.mk (frame :: outer) root) fun _ _ => rfl

/-- If there are none, the root has. -/
theorem putAll_root (root : Bindings) (entries : List (Name × Value)) :
    (Scopes.mk [] root).putAll entries = ⟨[], root.setAll entries⟩ :=
  List.foldl_hom (fun root => Scopes.mk [] root) fun _ _ => rfl

end Scopes

/-- What binding names in the root does to a world. -/
theorem World.foldl_define (w : World) (entries : List (Name × Value)) :
    entries.foldl (fun w entry => { w with scopes := w.scopes.define entry.1 entry.2 }) w =
      { w with scopes := w.scopes.defineAll entries } :=
  List.foldl_hom (fun scopes => World.mk scopes w.printed) fun _ _ => rfl

/-- What binding names in the innermost scope does to a world. -/
theorem World.foldl_put (w : World) (entries : List (Name × Value)) :
    entries.foldl (fun w entry => { w with scopes := w.scopes.put entry.1 entry.2 }) w =
      { w with scopes := w.scopes.putAll entries } :=
  List.foldl_hom (fun scopes => World.mk scopes w.printed) fun _ _ => rfl

namespace Workspace

/-- The scope that a binding form writes to when it is called in a scope. -/
def bindingTarget? (w : Workspace) (id : ScopeId) : Builtin → Option ScopeId
  | .define => some (w.rootId id)
  | .put => some id
  | _ => none

/-- Between the two states all entries were bound in one scope, the last one for each name. All else
is as it was: the other scopes, the other names in that scope, all links and all handles. -/
structure BoundAll (before after : Workspace) (id : ScopeId) (entries : List (Name × Value)) :
    Prop where
  handles : after.handles = before.handles
  others : ∀ other, other ≠ id → after.scopes[other]? = before.scopes[other]?
  links : ∀ other, after.links other = before.links other
  last : ∀ earlier name v later, entries = earlier ++ (name, v) :: later →
    name ∉ later.map Prod.fst → (after.bindings id).get? name = some v
  names : ∀ name, name ∉ entries.map Prod.fst →
    (after.bindings id).get? name = (before.bindings id).get? name

variable {w : Workspace} {id target : ScopeId}

/-- Entries are bound in a scope that was made. -/
theorem setAll_boundAll (h : id < w.scopes.length) (entries : List (Name × Value)) :
    w.BoundAll (w.setBindings id ((w.bindings id).setAll entries)) id entries := by
  refine ⟨rfl, fun other hne => scopes_setBindings_of_ne (Ne.symm hne) _,
    fun other => w.links_setBindings id other _, ?_, ?_⟩
  · intro earlier name v later hentries hlater
    rw [bindings_setBindings_self h, hentries]
    exact Bindings.get?_setAll_last hlater
  · intro name hname
    rw [bindings_setBindings_self h]
    exact Bindings.get?_setAll_of_not_mem hname

/-- Putting back a chain in the root of which entries were bound writes to the root. -/
theorem withScopes_defineAll (w : Workspace) (id : ScopeId) (entries : List (Name × Value)) :
    w.withScopes id ((w.scopesOf id).defineAll entries) =
      w.setBindings (w.rootId id) ((w.bindings (w.rootId id)).setAll entries) := by
  rw [Scopes.defineAll_eq, scopesOf]
  rcases w.chain_cases id with ⟨hchain, -⟩ | ⟨between, hchain, hid, -⟩
  · rw [hchain]
    exact withScopes_root hchain _
  · rw [hchain, List.map_cons, withScopes_innermost hchain hid, setBindings_bindings]

/-- Putting back a chain in the innermost scope of which entries were bound writes to that scope. -/
theorem withScopes_putAll (w : Workspace) (id : ScopeId) (entries : List (Name × Value)) :
    w.withScopes id ((w.scopesOf id).putAll entries) =
      w.setBindings id ((w.bindings id).setAll entries) := by
  rw [scopesOf]
  rcases w.chain_cases id with ⟨hchain, hroot⟩ | ⟨between, hchain, hid, hroot⟩
  · rw [hchain, List.map_nil, Scopes.putAll_root, withScopes_root hchain, hroot]
  · -- The root is another scope, so what it gets back is also what it binds after the write.
    have hsame := bindings_setBindings_of_ne (w := w) hroot.symm ((w.bindings id).setAll entries)
    rw [hchain, List.map_cons, Scopes.putAll_frame, withScopes_innermost hchain hid, ← hsame,
      setBindings_bindings]

/-- A binding form fails and changes nothing, or it writes all entries to its scope. -/
theorem perform_binding {b : Builtin} (hb : w.bindingTarget? id b = some target)
    (fault : Option String) (allowance : Nat) (args : List Value) :
    w.perform id fault (fun host world =>
        world.perform (call host (run host allowance) (.builtin b) args)) =
      some (match b.pairs args with
        | .error e => ⟨.error e, "", w⟩
        | .ok entries =>
          ⟨.ok .unit, "", w.setBindings target ((w.bindings target).setAll entries)⟩) := by
  unfold bindingTarget? at hb
  split at hb
  · cases hb
    have hdefine := World.perform_binding fun w entry => w.perform_define entry.1 entry.2
    simp only [perform, call, Builtin.apply, hdefine, World.foldl_define]
    cases Builtin.define.pairs args with
    | error e => simp [withScopes_scopesOf]
    | ok entries => simp [withScopes_defineAll]
  · cases hb
    have hput := World.perform_binding fun w entry => w.perform_put entry.1 entry.2
    simp only [perform, call, Builtin.apply, hput, World.foldl_put]
    cases Builtin.put.pairs args with
    | error e => simp [withScopes_scopesOf]
    | ok entries => simp [withScopes_putAll]
  · cases hb

/-- The target of a binding form called in a scope that was made is a scope that was made. -/
theorem bindingTarget_lt {b : Builtin} (hid : id < w.scopes.length)
    (hb : w.bindingTarget? id b = some target) : target < w.scopes.length := by
  unfold bindingTarget? at hb
  split at hb
  · cases hb
    exact Nat.lt_of_le_of_lt (w.rootId_le id) hid
  · cases hb
    exact hid
  · cases hb

/-- The two binding forms, called in any scope with any arguments, bind all names or none. If the
call fails, the workspace is as it was. It has a result exactly if the arguments are a quoted list
of names and then as many values. In that case the result is the unit, and nothing but the scope
that the form writes to has changed: the root of the chain, or the scope of the call itself. There
each name has the value that stands for its last occurrence, and every other name what it had. -/
theorem binding_all_or_nothing {b : Builtin} (hid : id < w.scopes.length)
    (hb : w.bindingTarget? id b = some target) (fault : Option String) (allowance : Nat)
    (args : List Value) :
    ∃ outcome,
      w.perform id fault (fun host world =>
        world.perform (call host (run host allowance) (.builtin b) args)) = some outcome ∧
      (∀ e, outcome.result = .error e → outcome.workspace = w) ∧
      ((∃ v, outcome.result = .ok v) ↔ ∃ (names : List Name) (values : List Value),
        args = .quoted (names.map .identifier) :: values ∧ names.length = values.length) ∧
      ∀ (names : List Name) (values : List Value),
        args = .quoted (names.map .identifier) :: values → names.length = values.length →
        outcome.result = .ok .unit ∧ w.BoundAll outcome.workspace target (names.zip values) := by
  have hperform := perform_binding hb fault allowance args
  cases hpairs : b.pairs args with
  | error e =>
      rw [hpairs] at hperform
      -- Arguments of the right form would have been paired up.
      have hform : ∀ (names : List Name) (values : List Value),
          args = .quoted (names.map .identifier) :: values → names.length ≠ values.length := by
        intro names values hargs hlength
        rw [Builtin.pairs_eq_ok.mpr ⟨names, values, hargs, hlength, rfl⟩] at hpairs
        cases hpairs
      refine ⟨_, hperform, fun _ _ => rfl, ?_, ?_⟩
      · constructor
        · rintro ⟨v, hv⟩
          cases hv
        · rintro ⟨names, values, hargs, hlength⟩
          exact absurd hlength (hform names values hargs)
      · intro names values hargs hlength
        exact absurd hlength (hform names values hargs)
  | ok entries =>
      rw [hpairs] at hperform
      obtain ⟨names, values, hargs, hlength, -⟩ := Builtin.pairs_eq_ok.mp hpairs
      refine ⟨_, hperform, nofun, ⟨fun _ => ⟨names, values, hargs, hlength⟩, fun _ => ⟨_, rfl⟩⟩, ?_⟩
      intro names values hargs hlength
      rw [Builtin.pairs_eq_ok.mpr ⟨names, values, hargs, hlength, rfl⟩] at hpairs
      cases hpairs
      exact ⟨rfl, setAll_boundAll (bindingTarget_lt hid hb) _⟩

/-- A quoted list that names `x` twice. -/
def repeated : Value :=
  .quoted [.identifier "x", .identifier "y", .identifier "x"]

/-- In a frame that binds `x` the local form gives it the later of two values; the other form
writes to the root, and with too few values to neither. -/
theorem binding_all_or_nothing_repeated :
    1 < nested.scopes.length ∧ nested.bindingTarget? 1 .put = some 1 ∧
      nested.bindingTarget? 1 .define = some 0 ∧
      (∃ outcome,
        nested.perform 1 none (fun host world => world.perform (call host (run host 0)
          (.builtin .put) [repeated, .string "a", .string "b", .string "c"])) = some outcome ∧
        outcome.result = .ok .unit ∧
        (outcome.workspace.bindings 1).get? "x" = some (.string "c") ∧
        outcome.workspace.bindings 0 = []) ∧
      ∃ outcome,
        nested.perform 1 none (fun host world => world.perform (call host (run host 0)
          (.builtin .define) [repeated, .string "a", .string "b"])) = some outcome ∧
        outcome.result = .error (.bindingCountMismatch "def" 3 2) ∧
        outcome.workspace = nested := by
  have hid : 1 < nested.scopes.length := by decide
  have hput : nested.bindingTarget? 1 .put = some 1 := rfl
  have hdefine : nested.bindingTarget? 1 .define = some 0 := by decide +kernel
  refine ⟨hid, hput, hdefine, ?_, ?_⟩
  · obtain ⟨outcome, hperform, -, -, hbound⟩ := binding_all_or_nothing hid hput none 0
      [repeated, .string "a", .string "b", .string "c"]
    obtain ⟨hresult, hbound⟩ := hbound ["x", "y", "x"] _ rfl rfl
    refine ⟨outcome, hperform, hresult, hbound.last [_, _] "x" _ [] rfl nofun, ?_⟩
    rw [bindings, hbound.others 0 (by decide)]
    rfl
  · obtain ⟨outcome, hperform, hunchanged, -⟩ := binding_all_or_nothing hid hdefine none 0
      [repeated, .string "a", .string "b"]
    obtain rfl := Option.some.inj (hperform.symm.trans (perform_binding hdefine none 0 _))
    exact ⟨_, hperform, rfl, hunchanged _ rfl⟩

end Workspace

end QuotedLisp
