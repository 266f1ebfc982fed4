import QuotedLisp.Proofs.Eval.Writes
import QuotedLisp.Eval.Session

/-!
# Evaluation in a workspace

An evaluation sees the chain of a scope, and what it has changed there is put back into the
workspace. The scopes of a chain are distinct, since each is older than the one before it, so a
change of the innermost scope and of the root writes to these two and to no other scope; see
`perform_changed_only`.
-/

namespace QuotedLisp.Workspace

/-- The scopes around a scope are older than it. -/
theorem ancestors_lt (w : Workspace) (id : ScopeId) : ∀ outer ∈ w.ancestors id, outer < id := by
  intro outer houter
  rw [ancestors] at houter
  split at houter
  · cases houter
  · rename_i parent hparent
    have hlt := parentId?_lt hparent
    rcases List.mem_cons.mp houter with rfl | houter
    · exact hlt
    · exact Nat.lt_trans (ancestors_lt w parent outer houter) hlt
termination_by id
decreasing_by exact hlt

/-- A chain ends at its root. -/
theorem chain_eq (w : Workspace) (id : ScopeId) :
    w.chain id = (w.chain id).dropLast ++ [w.rootId id] := by
  have hroot : (w.chain id).getLast (List.cons_ne_nil id _) = w.rootId id := by
    unfold chain rootId
    rw [List.getLast_eq_getLastD]
  rw [← hroot]
  exact (List.dropLast_concat_getLast _).symm

/-- The root of a chain is one of its scopes. -/
theorem rootId_mem_chain (w : Workspace) (id : ScopeId) : w.rootId id ∈ w.chain id := by
  rw [w.chain_eq id]
  exact List.mem_append_right _ (List.mem_singleton_self _)

/-- The root of a chain is no younger than the scope. -/
theorem rootId_le (w : Workspace) (id : ScopeId) : w.rootId id ≤ id := by
  rcases List.mem_cons.mp (w.rootId_mem_chain id) with hroot | hroot
  · exact Nat.le_of_eq hroot
  · exact Nat.le_of_lt (w.ancestors_lt id _ hroot)

/-- A scope that is the root of its chain is alone in it; any other is followed by scopes of other
numbers, the last of which is the root. -/
theorem chain_cases (w : Workspace) (id : ScopeId) :
    (w.chain id).dropLast = [] ∧ w.rootId id = id ∨
      ∃ between, (w.chain id).dropLast = id :: between ∧ id ∉ between ∧ w.rootId id ≠ id := by
  have heq := w.chain_eq id
  cases hinit : (w.chain id).dropLast with
  | nil =>
      rw [hinit] at heq
      exact .inl ⟨rfl, (List.cons.inj heq).1.symm⟩
  | cons first between =>
      rw [hinit] at heq
      obtain ⟨rfl, hancestors⟩ := List.cons.inj heq
      have hlt := w.ancestors_lt id
      rw [hancestors] at hlt
      refine .inr ⟨between, rfl, ?_, ?_⟩
      · intro hmem
        exact Nat.lt_irrefl id (hlt id (List.mem_append_left _ hmem))
      · exact Nat.ne_of_lt (hlt _ (List.mem_append_right _ (List.mem_singleton_self _)))

/-- Writing to a scope replaces what it binds, if there is such a scope. -/
theorem scopes_setBindings_self (w : Workspace) (id : ScopeId) (bindings : Bindings) :
    (w.setBindings id bindings).scopes[id]? =
      w.scopes[id]?.map fun record => { record with bindings } := by
  show (w.scopes.modify id _)[id]? = _
  rw [List.getElem?_modify]
  simp only [if_true]
  rfl

/-- Writing to a scope leaves every other alone. -/
theorem scopes_setBindings_of_ne {w : Workspace} {id other : ScopeId} (h : id ≠ other)
    (bindings : Bindings) : (w.setBindings id bindings).scopes[other]? = w.scopes[other]? := by
  show (w.scopes.modify id _)[other]? = _
  rw [List.getElem?_modify]
  simp only [if_neg h]
  exact Option.map_id'

/-- What a scope binds does not depend on what is written to another. -/
theorem bindings_setBindings_of_ne {w : Workspace} {id other : ScopeId} (h : id ≠ other)
    (bindings : Bindings) : (w.setBindings id bindings).bindings other = w.bindings other := by
  rw [Workspace.bindings, scopes_setBindings_of_ne h, Workspace.bindings]

/-- To write what is there is to change nothing. -/
theorem setBindings_bindings (w : Workspace) (id : ScopeId) :
    w.setBindings id (w.bindings id) = w := by
  have hscopes : (w.setBindings id (w.bindings id)).scopes = w.scopes := by
    apply List.ext_getElem?
    intro other
    by_cases h : id = other
    · subst other
      rw [scopes_setBindings_self, Workspace.bindings]
      cases w.scopes[id]? <;> rfl
    · exact scopes_setBindings_of_ne h _
  show Workspace.mk (w.setBindings id (w.bindings id)).scopes w.handles = w
  rw [hscopes]

/-- To write to several scopes what is there is to change nothing. -/
theorem foldl_setBindings_bindings (w : Workspace) (ids : List ScopeId) :
    (ids.zip (ids.map w.bindings)).foldl (fun w entry => w.setBindings entry.1 entry.2) w = w := by
  induction ids with
  | nil => rfl
  | cons id ids ih =>
      rw [List.map_cons, List.zip_cons_cons, List.foldl_cons, setBindings_bindings]
      exact ih

/-- Putting back a chain of which only the innermost scope and the root have changed writes to
these two. -/
theorem withScopes_innermost {w : Workspace} {id : ScopeId} {between : List ScopeId}
    (hchain : (w.chain id).dropLast = id :: between) (hid : id ∉ between) (frame root : Bindings) :
    w.withScopes id ⟨frame :: between.map w.bindings, root⟩ =
      (w.setBindings id frame).setBindings (w.rootId id) root := by
  -- Writing to the innermost scope leaves those between as they are, so they get back their own.
  have hbetween : between.map w.bindings = between.map (w.setBindings id frame).bindings := by
    apply List.map_congr_left
    intro other hother
    rw [bindings_setBindings_of_ne]
    rintro rfl
    exact hid hother
  have hlength : between.length = (between.map (w.setBindings id frame).bindings).length :=
    (List.length_map _).symm
  unfold withScopes
  rw [w.chain_eq id, hchain, hbetween, List.cons_append, List.cons_append, List.zip_cons_cons,
    List.foldl_cons, List.zip_append hlength, List.foldl_append, foldl_setBindings_bindings]
  rfl

/-- Putting back the chain of a root writes to the root. -/
theorem withScopes_root {w : Workspace} {id : ScopeId} (hchain : (w.chain id).dropLast = [])
    (root : Bindings) :
    w.withScopes id ⟨[], root⟩ = w.setBindings (w.rootId id) root := by
  unfold withScopes
  rw [w.chain_eq id, hchain]
  rfl

/-- Putting back a chain as it is changes nothing. -/
theorem withScopes_scopesOf (w : Workspace) (id : ScopeId) :
    w.withScopes id (w.scopesOf id) = w := by
  have hchain : (w.chain id).dropLast.map w.bindings ++ [w.bindings (w.rootId id)] =
      (w.chain id).map w.bindings := by
    rw [← List.map_singleton, ← List.map_append, ← w.chain_eq id]
  unfold withScopes scopesOf
  rw [hchain]
  exact w.foldl_setBindings_bindings (w.chain id)

/-- The links of a scope, which evaluation does not touch: the scope it was made under, and the
modules that it offers. -/
def links (w : Workspace) (id : ScopeId) : Option (Option ScopeId × Option ModuleSource) :=
  w.scopes[id]?.map fun record => (record.parent, record.modules)

/-- Writing to a scope leaves all links alone. -/
theorem links_setBindings (w : Workspace) (id other : ScopeId) (bindings : Bindings) :
    (w.setBindings id bindings).links other = w.links other := by
  by_cases hne : id = other
  · subst other
    rw [links, scopes_setBindings_self, links]
    cases w.scopes[id]? <;> rfl
  · rw [links, scopes_setBindings_of_ne hne, links]

/-- Between the two states names may have been bound in the given scopes. All else is as it was:
other scopes, the links between scopes, and the handles on them. -/
structure ChangedOnly (before after : Workspace) (ids : List ScopeId) : Prop where
  handles : after.handles = before.handles
  others : ∀ other, other ∉ ids → after.scopes[other]? = before.scopes[other]?
  links : ∀ id, after.links id = before.links id
  names : ∀ id, (before.bindings id).Grows (after.bindings id)

/-- Nothing has changed. -/
theorem ChangedOnly.refl (w : Workspace) (ids : List ScopeId) : w.ChangedOnly w ids :=
  ⟨rfl, fun _ _ => rfl, fun _ => rfl, fun _ => .refl _⟩

/-- Names are bound in one more scope of the list. -/
theorem ChangedOnly.setBindings {before after : Workspace} {ids : List ScopeId}
    (h : before.ChangedOnly after ids) {id : ScopeId} {bindings : Bindings} (hid : id ∈ ids)
    (hgrows : (before.bindings id).Grows bindings) :
    before.ChangedOnly (after.setBindings id bindings) ids := by
  obtain ⟨hhandles, hothers, hlinks, hnames⟩ := h
  refine ⟨hhandles, ?_, ?_, ?_⟩
  · intro other hother
    have hne : id ≠ other := by
      rintro rfl
      exact hother hid
    rw [scopes_setBindings_of_ne hne]
    exact hothers other hother
  · intro other
    rw [links_setBindings]
    exact hlinks other
  · intro other
    by_cases hne : id = other
    · subst other
      have hlink := hlinks id
      show (before.bindings id).Grows
        (((after.setBindings id bindings).scopes[id]?.map (·.bindings)).getD [])
      rw [scopes_setBindings_self]
      cases hrecord : after.scopes[id]? with
      | none =>
          -- There is no such scope, and there was none before, so nothing is lost.
          have hnone : before.scopes[id]? = none := by
            rw [Workspace.links, hrecord] at hlink
            exact Option.map_eq_none_iff.mp hlink.symm
          rw [Workspace.bindings, hnone]
          exact .refl _
      | some record => exact hgrows
    · rw [bindings_setBindings_of_ne hne]
      exact hnames other

/-- A change of the innermost scope and the root of a chain, put back into the workspace. -/
theorem withScopes_changed_only {w : Workspace} {id : ScopeId} {scopes : Scopes}
    (h : (w.scopesOf id).Grows scopes) :
    w.ChangedOnly (w.withScopes id scopes) [id, w.rootId id] := by
  obtain ⟨frames, root⟩ := scopes
  obtain ⟨hframes, hroot⟩ := h
  rcases w.chain_cases id with ⟨hchain, -⟩ | ⟨between, hchain, hid, -⟩
  · simp only [scopesOf, hchain, List.map_nil] at hframes
    cases hframes
    rw [withScopes_root hchain]
    exact (ChangedOnly.refl w _).setBindings (by simp) hroot
  · simp only [scopesOf, hchain, List.map_cons] at hframes
    cases hframes with
    | innermost _ frame _ hframe =>
        rw [withScopes_innermost hchain hid]
        exact ((ChangedOnly.refl w _).setBindings (by simp) hframe).setBindings (by simp) hroot

/-- A change of the root of a chain, put back into the workspace. -/
theorem withScopes_root_only {w : Workspace} {id : ScopeId} {scopes : Scopes}
    (h : (w.scopesOf id).RootGrows scopes) :
    w.ChangedOnly (w.withScopes id scopes) [w.rootId id] := by
  obtain ⟨frames, root⟩ := scopes
  obtain ⟨rfl, hroot⟩ := h
  rcases w.chain_cases id with ⟨hchain, -⟩ | ⟨between, hchain, hid, -⟩
  · simp only [scopesOf, hchain, List.map_nil]
    rw [withScopes_root hchain]
    exact (ChangedOnly.refl w _).setBindings (by simp) hroot
  · simp only [scopesOf, hchain, List.map_cons]
    rw [withScopes_innermost hchain hid, setBindings_bindings]
    exact (ChangedOnly.refl w _).setBindings (by simp) hroot

/-- What an evaluation in a scope has changed is what it has changed in the chain. -/
theorem perform_eq_some {α : Type} {w : Workspace} {id : ScopeId} {fault : Option String}
    {evaluation : Host → World → Option (α × World)} {outcome : Outcome α}
    (h : w.perform id fault evaluation = some outcome) :
    ∃ after, evaluation ⟨w.modules id, fault⟩ ⟨w.scopesOf id, ""⟩ = some (outcome.result, after) ∧
      outcome.printed = after.printed ∧ outcome.workspace = w.withScopes id after.scopes := by
  obtain ⟨⟨result, after⟩, hperform, rfl⟩ := Option.map_eq_some_iff.mp h
  exact ⟨after, hperform, rfl, rfl⟩

/-- Evaluating a value in a scope, with a result or with an error, binds names in that scope and in
the root of its chain, and calling a closure binds names in the root only. No name is taken away
anywhere, and no other scope changes, whatever the code does. -/
theorem perform_changed_only {w : Workspace} {id : ScopeId} {fault : Option String}
    {allowance : Nat} :
    (∀ (v : Value) (outcome : Outcome (Except RuntimeError Value)),
      w.perform id fault (fun host world =>
        world.perform (evalValue (run host allowance) v)) = some outcome →
      w.ChangedOnly outcome.workspace [id, w.rootId id]) ∧
    ∀ (bound : Bindings) (formals : List Name) (b : Bracket) (body args : List Value)
      (outcome : Outcome (Except RuntimeError Value)),
      w.perform id fault (fun host world =>
        world.perform (call host (run host allowance) (.closure bound formals b body) args)) =
          some outcome →
      w.ChangedOnly outcome.workspace [w.rootId id] := by
  constructor
  · intro v outcome h
    obtain ⟨after, hperform, -, hworkspace⟩ := perform_eq_some h
    rw [hworkspace]
    exact withScopes_changed_only
      (Evaluation.grows_iff.mp (evalValue_grows (run_grows _ allowance) v) _ _ _ hperform)
  · intro bound formals b body args outcome h
    obtain ⟨after, hperform, -, hworkspace⟩ := perform_eq_some h
    rw [hworkspace]
    exact withScopes_root_only (call_closure_root_grows (run_grows _ allowance) hperform)

/-- A root, a frame in it, and a frame in that one. -/
def nested : Workspace :=
  ((empty.addRoot "root" none).addFrame 0 "outer" [("x", .number .one)]).addFrame 1 "inner" []

/-- Code that binds a name where it stands and another in the root, and then fails. -/
def bindsAndFails : List Value :=
  [.list .round [.builtin .put, .quoted [.identifier "x"], .string "here"],
    .list .round [.builtin .define, .quoted [.identifier "y"], .string "everywhere"],
    .list .round [.builtin .raise, .string "enough"]]

/-- In the inner frame the code reaches that frame and the root, and as the body of a closure only
the root. -/
theorem perform_changed_only_nested :
    nested.rootId 2 = 0 ∧
      (∃ outcome, nested.perform 2 none (fun host world =>
          world.perform (evalValue (run host 3) (.list .round bindsAndFails))) = some outcome ∧
        nested.ChangedOnly outcome.workspace [2, nested.rootId 2]) ∧
      ∃ outcome, nested.perform 2 none (fun host world =>
          world.perform (call host (run host 3) (.closure [] [] .curly bindsAndFails) [])) =
            some outcome ∧
        nested.ChangedOnly outcome.workspace [nested.rootId 2] := by
  obtain ⟨hvalue, hcall⟩ := @perform_changed_only nested 2 none 3
  refine ⟨by decide +kernel, ⟨_, rfl, ?_⟩, ⟨_, rfl, ?_⟩⟩
  · exact hvalue (.list .round bindsAndFails) _ rfl
  · exact hcall [] [] .curly bindsAndFails [] _ rfl

end QuotedLisp.Workspace
