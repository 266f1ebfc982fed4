import QuotedLisp.Proofs.Scope.Workspace

/-!
# Chains of living scopes

What the operations on a scope mean by its chain, in an orderly workspace: one where scopes are made
under older ones and handles refer to scopes that were made. Following the links of a scope to
living parents leads along its chain and ends there, `Orderly.live_chain`. A name is looked up in
the nearest scope of the chain that binds it, and binding a name writes to the scope itself or to
the last one of the chain.
-/

namespace QuotedLisp.Workspace

/-- The scope that a scope was made under, dead or alive. -/
def madeUnder? (w : Workspace) (id : ScopeId) : Option ScopeId :=
  (w.links id).bind (·.1)

/-- `w.LiveChain id ids` says that `ids` are the scopes that are met from `id` on by following
links to parents that are alive. It ends at a scope without a parent or with one that is dead. -/
inductive LiveChain (w : Workspace) : ScopeId → List ScopeId → Prop where
  | last (id) :
      (∀ parent, w.madeUnder? id = some parent → w.isAlive parent = false) →
      LiveChain w id [id]
  | outward (id parent ids) :
      w.madeUnder? id = some parent → w.isAlive parent = true →
      LiveChain w parent ids → LiveChain w id (id :: ids)

/-- Frames were made under older scopes and offer no modules, and handles refer to scopes. -/
structure Orderly (w : Workspace) : Prop where
  frames : ∀ id parent modules, w.links id = some (some parent, modules) →
    parent < id ∧ modules = none
  handles : ∀ entry ∈ w.handles, entry.2 < w.scopes.length

variable {w : Workspace} {id parent : ScopeId} {ids : List ScopeId}

/-- A scope is alive if a handle refers to it. -/
theorem isAlive_iff : w.isAlive id = true ↔ ∃ entry ∈ w.handles, entry.2 = id := by
  simp [isAlive]

/-- The scope of a handle is alive. -/
theorem alive_of_find {handle : String} (h : w.find? handle = some id) :
    w.isAlive id = true := by
  obtain ⟨before, after, hhandles, -⟩ := List.lookup_eq_some_iff.mp h
  refine isAlive_iff.mpr ⟨(handle, id), ?_, rfl⟩
  rw [hhandles]
  exact List.mem_append_right _ List.mem_cons_self

/-- A scope that was made under another is a scope. -/
theorem lt_of_links {link : Option ScopeId × Option ModuleSource} (h : w.links id = some link) :
    id < w.scopes.length := by
  obtain ⟨record, hrecord, -⟩ := Option.map_eq_some_iff.mp h
  exact (List.getElem?_eq_some_iff.mp hrecord).1

/-- The link of a frame. -/
theorem madeUnder_eq_some : w.madeUnder? id = some parent ↔
    ∃ modules, w.links id = some (some parent, modules) := by
  unfold madeUnder?
  constructor
  · intro h
    obtain ⟨⟨made, modules⟩, hlinks, hmade⟩ := Option.bind_eq_some_iff.mp h
    cases hmade
    exact ⟨modules, hlinks⟩
  · rintro ⟨modules, hlinks⟩
    rw [hlinks]
    rfl

/-- Without a parent there are no ancestors. -/
theorem ancestors_of_no_parent (h : w.parentId? id = none) : w.ancestors id = [] := by
  rw [ancestors]
  split
  · rfl
  · rename_i parent hparent
    rw [h] at hparent
    cases hparent

/-- The ancestors are the parent and its own. -/
theorem ancestors_of_parent (h : w.parentId? id = some parent) :
    w.ancestors id = w.chain parent := by
  rw [ancestors]
  split
  · rename_i hparent
    rw [h] at hparent
    cases hparent
  · rename_i parent' hparent
    rw [h] at hparent
    cases hparent
    rfl

namespace Orderly

/-- A scope that is alive was made. -/
theorem lt_of_alive (h : w.Orderly) (halive : w.isAlive id = true) : id < w.scopes.length := by
  obtain ⟨entry, hentry, rfl⟩ := isAlive_iff.mp halive
  exact h.handles entry hentry

/-- The parent of a scope is what it was made under, if that is alive. -/
theorem parentId_eq_some (h : w.Orderly) :
    w.parentId? id = some parent ↔ w.madeUnder? id = some parent ∧ w.isAlive parent = true := by
  have hlink : w.scopes[id]?.bind (·.parent) = w.madeUnder? id := by
    unfold madeUnder? links
    cases w.scopes[id]? <;> rfl
  unfold parentId?
  rw [hlink, Option.filter_eq_some_iff, Bool.and_eq_true, decide_eq_true_eq]
  constructor
  · rintro ⟨hmade, -, halive⟩
    exact ⟨hmade, halive⟩
  · rintro ⟨hmade, halive⟩
    obtain ⟨modules, hlinks⟩ := madeUnder_eq_some.mp hmade
    exact ⟨hmade, (h.frames _ _ _ hlinks).1, halive⟩

/-- Following the links of a scope leads along its chain, and ends there. -/
theorem live_chain (h : w.Orderly) (id : ScopeId) : w.LiveChain id (w.chain id) := by
  cases hparent : w.parentId? id with
  | none =>
      rw [chain, ancestors_of_no_parent hparent]
      refine .last id ?_
      intro parent hmade
      cases halive : w.isAlive parent with
      | false => rfl
      | true =>
          rw [h.parentId_eq_some.mpr ⟨hmade, halive⟩] at hparent
          cases hparent
  | some parent =>
      rw [chain, ancestors_of_parent hparent]
      obtain ⟨hmade, halive⟩ := h.parentId_eq_some.mp hparent
      have hlt := parentId?_lt hparent
      exact .outward id parent _ hmade halive (h.live_chain parent)
termination_by id
decreasing_by exact hlt

end Orderly

namespace LiveChain

/-- There is one chain from a scope on. -/
theorem unique {others : List ScopeId} (h : w.LiveChain id ids) (h' : w.LiveChain id others) :
    ids = others := by
  induction h generalizing others with
  | last id hlast =>
      cases h' with
      | last => rfl
      | outward _ parent ids hmade halive =>
          rw [hlast parent hmade] at halive
          cases halive
  | outward id parent ids hmade halive _ ih =>
      cases h' with
      | last _ hlast =>
          rw [hlast parent hmade] at halive
          cases halive
      | outward _ parent' ids' hmade' _ hrest =>
          rw [hmade] at hmade'
          cases hmade'
          rw [ih hrest]

/-- From a scope that is alive on, only such scopes are met. -/
theorem alive (h : w.LiveChain id ids) (halive : w.isAlive id = true) :
    ∀ scope ∈ ids, w.isAlive scope = true := by
  induction h with
  | last id _ => exact List.forall_mem_singleton.mpr halive
  | outward id parent ids _ hparent _ ih => exact List.forall_mem_cons.mpr ⟨halive, ih hparent⟩

/-- Each scope that is met is older than those before it. -/
theorem descending (h : w.LiveChain id ids) (hw : w.Orderly) :
    (∀ scope ∈ ids, scope ≤ id) ∧ ids.Pairwise (· > ·) := by
  induction h with
  | last id _ =>
      exact ⟨List.forall_mem_singleton.mpr (Nat.le_refl id), List.pairwise_singleton _ id⟩
  | outward id parent ids hmade _ _ ih =>
      obtain ⟨modules, hlinks⟩ := madeUnder_eq_some.mp hmade
      have hlt := (hw.frames _ _ _ hlinks).1
      obtain ⟨hle, hpairwise⟩ := ih
      refine ⟨List.forall_mem_cons.mpr ⟨Nat.le_refl id, fun scope hscope => ?_⟩,
        List.pairwise_cons.mpr ⟨fun scope hscope => ?_, hpairwise⟩⟩
      · exact Nat.le_of_lt (Nat.lt_of_le_of_lt (hle scope hscope) hlt)
      · exact Nat.lt_of_le_of_lt (hle scope hscope) hlt

/-- What is met is the chain. -/
theorem chain_eq (h : w.LiveChain id ids) (hw : w.Orderly) : w.chain id = ids :=
  (hw.live_chain id).unique h

/-- The last scope that is met is the root of the chain. -/
theorem rootId_eq {nearer : List ScopeId} {root : ScopeId}
    (h : w.LiveChain id (nearer ++ [root])) (hw : w.Orderly) : w.rootId id = root := by
  have hchain := w.chain_eq id
  rw [h.chain_eq hw] at hchain
  exact (List.append_singleton_inj.mp hchain).2.symm

/-- Writing to a scope does not change what is met. -/
theorem setBindings (h : w.LiveChain id ids) (scope : ScopeId) (bindings : Bindings) :
    (w.setBindings scope bindings).LiveChain id ids := by
  have hmade (id : ScopeId) : (w.setBindings scope bindings).madeUnder? id = w.madeUnder? id := by
    unfold madeUnder?
    rw [links_setBindings]
  induction h with
  | last id hlast =>
      refine .last id fun parent hparent => hlast parent ?_
      rw [← hmade]
      exact hparent
  | outward id parent ids hparent halive _ ih =>
      exact .outward id parent ids ((hmade id).trans hparent) halive ih

end LiveChain

/-- Writing to a scope leaves a workspace in order. -/
theorem Orderly.setBindings (h : w.Orderly) (id : ScopeId) (bindings : Bindings) :
    (w.setBindings id bindings).Orderly := by
  constructor
  · intro other parent modules hlinks
    rw [links_setBindings] at hlinks
    exact h.frames other parent modules hlinks
  · show ∀ entry ∈ w.handles, entry.2 < (w.scopes.modify id _).length
    rw [List.length_modify]
    exact h.handles

/-- Of the scopes in the list, the nearest that binds the name gives it the value. -/
def Nearest (w : Workspace) (ids : List ScopeId) (name : Name) (v : Value) : Prop :=
  ∃ nearer scope farther, ids = nearer ++ scope :: farther ∧
    (w.bindings scope).get? name = some v ∧
    ∀ other ∈ nearer, (w.bindings other).get? name = none

/-- Between the two states a name was bound in one scope. All else is as it was: the other scopes,
the other names in that scope, all links and all handles. -/
structure BoundOnly (before after : Workspace) (id : ScopeId) (name : Name) (v : Value) :
    Prop where
  handles : after.handles = before.handles
  others : ∀ other, other ≠ id → after.scopes[other]? = before.scopes[other]?
  links : ∀ other, after.links other = before.links other
  bindings : ∀ other,
    (after.bindings id).get? other =
      if other = name then some v else (before.bindings id).get? other

/-- A scope that was made binds what is written to it. -/
theorem bindings_setBindings_self (h : id < w.scopes.length) (bindings : Bindings) :
    (w.setBindings id bindings).bindings id = bindings := by
  rw [Workspace.bindings, scopes_setBindings_self, List.getElem?_eq_getElem h]
  rfl

/-- A name is bound in a scope that was made. -/
theorem put_boundOnly (h : id < w.scopes.length) (name : Name) (v : Value) :
    w.BoundOnly (w.put id name v) id name v := by
  refine ⟨rfl, fun other hne => scopes_setBindings_of_ne (Ne.symm hne) _,
    fun other => w.links_setBindings id other _, ?_⟩
  intro other
  rw [put, bindings_setBindings_self h, Bindings.get?_set]

namespace LiveChain

variable {nearer : List ScopeId} {root : ScopeId}

/-- A name is looked up in the nearest scope that is met and binds it. -/
theorem get_eq_some (h : w.LiveChain id ids) (hw : w.Orderly) {name : Name} {v : Value} :
    w.get? id name = some v ↔ w.Nearest ids name v := by
  rw [get?, h.chain_eq hw]
  exact List.findSome?_eq_some_iff

/-- A name is defined in the last scope that is met. -/
theorem define_boundOnly (h : w.LiveChain id (nearer ++ [root])) (hw : w.Orderly)
    (halive : w.isAlive id = true) (name : Name) (v : Value) :
    w.BoundOnly (w.define id name v) root name v := by
  rw [define, h.rootId_eq hw]
  have hroot := h.alive halive root (List.mem_append_right _ (List.mem_singleton_self root))
  exact put_boundOnly (hw.lt_of_alive hroot) name v

/-- What was defined is found, unless a nearer scope binds the name too. -/
theorem get_define (h : w.LiveChain id (nearer ++ [root])) (hw : w.Orderly)
    (halive : w.isAlive id = true) (name : Name) (v : Value) :
    (w.define id name v).get? id name =
      (nearer.findSome? fun scope => (w.bindings scope).get? name).or (some v) := by
  have hroot := h.alive halive root (List.mem_append_right _ (List.mem_singleton_self root))
  rw [define, h.rootId_eq hw, put, get?,
    (h.setBindings root _).chain_eq (hw.setBindings root _), List.findSome?_append]
  congr 1
  · -- The scopes before the last are others than the last, so they bind what they did.
    have hpairwise := List.pairwise_append.mp (h.descending hw).2
    have hsame : nearer.map (w.setBindings root ((w.bindings root).set name v)).bindings =
        nearer.map w.bindings := by
      apply List.map_congr_left
      intro scope hscope
      have hlt := hpairwise.2.2 scope hscope root (List.mem_singleton_self root)
      exact bindings_setBindings_of_ne (Nat.ne_of_lt hlt) _
    have hlook (w : Workspace) : (nearer.findSome? fun scope => (w.bindings scope).get? name) =
        (nearer.map w.bindings).findSome? fun bindings => bindings.get? name :=
      List.findSome?_map.symm
    rw [hlook, hlook, hsame]
  · simp [bindings_setBindings_self (hw.lt_of_alive hroot), Bindings.get?_set]

end LiveChain

end QuotedLisp.Workspace
