import QuotedLisp.Proofs.Scope.LiveChain
import QuotedLisp.Scope.Operation

/-!
# Histories of handles

What holds of a workspace after any operations on handles. Every operation leaves an orderly
workspace, and none revives a scope or changes what it was made under; see `apply_keeps`. So what
the chain of a scope means holds after every history, and a frame that has lost its parent stays the
end of its own chain. The results are assembled in `history_scopes`.
-/

namespace QuotedLisp.Workspace

/-- What is not taken back: scopes that were made, their links, and the death of a scope. -/
structure Later (before after : Workspace) : Prop where
  scopes : before.scopes.length ≤ after.scopes.length
  links : ∀ id < before.scopes.length, after.links id = before.links id
  dead : ∀ id < before.scopes.length, before.isAlive id = false → after.isAlive id = false

variable {w : Workspace} {id parent : ScopeId}

/-- The handles that are left when one is forgotten refer to scopes that are alive. -/
theorem alive_of_mem_drop {handle : String} {entry : String × ScopeId}
    (h : entry ∈ (w.drop handle).handles) : w.isAlive entry.2 = true :=
  isAlive_iff.mpr ⟨entry, (List.mem_filter.mp h).1, rfl⟩

/-- A dead scope stays dead, if a handle on it afterwards would mean that it was alive. -/
theorem dead_of_handles {after : Workspace}
    (h : ∀ entry ∈ after.handles, entry.2 = id → w.isAlive id = true)
    (hdead : w.isAlive id = false) : after.isAlive id = false := by
  apply Bool.eq_false_iff.mpr
  intro halive
  obtain ⟨entry, hentry, hid⟩ := isAlive_iff.mp halive
  rw [h entry hentry hid] at hdead
  cases hdead

namespace Later

/-- Nothing is taken back where nothing happens. -/
theorem refl (w : Workspace) : w.Later w :=
  ⟨Nat.le_refl _, fun _ _ => rfl, fun _ _ h => h⟩

/-- What two changes in turn do not take back. -/
theorem trans {first second third : Workspace} (h : first.Later second)
    (h' : second.Later third) : first.Later third := by
  refine ⟨Nat.le_trans h.scopes h'.scopes, ?_, ?_⟩
  · intro id hid
    rw [h'.links id (Nat.lt_of_lt_of_le hid h.scopes), h.links id hid]
  · intro id hid hdead
    exact h'.dead id (Nat.lt_of_lt_of_le hid h.scopes) (h.dead id hid hdead)

end Later

/-- The change leads to an orderly workspace again, and takes nothing back. -/
abbrev Keeps (before after : Workspace) : Prop :=
  after.Orderly ∧ before.Later after

namespace Orderly

/-- Other handles on scopes that are alive. -/
theorem refer (h : w.Orderly) {handles : List (String × ScopeId)}
    (hhandles : ∀ entry ∈ handles, w.isAlive entry.2 = true) :
    w.Keeps { w with handles := handles } := by
  refine ⟨⟨h.frames, fun entry hentry => h.lt_of_alive (hhandles entry hentry)⟩,
    ⟨Nat.le_refl _, fun _ _ => rfl, ?_⟩⟩
  refine fun id _ => dead_of_handles ?_
  rintro entry hentry rfl
  exact hhandles entry hentry

/-- A handle is forgotten. -/
theorem drop (h : w.Orderly) (handle : String) : w.Keeps (w.drop handle) :=
  h.refer fun _ hentry => alive_of_mem_drop hentry

/-- A handle is made on a scope that is alive. -/
theorem hold (h : w.Orderly) (handle : String) (halive : w.isAlive id = true) :
    w.Keeps (w.hold handle id) :=
  h.refer (List.forall_mem_cons.mpr ⟨halive, fun _ hentry => alive_of_mem_drop hentry⟩)

/-- A scope is made, a root or a frame under a scope that was made before. -/
theorem add (h : w.Orderly) (handle : String) {record : ScopeRecord}
    (hrecord : ∀ parent, record.parent = some parent →
      parent < w.scopes.length ∧ record.modules = none) :
    w.Keeps (w.add handle record) := by
  have hold (id : ScopeId) (hid : id < w.scopes.length) :
      (w.add handle record).links id = w.links id := by
    show (w.scopes ++ [record])[id]?.map _ = _
    rw [List.getElem?_append_left hid, links]
  have hnew : (w.add handle record).links w.scopes.length =
      some (record.parent, record.modules) := by
    show (w.scopes ++ [record])[w.scopes.length]?.map _ = _
    rw [List.getElem?_concat_length]
    rfl
  have hlength : (w.add handle record).scopes.length = w.scopes.length + 1 :=
    List.length_append
  refine ⟨⟨?_, ?_⟩, ⟨Nat.le_of_lt (hlength ▸ Nat.lt_succ_self _), hold, ?_⟩⟩
  · intro id parent modules hlinks
    have hid := lt_of_links hlinks
    rw [hlength] at hid
    rcases Nat.lt_succ_iff_lt_or_eq.mp hid with hid | rfl
    · rw [hold id hid] at hlinks
      exact h.frames id parent modules hlinks
    · rw [hnew] at hlinks
      cases record
      cases hlinks
      exact hrecord parent rfl
  · rw [hlength]
    refine List.forall_mem_cons.mpr ⟨Nat.lt_succ_self _, fun entry hentry => ?_⟩
    exact Nat.lt_succ_of_lt (h.lt_of_alive (alive_of_mem_drop hentry))
  · refine fun id hid => dead_of_handles ?_
    rintro entry hentry rfl
    rcases List.mem_cons.mp hentry with rfl | hentry
    · exact absurd hid (Nat.lt_irrefl _)
    · exact alive_of_mem_drop hentry

/-- A scope is written to. -/
theorem write (h : w.Orderly) (id : ScopeId) (bindings : Bindings) :
    w.Keeps (w.setBindings id bindings) := by
  refine ⟨h.setBindings id bindings, ⟨Nat.le_of_eq ?_,
    fun other _ => w.links_setBindings id other _, fun _ _ hdead => hdead⟩⟩
  exact (List.length_modify ..).symm

/-- A change to the scope of a handle, if it keeps what it should for scopes that are alive. -/
theorem withHandle (h : w.Orderly) (handle : String) {change : ScopeId → Workspace}
    (hchange : ∀ id, w.isAlive id = true → w.Keeps (change id)) :
    w.Keeps (w.withHandle handle change) := by
  unfold Workspace.withHandle
  cases hfind : w.find? handle with
  | none => exact ⟨h, .refl w⟩
  | some id => exact hchange id (alive_of_find hfind)

end Orderly

/-- Every operation keeps a workspace orderly, and takes nothing back. -/
theorem apply_keeps (h : w.Orderly) (operation : Operation) : w.Keeps (w.apply operation) := by
  cases operation with
  | addRoot handle modules => exact h.add handle nofun
  | addFrame outer handle bindings =>
      refine h.withHandle outer fun id halive => h.add handle ?_
      intro parent hparent
      cases hparent
      exact ⟨h.lt_of_alive halive, rfl⟩
  | put handle name v => exact h.withHandle handle fun id _ => h.write id _
  | define handle name v => exact h.withHandle handle fun id _ => h.write (w.rootId id) _
  | holdParent inner handle =>
      refine h.withHandle inner fun id _ => ?_
      split
      · exact ⟨h, .refl w⟩
      · rename_i parent hparent
        exact h.hold handle (h.parentId_eq_some.mp hparent).2
  | holdRoot inner handle =>
      refine h.withHandle inner fun id halive => h.hold handle ?_
      exact (h.live_chain id).alive halive _ (w.rootId_mem_chain id)
  | drop handle => exact h.drop handle

/-- The same for operations in turn. -/
theorem applyAll_keeps (h : w.Orderly) (operations : List Operation) :
    w.Keeps (w.applyAll operations) := by
  induction operations generalizing w with
  | nil => exact ⟨h, .refl w⟩
  | cons operation rest ih =>
      obtain ⟨horderly, hlater⟩ := apply_keeps h operation
      obtain ⟨hlast, hrest⟩ := ih horderly
      exact ⟨hlast, hlater.trans hrest⟩

/-- Where there are no scopes, there is nothing out of order. -/
theorem empty_orderly : empty.Orderly :=
  ⟨nofun, nofun⟩

/-- The handle of a scope works on the scopes that are met from there on. A name is looked up in
the nearest that binds it, bound in the scope itself, and defined in the last, where it is found if
no nearer scope binds it. -/
structure WorksOn (w : Workspace) (handle : String) (id : ScopeId) (ids : List ScopeId) :
    Prop where
  get : ∀ name v, w.get? id name = some v ↔ w.Nearest ids name v
  put : ∀ name v, w.BoundOnly (w.apply (.put handle name v)) id name v
  define : ∀ nearer root, ids = nearer ++ [root] → ∀ name v,
    w.BoundOnly (w.apply (.define handle name v)) root name v ∧
      (w.apply (.define handle name v)).get? id name =
        (nearer.findSome? fun scope => (w.bindings scope).get? name).or (some v)

/-- The scope has no parent and is the root of its own chain: names are looked up and defined in
it alone, and there are no modules. -/
structure OwnRoot (w : Workspace) (id : ScopeId) : Prop where
  parent : w.parentId? id = none
  holdParent : ∀ inner handle, w.find? inner = some id → w.apply (.holdParent inner handle) = w
  root : w.rootId id = id
  get : ∀ name, w.get? id name = (w.bindings id).get? name
  define : ∀ name v, w.define id name v = w.put id name v
  modules : w.modules id = none

/-- In an orderly workspace a handle works on the chain of its scope. -/
theorem works_on (h : w.Orderly) {handle : String} {ids : List ScopeId}
    (hfind : w.find? handle = some id) (hchain : w.LiveChain id ids) :
    w.WorksOn handle id ids := by
  have halive := alive_of_find hfind
  have happly (change : ScopeId → Workspace) : w.withHandle handle change = change id := by
    rw [withHandle, hfind]
  refine ⟨fun name v => hchain.get_eq_some h, ?_, ?_⟩
  · intro name v
    show w.BoundOnly (w.withHandle handle _) id name v
    rw [happly]
    exact put_boundOnly (h.lt_of_alive halive) name v
  · rintro nearer root rfl name v
    show w.BoundOnly (w.withHandle handle _) root name v ∧ (w.withHandle handle _).get? id name = _
    rw [happly]
    exact ⟨hchain.define_boundOnly h halive name v, hchain.get_define h halive name v⟩

/-- A frame whose parent is dead is its own root. -/
theorem own_root (h : w.Orderly) (hmade : w.madeUnder? id = some parent)
    (hdead : w.isAlive parent = false) : w.OwnRoot id := by
  have hparent : w.parentId? id = none := by
    cases hfound : w.parentId? id with
    | none => rfl
    | some parent' =>
        obtain ⟨hmade', halive⟩ := h.parentId_eq_some.mp hfound
        rw [hmade] at hmade'
        cases hmade'
        rw [hdead] at halive
        cases halive
  have hroot : w.rootId id = id := by
    rw [rootId, ancestors_of_no_parent hparent]
    rfl
  refine ⟨hparent, ?_, hroot, ?_, ?_, ?_⟩
  · intro inner handle hfind
    show w.withHandle inner _ = w
    rw [withHandle, hfind]
    simp only [hparent]
  · intro name
    rw [get?, chain, ancestors_of_no_parent hparent]
    cases hlook : (w.bindings id).get? name <;> simp [hlook]
  · intro name v
    rw [define, hroot]
  · obtain ⟨modules, hlinks⟩ := madeUnder_eq_some.mp hmade
    obtain ⟨-, rfl⟩ := h.frames _ _ _ hlinks
    obtain ⟨record, hrecord, hlink⟩ := Option.map_eq_some_iff.mp hlinks
    rw [Workspace.modules, hroot, hrecord]
    exact congrArg Prod.snd hlink

/-- After any operations on handles, following the links of a scope to living parents comes to an
end, in one way; every handle works on the scopes that are met so; and a frame whose parent has died
is its own root from then on, whatever operations come later. -/
theorem history_scopes (earlier : List Operation) :
    (∀ id, ∃ ids, (empty.applyAll earlier).LiveChain id ids ∧
      ∀ others, (empty.applyAll earlier).LiveChain id others → others = ids) ∧
    (∀ handle id ids, (empty.applyAll earlier).find? handle = some id →
      (empty.applyAll earlier).LiveChain id ids →
      (empty.applyAll earlier).WorksOn handle id ids) ∧
    ∀ id parent, (empty.applyAll earlier).madeUnder? id = some parent →
      (empty.applyAll earlier).isAlive parent = false →
      ∀ later, ((empty.applyAll earlier).applyAll later).OwnRoot id := by
  have horderly := (applyAll_keeps empty_orderly earlier).1
  refine ⟨fun id => ?_, fun handle id ids hfind hchain => works_on horderly hfind hchain, ?_⟩
  · exact ⟨_, horderly.live_chain id, fun others hothers => hothers.unique (horderly.live_chain id)⟩
  · intro id parent hmade hdead later
    obtain ⟨hlast, hlater⟩ := applyAll_keeps horderly later
    obtain ⟨modules, hlinks⟩ := madeUnder_eq_some.mp hmade
    have hid := lt_of_links hlinks
    have hparent := Nat.lt_trans (horderly.frames _ _ _ hlinks).1 hid
    refine own_root hlast (madeUnder_eq_some.mpr ⟨modules, ?_⟩) (hlater.dead parent hparent hdead)
    rw [hlater.links id hid, hlinks]

/-- A frame in a frame in a root, of which the middle one is dropped. -/
def orphaning : List Operation :=
  [.addRoot "root" none, .put "root" "x" (.number .one), .addFrame "root" "outer" [],
    .addFrame "outer" "inner" [("y", .string "own")], .drop "outer"]

/-- The inner frame does not see the root, which is alive, and will never see it again; what is
defined there stays there. -/
theorem history_scopes_orphaning :
    (empty.applyAll orphaning).isAlive 0 = true ∧
      (empty.applyAll orphaning).find? "inner" = some 2 ∧
      (∃ ids, (empty.applyAll orphaning).LiveChain 2 ids ∧
        (empty.applyAll orphaning).WorksOn "inner" 2 ids) ∧
      ∀ later, ((empty.applyAll orphaning).applyAll later).OwnRoot 2 := by
  obtain ⟨hends, hworks, horphans⟩ := history_scopes orphaning
  obtain ⟨ids, hchain, -⟩ := hends 2
  exact ⟨by decide, by decide, ⟨ids, hchain, hworks "inner" 2 ids (by decide) hchain⟩,
    horphans 2 1 rfl (by decide)⟩

end QuotedLisp.Workspace
