import QuotedLisp.Scope.Chain

/-!
# Entries of scopes

What holds of every entry of a scope, that is of a name with the value that it is bound to, and what
holds of every entry of a chain (`Scopes.All`). It is kept when an entry is added of which it holds,
and then whatever a name stands for has come from such an entry.
-/

namespace QuotedLisp

namespace Bindings

/-- What holds of all entries of a scope holds of them after another was bound. -/
theorem forall_set {P : Name × Value → Prop} {bindings : Bindings}
    (h : ∀ entry ∈ bindings, P entry) {name : Name} {v : Value} (hentry : P (name, v)) :
    ∀ entry ∈ bindings.set name v, P entry := by
  induction bindings with
  | nil => exact List.forall_mem_singleton.mpr hentry
  | cons entry rest ih =>
      obtain ⟨hfirst, hrest⟩ := List.forall_mem_cons.mp h
      obtain ⟨bound, old⟩ := entry
      unfold set
      split
      · rename_i hname
        subst hname
        exact List.forall_mem_cons.mpr ⟨hentry, hrest⟩
      · exact List.forall_mem_cons.mpr ⟨hfirst, ih hrest⟩

/-- The same after several names were bound, one after the other. -/
theorem forall_setAll {P : Name × Value → Prop} {bindings : Bindings}
    (h : ∀ entry ∈ bindings, P entry) {entries : List (Name × Value)}
    (hentries : ∀ entry ∈ entries, P entry) : ∀ entry ∈ bindings.setAll entries, P entry := by
  induction entries generalizing bindings with
  | nil => exact h
  | cons entry rest ih =>
      obtain ⟨hentry, hrest⟩ := List.forall_mem_cons.mp hentries
      exact ih (forall_set h hentry) hrest

/-- A scope in which a name was bound is not empty. -/
theorem set_ne_nil (bindings : Bindings) (name : Name) (v : Value) : bindings.set name v ≠ [] := by
  cases bindings with
  | nil => exact List.cons_ne_nil _ _
  | cons entry rest =>
      obtain ⟨bound, old⟩ := entry
      unfold set
      split <;> exact List.cons_ne_nil _ _

/-- The value of a name is one of those that the scope binds. -/
theorem mem_of_get?_eq_some {bindings : Bindings} {name : Name} {v : Value}
    (h : bindings.get? name = some v) : (name, v) ∈ bindings := by
  induction bindings with
  | nil => cases h
  | cons entry rest ih =>
      obtain ⟨bound, old⟩ := entry
      rw [get?_cons] at h
      split at h
      · subst name
        cases h
        exact List.mem_cons_self
      · exact List.mem_cons_of_mem _ (ih h)

/-- Of several entries for a name the last is the one that a lookup finds. -/
theorem get?_setAll (bindings : Bindings) (entries : List (Name × Value)) (name : Name) :
    (bindings.setAll entries).get? name =
      (entries.reverse.lookup name).or (bindings.get? name) := by
  induction entries generalizing bindings with
  | nil => rfl
  | cons entry rest ih =>
      obtain ⟨bound, v⟩ := entry
      have hfirst : List.lookup name [(bound, v)] = if name = bound then some v else none :=
        get?_cons bound v [] name
      show ((bindings.set bound v).setAll rest).get? name = _
      rw [ih, get?_set, List.reverse_cons, List.lookup_append, Option.or_assoc, hfirst]
      split <;> rfl

end Bindings

namespace Scopes

/-- All entries of all scopes of a chain are as given. -/
structure All (P : Name × Value → Prop) (scopes : Scopes) : Prop where
  frames : ∀ frame ∈ scopes.frames, ∀ entry ∈ frame, P entry
  root : ∀ entry ∈ scopes.root, P entry

namespace All

variable {P : Name × Value → Prop} {scopes : Scopes}

/-- What holds of all entries may be weakened. -/
theorem mono {Q : Name × Value → Prop} (h : scopes.All P) (hQ : ∀ entry, P entry → Q entry) :
    scopes.All Q :=
  ⟨fun frame hframe entry hentry => hQ entry (h.frames frame hframe entry hentry),
    fun entry hentry => hQ entry (h.root entry hentry)⟩

/-- What a name stands for is the value of an entry for it. -/
theorem get? (h : scopes.All P) {name : Name} {v : Value} (hv : scopes.get? name = some v) :
    P (name, v) := by
  rcases Option.or_eq_some_iff.mp hv with hframe | ⟨-, hroot⟩
  · obtain ⟨frame, hmem, hframe⟩ := List.exists_of_findSome?_eq_some hframe
    exact h.frames frame hmem _ (Bindings.mem_of_get?_eq_some hframe)
  · exact h.root _ (Bindings.mem_of_get?_eq_some hroot)

/-- A new entry of the root. -/
theorem define (h : scopes.All P) {name : Name} {v : Value} (hentry : P (name, v)) :
    (scopes.define name v).All P :=
  ⟨h.frames, Bindings.forall_set h.root hentry⟩

/-- A frame of such entries on top. -/
theorem push (h : scopes.All P) {frame : Bindings} (hframe : ∀ entry ∈ frame, P entry) :
    (scopes.push frame).All P :=
  ⟨List.forall_mem_cons.mpr ⟨hframe, h.frames⟩, h.root⟩

/-- A new entry of the innermost scope. -/
theorem put (h : scopes.All P) {name : Name} {v : Value} (hentry : P (name, v)) :
    (scopes.put name v).All P := by
  obtain ⟨frames, root⟩ := scopes
  cases frames with
  | nil => exact h.define hentry
  | cons frame outer =>
      obtain ⟨hframe, houter⟩ := List.forall_mem_cons.mp h.frames
      exact ⟨List.forall_mem_cons.mpr ⟨Bindings.forall_set hframe hentry, houter⟩, h.root⟩

end All

end Scopes

end QuotedLisp
