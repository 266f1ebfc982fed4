import QuotedLisp.Eval.Session
import QuotedLisp.Proofs.Eval.Lockstep

/-!
# Unmentioned names

Names are looked up dynamically, and code may be built and evaluated at any time. Still no name is
ever made that was not there before: a name that neither the code nor anything in its scopes
mentions is never looked up and never bound. So a binding of such a name has no effect, in whatever
scope it stands, `evalValue_unmentioned`.
-/

namespace QuotedLisp

/-- The second scope binds a name that the first does not, and otherwise what the first binds. -/
structure Bindings.Gains (name : Name) (v : Value) (bindings other : Bindings) : Prop where
  unbound : bindings.get? name = none
  gained : ∀ key, other.get? key = if key = name then some v else bindings.get? key

/-- A new name is bound. -/
theorem Bindings.gains_set {name : Name} {v : Value} {bindings : Bindings}
    (h : bindings.get? name = none) : Gains name v bindings (bindings.set name v) :=
  ⟨h, fun key => get?_set bindings name key v⟩

/-- Another name is bound in both scopes. -/
theorem Bindings.Gains.set {name key : Name} {v u : Value} {bindings other : Bindings}
    (h : Gains name v bindings other) (hkey : key ≠ name) :
    Gains name v (bindings.set key u) (other.set key u) := by
  constructor
  · rw [get?_set, if_neg hkey.symm, h.unbound]
  · intro found
    rw [get?_set, get?_set, h.gained]
    by_cases hfound : found = name
    · subst hfound
      rw [if_neg hkey.symm, if_pos rfl, if_pos rfl]
    · rw [if_neg hfound, if_neg hfound]

namespace Scopes

/-- One scope of the second chain gains a binding and all others are as they are in the first. The
scopes are counted from the innermost, and the root comes after all frames. -/
inductive GainsAt (name : Name) (v : Value) : Nat → Scopes → Scopes → Prop where
  | frame (inner frame frame' outer root) : frame.Gains name v frame' →
      GainsAt name v inner.length ⟨inner ++ frame :: outer, root⟩ ⟨inner ++ frame' :: outer, root⟩
  | root (frames root root') : root.Gains name v root' →
      GainsAt name v frames.length ⟨frames, root⟩ ⟨frames, root'⟩

namespace GainsAt

variable {name key : Name} {v u : Value} {place : Nat} {scopes other : Scopes}

/-- Every other name has the same value in both. -/
theorem get? (h : GainsAt name v place scopes other) (hkey : key ≠ name) :
    other.get? key = scopes.get? key := by
  cases h with
  | frame inner frame frame' outer root h =>
      have hsame : frame'.get? key = frame.get? key := by rw [h.gained, if_neg hkey]
      unfold Scopes.get?
      rw [List.findSome?_append, List.findSome?_append, List.findSome?_cons, List.findSome?_cons,
        hsame]
  | root frames root root' h =>
      unfold Scopes.get?
      rw [h.gained, if_neg hkey]

/-- Another name is bound in the root of both. -/
theorem define (h : GainsAt name v place scopes other) (hkey : key ≠ name) :
    GainsAt name v place (scopes.define key u) (other.define key u) := by
  cases h with
  | frame inner frame frame' outer root h => exact .frame inner frame frame' outer _ h
  | root frames root root' h => exact .root frames _ _ (h.set hkey)

/-- Another name is bound in the innermost scope of both. -/
theorem put (h : GainsAt name v place scopes other) (hkey : key ≠ name) :
    GainsAt name v place (scopes.put key u) (other.put key u) := by
  cases h with
  | frame inner frame frame' outer root h =>
      cases inner with
      | nil => exact .frame [] _ _ outer root (h.set hkey)
      | cons first inner => exact .frame (first.set key u :: inner) frame frame' outer root h
  | root frames root root' h =>
      cases frames with
      | nil => exact .root [] _ _ (h.set hkey)
      | cons first outer => exact .root (first.set key u :: outer) root root' h

end GainsAt

/-- Code that does not mention the name, in scopes that do not, cannot tell that one of them has
gained a binding of it. -/
theorem gainsAt_simulation (name : Name) (v : Value) (place : Nat) :
    Simulation (· ≠ name)
      (fun scopes other => scopes.NamesIn (· ≠ name) ∧ GainsAt name v place scopes other) where
  lookup h hkey := h.2.get? hkey
  found h _ hu := (h.1.get? hu).2
  put h hkey hu := ⟨h.1.put ⟨hkey, hu⟩, h.2.put hkey⟩
  define h hkey hu := ⟨h.1.define ⟨hkey, hu⟩, h.2.define hkey⟩

end Scopes

/-- A binding that nobody mentions does not matter. Without modules, a value that does not mention
the name, evaluated in scopes that do not either, has the same result and prints the same if one of
the scopes gains a binding of the name, or in neither case an answer with the same allowance; and in
the end the scopes differ by that binding only. -/
theorem evalValue_unmentioned {host : Host} (hmodules : host.modules = none) {name : Name}
    {v : Value} (hv : ¬ v.Mentions name) {w other : World}
    (hscopes : w.scopes.All fun entry => entry.1 ≠ name ∧ ¬ entry.2.Mentions name) {u : Value}
    {place : Nat} (h : w.InStep (Scopes.GainsAt name u place) other) (allowance : Nat) :
    Option.Rel (SameOutcome (Scopes.GainsAt name u place))
      (w.perform (evalValue (run host allowance) v))
      (other.perform (evalValue (run host allowance) v)) := by
  have hhost : host.NamesIn (· ≠ name) := by
    intro modules _ _ _ hsome
    rw [hmodules] at hsome
    cases hsome
  have hnames : w.scopes.NamesIn (· ≠ name) :=
    hscopes.mono fun entry h => ⟨h.1, Value.namesIn_ne.mpr h.2⟩
  have hsame := (Scopes.gainsAt_simulation name u place).same_outcome hhost allowance
    (Value.namesIn_ne.mpr hv) ⟨⟨hnames, h.scopes⟩, h.printed⟩
  exact option_rel_mono hsame fun _ _ hsame => hsame.mono fun _ _ => And.right

/-- A world with one frame. -/
def oneFrame : World :=
  ⟨⟨[[("a", .string "near")]], Bindings.withBuiltins []⟩, ""⟩

/-- A value that mentions the name that it is going to be bound to. -/
def hidden : Value :=
  .quoted [.identifier "hidden"]

/-- The world with one more name in its root. -/
def oneFrameHidden : World :=
  { oneFrame with scopes := oneFrame.scopes.define "hidden" hidden }

/-- Code that calls a function with two parts of a definition, which it joins and evaluates. -/
def makesDefinition : Value :=
  .list .round [
    .list .round [.identifier "fn", .quoted [.identifier "p", .identifier "q"],
      .quoted [.identifier "eval",
        .list .round [.identifier "join", .identifier "p", .identifier "q"]]],
    .quoted [.identifier "def", .quoted [.identifier "b"]],
    .quoted [.identifier "a"]]

/-- The new name in the root neither keeps the definition from being made nor is it lost. -/
theorem evalValue_unmentioned_hidden :
    ¬ makesDefinition.Mentions "hidden" ∧
      (oneFrame.scopes.All fun entry => entry.1 ≠ "hidden" ∧ ¬ entry.2.Mentions "hidden") ∧
      oneFrame.InStep (Scopes.GainsAt "hidden" hidden 1) oneFrameHidden ∧
      ∃ after, oneFrameHidden.perform (evalValue (run ⟨none, none⟩ 4) makesDefinition) =
          some (.ok .unit, after) ∧
        Scopes.GainsAt "hidden" hidden 1 (oneFrame.scopes.define "b" (.string "near"))
          after.scopes := by
  have hcode : ¬ makesDefinition.Mentions "hidden" := by
    simp [← Value.namesIn_ne, makesDefinition, Value.namesIn_list, Value.namesIn_identifier]
  have hframe : ∀ entry ∈ [("a", Value.string "near")],
      entry.1 ≠ "hidden" ∧ ¬ entry.2.Mentions "hidden" := by
    simp [← Value.namesIn_ne, Value.namesIn_string]
  have hroot : ∀ entry ∈ Bindings.withBuiltins [],
      entry.1 ≠ "hidden" ∧ ¬ entry.2.Mentions "hidden" := by
    refine Bindings.forall_setAll nofun fun entry hentry => ?_
    obtain ⟨b, -, rfl⟩ := List.mem_map.mp hentry
    refine ⟨?_, Value.namesIn_ne.mp (Value.namesIn_builtin b)⟩
    cases b <;> decide
  have hscopes : oneFrame.scopes.All fun entry =>
      entry.1 ≠ "hidden" ∧ ¬ entry.2.Mentions "hidden" :=
    ⟨List.forall_mem_singleton.mpr hframe, hroot⟩
  have hstep : oneFrame.InStep (Scopes.GainsAt "hidden" hidden 1) oneFrameHidden :=
    ⟨.root oneFrame.scopes.frames _ _ (Bindings.gains_set rfl), rfl⟩
  have hmodules : (⟨none, none⟩ : Host).modules = none := rfl
  refine ⟨hcode, hscopes, hstep, _, rfl, ?_⟩
  cases evalValue_unmentioned hmodules hcode hscopes hstep 4 with
  | some h => exact h.worlds.scopes

end QuotedLisp
