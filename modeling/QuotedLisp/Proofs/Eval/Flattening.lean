import QuotedLisp.Eval.Session
import QuotedLisp.Proofs.Eval.Lockstep

/-!
# Flattened chains

The frames of a chain may be replaced by a single one in which each name has the value that it has
in the innermost of them, `Scopes.Flattened`. No code can tell the difference, `evalValue_flattened`:
names are looked up from the innermost frame outward, and nothing but the innermost frame and the
root is ever written to.
-/

namespace QuotedLisp

/-- A name is looked up in the first of two lists of entries, and then in the second. -/
theorem Bindings.get?_append (first second : Bindings) (name : Name) :
    get? (first ++ second) name = (get? first name).or (get? second name) :=
  List.lookup_append

namespace Scopes

/-- `Flattened k chain flat` says that the first chain has frames, `k` of them around the innermost
one, that the second has a single frame, in which each name has the value that it has in the
innermost frame of the first chain that binds it, and that the roots bind the same. -/
structure Flattened (k : Nat) (chain flat : Scopes) : Prop where
  frames : chain.frames.length = k + 1
  merged : ∃ frame, flat.frames = [frame] ∧
    ∀ name, frame.get? name = chain.frames.findSome? fun inner => inner.get? name
  root : ∀ name, flat.root.get? name = chain.root.get? name

variable {k : Nat} {chain flat : Scopes} {name : Name} {v : Value}

/-- The chain with the entries of all its frames in one, those of inner frames first. -/
def flatten (chain : Scopes) : Scopes :=
  ⟨[chain.frames.flatten], chain.root⟩

/-- Any chain with frames can be flattened. -/
theorem flattened_flatten (h : chain.frames.length = k + 1) :
    Flattened k chain chain.flatten := by
  refine ⟨h, ⟨_, rfl, fun name => ?_⟩, fun _ => rfl⟩
  induction chain.frames with
  | nil => rfl
  | cons frame outer ih =>
      rw [List.flatten_cons, Bindings.get?_append, ih, List.findSome?_cons]
      cases frame.get? name <;> rfl

namespace Flattened

/-- Names have the same values in both chains. -/
theorem get? (h : Flattened k chain flat) (name : Name) : flat.get? name = chain.get? name := by
  obtain ⟨frame, hflat, hmerged⟩ := h.merged
  unfold Scopes.get?
  rw [hflat, List.findSome?_singleton, hmerged, h.root]

/-- A name is bound in the root of both. -/
theorem define (h : Flattened k chain flat) :
    Flattened k (chain.define name v) (flat.define name v) := by
  refine ⟨h.frames, h.merged, fun other => ?_⟩
  show (flat.root.set name v).get? other = (chain.root.set name v).get? other
  rw [Bindings.get?_set, Bindings.get?_set, h.root]

/-- A name is bound in the single frame and in the innermost one, which hides the others. -/
theorem put (h : Flattened k chain flat) :
    Flattened k (chain.put name v) (flat.put name v) := by
  obtain ⟨frames, root⟩ := chain
  obtain ⟨flatFrames, flatRoot⟩ := flat
  obtain ⟨hlength, ⟨frame, hflat, hmerged⟩, hroot⟩ := h
  cases frames with
  | nil => cases hlength
  | cons inner outer =>
      obtain rfl : flatFrames = [frame] := hflat
      refine ⟨hlength, ⟨frame.set name v, rfl, fun other => ?_⟩, hroot⟩
      show (frame.set name v).get? other =
        (inner.set name v :: outer).findSome? fun scope => scope.get? other
      rw [Bindings.get?_set, hmerged, List.findSome?_cons, List.findSome?_cons, Bindings.get?_set]
      by_cases hname : other = name
      · rw [if_pos hname, if_pos hname]
      · rw [if_neg hname, if_neg hname]

end Flattened

/-- What code does in a chain it does in the flattened one. -/
theorem flattened_simulation (k : Nat) : Simulation (fun _ => True) (Flattened k) where
  lookup h _ := h.get? _
  found _ _ _ _ _ := trivial
  put h _ _ := h.put
  define h _ _ := h.define

end Scopes

/-- A chain with frames behaves as the flattened one: any value has the same result and prints the
same in both, or has no answer in either with the same allowance, and in the end the second chain is
again the first one flattened, with a root that binds the same. -/
theorem evalValue_flattened {k : Nat} {chain flat : World}
    (h : chain.InStep (Scopes.Flattened k) flat) (host : Host) (allowance : Nat) (v : Value) :
    Option.Rel (SameOutcome (Scopes.Flattened k))
      (chain.perform (evalValue (run host allowance) v))
      (flat.perform (evalValue (run host allowance) v)) := by
  have hhost : host.NamesIn fun _ => True := by
    intro modules name text statements _ _ _ v _ other _
    trivial
  exact (Scopes.flattened_simulation k).same_outcome hhost allowance (fun _ _ => trivial) h

/-- A world with two frames, of which the inner one hides a name of the outer. -/
def layered : World :=
  ⟨⟨[[("x", .string "inner")], [("x", .string "outer"), ("y", .string "far")]],
    Bindings.withBuiltins []⟩, ""⟩

/-- The world with its frames flattened. -/
def layeredFlat : World :=
  { layered with scopes := layered.scopes.flatten }

/-- Code that prints the name of the outer frame, hides it too, and defines the other name in the
root, under both frames. -/
def hidesMore : Value :=
  .list .round [.identifier "list",
    .list .round [.identifier "print", .identifier "y"],
    .list .round [.identifier "let", .quoted [.identifier "y"], .identifier "x"],
    .list .round [.identifier "def", .quoted [.identifier "x"], .string "root"],
    .list .round [.identifier "join", .identifier "x", .identifier "y"]]

/-- The flattened world shows the same and prints the same, and it ends as the two frames do with
the new binding in the inner one. -/
theorem evalValue_flattened_layered :
    layered.InStep (Scopes.Flattened 1) layeredFlat ∧
      ∃ after, layeredFlat.perform (evalValue (run ⟨none, none⟩ 2) hidesMore) =
          some (.ok (.quoted [.unit, .unit, .unit, .string "innerinner"]), after) ∧
        after.printed = "far\n" ∧
        Scopes.Flattened 1
          ⟨[[("x", .string "inner"), ("y", .string "inner")],
              [("x", .string "outer"), ("y", .string "far")]],
            (Bindings.withBuiltins []).set "x" (.string "root")⟩ after.scopes := by
  have hstep : layered.InStep (Scopes.Flattened 1) layeredFlat :=
    ⟨Scopes.flattened_flatten rfl, rfl⟩
  refine ⟨hstep, _, rfl, rfl, ?_⟩
  cases evalValue_flattened hstep ⟨none, none⟩ 2 hidesMore with
  | some h => exact h.worlds.scopes

end QuotedLisp
