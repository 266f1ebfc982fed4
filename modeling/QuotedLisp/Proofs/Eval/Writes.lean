import QuotedLisp.Proofs.Eval.Perform

/-!
# Where evaluation writes

Evaluation binds names in the innermost scope and in the root and takes none away, `run_grows`; a
call of a closure binds names in the root only, `call_closure_root_grows`, as the scope that is
innermost for its body is gone when it ends.
-/

namespace QuotedLisp

namespace Bindings

/-- Every name that was bound is bound still. -/
def Grows (before after : Bindings) : Prop :=
  ∀ name, (before.get? name).isSome → (after.get? name).isSome

/-- Nothing has been taken away where nothing has changed. -/
theorem Grows.refl (bindings : Bindings) : bindings.Grows bindings := fun _ h => h

/-- What was kept twice was kept. -/
theorem Grows.trans {first second third : Bindings} (h : first.Grows second)
    (h' : second.Grows third) : first.Grows third := fun name hname => h' name (h name hname)

/-- Binding a name takes none away. -/
theorem Grows.set {before after : Bindings} (h : before.Grows after) (name : Name) (v : Value) :
    before.Grows (after.set name v) := by
  intro other hother
  rw [get?_set]
  split
  · rfl
  · exact h other hother

end Bindings

/-- Names may have been bound in the innermost frame, if there is one; the others are the same. -/
inductive FramesGrow : List Bindings → List Bindings → Prop where
  | none : FramesGrow [] []
  | innermost (frame frame' outer) : frame.Grows frame' → FramesGrow (frame :: outer)
      (frame' :: outer)

namespace FramesGrow

/-- Frames that have not changed. -/
theorem refl (frames : List Bindings) : FramesGrow frames frames := by
  cases frames with
  | nil => exact .none
  | cons frame outer => exact .innermost frame frame outer (.refl frame)

/-- Two changes in turn. -/
theorem trans {first second third : List Bindings} (h : FramesGrow first second)
    (h' : FramesGrow second third) : FramesGrow first third := by
  cases h with
  | none => exact h'
  | innermost frame frame' outer hframe =>
      cases h' with
      | innermost _ frame'' _ hframe' => exact .innermost frame frame'' outer (hframe.trans hframe')

/-- The number of frames is the same. -/
theorem length_eq {before after : List Bindings} (h : FramesGrow before after) :
    after.length = before.length := by
  cases h <;> rfl

end FramesGrow

namespace Scopes

/-- Names may have been bound in the innermost scope and in the root; nothing else has changed. -/
structure Grows (before after : Scopes) : Prop where
  frames : FramesGrow before.frames after.frames
  root : before.root.Grows after.root

/-- Names may have been bound in the root; nothing else has changed. -/
structure RootGrows (before after : Scopes) : Prop where
  frames : after.frames = before.frames
  root : before.root.Grows after.root

/-- Scopes that have not changed. -/
theorem Grows.refl (scopes : Scopes) : scopes.Grows scopes :=
  ⟨.refl _, .refl _⟩

/-- Two changes in turn. -/
theorem Grows.trans {first second third : Scopes} (h : first.Grows second)
    (h' : second.Grows third) : first.Grows third :=
  ⟨h.frames.trans h'.frames, h.root.trans h'.root⟩

/-- A change of the root is a change of the innermost scope and the root. -/
theorem RootGrows.grows {before after : Scopes} (h : before.RootGrows after) :
    before.Grows after :=
  ⟨h.frames ▸ .refl _, h.root⟩

/-- A name is bound in the root. -/
theorem grows_define (scopes : Scopes) (name : Name) (v : Value) :
    scopes.Grows (scopes.define name v) :=
  ⟨.refl _, (Bindings.Grows.refl scopes.root).set name v⟩

/-- A name is bound in the innermost scope. -/
theorem grows_put (scopes : Scopes) (name : Name) (v : Value) :
    scopes.Grows (scopes.put name v) := by
  obtain ⟨frames, root⟩ := scopes
  cases frames with
  | nil => exact grows_define _ name v
  | cons frame outer =>
      exact ⟨.innermost frame _ outer ((Bindings.Grows.refl frame).set name v), .refl root⟩

end Scopes

namespace Evaluation

variable {α β : Type}

/-- Wherever it is carried out, the evaluation binds names in the innermost scope and in the root
and does nothing else to the scopes. -/
def Grows (evaluation : Evaluation α) : Prop :=
  ∀ base : Scopes, Ensures (fun w => base.Grows w.scopes) evaluation fun _ => True

/-- The same as a relation between the scopes before and after. -/
theorem grows_iff {evaluation : Evaluation α} :
    evaluation.Grows ↔ ∀ (w : World) result after,
      w.perform evaluation = some (result, after) → w.scopes.Grows after.scopes := by
  constructor
  · intro h w result after hperform
    exact (h w.scopes w (.refl _) result after hperform).1
  · intro h base w hw result after hperform
    exact ⟨hw.trans (h w result after hperform), fun _ _ => trivial⟩

/-- A check changes no scopes. -/
theorem grows_ofExcept {result : Except RuntimeError α} : Grows (ofExcept result) :=
  fun _ => ensures_ofExcept fun _ _ => trivial

/-- A result at hand changes no scopes. -/
theorem grows_pure {a : α} : Grows (pure a) := fun _ => ensures_pure trivial

/-- A failure changes no scopes. -/
theorem grows_throw {e : RuntimeError} : Grows (throw e : Evaluation α) := fun _ => ensures_throw

/-- Two evaluations in turn. -/
theorem Grows.bind {x : Evaluation α} {f : α → Evaluation β} (hx : x.Grows)
    (hf : ∀ a, (f a).Grows) : (x >>= f).Grows :=
  fun base => (hx base).bind fun a _ => hf a base

/-- A look-up changes no scopes. -/
theorem grows_lookup (name : Name) : Grows (lookup name) := by
  rw [grows_iff]
  intro w result after hperform
  rw [World.perform_lookup] at hperform
  split at hperform <;> cases hperform <;> exact .refl _

/-- A frame of its own keeps an evaluation from all scopes but the root. -/
theorem inFrame_root_grows {body : Evaluation α} (h : body.Grows) {frame : Bindings}
    {w after : World} {result : Except RuntimeError α}
    (hperform : w.perform (inFrame frame body) = some (result, after)) :
    w.scopes.RootGrows after.scopes := by
  rw [World.perform_inFrame] at hperform
  obtain ⟨⟨result', inner⟩, hbody, heq⟩ := Option.map_eq_some_iff.mp hperform
  cases heq
  obtain ⟨hframes, hroot⟩ := grows_iff.mp h _ _ _ hbody
  refine ⟨?_, hroot⟩
  -- Popping takes off the frame that was pushed, whatever the body has bound in it.
  show inner.scopes.frames.tail = w.scopes.frames
  have hpushed : FramesGrow (frame :: w.scopes.frames) inner.scopes.frames := hframes
  generalize inner.scopes.frames = frames at hpushed
  cases hpushed
  rfl

end Evaluation

open Evaluation

section

variable {host : Host} {run : Runner}

/-- Evaluating a value, if running a list does. -/
theorem evalValue_grows (hrun : ∀ b items, (run b items).Grows) (v : Value) :
    (evalValue run v).Grows := by
  cases v with
  | identifier name => exact grows_lookup name
  | list b items =>
      cases b with
      | round => exact hrun .round items
      | curly => exact grows_ofExcept
  | number | string | builtin | closure | error => exact grows_ofExcept

/-- Evaluating several values, if running a list does. -/
theorem evalValues_grows (hrun : ∀ b items, (run b items).Grows) (items : List Value) :
    (evalValues run items).Grows := by
  intro base
  exact (ensures_evalValues fun v _ => evalValue_grows hrun v base).mono fun _ _ => trivial

/-- Evaluating statements, if running a list does. -/
theorem evalStatements_grows (hrun : ∀ b items, (run b items).Grows) (statements : List Value) :
    (evalStatements run statements).Grows := by
  rw [evalStatements_eq]
  exact (evalValues_grows hrun statements).bind fun _ => grows_pure

/-- Binding several names. -/
theorem binding_grows (b : Builtin) {bind : Name → Value → Evaluation Unit}
    (hbind : ∀ name v, (bind name v).Grows) (args : List Value) : (b.binding bind args).Grows := by
  refine grows_ofExcept.bind fun entries => ?_
  have hentries : Grows (entries.forM fun entry => bind entry.1 entry.2) :=
    fun base => ensures_forM fun entry _ => hbind entry.1 entry.2 base
  exact hentries.bind fun _ => grows_pure

/-- Calling a builtin function, if running a list does. -/
theorem apply_grows (hrun : ∀ b items, (run b items).Grows) (b : Builtin) (args : List Value) :
    (b.apply host run args).Grows := by
  cases b with
  | list => exact grows_pure
  | eval =>
      show (Builtin.evaluation run args).Grows
      unfold Builtin.evaluation
      split
      · exact hrun _ _
      · exact evalValue_grows hrun _
      · exact grows_throw
  | define =>
      refine binding_grows _ (fun name v => grows_iff.mpr ?_) args
      intro w result after hperform
      rw [World.perform_define] at hperform
      cases hperform
      exact Scopes.grows_define _ _ _
  | put =>
      refine binding_grows _ (fun name v => grows_iff.mpr ?_) args
      intro w result after hperform
      rw [World.perform_put] at hperform
      cases hperform
      exact Scopes.grows_put _ _ _
  | branch =>
      show (Builtin.choice run args).Grows
      unfold Builtin.choice
      split
      · exact grows_ofExcept.bind fun _ => grows_ofExcept.bind fun _ =>
          grows_ofExcept.bind fun _ => hrun _ _
      · exact grows_throw
  | load =>
      show (Builtin.inclusion host run args).Grows
      unfold Builtin.inclusion
      split
      · refine grows_ofExcept.bind fun name => ?_
        split
        · exact grows_pure
        · split
          · exact grows_throw
          · exact grows_pure
          · split
            · exact grows_throw
            · exact evalStatements_grows hrun _
      · exact grows_throw
  | print =>
      show (Builtin.output host args).Grows
      unfold Builtin.output
      split
      · exact grows_throw
      · refine Grows.bind (grows_iff.mpr ?_) fun _ => grows_pure
        intro w result after hperform
        rw [World.perform_write] at hperform
        cases hperform
        exact .refl _
  | add | subtract | multiply | divide | modulo | less | lessEqual | greater | greaterEqual
  | equal | head | tail | join | lambda | raise => exact grows_ofExcept

/-- Calling a closure binds names in no scope but the root, if running a list does as it should. -/
theorem call_closure_root_grows (hrun : ∀ b items, (run b items).Grows) {bound : Bindings}
    {formals : List Name} {b : Bracket} {body args : List Value} {w after : World}
    {result : Except RuntimeError Value}
    (h : w.perform (call host run (.closure bound formals b body) args) = some (result, after)) :
    w.scopes.RootGrows after.scopes := by
  rw [World.perform_call_closure] at h
  split at h
  · cases h
    exact ⟨rfl, .refl _⟩
  · exact inFrame_root_grows (hrun b body) h
  · cases h
    exact ⟨rfl, .refl _⟩

/-- Calling a function, if running a list does. -/
theorem call_grows (hrun : ∀ b items, (run b items).Grows) (function : Value)
    (args : List Value) : (call host run function args).Grows := by
  cases function with
  | builtin b => exact apply_grows hrun b args
  | closure bound formals b body =>
      rw [grows_iff]
      intro w result after hperform
      exact (call_closure_root_grows hrun hperform).grows
  | number | string | identifier | list | error => exact grows_throw

/-- Running a list, if running the lists inside it does. -/
theorem runItems_grows (hrun : ∀ b items, (run b items).Grows) (b : Bracket)
    (items : List Value) : (runItems host run b items).Grows := by
  rw [runItems_eq]
  refine (evalValues_grows hrun items).bind fun values => ?_
  unfold applyValues
  split
  · exact grows_pure
  · exact grows_pure
  · exact call_grows hrun _ _

end

/-- Running a list binds names in the innermost scope and in the root, and does nothing else to
the scopes. -/
theorem run_grows (host : Host) (allowance : Nat) (b : Bracket) (items : List Value) :
    (run host allowance b items).Grows := by
  induction allowance generalizing b items with
  | zero => exact fun _ => ensures_exhausted
  | succ allowance ih => exact runItems_grows ih b items

end QuotedLisp
