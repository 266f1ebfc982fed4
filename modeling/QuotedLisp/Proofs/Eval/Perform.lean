import QuotedLisp.Eval.Run

/-!
# Performing evaluations

What each construct of an evaluation does to a world, `World.perform_bind` first of all, and how an
invariant of worlds is carried through them. `Evaluation.Ensures` is the triple that later proofs
build along an evaluation; `runItems_eq` reads the application of a list as the evaluation of its
items followed by `applyValues`.
-/

namespace QuotedLisp

variable {α β : Type}

namespace World

/-- The world with one more frame. -/
def push (w : World) (frame : Bindings) : World :=
  { w with scopes := w.scopes.push frame }

/-- The world without its innermost frame. -/
def pop (w : World) : World :=
  { w with scopes := w.scopes.pop }

/-- A result at hand leaves the world alone. -/
@[simp] theorem perform_pure (w : World) (a : α) : w.perform (pure a) = some (.ok a, w) := rfl

/-- A failure leaves the world alone. -/
@[simp] theorem perform_throw (w : World) (e : RuntimeError) :
    w.perform (throw e : Evaluation α) = some (.error e, w) := rfl

/-- A check leaves the world alone. -/
@[simp] theorem perform_ofExcept (w : World) (result : Except RuntimeError α) :
    w.perform (Evaluation.ofExcept result) = some (result, w) := rfl

/-- Where the allowance has run out there is no answer. -/
@[simp] theorem perform_exhausted (w : World) :
    w.perform (Evaluation.exhausted : Evaluation α) = none := rfl

/-- The second of two evaluations starts where the first has ended, if that has not failed. -/
theorem perform_bind (w : World) (x : Evaluation α) (f : α → Evaluation β) :
    w.perform (x >>= f) =
      match w.perform x with
      | none => none
      | some (.error e, after) => some (.error e, after)
      | some (.ok a, after) => after.perform (f a) := by
  show (w.perform x).bind _ = _
  cases w.perform x with
  | none => rfl
  | some outcome =>
      obtain ⟨result, after⟩ := outcome
      cases result <;> rfl

/-- After a result the second evaluation goes on. -/
theorem perform_bind_of_ok {w after : World} {x : Evaluation α} {a : α}
    (h : w.perform x = some (.ok a, after)) (f : α → Evaluation β) :
    w.perform (x >>= f) = after.perform (f a) := by
  rw [perform_bind, h]

/-- After a failure the second evaluation is left out. -/
theorem perform_bind_of_error {w after : World} {x : Evaluation α} {e : RuntimeError}
    (h : w.perform x = some (.error e, after)) (f : α → Evaluation β) :
    w.perform (x >>= f) = some (.error e, after) := by
  rw [perform_bind, h]

/-- If two evaluations in turn have an answer, either the first has failed, or it has a result
and the second has the answer. -/
theorem perform_bind_cases {w after : World} {x : Evaluation α} {f : α → Evaluation β}
    {result : Except RuntimeError β} (h : w.perform (x >>= f) = some (result, after)) :
    (∃ e, w.perform x = some (.error e, after) ∧ result = .error e) ∨
      ∃ a middle, w.perform x = some (.ok a, middle) ∧
        middle.perform (f a) = some (result, after) := by
  rw [perform_bind] at h
  split at h
  · cases h
  · rename_i e after' hx
    cases h
    exact .inl ⟨e, hx, rfl⟩
  · rename_i a middle hx
    exact .inr ⟨a, middle, hx, h⟩

/-- A check goes on with its result in the same world. -/
theorem perform_check (w : World) (result : Except RuntimeError α) (f : α → Evaluation β) :
    w.perform (Evaluation.ofExcept result >>= f) =
      match result with
      | .error e => some (.error e, w)
      | .ok a => w.perform (f a) := by
  cases result <;> rfl

/-- A name is looked up, and nothing changes. -/
theorem perform_lookup (w : World) (name : Name) :
    w.perform (Evaluation.lookup name) =
      match w.scopes.get? name with
      | some v => some (v.toResult, w)
      | none => some (.error (.unknownIdentifier name), w) := by
  show World.perform w (match w.scopes.get? name with
    | some v => Evaluation.ofExcept v.toResult
    | none => throw (.unknownIdentifier name)) = _
  cases w.scopes.get? name <;> rfl

/-- A name is bound in the innermost scope. -/
@[simp] theorem perform_put (w : World) (name : Name) (v : Value) :
    w.perform (Evaluation.put name v) =
      some (.ok (), { w with scopes := w.scopes.put name v }) := rfl

/-- A name is bound in the root. -/
@[simp] theorem perform_define (w : World) (name : Name) (v : Value) :
    w.perform (Evaluation.define name v) =
      some (.ok (), { w with scopes := w.scopes.define name v }) := rfl

/-- A text is printed. -/
@[simp] theorem perform_write (w : World) (text : String) :
    w.perform (Evaluation.write text) =
      some (.ok (), { w with printed := w.printed ++ text }) := rfl

/-- An evaluation in a frame of its own starts with the frame and ends without it. -/
theorem perform_inFrame (w : World) (frame : Bindings) (body : Evaluation α) :
    w.perform (Evaluation.inFrame frame body) =
      ((w.push frame).perform body).map fun outcome => (outcome.1, outcome.2.pop) := by
  simp only [perform, push, Evaluation.inFrame, ExceptT.run, ExceptT.mk, StateT.run]
  -- Both sides look at what the body comes to in the world with the frame.
  generalize body { w with scopes := w.scopes.push frame } = outcome
  cases outcome <;> rfl

end World

/-- The call of a closure fails if its arguments cannot be bound, runs its body if every formal has
its argument, and waits for the others if not. -/
theorem World.perform_call_closure (w : World) (host : Host) (run : Runner) (bound : Bindings)
    (formals : List Name) (b : Bracket) (body args : List Value) :
    w.perform (call host run (.closure bound formals b body) args) =
      match Closure.bindArguments bound formals args with
      | .error e => some (.error e, w)
      | .ok (frame, []) => w.perform (Evaluation.inFrame frame (run b body))
      | .ok (frame, formal :: waiting) =>
        some (.ok (.closure frame (formal :: waiting) b body), w) := by
  unfold call
  rw [perform_check]
  cases Closure.bindArguments bound formals args with
  | error e => rfl
  | ok binding =>
      obtain ⟨frame, waiting⟩ := binding
      cases waiting <;> rfl

/-- A source text that can be read is evaluated as its items are. -/
theorem World.withSource_of_read (w : World) {source : String} {items : List Value}
    (h : Value.ofSource source = .ok items) (evaluation : List Value → Evaluation Value) :
    w.withSource source evaluation =
      (w.perform (evaluation items)).map fun outcome =>
        (outcome.1.mapError Error.runtime, outcome.2) := by
  rw [withSource, h]

/-- A source text that has an answer either could not be read, or is answered as its items are. -/
theorem World.withSource_cases {w after : World} {source : String}
    {evaluation : List Value → Evaluation Value} {result : Except Error Value}
    (h : w.withSource source evaluation = some (result, after)) :
    (∃ e, Value.ofSource source = .error e ∧ result = .error e ∧ after = w) ∨
      ∃ items inner, Value.ofSource source = .ok items ∧
        w.perform (evaluation items) = some (inner, after) ∧
        result = inner.mapError Error.runtime := by
  cases hsource : Value.ofSource source with
  | error e =>
      rw [withSource, hsource] at h
      cases h
      exact .inl ⟨e, rfl, rfl, rfl⟩
  | ok items =>
      rw [withSource_of_read w hsource] at h
      obtain ⟨⟨inner, after'⟩, hperform, heq⟩ := Option.map_eq_some_iff.mp h
      cases heq
      exact .inr ⟨items, inner, rfl, hperform, rfl⟩

/-- What becomes of the evaluated items of a list: none are the list itself, one stands for itself,
and of several the first is called with the others. -/
def applyValues (host : Host) (run : Runner) (bracket : Bracket) : List Value → Evaluation Value
  | [] => pure (.list bracket [])
  | [v] => pure v
  | function :: args => call host run function args

/-- The items of a list are evaluated, and then the first is applied. -/
theorem runItems_eq (host : Host) (run : Runner) (bracket : Bracket) (items : List Value) :
    runItems host run bracket items =
      evalValues run items >>= applyValues host run bracket := by
  cases items with
  | nil => simp [runItems, evalValues, applyValues]
  | cons item rest =>
      simp only [runItems, evalValues, bind_assoc, pure_bind]
      refine bind_congr fun function => bind_congr fun args => ?_
      cases args <;> rfl

/-- A list of a single value is the evaluation of the value, whatever its bracket. -/
theorem run_singleton (host : Host) (allowance : Nat) (b : Bracket) (v : Value) :
    run host (allowance + 1) b [v] = evalValue (run host allowance) v := by
  show runItems host (run host allowance) b [v] = _
  simp [runItems, evalValues]

/-- With items the bracket of a list does not matter. -/
theorem run_bracket (host : Host) (allowance : Nat) (b b' : Bracket) {items : List Value}
    (h : items ≠ []) : run host allowance b items = run host allowance b' items := by
  cases allowance with
  | zero => rfl
  | succ allowance =>
      cases items with
      | nil => exact absurd rfl h
      | cons item rest => rfl

/-- A list of a name that stands for a builtin function and of a value that stands for itself is the
call of the function. -/
theorem World.perform_builtin {w : World} {b : Builtin}
    (hname : w.scopes.get? b.name = some (.builtin b)) {arg : Value}
    (harg : ∀ run, evalValue run arg = pure arg) (host : Host) (allowance : Nat)
    (bracket : Bracket) :
    w.perform (run host (allowance + 1) bracket [.identifier b.name, arg]) =
      w.perform (b.apply host (run host allowance) [arg]) := by
  have hfunction : w.perform (evalValue (run host allowance) (.identifier b.name)) =
      some (.ok (.builtin b), w) := by
    show w.perform (Evaluation.lookup b.name) = _
    rw [perform_lookup, hname]
    rfl
  have hargs : evalValues (run host allowance) [arg] = pure [arg] := by
    rw [evalValues, harg]
    rfl
  show w.perform (runItems host (run host allowance) bracket [.identifier b.name, arg]) = _
  rw [runItems, perform_bind_of_ok hfunction, hargs]
  rfl

/-- Several values are evaluated one part after the other. -/
theorem evalValues_append (run : Runner) (first second : List Value) :
    evalValues run (first ++ second) =
      evalValues run first >>= fun values =>
        evalValues run second >>= fun others => pure (values ++ others) := by
  induction first with
  | nil => simp [evalValues]
  | cons item first ih => simp [evalValues, ih]

/-- Each value has one result. -/
theorem World.evalValues_length {run : Runner} {items values : List Value} {w after : World}
    (h : w.perform (evalValues run items) = some (.ok values, after)) :
    values.length = items.length := by
  induction items generalizing w values with
  | nil =>
      cases h
      rfl
  | cons item rest ih =>
      rcases perform_bind_cases h with ⟨_, _, heq⟩ | ⟨v, middle, _, h⟩
      · cases heq
      · rcases perform_bind_cases h with ⟨_, _, heq⟩ | ⟨others, last, hrest, heq⟩
        · cases heq
        · cases heq
          exact congrArg (· + 1) (ih hrest)

/-- Statements are evaluated as values are, and their results dropped. -/
theorem evalStatements_eq (run : Runner) (statements : List Value) :
    evalStatements run statements = evalValues run statements >>= fun _ => pure .unit := by
  induction statements with
  | nil => simp [evalStatements, evalValues]
  | cons statement rest ih => simp [evalStatements, evalValues, ih]

/-- Statements are evaluated in two parts, the second if the first does not fail. -/
theorem evalStatements_append (run : Runner) (first second : List Value) :
    evalStatements run (first ++ second) =
      evalStatements run first >>= fun _ => evalStatements run second := by
  induction first with
  | nil => simp [evalStatements]
  | cons statement first ih => simp [evalStatements, ih]

/-- The evaluation of several values fails exactly where one of them fails after those before it
have been evaluated. -/
theorem World.perform_evalValues_error {run : Runner} {items : List Value} {e : RuntimeError}
    {w last : World} :
    w.perform (evalValues run items) = some (.error e, last) ↔
      ∃ earlier item later values middle, items = earlier ++ item :: later ∧
        w.perform (evalValues run earlier) = some (.ok values, middle) ∧
        middle.perform (evalValue run item) = some (.error e, last) := by
  constructor
  · intro h
    induction items generalizing w with
    | nil => cases h
    | cons item rest ih =>
        rcases perform_bind_cases h with ⟨_, hitem, heq⟩ | ⟨v, next, hitem, h⟩
        · cases heq
          exact ⟨[], item, rest, [], w, rfl, rfl, hitem⟩
        · rcases perform_bind_cases h with ⟨_, hrest, heq⟩ | ⟨_, _, _, h⟩
          · cases heq
            obtain ⟨earlier, failing, later, values, middle, rfl, hearlier, hfails⟩ := ih hrest
            refine ⟨item :: earlier, failing, later, v :: values, middle, rfl, ?_, hfails⟩
            rw [evalValues, perform_bind_of_ok hitem, perform_bind_of_ok hearlier, perform_pure]
          · cases h
  · rintro ⟨earlier, item, later, values, middle, rfl, hearlier, hfails⟩
    rw [evalValues_append, perform_bind_of_ok hearlier, evalValues, bind_assoc,
      perform_bind_of_error hfails]

/-- Binding forms and the like have no way to fail: each step leads to another world. -/
theorem World.perform_forM {f : β → Evaluation Unit} {step : World → β → World}
    (h : ∀ w entry, World.perform w (f entry) = some (.ok (), step w entry)) (w : World)
    (entries : List β) : w.perform (entries.forM f) = some (.ok (), entries.foldl step w) := by
  induction entries generalizing w with
  | nil => rfl
  | cons entry rest ih =>
      show w.perform (f entry >>= fun _ => rest.forM f) = _
      rw [perform_bind_of_ok (h w entry)]
      exact ih (step w entry)

/-- A binding form checks its arguments, and then takes the same step for each name. -/
theorem World.perform_binding {bind : Name → Value → Evaluation Unit}
    {step : World → Name × Value → World}
    (h : ∀ w entry, World.perform w (bind entry.1 entry.2) = some (.ok (), step w entry))
    (b : Builtin) (args : List Value) (w : World) :
    w.perform (b.binding bind args) =
      match b.pairs args with
      | .error e => some (.error e, w)
      | .ok entries => some (.ok .unit, entries.foldl step w) := by
  unfold Builtin.binding
  rw [perform_check]
  cases b.pairs args with
  | error e => rfl
  | ok entries => exact perform_bind_of_ok (perform_forM h w entries) _

namespace Evaluation

/-- From any world that satisfies the invariant, the evaluation leads to a world that satisfies it
again, and a result has the given property. -/
def Ensures (I : World → Prop) (evaluation : Evaluation α) (Q : α → Prop) : Prop :=
  ∀ w, I w → ∀ result after, w.perform evaluation = some (result, after) →
    I after ∧ ∀ a, result = .ok a → Q a

variable {I : World → Prop} {Q : α → Prop} {R : β → Prop}

/-- What a result at hand ensures. -/
theorem ensures_pure {a : α} (h : Q a) : Ensures I (pure a) Q := by
  intro w hw result after hperform
  rw [World.perform_pure] at hperform
  cases hperform
  refine ⟨hw, ?_⟩
  intro b hb
  cases hb
  exact h

/-- What a check ensures. -/
theorem ensures_ofExcept {result : Except RuntimeError α} (h : ∀ a, result = .ok a → Q a) :
    Ensures I (ofExcept result) Q := by
  intro w hw _ after hperform
  rw [World.perform_ofExcept] at hperform
  cases hperform
  exact ⟨hw, h⟩

/-- A failure ensures anything of its results, for there are none. -/
theorem ensures_throw {e : RuntimeError} : Ensures I (throw e : Evaluation α) Q := by
  intro w hw result after hperform
  rw [World.perform_throw] at hperform
  cases hperform
  exact ⟨hw, nofun⟩

/-- Without an answer anything is ensured. -/
theorem ensures_exhausted : Ensures I (exhausted : Evaluation α) Q := by
  intro w _ result after hperform
  rw [World.perform_exhausted] at hperform
  cases hperform

/-- Two evaluations in turn. -/
theorem Ensures.bind {x : Evaluation α} {f : α → Evaluation β} (hx : Ensures I x Q)
    (hf : ∀ a, Q a → Ensures I (f a) R) : Ensures I (x >>= f) R := by
  intro w hw result after hperform
  rcases World.perform_bind_cases hperform with ⟨e, hfailed, rfl⟩ | ⟨a, middle, hfirst, hsecond⟩
  · exact ⟨(hx w hw _ _ hfailed).1, nofun⟩
  · obtain ⟨hmiddle, hresult⟩ := hx w hw _ _ hfirst
    exact hf a (hresult a rfl) middle hmiddle _ _ hsecond

/-- A check before an evaluation. -/
theorem ensures_check {result : Except RuntimeError α} {f : α → Evaluation β}
    (h : ∀ a, result = .ok a → Ensures I (f a) R) : Ensures I (ofExcept result >>= f) R :=
  Ensures.bind (ensures_ofExcept fun _ ha => ha) h

/-- What is ensured of results may be weakened. -/
theorem Ensures.mono {x : Evaluation α} {Q' : α → Prop} (hx : Ensures I x Q)
    (h : ∀ a, Q a → Q' a) : Ensures I x Q' := by
  intro w hw result after hperform
  obtain ⟨hafter, hresult⟩ := hx w hw result after hperform
  exact ⟨hafter, fun a ha => h a (hresult a ha)⟩

/-- One evaluation for each member of a list. -/
theorem ensures_forM {entries : List β} {f : β → Evaluation Unit}
    (h : ∀ entry ∈ entries, Ensures I (f entry) fun _ => True) :
    Ensures I (entries.forM f) fun _ => True := by
  induction entries with
  | nil => exact ensures_pure trivial
  | cons entry rest ih =>
      obtain ⟨hentry, hrest⟩ := List.forall_mem_cons.mp h
      exact hentry.bind fun _ _ => ih hrest

variable {run : Runner} {P : Value → Prop}

/-- The evaluation of several values, of which each ensures the same. -/
theorem ensures_evalValues {items : List Value}
    (h : ∀ v ∈ items, Ensures I (evalValue run v) P) :
    Ensures I (evalValues run items) fun values => ∀ v ∈ values, P v := by
  induction items with
  | nil => exact ensures_pure (by simp)
  | cons item rest ih =>
      obtain ⟨hitem, hrest⟩ := List.forall_mem_cons.mp h
      refine hitem.bind fun v hv => (ih hrest).bind fun values hvalues => ensures_pure ?_
      exact List.forall_mem_cons.mpr ⟨hv, hvalues⟩

/-- The evaluation of statements, of which each keeps the invariant. -/
theorem ensures_evalStatements {statements : List Value}
    (h : ∀ v ∈ statements, Ensures I (evalValue run v) P) :
    Ensures I (evalStatements run statements) fun v => v = .unit := by
  rw [evalStatements_eq]
  exact (ensures_evalValues h).bind fun _ _ => ensures_pure rfl

end Evaluation

end QuotedLisp
