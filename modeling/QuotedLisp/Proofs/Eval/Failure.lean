import QuotedLisp.Proofs.Eval.Arguments
import QuotedLisp.Proofs.Eval.Errors
import QuotedLisp.Proofs.Eval.Writes
import QuotedLisp.Proofs.Value.Regular

/-!
# Failures end runs

A run makes other runs: of the items of a list, of the body of a closure, of the code that is given
to a builtin function, of the statements of a module. `Starts` says which run starts which, and
`During` which runs are made during a run. A failure of any of them is the failure of the whole,
and nothing that outlives the whole changes after it; see `failure_ends_run`. A failure begins in a
run that refuses to go on where it stands: `Moment.Refuses` lists what such a run was asked for,
and the errors that it may refuse with.
-/

namespace QuotedLisp

/-- What the evaluator can be asked for: the evaluation of a value, of a list as an application,
of a call, or of statements. -/
inductive Request where
  | value (v : Value)
  | application (bracket : Bracket) (items : List Value)
  | call (function : Value) (args : List Value)
  | sequence (statements : List Value)

/-- The beginning of a run: the request, the allowance for it, and the world as it is. -/
structure Moment where
  request : Request
  allowance : Nat
  world : World

/-- The evaluation that a request asks for. -/
def Request.evaluation (host : Host) (allowance : Nat) : Request → Evaluation Value
  | .value v => evalValue (run host allowance) v
  | .application bracket items => run host allowance bracket items
  | .call function args => QuotedLisp.call host (run host allowance) function args
  | .sequence statements => evalStatements (run host allowance) statements

/-- What the run from a moment on comes to. -/
def Moment.outcome (host : Host) (m : Moment) : Option (Except RuntimeError Value × World) :=
  m.world.perform (m.request.evaluation host m.allowance)

/-- The run from a moment on fails with the error, and the world is as given then. -/
abbrev Moment.Fails (host : Host) (m : Moment) (e : RuntimeError) (last : World) : Prop :=
  m.outcome host = some (.error e, last)

/-- `Starts host m m'` says that the run from `m` on makes the run from `m'` on, and waits for it.
What comes before it in the same list has been evaluated by then. -/
inductive Starts (host : Host) : Moment → Moment → Prop where
  | list (items allowance w) :
      Starts host ⟨.value (.list .round items), allowance, w⟩
        ⟨.application .round items, allowance, w⟩
  | item (b earlier item later allowance w middle values) :
      w.perform (evalValues (run host allowance) earlier) = some (.ok values, middle) →
      Starts host ⟨.application b (earlier ++ item :: later), allowance + 1, w⟩
        ⟨.value item, allowance, middle⟩
  | call (b items function arg args allowance w middle) :
      w.perform (evalValues (run host allowance) items) =
        some (.ok (function :: arg :: args), middle) →
      Starts host ⟨.application b items, allowance + 1, w⟩
        ⟨.call function (arg :: args), allowance, middle⟩
  | body (bound formals b body args frame allowance w) :
      Closure.bindArguments bound formals args = .ok (frame, []) →
      Starts host ⟨.call (.closure bound formals b body) args, allowance, w⟩
        ⟨.application b body, allowance, w.push frame⟩
  | evalList (b items allowance w) :
      Starts host ⟨.call (.builtin .eval) [.list b items], allowance, w⟩
        ⟨.application b items, allowance, w⟩
  | evalOther (v allowance w) :
      (∀ b items, v ≠ .list b items) →
      Starts host ⟨.call (.builtin .eval) [v], allowance, w⟩ ⟨.value v, allowance, w⟩
  | branch (x yes no allowance w) :
      Starts host ⟨.call (.builtin .branch) [.number x, .quoted yes, .quoted no], allowance, w⟩
        ⟨.application .curly (if x.isZero then no else yes), allowance, w⟩
  | module (source name text statements allowance w) :
      host.modules = some source → source.read name = .ok (some text) →
      Value.ofSource text = .ok statements →
      Starts host ⟨.call (.builtin .load) [.string name], allowance, w⟩
        ⟨.sequence statements, allowance, w⟩
  | statement (earlier statement later allowance w middle values) :
      w.perform (evalValues (run host allowance) earlier) = some (.ok values, middle) →
      Starts host ⟨.sequence (earlier ++ statement :: later), allowance, w⟩
        ⟨.value statement, allowance, middle⟩

/-- The runs that are made during a run, at any depth, itself included. -/
inductive During (host : Host) : Moment → Moment → Prop where
  | self (m) : During host m m
  | step (m first inner) : Starts host m first → During host first inner → During host m inner

/-- `last.Left after count` says that `after` is what is left of `last` when the outermost `count`
frames outlive the others: they are as they were, and so are the root and what was printed. -/
structure World.Left (last after : World) (count : Nat) : Prop where
  frames : after.scopes.frames <:+ last.scopes.frames
  count : after.scopes.frames.length = count
  root : after.scopes.root = last.scopes.root
  printed : after.printed = last.printed

/-- All is left of a world where no scopes end. -/
theorem World.Left.all (w : World) : w.Left w w.scopes.frames.length :=
  ⟨List.suffix_refl _, rfl, rfl, rfl⟩

/-- What is left of what is left. -/
theorem World.Left.trans {first second third : World} {count fewer : Nat}
    (h : first.Left second count) (h' : second.Left third fewer) : first.Left third fewer :=
  ⟨h'.frames.trans h.frames, h'.count, h'.root.trans h.root, h'.printed.trans h.printed⟩

variable {host : Host}

namespace Request

/-- Whatever is asked for, only names in the innermost scope and in the root are bound for it. -/
theorem evaluation_grows (host : Host) (allowance : Nat) (request : Request) :
    (request.evaluation host allowance).Grows := by
  cases request with
  | value v => exact evalValue_grows (run_grows host allowance) v
  | application b items => exact run_grows host allowance b items
  | call function args => exact call_grows (run_grows host allowance) function args
  | sequence statements => exact evalStatements_grows (run_grows host allowance) statements

end Request

/-- A run ends with as many frames as it has begun with. -/
theorem Moment.frames_length {m : Moment} {result : Except RuntimeError Value} {after : World}
    (h : m.outcome host = some (result, after)) :
    after.scopes.frames.length = m.world.scopes.frames.length :=
  (Evaluation.grows_iff.mp (m.request.evaluation_grows host m.allowance) _ _ _ h).frames.length_eq

/-- The evaluation of several values ends with as many frames as it has begun with. -/
theorem evalValues_frames_length {allowance : Nat} {items : List Value} {w after : World}
    {result : Except RuntimeError (List Value)}
    (h : w.perform (evalValues (run host allowance) items) = some (result, after)) :
    after.scopes.frames.length = w.scopes.frames.length :=
  have hgrows := evalValues_grows (run_grows host allowance) items
  (Evaluation.grows_iff.mp hgrows _ _ _ h).frames.length_eq

/-- If a run that another starts fails, the other fails with the same error, and what outlives it
is as it was when the first has failed. -/
theorem Starts.failure {m inner : Moment} (h : Starts host m inner) {e : RuntimeError}
    {last : World} (hfails : inner.Fails host e last) :
    ∃ after, m.Fails host e after ∧ last.Left after m.world.scopes.frames.length := by
  -- Only the body of a closure has a frame that its caller has not; all else is left entirely.
  have hlength := Moment.frames_length hfails
  cases h with
  | list | evalList => exact ⟨last, hfails, hlength ▸ .all last⟩
  | item b earlier item later allowance w middle values hearlier =>
      rw [evalValues_frames_length hearlier] at hlength
      refine ⟨last, ?_, hlength ▸ .all last⟩
      have hitems := World.perform_evalValues_error.mpr
        ⟨earlier, item, later, values, middle, rfl, hearlier, hfails⟩
      show w.perform (runItems host (run host allowance) b (earlier ++ item :: later)) = _
      rw [runItems_eq]
      exact World.perform_bind_of_error hitems _
  | call b items function arg args allowance w middle hitems =>
      rw [evalValues_frames_length hitems] at hlength
      refine ⟨last, ?_, hlength ▸ .all last⟩
      show w.perform (runItems host (run host allowance) b items) = _
      rw [runItems_eq, World.perform_bind_of_ok hitems]
      exact hfails
  | body bound formals b body args frame allowance w hbind =>
      refine ⟨last.pop, ?_, List.tail_suffix _, ?_, rfl, rfl⟩
      · unfold Moment.Fails Moment.outcome Request.evaluation
        rw [World.perform_call_closure, hbind]
        show w.perform (Evaluation.inFrame frame (run host allowance b body)) = _
        rw [World.perform_inFrame]
        exact congrArg _ hfails
      · show last.scopes.frames.tail.length = w.scopes.frames.length
        rw [List.length_tail, hlength]
        rfl
  | evalOther v allowance w hv =>
      refine ⟨last, ?_, hlength ▸ .all last⟩
      show w.perform (Builtin.evaluation (run host allowance) [v]) = _
      unfold Builtin.evaluation
      split
      · rename_i b items heq
        cases heq
        exact absurd rfl (hv b items)
      · rename_i heq
        cases heq
        exact hfails
      · rename_i hother
        exact absurd rfl (hother v)
  | branch x yes no allowance w => exact ⟨last, hfails, hlength ▸ .all last⟩
  | module source name text statements allowance w hmodules hread hsource =>
      refine ⟨last, ?_, hlength ▸ .all last⟩
      show w.perform (Builtin.inclusion host (run host allowance) [.string name]) = _
      unfold Builtin.inclusion
      simp only [Value.expectString, World.perform_check, hmodules, hread, hsource]
      exact hfails
  | statement earlier statement later allowance w middle values hearlier =>
      rw [evalValues_frames_length hearlier] at hlength
      refine ⟨last, ?_, hlength ▸ .all last⟩
      have hstatements := World.perform_evalValues_error.mpr
        ⟨earlier, statement, later, values, middle, rfl, hearlier, hfails⟩
      show w.perform (evalStatements (run host allowance) (earlier ++ statement :: later)) = _
      rw [evalStatements_eq]
      exact World.perform_bind_of_error hstatements _

/-- The same for any run that is made during another. -/
theorem During.failure {m inner : Moment} (h : During host m inner) {e : RuntimeError}
    {last : World} (hfails : inner.Fails host e last) :
    ∃ after, m.Fails host e after ∧ last.Left after m.world.scopes.frames.length := by
  induction h with
  | self m => exact ⟨last, hfails, Moment.frames_length hfails ▸ .all last⟩
  | step m first inner hstarts _ ih =>
      obtain ⟨middle, hfirst, hmiddle⟩ := ih hfails
      obtain ⟨after, houter, hafter⟩ := hstarts.failure hfirst
      exact ⟨after, houter, hmiddle.trans hafter⟩

/-- What a run refuses to do, and with which error: to look up a name that is not bound, or is
bound to an error; to go on from an error; to call a builtin function, by a check of its own; to
bind arguments to formals that they do not fit; to call what is no function. -/
inductive Moment.Refuses : Moment → RuntimeError → Prop where
  | unbound (name allowance w) :
      w.scopes.get? name = none →
      Refuses ⟨.value (.identifier name), allowance, w⟩ (.unknownIdentifier name)
  | bound (name allowance w e) :
      w.scopes.get? name = some (.error e) →
      Refuses ⟨.value (.identifier name), allowance, w⟩ e
  | error (allowance w e) : Refuses ⟨.value (.error e), allowance, w⟩ e
  | builtin (b args allowance w e) :
      e.IsOf b → Refuses ⟨.call (.builtin b) args, allowance, w⟩ e
  | closure (bound formals b body args allowance w e) :
      Closure.bindArguments bound formals args = .error e →
      Refuses ⟨.call (.closure bound formals b body) args, allowance, w⟩ e
  | noFunction (v args allowance w) :
      v.isFunction = false → Refuses ⟨.call v args, allowance, w⟩ (.notAFunction v.typeName)

/-- The run refuses with the error, nothing having changed since the moment, or a run that is
started from it fails with the error. -/
def Moment.Passes (host : Host) (m : Moment) (e : RuntimeError) (last : World) : Prop :=
  last = m.world ∧ m.Refuses e ∨ ∃ next last, Starts host m next ∧ next.Fails host e last

/-- The evaluation of a value fails with an error that it finds, or as the list fails. -/
theorem value_passes {v : Value} {allowance : Nat} {w last : World} {e : RuntimeError}
    (h : w.perform (evalValue (run host allowance) v) = some (.error e, last)) :
    Moment.Passes host ⟨.value v, allowance, w⟩ e last := by
  cases v with
  | identifier name =>
      have hlookup : w.perform (Evaluation.lookup name) = some (.error e, last) := h
      rw [World.perform_lookup] at hlookup
      split at hlookup
      · rename_i v hv
        obtain ⟨hresult, rfl⟩ := Prod.mk.inj (Option.some.inj hlookup)
        cases v with
        | error e' =>
            cases hresult
            exact .inl ⟨rfl, .bound name allowance w e hv⟩
        | number | string | identifier | list | builtin | closure => cases hresult
      · rename_i hv
        cases hlookup
        exact .inl ⟨rfl, .unbound name allowance w hv⟩
  | list b items =>
      cases b with
      | round => exact .inr ⟨_, last, .list items allowance w, h⟩
      | curly => cases h
  | error e' =>
      cases h
      exact .inl ⟨rfl, .error allowance w e⟩
  | number | string | builtin | closure => cases h

/-- Statements fail as the first of them that fails. -/
theorem sequence_passes {statements : List Value} {allowance : Nat} {w last : World}
    {e : RuntimeError}
    (h : w.perform (evalStatements (run host allowance) statements) = some (.error e, last)) :
    Moment.Passes host ⟨.sequence statements, allowance, w⟩ e last := by
  rw [evalStatements_eq] at h
  rcases World.perform_bind_cases h with ⟨_, hvalues, heq⟩ | ⟨_, _, _, h⟩
  · cases heq
    obtain ⟨earlier, statement, later, values, middle, rfl, hearlier, hfails⟩ :=
      World.perform_evalValues_error.mp hvalues
    exact .inr ⟨_, last, .statement earlier statement later allowance w middle values hearlier,
      hfails⟩
  · cases h

/-- The application of a list fails as one of its items, or as the call. -/
theorem application_passes {b : Bracket} {items : List Value} {allowance : Nat} {w last : World}
    {e : RuntimeError}
    (h : w.perform (runItems host (run host allowance) b items) = some (.error e, last)) :
    Moment.Passes host ⟨.application b items, allowance + 1, w⟩ e last := by
  rw [runItems_eq] at h
  rcases World.perform_bind_cases h with ⟨_, hvalues, heq⟩ | ⟨values, middle, hvalues, h⟩
  · cases heq
    obtain ⟨earlier, item, later, values, middle, rfl, hearlier, hfails⟩ :=
      World.perform_evalValues_error.mp hvalues
    exact .inr ⟨_, last, .item b earlier item later allowance w middle values hearlier, hfails⟩
  · match values, hvalues, h with
    | [], _, h | [_], _, h => cases h
    | function :: arg :: args, hvalues, h =>
        exact .inr ⟨_, last, .call b items function arg args allowance w middle hvalues, h⟩

/-- A binding form fails before it binds anything, as its arguments cannot be paired up. -/
theorem binding_error {b : Builtin} {bind : Name → Value → Evaluation Unit}
    {step : World → Name × Value → World}
    (hbind : ∀ w entry, World.perform w (bind entry.1 entry.2) = some (.ok (), step w entry))
    {args : List Value} {w last : World} {e : RuntimeError}
    (h : w.perform (b.binding bind args) = some (.error e, last)) :
    last = w ∧ b.pairs args = .error e := by
  rw [World.perform_binding hbind] at h
  split at h
  · rename_i hpairs
    cases h
    exact ⟨rfl, hpairs⟩
  · cases h

/-- A check fails where it stands, or what comes after it does. -/
theorem check_error {α : Type} {result : Except RuntimeError α} {f : α → Evaluation Value}
    {w last : World} {e : RuntimeError}
    (h : w.perform (Evaluation.ofExcept result >>= f) = some (.error e, last)) :
    last = w ∧ result = .error e ∨
      ∃ a, result = .ok a ∧ w.perform (f a) = some (.error e, last) := by
  cases result with
  | error _ =>
      cases h
      exact .inl ⟨rfl, rfl⟩
  | ok a => exact .inr ⟨a, rfl, h⟩

/-- A check that is all there is to an evaluation fails as it does. -/
theorem ofExcept_error {result : Except RuntimeError Value} {w last : World} {e : RuntimeError}
    (h : w.perform (Evaluation.ofExcept result) = some (.error e, last)) :
    last = w ∧ result = .error e := by
  obtain ⟨hresult, rfl⟩ := Prod.mk.inj (Option.some.inj h)
  exact ⟨rfl, hresult⟩

/-- A builtin function refuses by a check of its own. -/
theorem Builtin.Blames.passes {α : Type} {b : Builtin} {result : Except RuntimeError α}
    (hblames : b.Blames result) {args : List Value} {allowance : Nat} {w last : World}
    {e : RuntimeError} (h : last = w ∧ result = .error e) :
    Moment.Passes host ⟨.call (.builtin b) args, allowance, w⟩ e last :=
  .inl ⟨h.1, .builtin b args allowance w e (hblames e h.2)⟩

/-- The call of a builtin function fails by a check of its own, or as the code that it was
given. -/
theorem Builtin.apply_passes {b : Builtin} {args : List Value} {allowance : Nat} {w last : World}
    {e : RuntimeError}
    (h : w.perform (b.apply host (run host allowance) args) = some (.error e, last)) :
    Moment.Passes host ⟨.call (.builtin b) args, allowance, w⟩ e last := by
  cases b with
  | add | multiply =>
      exact (foldNumbers_blames (fun _ _ => blames_ok _) args).passes (ofExcept_error h)
  | divide =>
      have hdivision := guardedDivision_blames .divide Binary64.div
      exact (foldNumbers_blames hdivision args).passes (ofExcept_error h)
  | subtract => exact (difference_blames args).passes (ofExcept_error h)
  | modulo => exact (remainder_blames args).passes (ofExcept_error h)
  | less | lessEqual | greater | greaterEqual =>
      exact (comparison_blames _ _ args).passes (ofExcept_error h)
  | equal => exact (equality_blames args).passes (ofExcept_error h)
  | head => exact (first_blames args).passes (ofExcept_error h)
  | tail => exact (afterFirst_blames args).passes (ofExcept_error h)
  | join => exact (concatenation_blames args).passes (ofExcept_error h)
  | lambda => exact (make_blames args).passes (ofExcept_error h)
  | raise => exact (failure_blames args).passes (ofExcept_error h)
  | list => cases h
  | eval =>
      have hcall : w.perform (Builtin.evaluation (run host allowance) args) =
        some (.error e, last) := h
      unfold Builtin.evaluation at hcall
      split at hcall
      · exact .inr ⟨_, last, .evalList _ _ allowance w, hcall⟩
      · rename_i v hv
        exact .inr ⟨_, last, .evalOther v allowance w fun b items => hv b items, hcall⟩
      · exact (blames_arity .eval args).passes (ofExcept_error hcall)
  | define =>
      exact (pairs_blames .define args).passes
        (binding_error (fun w entry => w.perform_define entry.1 entry.2) h)
  | put =>
      exact (pairs_blames .put args).passes
        (binding_error (fun w entry => w.perform_put entry.1 entry.2) h)
  | branch =>
      have hcall : w.perform (Builtin.choice (run host allowance) args) =
        some (.error e, last) := h
      unfold Builtin.choice at hcall
      split at hcall
      · rename_i condition yes no
        rcases check_error hcall with hfailed | ⟨x, hx, hcall⟩
        · exact (blames_number .branch condition).passes hfailed
        rcases check_error hcall with hfailed | ⟨accepted, hyes, hcall⟩
        · exact (blames_quoted .branch yes).passes hfailed
        rcases check_error hcall with hfailed | ⟨rejected, hno, hcall⟩
        · exact (blames_quoted .branch no).passes hfailed
        obtain rfl := Value.expectNumber_eq_ok.mp hx
        obtain rfl := Value.expectQuoted_eq_ok.mp hyes
        obtain rfl := Value.expectQuoted_eq_ok.mp hno
        exact .inr ⟨_, last, .branch x accepted rejected allowance w, hcall⟩
      · exact (blames_arity .branch args).passes (ofExcept_error hcall)
  | load =>
      have hcall : w.perform (Builtin.inclusion host (run host allowance) args) =
        some (.error e, last) := h
      unfold Builtin.inclusion at hcall
      split at hcall
      · rename_i arg
        rcases check_error hcall with hfailed | ⟨name, hname, hmodule⟩
        · exact (blames_string .load arg).passes hfailed
        obtain rfl := Value.expectString_eq_ok.mp hname
        clear hcall
        split at hmodule
        · cases hmodule
        · rename_i source hsource
          split at hmodule
          · cases hmodule
            exact .inl ⟨rfl, .builtin .load _ allowance _ _ rfl⟩
          · cases hmodule
          · rename_i text hread
            split at hmodule
            · cases hmodule
              exact .inl ⟨rfl, .builtin .load _ allowance _ _ rfl⟩
            · rename_i statements hstatements
              exact .inr ⟨_, last,
                .module source name text statements allowance w hsource hread hstatements, hmodule⟩
      · exact (blames_arity .load args).passes (ofExcept_error hcall)
  | print =>
      have hcall : w.perform (Builtin.output host args) = some (.error e, last) := h
      unfold Builtin.output at hcall
      split at hcall
      · cases hcall
        exact .inl ⟨rfl, .builtin .print args allowance _ _ rfl⟩
      · cases hcall

/-- The call of anything is refused, or fails as the code that the call runs. -/
theorem call_passes {function : Value} {args : List Value} {allowance : Nat} {w last : World}
    {e : RuntimeError}
    (h : w.perform (call host (run host allowance) function args) = some (.error e, last)) :
    Moment.Passes host ⟨.call function args, allowance, w⟩ e last := by
  cases function with
  | builtin b => exact Builtin.apply_passes h
  | closure bound formals b body =>
      rw [World.perform_call_closure] at h
      split at h
      · rename_i hbind
        cases h
        exact .inl ⟨rfl, .closure bound formals b body args allowance w e hbind⟩
      · rename_i frame hbind
        rw [World.perform_inFrame] at h
        obtain ⟨⟨result, inner⟩, hbody, heq⟩ := Option.map_eq_some_iff.mp h
        cases heq
        exact .inr ⟨_, inner, .body bound formals b body args frame allowance w hbind, hbody⟩
      · cases h
  | number | string | identifier | list | error =>
      cases h
      exact .inl ⟨rfl, .noFunction _ args allowance w rfl⟩

/-- The same for every request. -/
theorem Moment.Fails.passes {m : Moment} {e : RuntimeError} {last : World}
    (h : m.Fails host e last) : m.Passes host e last := by
  obtain ⟨request, allowance, w⟩ := m
  cases request with
  | value v => exact value_passes h
  | application b items =>
      cases allowance with
      | zero => cases h
      | succ allowance => exact application_passes h
  | call function args => exact call_passes h
  | sequence statements => exact sequence_passes h

/-- How far a run is from running out of allowance and out of parts: what it starts is closer. -/
def Moment.distance (m : Moment) : Nat :=
  4 * m.allowance +
    match m.request with
    | .application .. => 0
    | .value _ => 1
    | .sequence _ => 2
    | .call .. => 3

/-- A run that is started is closer to the end. -/
theorem Starts.distance_lt {m next : Moment} (h : Starts host m next) :
    next.distance < m.distance := by
  cases h <;> simp only [Moment.distance] <;> omega

/-- A failure begins in a run that refuses to go on, none of those that it starts having failed. -/
theorem Moment.Fails.refused {m : Moment} {e : RuntimeError} {last : World}
    (h : m.Fails host e last) :
    ∃ inner, During host m inner ∧ inner.Fails host e inner.world ∧ inner.Refuses e ∧
      ∀ next, Starts host inner next → ∀ e' last', ¬ next.Fails host e' last' := by
  by_cases hstarted : ∃ next e' last', Starts host m next ∧ next.Fails host e' last'
  · obtain ⟨next, e', last', hstarts, hnext⟩ := hstarted
    obtain ⟨after, hafter, -⟩ := hstarts.failure hnext
    -- Both are what the same run ends in, so the errors are one.
    have hsame := h.symm.trans hafter
    cases hsame
    have hlt := hstarts.distance_lt
    obtain ⟨inner, hduring, hinner⟩ := Moment.Fails.refused hnext
    exact ⟨inner, .step m next inner hstarts hduring, hinner⟩
  · have hnone : ∀ next, Starts host m next → ∀ e' last', ¬ next.Fails host e' last' := by
      intro next hstarts e' last' hnext
      exact hstarted ⟨next, e', last', hstarts, hnext⟩
    rcases h.passes with ⟨rfl, hrefuses⟩ | ⟨next, last', hstarts, hnext⟩
    · exact ⟨m, .self m, h, hrefuses, hnone⟩
    · exact absurd hnext (hnone next hstarts e last')
termination_by m.distance
decreasing_by exact hlt

/-- A failure begins in a run that fails where it stands, none of those that it starts having
failed. -/
theorem Moment.Fails.begins {m : Moment} {e : RuntimeError} {last : World}
    (h : m.Fails host e last) :
    ∃ inner, During host m inner ∧ inner.Fails host e inner.world ∧
      ∀ next, Starts host inner next → ∀ e' last', ¬ next.Fails host e' last' := by
  obtain ⟨inner, hduring, hinner, -, hnone⟩ := h.refused
  exact ⟨inner, hduring, hinner, hnone⟩

/-- A source text that can be read fails as the evaluation of its items does. -/
theorem World.withSource_error {w after : World} {source : String} {items : List Value}
    {evaluation : List Value → Evaluation Value} {e : RuntimeError}
    (hsource : Value.ofSource source = .ok items)
    (h : w.perform (evaluation items) = some (.error e, after)) :
    w.withSource source evaluation = some (.error (.runtime e), after) := by
  rw [withSource_of_read w hsource, h]
  rfl

/-- Reading a source text is no evaluation, and does not fail as one. -/
theorem Value.ofSource_ne_runtime (source : String) (e : RuntimeError) :
    Value.ofSource source ≠ .error (.runtime e) := by
  intro h
  unfold Value.ofSource at h
  split at h
  · cases h
  · split at h <;> cases h

/-- A source text that fails in its evaluation has been read, and its items fail. -/
theorem World.withSource_error_cases {w after : World} {source : String}
    {evaluation : List Value → Evaluation Value} {e : RuntimeError}
    (h : w.withSource source evaluation = some (.error (.runtime e), after)) :
    ∃ items, Value.ofSource source = .ok items ∧
      w.perform (evaluation items) = some (.error e, after) := by
  rcases withSource_cases h with ⟨_, hsource, heq, -⟩ | ⟨items, inner, hsource, hperform, heq⟩
  · cases heq
    exact absurd hsource (Value.ofSource_ne_runtime source e)
  · cases inner with
    | error e' =>
        cases heq
        exact ⟨items, hsource, hperform⟩
    | ok v => cases heq

/-- If any run that is made during a run fails, the whole fails with the same error; the scopes
that outlive it, and what was printed, are as they were when the first has failed. Conversely every
failure begins in a run that fails where it stands, before any run that it starts has failed. A
source text fails accordingly, whether it is evaluated as an application or as statements. -/
theorem failure_ends_run (host : Host) :
    (∀ (m inner : Moment) (e : RuntimeError) (last : World),
      During host m inner → inner.Fails host e last →
      ∃ after, m.Fails host e after ∧ last.Left after m.world.scopes.frames.length) ∧
    (∀ (m : Moment) (e : RuntimeError) (after : World), m.Fails host e after →
      ∃ inner, During host m inner ∧ inner.Fails host e inner.world ∧
        inner.world.Left after m.world.scopes.frames.length ∧
        ∀ next, Starts host inner next → ∀ e' last, ¬ next.Fails host e' last) ∧
    ∀ (w : World) (allowance : Nat) (source : String) (items : List Value),
      Value.ofSource source = .ok items →
      ∀ (inner : Moment) (e : RuntimeError) (last : World), inner.Fails host e last →
        (During host ⟨.application .round items, allowance, w⟩ inner →
          ∃ after, w.evaluate host allowance source = some (.error (.runtime e), after) ∧
            last.Left after w.scopes.frames.length) ∧
        (During host ⟨.sequence items, allowance, w⟩ inner →
          ∃ after, w.load host allowance source = some (.error (.runtime e), after) ∧
            last.Left after w.scopes.frames.length) := by
  refine ⟨fun m inner e last hduring hfails => hduring.failure hfails, ?_, ?_⟩
  · intro m e after h
    obtain ⟨inner, hduring, hinner, hnone⟩ := h.begins
    obtain ⟨after', hafter, hleft⟩ := hduring.failure hinner
    cases h.symm.trans hafter
    exact ⟨inner, hduring, hinner, hleft, hnone⟩
  · intro w allowance source items hsource inner e last hfails
    constructor
    · intro hduring
      obtain ⟨after, hafter, hleft⟩ := hduring.failure hfails
      exact ⟨after, World.withSource_error hsource hafter, hleft⟩
    · intro hduring
      obtain ⟨after, hafter, hleft⟩ := hduring.failure hfails
      exact ⟨after, World.withSource_error hsource hafter, hleft⟩

/-- A choice of which the accepted branch fails. -/
def stopping : Value :=
  .list .round [.identifier "if", .number .one, .quoted [.identifier "error", .string "stop"],
    .quoted []]

/-- A world with the builtin functions and one frame. -/
def framed : World :=
  ⟨⟨[[("x", .string "kept")]], (Builtin.all.map fun b => (b.name, .builtin b))⟩, "before"⟩

/-- The failure of the branch is that of the choice, of the statement, and of the source text. -/
theorem failure_ends_run_stopping :
    ∃ inner, During ⟨none, none⟩ ⟨.application .round [stopping], 4, framed⟩ inner ∧
      inner.Fails ⟨none, none⟩ (.user "stop") framed ∧
      (∃ after, Moment.Fails ⟨none, none⟩ ⟨.application .round [stopping], 4, framed⟩
        (.user "stop") after ∧ framed.Left after 1) ∧
      (∃ origin, During ⟨none, none⟩ inner origin ∧
        origin.Fails ⟨none, none⟩ (.user "stop") origin.world) ∧
      Value.ofSource stopping.display = .ok [stopping] ∧
      ∃ after, framed.evaluate ⟨none, none⟩ 4 stopping.display =
        some (.error (.runtime (.user "stop")), after) ∧ framed.Left after 1 := by
  have hduring : During ⟨none, none⟩ ⟨.application .round [stopping], 4, framed⟩
      ⟨.call (.builtin .raise) [.string "stop"], 1, framed⟩ := by
    refine .step _ _ _ (.item .round [] stopping [] 3 framed framed [] rfl) ?_
    refine .step _ _ _ (.list _ 3 framed) ?_
    refine .step _ _ _ (.call .round _ (.builtin .branch) (.number .one) _ 2 framed framed rfl) ?_
    refine .step _ _ _ (.branch .one _ _ 2 framed) ?_
    exact .step _ _ _ (.call .curly _ (.builtin .raise) (.string "stop") [] 1 framed framed rfl)
      (.self _)
  have hprintable : stopping.Printable := by decide
  obtain ⟨hfails, hbegins, hsource⟩ := failure_ends_run ⟨none, none⟩
  obtain ⟨origin, horigin, hfirst, -⟩ :=
    hbegins ⟨.call (.builtin .raise) [.string "stop"], 1, framed⟩ (.user "stop") framed rfl
  exact ⟨_, hduring, rfl, hfails _ _ _ framed hduring rfl, ⟨origin, horigin, hfirst⟩,
    hprintable.of_source_display,
    (hsource framed 4 _ _ hprintable.of_source_display _ _ framed rfl).1 hduring⟩

end QuotedLisp
