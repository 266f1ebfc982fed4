import QuotedLisp.Proofs.Eval.Allowance
import QuotedLisp.Proofs.Value.Regular

/-!
# Big steps

`scopes.ComesTo prints evaluation (result, after)` says what an evaluation comes to from a chain of
scopes, without a word about allowances and about what was printed before. There is a rule for each
way in which code is evaluated: names and values in normal form, lists of arguments, the call of a
named function, and the calls of closures and of those builtin functions that evaluate further code.
Each evaluation that takes part in a rule may have an allowance of its own; the greatest of them is
enough for all (`ComesTo.bind`).
-/

namespace QuotedLisp

variable {α β : Type}

namespace Evaluation

/-- A result at hand does not depend on the allowance. -/
theorem stable_pure (a : α) : Stable fun _ => pure a :=
  fun _ => .refl _

end Evaluation

open Evaluation

/-- The evaluations of several values. -/
theorem evalValues_stable (host : Host) (items : List Value) :
    Stable fun allowance => evalValues (run host allowance) items :=
  fun h => evalValues_approximates (run_approximates host h) items

/-- The runs of a list. -/
theorem run_stable (host : Host) (b : Bracket) (items : List Value) :
    Stable fun allowance => run host allowance b items :=
  fun h => run_approximates host h b items

/-- The calls of a function. -/
theorem call_stable (host : Host) (function : Value) (args : List Value) :
    Stable fun allowance => call host (run host allowance) function args :=
  fun h => call_approximates (run_approximates host h) function args

namespace Scopes

/-- Whatever was printed so far, with some allowance the evaluation leads from the scopes to the
outcome, a result and other scopes. Nothing is printed in between, unless `prints` holds. -/
def ComesTo (prints : Prop) (scopes : Scopes) (evaluation : Nat → Evaluation α)
    (outcome : Except RuntimeError α × Scopes) : Prop :=
  ∀ printed, ∃ allowance printed',
    World.perform ⟨scopes, printed⟩ (evaluation allowance) =
      some (outcome.1, ⟨outcome.2, printed'⟩) ∧ (prints ∨ printed' = printed)

section

variable {prints : Prop} {scopes middle after : Scopes}

/-- What an evaluation comes to is what it answers. -/
theorem ComesTo.answers {evaluation : Nat → Evaluation α} {result : Except RuntimeError α}
    (h : scopes.ComesTo False evaluation (result, after)) (printed : String) :
    World.Answers ⟨scopes, printed⟩ evaluation
      (result.mapError Error.runtime, ⟨after, printed⟩) := by
  obtain ⟨allowance, printed', hperform, hsilent⟩ := h printed
  obtain rfl := hsilent.resolve_left id
  exact ⟨allowance, result, hperform, rfl⟩

/-- An evaluation comes to one outcome. -/
theorem ComesTo.unique {evaluation : Nat → Evaluation α} (hstable : Stable evaluation)
    {outcome other : Except RuntimeError α × Scopes} (h : scopes.ComesTo prints evaluation outcome)
    (h' : scopes.ComesTo prints evaluation other) : outcome = other := by
  obtain ⟨fewer, printed, hperform, -⟩ := h ""
  obtain ⟨more, printed', hperform', -⟩ := h' ""
  have hmost := hstable (Nat.le_max_left fewer more) _ _ hperform
  have hsame := hmost.symm.trans (hstable (Nat.le_max_right fewer more) _ _ hperform')
  obtain ⟨result, after⟩ := outcome
  cases hsame
  rfl

/-- An evaluation that does the same with some allowance whatever was printed so far, and prints
nothing. -/
theorem comesTo_of_perform {evaluation : Nat → Evaluation α} {result : Except RuntimeError α}
    (allowance : Nat) (h : ∀ printed, World.perform ⟨scopes, printed⟩ (evaluation allowance) =
      some (result, ⟨after, printed⟩)) :
    scopes.ComesTo prints evaluation (result, after) :=
  fun printed => ⟨allowance, printed, h printed, .inr rfl⟩

/-- Two evaluations in turn, the second from where the first has led. -/
theorem ComesTo.bind {x : Nat → Evaluation α} {f : Nat → α → Evaluation β} {a : α}
    (hx : Stable x) (hf : Stable fun allowance => f allowance a)
    {outcome : Except RuntimeError β × Scopes} (hfirst : scopes.ComesTo prints x (.ok a, middle))
    (hsecond : middle.ComesTo prints (fun allowance => f allowance a) outcome) :
    scopes.ComesTo prints (fun allowance => x allowance >>= f allowance) outcome := by
  intro printed
  obtain ⟨fewer, printed', hx', hprinted'⟩ := hfirst printed
  obtain ⟨more, printed'', hf', hprinted''⟩ := hsecond printed'
  refine ⟨max fewer more, printed'', ?_, ?_⟩
  · rw [World.perform_bind_of_ok (hx (Nat.le_max_left fewer more) _ _ hx')]
    exact hf (Nat.le_max_right fewer more) _ _ hf'
  · rcases hprinted' with hprints | rfl
    · exact .inl hprints
    · exact hprinted''

/-- After an error of the first evaluation there is no second. -/
theorem ComesTo.bind_error {x : Nat → Evaluation α} {e : RuntimeError}
    (h : scopes.ComesTo prints x (.error e, after)) (f : Nat → α → Evaluation β) :
    scopes.ComesTo prints (fun allowance => x allowance >>= f allowance) (.error e, after) := by
  intro printed
  obtain ⟨allowance, printed', hperform, hprinted⟩ := h printed
  exact ⟨allowance, printed', World.perform_bind_of_error hperform _, hprinted⟩

/-- An evaluation that takes one more nested run than another, and otherwise does the same. -/
theorem ComesTo.succ {x y : Nat → Evaluation α} {outcome : Except RuntimeError α × Scopes}
    (hsucc : ∀ allowance, x (allowance + 1) = y allowance) (h : scopes.ComesTo prints y outcome) :
    scopes.ComesTo prints x outcome := by
  intro printed
  obtain ⟨allowance, printed', hperform, hprinted⟩ := h printed
  exact ⟨allowance + 1, printed', by rw [hsucc, hperform], hprinted⟩

/-- An evaluation in a frame of its own. -/
theorem ComesTo.inFrame {x : Nat → Evaluation α} {frame : Bindings}
    {result : Except RuntimeError α} (h : (scopes.push frame).ComesTo prints x (result, after)) :
    scopes.ComesTo prints (fun allowance => inFrame frame (x allowance)) (result, after.pop) := by
  intro printed
  obtain ⟨allowance, printed', hperform, hprinted⟩ := h printed
  refine ⟨allowance, printed', ?_, hprinted⟩
  rw [World.perform_inFrame]
  show (World.perform ⟨scopes.push frame, printed⟩ (x allowance)).map _ = _
  rw [hperform]
  rfl

end

section

variable (host : Host) (prints : Prop) (scopes : Scopes)

/-- What the evaluation of a value comes to. -/
abbrev Evaluates (v : Value) (outcome : Except RuntimeError Value × Scopes) : Prop :=
  scopes.ComesTo prints (fun allowance => evalValue (run host allowance) v) outcome

/-- What the evaluation of several values comes to. -/
abbrev EvaluatesAll (items : List Value)
    (outcome : Except RuntimeError (List Value) × Scopes) : Prop :=
  scopes.ComesTo prints (fun allowance => evalValues (run host allowance) items) outcome

/-- What the evaluation of statements comes to. -/
abbrev Executes (statements : List Value) (outcome : Except RuntimeError Value × Scopes) : Prop :=
  scopes.ComesTo prints (fun allowance => evalStatements (run host allowance) statements) outcome

/-- What the run of a list comes to, in either bracket. -/
def Runs (items : List Value) (outcome : Except RuntimeError Value × Scopes) : Prop :=
  ∀ b, scopes.ComesTo prints (fun allowance => run host allowance b items) outcome

/-- What the call of a function comes to. -/
abbrev Calls (function : Value) (args : List Value)
    (outcome : Except RuntimeError Value × Scopes) : Prop :=
  scopes.ComesTo prints (fun allowance => call host (run host allowance) function args) outcome

end

variable {host : Host} {prints : Prop} {scopes middle after : Scopes}
  {outcome : Except RuntimeError Value × Scopes}

/-- A name is evaluated to what it stands for. -/
theorem evaluates_name (name : Name) {v : Value} (hname : scopes.get? name = some v)
    (hv : v.toResult = .ok v) :
    scopes.Evaluates host prints (.identifier name) (.ok v, scopes) := by
  refine comesTo_of_perform 0 fun printed => ?_
  show World.perform _ (lookup name) = _
  rw [World.perform_lookup, hname, ← hv]

/-- A value in which evaluation can end is evaluated to itself. -/
theorem evaluates_self {v : Value} (h : v.isResult = true) :
    scopes.Evaluates host prints v (.ok v, scopes) := by
  refine comesTo_of_perform 1 fun printed => ?_
  cases v with
  | list b items =>
      cases b with
      | round =>
          obtain rfl := List.isEmpty_iff.mp h
          rfl
      | curly => rfl
  | identifier | error => cases h
  | number | string | builtin | closure => rfl

/-- A round list is run. -/
theorem Runs.evaluates {items : List Value} (h : scopes.Runs host prints items outcome) :
    scopes.Evaluates host prints (.list .round items) outcome :=
  h .round

/-- Nothing is left to evaluate. -/
theorem evaluatesAll_nil : scopes.EvaluatesAll host prints [] (.ok [], scopes) :=
  comesTo_of_perform 0 fun _ => rfl

/-- The first value is evaluated, and then the others. -/
theorem ComesTo.cons {item a : Value} {rest : List Value}
    {results : Except RuntimeError (List Value)}
    (hitem : scopes.Evaluates host prints item (.ok a, middle))
    (hrest : middle.EvaluatesAll host prints rest (results, after)) :
    scopes.EvaluatesAll host prints (item :: rest) (results.map (a :: ·), after) := by
  refine hitem.bind (evalValue_stable host item) ?_ ?_
  · intro fewer more hle
    exact (evalValues_stable host rest hle).bind fun _ => .refl _
  · cases results with
    | error e => exact hrest.bind_error _
    | ok values =>
        refine hrest.bind (evalValues_stable host rest) ?_ ?_
        · exact stable_pure _
        · exact comesTo_of_perform 0 fun _ => rfl

/-- If the evaluation of the first value fails, the others are left out. -/
theorem ComesTo.cons_error {item : Value} {e : RuntimeError}
    (h : scopes.Evaluates host prints item (.error e, after)) (rest : List Value) :
    scopes.EvaluatesAll host prints (item :: rest) (.error e, after) :=
  h.bind_error _

/-- Values in which evaluation can end are evaluated to themselves. -/
theorem evaluatesAll_self {items : List Value} (h : ∀ v ∈ items, v.isResult = true) :
    scopes.EvaluatesAll host prints items (.ok items, scopes) := by
  induction items with
  | nil => exact evaluatesAll_nil
  | cons item rest ih =>
      obtain ⟨hitem, hrest⟩ := List.forall_mem_cons.mp h
      exact (evaluates_self hitem).cons (ih hrest)

/-- No statements do nothing. -/
theorem executes_nil : scopes.Executes host prints [] (.ok .unit, scopes) :=
  comesTo_of_perform 0 fun _ => rfl

/-- The first statement is evaluated, and then the others. -/
theorem ComesTo.statement {statement v : Value} {rest : List Value}
    (hstatement : scopes.Evaluates host prints statement (.ok v, middle))
    (hrest : middle.Executes host prints rest outcome) :
    scopes.Executes host prints (statement :: rest) outcome :=
  hstatement.bind (evalValue_stable host statement) (evalStatements_stable host rest) hrest

/-- A single item is evaluated, and stands for itself. -/
theorem runs_single {item : Value} (h : scopes.Evaluates host prints item outcome) :
    scopes.Runs host prints [item] outcome :=
  fun b => h.succ fun allowance => run_singleton host allowance b item

/-- The items of a list are evaluated, and then the first is called with the others. -/
theorem runs_of_values {items args : List Value} {function arg : Value}
    (hitems : scopes.EvaluatesAll host prints items (.ok (function :: arg :: args), middle))
    (h : middle.Calls host prints function (arg :: args) outcome) :
    scopes.Runs host prints items outcome := by
  intro b
  refine ComesTo.succ (fun allowance => runItems_eq host (run host allowance) b items) ?_
  refine hitems.bind (evalValues_stable host items) ?_ h
  exact call_stable host function (arg :: args)

/-- The call of a builtin function that only computes a result. -/
theorem calls_builtin {b : Builtin} {args : List Value} {result : Except RuntimeError Value}
    (h : ∀ run, b.apply host run args = ofExcept result) :
    scopes.Calls host prints (.builtin b) args (result, scopes) := by
  refine comesTo_of_perform 0 fun printed => ?_
  show World.perform _ (b.apply host _ args) = _
  rw [h, World.perform_ofExcept]

section

variable {name : Name} {function arg : Value} {exprs args : List Value}

/-- The application of a named function: the arguments are evaluated, and the function is called
with them. -/
theorem runs_application (hname : scopes.get? name = some function)
    (hfunction : function.toResult = .ok function)
    (hexprs : scopes.EvaluatesAll host prints exprs (.ok (arg :: args), middle))
    (h : middle.Calls host prints function (arg :: args) outcome) :
    scopes.Runs host prints (.identifier name :: exprs) outcome :=
  runs_of_values ((evaluates_name name hname hfunction).cons hexprs) h

/-- The application of a named function fails if the evaluation of its arguments fails. -/
theorem runs_application_error {e : RuntimeError} (hname : scopes.get? name = some function)
    (hfunction : function.toResult = .ok function)
    (hexprs : scopes.EvaluatesAll host prints exprs (.error e, after)) :
    scopes.Runs host prints (.identifier name :: exprs) (.error e, after) := by
  intro b
  refine ComesTo.succ (fun allowance => runItems_eq host (run host allowance) b _) ?_
  exact ((evaluates_name name hname hfunction).cons hexprs).bind_error _

/-- The application of a builtin function that only computes a result. -/
theorem runs_builtin (b : Builtin) {result : Except RuntimeError Value}
    (hname : scopes.get? b.name = some (.builtin b))
    (hexprs : scopes.EvaluatesAll host prints exprs (.ok (arg :: args), middle))
    (h : ∀ run, b.apply host run (arg :: args) = ofExcept result) :
    scopes.Runs host prints (.identifier b.name :: exprs) (result, middle) :=
  runs_application hname rfl hexprs (calls_builtin h)

end

/-- A name is bound in the root. -/
theorem calls_define (name : Name) (v : Value) :
    scopes.Calls host prints (.builtin .define) [.quoted [.identifier name], v]
      (.ok .unit, scopes.define name v) :=
  comesTo_of_perform 0 fun _ => rfl

/-- The choice between two quoted lists runs one of them. -/
theorem calls_branch {x : Binary64} {yes no : List Value}
    (h : scopes.Runs host prints (if x.isZero then no else yes) outcome) :
    scopes.Calls host prints (.builtin .branch) [.number x, .quoted yes, .quoted no] outcome :=
  h .curly

/-- The evaluation of a list runs it. -/
theorem calls_eval {b : Bracket} {items : List Value}
    (h : scopes.Runs host prints items outcome) :
    scopes.Calls host prints (.builtin .eval) [.list b items] outcome :=
  h b

/-- The call of a closure that has all its arguments runs its body in a frame of its own. -/
theorem calls_closure {bound frame : Bindings} {formals : List Name} {b : Bracket}
    {body args : List Value} {result : Except RuntimeError Value}
    (hbind : Closure.bindArguments bound formals args = .ok (frame, []))
    (h : (scopes.push frame).Runs host prints body (result, after)) :
    scopes.Calls host prints (.closure bound formals b body) args (result, after.pop) := by
  intro printed
  obtain ⟨allowance, printed', hperform, hprinted⟩ := (h b).inFrame printed
  refine ⟨allowance, printed', ?_, hprinted⟩
  rw [World.perform_call_closure, hbind]
  exact hperform

end Scopes

end QuotedLisp
