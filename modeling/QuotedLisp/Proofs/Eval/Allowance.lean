import QuotedLisp.Proofs.Eval.Perform

/-!
# Allowances

The allowance bounds how deep runs may nest and decides nothing else: an evaluation that has an
answer has the same one with any greater allowance, `run_approximates`, so two allowances with which
a source text has an answer agree on it. What an evaluation comes to with some allowance is what it
`Answers`; a source text `Evaluates` to what its items answer as an application, and `Loads` to what
they answer as statements.
-/

namespace QuotedLisp

variable {α β : Type}

namespace Evaluation

/-- If the first evaluation has an answer in the world, the second has the same. -/
def ApproximatesIn (w : World) (x y : Evaluation α) : Prop :=
  ∀ outcome, w.perform x = some outcome → w.perform y = some outcome

/-- Wherever the first evaluation has an answer, the second has the same. -/
def Approximates (x y : Evaluation α) : Prop :=
  ∀ w, ApproximatesIn w x y

/-- An evaluation has its own answers. -/
theorem Approximates.refl (x : Evaluation α) : x.Approximates x := fun _ _ h => h

/-- Where there is no answer, any will do. -/
theorem exhausted_approximates (x : Evaluation α) : exhausted.Approximates x := by
  intro w outcome h
  rw [World.perform_exhausted] at h
  cases h

/-- Two evaluations in turn. The second starts in a world to which the first has led. -/
theorem ApproximatesIn.bind {w : World} {x y : Evaluation α} {f g : α → Evaluation β}
    (h : ApproximatesIn w x y)
    (hnext : ∀ a middle, w.perform x = some (.ok a, middle) →
      ApproximatesIn middle (f a) (g a)) :
    ApproximatesIn w (x >>= f) (y >>= g) := by
  intro outcome hperform
  rcases World.perform_bind_cases hperform with ⟨e, hfailed, hresult⟩ | ⟨a, middle, hfirst, hsecond⟩
  · rw [World.perform_bind_of_error (h _ hfailed), ← hresult]
  · rw [World.perform_bind_of_ok (h _ hfirst)]
    exact hnext a middle hfirst _ hsecond

/-- The same in all worlds. -/
theorem Approximates.bind {x y : Evaluation α} {f g : α → Evaluation β} (h : x.Approximates y)
    (hnext : ∀ a, (f a).Approximates (g a)) : (x >>= f).Approximates (y >>= g) :=
  fun w => (h w).bind fun a middle _ => hnext a middle

/-- An evaluation in a frame of its own. -/
theorem Approximates.inFrame {x y : Evaluation α} (h : x.Approximates y) (frame : Bindings) :
    (inFrame frame x).Approximates (inFrame frame y) := by
  intro w outcome hperform
  rw [World.perform_inFrame] at hperform ⊢
  obtain ⟨inner, hinner, heq⟩ := Option.map_eq_some_iff.mp hperform
  rw [h _ _ hinner, Option.map_some, heq]

/-- Evaluations, one for each allowance, of which those with greater allowances have the answers of
those with smaller ones. -/
def Stable (evaluation : Nat → Evaluation α) : Prop :=
  ∀ {fewer more}, fewer ≤ more → (evaluation fewer).Approximates (evaluation more)

end Evaluation

open Evaluation

section

variable {host : Host} {first second : Runner}

/-- Evaluating a value, if running a list does. -/
theorem evalValue_approximates (h : ∀ b items, (first b items).Approximates (second b items))
    (v : Value) : (evalValue first v).Approximates (evalValue second v) := by
  cases v with
  | list b items =>
      cases b with
      | round => exact h .round items
      | curly => exact .refl _
  | number | string | identifier | builtin | closure | error => exact .refl _

/-- Evaluating several values, if running a list does. -/
theorem evalValues_approximates (h : ∀ b items, (first b items).Approximates (second b items))
    (items : List Value) : (evalValues first items).Approximates (evalValues second items) := by
  induction items with
  | nil => exact .refl _
  | cons item rest ih =>
      exact (evalValue_approximates h item).bind fun _ => ih.bind fun _ => .refl _

/-- Evaluating statements, if running a list does. -/
theorem evalStatements_approximates
    (h : ∀ b items, (first b items).Approximates (second b items)) (statements : List Value) :
    (evalStatements first statements).Approximates (evalStatements second statements) := by
  rw [evalStatements_eq, evalStatements_eq]
  exact (evalValues_approximates h statements).bind fun _ => .refl _

/-- Calling a builtin function, if running a list does. -/
theorem apply_approximates (h : ∀ b items, (first b items).Approximates (second b items))
    (b : Builtin) (args : List Value) :
    (b.apply host first args).Approximates (b.apply host second args) := by
  cases b with
  | eval =>
      show (Builtin.evaluation first args).Approximates (Builtin.evaluation second args)
      unfold Builtin.evaluation
      split
      · exact h _ _
      · exact evalValue_approximates h _
      · exact .refl _
  | branch =>
      show (Builtin.choice first args).Approximates (Builtin.choice second args)
      unfold Builtin.choice
      split
      · exact (Approximates.refl _).bind fun _ => (Approximates.refl _).bind fun _ =>
          (Approximates.refl _).bind fun _ => h _ _
      · exact .refl _
  | load =>
      show (Builtin.inclusion host first args).Approximates (Builtin.inclusion host second args)
      unfold Builtin.inclusion
      split
      · refine (Approximates.refl _).bind fun name => ?_
        split
        · exact .refl _
        · split
          · exact .refl _
          · exact .refl _
          · split
            · exact .refl _
            · exact evalStatements_approximates h _
      · exact .refl _
  | add | subtract | multiply | divide | modulo | less | lessEqual | greater | greaterEqual
  | equal | head | tail | list | join | define | put | lambda | raise | print => exact .refl _

/-- Calling a function, if running a list does. -/
theorem call_approximates (h : ∀ b items, (first b items).Approximates (second b items))
    (function : Value) (args : List Value) :
    (call host first function args).Approximates (call host second function args) := by
  cases function with
  | builtin b => exact apply_approximates h b args
  | closure bound formals b body =>
      refine (Approximates.refl _).bind fun (frame, waiting) => ?_
      cases waiting with
      | nil => exact (h b body).inFrame frame
      | cons formal waiting => exact .refl _
  | number | string | identifier | list | error => exact .refl _

/-- Running a list, if running the lists inside it does. -/
theorem runItems_approximates (h : ∀ b items, (first b items).Approximates (second b items))
    (b : Bracket) (items : List Value) :
    (runItems host first b items).Approximates (runItems host second b items) := by
  rw [runItems_eq, runItems_eq]
  refine (evalValues_approximates h items).bind fun values => ?_
  unfold applyValues
  split
  · exact .refl _
  · exact .refl _
  · exact call_approximates h _ _

end

/-- With a greater allowance a run has the answers that it has with a smaller one. -/
theorem run_approximates (host : Host) {fewer more : Nat} (h : fewer ≤ more) (b : Bracket)
    (items : List Value) : (run host fewer b items).Approximates (run host more b items) := by
  induction fewer generalizing more b items with
  | zero => exact exhausted_approximates _
  | succ fewer ih =>
      obtain ⟨more, rfl⟩ := Nat.exists_eq_add_of_lt (Nat.lt_of_lt_of_le (Nat.zero_lt_succ fewer) h)
      rw [Nat.zero_add] at h ⊢
      exact runItems_approximates (fun b items => ih (Nat.le_of_succ_le_succ h) b items) b items

/-- The evaluations of a value. -/
theorem evalValue_stable (host : Host) (v : Value) :
    Stable fun allowance => evalValue (run host allowance) v :=
  fun h => evalValue_approximates (run_approximates host h) v

/-- The evaluations of statements. -/
theorem evalStatements_stable (host : Host) (statements : List Value) :
    Stable fun allowance => evalStatements (run host allowance) statements :=
  fun h => evalStatements_approximates (run_approximates host h) statements

namespace World

/-- With a greater allowance a source has the outcome that it has with a smaller one. -/
theorem load_of_le {w : World} {host : Host} {fewer more : Nat} {source : String}
    {outcome : Except Error Value × World} (h : w.load host fewer source = some outcome)
    (hle : fewer ≤ more) : w.load host more source = some outcome := by
  unfold load at h ⊢
  cases hsource : Value.ofSource source with
  | error e =>
      rw [withSource, hsource] at h ⊢
      exact h
  | ok items =>
      rw [withSource_of_read w hsource] at h ⊢
      obtain ⟨inner, hinner, heq⟩ := Option.map_eq_some_iff.mp h
      rw [evalStatements_stable host items hle _ _ hinner, Option.map_some, heq]

/-- With some allowance, the evaluation has the outcome, in which its errors are those of a text. -/
def Answers (w : World) (evaluation : Nat → Evaluation α) (outcome : Except Error α × World) :
    Prop :=
  ∃ allowance inner, w.perform (evaluation allowance) = some (inner, outcome.2) ∧
    inner.mapError Error.runtime = outcome.1

/-- An evaluation has one answer. -/
theorem Answers.unique {evaluation : Nat → Evaluation α} (hstable : Stable evaluation) {w : World}
    {outcome other : Except Error α × World} (h : w.Answers evaluation outcome)
    (h' : w.Answers evaluation other) : outcome = other := by
  obtain ⟨fewer, inner, hperform, hresult⟩ := h
  obtain ⟨more, inner', hperform', hresult'⟩ := h'
  have hmost := hstable (Nat.le_max_left fewer more) _ _ hperform
  have hsame := hmost.symm.trans (hstable (Nat.le_max_right fewer more) _ _ hperform')
  obtain ⟨rfl, hafter⟩ := Prod.ext_iff.mp (Option.some.inj hsame)
  exact Prod.ext (hresult.symm.trans hresult') hafter

/-- An evaluation that takes one more nested run than another, and otherwise does the same. -/
theorem answers_succ {x y : Nat → Evaluation α} {w : World} (hzero : w.perform (x 0) = none)
    (hsucc : ∀ allowance, w.perform (x (allowance + 1)) = w.perform (y allowance))
    {outcome : Except Error α × World} : w.Answers x outcome ↔ w.Answers y outcome := by
  constructor
  · intro h
    obtain ⟨allowance, inner, hinner, hresult⟩ := h
    cases allowance with
    | zero =>
        rw [hzero] at hinner
        cases hinner
    | succ allowance => exact ⟨allowance, inner, hsucc allowance ▸ hinner, hresult⟩
  · intro h
    obtain ⟨allowance, inner, hinner, hresult⟩ := h
    exact ⟨allowance + 1, inner, (hsucc allowance).trans hinner, hresult⟩

/-- Two evaluations in turn answer with an error of the first, or else the second answers where the
first has led. -/
theorem answers_bind {x : Nat → Evaluation α} {f : Nat → α → Evaluation β} (hx : Stable x)
    (hf : ∀ a, Stable fun allowance => f allowance a) {w after : World}
    {result : Except Error β} :
    w.Answers (fun allowance => x allowance >>= f allowance) (result, after) ↔
      (∃ e, w.Answers x (.error e, after) ∧ result = .error e) ∨
        ∃ a middle, w.Answers x (.ok a, middle) ∧
          middle.Answers (fun allowance => f allowance a) (result, after) := by
  constructor
  · intro h
    obtain ⟨allowance, inner, hinner, hresult⟩ := h
    rcases perform_bind_cases hinner with ⟨e, hfailed, rfl⟩ | ⟨a, middle, hfirst, hsecond⟩
    · exact .inl ⟨.runtime e, ⟨allowance, .error e, hfailed, rfl⟩, hresult.symm⟩
    · exact .inr ⟨a, middle, ⟨allowance, .ok a, hfirst, rfl⟩, allowance, inner, hsecond, hresult⟩
  · intro h
    rcases h with ⟨e, hfails, rfl⟩ | ⟨a, middle, hgoes, hlater⟩
    · obtain ⟨allowance, inner, hinner, he⟩ := hfails
      cases inner with
      | error failure =>
          cases he
          exact ⟨allowance, .error failure, perform_bind_of_error hinner _, rfl⟩
      | ok a => cases he
    · obtain ⟨fewer, inner, hinner, ha⟩ := hgoes
      obtain ⟨more, last, hlast, hresult⟩ := hlater
      cases inner with
      | error failure => cases ha
      | ok b =>
          cases ha
          -- Both have their answers with the greater of the two allowances.
          have hfirst := hx (Nat.le_max_left fewer more) _ _ hinner
          have hsecond := hf a (Nat.le_max_right fewer more) _ _ hlast
          exact ⟨max fewer more, last, (perform_bind_of_ok hfirst _).trans hsecond, hresult⟩

/-- With some allowance, evaluating the source as one application has the outcome. -/
def Evaluates (w : World) (host : Host) (source : String)
    (outcome : Except Error Value × World) : Prop :=
  ∃ allowance, w.evaluate host allowance source = some outcome

/-- With some allowance, loading the source has the outcome. -/
def Loads (w : World) (host : Host) (source : String) (outcome : Except Error Value × World) :
    Prop :=
  ∃ allowance, w.load host allowance source = some outcome

/-- A source that can be read evaluates to what its items come to. -/
theorem withSource_answers {evaluation : Nat → List Value → Evaluation Value} {w : World}
    {source : String} {items : List Value} (h : Value.ofSource source = .ok items)
    {outcome : Except Error Value × World} :
    (∃ allowance, w.withSource source (evaluation allowance) = some outcome) ↔
      w.Answers (fun allowance => evaluation allowance items) outcome := by
  refine exists_congr fun allowance => ?_
  rw [withSource_of_read w h, Option.map_eq_some_iff]
  constructor
  · intro h
    obtain ⟨⟨inner, after⟩, hinner, rfl⟩ := h
    exact ⟨inner, hinner, rfl⟩
  · intro h
    obtain ⟨inner, hinner, hresult⟩ := h
    exact ⟨(inner, outcome.2), hinner, Prod.ext hresult rfl⟩

/-- A source that can be read loads to what its statements come to, with all errors those of an
evaluation. -/
theorem loads_iff {w : World} {host : Host} {source : String} {items : List Value}
    (h : Value.ofSource source = .ok items) {outcome : Except Error Value × World} :
    w.Loads host source outcome ↔
      w.Answers (fun allowance => evalStatements (run host allowance) items) outcome :=
  withSource_answers h

/-- A source that can be read evaluates to what its items come to as an application. -/
theorem evaluates_iff {w : World} {host : Host} {source : String} {items : List Value}
    (h : Value.ofSource source = .ok items) {outcome : Except Error Value × World} :
    w.Evaluates host source outcome ↔
      w.Answers (fun allowance => run host allowance .round items) outcome :=
  withSource_answers h

/-- A source of a single item evaluates to what the item comes to. -/
theorem evaluates_singleton_iff {w : World} {host : Host} {source : String} {v : Value}
    (h : Value.ofSource source = .ok [v]) {outcome : Except Error Value × World} :
    w.Evaluates host source outcome ↔
      w.Answers (fun allowance => evalValue (run host allowance) v) outcome := by
  rw [evaluates_iff h]
  refine answers_succ rfl fun allowance => ?_
  rw [run_singleton]

/-- A source has one outcome. -/
theorem Loads.unique {w : World} {host : Host} {source : String}
    {outcome other : Except Error Value × World} (h : w.Loads host source outcome)
    (h' : w.Loads host source other) : outcome = other := by
  obtain ⟨allowance, h⟩ := h
  obtain ⟨allowance', h'⟩ := h'
  have hmost := load_of_le h (Nat.le_max_left allowance allowance')
  exact Option.some.inj (hmost.symm.trans (load_of_le h' (Nat.le_max_right allowance allowance')))

end World

end QuotedLisp
