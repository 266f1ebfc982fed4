import QuotedLisp.Eval.Session
import QuotedLisp.Proofs.Eval.Allowance
import QuotedLisp.Proofs.Value.RoundTrip

/-!
# Modules stand for their texts

A statement that loads a module does where it stands what the statements of the module would do
there, `perform_importing`: it binds names in the scope that it stands in, and fails as they fail.
So in a source such a statement can be replaced by the text of the module, `load_inclusion`. The
statement nests one run deeper than the text, which is why the two are compared whatever the
allowance.
-/

namespace QuotedLisp

/-- The statement that loads a module. -/
def importing (name : String) : Value :=
  .list .round [.identifier Builtin.load.name, .string name]

namespace World

variable {w : World} {host : Host}

/-- Where its first name stands for the builtin function, the statement that loads a module comes
to what the statements of the module come to. -/
theorem perform_importing (hname : w.scopes.get? Builtin.load.name = some (.builtin .load))
    {modules : ModuleSource} (hmodules : host.modules = some modules) {name text : String}
    (hread : modules.read name = .ok (some text)) {statements : List Value}
    (htext : Value.ofSource text = .ok statements) (allowance : Nat) :
    w.perform (evalValue (run host (allowance + 1)) (importing name)) =
      w.perform (evalStatements (run host allowance) statements) := by
  show w.perform (run host (allowance + 1) .round [.identifier Builtin.load.name, .string name]) = _
  rw [perform_builtin hname fun _ => rfl]
  show w.perform (Builtin.inclusion host (run host allowance) [.string name]) = _
  unfold Builtin.inclusion
  simp only [Value.expectString, perform_check, hmodules, hread, htext]

/-- Statements with a statement that loads a module among them come to what they come to with the
statements of the module in its place, if its first name stands for the builtin function there. -/
theorem statements_inclusion {modules : ModuleSource} (hmodules : host.modules = some modules)
    {name text : String} (hread : modules.read name = .ok (some text))
    {statements : List Value} (htext : Value.ofSource text = .ok statements)
    {before : List Value}
    (hname : ∀ allowance v middle,
      w.perform (evalStatements (run host allowance) before) = some (.ok v, middle) →
      middle.scopes.get? Builtin.load.name = some (.builtin .load))
    (after : List Value) (allowance : Nat) :
    Evaluation.ApproximatesIn w
        (evalStatements (run host allowance) (before ++ importing name :: after))
        (evalStatements (run host allowance) (before ++ (statements ++ after))) ∧
      Evaluation.ApproximatesIn w
        (evalStatements (run host allowance) (before ++ (statements ++ after)))
        (evalStatements (run host (allowance + 1)) (before ++ importing name :: after)) := by
  have hmore (items : List Value) : (evalStatements (run host allowance) items).Approximates
      (evalStatements (run host (allowance + 1)) items) :=
    evalStatements_approximates (run_approximates host (Nat.le_succ allowance)) items
  simp only [evalStatements_append]
  constructor
  · refine (Evaluation.Approximates.refl _ w).bind fun v middle hbefore => ?_
    have hthere := hname _ _ _ hbefore
    refine Evaluation.ApproximatesIn.bind ?_ fun _ last _ => Evaluation.Approximates.refl _ last
    cases allowance with
    | zero => exact Evaluation.exhausted_approximates _ middle
    | succ allowance =>
        rw [Evaluation.ApproximatesIn, perform_importing hthere hmodules hread htext]
        exact evalStatements_approximates (run_approximates host (Nat.le_succ _)) _ middle
  · refine (hmore before w).bind fun v middle hbefore => ?_
    have hthere := hname _ _ _ hbefore
    refine Evaluation.ApproximatesIn.bind ?_ fun _ last _ => hmore after last
    rw [Evaluation.ApproximatesIn, perform_importing hthere hmodules hread htext]
    exact fun _ h => h

/-- Statements that have a result come to the empty list. -/
theorem statements_unit {run : Runner} {statements : List Value} {v : Value} {after : World}
    (h : w.perform (evalStatements run statements) = some (.ok v, after)) : v = .unit := by
  rw [evalStatements_eq] at h
  rcases perform_bind_cases h with ⟨_, _, heq⟩ | ⟨_, _, _, hunit⟩
  · cases heq
  · cases hunit
    rfl

end World

/-- In a source that is loaded, a statement that loads a module can be replaced by the text of the
module, if its first name stands for the builtin function when the statement is reached. Both
sources have the same outcomes, and so both have one or neither has: the result, the bindings in
all scopes and the printed text are the same, wherever they are loaded and wherever they fail. The
result is the empty list or the error of an evaluation. -/
theorem load_inclusion {host : Host} {modules : ModuleSource}
    (hmodules : host.modules = some modules) {name text : String}
    (hread : modules.read name = .ok (some text)) {statements : List Value}
    (htext : Value.ofSource text = .ok statements) {earlier statement later : String}
    {before after : List Value} (hearlier : Value.ofSource earlier = .ok before)
    (hstatement : Value.ofSource statement = .ok [importing name])
    (hlater : Value.ofSource later = .ok after) {w : World}
    (hname : ∀ v middle, w.Loads host earlier (.ok v, middle) →
      middle.scopes.get? Builtin.load.name = some (.builtin .load)) :
    (∀ outcome, w.Loads host (earlier ++ "\n" ++ statement ++ "\n" ++ later) outcome ↔
      w.Loads host (earlier ++ "\n" ++ text ++ "\n" ++ later) outcome) ∧
    ∀ result last, w.Loads host (earlier ++ "\n" ++ statement ++ "\n" ++ later) (result, last) →
      result = .ok .unit ∨ ∃ e, result = .error (.runtime e) := by
  have hwith : Value.ofSource (earlier ++ "\n" ++ statement ++ "\n" ++ later) =
      .ok (before ++ importing name :: after) := by
    have hread := Value.of_source_append (Value.of_source_append hearlier hstatement) hlater
    rwa [List.append_assoc] at hread
  have hwithout : Value.ofSource (earlier ++ "\n" ++ text ++ "\n" ++ later) =
      .ok (before ++ (statements ++ after)) := by
    have hread := Value.of_source_append (Value.of_source_append hearlier htext) hlater
    rwa [List.append_assoc] at hread
  have hreached (allowance : Nat) (v : Value) (middle : World)
      (hbefore : w.perform (evalStatements (run host allowance) before) = some (.ok v, middle)) :
      middle.scopes.get? Builtin.load.name = some (.builtin .load) :=
    hname v middle ((World.loads_iff hearlier).mpr ⟨allowance, _, hbefore, rfl⟩)
  have hsame := World.statements_inclusion hmodules hread htext hreached after
  constructor
  · rintro ⟨result, last⟩
    rw [World.loads_iff hwith, World.loads_iff hwithout]
    constructor
    · rintro ⟨allowance, inner, hinner, hresult⟩
      exact ⟨allowance, inner, (hsame allowance).1 _ hinner, hresult⟩
    · rintro ⟨allowance, inner, hinner, hresult⟩
      exact ⟨allowance + 1, inner, (hsame allowance).2 _ hinner, hresult⟩
  · intro result last h
    obtain ⟨allowance, inner, hinner, rfl⟩ := (World.loads_iff hwith).mp h
    cases inner with
    | error e => exact .inr ⟨e, rfl⟩
    | ok v =>
        left
        rw [World.statements_unit hinner]
        rfl

/-- A statement that binds a number where it stands. -/
def bindsHere (name : Name) : Value :=
  .list .round [.identifier "let", .quoted [.identifier name], .number .one]

/-- A module that binds a name and then fails. -/
def stoppingModule : String :=
  (bindsHere "inside").display ++ "\n" ++
    (Value.list .round [.identifier "error", .string "stop"]).display

/-- A host with the module. -/
def stoppingHost : Host :=
  ⟨some (.ofList [("stopping", stoppingModule)]), none⟩

/-- In a call, where names are bound in the frame, the module binds its name there and ends the
source that loads it before the last statement. -/
theorem load_inclusion_stopping :
    World.Loads ⟨⟨[[]], Bindings.withBuiltins []⟩, ""⟩ stoppingHost
      ((bindsHere "before").display ++ "\n" ++ (importing "stopping").display ++ "\n" ++
        (bindsHere "after").display)
      (.error (.runtime (.user "stop")),
        ⟨⟨[[("before", .number .one), ("inside", .number .one)]], Bindings.withBuiltins []⟩, ""⟩)
    := by
  have hbefore : (bindsHere "before").Printable := by decide
  have hinside : (bindsHere "inside").Printable := by decide
  have hafter : (bindsHere "after").Printable := by decide
  have hstop : (Value.list .round [.identifier "error", .string "stop"]).Printable := by decide
  have himport : (importing "stopping").Printable := by decide
  have htext := Value.of_source_append hinside.of_source_display hstop.of_source_display
  have hloads : World.Loads ⟨⟨[[]], Bindings.withBuiltins []⟩, ""⟩ stoppingHost
      (bindsHere "before").display
      (.ok .unit, ⟨⟨[[("before", .number .one)]], Bindings.withBuiltins []⟩, ""⟩) :=
    (World.loads_iff hbefore.of_source_display).mpr ⟨1, .ok .unit, rfl, rfl⟩
  refine ((load_inclusion rfl rfl htext hbefore.of_source_display himport.of_source_display
    hafter.of_source_display ?_).1 _).mpr ?_
  · intro v middle h
    cases hloads.unique h
    rfl
  · have hread := Value.of_source_append
      (Value.of_source_append hbefore.of_source_display htext) hafter.of_source_display
    exact (World.loads_iff hread).mpr ⟨1, .error (.user "stop"), rfl, rfl⟩

end QuotedLisp
