import QuotedLisp.Eval.Session
import QuotedLisp.Proofs.Binary64.Exact
import QuotedLisp.Proofs.Eval.Answers
import QuotedLisp.Proofs.Eval.Closure
import QuotedLisp.Proofs.Eval.Perform
import QuotedLisp.Proofs.Value.Regular

/-!
# Evaluation ends in normal forms

Regular code in a world whose scopes bind settled values only ends in a settled value, and leaves
the world as it was in this respect; `run_settles` is the induction. With it every value that is
bound or answered in a session that begins with the builtin functions is in normal form, and
evaluates to itself; see `session_normal`.
-/

namespace QuotedLisp

namespace Scopes

/-- A chain is settled if all its entries bind settled values. -/
theorem settled_iff {scopes : Scopes} :
    scopes.Settled ↔ scopes.All fun entry => entry.2.Settled :=
  ⟨fun h => ⟨h.frames, h.root⟩, fun h => ⟨h.frames, h.root⟩⟩

/-- What a name stands for is settled. -/
theorem Settled.get? {scopes : Scopes} (h : scopes.Settled) {name : Name} {v : Value}
    (hv : scopes.get? name = some v) : v.Settled :=
  (settled_iff.mp h).get? hv

/-- Binding a settled value in the root. -/
theorem Settled.define {scopes : Scopes} (h : scopes.Settled) (name : Name) {v : Value}
    (hv : v.Settled) : (scopes.define name v).Settled :=
  settled_iff.mpr ((settled_iff.mp h).define hv)

/-- A frame of settled values on top. -/
theorem Settled.push {scopes : Scopes} (h : scopes.Settled) {frame : Bindings}
    (hframe : frame.Settled) : (scopes.push frame).Settled :=
  settled_iff.mpr ((settled_iff.mp h).push hframe)

/-- Binding a settled value in the innermost scope. -/
theorem Settled.put {scopes : Scopes} (h : scopes.Settled) (name : Name) {v : Value}
    (hv : v.Settled) : (scopes.put name v).Settled :=
  settled_iff.mpr ((settled_iff.mp h).put hv)

end Scopes

/-- From scopes that bind settled values only, the evaluation leads to such scopes again, and to
a settled value if it has a result. -/
abbrev Settles (evaluation : Evaluation Value) : Prop :=
  evaluation.Ensures (fun w => w.scopes.Settled) Value.Settled

namespace Builtin

/-- A fold on numbers keeps what its steps keep. -/
theorem foldlM_forall {P : Binary64 → Prop} {step : Binary64 → Value → Except RuntimeError Binary64}
    (hstep : ∀ total arg next, step total arg = .ok next → P next) {args : List Value}
    {start total : Binary64} (hstart : P start) (h : args.foldlM step start = .ok total) :
    P total := by
  induction args generalizing start with
  | nil =>
      cases h
      exact hstart
  | cons arg rest ih =>
      rw [List.foldlM_cons] at h
      obtain ⟨next, hnext, hrest⟩ := except_bind_eq_ok.mp h
      exact ih (hstep start arg next hnext) hrest

/-- A number among settled arguments is finite. -/
theorem finite_of_expectNumber {function : String} {v : Value} {x : Binary64}
    (hv : v.Settled) (h : v.expectNumber function = .ok x) : x.isFinite = true := by
  obtain rfl := Value.expectNumber_eq_ok.mp h
  cases hv.regular with
  | number _ hfinite => exact hfinite

/-- The arguments combined are a finite number: a single one is, and so is every step. -/
theorem foldNumbers_settled {b : Builtin}
    {operation : Binary64 → Binary64 → Except RuntimeError Binary64} {args : List Value}
    {v : Value} (hargs : ∀ arg ∈ args, arg.Settled) (h : foldNumbers b operation args = .ok v) :
    v.Settled := by
  cases args with
  | nil => cases h
  | cons first rest =>
      obtain ⟨start, hstart, h⟩ := except_bind_eq_ok.mp h
      obtain ⟨total, htotal, heq⟩ := except_bind_eq_ok.mp h
      cases heq
      have hfinite := finite_of_expectNumber (hargs first List.mem_cons_self) hstart
      refine Value.settled_number
        (foldlM_forall (P := fun x => x.isFinite = true) ?_ hfinite htotal)
      intro total arg next hstep
      obtain ⟨x, -, hstep⟩ := except_bind_eq_ok.mp hstep
      obtain ⟨result, -, hresult⟩ := except_bind_eq_ok.mp hstep
      split at hresult
      · cases hresult
        assumption
      · cases hresult

/-- The difference is a finite number. -/
theorem difference_settled {args : List Value} {v : Value} (hargs : ∀ arg ∈ args, arg.Settled)
    (h : difference args = .ok v) : v.Settled := by
  unfold difference at h
  split at h
  · obtain ⟨x, hx, heq⟩ := except_bind_eq_ok.mp h
    cases heq
    have hfinite := finite_of_expectNumber (hargs _ List.mem_cons_self) hx
    refine Value.settled_number ?_
    cases x with
    | finite x => rfl
    | infinity | nan => cases hfinite
  · exact foldNumbers_settled hargs h

/-- The remainder is a finite number, as the divisor is not zero. -/
theorem remainder_settled {args : List Value} {v : Value} (hargs : ∀ arg ∈ args, arg.Settled)
    (h : remainder args = .ok v) : v.Settled := by
  unfold remainder at h
  split at h
  · obtain ⟨x, hx, h⟩ := except_bind_eq_ok.mp h
    obtain ⟨y, hy, h⟩ := except_bind_eq_ok.mp h
    obtain ⟨result, hresult, heq⟩ := except_bind_eq_ok.mp h
    cases heq
    have hxfinite := finite_of_expectNumber (hargs _ List.mem_cons_self) hx
    have hyfinite := finite_of_expectNumber (hargs _ (by simp)) hy
    unfold guardedDivision at hresult
    split at hresult
    · cases hresult
    · rename_i hzero
      cases hresult
      cases x with
      | infinity | nan => cases hxfinite
      | finite x =>
          cases y with
          | infinity | nan => cases hyfinite
          | finite y =>
              have hmant : y.mant ≠ 0 := by
                intro hmant
                exact hzero (by simp [Binary64.isZero, hmant])
              obtain ⟨z, hz, -⟩ := Binary64.rem_exact x y hmant
              rw [hz]
              exact Value.settled_number rfl
  · cases h

/-- A comparison answers a truth value. -/
theorem comparison_settled {b : Builtin} {relation : Binary64 → Binary64 → Bool}
    {args : List Value} {v : Value} (h : comparison b relation args = .ok v) : v.Settled := by
  obtain ⟨answer, rfl⟩ := comparison_eq_ok h
  exact Value.settled_ofBool answer

/-- Equality answers a truth value. -/
theorem equality_settled {args : List Value} {v : Value} (h : equality args = .ok v) :
    v.Settled := by
  obtain ⟨answer, rfl⟩ := equality_eq_ok h
  exact Value.settled_ofBool answer

/-- The first part of a list is quoted still. -/
theorem first_settled {args : List Value} {v : Value} (hargs : ∀ arg ∈ args, arg.Settled)
    (h : first args = .ok v) : v.Settled := by
  rcases first_eq_ok h with ⟨text, rfl⟩ | ⟨item, rest, rfl, rfl⟩
  · exact Value.settled_string text
  · have hregular := (hargs _ List.mem_cons_self).items
    exact Value.settled_quoted (by simpa using (List.forall_mem_cons.mp hregular).1)

/-- What follows the first part of a list is quoted still. -/
theorem afterFirst_settled {args : List Value} {v : Value} (hargs : ∀ arg ∈ args, arg.Settled)
    (h : afterFirst args = .ok v) : v.Settled := by
  rcases afterFirst_eq_ok h with ⟨text, rfl⟩ | ⟨item, rest, rfl, rfl⟩
  · exact Value.settled_string text
  · have hregular := (hargs _ List.mem_cons_self).items
    exact Value.settled_quoted (List.forall_mem_cons.mp hregular).2

/-- Lists one after the other make a quoted list of items of theirs. -/
theorem concatenation_settled {args : List Value} {v : Value} (hargs : ∀ arg ∈ args, arg.Settled)
    (h : concatenation args = .ok v) : v.Settled := by
  rcases concatenation_eq_ok h with ⟨text, rfl⟩ | ⟨lists, rfl, rfl⟩
  · exact Value.settled_string text
  · refine Value.settled_quoted ?_
    intro item hitem
    obtain ⟨list, hlist, hitem⟩ := List.mem_flatten.mp hitem
    exact (hargs _ (List.mem_map.mpr ⟨list, hlist, rfl⟩)).items item hitem

end Builtin

/-- A closure that was just made holds nothing, and its formals were checked. -/
theorem Closure.make_settled {args : List Value} {v : Value} (hargs : ∀ arg ∈ args, arg.Settled)
    (h : Closure.make args = .ok v) : v.Settled := by
  obtain ⟨formals, body, rfl, hplaced, rfl⟩ := make_eq_ok.mp h
  have hregular := (hargs (.quoted body) (by simp)).items
  exact ⟨.closure [] formals .curly body (by simp) (by simp) hplaced (by simp) hregular, rfl⟩

/-- What a settled closure has bound to its names is settled, if the arguments are. -/
theorem Closure.frame_settled {bound frame : Bindings} {formals waiting : List Name} {b : Bracket}
    {body args : List Value} (hclosure : (Value.closure bound formals b body).Settled)
    (hargs : ∀ arg ∈ args, arg.Settled)
    (h : bindArguments bound formals args = .ok (frame, waiting)) : frame.Settled := by
  obtain ⟨hregular, -⟩ := hclosure
  cases hregular with
  | closure _ _ _ _ hbound hheld =>
      have hsettled : Bindings.Settled bound := fun entry hentry =>
        ⟨hbound entry hentry, hheld entry hentry⟩
      refine bindInOrder_forall h hsettled (fun _ _ arg harg => hargs arg harg) ?_
      intro _ _ list hlist
      exact Value.settled_quoted fun arg harg => (hargs arg (hlist harg)).regular

section

variable {host : Host} {run : Runner}

/-- Evaluating regular values, if running a list of them settles. -/
theorem evalValue_settles (hrun : ∀ b items, (∀ v ∈ items, v.Regular) → Settles (run b items))
    {v : Value} (hv : v.Regular) : Settles (evalValue run v) := by
  cases hv with
  | identifier name =>
      intro w hw result after hperform
      have hlookup : w.perform (Evaluation.lookup name) = some (result, after) := hperform
      rw [World.perform_lookup] at hlookup
      split at hlookup
      · rename_i v hv
        have hsettled := hw.get? hv
        -- What is bound is no error, so the look-up answers it as it is.
        obtain ⟨rfl, rfl⟩ := Prod.mk.inj (Option.some.inj hlookup)
        refine ⟨hw, ?_⟩
        intro a ha
        cases hsettled.regular <;> cases ha <;> exact hsettled
      · cases hlookup
        exact ⟨hw, nofun⟩
  | list b items hitems =>
      cases b with
      | round => exact hrun .round items hitems
      | curly => exact Evaluation.ensures_pure (Value.settled_quoted hitems)
  | number x hfinite => exact Evaluation.ensures_pure (Value.settled_number hfinite)
  | string text => exact Evaluation.ensures_pure (Value.settled_string text)
  | builtin function => exact Evaluation.ensures_pure ⟨.builtin function, rfl⟩
  | closure bound formals b body hbound hheld hformals hwaits hbody =>
      exact Evaluation.ensures_pure
        ⟨.closure bound formals b body hbound hheld hformals hwaits hbody, rfl⟩

/-- Evaluating regular statements, if running a list settles. -/
theorem evalStatements_settles
    (hrun : ∀ b items, (∀ v ∈ items, v.Regular) → Settles (run b items))
    {statements : List Value} (h : ∀ v ∈ statements, v.Regular) :
    Settles (evalStatements run statements) := by
  have hstatements := Evaluation.ensures_evalStatements fun v hv => evalValue_settles hrun (h v hv)
  refine hstatements.mono ?_
  rintro v rfl
  exact Value.settled_unit

/-- Binding settled values. -/
theorem binding_settles (b : Builtin) {bind : Name → Value → Evaluation Unit}
    (hbind : ∀ name v, v.Settled →
      (bind name v).Ensures (fun w => w.scopes.Settled) fun _ => True)
    {args : List Value} (hargs : ∀ arg ∈ args, arg.Settled) : Settles (b.binding bind args) := by
  refine Evaluation.ensures_check fun entries hentries => ?_
  obtain ⟨names, values, rfl, -, rfl⟩ := Builtin.pairs_eq_ok.mp hentries
  have hvalues := (List.forall_mem_cons.mp hargs).2
  refine (Evaluation.ensures_forM fun entry hentry => ?_).bind fun _ _ =>
    Evaluation.ensures_pure Value.settled_unit
  exact hbind entry.1 entry.2 (hvalues _ (List.of_mem_zip hentry).2)

/-- Calling a builtin function with settled arguments, if running a list settles. -/
theorem apply_settles (hrun : ∀ b items, (∀ v ∈ items, v.Regular) → Settles (run b items))
    (b : Builtin) {args : List Value} (hargs : ∀ arg ∈ args, arg.Settled) :
    Settles (b.apply host run args) := by
  cases b with
  | add | multiply | divide =>
      exact Evaluation.ensures_ofExcept fun _ h => Builtin.foldNumbers_settled hargs h
  | subtract => exact Evaluation.ensures_ofExcept fun _ h => Builtin.difference_settled hargs h
  | modulo => exact Evaluation.ensures_ofExcept fun _ h => Builtin.remainder_settled hargs h
  | less | lessEqual | greater | greaterEqual =>
      exact Evaluation.ensures_ofExcept fun _ h => Builtin.comparison_settled h
  | equal => exact Evaluation.ensures_ofExcept fun _ h => Builtin.equality_settled h
  | head => exact Evaluation.ensures_ofExcept fun _ h => Builtin.first_settled hargs h
  | tail => exact Evaluation.ensures_ofExcept fun _ h => Builtin.afterFirst_settled hargs h
  | list => exact Evaluation.ensures_pure (Value.settled_quoted fun v hv => (hargs v hv).regular)
  | eval =>
      show Settles (Builtin.evaluation run args)
      unfold Builtin.evaluation
      split
      · exact hrun _ _ (hargs _ List.mem_cons_self).items
      · exact evalValue_settles hrun (hargs _ List.mem_cons_self).regular
      · exact Evaluation.ensures_throw
  | join => exact Evaluation.ensures_ofExcept fun _ h => Builtin.concatenation_settled hargs h
  | define =>
      refine binding_settles _ (fun name v hv => ?_) hargs
      intro w hw result after hperform
      rw [World.perform_define] at hperform
      cases hperform
      exact ⟨hw.define name hv, fun _ _ => trivial⟩
  | put =>
      refine binding_settles _ (fun name v hv => ?_) hargs
      intro w hw result after hperform
      rw [World.perform_put] at hperform
      cases hperform
      exact ⟨hw.put name hv, fun _ _ => trivial⟩
  | lambda => exact Evaluation.ensures_ofExcept fun _ h => Closure.make_settled hargs h
  | branch =>
      show Settles (Builtin.choice run args)
      unfold Builtin.choice
      split
      · rename_i condition yes no
        refine Evaluation.ensures_check fun x _ => Evaluation.ensures_check fun accepted hyes =>
          Evaluation.ensures_check fun rejected hno => hrun .curly _ ?_
        obtain rfl := Value.expectQuoted_eq_ok.mp hyes
        obtain rfl := Value.expectQuoted_eq_ok.mp hno
        split
        · exact (hargs (.quoted rejected) (by simp)).items
        · exact (hargs (.quoted accepted) (by simp)).items
      · exact Evaluation.ensures_throw
  | raise => exact Evaluation.ensures_ofExcept fun _ h => absurd h Builtin.failure_ne_ok
  | load =>
      show Settles (Builtin.inclusion host run args)
      unfold Builtin.inclusion
      split
      · refine Evaluation.ensures_check fun name _ => ?_
        split
        · exact Evaluation.ensures_pure Value.settled_unit
        · split
          · exact Evaluation.ensures_throw
          · exact Evaluation.ensures_pure Value.settled_unit
          · split
            · exact Evaluation.ensures_throw
            · rename_i statements hstatements
              exact evalStatements_settles hrun fun v hv =>
                (Value.printable_of_source hstatements v hv).regular
      · exact Evaluation.ensures_throw
  | print =>
      show Settles (Builtin.output host args)
      unfold Builtin.output
      split
      · exact Evaluation.ensures_throw
      · intro w hw result after hperform
        cases hperform
        refine ⟨hw, ?_⟩
        rintro a ⟨⟩
        exact Value.settled_unit

/-- An evaluation in a frame of settled values, if the evaluation settles. -/
theorem inFrame_settles {frame : Bindings} (hframe : frame.Settled) {body : Evaluation Value}
    (hbody : Settles body) : Settles (Evaluation.inFrame frame body) := by
  intro w hw result after hperform
  rw [World.perform_inFrame] at hperform
  obtain ⟨⟨result', inner⟩, hinner, heq⟩ := Option.map_eq_some_iff.mp hperform
  cases heq
  obtain ⟨hafter, hresult⟩ := hbody _ (hw.push hframe) _ _ hinner
  refine ⟨⟨?_, hafter.root⟩, hresult⟩
  intro frame' hmem
  exact hafter.frames frame' (List.mem_of_mem_tail hmem)

/-- Calling a settled function with settled arguments, if running a list settles. -/
theorem call_settles (hrun : ∀ b items, (∀ v ∈ items, v.Regular) → Settles (run b items))
    {function : Value} (hfunction : function.Settled) {args : List Value}
    (hargs : ∀ arg ∈ args, arg.Settled) : Settles (call host run function args) := by
  have hregular := hfunction.regular
  cases hregular with
  | builtin b => exact apply_settles hrun b hargs
  | closure bound formals b body _ _ hformals _ hbody =>
      intro w hw result after hperform
      rw [World.perform_call_closure] at hperform
      split at hperform
      · cases hperform
        exact ⟨hw, nofun⟩
      · rename_i frame hbind
        have hframe := Closure.frame_settled hfunction hargs hbind
        exact inFrame_settles hframe (hrun b body hbody) w hw _ _ hperform
      · rename_i frame formal waiting hbind
        have hframe := Closure.frame_settled hfunction hargs hbind
        have hwaiting := Closure.bindInOrder_well_placed hbind hformals
        have hwaits := Closure.bindInOrder_waits hbind (List.cons_ne_nil formal waiting)
        cases hperform
        refine ⟨hw, ?_⟩
        rintro v ⟨⟩
        exact ⟨.closure frame _ b body (fun entry h => (hframe entry h).regular)
          (fun entry h => (hframe entry h).result) hwaiting (fun _ => hwaits) hbody, rfl⟩
  | number | string | identifier | list => exact Evaluation.ensures_throw

/-- Running a list of regular items, if running the lists inside it settles. -/
theorem runItems_settles (hrun : ∀ b items, (∀ v ∈ items, v.Regular) → Settles (run b items))
    (b : Bracket) {items : List Value} (h : ∀ v ∈ items, v.Regular) :
    Settles (runItems host run b items) := by
  rw [runItems_eq]
  have hvalues := Evaluation.ensures_evalValues fun v hv => evalValue_settles hrun (h v hv)
  refine hvalues.bind fun values hsettled => ?_
  unfold applyValues
  split
  · refine Evaluation.ensures_pure ⟨.list b [] (by simp), ?_⟩
    cases b <;> rfl
  · exact Evaluation.ensures_pure (hsettled _ List.mem_cons_self)
  · obtain ⟨hfunction, hargs⟩ := List.forall_mem_cons.mp hsettled
    exact call_settles hrun hfunction hargs

end

/-- Running a list of regular items ends in a settled value. -/
theorem run_settles (host : Host) (allowance : Nat) (b : Bracket) {items : List Value}
    (h : ∀ v ∈ items, v.Regular) : Settles (run host allowance b items) := by
  induction allowance generalizing b items with
  | zero => exact Evaluation.ensures_exhausted
  | succ allowance ih => exact runItems_settles (fun b items h => ih b h) b h

/-- The builtin functions are settled values. -/
theorem Bindings.settled_withBuiltins : (Bindings.withBuiltins []).Settled := by
  refine Bindings.forall_setAll nofun ?_
  intro entry hentry
  obtain ⟨b, -, rfl⟩ := List.mem_map.mp hentry
  exact ⟨.builtin b, rfl⟩

/-- A source text is evaluated to a settled value, as its items are regular. -/
theorem World.withSource_settles {w after : World} (hw : w.scopes.Settled) {source : String}
    {evaluation : List Value → Evaluation Value}
    (hevaluation : ∀ items, (∀ v ∈ items, v.Regular) → Settles (evaluation items))
    {result : Except Error Value} (h : w.withSource source evaluation = some (result, after)) :
    after.scopes.Settled ∧ ∀ v, result = .ok v → v.Settled := by
  rcases withSource_cases h with ⟨e, -, rfl, rfl⟩ | ⟨items, inner, hsource, hperform, rfl⟩
  · refine ⟨hw, ?_⟩
    intro v hv
    cases hv
  · have hregular := fun v hv => (Value.printable_of_source hsource v hv).regular
    obtain ⟨hafter, hresult⟩ := hevaluation items hregular w hw _ _ hperform
    refine ⟨hafter, ?_⟩
    intro v hv
    cases inner with
    | error e => cases hv
    | ok v' =>
        cases hv
        exact hresult v rfl

/-- The worlds of a session: at first the builtin functions are bound in the root, and then source
texts are evaluated in it, as an application or as statements, for any host and any allowance. -/
inductive Session : World → Prop where
  | start : Session ⟨⟨[], Bindings.withBuiltins []⟩, ""⟩
  | evaluate (w host allowance source result after) :
      Session w → w.evaluate host allowance source = some (result, after) → Session after
  | load (w host allowance source result after) :
      Session w → w.load host allowance source = some (result, after) → Session after

/-- A source text that is evaluated in either way leads from settled scopes to settled scopes and
results. -/
theorem World.submit_settles {w after : World} (hw : w.scopes.Settled) {host : Host}
    {allowance : Nat} {source : String} {result : Except Error Value}
    (h : w.evaluate host allowance source = some (result, after) ∨
      w.load host allowance source = some (result, after)) :
    after.scopes.Settled ∧ ∀ v, result = .ok v → v.Settled := by
  rcases h with h | h
  · exact withSource_settles hw (fun _ => run_settles host allowance .round) h
  · refine withSource_settles hw (fun items hitems => ?_) h
    exact evalStatements_settles (fun b _ => run_settles host allowance b) hitems

/-- Nothing but settled values is ever bound in a session. -/
theorem Session.settled {w : World} (h : Session w) : w.scopes.Settled := by
  induction h with
  | start => exact ⟨by simp, Bindings.settled_withBuiltins⟩
  | evaluate w host allowance source result after _ hafter ih =>
      exact (World.submit_settles ih (.inl hafter)).1
  | load w host allowance source result after _ hafter ih =>
      exact (World.submit_settles ih (.inr hafter)).1

/-- Wherever it is evaluated, the value is its own result, and nothing else happens. -/
def Value.EvaluatesToItself (v : Value) : Prop :=
  ∀ (w : World) (host : Host) (allowance : Nat),
    w.perform (evalValue (run host (allowance + 1)) v) = some (.ok v, w)

/-- A value in which evaluation can end evaluates to itself. -/
theorem Value.evaluates_to_itself {v : Value} (h : v.isResult = true) : v.EvaluatesToItself := by
  intro w host allowance
  cases v with
  | list b items =>
      cases b with
      | round =>
          obtain rfl := List.isEmpty_iff.mp h
          rfl
      | curly => rfl
  | identifier | error => cases h
  | number | string | builtin | closure => rfl

/-- In a session all values that are bound in the root and all results are in normal form, and
evaluate to themselves from then on. -/
theorem session_normal {w : World} (h : Session w) :
    (∀ entry ∈ w.scopes.root, entry.2.Normal ∧ entry.2.EvaluatesToItself) ∧
      ∀ (host : Host) (allowance : Nat) (source : String) (v : Value) (after : World),
        w.evaluate host allowance source = some (.ok v, after) ∨
          w.load host allowance source = some (.ok v, after) →
        v.Normal ∧ v.EvaluatesToItself := by
  have hnormal (v : Value) (hv : v.Settled) : v.Normal ∧ v.EvaluatesToItself :=
    ⟨hv.normal, Value.evaluates_to_itself hv.result⟩
  constructor
  · intro entry hentry
    exact hnormal _ (h.settled.root entry hentry)
  · intro host allowance source v after hresult
    exact hnormal v ((World.submit_settles h.settled hresult).2 v rfl)

/-- A statement that binds a closure which holds one argument and waits for another. -/
def bindsClosure : Value :=
  .list .round [.identifier "def", .quoted [.identifier "k"],
    .list .round [.list .round [.identifier "fn",
      .quoted [.identifier "x", .identifier "y"], .quoted [.identifier "x"]], .number .one]]

/-- The closure that the statement binds. -/
def waitingClosure : Value :=
  .closure [("x", .number .one)] ["y"] .curly [.identifier "x"]

/-- After the statement the closure is bound, it is what its name stands for, and it is in normal
form. -/
theorem session_normal_closure :
    ∃ w, Session w ∧ ("k", waitingClosure) ∈ w.scopes.root ∧ waitingClosure.Normal ∧
      (∃ after, w.evaluate ⟨none, none⟩ 1 (Value.identifier "k").display =
        some (.ok waitingClosure, after)) ∧
      waitingClosure.EvaluatesToItself := by
  have hstatement : bindsClosure.Printable := by decide
  have hk : (Value.identifier "k").Printable := by decide
  have hload : World.load ⟨⟨[], Bindings.withBuiltins []⟩, ""⟩ ⟨none, none⟩ 4
      bindsClosure.display =
        some (.ok .unit, ⟨⟨[], (Bindings.withBuiltins []).set "k" waitingClosure⟩, ""⟩) := by
    rw [World.load, World.withSource_of_read _ hstatement.of_source_display]
    rfl
  have hsession := Session.load _ _ _ _ _ _ .start hload
  have hmem : ("k", waitingClosure) ∈ (Bindings.withBuiltins []).set "k" waitingClosure :=
    Bindings.mem_of_get?_eq_some (by rw [Bindings.get?_set]; rfl)
  have hevaluate : World.evaluate ⟨⟨[], (Bindings.withBuiltins []).set "k" waitingClosure⟩, ""⟩
      ⟨none, none⟩ 1 (Value.identifier "k").display =
        some (.ok waitingClosure,
          ⟨⟨[], (Bindings.withBuiltins []).set "k" waitingClosure⟩, ""⟩) := by
    rw [World.evaluate, World.withSource_of_read _ hk.of_source_display]
    rfl
  obtain ⟨hbound, hresult⟩ := session_normal hsession
  exact ⟨_, hsession, hmem, (hbound _ hmem).1, ⟨_, hevaluate⟩,
    (hresult _ _ _ _ _ (.inl hevaluate)).2⟩

end QuotedLisp
