import QuotedLisp.Proofs.Eval.Answers
import QuotedLisp.Proofs.Eval.Closure
import QuotedLisp.Proofs.Eval.Perform
import QuotedLisp.Proofs.Value.Mention

/-!
# Runs in step

The same code is run in two worlds whose scopes are related. If related scopes give the names of
the code the same values, and stay related where such a name is bound (`Scopes.Simulation`), then
the runs go in step, `run_respects`: both have the same result or neither has any, both print the
same, and their scopes are related in the end. While calls are in progress their frames stand on
top of the related scopes, and are the same in both worlds (`Scopes.Under`).
-/

namespace QuotedLisp

variable {α β : Type}

/-- Two worlds with related scopes, in which the same has been printed. -/
structure World.InStep (R : Scopes → Scopes → Prop) (w other : World) : Prop where
  scopes : R w.scopes other.scopes
  printed : other.printed = w.printed

/-- The same result, in worlds that are in step. -/
structure SameOutcome (R : Scopes → Scopes → Prop)
    (outcome other : Except RuntimeError α × World) : Prop where
  result : other.1 = outcome.1
  worlds : outcome.2.InStep R other.2

/-- The same outcome, with a weaker relation of the scopes. -/
theorem SameOutcome.mono {R R' : Scopes → Scopes → Prop}
    {outcome other : Except RuntimeError α × World} (h : SameOutcome R outcome other)
    (hR : ∀ scopes scopes', R scopes scopes' → R' scopes scopes') :
    SameOutcome R' outcome other :=
  ⟨h.result, hR _ _ h.worlds.scopes, h.worlds.printed⟩

/-- Two answers that are related, if there are any, are related by what the relation implies. -/
theorem option_rel_mono {r s : α → β → Prop} {x : Option α} {y : Option β} (h : Option.Rel r x y)
    (hrs : ∀ a b, r a b → s a b) : Option.Rel s x y := by
  cases h with
  | none => exact .none
  | some h => exact .some (hrs _ _ h)

/-- What has an evaluated value as its result is that value. -/
theorem Value.eq_of_toResult {v result : Value} (h : v.toResult = .ok result) : result = v := by
  cases v <;> cases h <;> rfl

namespace Evaluation

/-- In worlds that are in step the evaluation has the same outcome, or in neither of them any, and
a result has the given property. -/
def Respects (R : Scopes → Scopes → Prop) (evaluation : Evaluation α) (Q : α → Prop) : Prop :=
  ∀ w other : World, w.InStep R other →
    Option.Rel (fun outcome outcome' =>
        SameOutcome R outcome outcome' ∧ ∀ a, outcome.1 = .ok a → Q a)
      (w.perform evaluation) (other.perform evaluation)

variable {R : Scopes → Scopes → Prop} {Q : α → Prop} {P : β → Prop}

/-- A check. -/
theorem respects_ofExcept {result : Except RuntimeError α} (h : ∀ a, result = .ok a → Q a) :
    Respects R (ofExcept result) Q := by
  intro w other hstep
  rw [World.perform_ofExcept, World.perform_ofExcept]
  exact .some ⟨⟨rfl, hstep⟩, h⟩

/-- A result at hand. -/
theorem respects_pure {a : α} (h : Q a) : Respects R (pure a) Q := by
  show Respects R (ofExcept (.ok a)) Q
  refine respects_ofExcept fun result hresult => ?_
  cases hresult
  exact h

/-- A failure. -/
theorem respects_throw {e : RuntimeError} : Respects R (throw e : Evaluation α) Q := by
  show Respects R (ofExcept (.error e)) Q
  exact respects_ofExcept nofun

/-- Without an answer in one world there is none in the other. -/
theorem respects_exhausted : Respects R (exhausted : Evaluation α) Q := by
  intro w other _
  rw [World.perform_exhausted, World.perform_exhausted]
  exact .none

/-- Two evaluations in turn. -/
theorem Respects.bind {x : Evaluation α} {f : α → Evaluation β} (hx : Respects R x Q)
    (hf : ∀ a, Q a → Respects R (f a) P) : Respects R (x >>= f) P := by
  intro w other hstep
  have hfirst := hx w other hstep
  rw [World.perform_bind, World.perform_bind]
  generalize w.perform x = outcome, other.perform x = outcome' at hfirst
  cases hfirst with
  | none => exact .none
  | @some outcome outcome' h =>
      obtain ⟨result, after⟩ := outcome
      obtain ⟨result', after'⟩ := outcome'
      obtain ⟨⟨hresult, hafter⟩, hQ⟩ := h
      obtain rfl : result' = result := hresult
      cases result' with
      | error e => exact .some ⟨⟨rfl, hafter⟩, nofun⟩
      | ok a => exact hf a (hQ a rfl) after after' hafter

/-- A check before an evaluation. -/
theorem respects_check {result : Except RuntimeError α} {f : α → Evaluation β}
    (h : ∀ a, result = .ok a → Respects R (f a) P) : Respects R (ofExcept result >>= f) P :=
  Respects.bind (respects_ofExcept fun _ ha => ha) h

/-- A step to another world, which cannot fail. -/
theorem respects_step {evaluation : Evaluation Unit} {step : World → World}
    (h : ∀ w, w.perform evaluation = some (.ok (), step w))
    (hstep : ∀ w other, w.InStep R other → (step w).InStep R (step other)) :
    Respects R evaluation fun _ => True := by
  intro w other hworlds
  rw [h, h]
  exact .some ⟨⟨rfl, hstep w other hworlds⟩, fun _ _ => trivial⟩

/-- One evaluation for each member of a list. -/
theorem respects_forM {entries : List β} {f : β → Evaluation Unit}
    (h : ∀ entry ∈ entries, Respects R (f entry) fun _ => True) :
    Respects R (entries.forM f) fun _ => True := by
  induction entries with
  | nil => exact respects_pure trivial
  | cons entry rest ih =>
      obtain ⟨hentry, hrest⟩ := List.forall_mem_cons.mp h
      exact hentry.bind fun _ _ => ih hrest

end Evaluation

namespace Scopes

/-- No code of the given names tells related scopes apart: they give these names the same values,
which mention such names only, and they stay related when such a value is bound to one of the
names. -/
structure Simulation (names : Name → Prop) (R : Scopes → Scopes → Prop) : Prop where
  lookup : ∀ {scopes other name}, R scopes other → names name →
    other.get? name = scopes.get? name
  found : ∀ {scopes other name v}, R scopes other → names name →
    scopes.get? name = some v → v.NamesIn names
  put : ∀ {scopes other name v}, R scopes other → names name → v.NamesIn names →
    R (scopes.put name v) (other.put name v)
  define : ∀ {scopes other name v}, R scopes other → names name → v.NamesIn names →
    R (scopes.define name v) (other.define name v)

/-- The chain with more frames, the first of them as its innermost scope. -/
def pushAll (scopes : Scopes) (frames : List Bindings) : Scopes :=
  { scopes with frames := frames ++ scopes.frames }

/-- A name is looked up in the frames on top, and then in the chain under them. -/
theorem get?_pushAll (scopes : Scopes) (frames : List Bindings) (name : Name) :
    (scopes.pushAll frames).get? name =
      (frames.findSome? fun frame => frame.get? name).or (scopes.get? name) := by
  simp only [get?, pushAll, List.findSome?_append, Option.or_assoc]

/-- `Under names R depth` relates two chains that have the same frames on top, as many as `depth`
says and of the given names, and under them scopes that `R` relates. -/
def Under (names : Name → Prop) (R : Scopes → Scopes → Prop) (depth : Nat)
    (scopes other : Scopes) : Prop :=
  ∃ frames base base', frames.length = depth ∧ (∀ frame ∈ frames, Bindings.NamesIn names frame) ∧
    R base base' ∧ scopes = base.pushAll frames ∧ other = base'.pushAll frames

variable {names : Name → Prop} {R : Scopes → Scopes → Prop} {depth : Nat} {scopes other : Scopes}

/-- Without frames on top this is the relation itself. -/
theorem under_zero : Under names R 0 scopes other ↔ R scopes other := by
  constructor
  · rintro ⟨frames, base, base', hdepth, -, hbase, rfl, rfl⟩
    obtain rfl := List.eq_nil_of_length_eq_zero hdepth
    exact hbase
  · intro h
    exact ⟨[], scopes, other, rfl, by simp, h, rfl, rfl⟩

/-- The same frame on top of both. -/
theorem Under.push (h : Under names R depth scopes other) {frame : Bindings}
    (hframe : frame.NamesIn names) :
    Under names R (depth + 1) (scopes.push frame) (other.push frame) := by
  obtain ⟨frames, base, base', rfl, hframes, hbase, rfl, rfl⟩ := h
  exact ⟨frame :: frames, base, base', rfl, List.forall_mem_cons.mpr ⟨hframe, hframes⟩, hbase,
    rfl, rfl⟩

/-- The innermost frame is taken off both. -/
theorem Under.pop (h : Under names R (depth + 1) scopes other) :
    Under names R depth scopes.pop other.pop := by
  obtain ⟨frames, base, base', hdepth, hframes, hbase, rfl, rfl⟩ := h
  cases frames with
  | nil => cases hdepth
  | cons frame frames =>
      obtain ⟨-, hframes⟩ := List.forall_mem_cons.mp hframes
      exact ⟨frames, base, base', Nat.succ.inj hdepth, hframes, hbase, rfl, rfl⟩

/-- With the same frames on top related scopes cannot be told apart either. -/
theorem Simulation.under (h : Simulation names R) (depth : Nat) :
    Simulation names (Under names R depth) where
  lookup := by
    rintro _ _ name ⟨frames, base, base', -, -, hbase, rfl, rfl⟩ hname
    rw [get?_pushAll, get?_pushAll, h.lookup hbase hname]
  found := by
    rintro _ _ name v ⟨frames, base, base', -, hframes, hbase, rfl, rfl⟩ hname hv
    rw [get?_pushAll] at hv
    rcases Option.or_eq_some_iff.mp hv with hframe | ⟨-, hv⟩
    · obtain ⟨frame, hmem, hframe⟩ := List.exists_of_findSome?_eq_some hframe
      exact (hframes frame hmem _ (Bindings.mem_of_get?_eq_some hframe)).2
    · exact h.found hbase hname hv
  put := by
    rintro _ _ name v ⟨frames, base, base', hdepth, hframes, hbase, rfl, rfl⟩ hname hv
    -- The binding goes into the first of the frames, and into the related scopes if there is none.
    cases frames with
    | nil => exact ⟨[], _, _, hdepth, hframes, h.put hbase hname hv, rfl, rfl⟩
    | cons frame frames =>
        obtain ⟨hframe, hframes⟩ := List.forall_mem_cons.mp hframes
        exact ⟨frame.set name v :: frames, base, base', hdepth,
          List.forall_mem_cons.mpr ⟨Bindings.forall_set hframe ⟨hname, hv⟩, hframes⟩, hbase,
          rfl, rfl⟩
  define := by
    rintro _ _ name v ⟨frames, base, base', hdepth, hframes, hbase, rfl, rfl⟩ hname hv
    exact ⟨frames, _, _, hdepth, hframes, h.define hbase hname hv, rfl, rfl⟩

end Scopes

/-- The texts of all modules mention the given names only. -/
def Host.NamesIn (names : Name → Prop) (host : Host) : Prop :=
  ∀ modules name text statements, host.modules = some modules →
    modules.read name = .ok (some text) → Value.ofSource text = .ok statements →
    ∀ v ∈ statements, v.NamesIn names

/-- What a closure binds mentions the names of the closure and of its arguments, and the formals
that wait are names of the closure. -/
theorem Closure.bindArguments_names {names : Name → Prop} {bound frame : Bindings}
    {formals waiting : List Name} {args : List Value} (hbound : bound.NamesIn names)
    (hformals : ∀ formal ∈ formals, names formal) (hargs : ∀ arg ∈ args, arg.NamesIn names)
    (h : bindArguments bound formals args = .ok (frame, waiting)) :
    frame.NamesIn names ∧ ∀ formal ∈ waiting, names formal := by
  refine ⟨bindInOrder_forall h hbound ?_ ?_, ?_⟩
  · intro formal hformal arg harg
    exact ⟨hformals formal hformal, hargs arg harg⟩
  · intro formal hformal list hlist
    exact ⟨hformals formal hformal, Value.namesIn_list.mpr fun arg harg => hargs arg (hlist harg)⟩
  · intro formal hformal
    exact hformals formal ((bindInOrder_suffix h).subset hformal)

open Scopes Evaluation

section

variable {names : Name → Prop} {R : Scopes → Scopes → Prop} {host : Host} {run : Runner}
  {depth : Nat}

/-- Running a list of items that mention the given names only goes in step, whatever frames are
on top, and so does the result. -/
abbrev RunsInStep (names : Name → Prop) (R : Scopes → Scopes → Prop) (run : Runner) : Prop :=
  ∀ (depth : Nat) (b : Bracket) (items : List Value), (∀ v ∈ items, v.NamesIn names) →
    Respects (Under names R depth) (run b items) (Value.NamesIn names)

/-- A name is looked up. -/
theorem lookup_respects (hR : Simulation names R) {name : Name} (hname : names name) :
    Respects R (lookup name) (Value.NamesIn names) := by
  intro w other hstep
  rw [World.perform_lookup, World.perform_lookup, hR.lookup hstep.scopes hname]
  cases hv : w.scopes.get? name with
  | none => exact .some ⟨⟨rfl, hstep⟩, nofun⟩
  | some v =>
      refine .some ⟨⟨rfl, hstep⟩, ?_⟩
      intro result hresult
      rw [Value.eq_of_toResult hresult]
      exact hR.found hstep.scopes hname hv

/-- An evaluation in a frame of its own. -/
theorem inFrame_respects {frame : Bindings} (hframe : frame.NamesIn names) {body : Evaluation α}
    {Q : α → Prop} (h : Respects (Under names R (depth + 1)) body Q) :
    Respects (Under names R depth) (inFrame frame body) Q := by
  intro w other hstep
  have hbody := h (w.push frame) (other.push frame) ⟨hstep.scopes.push hframe, hstep.printed⟩
  rw [World.perform_inFrame, World.perform_inFrame]
  generalize (w.push frame).perform body = outcome, (other.push frame).perform body = outcome'
    at hbody
  cases hbody with
  | none => exact .none
  | some h =>
      obtain ⟨⟨hresult, hworlds⟩, hQ⟩ := h
      exact .some ⟨⟨hresult, hworlds.scopes.pop, hworlds.printed⟩, hQ⟩

/-- Evaluating a value, if running a list does. -/
theorem evalValue_respects (hR : Simulation names R) (hrun : RunsInStep names R run) {v : Value}
    (hv : v.NamesIn names) :
    Respects (Under names R depth) (evalValue run v) (Value.NamesIn names) := by
  cases v with
  | identifier name => exact lookup_respects (hR.under depth) (Value.namesIn_identifier.mp hv)
  | list b items =>
      cases b with
      | round => exact hrun depth .round items (Value.namesIn_list.mp hv)
      | curly => exact respects_pure hv
  | number | string | builtin | closure => exact respects_pure hv
  | error => exact respects_throw

/-- Evaluating several values, if running a list does. -/
theorem evalValues_respects (hR : Simulation names R) (hrun : RunsInStep names R run)
    {items : List Value} (h : ∀ v ∈ items, v.NamesIn names) :
    Respects (Under names R depth) (evalValues run items)
      fun values => ∀ v ∈ values, v.NamesIn names := by
  induction items with
  | nil => exact respects_pure (by simp)
  | cons item rest ih =>
      obtain ⟨hitem, hrest⟩ := List.forall_mem_cons.mp h
      refine (evalValue_respects hR hrun hitem).bind fun v hv =>
        (ih hrest).bind fun values hvalues => respects_pure ?_
      exact List.forall_mem_cons.mpr ⟨hv, hvalues⟩

/-- Evaluating statements, if running a list does. -/
theorem evalStatements_respects (hR : Simulation names R) (hrun : RunsInStep names R run)
    {statements : List Value} (h : ∀ v ∈ statements, v.NamesIn names) :
    Respects (Under names R depth) (evalStatements run statements) (Value.NamesIn names) := by
  rw [evalStatements_eq]
  exact (evalValues_respects hR hrun h).bind fun _ _ => respects_pure Value.namesIn_unit

/-- Binding names to values, if binding one does. -/
theorem binding_respects (b : Builtin) {bind : Name → Value → Evaluation Unit}
    (hbind : ∀ name v, names name → v.NamesIn names → Respects R (bind name v) fun _ => True)
    {args : List Value} (hargs : ∀ arg ∈ args, arg.NamesIn names) :
    Respects R (b.binding bind args) (Value.NamesIn names) := by
  refine respects_check fun entries hentries => ?_
  obtain ⟨bound, values, rfl, -, rfl⟩ := Builtin.pairs_eq_ok.mp hentries
  obtain ⟨hbound, hvalues⟩ := List.forall_mem_cons.mp hargs
  refine (respects_forM fun entry hentry => ?_).bind fun _ _ => respects_pure Value.namesIn_unit
  obtain ⟨hname, hvalue⟩ := List.of_mem_zip hentry
  refine hbind entry.1 entry.2 (Value.namesIn_identifier.mp ?_) (hvalues _ hvalue)
  exact Value.namesIn_list.mp hbound _ (List.mem_map_of_mem hname)

/-- Calling a builtin function, if running a list does. -/
theorem apply_respects (hR : Simulation names R) (hhost : host.NamesIn names)
    (hrun : RunsInStep names R run) (b : Builtin) {args : List Value}
    (hargs : ∀ arg ∈ args, arg.NamesIn names) :
    Respects (Under names R depth) (b.apply host run args) (Value.NamesIn names) := by
  have hnumber {v : Value} (h : ∃ x, v = .number x) : v.NamesIn names := by
    obtain ⟨x, rfl⟩ := h
    exact Value.namesIn_number x
  have hanswer {v : Value} (h : ∃ answer, v = .ofBool answer) : v.NamesIn names := by
    obtain ⟨answer, rfl⟩ := h
    exact Value.namesIn_number _
  cases b with
  | add | multiply | divide =>
      exact respects_ofExcept fun _ h => hnumber (Builtin.foldNumbers_eq_ok h)
  | subtract => exact respects_ofExcept fun _ h => hnumber (Builtin.difference_eq_ok h)
  | modulo => exact respects_ofExcept fun _ h => hnumber (Builtin.remainder_eq_ok h)
  | less | lessEqual | greater | greaterEqual =>
      exact respects_ofExcept fun _ h => hanswer (Builtin.comparison_eq_ok h)
  | equal => exact respects_ofExcept fun _ h => hanswer (Builtin.equality_eq_ok h)
  | head =>
      refine respects_ofExcept fun v h => ?_
      rcases Builtin.first_eq_ok h with ⟨text, rfl⟩ | ⟨item, rest, rfl, rfl⟩
      · exact Value.namesIn_string text
      · have hitems := Value.namesIn_list.mp (hargs _ List.mem_cons_self)
        exact Value.namesIn_list.mpr (by simpa using (List.forall_mem_cons.mp hitems).1)
  | tail =>
      refine respects_ofExcept fun v h => ?_
      rcases Builtin.afterFirst_eq_ok h with ⟨text, rfl⟩ | ⟨item, rest, rfl, rfl⟩
      · exact Value.namesIn_string text
      · have hitems := Value.namesIn_list.mp (hargs _ List.mem_cons_self)
        exact Value.namesIn_list.mpr (List.forall_mem_cons.mp hitems).2
  | list => exact respects_pure (Value.namesIn_list.mpr hargs)
  | eval =>
      show Respects _ (Builtin.evaluation run args) _
      unfold Builtin.evaluation
      split
      · exact hrun _ _ _ (Value.namesIn_list.mp (hargs _ List.mem_cons_self))
      · exact evalValue_respects hR hrun (hargs _ List.mem_cons_self)
      · exact respects_throw
  | join =>
      refine respects_ofExcept fun v h => ?_
      rcases Builtin.concatenation_eq_ok h with ⟨text, rfl⟩ | ⟨lists, rfl, rfl⟩
      · exact Value.namesIn_string text
      · refine Value.namesIn_list.mpr fun item hitem => ?_
        obtain ⟨list, hlist, hitem⟩ := List.mem_flatten.mp hitem
        exact Value.namesIn_list.mp (hargs _ (List.mem_map_of_mem hlist)) item hitem
  | define =>
      refine binding_respects _ (fun name v hname hv => ?_) hargs
      refine respects_step (fun w => w.perform_define name v) fun w other hstep => ?_
      exact ⟨(hR.under depth).define hstep.scopes hname hv, hstep.printed⟩
  | put =>
      refine binding_respects _ (fun name v hname hv => ?_) hargs
      refine respects_step (fun w => w.perform_put name v) fun w other hstep => ?_
      exact ⟨(hR.under depth).put hstep.scopes hname hv, hstep.printed⟩
  | lambda =>
      refine respects_ofExcept fun v h => ?_
      obtain ⟨formals, body, rfl, -, rfl⟩ := Closure.make_eq_ok.mp h
      obtain ⟨hformals, hbody⟩ := List.forall_mem_cons.mp hargs
      refine Value.namesIn_closure.mpr ⟨nofun, fun formal hformal => ?_, ?_⟩
      · exact Value.namesIn_identifier.mp
          (Value.namesIn_list.mp hformals _ (List.mem_map_of_mem hformal))
      · exact Value.namesIn_list.mp (hbody _ List.mem_cons_self)
  | branch =>
      show Respects _ (Builtin.choice run args) _
      unfold Builtin.choice
      split
      · refine respects_check fun x _ => respects_check fun accepted hyes =>
          respects_check fun rejected hno => hrun _ .curly _ ?_
        obtain rfl := Value.expectQuoted_eq_ok.mp hyes
        obtain rfl := Value.expectQuoted_eq_ok.mp hno
        split
        · exact Value.namesIn_list.mp (hargs (.quoted rejected) (by simp))
        · exact Value.namesIn_list.mp (hargs (.quoted accepted) (by simp))
      · exact respects_throw
  | raise => exact respects_ofExcept fun _ h => absurd h Builtin.failure_ne_ok
  | load =>
      show Respects _ (Builtin.inclusion host run args) _
      unfold Builtin.inclusion
      split
      · refine respects_check fun name _ => ?_
        split
        · exact respects_pure Value.namesIn_unit
        · rename_i modules hmodules
          split
          · exact respects_throw
          · exact respects_pure Value.namesIn_unit
          · rename_i text htext
            split
            · exact respects_throw
            · rename_i statements hstatements
              exact evalStatements_respects hR hrun
                (hhost modules name text statements hmodules htext hstatements)
      · exact respects_throw
  | print =>
      show Respects _ (Builtin.output host args) _
      unfold Builtin.output
      split
      · exact respects_throw
      · refine (respects_step (fun w => w.perform_write _) fun w other hstep => ?_).bind
          fun _ _ => respects_pure Value.namesIn_unit
        exact ⟨hstep.scopes, congrArg (· ++ _) hstep.printed⟩

/-- Calling a function, if running a list does. -/
theorem call_respects (hR : Simulation names R) (hhost : host.NamesIn names)
    (hrun : RunsInStep names R run) {function : Value} (hfunction : function.NamesIn names)
    {args : List Value} (hargs : ∀ arg ∈ args, arg.NamesIn names) :
    Respects (Under names R depth) (call host run function args) (Value.NamesIn names) := by
  cases function with
  | builtin b => exact apply_respects hR hhost hrun b hargs
  | closure bound formals b body =>
      obtain ⟨hbound, hformals, hbody⟩ := Value.namesIn_closure.mp hfunction
      refine respects_check fun (frame, waiting) hbind => ?_
      obtain ⟨hframe, hwaiting⟩ := Closure.bindArguments_names hbound hformals hargs hbind
      cases waiting with
      | nil => exact inFrame_respects hframe (hrun _ b body hbody)
      | cons formal waiting =>
          exact respects_pure (Value.namesIn_closure.mpr ⟨hframe, hwaiting, hbody⟩)
  | number | string | identifier | list | error => exact respects_throw

/-- Running a list, if running the lists inside it does. -/
theorem runItems_respects (hR : Simulation names R) (hhost : host.NamesIn names)
    (hrun : RunsInStep names R run) : RunsInStep names R (runItems host run) := by
  intro depth b items hitems
  rw [runItems_eq]
  refine (evalValues_respects hR hrun hitems).bind fun values hvalues => ?_
  unfold applyValues
  split
  · exact respects_pure (Value.namesIn_list.mpr nofun)
  · exact respects_pure (hvalues _ List.mem_cons_self)
  · obtain ⟨hfunction, hargs⟩ := List.forall_mem_cons.mp hvalues
    exact call_respects hR hhost hrun hfunction hargs

end

/-- Runs of items that mention the given names only go in step. -/
theorem run_respects {names : Name → Prop} {R : Scopes → Scopes → Prop} {host : Host}
    (hR : Simulation names R) (hhost : host.NamesIn names) (allowance : Nat) :
    RunsInStep names R (run host allowance) := by
  induction allowance with
  | zero => exact fun _ _ _ _ => respects_exhausted
  | succ allowance ih => exact runItems_respects hR hhost ih

/-- In worlds that are in step a value has the same outcome, or in neither of them any. -/
theorem Scopes.Simulation.same_outcome {names : Name → Prop} {R : Scopes → Scopes → Prop}
    {host : Host} (hR : Simulation names R) (hhost : host.NamesIn names) (allowance : Nat)
    {v : Value} (hv : v.NamesIn names) {w other : World} (h : w.InStep R other) :
    Option.Rel (SameOutcome R) (w.perform (evalValue (run host allowance) v))
      (other.perform (evalValue (run host allowance) v)) := by
  have hrel := evalValue_respects hR (run_respects hR hhost allowance) hv w other
    ⟨under_zero.mpr h.scopes, h.printed⟩
  exact option_rel_mono hrel fun _ _ hsame => hsame.1.mono fun _ _ => under_zero.mp

end QuotedLisp
