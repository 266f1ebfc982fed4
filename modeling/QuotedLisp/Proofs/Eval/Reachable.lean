import QuotedLisp.Proofs.Eval.Failure
import QuotedLisp.Proofs.Eval.Normal

/-!
# Values that can be reached

What a session shows are the values that are bound in its root and the results of source texts. More
values come up while a source text is evaluated, in the requests that runs are made for and in the
scopes that are there meanwhile; `World.Reaches` speaks of all of them. A run that is started at a
settled moment begins at a settled moment (`Starts.settled`), so what is shown is settled, and
whatever is reached is regular (`Session.regular_of_reaches`).
-/

namespace QuotedLisp

/-- The values that a request comes with. -/
def Request.values : Request → List Value
  | .value v => [v]
  | .application _ items | .sequence items => items
  | .call function args => function :: args

/-- The values at hand at a moment: those that the request comes with, and those that are bound in
a scope. -/
inductive Moment.Holds (m : Moment) (v : Value) : Prop where
  | requested : v ∈ m.request.values → Holds m v
  | inFrame (frame name) : frame ∈ m.world.scopes.frames → (name, v) ∈ frame → Holds m v
  | inRoot (name) : (name, v) ∈ m.world.scopes.root → Holds m v

/-- The run that the evaluation of a source text is, as an application or as statements. -/
inductive World.Begins (w : World) (source : String) : Moment → Prop where
  | evaluate (items allowance) :
      Value.ofSource source = .ok items → Begins w source ⟨.application .round items, allowance, w⟩
  | load (items allowance) :
      Value.ofSource source = .ok items → Begins w source ⟨.sequence items, allowance, w⟩

/-- The values that can be seen from a world: those that are bound in its root, and the results of
source texts that are evaluated in it, as an application or as statements. -/
inductive World.Shows (w : World) (v : Value) : Prop where
  | bound (name) : (name, v) ∈ w.scopes.root → Shows w v
  | answer (host allowance source after) :
      w.evaluate host allowance source = some (.ok v, after) ∨
        w.load host allowance source = some (.ok v, after) →
      Shows w v

/-- The values that can be seen from a world, and those that are at hand at some moment while a
source text is evaluated in it. -/
inductive World.Reaches (w : World) (v : Value) : Prop where
  | shown : w.Shows v → Reaches w v
  | held (host source m inner) :
      w.Begins source m → During host m inner → inner.Holds v → Reaches w v

/-- The request is for regular code, or for the call of a settled function with settled
arguments. -/
def Request.Settled : Request → Prop
  | .value v => v.Regular
  | .application _ items | .sequence items => ∀ v ∈ items, v.Regular
  | .call function args => function.Settled ∧ ∀ arg ∈ args, arg.Settled

/-- A settled request in scopes that bind settled values only. -/
structure Moment.Settled (m : Moment) : Prop where
  request : m.request.Settled
  scopes : m.world.scopes.Settled

/-- What a settled request comes with is regular. -/
theorem Request.Settled.values {request : Request} (h : request.Settled) :
    ∀ v ∈ request.values, v.Regular := by
  cases request with
  | value v => exact List.forall_mem_singleton.mpr h
  | application | sequence => exact h
  | call function args =>
      obtain ⟨hfunction, hargs⟩ := h
      exact List.forall_mem_cons.mpr ⟨hfunction.regular, fun arg harg => (hargs arg harg).regular⟩

/-- What is at hand at a settled moment is regular. -/
theorem Moment.Settled.regular {m : Moment} (h : m.Settled) {v : Value} (hv : m.Holds v) :
    v.Regular := by
  cases hv with
  | requested hmem => exact h.request.values v hmem
  | inFrame frame name hframe hmem => exact (h.scopes.frames frame hframe _ hmem).regular
  | inRoot name hmem => exact (h.scopes.root _ hmem).regular

variable {host : Host}

/-- Regular values are evaluated to settled ones. -/
theorem evalValues_settled {allowance : Nat} {items values : List Value} {w middle : World}
    (hitems : ∀ v ∈ items, v.Regular) (hw : w.scopes.Settled)
    (h : w.perform (evalValues (run host allowance) items) = some (.ok values, middle)) :
    middle.scopes.Settled ∧ ∀ v ∈ values, v.Settled := by
  have hrun (b : Bracket) (items : List Value) (h : ∀ v ∈ items, v.Regular) :=
    run_settles host allowance b h
  obtain ⟨hmiddle, hvalues⟩ := Evaluation.ensures_evalValues
    (fun v hv => evalValue_settles hrun (hitems v hv)) w hw _ _ h
  exact ⟨hmiddle, hvalues values rfl⟩

/-- A run that is started at a settled moment begins at a settled moment. -/
theorem Starts.settled {m next : Moment} (h : Starts host m next) (hm : m.Settled) :
    next.Settled := by
  obtain ⟨hrequest, hscopes⟩ := hm
  cases h with
  | list items allowance w => exact ⟨Value.Regular.items hrequest, hscopes⟩
  | item b earlier item later allowance w middle values hearlier =>
      obtain ⟨hbefore, hrest⟩ := List.forall_mem_append.mp hrequest
      obtain ⟨hmiddle, -⟩ := evalValues_settled hbefore hscopes hearlier
      exact ⟨hrest item List.mem_cons_self, hmiddle⟩
  | call b items function arg args allowance w middle hitems =>
      obtain ⟨hmiddle, hvalues⟩ := evalValues_settled hrequest hscopes hitems
      exact ⟨List.forall_mem_cons.mp hvalues, hmiddle⟩
  | body bound formals b body args frame allowance w hbind =>
      obtain ⟨hclosure, hargs⟩ := hrequest
      have hframe := Closure.frame_settled hclosure hargs hbind
      cases hclosure.regular with
      | closure _ _ _ _ _ _ _ _ hbody => exact ⟨hbody, hscopes.push hframe⟩
  | evalList b items allowance w =>
      exact ⟨(hrequest.2 _ List.mem_cons_self).items, hscopes⟩
  | evalOther v allowance w hv =>
      exact ⟨(hrequest.2 v List.mem_cons_self).regular, hscopes⟩
  | branch x yes no allowance w =>
      have hyes := (hrequest.2 (.quoted yes) (by simp)).items
      have hno := (hrequest.2 (.quoted no) (by simp)).items
      refine ⟨?_, hscopes⟩
      show ∀ v ∈ (if x.isZero then no else yes), v.Regular
      split
      · exact hno
      · exact hyes
  | module source name text statements allowance w hmodules hread hstatements =>
      exact ⟨fun v hv => (Value.printable_of_source hstatements v hv).regular, hscopes⟩
  | statement earlier statement later allowance w middle values hearlier =>
      obtain ⟨hbefore, hrest⟩ := List.forall_mem_append.mp hrequest
      obtain ⟨hmiddle, -⟩ := evalValues_settled hbefore hscopes hearlier
      exact ⟨hrest statement List.mem_cons_self, hmiddle⟩

/-- All runs that are made during a run from a settled moment begin at settled moments. -/
theorem During.settled {m inner : Moment} (h : During host m inner) (hm : m.Settled) :
    inner.Settled := by
  induction h with
  | self m => exact hm
  | step m first inner hstarts _ ih => exact ih (hstarts.settled hm)

/-- The evaluation of a source text begins at a settled moment, if the scopes are settled. -/
theorem World.Begins.settled {w : World} {source : String} {m : Moment} (h : w.Begins source m)
    (hw : w.scopes.Settled) : m.Settled := by
  cases h with
  | evaluate items allowance hsource | load items allowance hsource =>
      exact ⟨fun v hv => (Value.printable_of_source hsource v hv).regular, hw⟩

/-- What is shown in a session is settled. -/
theorem Session.settled_of_shows {w : World} (h : Session w) {v : Value} (hv : w.Shows v) :
    v.Settled := by
  cases hv with
  | bound name hmem => exact h.settled.root _ hmem
  | answer host allowance source after hanswer =>
      exact (World.submit_settles h.settled hanswer).2 v rfl

/-- What is reached in a session is regular. -/
theorem Session.regular_of_reaches {w : World} (h : Session w) {v : Value} (hv : w.Reaches v) :
    v.Regular := by
  cases hv with
  | shown hshown => exact (h.settled_of_shows hshown).regular
  | held host source m inner hbegins hduring hheld =>
      exact (hduring.settled (hbegins.settled h.settled)).regular hheld

end QuotedLisp
