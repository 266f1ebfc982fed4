import QuotedLisp.Proofs.Eval.Answers
import QuotedLisp.Proofs.Prelude.Definitions

/-!
# The list functions of the prelude

The functions on lists that the prelude defines by recursion in the language are the functions on
lists that one expects, `applies_list_functions`. The functions that are given to them are called
from frames that bind the names of their formals, for scopes are dynamic; what is asked of such a
function is that it has one value from all these frames, and that it leaves the scopes alone
(`Scopes.Yields`).
-/

namespace QuotedLisp

namespace Scopes

/-- `scopes.Deepens names inner` says that the second chain is the first with frames on top that
bind some of the names only. -/
inductive Deepens (names : List Name) (scopes : Scopes) : Scopes → Prop where
  | self : Deepens names scopes scopes
  | push (inner frame) :
      Deepens names scopes inner → (∀ entry ∈ frame, entry.1 ∈ names) →
      Deepens names scopes (inner.push frame)

/-- Frames on top of frames. -/
theorem Deepens.trans {names : List Name} {scopes middle inner : Scopes}
    (h : scopes.Deepens names middle) (hinner : middle.Deepens names inner) :
    scopes.Deepens names inner := by
  induction hinner with
  | self => exact h
  | push inner frame _ hframe ih => exact .push inner frame ih hframe

/-- A frame of arguments. -/
theorem deepens_zip {names : List Name} (formals : List Name)
    (h : ∀ formal ∈ formals, formal ∈ names) (scopes : Scopes) (args : List Value) :
    scopes.Deepens names (scopes.push (formals.zip args)) :=
  .push scopes _ .self fun _ hentry => h _ (List.of_mem_zip hentry).1

section

variable (host : Host) (prints : Prop) (scopes : Scopes)

/-- From the scopes, and with any frames of the names on top, the function has the value for the
arguments, which is no error, and the scopes are left alone. -/
structure Yields (names : List Name) (function : Value) (args : List Value) (v : Value) : Prop where
  noError : v.toResult = .ok v
  calls : ∀ inner, scopes.Deepens names inner → inner.Calls host prints function args (.ok v, inner)

/-- However the arguments are written, the application of the name to them comes to the outcome. -/
def Applies (name : Name) (args : List Value) (outcome : Except RuntimeError Value × Scopes) :
    Prop :=
  ∀ exprs, scopes.EvaluatesAll host prints exprs (.ok args, scopes) →
    scopes.Runs host prints (.identifier name :: exprs) outcome

end

/-- What a function yields it yields with one more frame. -/
theorem Yields.push {host : Host} {prints : Prop} {scopes : Scopes} {names : List Name}
    {function v : Value} {args : List Value} (h : scopes.Yields host prints names function args v)
    (formals : List Name) (hformals : ∀ formal ∈ formals, formal ∈ names) (held : List Value) :
    (scopes.push (formals.zip held)).Yields host prints names function args v :=
  ⟨h.noError, fun inner hinner => h.calls inner ((deepens_zip formals hformals scopes held).trans hinner)⟩

/-- A builtin function that only computes yields its result, unless that is an error. -/
theorem yields_builtin {host : Host} {prints : Prop} {scopes : Scopes} {names : List Name}
    {b : Builtin} {args : List Value} {v : Value}
    (happly : ∀ run, b.apply host run args = Evaluation.ofExcept (.ok v))
    (hv : v.toResult = .ok v) : scopes.Yields host prints names (.builtin b) args v :=
  ⟨hv, fun _ _ => calls_builtin happly⟩

end Scopes

open Scopes

namespace Prelude

section

variable {host : Host} {prints : Prop} {scopes : Scopes}
  {outcome : Except RuntimeError Value × Scopes} {items : List Value}

/-- A choice by a number that is computed. -/
theorem runs_if (h : scopes.HasPrelude ["if"]) {test : Value} {x : Binary64} {yes no : List Value}
    (htest : scopes.Evaluates host prints test (.ok (.number x), scopes))
    (hrun : scopes.Runs host prints (if x.isZero then no else yes) outcome) :
    scopes.Runs host prints [.identifier "if", test, .quoted yes, .quoted no] outcome :=
  runs_application (h.get? "if" (by decide) rfl) rfl
    (htest.cons ((evaluates_self rfl).cons ((evaluates_self rfl).cons evaluatesAll_nil)))
    (calls_branch hrun)

/-- Two quoted lists of which one is empty are equal if the other is empty too. The items, which
might be functions, are not compared. -/
theorem equality_nil (items : List Value) :
    Builtin.equality [.quoted items, .quoted []] = .ok (.ofBool items.isEmpty) := by
  cases items with
  | nil => rfl
  | cons item rest => rfl

/-- A body that distinguishes whether the list is empty runs the part for its case. -/
theorem runs_byCases (h : scopes.HasPrelude ["if", "=", "nil"])
    (hl : scopes.get? "l" = some (.quoted items)) {empty other : List Value}
    (hrun : scopes.Runs host prints (if items.isEmpty then empty else other) outcome) :
    scopes.Runs host prints (byCases empty other) outcome := by
  have hargs : scopes.EvaluatesAll host prints [.identifier "l", .identifier "nil"]
      (.ok [_, _], scopes) :=
    (evaluates_name "l" hl rfl).cons
      ((evaluates_name "nil" (h.get? "nil" (by decide) rfl) rfl).cons evaluatesAll_nil)
  have htest := runs_builtin .equal (h.get? "=" (by decide) rfl) hargs
    fun _ => congrArg Evaluation.ofExcept (equality_nil items)
  refine runs_if (h.mono (by decide)) htest.evaluates ?_
  cases items with
  | nil => exact hrun
  | cons item rest => exact hrun

/-- The first item of the list in a list of its own. -/
theorem runs_head (h : scopes.HasPrelude ["head"])
    (hl : scopes.get? "l" = some (.quoted items)) :
    scopes.Runs host prints [.identifier "head", .identifier "l"]
      (Builtin.first [.quoted items], scopes) :=
  runs_builtin .head (h.get? "head" (by decide) rfl)
    ((evaluates_name "l" hl rfl).cons evaluatesAll_nil) fun _ => rfl

/-- The list without its first item. -/
theorem evaluates_otherItems (h : scopes.HasPrelude ["tail"])
    (hl : scopes.get? "l" = some (.quoted items)) :
    scopes.Evaluates host prints otherItems (Builtin.afterFirst [.quoted items], scopes) :=
  (runs_builtin .tail (h.get? "tail" (by decide) rfl)
    ((evaluates_name "l" hl rfl).cons evaluatesAll_nil) fun _ => rfl).evaluates

/-- The first item of the list is evaluated again, which does not change it. -/
theorem runs_firstItem (h : scopes.HasPrelude ["eval", "head"]) {v : Value} {rest : List Value}
    (hl : scopes.get? "l" = some (.quoted (v :: rest))) (hv : v.isResult = true) :
    scopes.Runs host prints [.identifier "eval", form "head" [.identifier "l"]] (.ok v, scopes) :=
  runs_application (h.get? "eval" (by decide) rfl) rfl
    ((runs_head (h.mono (by decide)) hl).evaluates.cons evaluatesAll_nil)
    (calls_eval (runs_single (evaluates_self hv)))

/-- Two lists are joined. -/
theorem runs_join (h : scopes.HasPrelude ["join"]) {first second : Value} {others : List Value}
    (hfirst : scopes.Evaluates host prints first (.ok (.quoted items), scopes))
    (hsecond : scopes.Evaluates host prints second (.ok (.quoted others), scopes)) :
    scopes.Runs host prints [.identifier "join", first, second]
      (.ok (.quoted (items ++ others)), scopes) := by
  have hjoin : Builtin.concatenation [.quoted items, .quoted others] =
      .ok (.quoted (items ++ others)) := by
    show Except.ok (Value.quoted (items ++ (others ++ []))) = _
    rw [List.append_nil]
  exact runs_builtin .join (h.get? "join" (by decide) rfl)
    (hfirst.cons (hsecond.cons evaluatesAll_nil)) fun _ => congrArg Evaluation.ofExcept hjoin

/-- The names that the list functions use. -/
def listNames : List Name :=
  ["nil", "if", "=", "head", "tail", "list", "join", "eval", "+", "*", "reverse", "map", "filter",
    "foldl", "sum", "product"]

/-- The formals of the list functions. -/
def listFormals : List Name :=
  ["f", "l", "z"]

/-- A body that has the empty list for the empty list. -/
theorem runs_byCases_nil (h : scopes.HasPrelude listNames)
    (hl : scopes.get? "l" = some (.quoted [])) (other : List Value) :
    scopes.Runs host prints (byCases [.identifier "nil"] other) (.ok (.quoted []), scopes) :=
  runs_byCases (h.mono (by decide)) hl
    (runs_single (evaluates_name "nil" (h.get? "nil" (by decide) rfl) rfl))

variable {v : Value} {rest : List Value}

/-- The reversal of a list that is not empty. -/
theorem runs_reversal_cons (h : scopes.HasPrelude listNames)
    (hl : scopes.get? "l" = some (.quoted (v :: rest))) {others : List Value}
    (hrest : scopes.Calls host prints reversal.value [.quoted rest] (.ok (.quoted others), scopes)) :
    scopes.Runs host prints reversal.body (.ok (.quoted (others ++ [v])), scopes) := by
  have hothers : scopes.Runs host prints [.identifier "reverse", otherItems]
      (.ok (.quoted others), scopes) :=
    runs_application (h.get? "reverse" (by decide) rfl) rfl
      ((evaluates_otherItems (h.mono (by decide)) hl).cons evaluatesAll_nil) hrest
  exact runs_byCases (h.mono (by decide)) hl
    (runs_join (h.mono (by decide)) hothers.evaluates (runs_head (h.mono (by decide)) hl).evaluates)

/-- The reversal of a list, whatever its items. -/
theorem calls_reversal (h : scopes.HasPrelude listNames) (items : List Value) :
    scopes.Calls host prints reversal.value [.quoted items]
      (.ok (.quoted items.reverse), scopes) := by
  induction items generalizing scopes with
  | nil =>
      have hinner := h.push reversal.formals (by decide) [.quoted []]
      exact reversal.calls rfl (runs_byCases_nil hinner rfl _)
  | cons v rest ih =>
      have hinner := h.push reversal.formals (by decide) [.quoted (v :: rest)]
      rw [List.reverse_cons]
      exact reversal.calls rfl (runs_reversal_cons hinner rfl (ih hinner))

variable {F : Value}

/-- The function that `f` stands for is called with the first item of the list. -/
theorem evaluates_image (h : scopes.HasPrelude listNames) (hF : F.toResult = .ok F)
    (hf : scopes.get? "f" = some F) (hl : scopes.get? "l" = some (.quoted (v :: rest)))
    (hv : v.isResult = true) (hcall : scopes.Calls host prints F [v] outcome) :
    scopes.Evaluates host prints (form "f" [firstItem]) outcome := by
  have hfirst : scopes.Evaluates host prints firstItem (.ok v, scopes) :=
    (runs_firstItem (h.mono (by decide)) hl hv).evaluates
  exact (runs_application hf hF (hfirst.cons evaluatesAll_nil) hcall).evaluates

/-- The function that `f` stands for and the list without its first item are what a function is
called with again. -/
theorem evaluatesAll_again (h : scopes.HasPrelude listNames) (hF : F.toResult = .ok F)
    (hf : scopes.get? "f" = some F) (hl : scopes.get? "l" = some (.quoted (v :: rest))) :
    scopes.EvaluatesAll host prints [.identifier "f", otherItems]
      (.ok [F, .quoted rest], scopes) :=
  (evaluates_name "f" hf hF).cons
    ((evaluates_otherItems (h.mono (by decide)) hl).cons evaluatesAll_nil)

/-- The images of the items of a list that is not empty. -/
theorem runs_mapping_cons (h : scopes.HasPrelude listNames) (hF : F.toResult = .ok F)
    (hf : scopes.get? "f" = some F) (hl : scopes.get? "l" = some (.quoted (v :: rest)))
    (hv : v.isResult = true) {image : Value} {images : List Value}
    (hcall : scopes.Calls host prints F [v] (.ok image, scopes))
    (hrest : scopes.Calls host prints mapping.value [F, .quoted rest]
      (.ok (.quoted images), scopes)) :
    scopes.Runs host prints mapping.body (.ok (.quoted (image :: images)), scopes) := by
  have himage := evaluates_image h hF hf hl hv hcall
  have hlist := runs_builtin .list (h.get? "list" (by decide) rfl)
    (himage.cons evaluatesAll_nil) fun _ => rfl
  have himages := runs_application (h.get? "map" (by decide) rfl) rfl
    (evaluatesAll_again h hF hf hl) hrest
  exact runs_byCases (h.mono (by decide)) hl
    (runs_join (h.mono (by decide)) hlist.evaluates himages.evaluates)

/-- The images of all items. -/
theorem calls_mapping (h : scopes.HasPrelude listNames) (hF : F.toResult = .ok F)
    {g : Value → Value} (hitems : ∀ v ∈ items, v.isResult = true)
    (hyields : ∀ v ∈ items, scopes.Yields host prints listFormals F [v] (g v)) :
    scopes.Calls host prints mapping.value [F, .quoted items]
      (.ok (.quoted (items.map g)), scopes) := by
  induction items generalizing scopes with
  | nil =>
      have hinner := h.push mapping.formals (by decide) [F, .quoted []]
      exact mapping.calls rfl (runs_byCases_nil hinner rfl _)
  | cons v rest ih =>
      have hinner := h.push mapping.formals (by decide) [F, .quoted (v :: rest)]
      have hyield := fun u hu => (hyields u hu).push mapping.formals (by decide)
        [F, .quoted (v :: rest)]
      obtain ⟨hv, hresults⟩ := List.forall_mem_cons.mp hitems
      obtain ⟨hfirst, hothers⟩ := List.forall_mem_cons.mp hyield
      exact mapping.calls rfl
        (runs_mapping_cons hinner hF rfl rfl hv (hfirst.calls _ .self) (ih hinner hresults hothers))

/-- The selection from a list that is not empty. -/
theorem runs_selection_cons (h : scopes.HasPrelude listNames) (hF : F.toResult = .ok F)
    (hf : scopes.get? "f" = some F) (hl : scopes.get? "l" = some (.quoted (v :: rest)))
    (hv : v.isResult = true) {x : Binary64} {others : List Value}
    (hcall : scopes.Calls host prints F [v] (.ok (.number x), scopes))
    (hrest : scopes.Calls host prints selection.value [F, .quoted rest]
      (.ok (.quoted others), scopes)) :
    scopes.Runs host prints selection.body
      (.ok (.quoted ((if x.isZero then [] else [v]) ++ others)), scopes) := by
  have htest := evaluates_image h hF hf hl hv hcall
  have hchosen : scopes.Runs host prints [.identifier "if", form "f" [firstItem],
      .quoted [.identifier "head", .identifier "l"], .quoted [.identifier "nil"]]
      (.ok (.quoted (if x.isZero then [] else [v])), scopes) := by
    refine runs_if (h.mono (by decide)) htest ?_
    split
    · exact runs_single (evaluates_name "nil" (h.get? "nil" (by decide) rfl) rfl)
    · exact runs_head (h.mono (by decide)) hl
  have hothers := runs_application (h.get? "filter" (by decide) rfl) rfl
    (evaluatesAll_again h hF hf hl) hrest
  exact runs_byCases (h.mono (by decide)) hl
    (runs_join (h.mono (by decide)) hchosen.evaluates hothers.evaluates)

/-- The items that the test accepts. -/
theorem calls_selection (h : scopes.HasPrelude listNames) (hF : F.toResult = .ok F)
    {x : Value → Binary64} (hitems : ∀ v ∈ items, v.isResult = true)
    (hyields : ∀ v ∈ items, scopes.Yields host prints listFormals F [v] (.number (x v))) :
    scopes.Calls host prints selection.value [F, .quoted items]
      (.ok (.quoted (items.filter fun v => !(x v).isZero)), scopes) := by
  induction items generalizing scopes with
  | nil =>
      have hinner := h.push selection.formals (by decide) [F, .quoted []]
      exact selection.calls rfl (runs_byCases_nil hinner rfl _)
  | cons v rest ih =>
      have hinner := h.push selection.formals (by decide) [F, .quoted (v :: rest)]
      have hyield := fun u hu => (hyields u hu).push selection.formals (by decide)
        [F, .quoted (v :: rest)]
      obtain ⟨hv, hresults⟩ := List.forall_mem_cons.mp hitems
      obtain ⟨hfirst, hothers⟩ := List.forall_mem_cons.mp hyield
      have hfilter : (v :: rest).filter (fun v => !(x v).isZero) =
          (if (x v).isZero then [] else [v]) ++ rest.filter fun v => !(x v).isZero := by
        rw [List.filter_cons]
        cases (x v).isZero <;> rfl
      rw [hfilter]
      exact selection.calls rfl
        (runs_selection_cons hinner hF rfl rfl hv (hfirst.calls _ .self)
          (ih hinner hresults hothers))

/-- The fold of a list that is not empty takes a step first. If that fails there is nothing to go on
with. -/
theorem runs_leftFold_cons (h : scopes.HasPrelude listNames) (hF : F.toResult = .ok F)
    (hf : scopes.get? "f" = some F) {z : Value} (hz : z.toResult = .ok z)
    (hfrom : scopes.get? "z" = some z) (hl : scopes.get? "l" = some (.quoted (v :: rest)))
    (hv : v.isResult = true) {step : Except RuntimeError Value}
    {fold : Value → Except RuntimeError Value}
    (hcall : scopes.Calls host prints F [z, v] (step, scopes))
    (hrest : ∀ next, step = .ok next →
      scopes.Calls host prints leftFold.value [F, next, .quoted rest] (fold next, scopes)) :
    scopes.Runs host prints leftFold.body (step >>= fold, scopes) := by
  have hfirst : scopes.Evaluates host prints firstItem (.ok v, scopes) :=
    (runs_firstItem (h.mono (by decide)) hl hv).evaluates
  have hnext := (runs_application hf hF
    ((evaluates_name "z" hfrom hz).cons (hfirst.cons evaluatesAll_nil)) hcall).evaluates
  refine runs_byCases (h.mono (by decide)) hl ?_
  have hfoldl := h.get? "foldl" (by decide) rfl
  cases step with
  | error e =>
      exact runs_application_error hfoldl rfl
        ((evaluates_name "f" hf hF).cons (hnext.cons_error _))
  | ok next =>
      exact runs_application hfoldl rfl
        ((evaluates_name "f" hf hF).cons (hnext.cons
          ((evaluates_otherItems (h.mono (by decide)) hl).cons evaluatesAll_nil)))
        (hrest next rfl)

/-- The fold of a list from the left, up to the first step that fails. The steps that do not fail
answer no error as a value. -/
theorem calls_leftFold (h : scopes.HasPrelude listNames) (hF : F.toResult = .ok F) {z : Value}
    (hz : z.toResult = .ok z) {step : Value → Value → Except RuntimeError Value}
    (hitems : ∀ v ∈ items, v.isResult = true)
    (hsteps : ∀ earlier v later before, items = earlier ++ v :: later →
      earlier.foldlM step z = .ok before →
      (∀ after, step before v = .ok after → after.toResult = .ok after) ∧
        ∀ inner, scopes.Deepens listFormals inner →
          inner.Calls host prints F [before, v] (step before v, inner)) :
    scopes.Calls host prints leftFold.value [F, z, .quoted items]
      (items.foldlM step z, scopes) := by
  induction items generalizing scopes z with
  | nil =>
      have hinner := h.push leftFold.formals (by decide) [F, z, .quoted []]
      exact leftFold.calls rfl
        (runs_byCases (hinner.mono (by decide)) rfl (runs_single (evaluates_name "z" rfl hz)))
  | cons v rest ih =>
      have hinner := h.push leftFold.formals (by decide) [F, z, .quoted (v :: rest)]
      have hdeepens : scopes.Deepens listFormals (scopes.push (leftFold.formals.zip _)) :=
        deepens_zip leftFold.formals (by decide) scopes [F, z, .quoted (v :: rest)]
      obtain ⟨hv, hresults⟩ := List.forall_mem_cons.mp hitems
      obtain ⟨hresult, hcall⟩ := hsteps [] v rest z rfl rfl
      rw [List.foldlM_cons]
      refine leftFold.calls rfl (runs_leftFold_cons hinner hF rfl hz rfl rfl hv
        (hcall _ hdeepens) fun next hnext => ?_)
      refine ih hinner (hresult next hnext) hresults ?_
      intro earlier u later before hitems hbefore
      obtain ⟨hnone, hcalls⟩ := hsteps (v :: earlier) u later before (congrArg (v :: ·) hitems) (by
        rw [List.foldlM_cons, hnext]
        exact hbefore)
      exact ⟨hnone, fun inner hdeeper => hcalls inner (hdeepens.trans hdeeper)⟩

/-- Steps that do not fail. -/
theorem foldlM_ok (g : Value → Value → Value) (z : Value) (items : List Value) :
    items.foldlM (fun sofar v => (.ok (g sofar v) : Except RuntimeError Value)) z =
      .ok (items.foldl g z) :=
  List.foldlM_pure

/-- The fold of a list from the left with a function that does not fail. -/
theorem calls_leftFold_ok (h : scopes.HasPrelude listNames) (hF : F.toResult = .ok F) {z : Value}
    (hz : z.toResult = .ok z) {g : Value → Value → Value} (hitems : ∀ v ∈ items, v.isResult = true)
    (hyields : ∀ earlier v later, items = earlier ++ v :: later →
      scopes.Yields host prints listFormals F [earlier.foldl g z, v] (g (earlier.foldl g z) v)) :
    scopes.Calls host prints leftFold.value [F, z, .quoted items]
      (.ok (items.foldl g z), scopes) := by
  rw [← foldlM_ok]
  refine calls_leftFold h hF hz hitems fun earlier v later before hsplit hbefore => ?_
  rw [foldlM_ok] at hbefore
  cases hbefore
  have hyield := hyields earlier v later hsplit
  refine ⟨fun after hafter => ?_, hyield.calls⟩
  cases hafter
  exact hyield.noError

/-- The fold of a list with a builtin function that computes a number. -/
theorem runs_fold (h : scopes.HasPrelude listNames) (b : Builtin)
    (hb : scopes.get? b.name = some (.builtin b)) {combine : List Value → Except RuntimeError Value}
    (happly : ∀ run args, b.apply host run args = Evaluation.ofExcept (combine args))
    (hcombine : ∀ args v, combine args = .ok v → ∃ x, v = .number x) (start : Binary64)
    (hl : scopes.get? "l" = some (.quoted items)) (hitems : ∀ v ∈ items, v.isResult = true) :
    scopes.Runs host prints
      [.identifier "foldl", .identifier b.name, .number start, .identifier "l"]
      (items.foldlM (fun sofar v => combine [sofar, v]) (.number start), scopes) := by
  have hargs : scopes.EvaluatesAll host prints
      [.identifier b.name, .number start, .identifier "l"]
      (.ok [.builtin b, .number start, .quoted items], scopes) :=
    (evaluates_name b.name hb rfl).cons ((evaluates_self rfl).cons
      ((evaluates_name "l" hl rfl).cons evaluatesAll_nil))
  refine runs_application (h.get? "foldl" (by decide) rfl) rfl hargs
    (calls_leftFold h rfl rfl hitems ?_)
  intro earlier v later before _ _
  refine ⟨fun after hafter => ?_, fun inner _ => calls_builtin fun run => happly run _⟩
  obtain ⟨x, rfl⟩ := hcombine _ _ hafter
  rfl

end

/-- Where the builtin functions and the prelude are bound, the list functions are those on lists.
The reversal does not ask what the items are; the others evaluate them again, which leaves results
as they are. The function that is given to one of them is called from below frames that bind formals
of the list functions; it has to have one value from wherever that is, and to leave the scopes alone.
A sum and a product end with the first step that fails. -/
theorem applies_list_functions (host : Host) (prints : Prop) {scopes : Scopes}
    (h : scopes.HasPrelude listNames) :
    (∀ items, scopes.Applies host prints "reverse" [.quoted items]
      (.ok (.quoted items.reverse), scopes)) ∧
    ∀ items, (∀ v ∈ items, v.isResult = true) →
      (∀ F, F.toResult = .ok F →
        (∀ g : Value → Value,
          (∀ v ∈ items, scopes.Yields host prints listFormals F [v] (g v)) →
          scopes.Applies host prints "map" [F, .quoted items]
            (.ok (.quoted (items.map g)), scopes)) ∧
        (∀ x : Value → Binary64,
          (∀ v ∈ items, scopes.Yields host prints listFormals F [v] (.number (x v))) →
          scopes.Applies host prints "filter" [F, .quoted items]
            (.ok (.quoted (items.filter fun v => !(x v).isZero)), scopes)) ∧
        ∀ (z : Value) (g : Value → Value → Value), z.toResult = .ok z →
          (∀ earlier v later, items = earlier ++ v :: later →
            scopes.Yields host prints listFormals F [earlier.foldl g z, v]
              (g (earlier.foldl g z) v)) →
          scopes.Applies host prints "foldl" [F, z, .quoted items]
            (.ok (items.foldl g z), scopes)) ∧
      scopes.Applies host prints "sum" [.quoted items]
        (items.foldlM (fun sofar v => Builtin.sum [sofar, v]) (.number (.zero false)), scopes) ∧
      scopes.Applies host prints "product" [.quoted items]
        (items.foldlM (fun sofar v => Builtin.product [sofar, v]) (.number .one), scopes) := by
  refine ⟨?_, fun items hitems => ⟨fun F hF => ⟨?_, ?_, ?_⟩, ?_, ?_⟩⟩
  · intro items exprs hexprs
    exact runs_application (h.get? "reverse" (by decide) rfl) rfl hexprs (calls_reversal h items)
  · intro g hyields exprs hexprs
    exact runs_application (h.get? "map" (by decide) rfl) rfl hexprs
      (calls_mapping h hF hitems hyields)
  · intro x hyields exprs hexprs
    exact runs_application (h.get? "filter" (by decide) rfl) rfl hexprs
      (calls_selection h hF hitems hyields)
  · intro z g hz hyields exprs hexprs
    exact runs_application (h.get? "foldl" (by decide) rfl) rfl hexprs
      (calls_leftFold_ok h hF hz hitems hyields)
  · intro exprs hexprs
    have hinner := h.push total.formals (by decide) [.quoted items]
    refine runs_application (h.get? "sum" (by decide) rfl) rfl hexprs (total.calls rfl ?_)
    exact runs_fold hinner .add (hinner.get? "+" (by decide) rfl) (fun _ _ => rfl)
      (fun _ _ => Builtin.foldNumbers_eq_ok) (.zero false) rfl hitems
  · intro exprs hexprs
    have hinner := h.push totalProduct.formals (by decide) [.quoted items]
    refine runs_application (h.get? "product" (by decide) rfl) rfl hexprs (totalProduct.calls rfl ?_)
    exact runs_fold hinner .multiply (hinner.get? "*" (by decide) rfl) (fun _ _ => rfl)
      (fun _ _ => Builtin.foldNumbers_eq_ok) .one rfl hitems

/-- The scopes after the prelude has been loaded. -/
def home : Scopes :=
  ⟨[], (Bindings.withBuiltins []).setAll entries⟩

/-- One and zero. -/
def oneAndZero : List Value :=
  [.number .one, .number (.zero false)]

/-- The negation of a number. -/
def negated : Value → Binary64
  | .number x => x.neg
  | _ => .nan

/-- With only the prelude loaded one and zero are reversed, negated, chosen if their negations are not
zero, and paired from the left, and a sum stops at a string. -/
theorem applies_list_functions_home :
    home.HasPrelude listNames ∧ (∀ v ∈ oneAndZero, v.isResult = true) ∧
      home.Applies ⟨none, none⟩ False "reverse" [.quoted oneAndZero]
        (.ok (.quoted [.number (.zero false), .number .one]), home) ∧
      home.Applies ⟨none, none⟩ False "map" [.builtin .subtract, .quoted oneAndZero]
        (.ok (.quoted [.number Binary64.one.neg, .number (.zero true)]), home) ∧
      home.Applies ⟨none, none⟩ False "filter" [.builtin .subtract, .quoted oneAndZero]
        (.ok (.quoted [.number .one]), home) ∧
      home.Applies ⟨none, none⟩ False "foldl" [.builtin .list, .unit, .quoted oneAndZero]
        (.ok (.quoted [.quoted [.unit, .number .one], .number (.zero false)]), home) ∧
      home.Applies ⟨none, none⟩ False "sum" [.quoted [.string "a"]]
        (.error (.typeMismatch "+" "Number" "String"), home) := by
  have hprelude : home.HasPrelude listNames := hasPrelude_root listNames
  have hitems : ∀ v ∈ oneAndZero, v.isResult = true := by decide
  obtain ⟨hreverse, hlists⟩ := applies_list_functions ⟨none, none⟩ False hprelude
  obtain ⟨hfunctions, -⟩ := hlists oneAndZero hitems
  obtain ⟨-, hsum, -⟩ := hlists [.string "a"] (by decide)
  obtain ⟨hmap, hfilter, -⟩ := hfunctions (.builtin .subtract) rfl
  obtain ⟨-, -, hfoldl⟩ := hfunctions (.builtin .list) rfl
  have hnegate := hmap (fun v => .number (negated v))
    (List.forall_mem_cons.mpr ⟨yields_builtin (fun _ => rfl) rfl,
      List.forall_mem_singleton.mpr (yields_builtin (fun _ => rfl) rfl)⟩)
  have hchoose := hfilter negated
    (List.forall_mem_cons.mpr ⟨yields_builtin (fun _ => rfl) rfl,
      List.forall_mem_singleton.mpr (yields_builtin (fun _ => rfl) rfl)⟩)
  have hpair := hfoldl .unit (fun sofar v => .quoted [sofar, v]) rfl
    fun _ _ _ _ => yields_builtin (fun _ => rfl) rfl
  exact ⟨hprelude, hitems, hreverse oneAndZero, hnegate, hchoose, hpair, hsum⟩

/-- The scopes of a call that was made after the prelude has been loaded. -/
def called : Scopes :=
  home.push [("x", .number (.zero false))]

/-- The builtin function `let` has one value from wherever it is called with the two arguments, and
it leaves the root alone; but it binds the name of the list in the frame in which the fold would go
on with it. -/
theorem foldl_rebinds_list :
    called.HasPrelude listNames ∧
      (∀ inner, called.Deepens listFormals inner → ∃ after, after.root = inner.root ∧
        inner.Calls ⟨none, none⟩ False (.builtin .put)
          [.quoted [.identifier "l"], .number .one] (.ok .unit, after)) ∧
      called.Applies ⟨none, none⟩ False "foldl"
        [.builtin .put, .quoted [.identifier "l"], .quoted [.number .one]]
        (.error (.typeMismatch "tail" "Q-Expression" "Number"), called) ∧
      ¬ ∃ after, called.Applies ⟨none, none⟩ False "foldl"
        [.builtin .put, .quoted [.identifier "l"], .quoted [.number .one]]
        (.ok .unit, after) := by
  have hprelude : called.HasPrelude listNames :=
    (hasPrelude_root listNames).push ["x"] (by decide) [.number (.zero false)]
  have hframe (inner : Scopes) (hinner : called.Deepens listFormals inner) :
      ∃ frame outer root, inner = ⟨frame :: outer, root⟩ := by
    cases hinner with
    | self => exact ⟨_, _, _, rfl⟩
    | push inner frame => exact ⟨_, _, _, rfl⟩
  have hfails : called.Applies ⟨none, none⟩ False "foldl"
      [.builtin .put, .quoted [.identifier "l"], .quoted [.number .one]]
      (.error (.typeMismatch "tail" "Q-Expression" "Number"), called) := by
    intro exprs hexprs
    refine runs_application (hprelude.get? "foldl" (by decide) rfl) rfl hexprs ?_
    exact comesTo_of_perform 8 fun printed => rfl
  refine ⟨hprelude, ?_, hfails, ?_⟩
  · intro inner hinner
    obtain ⟨frame, outer, root, rfl⟩ := hframe inner hinner
    exact ⟨⟨frame.set "l" (.number .one) :: outer, root⟩, rfl,
      comesTo_of_perform 0 fun printed => rfl⟩
  · intro h
    obtain ⟨after, hanswers⟩ := h
    have hexprs : called.EvaluatesAll ⟨none, none⟩ False
        [.builtin .put, .quoted [.identifier "l"], .quoted [.number .one]]
        (.ok [.builtin .put, .quoted [.identifier "l"], .quoted [.number .one]], called) :=
      (evaluates_self rfl).cons ((evaluates_self rfl).cons ((evaluates_self rfl).cons
        evaluatesAll_nil))
    have hsame := (hfails _ hexprs .round).unique (run_stable _ _ _) (hanswers _ hexprs .round)
    cases hsame

end Prelude

end QuotedLisp
