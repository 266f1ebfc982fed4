import QuotedLisp.Proofs.Binary64.Integer
import QuotedLisp.Proofs.Eval.Reachable
import QuotedLisp.Proofs.Prelude.Lists

/-!
# Indexing in the prelude

The functions of the prelude that count, `applies_indexing`. The length of a list is counted up from
zero in doubles, and an index is counted down to zero, so both are exact up to `countLimit`,
where counting stops. An item is reached by evaluating a list of it alone, which is harmless for results.
-/

namespace QuotedLisp

open Scopes
open Binary64 (countLimit countLimit_pos)

/-- What the evaluation of several values, from left to right, answers. -/
abbrev World.AnswersAll (w : World) (host : Host) (exprs : List Value)
    (outcome : Except Error (List Value) × World) : Prop :=
  w.Answers (fun allowance => evalValues (run host allowance) exprs) outcome

namespace Prelude

/-- The names that the functions use which count. -/
def indexNames : List Name :=
  ["nil", "if", "=", "+", "-", "head", "tail", "eval", "len", "nth", "last", "do"]

/-- The item at an index. The index is counted down along the list, until it is zero or no items are
left. -/
def indexed : List Value → Int → Except RuntimeError Value
  | [], n => .error (.emptyInput (if n = 0 then "head" else "tail") "list")
  | v :: rest, n => if n = 0 then .ok v else indexed rest (n - 1)

/-- An index in the list. -/
theorem indexed_of_some {items : List Value} {k : Nat} {v : Value} (h : items[k]? = some v) :
    indexed items k = .ok v := by
  induction items generalizing k with
  | nil => cases h
  | cons first rest ih =>
      cases k with
      | zero => exact congrArg Except.ok (Option.some.inj h)
      | succ k =>
          rw [indexed, if_neg (by omega), Int.natCast_add, Int.natCast_one, Int.add_sub_cancel]
          exact ih h

/-- The index of what would be the next item. -/
theorem indexed_length (items : List Value) :
    indexed items items.length = .error (.emptyInput "head" "list") := by
  induction items with
  | nil => rfl
  | cons first rest ih =>
      rw [indexed, List.length_cons, if_neg (by omega), Int.natCast_add, Int.natCast_one,
        Int.add_sub_cancel]
      exact ih

/-- Any other index. -/
theorem indexed_outside {items : List Value} {n : Int} (h : n < 0 ∨ items.length < n) :
    indexed items n = .error (.emptyInput "tail" "list") := by
  induction items generalizing n with
  | nil =>
      have hn : n ≠ 0 := by
        rw [List.length_nil] at h
        omega
      rw [indexed, if_neg hn]
  | cons first rest ih =>
      rw [List.length_cons] at h
      rw [indexed, if_neg (by omega)]
      exact ih (by omega)

/-- What is at an index is an item. -/
theorem mem_of_indexed {items : List Value} {n : Int} {v : Value} (h : indexed items n = .ok v) :
    v ∈ items := by
  induction items generalizing n with
  | nil => cases h
  | cons first rest ih =>
      rw [indexed] at h
      split at h
      · cases h
        exact List.mem_cons_self
      · exact List.mem_cons_of_mem first (ih h)

/-- The index of the last item of a list, as far as counting gets. -/
def lastIndex (items : List Value) : Int :=
  min (items.length : Int) countLimit - 1

/-- The last item of a list, as far as counting gets. -/
def lastCounted (items : List Value) : Option Value :=
  items[min items.length countLimit - 1]?

/-- It is the last item, if counting gets there. -/
theorem lastCounted_of_length_le {items : List Value} (h : items.length ≤ countLimit) :
    lastCounted items = items.getLast? := by
  rw [lastCounted, Nat.min_eq_left h, List.getLast?_eq_getElem?]

/-- Items after `countLimit` others are not counted. -/
theorem lastCounted_append {items : List Value} (h : items.length = countLimit) (rest : List Value) :
    lastCounted (items ++ rest) = items.getLast? := by
  have hpos := countLimit_pos
  rw [lastCounted, List.length_append, Nat.min_eq_right (by omega), ← h,
    List.getElem?_append_left (by omega), List.getLast?_eq_getElem?]

/-- Only the empty list has no last item. -/
theorem exists_lastCounted {items : List Value} (h : items ≠ []) : ∃ v, lastCounted items = some v := by
  have hlength := List.length_pos_iff.mpr h
  have hlast : min items.length countLimit - 1 < items.length := by omega
  exact ⟨items[min items.length countLimit - 1], List.getElem?_eq_getElem hlast⟩

/-- The index of the last item. -/
theorem indexed_lastIndex {items : List Value} {v : Value} (hv : lastCounted items = some v) :
    indexed items (lastIndex items) = .ok v := by
  have hsome := (List.getElem?_eq_some_iff.mp hv).1
  have hpos := countLimit_pos
  have hindex : lastIndex items = (min items.length countLimit - 1 : Nat) := by
    unfold lastIndex
    omega
  rw [hindex]
  exact indexed_of_some hv

/-- Two numbers are combined, if the result is finite. -/
theorem foldNumbers_pair (b : Builtin) {operation : Binary64 → Binary64 → Except RuntimeError Binary64}
    {x y result : Binary64} (h : operation x y = .ok result) (hfinite : result.isFinite = true) :
    Builtin.foldNumbers b operation [.number x, .number y] = .ok (.number result) := by
  have hstep : Builtin.foldStep b operation x (.number y) = .ok result := by
    show (operation x y >>= fun result =>
      if result.isFinite = true then .ok result else .error (.outOfRange b.name)) = _
    rw [h]
    exact if_pos hfinite
  show ((Builtin.foldStep b operation x (.number y) >>= pure) >>= fun total =>
    Except.ok (Value.number total)) = _
  rw [hstep]
  rfl

/-- Two numbers are compared. -/
theorem equality_numbers (x y : Binary64) :
    Builtin.equality [.number x, .number y] = .ok (.ofBool (x.equal y)) := by
  have hpair : (Value.number x).equal? (.number y) = .ok (x.equal y) := rfl
  have hall : Builtin.allEqual (.number x) [.number y] = .ok (x.equal y) := by
    rw [Builtin.allEqual, hpair]
    cases x.equal y <;> rfl
  show (Builtin.allEqual (.number x) [.number y] >>= _ : Except RuntimeError Value) = _
  rw [hall]
  rfl

section

variable {host : Host} {prints : Prop} {scopes : Scopes} {items : List Value}

/-- The length of a list that is not empty is one more than that of the list without its first item,
as far as counting gets. -/
theorem runs_length_cons (h : scopes.HasPrelude indexNames) {v : Value} {rest : List Value}
    (hl : scopes.get? "l" = some (.quoted (v :: rest))) {n : Int} (hlow : 0 ≤ n) (hhigh : n ≤ countLimit)
    (hrest : scopes.Calls host prints length.value [.quoted rest]
      (.ok (.number (.ofInt n)), scopes)) :
    scopes.Runs host prints length.body (.ok (.number (.ofInt (min (n + 1) countLimit))), scopes) := by
  have hcount : scopes.Evaluates host prints (form "len" [otherItems])
      (.ok (.number (.ofInt n)), scopes) :=
    (runs_application (h.get? "len" (by decide) rfl) rfl
      ((evaluates_otherItems (h.mono (by decide)) hl).cons evaluatesAll_nil) hrest).evaluates
  have hnext := Binary64.one_add_ofInt hlow hhigh
  have hfinite : (Binary64.add .one (.ofInt n)).isFinite = true := by
    rw [hnext]
    exact (Binary64.isInt_ofUnits false (by omega)).isFinite
  have hsum : Builtin.sum [.number .one, .number (.ofInt n)] =
      .ok (.number (.ofInt (min (n + 1) countLimit))) := by
    rw [← hnext]
    exact foldNumbers_pair .add rfl hfinite
  exact runs_byCases (h.mono (by decide)) hl
    (runs_builtin .add (h.get? "+" (by decide) rfl)
      ((evaluates_self rfl).cons (hcount.cons evaluatesAll_nil))
      fun _ => congrArg Evaluation.ofExcept hsum)

/-- The length of a list, whatever its items, as far as counting gets. -/
theorem calls_length (h : scopes.HasPrelude indexNames) (items : List Value) :
    scopes.Calls host prints length.value [.quoted items]
      (.ok (.number (.ofInt (min items.length countLimit))), scopes) := by
  induction items generalizing scopes with
  | nil =>
      have hinner := h.push length.formals (by decide) [.quoted []]
      have hempty : min (([] : List Value).length : Int) countLimit = 0 := rfl
      rw [hempty, Binary64.ofInt_zero]
      exact length.calls rfl (runs_byCases (hinner.mono (by decide)) rfl
        (runs_single (evaluates_self rfl)))
  | cons v rest ih =>
      have hinner := h.push length.formals (by decide) [.quoted (v :: rest)]
      have hcount : min ((v :: rest).length : Int) countLimit =
          min (min (rest.length : Int) countLimit + 1) countLimit := by
        rw [List.length_cons]
        omega
      rw [hcount]
      exact length.calls rfl
        (runs_length_cons hinner rfl (by omega) (by omega) (ih hinner))

variable {x : Binary64} {n : Int}

/-- One less than an integer, as far as counting gets. -/
theorem evaluates_predecessor (h : scopes.HasPrelude ["-"]) {expr : Value}
    (hexpr : scopes.Evaluates host prints expr (.ok (.number x), scopes)) (hx : x.IsInt n)
    (hn : n.natAbs ≤ countLimit) :
    scopes.Evaluates host prints (form "-" [expr, .number .one])
      (.ok (.number (x.sub .one)), scopes) := by
  have hdifference : Builtin.difference [.number x, .number .one] = .ok (.number (x.sub .one)) :=
    foldNumbers_pair .subtract rfl (hx.sub_one hn).isFinite
  exact (runs_builtin .subtract (h.get? "-" (by decide) rfl)
    (hexpr.cons ((evaluates_self rfl).cons evaluatesAll_nil))
    fun _ => congrArg Evaluation.ofExcept hdifference).evaluates

/-- The index decides which part of the body is run. -/
theorem runs_item (h : scopes.HasPrelude indexNames) (hn : scopes.get? "n" = some (.number x))
    (hx : x.IsInt n) {outcome : Except RuntimeError Value × Scopes}
    (hrun : scopes.Runs host prints
      (if n = 0 then [.identifier "eval", form "head" [.identifier "l"]]
        else [.identifier "nth", form "-" [.identifier "n", .number .one], otherItems]) outcome) :
    scopes.Runs host prints item.body outcome := by
  have hargs : scopes.EvaluatesAll host prints [.identifier "n", .number (.zero false)]
      (.ok [_, _], scopes) :=
    (evaluates_name "n" hn rfl).cons ((evaluates_self rfl).cons evaluatesAll_nil)
  have htest := runs_builtin .equal (h.get? "=" (by decide) rfl) hargs
    fun _ => congrArg Evaluation.ofExcept (equality_numbers x (.zero false))
  refine runs_if (h.mono (by decide)) htest.evaluates ?_
  rw [hx.equal_zero]
  by_cases hzero : n = 0
  · rw [if_pos hzero] at hrun
    rw [decide_eq_true hzero]
    exact hrun
  · rw [if_neg hzero] at hrun
    rw [decide_eq_false hzero]
    exact hrun

variable {evaluated : Value → Except RuntimeError Value}

/-- Every evaluation of the value, where the prelude is at hand, has the given result and leaves the
scopes alone. -/
def EvaluatesTo (host : Host) (prints : Prop) (v : Value) (result : Except RuntimeError Value) :
    Prop :=
  ∀ inner : Scopes, inner.HasPrelude indexNames →
    inner.Evaluates host prints v (result, inner)

/-- It does no harm to evaluate a result. -/
theorem evaluatesTo_self {v : Value} (h : v.isResult = true) :
    EvaluatesTo host prints v (.ok v) :=
  fun _ _ => evaluates_self h

/-- The item at an index is evaluated again. -/
theorem calls_item (h : scopes.HasPrelude indexNames) (hx : x.IsInt n) (hn : n.natAbs ≤ countLimit)
    (hitem : ∀ v, indexed items n = .ok v → EvaluatesTo host prints v (evaluated v)) :
    scopes.Calls host prints item.value [.number x, .quoted items]
      (indexed items n >>= evaluated, scopes) := by
  -- The index may run below zero, so it is the list that ends the recursion.
  induction items generalizing scopes x n with
  | nil =>
      have hinner := h.push item.formals (by decide) [.number x, .quoted []]
      refine item.calls rfl (runs_item hinner rfl hx ?_)
      rw [indexed]
      split
      · exact runs_application_error (hinner.get? "eval" (by decide) rfl) rfl
          ((runs_head (hinner.mono (by decide)) rfl).evaluates.cons_error _)
      · exact runs_application_error (hinner.get? "nth" (by decide) rfl) rfl
          ((evaluates_predecessor (hinner.mono (by decide)) (evaluates_name "n" rfl rfl) hx hn).cons
            ((evaluates_otherItems (hinner.mono (by decide)) rfl).cons_error _))
  | cons v rest ih =>
      have hinner := h.push item.formals (by decide) [.number x, .quoted (v :: rest)]
      refine item.calls rfl (runs_item hinner rfl hx ?_)
      rw [indexed] at hitem ⊢
      split
      · rename_i hzero
        rw [if_pos hzero] at hitem
        exact runs_application (hinner.get? "eval" (by decide) rfl) rfl
          ((runs_head (hinner.mono (by decide)) rfl).evaluates.cons evaluatesAll_nil)
          (calls_eval (runs_single (hitem v rfl _ hinner)))
      · rename_i hzero
        rw [if_neg hzero] at hitem
        -- Below zero the count may stop, but there any index is as good as another.
        have hbelow : indexed rest (max (n - 1) (-countLimit)) = indexed rest (n - 1) := by
          by_cases hneg : n < 0
          · rw [indexed_outside (.inl (by omega)), indexed_outside (.inl (by omega))]
          · rw [Int.max_eq_left (by omega)]
        rw [← hbelow] at hitem ⊢
        exact runs_application (hinner.get? "nth" (by decide) rfl) rfl
          ((evaluates_predecessor (hinner.mono (by decide)) (evaluates_name "n" rfl rfl) hx hn).cons
            ((evaluates_otherItems (hinner.mono (by decide)) rfl).cons evaluatesAll_nil))
          (ih hinner (hx.sub_one hn) (by omega) hitem)

/-- One is taken from the length of the list, and the item there is evaluated again. -/
theorem runs_lastItem (h : scopes.HasPrelude indexNames)
    (hl : scopes.get? "l" = some (.quoted items))
    (hitem : ∀ v, indexed items (lastIndex items) = .ok v →
      EvaluatesTo host prints v (evaluated v)) :
    scopes.Runs host prints lastItem.body
      (indexed items (lastIndex items) >>= evaluated, scopes) := by
  have hlength : scopes.Evaluates host prints (form "len" [.identifier "l"])
      (.ok (.number (.ofInt (min items.length countLimit))), scopes) :=
    (runs_application (h.get? "len" (by decide) rfl) rfl
      ((evaluates_name "l" hl rfl).cons evaluatesAll_nil) (calls_length h items)).evaluates
  have hint : (Binary64.ofInt (min items.length countLimit)).IsInt (min items.length countLimit) :=
    Binary64.isInt_ofUnits false (by omega)
  have hpos := countLimit_pos
  have hbound : (lastIndex items).natAbs ≤ countLimit := by
    unfold lastIndex
    omega
  have hindex : ((Binary64.ofInt (min items.length countLimit)).sub .one).IsInt (lastIndex items) := by
    have hless := hint.sub_one (by omega)
    rw [Int.max_eq_left (by omega)] at hless
    exact hless
  exact runs_application (h.get? "nth" (by decide) rfl) rfl
    ((evaluates_predecessor (h.mono (by decide)) hlength hint (by omega)).cons
      ((evaluates_name "l" hl rfl).cons evaluatesAll_nil))
    (calls_item h hindex hbound hitem)

/-- The last item of a list is evaluated again. -/
theorem calls_lastItem (h : scopes.HasPrelude indexNames)
    (hitem : ∀ v, indexed items (lastIndex items) = .ok v →
      EvaluatesTo host prints v (evaluated v)) :
    scopes.Calls host prints lastItem.value [.quoted items]
      (indexed items (lastIndex items) >>= evaluated, scopes) :=
  lastItem.calls rfl (runs_lastItem (h.push lastItem.formals (by decide) [.quoted items]) rfl hitem)

/-- The items of the list are results, so the item at an index is the value of `nth`. -/
theorem applies_item (h : scopes.HasPrelude indexNames) (hitems : ∀ v ∈ items, v.isResult = true)
    (hx : x.IsInt n) (hn : n.natAbs ≤ countLimit) {result : Except RuntimeError Value}
    (hindexed : indexed items n = result) :
    scopes.Applies host prints "nth" [.number x, .quoted items] (result, scopes) := by
  intro exprs hexprs
  subst hindexed
  refine runs_application (h.get? "nth" (by decide) rfl) rfl hexprs ?_
  have hcall : scopes.Calls host prints item.value [.number x, .quoted items]
      (indexed items n >>= pure, scopes) :=
    calls_item h hx hn fun v hv => evaluatesTo_self (hitems v (mem_of_indexed hv))
  rw [bind_pure] at hcall
  exact hcall

/-- The items of the list are results, so the last that is counted is the value of `last`. -/
theorem applies_lastItem (h : scopes.HasPrelude indexNames)
    (hitems : ∀ v ∈ items, v.isResult = true) {result : Except RuntimeError Value}
    (hindexed : indexed items (lastIndex items) = result) :
    scopes.Applies host prints "last" [.quoted items] (result, scopes) := by
  intro exprs hexprs
  subst hindexed
  refine runs_application (h.get? "last" (by decide) rfl) rfl hexprs ?_
  have hcall : scopes.Calls host prints lastItem.value [.quoted items]
      (indexed items (lastIndex items) >>= pure, scopes) :=
    calls_lastItem h fun v hv => evaluatesTo_self (hitems v (mem_of_indexed hv))
  rw [bind_pure] at hcall
  exact hcall

/-- Of several values the last is evaluated again. -/
theorem calls_sequence (h : scopes.HasPrelude indexNames) {arg : Value} {args : List Value}
    (hitem : ∀ v, indexed (arg :: args) (lastIndex (arg :: args)) = .ok v →
      EvaluatesTo host prints v (evaluated v)) :
    scopes.Calls host prints sequence.value (arg :: args)
      (indexed (arg :: args) (lastIndex (arg :: args)) >>= evaluated, scopes) := by
  have hbind : Closure.bindArguments [] sequence.formals (arg :: args) =
      .ok (["l"].zip [.quoted (arg :: args)], []) := rfl
  have hinner := h.push ["l"] (by decide) [.quoted (arg :: args)]
  have hlast := runs_application (hinner.get? "last" (by decide) rfl) rfl
    ((evaluates_name "l" rfl rfl).cons evaluatesAll_nil) (calls_lastItem hinner hitem)
  exact calls_closure hbind (runs_byCases (hinner.mono (by decide)) rfl hlast)

/-- The arguments of `do` are evaluated, and the last of their values, as far as counting gets, is
evaluated again. -/
theorem runs_sequence (h : scopes.HasPrelude indexNames) {exprs values : List Value} {v : Value}
    {result : Except RuntimeError Value} {middle : Scopes}
    (hexprs : scopes.EvaluatesAll host prints exprs (.ok values, middle))
    (hmiddle : middle.HasPrelude indexNames) (hv : lastCounted values = some v)
    (hagain : EvaluatesTo host prints v result) :
    scopes.Runs host prints (.identifier "do" :: exprs) (result, middle) := by
  cases values with
  | nil => cases hv
  | cons arg args =>
      have hcall : middle.Calls host prints sequence.value (arg :: args)
          (indexed (arg :: args) (lastIndex (arg :: args)) >>= fun _ => result, middle) := by
        refine calls_sequence hmiddle fun u hu => ?_
        cases (indexed_lastIndex hv).symm.trans hu
        exact hagain
      rw [indexed_lastIndex hv] at hcall
      exact runs_application (h.get? "do" (by decide) rfl) rfl hexprs hcall

end

section

variable {host : Host} {w : World} {exprs : List Value}

/-- The application of `do` evaluates its arguments in order, and then calls the function that is
bound to it. -/
theorem perform_do (h : w.scopes.get? "do" = some sequence.value) (b : Bracket) (allowance : Nat) :
    w.perform (run host (allowance + 1) b (.identifier "do" :: exprs)) =
      w.perform (evalValues (run host allowance) exprs >>= fun values =>
        if values.isEmpty then pure sequence.value
        else call host (run host allowance) sequence.value values) := by
  have hname : w.perform (evalValue (run host allowance) (.identifier "do")) =
      some (.ok sequence.value, w) := by
    show w.perform (Evaluation.lookup "do") = _
    rw [World.perform_lookup, h]
    rfl
  exact World.perform_bind_of_ok hname _

/-- Once some expressions have been evaluated, the function that is bound to `do` has the last value,
as far as counting gets. -/
theorem answers_sequence (hexprs : exprs ≠ []) {values : List Value} {middle : World}
    (hvalues : w.AnswersAll host exprs (.ok values, middle))
    (hmiddle : middle.scopes.HasPrelude indexNames ∧
      ∀ v, lastCounted values = some v → v.isResult = true) :
    ∃ v, lastCounted values = some v ∧
      middle.Answers (fun allowance =>
        if values.isEmpty then pure sequence.value
        else call host (run host allowance) sequence.value values) (.ok v, middle) := by
  obtain ⟨hprelude, hresult⟩ := hmiddle
  obtain ⟨allowance, inner, hperform, hinner⟩ := hvalues
  cases inner with
  | error e => cases hinner
  | ok results =>
      cases hinner
      have hlength := World.evalValues_length hperform
      cases values with
      | nil => exact absurd (List.length_eq_zero_iff.mp hlength.symm) hexprs
      | cons arg args =>
          obtain ⟨v, hv⟩ := exists_lastCounted (List.cons_ne_nil arg args)
          have hcall : middle.scopes.Calls host False sequence.value (arg :: args)
              (indexed (arg :: args) (lastIndex (arg :: args)) >>= .ok, middle.scopes) := by
            refine calls_sequence hprelude fun u hu => evaluatesTo_self ?_
            cases (indexed_lastIndex hv).symm.trans hu
            exact hresult _ hv
          rw [indexed_lastIndex hv] at hcall
          exact ⟨v, hv, hcall.answers middle.printed⟩

/-- The application of `do` to some arguments fails with the first that fails. Otherwise it has the
value of the last, as far as counting gets, where the names of the prelude still stand for what they
did and the value is a result. -/
theorem answers_do (h : w.scopes.HasPrelude indexNames) (b : Bracket) (hexprs : exprs ≠ [])
    (hafter : ∀ values after, w.AnswersAll host exprs (.ok values, after) →
      after.scopes.HasPrelude indexNames ∧
        ∀ v, lastCounted values = some v → v.isResult = true)
    {result : Except Error Value} {after : World} :
    w.Answers (fun allowance => run host allowance b (.identifier "do" :: exprs))
        (result, after) ↔
      (∃ e, w.AnswersAll host exprs (.error e, after) ∧ result = .error e) ∨
      ∃ values v, w.AnswersAll host exprs (.ok values, after) ∧ lastCounted values = some v ∧
        result = .ok v := by
  have hstable (values : List Value) : Evaluation.Stable fun allowance =>
      if values.isEmpty then pure sequence.value
      else call host (run host allowance) sequence.value values := by
    cases values with
    | nil => exact Evaluation.stable_pure sequence.value
    | cons arg args => exact call_stable host sequence.value (arg :: args)
  rw [World.answers_succ rfl (perform_do (h.get? "do" (by decide) rfl) b),
    World.answers_bind (evalValues_stable host exprs) hstable]
  constructor
  · intro hanswers
    rcases hanswers with ⟨e, hfails, rfl⟩ | ⟨values, middle, hvalues, hlater⟩
    · exact .inl ⟨e, hfails, rfl⟩
    · obtain ⟨v, hv, hcall⟩ := answers_sequence hexprs hvalues (hafter values middle hvalues)
      cases hlater.unique (hstable values) hcall
      exact .inr ⟨values, v, hvalues, hv, rfl⟩
  · intro hanswers
    rcases hanswers with ⟨e, hfails, rfl⟩ | ⟨values, v, hvalues, hv, rfl⟩
    · exact .inl ⟨e, hfails, rfl⟩
    · obtain ⟨u, hu, hcall⟩ := answers_sequence hexprs hvalues (hafter values after hvalues)
      cases hv.symm.trans hu
      exact .inr ⟨values, after, hvalues, hcall⟩

/-- In scopes that bind settled values only, what regular expressions are evaluated to are results. -/
theorem answers_results {values : List Value} {after : World} (hscopes : w.scopes.Settled)
    (hregular : ∀ expr ∈ exprs, expr.Regular)
    (h : w.AnswersAll host exprs (.ok values, after)) : ∀ v ∈ values, v.isResult = true := by
  obtain ⟨allowance, inner, hperform, hinner⟩ := h
  cases inner with
  | error e => cases hinner
  | ok results =>
      cases hinner
      exact fun v hv => ((evalValues_settled hregular hscopes hperform).2 v hv).result

end

/-- With the builtin functions and the prelude in the root, and none of the names that they use
rebound or hidden, `len` counts the items of a list, `nth` has the item at an index and for any other
index the error of one of the two functions that take lists apart, `last` has the last item, and `do`
evaluates its arguments in order and has the value of the last, if that is a result. All values are
results where names are bound to settled values only. Counting stops at `countLimit`. -/
theorem applies_indexing (host : Host) (prints : Prop) {scopes : Scopes}
    (h : scopes.HasPrelude indexNames) :
    (∀ items, scopes.Applies host prints "len" [.quoted items]
      (.ok (.number (.ofInt (min items.length countLimit))), scopes)) ∧
    (∀ items, (∀ v ∈ items, v.isResult = true) →
      (∀ x n, Binary64.IsInt x n → n.natAbs ≤ countLimit →
        (∀ (k : Nat) v, n = k → items[k]? = some v →
          scopes.Applies host prints "nth" [.number x, .quoted items] (.ok v, scopes)) ∧
        (n = items.length → scopes.Applies host prints "nth" [.number x, .quoted items]
          (.error (.emptyInput "head" "list"), scopes)) ∧
        (n < 0 ∨ items.length < n → scopes.Applies host prints "nth" [.number x, .quoted items]
          (.error (.emptyInput "tail" "list"), scopes))) ∧
      (∀ v, lastCounted items = some v →
        scopes.Applies host prints "last" [.quoted items] (.ok v, scopes)) ∧
      (items = [] → scopes.Applies host prints "last" [.quoted items]
        (.error (.emptyInput "tail" "list"), scopes))) ∧
    ∀ printed exprs, exprs ≠ [] →
      ((∀ values after, World.AnswersAll ⟨scopes, printed⟩ host exprs (.ok values, after) →
          after.scopes.HasPrelude indexNames ∧
            ∀ v, lastCounted values = some v → v.isResult = true) →
        ∀ b result after,
          World.Answers ⟨scopes, printed⟩
              (fun allowance => run host allowance b (.identifier "do" :: exprs)) (result, after) ↔
            (∃ e, World.AnswersAll ⟨scopes, printed⟩ host exprs (.error e, after) ∧
              result = .error e) ∨
            ∃ values v, World.AnswersAll ⟨scopes, printed⟩ host exprs (.ok values, after) ∧
              lastCounted values = some v ∧ result = .ok v) ∧
      (scopes.Settled → (∀ expr ∈ exprs, expr.Regular) →
        ∀ values after, World.AnswersAll ⟨scopes, printed⟩ host exprs (.ok values, after) →
          ∀ v ∈ values, v.isResult = true) := by
  refine ⟨?_, fun items hitems => ⟨fun x n hx hn => ⟨?_, ?_, ?_⟩, ?_, ?_⟩, ?_⟩
  · intro items exprs hexprs
    exact runs_application (h.get? "len" (by decide) rfl) rfl hexprs (calls_length h items)
  · intro k v hk hv
    exact applies_item h hitems hx hn (by rw [hk, indexed_of_some hv])
  · intro hlength
    exact applies_item h hitems hx hn (by rw [hlength, indexed_length])
  · intro houtside
    exact applies_item h hitems hx hn (indexed_outside houtside)
  · intro v hv
    exact applies_lastItem h hitems (indexed_lastIndex hv)
  · intro hempty
    subst hempty
    exact applies_lastItem h hitems (indexed_outside (.inl (by decide)))
  · intro printed exprs hexprs
    exact ⟨fun hafter b _ _ => answers_do h b hexprs hafter,
      fun hscopes hregular _ _ hvalues => answers_results hscopes hregular hvalues⟩

/-- With only the prelude loaded one and zero are counted and indexed, and a name that is defined by
the first argument of `do` is bound for the second. -/
theorem applies_indexing_home :
    home.HasPrelude indexNames ∧
      home.Applies ⟨none, none⟩ False "len" [.quoted oneAndZero] (.ok (.number (.ofInt 2)), home) ∧
      home.Applies ⟨none, none⟩ False "nth" [.number (.ofInt 1), .quoted oneAndZero]
        (.ok (.number (.zero false)), home) ∧
      home.Applies ⟨none, none⟩ False "nth" [.number (.ofInt 2), .quoted oneAndZero]
        (.error (.emptyInput "head" "list"), home) ∧
      home.Applies ⟨none, none⟩ False "nth" [.number (.ofInt (-1)), .quoted oneAndZero]
        (.error (.emptyInput "tail" "list"), home) ∧
      home.Applies ⟨none, none⟩ False "last" [.quoted oneAndZero]
        (.ok (.number (.zero false)), home) ∧
      home.Applies ⟨none, none⟩ False "last" [.quoted []]
        (.error (.emptyInput "tail" "list"), home) ∧
      World.Answers ⟨home, ""⟩ (fun allowance => run ⟨none, none⟩ allowance .round
          [.identifier "do", form "def" [.quoted [.identifier "x"], .number .one], .identifier "x"])
        (.ok (.number .one), ⟨home.define "x" (.number .one), ""⟩) := by
  have hprelude : home.HasPrelude indexNames := hasPrelude_root indexNames
  have hitems : ∀ v ∈ oneAndZero, v.isResult = true := by decide
  obtain ⟨hlength, hlists, hdo⟩ := applies_indexing ⟨none, none⟩ False hprelude
  obtain ⟨hitem, hlast, -⟩ := hlists oneAndZero hitems
  obtain ⟨-, -, hempty⟩ := hlists [] (by decide)
  obtain ⟨hwithin, -, -⟩ := hitem (.ofInt 1) 1 (Binary64.isInt_ofUnits false (by decide)) (by decide)
  obtain ⟨-, hend, -⟩ := hitem (.ofInt 2) 2 (Binary64.isInt_ofUnits false (by decide)) (by decide)
  obtain ⟨-, -, hbelow⟩ :=
    hitem (.ofInt (-1)) (-1) (Binary64.isInt_ofUnits false (by decide)) (by decide)
  have hdefine : home.Evaluates ⟨none, none⟩ False
      (form "def" [.quoted [.identifier "x"], .number .one])
      (.ok .unit, home.define "x" (.number .one)) :=
    (runs_application rfl rfl
      ((evaluates_self rfl).cons ((evaluates_self rfl).cons evaluatesAll_nil))
      (calls_define "x" (.number .one))).evaluates
  have hexprs := (hdefine.cons ((evaluates_name "x" rfl rfl).cons evaluatesAll_nil)).answers ""
  have hvalue : lastCounted [.unit, .number .one] = some (.number .one) :=
    lastCounted_of_length_le (by decide)
  obtain ⟨hsequence, -⟩ := hdo "" _ (List.cons_ne_nil _ _)
  refine ⟨hprelude, hlength oneAndZero, hwithin 1 _ rfl rfl, hend rfl, hbelow (.inl (by decide)),
    hlast _ (lastCounted_of_length_le (by decide)), hempty rfl, ?_⟩
  refine (hsequence ?_ .round _ _).mpr (.inr ⟨_, _, hexprs, hvalue, rfl⟩)
  intro values after hvalues
  cases hvalues.unique (evalValues_stable _ _) hexprs
  refine ⟨hprelude.define "x" (by decide) _, fun v hv => ?_⟩
  cases hvalue.symm.trans hv
  rfl

/-- The scopes in which a name has been bound to a name, after the prelude has been loaded. -/
def aliased : Scopes :=
  home.define "x" (.identifier "nil")

/-- More arguments than counting gets to, zeros and then a one. -/
def beyond : List Value :=
  List.replicate countLimit (.number (.zero false)) ++ [.number .one]

/-- A name that stands for a name has a value that is no result, and `do` evaluates it once more. Of
more arguments than counting gets to it has not the value of the last. -/
theorem do_evaluates_again :
    aliased.HasPrelude indexNames ∧
      aliased.EvaluatesAll ⟨none, none⟩ False [.identifier "x"]
        (.ok [.identifier "nil"], aliased) ∧
      aliased.Runs ⟨none, none⟩ False [.identifier "do", .identifier "x"]
        (.ok (.quoted []), aliased) ∧
      (¬ ∃ after, aliased.Runs ⟨none, none⟩ False [.identifier "do", .identifier "x"]
        (.ok (.identifier "nil"), after)) ∧
      home.EvaluatesAll ⟨none, none⟩ False beyond (.ok beyond, home) ∧
      home.Runs ⟨none, none⟩ False (.identifier "do" :: beyond)
        (.ok (.number (.zero false)), home) := by
  have hhome : home.HasPrelude indexNames := hasPrelude_root indexNames
  have hprelude : aliased.HasPrelude indexNames :=
    hhome.define "x" (by decide) (.identifier "nil")
  have hname : aliased.EvaluatesAll ⟨none, none⟩ False [.identifier "x"]
      (.ok [.identifier "nil"], aliased) :=
    (evaluates_name "x" rfl rfl).cons evaluatesAll_nil
  have hagain : EvaluatesTo ⟨none, none⟩ False (.identifier "nil") (.ok (.quoted [])) :=
    fun _ hinner => evaluates_name "nil" (hinner.get? "nil" (by decide) rfl) rfl
  have hruns := runs_sequence hprelude hname hprelude (lastCounted_of_length_le (by decide)) hagain
  have hbeyond : home.EvaluatesAll ⟨none, none⟩ False beyond (.ok beyond, home) := by
    refine evaluatesAll_self fun v hv => ?_
    rcases List.mem_append.mp hv with hzero | hone
    · rw [List.eq_of_mem_replicate hzero]
      rfl
    · rw [List.mem_singleton.mp hone]
      rfl
  have hlast : lastCounted beyond = some (.number (.zero false)) := by
    rw [beyond, lastCounted_append List.length_replicate, List.getLast?_replicate,
      if_neg (by decide)]
  refine ⟨hprelude, hname, hruns, ?_, hbeyond, ?_⟩
  · intro h
    obtain ⟨after, hafter⟩ := h
    cases (hruns .round).unique (run_stable _ _ _) (hafter .round)
  · exact runs_sequence hhome hbeyond hhome hlast (evaluatesTo_self rfl)

end Prelude

end QuotedLisp
