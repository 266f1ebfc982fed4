import QuotedLisp.Proofs.Eval.Closure
import QuotedLisp.Proofs.Value.RoundTrip
import QuotedLisp.Scope.Chain

/-!
# Regular values

What values are like that source text and evaluation can make. A regular value has no error
anywhere in it, its numbers are finite, its names are cut as identifiers, and its closures have
well-placed formals and hold results only, those that hold any waiting for others. A result is a
value of a form in which evaluation can end; a regular result is `Settled`, and it is what scopes
bind. A regular value without functions in it can be written down.
-/

namespace QuotedLisp

namespace Value

/-- A value that evaluation can end in: neither a name nor an error, and of the round lists only
the empty one. -/
def isResult : Value → Bool
  | .identifier _ | .error _ => false
  | .list .round items => items.isEmpty
  | _ => true

/-- A value that can be called: a builtin function or a closure. -/
def isFunction : Value → Bool
  | .builtin _ | .closure .. => true
  | _ => false

/-- `Occurs u v` says that `v` is `u` or has it in it at some depth: as an item of a list, as an
argument that a closure holds, or in the body of a closure. -/
inductive Occurs (u : Value) : Value → Prop where
  | self : Occurs u u
  | item (b items v) : v ∈ items → Occurs u v → Occurs u (.list b items)
  | held (bound formals b body entry) :
      entry ∈ bound → Occurs u entry.2 → Occurs u (.closure bound formals b body)
  | body (bound formals b body v) :
      v ∈ body → Occurs u v → Occurs u (.closure bound formals b body)

/-- The values that source text and evaluation can make. -/
inductive Regular : Value → Prop where
  | number (x) : x.isFinite = true → Regular (.number x)
  | string (text) : Regular (.string text)
  | identifier (name) : tokenize name = .ok [⟨.identifier, name⟩] → Regular (.identifier name)
  | list (b items) : (∀ v ∈ items, Regular v) → Regular (.list b items)
  | builtin (function) : Regular (.builtin function)
  | closure (bound formals b body) :
      (∀ entry ∈ bound, Regular entry.2) → (∀ entry ∈ bound, isResult entry.2 = true) →
      Closure.wellPlaced formals = true → (bound ≠ [] → Closure.Waits formals) →
      (∀ v ∈ body, Regular v) →
      Regular (.closure bound formals b body)

/-- A value in which evaluation has ended. -/
structure Settled (v : Value) : Prop where
  regular : v.Regular
  result : v.isResult = true

/-- The items of a regular list are regular. -/
theorem Regular.items {b : Bracket} {items : List Value} (h : Regular (.list b items)) :
    ∀ v ∈ items, v.Regular := by
  cases h with
  | list _ _ hitems => exact hitems

/-- A regular value has regular parts only. -/
theorem Regular.of_occurs {u v : Value} (h : Occurs u v) (hv : v.Regular) : u.Regular := by
  induction h with
  | self => exact hv
  | item b items v hmem _ ih => exact ih (hv.items v hmem)
  | held bound formals b body entry hmem _ ih =>
      cases hv with
      | closure _ _ _ _ hbound => exact ih (hbound entry hmem)
  | body bound formals b body v hmem _ ih =>
      cases hv with
      | closure _ _ _ _ _ _ _ _ hbody => exact ih (hbody v hmem)

/-- What can be written down is regular. -/
theorem Printable.regular {v : Value} (h : Printable v) : v.Regular := by
  induction h with
  | number x hfinite => exact .number x hfinite
  | string text => exact .string text
  | identifier name hname => exact .identifier name hname
  | list b items _ ih => exact .list b items ih

/-- A value without functions in it at any depth. -/
def FunctionFree (v : Value) : Prop :=
  ∀ u, Occurs u v → u.isFunction = false

/-- A regular value without functions in it can be written down. -/
theorem Regular.printable {v : Value} (h : v.Regular) (hfree : v.FunctionFree) : v.Printable := by
  induction h with
  | number x hfinite => exact .number x hfinite
  | string text => exact .string text
  | identifier name hname => exact .identifier name hname
  | list b items _ ih =>
      refine .list b items fun v hv => ih v hv ?_
      intro u hoccurs
      exact hfree u (.item b items v hv hoccurs)
  | builtin | closure => cases hfree _ .self

/-- What can be written down has no functions in it. -/
theorem Printable.functionFree {v : Value} (h : v.Printable) : v.FunctionFree := by
  intro u hoccurs
  induction hoccurs with
  | self => cases h <;> rfl
  | item b items v hmem _ ih =>
      cases h with
      | list _ _ hitems => exact ih (hitems v hmem)
  | held | body => cases h

/-- A quoted list of regular values is settled. -/
theorem settled_quoted {items : List Value} (h : ∀ v ∈ items, v.Regular) :
    Settled (.quoted items) :=
  ⟨.list .curly items h, rfl⟩

/-- A string is settled. -/
theorem settled_string (text : String) : Settled (.string text) :=
  ⟨.string text, rfl⟩

/-- A finite number is settled. -/
theorem settled_number {x : Binary64} (h : x.isFinite = true) : Settled (.number x) :=
  ⟨.number x h, rfl⟩

/-- Truth is settled. -/
theorem settled_ofBool (b : Bool) : Settled (.ofBool b) := by
  cases b <;> exact settled_number rfl

/-- The empty round list is settled. -/
theorem settled_unit : Settled .unit :=
  ⟨.list .round [] (by simp), rfl⟩

/-- The items of a settled list are regular, whatever its bracket. -/
theorem Settled.items {b : Bracket} {items : List Value} (h : Settled (.list b items)) :
    ∀ v ∈ items, v.Regular :=
  h.regular.items

/-- A normal form: a result without errors at any depth. What the closures in it hold are results
without errors too. -/
structure Normal (v : Value) : Prop where
  result : v.isResult = true
  noError : ∀ e, ¬ Occurs (.error e) v
  held : ∀ bound formals b body, Occurs (.closure bound formals b body) v →
    ∀ entry ∈ bound, isResult entry.2 = true ∧ ∀ e, ¬ Occurs (.error e) entry.2

/-- A regular value has no error in it. -/
theorem Regular.no_error {v : Value} (h : v.Regular) (e : RuntimeError) :
    ¬ Occurs (.error e) v := by
  intro hoccurs
  cases Regular.of_occurs hoccurs h

/-- Settled values are in normal form. -/
theorem Settled.normal {v : Value} (h : v.Settled) : v.Normal := by
  refine ⟨h.result, h.regular.no_error, ?_⟩
  intro bound formals b body hoccurs entry hentry
  cases Regular.of_occurs hoccurs h.regular with
  | closure _ _ _ _ hbound hheld => exact ⟨hheld entry hentry, (hbound entry hentry).no_error⟩

end Value

/-- All values that a scope binds are settled. -/
def Bindings.Settled (bindings : Bindings) : Prop :=
  ∀ entry ∈ bindings, entry.2.Settled

/-- All values that the scopes of a chain bind are settled. -/
structure Scopes.Settled (scopes : Scopes) : Prop where
  frames : ∀ frame ∈ scopes.frames, frame.Settled
  root : scopes.root.Settled

end QuotedLisp
