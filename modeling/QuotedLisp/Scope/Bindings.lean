import QuotedLisp.Value.Basic

/-!
# Bindings

What one scope binds: names with their values, in the order in which they were first bound. Binding
a name again replaces its value in place. `get?_set` says what a lookup finds afterwards.
-/

namespace QuotedLisp

/-- The names that a scope binds, each with its value. -/
abbrev Bindings := List (Name × Value)

namespace Bindings

/-- The value of a name. -/
def get? (bindings : Bindings) (name : Name) : Option Value :=
  bindings.lookup name

/-- The bindings after a name was bound. -/
def set : Bindings → Name → Value → Bindings
  | [], name, v => [(name, v)]
  | (bound, old) :: rest, name, v =>
    if bound = name then (bound, v) :: rest else (bound, old) :: set rest name v

/-- The bindings after several names were bound, one after the other. -/
def setAll (bindings : Bindings) (entries : List (Name × Value)) : Bindings :=
  entries.foldl (fun bs entry => bs.set entry.1 entry.2) bindings

/-- What a lookup finds at the head of the list or after it. -/
theorem get?_cons (bound : Name) (old : Value) (rest : Bindings) (name : Name) :
    get? ((bound, old) :: rest) name = if name = bound then some old else get? rest name := by
  by_cases h : name = bound
  · simp [get?, h]
  · have hne : (name == bound) = false := by simpa using h
    simp [get?, List.lookup_cons, hne, h]

/-- A name that was just bound has the new value, and every other name the value it had. -/
theorem get?_set (bindings : Bindings) (name other : Name) (v : Value) :
    (bindings.set name v).get? other = if other = name then some v else bindings.get? other := by
  induction bindings with
  | nil => exact get?_cons name v [] other
  | cons entry rest ih =>
    obtain ⟨bound, old⟩ := entry
    by_cases hbound : bound = name
    · subst hbound
      by_cases h : other = bound <;> simp [set, get?_cons, h]
    · by_cases h : other = bound
      · subst h
        simp [set, get?_cons, hbound]
      · simp [set, get?_cons, hbound, h, ih]

end Bindings

end QuotedLisp
