import QuotedLisp.Eval.Arguments
import QuotedLisp.Proofs.Results

/-!
# Checked arguments

A check of an argument's type succeeds on one form of value only, and answers what the value is
made of; `mapM_eq_ok` carries such a check to all members of a list.
-/

namespace QuotedLisp

/-- If a check succeeds exactly on the values of one form, the check of a list succeeds exactly on
the lists of such values. -/
theorem mapM_eq_ok {ε α β : Type} {check : α → Except ε β} {form : β → α}
    (h : ∀ v a, check v = .ok a ↔ v = form a) (items : List α) (answers : List β) :
    items.mapM check = .ok answers ↔ items = answers.map form := by
  induction items generalizing answers with
  | nil =>
      rw [List.mapM_nil]
      cases answers with
      | nil => exact ⟨fun _ => rfl, fun _ => rfl⟩
      | cons a answers => exact ⟨nofun, nofun⟩
  | cons item items ih =>
      rw [List.mapM_cons, except_bind_eq_ok]
      constructor
      · rintro ⟨a, hitem, hrest⟩
        obtain ⟨rest, hitems, heq⟩ := except_bind_eq_ok.mp hrest
        cases heq
        rw [(h item a).mp hitem, (ih rest).mp hitems, List.map_cons]
      · intro heq
        cases answers with
        | nil => cases heq
        | cons a answers =>
            obtain ⟨rfl, rfl⟩ := List.cons.inj heq
            exact ⟨a, (h _ a).mpr rfl, except_bind_eq_ok.mpr ⟨answers, (ih answers).mpr rfl, rfl⟩⟩

namespace Value

variable {function : String} {v : Value}

/-- Only numbers are taken for numbers. -/
@[simp] theorem expectNumber_eq_ok {x : Binary64} :
    v.expectNumber function = .ok x ↔ v = .number x := by
  cases v <;> simp [expectNumber]

/-- Only strings are taken for strings. -/
@[simp] theorem expectString_eq_ok {text : String} :
    v.expectString function = .ok text ↔ v = .string text := by
  cases v <;> simp [expectString]

/-- Only quoted lists are taken for quoted lists. -/
@[simp] theorem expectQuoted_eq_ok {items : List Value} :
    v.expectQuoted function = .ok items ↔ v = .quoted items := by
  cases v with
  | list b inner => cases b <;> simp [expectQuoted]
  | number | string | identifier | builtin | closure | error => simp [expectQuoted]

/-- Only names are taken for names. -/
@[simp] theorem expectIdentifier_eq_ok {name : Name} :
    v.expectIdentifier function = .ok name ↔ v = .identifier name := by
  cases v <;> simp [expectIdentifier]

/-- Only quoted lists of names are taken for lists of names. -/
@[simp] theorem expectIdentifiers_eq_ok {names : List Name} :
    v.expectIdentifiers function = .ok names ↔ v = .quoted (names.map .identifier) := by
  unfold expectIdentifiers
  simp only [except_bind_eq_ok, expectQuoted_eq_ok,
    mapM_eq_ok fun v name => @expectIdentifier_eq_ok function v name]
  exact ⟨fun ⟨_, hv, hitems⟩ => hitems ▸ hv, fun hv => ⟨_, hv, rfl⟩⟩

end Value

/-- A binding form pairs names with as many values, and fails on anything else. -/
theorem Builtin.pairs_eq_ok {b : Builtin} {args : List Value} {entries : List (Name × Value)} :
    b.pairs args = .ok entries ↔ ∃ (names : List Name) (values : List Value),
      args = .quoted (names.map .identifier) :: values ∧ names.length = values.length ∧
        entries = names.zip values := by
  cases args with
  | nil => exact ⟨nofun, nofun⟩
  | cons first values =>
      unfold pairs
      simp only [except_bind_eq_ok, Value.expectIdentifiers_eq_ok]
      constructor
      · rintro ⟨names, rfl, h⟩
        split at h
        · cases h
          exact ⟨names, values, rfl, ‹_›, rfl⟩
        · cases h
      · rintro ⟨names, values', heq, hlength, rfl⟩
        cases heq
        exact ⟨names, rfl, if_pos hlength⟩

end QuotedLisp
