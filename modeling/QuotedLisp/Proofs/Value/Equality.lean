import QuotedLisp.Value.Equality

/-!
# The equality of the language

`Value.equal?` compares two values from the left, up to the first parts that differ or cannot be
compared. It says the same from either side (`equal_comm`). Values are equal if they have the same
structure and nothing in them that cannot be compared (`equal_eq_true`), equality is passed on
(`equal_trans`), and a value that can be compared is compared with any other
(`Comparable.equal_ok`).
-/

namespace QuotedLisp

namespace Binary64

/-- Numbers are equal from either side. -/
theorem equal_comm (x y : Binary64) : x.equal y = y.equal x := by
  cases x with
  | finite x =>
      cases y with
      | finite y => exact BEq.comm
      | infinity | nan => rfl
  | infinity s =>
      cases y with
      | infinity t => exact BEq.comm
      | finite | nan => rfl
  | nan => cases y <;> rfl

/-- Numbers that are equal to the same number are equal. -/
theorem equal_trans {x y z : Binary64} (hxy : x.equal y = true) (hyz : y.equal z = true) :
    x.equal z = true := by
  cases y with
  | finite y =>
      cases x with
      | finite x =>
          cases z with
          | finite z => exact beq_iff_eq.mpr ((beq_iff_eq.mp hxy).trans (beq_iff_eq.mp hyz))
          | infinity | nan => cases hyz
      | infinity | nan => cases hxy
  | infinity t =>
      cases x with
      | infinity s =>
          cases z with
          | infinity u => exact beq_iff_eq.mpr ((beq_iff_eq.mp hxy).trans (beq_iff_eq.mp hyz))
          | finite | nan => cases hyz
      | finite | nan => cases hxy
  | nan => cases x <;> cases hxy

end Binary64

namespace Value

/-- The values that have no function and no error in them at any depth. -/
inductive Comparable : Value → Prop where
  | number (x) : Comparable (.number x)
  | string (text) : Comparable (.string text)
  | identifier (name) : Comparable (.identifier name)
  | list (b items) : (∀ v ∈ items, Comparable v) → Comparable (.list b items)

mutual

/-- Two values are compared with the same answer, or the same failure, from either side. -/
theorem equal_comm (v other : Value) : v.equal? other = other.equal? v := by
  cases v with
  | number x =>
      cases other with
      | number y => exact congrArg Except.ok (x.equal_comm y)
      | string | identifier | list | builtin | closure | error => rfl
  | string text =>
      cases other with
      | string text' => exact congrArg Except.ok BEq.comm
      | number | identifier | list | builtin | closure | error => rfl
  | identifier name =>
      cases other with
      | identifier name' => exact congrArg Except.ok BEq.comm
      | number | string | list | builtin | closure | error => rfl
  | list b items =>
      cases other with
      | list b' others =>
          simp only [equal?, equalItems_comm items others, ne_comm (a := b),
            ne_comm (a := items.length)]
      | number | string | identifier | builtin | closure | error => rfl
  | builtin | closure | error => cases other <;> rfl

/-- So are two lists item by item. -/
theorem equalItems_comm (items others : List Value) :
    equalItems? items others = equalItems? others items := by
  cases items with
  | nil => cases others <;> rfl
  | cons v items =>
      cases others with
      | nil => rfl
      | cons other others =>
          simp only [equalItems?, equal_comm v other, equalItems_comm items others]

end

variable {v other : Value}

/-- Only numbers are equal to a number. -/
theorem equal_number {x : Binary64} :
    (Value.number x).equal? v = .ok true ↔ ∃ y, v = .number y ∧ x.equal y = true := by
  cases v <;> simp [equal?]

/-- Only the same string is equal to a string. -/
theorem equal_string {text : String} :
    (Value.string text).equal? v = .ok true ↔ v = .string text := by
  cases v <;> simp [equal?, eq_comm (a := text)]

/-- Only the same name is equal to a name. -/
theorem equal_identifier {name : Name} :
    (Value.identifier name).equal? v = .ok true ↔ v = .identifier name := by
  cases v <;> simp [equal?, eq_comm (a := name)]

/-- Only lists of the same kind and length are equal to a list, if their items are. -/
theorem equal_list {b : Bracket} {items : List Value} :
    (Value.list b items).equal? v = .ok true ↔
      ∃ others, v = .list b others ∧ items.length = others.length ∧
        equalItems? items others = .ok true := by
  cases v with
  | list b' others =>
      by_cases hb : b = b'
      · subst hb
        by_cases hlength : items.length = others.length <;> simp [equal?, hlength]
      · simp [equal?, hb, Ne.symm hb]
  | number | string | identifier | builtin | closure | error => simp [equal?]

/-- Lists are equal item by item if their first items are, and the others in the same way. -/
theorem equalItems_cons {items others : List Value} :
    equalItems? (v :: items) (other :: others) = .ok true ↔
      v.equal? other = .ok true ∧ equalItems? items others = .ok true := by
  rw [equalItems?]
  split
  · rename_i hfirst
    exact ⟨fun h => ⟨hfirst, h⟩, fun h => h.2⟩
  · rename_i hfirst
    exact ⟨fun h => absurd h hfirst, fun h => h.1⟩

mutual

/-- Two values are equal exactly if they have the same structure and nothing in either of them is a
function or an error. -/
theorem equal_eq_true (v other : Value) :
    v.equal? other = .ok true ↔ v.same other = true ∧ v.Comparable ∧ other.Comparable := by
  cases v with
  | number x =>
      rw [equal_number]
      constructor
      · rintro ⟨y, rfl, hxy⟩
        exact ⟨hxy, .number x, .number y⟩
      · rintro ⟨hsame, -, -⟩
        cases other with
        | number y => exact ⟨y, rfl, hsame⟩
        | string | identifier | list | builtin | closure | error => cases hsame
  | string text =>
      rw [equal_string]
      constructor
      · rintro rfl
        exact ⟨beq_self_eq_true text, .string text, .string text⟩
      · rintro ⟨hsame, -, -⟩
        cases other with
        | string text' => rw [beq_iff_eq.mp hsame]
        | number | identifier | list | builtin | closure | error => cases hsame
  | identifier name =>
      rw [equal_identifier]
      constructor
      · rintro rfl
        exact ⟨beq_self_eq_true name, .identifier name, .identifier name⟩
      · rintro ⟨hsame, -, -⟩
        cases other with
        | identifier name' => rw [beq_iff_eq.mp hsame]
        | number | string | list | builtin | closure | error => cases hsame
  | list b items =>
      rw [equal_list]
      constructor
      · rintro ⟨others, rfl, hequal⟩
        obtain ⟨hsame, hitems, hothers⟩ := (equalItems_eq_true items others).mp hequal
        exact ⟨Bool.and_eq_true_iff.mpr ⟨beq_self_eq_true b, hsame⟩, .list b items hitems,
          .list b others hothers⟩
      · rintro ⟨hsame, hitems, hothers⟩
        cases other with
        | list b' others =>
            obtain ⟨hb, hsames⟩ := Bool.and_eq_true_iff.mp hsame
            obtain rfl := beq_iff_eq.mp hb
            cases hitems with
            | list _ _ hitems =>
                cases hothers with
                | list _ _ hothers =>
                    exact ⟨others, rfl, (equalItems_eq_true items others).mpr
                      ⟨hsames, hitems, hothers⟩⟩
        | number | string | identifier | builtin | closure | error => cases hsame
  | builtin | closure | error =>
      refine ⟨fun h => ?_, fun ⟨_, hnone, _⟩ => nomatch hnone⟩
      cases other <;> cases h

/-- The same for two lists of one length. -/
theorem equalItems_eq_true (items others : List Value) :
    items.length = others.length ∧ equalItems? items others = .ok true ↔
      sameItems items others = true ∧ (∀ v ∈ items, v.Comparable) ∧
        ∀ v ∈ others, v.Comparable := by
  cases items with
  | nil =>
      cases others with
      | nil => simp [equalItems?, sameItems]
      | cons other others => simp [sameItems]
  | cons v items =>
      cases others with
      | nil => simp [sameItems]
      | cons other others =>
          have hrest := equalItems_eq_true items others
          rw [equalItems_cons, equal_eq_true v other, sameItems, Bool.and_eq_true,
            List.forall_mem_cons, List.forall_mem_cons, List.length_cons, List.length_cons,
            Nat.add_right_cancel_iff]
          constructor
          · rintro ⟨hlength, ⟨hsame, hv, hother⟩, hequal⟩
            obtain ⟨hsames, hitems, hothers⟩ := hrest.mp ⟨hlength, hequal⟩
            exact ⟨⟨hsame, hsames⟩, ⟨hv, hitems⟩, hother, hothers⟩
          · rintro ⟨⟨hsame, hsames⟩, ⟨hv, hitems⟩, hother, hothers⟩
            obtain ⟨hlength, hequal⟩ := hrest.mpr ⟨hsames, hitems, hothers⟩
            exact ⟨hlength, ⟨hsame, hv, hother⟩, hequal⟩

end

mutual

/-- Values that are equal to the same value are equal. -/
theorem equal_trans (v : Value) {other third : Value} (h : v.equal? other = .ok true)
    (h' : other.equal? third = .ok true) : v.equal? third = .ok true := by
  cases v with
  | number x =>
      obtain ⟨y, rfl, hxy⟩ := equal_number.mp h
      obtain ⟨z, rfl, hyz⟩ := equal_number.mp h'
      exact equal_number.mpr ⟨z, rfl, Binary64.equal_trans hxy hyz⟩
  | string text =>
      obtain rfl := equal_string.mp h
      exact h'
  | identifier name =>
      obtain rfl := equal_identifier.mp h
      exact h'
  | list b items =>
      obtain ⟨others, rfl, hlength, hitems⟩ := equal_list.mp h
      obtain ⟨thirds, rfl, hlength', hothers⟩ := equal_list.mp h'
      exact equal_list.mpr ⟨thirds, rfl, hlength.trans hlength',
        equalItems_trans items hlength hlength' hitems hothers⟩
  | builtin | closure | error => cases other <;> cases h

/-- The same for lists of one length, item by item. -/
theorem equalItems_trans (items : List Value) {others thirds : List Value}
    (hlength : items.length = others.length) (hlength' : others.length = thirds.length)
    (h : equalItems? items others = .ok true) (h' : equalItems? others thirds = .ok true) :
    equalItems? items thirds = .ok true := by
  cases items with
  | nil => cases thirds <;> rfl
  | cons v items =>
      cases others with
      | nil => cases hlength
      | cons other others =>
          cases thirds with
          | nil => cases hlength'
          | cons third thirds =>
              obtain ⟨hfirst, hrest⟩ := equalItems_cons.mp h
              obtain ⟨hfirst', hrest'⟩ := equalItems_cons.mp h'
              exact equalItems_cons.mpr ⟨equal_trans v hfirst hfirst',
                equalItems_trans items (Nat.succ.inj hlength) (Nat.succ.inj hlength') hrest hrest'⟩

end

/-- Two lists are compared with an answer, if each item of the first is, whatever it is compared
with. -/
theorem equalItems_ok {items : List Value}
    (h : ∀ v ∈ items, ∀ other, ∃ answer, v.equal? other = .ok answer) (others : List Value) :
    ∃ answer, equalItems? items others = .ok answer := by
  induction items generalizing others with
  | nil => cases others <;> exact ⟨true, rfl⟩
  | cons v items ih =>
      obtain ⟨hv, hitems⟩ := List.forall_mem_cons.mp h
      cases others with
      | nil => exact ⟨true, rfl⟩
      | cons other others =>
          obtain ⟨answer, hanswer⟩ := hv other
          cases answer with
          | true =>
              obtain ⟨rest, hrest⟩ := ih hitems others
              exact ⟨rest, by rw [equalItems?, hanswer, hrest]⟩
          | false => exact ⟨false, by rw [equalItems?, hanswer]⟩

/-- A value that can be compared is compared with an answer, whatever it is compared with. -/
theorem Comparable.equal_ok (h : v.Comparable) (other : Value) :
    ∃ answer, v.equal? other = .ok answer := by
  induction h generalizing other with
  | number | string | identifier => cases other <;> exact ⟨_, rfl⟩
  | list b items _ ih =>
      cases other with
      | list b' others =>
          rw [equal?]
          split
          · exact ⟨false, rfl⟩
          · exact equalItems_ok ih others
      | number | string | identifier | builtin | closure | error => exact ⟨false, rfl⟩

end Value

end QuotedLisp
