import QuotedLisp.Proofs.Scope.Entries

/-!
# Names in values

`Value.Mentions` says that a name stands somewhere in a value. A value may be restricted to the
names that it mentions, `Value.NamesIn`, and so may scopes: then what binds them is restricted as
well as what they are bound to.
-/

namespace QuotedLisp

namespace Value

/-- `Mentions name v` says that the name stands in the value at some depth, inside quoted lists and
closures too: as an identifier, as a formal of a closure, or as a name that a closure holds an
argument for. -/
inductive Mentions (name : Name) : Value → Prop where
  | identifier : Mentions name (.identifier name)
  | item (b items v) : v ∈ items → Mentions name v → Mentions name (.list b items)
  | key (bound formals b body v) :
      (name, v) ∈ bound → Mentions name (.closure bound formals b body)
  | held (bound formals b body entry) :
      entry ∈ bound → Mentions name entry.2 → Mentions name (.closure bound formals b body)
  | formal (bound formals b body) :
      name ∈ formals → Mentions name (.closure bound formals b body)
  | body (bound formals b body v) :
      v ∈ body → Mentions name v → Mentions name (.closure bound formals b body)

/-- Every name that the value mentions is among the given ones. -/
def NamesIn (names : Name → Prop) (v : Value) : Prop :=
  ∀ name, v.Mentions name → names name

/-- A value mentions only other names exactly if it does not mention the name. -/
theorem namesIn_ne {name : Name} {v : Value} : v.NamesIn (· ≠ name) ↔ ¬ v.Mentions name := by
  constructor
  · intro h hname
    exact h name hname rfl
  · rintro h _ hother rfl
    exact h hother

variable {names : Name → Prop}

/-- A number mentions no names. -/
theorem namesIn_number (x : Binary64) : (number x).NamesIn names := nofun

/-- A string mentions no names, whatever its text. -/
theorem namesIn_string (text : String) : (string text).NamesIn names := nofun

/-- A builtin function mentions no names, not even its own. -/
theorem namesIn_builtin (b : Builtin) : (builtin b).NamesIn names := nofun

/-- An identifier mentions one name. -/
theorem namesIn_identifier {name : Name} : (identifier name).NamesIn names ↔ names name := by
  constructor
  · intro h
    exact h name .identifier
  · rintro h _ ⟨⟩
    exact h

/-- A list mentions what its items mention. -/
theorem namesIn_list {b : Bracket} {items : List Value} :
    (list b items).NamesIn names ↔ ∀ v ∈ items, v.NamesIn names := by
  constructor
  · intro h v hv name hname
    exact h name (.item b items v hv hname)
  · intro h name hname
    cases hname with
    | item _ _ v hv hname => exact h v hv name hname

/-- The empty list mentions no names. -/
theorem namesIn_unit : unit.NamesIn names :=
  namesIn_list.mpr nofun

end Value

/-- Every name that the scope binds is among the given ones, and every name that is mentioned where
it binds them. -/
abbrev Bindings.NamesIn (names : Name → Prop) (bindings : Bindings) : Prop :=
  ∀ entry ∈ bindings, names entry.1 ∧ entry.2.NamesIn names

/-- The same for all scopes of a chain. -/
abbrev Scopes.NamesIn (names : Name → Prop) (scopes : Scopes) : Prop :=
  scopes.All fun entry => names entry.1 ∧ entry.2.NamesIn names

/-- A closure mentions the names of what it holds, its formals, and what its body mentions. -/
theorem Value.namesIn_closure {names : Name → Prop} {bound : Bindings} {formals : List Name}
    {b : Bracket} {body : List Value} :
    (closure bound formals b body).NamesIn names ↔
      bound.NamesIn names ∧ (∀ formal ∈ formals, names formal) ∧
        ∀ v ∈ body, v.NamesIn names := by
  constructor
  · intro h
    refine ⟨fun entry hentry => ⟨?_, ?_⟩, ?_, ?_⟩
    · exact h entry.1 (.key bound formals b body entry.2 hentry)
    · intro name hname
      exact h name (.held bound formals b body entry hentry hname)
    · intro formal hformal
      exact h formal (.formal bound formals b body hformal)
    · intro v hv name hname
      exact h name (.body bound formals b body v hv hname)
  · rintro ⟨hbound, hformals, hbody⟩ name hname
    cases hname with
    | key _ _ _ _ v hentry => exact (hbound _ hentry).1
    | held _ _ _ _ entry hentry hname => exact (hbound entry hentry).2 name hname
    | formal _ _ _ _ hformal => exact hformals name hformal
    | body _ _ _ _ v hv hname => exact hbody v hv name hname

end QuotedLisp
