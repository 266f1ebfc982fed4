import QuotedLisp.Proofs.Prelude.Lists

/-!
# The form that defines functions

The prelude has a function, `fun`, that takes a list of a name with formals and a body, and defines
a function. To call it is to bind the name to what the builtin function makes of the formals and the
body, whatever stands in the list, `definer_is_definition`: the function has formals of its own, but
what is in the list and in the body is data to it.
-/

namespace QuotedLisp

open Scopes

namespace Prelude

/-- The names that the form and its body use. -/
def definerNames : List Name :=
  definer.name :: definerBuiltins.map Builtin.name

section

variable {scopes after : Scopes} {first v : Value} {others body : List Value} {e : RuntimeError}

/-- A definition that fails leaves everything as it was. -/
theorem definition_error (h : definition scopes first others body = (.error e, after)) :
    after = scopes := by
  unfold definition at h
  split at h
  · cases h
    rfl
  · unfold boundTo at h
    split at h <;> cases h
    rfl

/-- A definition that succeeds has bound a closure. -/
theorem definition_ok (h : definition scopes first others body = (.ok v, after)) :
    ∃ name formals, first = .identifier name ∧ others = formals.map .identifier ∧ v = .unit ∧
      after = scopes.define name (.closure [] formals .curly body) := by
  unfold definition at h
  split at h
  · cases h
  · rename_i f hmake
    obtain ⟨formals, code, hargs, -, rfl⟩ := Closure.make_eq_ok.mp hmake
    cases hargs
    unfold boundTo at h
    split at h
    · rename_i name
      cases h
      exact ⟨name, formals, rfl, rfl, rfl, rfl⟩
    · cases h

end

/-- With the builtin functions and the prelude in the root, and none of the names that it uses
rebound or hidden, the function `fun`, called with a list that is not empty and a body, comes to the
same result and the same scopes as the call of `def` with the list of the first item and what `fn`
makes of the other items and the body. If that is an error, nothing has changed; otherwise the first
item is a name, and it is bound in the root to the closure of the others and the body. -/
theorem definer_is_definition (host : Host) (prints : Prop) {scopes : Scopes}
    (h : scopes.HasPrelude definerNames) (first : Value) (others body : List Value) :
    (∃ function, scopes.get? "fun" = some function ∧
      scopes.Calls host prints function [.quoted (first :: others), .quoted body]
        (definition scopes first others body)) ∧
    scopes.Applies host prints "fun" [.quoted (first :: others), .quoted body]
      (definition scopes first others body) ∧
    scopes.Runs host prints
      [.identifier "def", .quoted [first], form "fn" [.quoted others, .quoted body]]
      (definition scopes first others body) ∧
    (∀ e after, definition scopes first others body = (.error e, after) → after = scopes) ∧
    ∀ v after, definition scopes first others body = (.ok v, after) →
      ∃ name formals, first = .identifier name ∧ others = formals.map .identifier ∧ v = .unit ∧
        after = scopes.define name (.closure [] formals .curly body) := by
  have hbuiltin : ∀ b ∈ definerBuiltins, scopes.get? b.name = some (.builtin b) := by
    intro b hb
    refine h.get? b.name (List.mem_cons_of_mem _ (List.mem_map_of_mem hb)) ?_
    simp only [definerBuiltins, List.mem_cons, List.not_mem_nil, or_false] at hb
    rcases hb with rfl | rfl | rfl | rfl <;> rfl
  have hdefiner : scopes.get? "fun" = some definer.value := h.get? "fun" (by decide) rfl
  have hcalls : scopes.Calls host prints definer.value [.quoted (first :: others), .quoted body]
      (definition scopes first others body) := calls_definer hbuiltin first others body
  refine ⟨⟨definer.value, hdefiner, hcalls⟩, ?_, ?_, fun e after => definition_error,
    fun v after => definition_ok⟩
  · intro exprs hexprs
    exact runs_application hdefiner rfl hexprs hcalls
  · exact runs_definition (hbuiltin .define (by decide)) (hbuiltin .lambda (by decide))
      (evaluates_self rfl) (evaluates_self rfl) (evaluates_self rfl)

/-- With only the prelude loaded the formals of the form can be the names of a function and of its
formals, a marker in the wrong place is reported before the missing name, and a number is no
name. -/
theorem definer_is_definition_home :
    home.HasPrelude definerNames ∧
      home.Applies ⟨none, none⟩ False "fun"
        [.quoted [.identifier "f", .identifier "b", .identifier "def"], .quoted [.identifier "b"]]
        (.ok .unit, home.define "f" (.closure [] ["b", "def"] .curly [.identifier "b"])) ∧
      home.Applies ⟨none, none⟩ False "fun"
        [.quoted [.number .one, .identifier "&", .identifier "b", .identifier "f"], .quoted []]
        (.error .malformedVariadic, home) ∧
      home.Applies ⟨none, none⟩ False "fun" [.quoted [.number .one, .identifier "b"], .quoted []]
        (.error (.typeMismatch "def" "Identifier" "Number"), home) := by
  have hprelude : home.HasPrelude definerNames := hasPrelude_root definerNames
  obtain ⟨-, hnamed, -⟩ := definer_is_definition ⟨none, none⟩ False hprelude (.identifier "f")
    [.identifier "b", .identifier "def"] [.identifier "b"]
  obtain ⟨-, hmisplaced, -⟩ := definer_is_definition ⟨none, none⟩ False hprelude (.number .one)
    [.identifier "&", .identifier "b", .identifier "f"] []
  obtain ⟨-, hnumber, -⟩ := definer_is_definition ⟨none, none⟩ False hprelude (.number .one)
    [.identifier "b"] []
  exact ⟨hprelude, hnamed, hmisplaced, hnumber⟩

end Prelude

end QuotedLisp
