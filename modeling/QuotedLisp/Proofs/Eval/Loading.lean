import QuotedLisp.Eval.Session
import QuotedLisp.Proofs.Eval.Perform
import QuotedLisp.Proofs.Value.Grammar

/-!
# Loading sources

To load a source is to evaluate its statements in order. A source may be cut at the end of a line
into two that are loaded one after the other, `load_concatenation`: the end of a line ends every
lexeme but white space, complete items go together, and statements stop at the first that fails.
-/

namespace QuotedLisp

/-- Loads one source after another, the second if the first has succeeded. -/
def World.loadInTurn (w : World) (host : Host) (allowance : Nat) (first second : String) :
    Option (Except Error Value × World) :=
  match w.load host allowance first with
  | some (.ok _, after) => after.load host allowance second
  | outcome => outcome

/-- Two sources, the second on a line of its own, have the tokens of both, whatever the first ends
and the second begins with; and if both can be read, to load them together is to load one after the
other: the result is the same, with all bindings and the printed text. -/
theorem load_concatenation (first second : String) :
    (∀ tokens, tokenize first = .ok tokens →
      tokenize (first ++ "\n" ++ second) = (tokenize second).map (tokens ++ ·)) ∧
    ∀ items others, Value.ofSource first = .ok items → Value.ofSource second = .ok others →
      ∀ (w : World) (host : Host) (allowance : Nat),
        w.load host allowance (first ++ "\n" ++ second) =
          w.loadInTurn host allowance first second := by
  refine ⟨fun tokens h => tokenize_append_newline h second, ?_⟩
  intro items others hfirst hsecond w host allowance
  unfold World.loadInTurn World.load
  rw [w.withSource_of_read (Value.of_source_append hfirst hsecond), evalStatements_append,
    w.withSource_of_read hfirst, World.perform_bind]
  cases w.perform (evalStatements (run host allowance) items) with
  | none => rfl
  | some outcome =>
      obtain ⟨result, after⟩ := outcome
      cases result with
      | error e => rfl
      | ok v => exact (after.withSource_of_read hsecond _).symm

/-- A binding, and a comment that nothing ends. -/
def commented : String :=
  "(def {x} 1) ; x is one"

/-- The comment does not reach the next line, where the binding is there. -/
theorem load_concatenation_commented :
    ∃ tokens items, tokenize commented = .ok tokens ∧ Value.ofSource commented = .ok items ∧
      Value.ofSource "x" = .ok [.identifier "x"] ∧
      tokenize (commented ++ "\n" ++ "x") = (tokenize "x").map (tokens ++ ·) ∧
      World.bare.load ⟨none, none⟩ 2 (commented ++ "\n" ++ "x") =
        some (.ok .unit, { World.bare with scopes := World.bare.scopes.define "x" (.number .one) })
      := by
  have htokens : tokenize commented = .ok
      [⟨.opening, "("⟩, ⟨.identifier, "def"⟩, ⟨.opening, "\x7b"⟩, ⟨.identifier, "x"⟩,
        ⟨.closing, "\x7d"⟩, ⟨.number, "1"⟩, ⟨.closing, ")"⟩] := by decide +kernel
  have hx : tokenize "x" = .ok [⟨.identifier, "x"⟩] := by decide +kernel
  have hitems : Value.ofSource commented =
      .ok [.list .round [.identifier "def", .quoted [.identifier "x"], .number .one]] := by
    refine Value.of_source_eq_ok.mpr ⟨_, htokens, ?_⟩
    have hnumber : Value.Spells [⟨.number, "1"⟩] [.number .one] :=
      .number _ .one [] [] rfl (by decide +kernel) rfl .nil
    have hnames : Value.Spells [⟨.identifier, "x"⟩] [.identifier "x"] := .identifier _ [] [] rfl .nil
    exact .list _ _ .round _ [] _ [] rfl rfl rfl rfl
      (.identifier _ _ _ rfl (.list _ _ .curly _ _ _ _ rfl rfl rfl rfl hnames hnumber)) .nil
  have hname : Value.ofSource "x" = .ok [.identifier "x"] :=
    Value.of_source_eq_ok.mpr ⟨_, hx, .identifier _ [] [] rfl .nil⟩
  obtain ⟨hcut, hload⟩ := load_concatenation commented "x"
  refine ⟨_, _, htokens, hitems, hname, hcut _ htokens, ?_⟩
  rw [hload _ _ hitems hname, World.loadInTurn, World.load, World.withSource_of_read _ hitems]
  exact World.withSource_of_read _ hname _

end QuotedLisp
