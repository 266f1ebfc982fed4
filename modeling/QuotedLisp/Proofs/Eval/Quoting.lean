import QuotedLisp.Eval.Session
import QuotedLisp.Proofs.Eval.Allowance
import QuotedLisp.Proofs.Value.RoundTrip

/-!
# Quoted sources

A source text between curly brackets is a quoted list of its items, which evaluates to itself, and
the builtin `eval` undoes the quotation, `eval_quoted_source`. The closing bracket goes on a line of
its own, for the source may end in a comment. A source without items is left out: quoted it is an
empty curly list, and unquoted an empty round one.
-/

namespace QuotedLisp

namespace Value

variable {source : String} {items : List Value}

/-- A source text in curly brackets is written for the quoted list of its items. -/
theorem written_quoted (h : ofSource source = .ok items) :
    Written (Bracket.curly.around (source.toList ++ ['\n'])) [.quoted items] :=
  (written_source h).around .curly

/-- A source text in curly brackets is read as the quoted list of its items. -/
theorem of_source_quoted (h : ofSource source = .ok items) :
    ofSource ("\x7b" ++ source ++ "\n\x7d") = .ok [.quoted items] := by
  have htext : "\x7b" ++ source ++ "\n\x7d" =
      String.ofList (Bracket.curly.around (source.toList ++ ['\n'])) := by
    rw [← String.toList_inj]
    simp [Bracket.around, Bracket.openGlyph, Bracket.closeGlyph]
  rw [htext]
  exact (written_quoted h).of_source

/-- The evaluation of a source text in curly brackets is read as a call. -/
theorem of_source_eval_quoted (h : ofSource source = .ok items) :
    ofSource ("(eval \x7b" ++ source ++ "\n\x7d)") =
      .ok [.list .round [.identifier "eval", .quoted items]] := by
  have hname : Printable (.identifier "eval") := by decide
  have hwritten := (hname.written.space (written_quoted h)).around .round
  have htext : "(eval \x7b" ++ source ++ "\n\x7d)" = String.ofList (Bracket.round.around
      ("eval".toList ++ ' ' :: Bracket.curly.around (source.toList ++ ['\n']))) := by
    rw [← String.toList_inj]
    simp [Bracket.around, Bracket.openGlyph, Bracket.closeGlyph]
  rw [htext]
  exact hwritten.of_source

end Value

/-- Where the name stands for the builtin function, the evaluation of a quoted list is the run of
the list. -/
theorem World.perform_eval_quoted {w : World}
    (hname : w.scopes.get? Builtin.eval.name = some (.builtin .eval)) (host : Host)
    (allowance : Nat) {items : List Value} (hitems : items ≠ []) :
    w.perform (run host (allowance + 1) .round [.identifier Builtin.eval.name, .quoted items]) =
      w.perform (run host allowance .round items) := by
  rw [perform_builtin hname fun _ => rfl, run_bracket host allowance .round .curly hitems]
  rfl

/-- A source text with items has the same outcomes as the evaluation of its quotation, if the name
`eval` stands for the builtin function: the same result or error, the same bindings in all scopes
and the same printed text. The quotation of any source text that can be read has the quoted list of
its items as its result, wherever it is evaluated, and nothing else happens. -/
theorem eval_quoted_source {source : String} {items : List Value}
    (h : Value.ofSource source = .ok items) (w : World) (host : Host) :
    (items ≠ [] → w.scopes.get? Builtin.eval.name = some (.builtin .eval) →
      ∀ outcome, w.Evaluates host ("(eval \x7b" ++ source ++ "\n\x7d)") outcome ↔
        w.Evaluates host source outcome) ∧
    ∀ allowance, w.evaluate host (allowance + 1) ("\x7b" ++ source ++ "\n\x7d") =
      some (.ok (.quoted items), w) := by
  constructor
  · intro hitems hname outcome
    rw [World.evaluates_singleton_iff (Value.of_source_eval_quoted h), World.evaluates_iff h]
    exact World.answers_succ rfl fun allowance => w.perform_eval_quoted hname host allowance hitems
  · intro allowance
    rw [World.evaluate, w.withSource_of_read (Value.of_source_quoted h), run_singleton]
    rfl

/-- A call with brackets in its strings and in the comment that it ends in. -/
def bracketed : String :=
  "join \"\x7b\" \")\" ; ("

/-- The items of the call. -/
def bracketedItems : List Value :=
  [.identifier "join", .string "\x7b", .string ")"]

/-- None of these brackets is one of those around the call. -/
theorem eval_quoted_source_bracketed :
    Value.ofSource bracketed = .ok bracketedItems ∧ bracketedItems ≠ [] ∧
      World.bare.scopes.get? Builtin.eval.name = some (.builtin .eval) ∧
      World.bare.Evaluates ⟨none, none⟩ ("(eval \x7b" ++ bracketed ++ "\n\x7d)")
        (.ok (.string "\x7b)"), World.bare) ∧
      World.bare.evaluate ⟨none, none⟩ 1 ("\x7b" ++ bracketed ++ "\n\x7d") =
        some (.ok (.quoted bracketedItems), World.bare) := by
  have htokens : tokenize bracketed =
      .ok [⟨.identifier, "join"⟩, ⟨.string, "\"\x7b\""⟩, ⟨.string, "\")\""⟩] := by
    decide +kernel
  have hread : Value.ofSource bracketed = .ok bracketedItems := by
    refine Value.of_source_eq_ok.mpr ⟨_, htokens, .identifier _ _ _ rfl ?_⟩
    exact .string _ ['\x7b'] _ _ rfl (by decide) (.string _ [')'] _ _ rfl (by decide) .nil)
  have hitems : bracketedItems ≠ [] := List.cons_ne_nil _ _
  have hname : World.bare.scopes.get? Builtin.eval.name = some (.builtin .eval) := rfl
  obtain ⟨hsame, hquoted⟩ := eval_quoted_source hread World.bare ⟨none, none⟩
  refine ⟨hread, hitems, hname, (hsame hitems hname _).mpr ?_, hquoted 0⟩
  exact (World.evaluates_iff hread).mpr ⟨1, .ok (.string "\x7b)"), rfl, rfl⟩

end QuotedLisp
