import QuotedLisp.Proofs.Eval.Reachable
import QuotedLisp.Proofs.Scope.Workspace

/-!
# Results can be pasted back

The display form of a result without functions is source text that has the same result, wherever it
is evaluated, and nothing else happens when it is; see `session_reads_back`. The text is read as the
value that was displayed, and this evaluates to itself.
-/

namespace QuotedLisp

/-- The value is the result of its display form, wherever that is evaluated, in a world or in a
scope of a workspace, and nothing else happens. Two nested applications are enough for it. -/
structure Value.ReadsBack (v : Value) : Prop where
  inWorld : ∀ (w : World) (host : Host) (allowance : Nat),
    w.evaluate host (allowance + 2) v.display = some (.ok v, w)
  inScope : ∀ (w : Workspace) (id : ScopeId) (fault : Option String) (allowance : Nat),
    w.perform id fault (fun host world => world.evaluate host (allowance + 2) v.display) =
      some ⟨.ok v, "", w⟩

/-- An application of a single value that evaluates to itself has the value as its result. -/
theorem Value.EvaluatesToItself.perform_run {v : Value} (h : v.EvaluatesToItself) (w : World)
    (host : Host) (allowance : Nat) (b : Bracket) :
    w.perform (run host (allowance + 2) b [v]) = some (.ok v, w) := by
  rw [run_singleton]
  exact h w host allowance

/-- A result that can be written down can be read back. -/
theorem Value.Printable.reads_back {v : Value} (h : v.Printable) (hresult : v.isResult = true) :
    v.ReadsBack := by
  have hworld (w : World) (host : Host) (allowance : Nat) :
      w.evaluate host (allowance + 2) v.display = some (.ok v, w) := by
    have hrun := (Value.evaluates_to_itself hresult).perform_run w host allowance .round
    rw [World.evaluate, World.withSource_of_read w h.of_source_display, hrun]
    rfl
  refine ⟨hworld, ?_⟩
  intro w id fault allowance
  simp only [Workspace.perform, hworld, Option.map_some, Workspace.withScopes_scopesOf]

/-- In a session every result without functions in it reads back, and so does every such value that
is bound in the root. Whatever value is reached, the numbers in it are finite, and the names in it
are cut from source text as single identifiers. -/
theorem session_reads_back {w : World} (h : Session w) :
    (∀ v, w.Shows v → v.FunctionFree → v.ReadsBack) ∧
      ∀ v, w.Reaches v →
        (∀ x, Value.Occurs (.number x) v → x.isFinite = true) ∧
        ∀ name, Value.Occurs (.identifier name) v →
          tokenize name = .ok [⟨.identifier, name⟩] := by
  constructor
  · intro v hv hfree
    have hsettled := h.settled_of_shows hv
    exact (hsettled.regular.printable hfree).reads_back hsettled.result
  · intro v hv
    have hregular := h.regular_of_reaches hv
    constructor
    · intro x hoccurs
      cases Value.Regular.of_occurs hoccurs hregular with
      | number _ hfinite => exact hfinite
    · intro name hoccurs
      cases Value.Regular.of_occurs hoccurs hregular with
      | identifier _ hname => exact hname

/-- A statement that binds a number. -/
def bindsNumber : Value :=
  .list .round [.identifier "def", .quoted [.identifier "x"], .number .one]

/-- The world after the statement. -/
def numbered : World :=
  ⟨⟨[], (Bindings.withBuiltins []).set "x" (.number .one)⟩, ""⟩

/-- An application that has a list of values of several kinds as its result. -/
def listsValues : Value :=
  .list .round [.identifier "list", .list .round [.identifier "-", .identifier "x"],
    .string "a\"b", .quoted [.unit, .identifier "-x"]]

/-- The result of the application. -/
def listedValues : Value :=
  .quoted [.number Binary64.one.neg, .string "a\"b", .quoted [.unit, .identifier "-x"]]

/-- A list of a negative number, a string with a quote in it, the empty list and a name that begins
with a sign reads back, also in a frame of a workspace in which one of the names is bound. -/
theorem session_reads_back_listed :
    Session numbered ∧ numbered.Shows listedValues ∧ listedValues.FunctionFree ∧
      Binary64.one.neg.isFinite = true ∧ tokenize "-x" = .ok [⟨.identifier, "-x"⟩] ∧
      Workspace.nested.perform 1 none (fun host world =>
        world.evaluate host 2 listedValues.display) =
          some ⟨.ok listedValues, "", Workspace.nested⟩ := by
  have hbinds : bindsNumber.Printable := by decide
  have hlists : listsValues.Printable := by decide
  have hlisted : listedValues.Printable := by decide
  have hload : World.load ⟨⟨[], Bindings.withBuiltins []⟩, ""⟩ ⟨none, none⟩ 4
      bindsNumber.display = some (.ok .unit, numbered) := by
    rw [World.load, World.withSource_of_read _ hbinds.of_source_display]
    rfl
  have hevaluate : numbered.evaluate ⟨none, none⟩ 4 listsValues.display =
      some (.ok listedValues, numbered) := by
    rw [World.evaluate, World.withSource_of_read _ hlists.of_source_display]
    rfl
  have hsession := Session.load _ _ _ _ _ _ .start hload
  have hshows : numbered.Shows listedValues := .answer _ _ _ _ (.inl hevaluate)
  have hname : Value.Occurs (.identifier "-x") listedValues :=
    .item .curly _ (.quoted [.unit, .identifier "-x"]) (by simp) (.item .curly _ _ (by simp) .self)
  obtain ⟨hreads, hparts⟩ := session_reads_back hsession
  obtain ⟨hfinite, hnames⟩ := hparts listedValues (.shown hshows)
  have hback := hreads listedValues hshows hlisted.functionFree
  exact ⟨hsession, hshows, hlisted.functionFree,
    hfinite _ (.item .curly _ _ List.mem_cons_self .self), hnames "-x" hname,
    hback.inScope Workspace.nested 1 none 0⟩

end QuotedLisp
