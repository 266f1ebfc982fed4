import QuotedLisp.Eval.Session
import QuotedLisp.Proofs.Eval.Allowance
import QuotedLisp.Proofs.Value.RoundTrip

/-!
# Statements on lines of their own

A session takes one statement at a time and evaluates it as an application; a source file is loaded
as a whole, as a sequence of statements. For statements on lines of their own both come to the same,
`load_line_by_line`: a line of a single statement is an application of that alone, which stands for
itself, and no lexeme goes on past the end of a line.
-/

namespace QuotedLisp

namespace World

/-- Each line in turn is evaluated as one application, in the world that those before it have left,
and none of them fails. -/
def Enters (host : Host) : World → List String → World → Prop
  | w, [], after => after = w
  | w, line :: rest, after =>
    ∃ v middle, w.Evaluates host line (.ok v, middle) ∧ middle.Enters host rest after

end World

/-- A line of one statement goes before the items of the lines after it. -/
theorem Value.of_source_line {line : String} {rest : List String} {v : Value} {items : List Value}
    (hline : Value.ofSource line = .ok [v])
    (hrest : Value.ofSource ("\n".intercalate rest) = .ok items) :
    Value.ofSource ("\n".intercalate (line :: rest)) = .ok (v :: items) := by
  cases rest with
  | nil =>
      obtain rfl : [] = items := Except.ok.inj (of_source_nil.symm.trans hrest)
      rw [String.intercalate_singleton]
      exact hline
  | cons next rest =>
      rw [String.intercalate_cons_cons]
      exact Value.of_source_append hline hrest

/-- Lines of one statement each can be read together. -/
theorem Value.of_source_lines {lines : List String}
    (h : ∀ line ∈ lines, ∃ v, Value.ofSource line = .ok [v]) :
    ∃ items, Value.ofSource ("\n".intercalate lines) = .ok items := by
  induction lines with
  | nil => exact ⟨[], of_source_nil⟩
  | cons line rest ih =>
      obtain ⟨⟨v, hline⟩, hrest⟩ := List.forall_mem_cons.mp h
      obtain ⟨items, hitems⟩ := ih hrest
      exact ⟨v :: items, Value.of_source_line hline hitems⟩

variable {host : Host} {w after : World}

/-- No lines are loaded without an effect. -/
theorem loads_no_lines {result : Except Error Value} :
    w.Loads host ("\n".intercalate []) (result, after) ↔ result = .ok .unit ∧ after = w := by
  rw [String.intercalate_nil, World.loads_iff Value.of_source_nil]
  constructor
  · intro h
    obtain ⟨allowance, inner, hinner, hresult⟩ := h
    cases hinner
    exact ⟨hresult.symm, rfl⟩
  · intro h
    obtain ⟨rfl, rfl⟩ := h
    exact ⟨0, .ok .unit, rfl, rfl⟩

/-- To load lines is to evaluate the first as an application and, unless that fails, to load the
others. -/
theorem loads_line {line : String} {rest : List String}
    (hline : ∃ v, Value.ofSource line = .ok [v])
    (hrest : ∀ line ∈ rest, ∃ v, Value.ofSource line = .ok [v]) {result : Except Error Value} :
    w.Loads host ("\n".intercalate (line :: rest)) (result, after) ↔
      (∃ e, w.Evaluates host line (.error e, after) ∧ result = .error e) ∨
        ∃ v middle, w.Evaluates host line (.ok v, middle) ∧
          middle.Loads host ("\n".intercalate rest) (result, after) := by
  obtain ⟨v, hline⟩ := hline
  obtain ⟨items, hrest⟩ := Value.of_source_lines hrest
  rw [World.loads_iff (Value.of_source_line hline hrest)]
  simp only [World.evaluates_singleton_iff hline, World.loads_iff hrest]
  exact World.answers_bind (evalValue_stable host v) fun _ => evalStatements_stable host items

/-- Lines that are loaded have a result exactly if each of them has one when they are entered in
turn. -/
theorem loads_ok_iff {lines : List String}
    (h : ∀ line ∈ lines, ∃ v, Value.ofSource line = .ok [v]) {v : Value} :
    w.Loads host ("\n".intercalate lines) (.ok v, after) ↔
      v = .unit ∧ w.Enters host lines after := by
  induction lines generalizing w with
  | nil =>
      rw [loads_no_lines, Except.ok.injEq]
      rfl
  | cons line rest ih =>
      obtain ⟨hline, hrest⟩ := List.forall_mem_cons.mp h
      rw [loads_line hline hrest]
      constructor
      · intro hloads
        rcases hloads with ⟨e, -, heq⟩ | ⟨u, middle, hfirst, hloads⟩
        · cases heq
        · obtain ⟨hv, henters⟩ := (ih hrest).mp hloads
          exact ⟨hv, u, middle, hfirst, henters⟩
      · intro henters
        obtain ⟨hv, u, middle, hfirst, henters⟩ := henters
        exact .inr ⟨u, middle, hfirst, (ih hrest).mpr ⟨hv, henters⟩⟩

/-- Lines that are loaded fail exactly where one of them does when they are entered in turn. -/
theorem loads_error_iff {lines : List String}
    (h : ∀ line ∈ lines, ∃ v, Value.ofSource line = .ok [v]) {e : Error} :
    w.Loads host ("\n".intercalate lines) (.error e, after) ↔
      ∃ earlier line later middle, lines = earlier ++ line :: later ∧
        w.Enters host earlier middle ∧ middle.Evaluates host line (.error e, after) := by
  induction lines generalizing w with
  | nil =>
      rw [loads_no_lines]
      constructor
      · intro hloads
        cases hloads.1
      · intro hfails
        obtain ⟨earlier, line, later, middle, hlines, -, -⟩ := hfails
        cases List.append_ne_nil_of_right_ne_nil earlier (List.cons_ne_nil line later) hlines.symm
  | cons first rest ih =>
      obtain ⟨hfirst, hrest⟩ := List.forall_mem_cons.mp h
      rw [loads_line hfirst hrest]
      constructor
      · intro hloads
        rcases hloads with ⟨e, hfails, heq⟩ | ⟨u, next, hgoes, hloads⟩
        · cases heq
          exact ⟨[], first, rest, w, rfl, rfl, hfails⟩
        · obtain ⟨earlier, line, later, middle, rfl, henters, hfails⟩ := (ih hrest).mp hloads
          exact ⟨first :: earlier, line, later, middle, rfl, ⟨u, next, hgoes, henters⟩, hfails⟩
      · intro hfails
        obtain ⟨earlier, line, later, middle, hlines, henters, hfails⟩ := hfails
        cases earlier with
        | nil =>
            cases hlines
            obtain rfl : middle = w := henters
            exact .inl ⟨e, hfails, rfl⟩
        | cons _ earlier =>
            cases hlines
            obtain ⟨u, next, hgoes, henters⟩ := henters
            exact .inr ⟨u, next, hgoes,
              (ih hrest).mpr ⟨earlier, line, later, middle, rfl, henters, hfails⟩⟩

/-- Statements on lines of their own come to the same whether they are loaded together or entered
one by one. The load has a result exactly if every line has one, and the result is the empty list;
it fails exactly if some line fails after those before it have been entered, with the error of that
line; and each time it leaves the bindings of all scopes and the printed text as the lines that were
entered have left them. -/
theorem load_line_by_line {lines : List String}
    (h : ∀ line ∈ lines, ∃ v, Value.ofSource line = .ok [v]) (host : Host) (w : World) :
    (∀ v after, w.Loads host ("\n".intercalate lines) (.ok v, after) ↔
      v = .unit ∧ w.Enters host lines after) ∧
    ∀ e after, w.Loads host ("\n".intercalate lines) (.error e, after) ↔
      ∃ earlier line later middle, lines = earlier ++ line :: later ∧
        w.Enters host earlier middle ∧ middle.Evaluates host line (.error e, after) :=
  ⟨fun _ _ => loads_ok_iff h, fun _ _ => loads_error_iff h⟩

/-- A statement that binds a number. -/
def bindsOne : Value :=
  .list .round [.identifier "def", .quoted [.identifier "x"], .number .one]

/-- A statement that fails with the message that the name stands for. -/
def stops : Value :=
  .list .round [.identifier "error", .list .round [.identifier "join", .string "stop"]]

/-- The two statements, a name alone before the one that fails, and the same after it. -/
def stoppingLines : List String :=
  [bindsOne, .identifier "x", stops, .identifier "x"].map Value.display

/-- The world in which the number is bound. -/
def boundOne : World :=
  { World.bare with scopes := World.bare.scopes.define "x" (.number .one) }

/-- The lines that are loaded fail as the third does when they are entered, after the first has
bound its name and the second has stood for its value. -/
theorem load_line_by_line_stopping :
    (∀ line ∈ stoppingLines, ∃ v, Value.ofSource line = .ok [v]) ∧
      World.bare.Loads ⟨none, none⟩ ("\n".intercalate stoppingLines)
        (.error (.runtime (.user "stop")), boundOne) := by
  have hbinds := Value.Printable.of_source_display (v := bindsOne) (by decide)
  have hname := Value.Printable.of_source_display (v := .identifier "x") (by decide)
  have hstops := Value.Printable.of_source_display (v := stops) (by decide)
  have hlines : ∀ line ∈ stoppingLines, ∃ v, Value.ofSource line = .ok [v] := by
    refine List.forall_mem_cons.mpr ⟨⟨_, hbinds⟩, List.forall_mem_cons.mpr ⟨⟨_, hname⟩, ?_⟩⟩
    exact List.forall_mem_cons.mpr ⟨⟨_, hstops⟩, List.forall_mem_singleton.mpr ⟨_, hname⟩⟩
  have hfirst : World.bare.Enters ⟨none, none⟩
      [bindsOne.display, (Value.identifier "x").display] boundOne := by
    refine ⟨.unit, boundOne, ?_, .number .one, boundOne, ?_, rfl⟩
    · exact (World.evaluates_singleton_iff hbinds).mpr ⟨1, .ok .unit, rfl, rfl⟩
    · exact (World.evaluates_singleton_iff hname).mpr ⟨0, .ok (.number .one), rfl, rfl⟩
  refine ⟨hlines, ((load_line_by_line hlines ⟨none, none⟩ World.bare).2 _ _).mpr ?_⟩
  refine ⟨_, stops.display, [(Value.identifier "x").display], _, rfl, hfirst, ?_⟩
  exact (World.evaluates_singleton_iff hstops).mpr ⟨2, .error (.user "stop"), rfl, rfl⟩

end QuotedLisp
