import QuotedLisp.Proofs.Eval.Reachable

/-!
# Formals of closures

`fn` checks the variadic marker among the formals of a closure once, when the closure is made, while
every call looks for it anew among the formals that are left. In a session the two agree: whatever
closure is reached has well-formed formals, no call of it finds its marker malformed, and the error
for a malformed marker is raised by calls of `fn` only; see `session_formals`.
-/

namespace QuotedLisp

namespace Closure

/-- Formals as they are well formed: names, of which one, the last but one, may be the variadic
marker, with a name after it that is no marker. If the closure holds arguments already, some
formal is left, and the first is one that takes an argument alone. -/
structure WellFormed (bound : Bindings) (formals : List Name) : Prop where
  once : formals.count variadicMarker ≤ 1
  place : variadicMarker ∈ formals →
    ∃ names rest, formals = names ++ [variadicMarker, rest] ∧ rest ≠ variadicMarker
  waits : bound ≠ [] → Waits formals

/-- What becomes of the formals and of what is bound when arguments are bound to the formals: the
marker is never found malformed, and if formals are left waiting, they are well formed again, the
first of them is no marker, and something is held as soon as an argument was given. -/
structure Accepts (bound : Bindings) (formals : List Name) (args : List Value) : Prop where
  notMalformed : bindArguments bound formals args ≠ .error .malformedVariadic
  waiting : ∀ frame waiting, bindArguments bound formals args = .ok (frame, waiting) →
    waiting ≠ [] → WellFormed frame waiting ∧ Waits waiting ∧ (args ≠ [] → frame ≠ [])

/-- Well-placed formals are well formed, if those of a closure that holds arguments wait. -/
theorem well_formed_of_well_placed {bound : Bindings} {formals : List Name}
    (h : wellPlaced formals = true) (hwaits : bound ≠ [] → Waits formals) :
    WellFormed bound formals := by
  refine ⟨?_, well_placed_eq h, hwaits⟩
  simp only [wellPlaced, Bool.or_eq_true, Bool.and_eq_true, beq_iff_eq] at h
  omega

/-- Well-placed formals accept any arguments. -/
theorem accepts_of_well_placed {formals : List Name} (h : wellPlaced formals = true)
    (bound : Bindings) (args : List Value) : Accepts bound formals args := by
  refine ⟨bindInOrder_not_malformed args h, ?_⟩
  intro frame waiting hbind hwaiting
  have hplaced := bindInOrder_well_placed hbind h
  have hwaits := bindInOrder_waits hbind hwaiting
  exact ⟨well_formed_of_well_placed hplaced fun _ => hwaits, hwaits,
    fun hargs => bindInOrder_ne_nil hbind (.inr hargs)⟩

/-- If a call finds a malformed marker, though not in the formals of the closure that is called,
it is the body of the closure that fails with it. -/
theorem fails_in_body {host : Host} {bound : Bindings} {formals : List Name} {b : Bracket}
    {body args : List Value} {allowance : Nat} {w last : World}
    (haccepts : Accepts bound formals args)
    (h : Moment.Fails host ⟨.call (.closure bound formals b body) args, allowance, w⟩
      .malformedVariadic last) :
    ∃ frame last', bindArguments bound formals args = .ok (frame, []) ∧
      Moment.Fails host ⟨.application b body, allowance, w.push frame⟩
        .malformedVariadic last' := by
  rcases h.passes with ⟨-, hrefuses⟩ | ⟨next, last', hstarts, hnext⟩
  · cases hrefuses with
    | closure _ _ _ _ _ _ _ _ hbind => exact absurd hbind haccepts.notMalformed
  · cases hstarts with
    | body _ _ _ _ _ frame _ _ hbind => exact ⟨frame, last', hbind, hnext⟩

end Closure

/-- During the run a closure should be made with a misplaced variadic marker, and is not. -/
def Moment.Misplaces (host : Host) (m : Moment) : Prop :=
  ∃ args allowance w, During host m ⟨.call (.builtin .lambda) args, allowance, w⟩ ∧
    Closure.make args = .error .malformedVariadic

variable {host : Host}

/-- A run that refuses for a malformed marker at a settled moment is a call of `fn`. -/
theorem Moment.Settled.make_of_refuses {m : Moment} (hm : m.Settled) {last : World}
    (hfails : m.Fails host .malformedVariadic last) (hrefuses : m.Refuses .malformedVariadic) :
    ∃ args, m.request = .call (.builtin .lambda) args ∧
      Closure.make args = .error .malformedVariadic := by
  obtain ⟨hrequest, hscopes⟩ := hm
  cases hrefuses with
  | bound name allowance w _ hbound => cases (hscopes.get? hbound).regular
  | error allowance w => cases hrequest
  | builtin b args allowance w _ hown =>
      obtain rfl : b = .lambda := hown
      exact ⟨args, rfl, (ofExcept_error hfails).2⟩
  | closure bound formals b body args allowance w _ hbind =>
      cases hrequest.1.regular with
      | closure _ _ _ _ _ _ hformals =>
          exact absurd hbind (Closure.accepts_of_well_placed hformals bound args).notMalformed

/-- A run from a settled moment that fails for a malformed marker fails because of `fn`. -/
theorem Moment.Settled.misplaces {m : Moment} (hm : m.Settled) {last : World}
    (hfails : m.Fails host .malformedVariadic last) : m.Misplaces host := by
  obtain ⟨⟨request, allowance, w⟩, hduring, hinner, hrefuses, -⟩ := hfails.refused
  obtain ⟨args, rfl, hmake⟩ := (hduring.settled hm).make_of_refuses hinner hrefuses
  exact ⟨args, allowance, w, hduring, hmake⟩

/-- If the evaluation of a source text fails as it runs, the run that it begins fails. -/
theorem World.begins_of_error {w after : World} {allowance : Nat} {source : String}
    {e : RuntimeError}
    (h : w.evaluate host allowance source = some (.error (.runtime e), after) ∨
      w.load host allowance source = some (.error (.runtime e), after)) :
    ∃ m, w.Begins source m ∧ m.Fails host e after := by
  rcases h with h | h
  · obtain ⟨items, hsource, hfails⟩ := withSource_error_cases h
    exact ⟨_, .evaluate items allowance hsource, hfails⟩
  · obtain ⟨items, hsource, hfails⟩ := withSource_error_cases h
    exact ⟨_, .load items allowance hsource, hfails⟩

/-- In a session every closure that is reached has well-formed formals, at whatever depth it
occurs, and they accept any arguments. A call of it that fails for a malformed marker has its body
fail so. When any run fails so that is made while a source text is evaluated, or the source text
itself, a call of `fn` has found the marker misplaced. -/
theorem session_formals {w : World} (h : Session w) :
    (∀ v, w.Reaches v → ∀ bound formals b body,
      Value.Occurs (.closure bound formals b body) v →
      Closure.WellFormed bound formals ∧ ∀ args, Closure.Accepts bound formals args ∧
        ∀ (host : Host) (allowance : Nat) (caller last : World),
          Moment.Fails host ⟨.call (.closure bound formals b body) args, allowance, caller⟩
            .malformedVariadic last →
          ∃ frame last', Closure.bindArguments bound formals args = .ok (frame, []) ∧
            Moment.Fails host ⟨.application b body, allowance, caller.push frame⟩
              .malformedVariadic last') ∧
    (∀ (host : Host) (source : String) (m inner : Moment) (last : World),
      w.Begins source m → During host m inner → inner.Fails host .malformedVariadic last →
      inner.Misplaces host) ∧
    ∀ (host : Host) (allowance : Nat) (source : String) (after : World),
      w.evaluate host allowance source = some (.error (.runtime .malformedVariadic), after) ∨
        w.load host allowance source = some (.error (.runtime .malformedVariadic), after) →
      ∃ m, w.Begins source m ∧ m.Misplaces host := by
  refine ⟨?_, ?_, ?_⟩
  · intro v hv bound formals b body hoccurs
    cases Value.Regular.of_occurs hoccurs (h.regular_of_reaches hv) with
    | closure _ _ _ _ _ _ hformals hwaits =>
        refine ⟨Closure.well_formed_of_well_placed hformals hwaits, fun args => ?_⟩
        have haccepts := Closure.accepts_of_well_placed hformals bound args
        exact ⟨haccepts, fun _ _ _ _ hfails => Closure.fails_in_body haccepts hfails⟩
  · intro host source m inner last hbegins hduring hfails
    exact (hduring.settled (hbegins.settled h.settled)).misplaces hfails
  · intro host allowance source after herror
    obtain ⟨m, hbegins, hfails⟩ := World.begins_of_error herror
    exact ⟨m, hbegins, (hbegins.settled h.settled).misplaces hfails⟩

/-- The body of a closure that makes a closure with a misplaced marker. -/
def misplacing : List Value :=
  [.identifier "fn", .quoted [.identifier "a", .identifier "&", .identifier "b", .identifier "c"],
    .quoted [.identifier "a"]]

/-- A statement that binds a closure which holds one argument; the marker is still ahead. -/
def bindsVariadic : Value :=
  .list .round [.identifier "def", .quoted [.identifier "k"],
    .list .round [.list .round [.identifier "fn",
      .quoted [.identifier "x", .identifier "y", .identifier "&", .identifier "rest"],
      .quoted misplacing], .number .one]]

/-- The closure that the statement binds. -/
def variadicClosure : Value :=
  .closure [("x", .number .one)] ["y", "&", "rest"] .curly misplacing

/-- The world after the statement. -/
def variadicWorld : World :=
  ⟨⟨[], (Bindings.withBuiltins []).set "k" variadicClosure⟩, ""⟩

/-- A call of the closure. -/
def callsVariadic : Value :=
  .list .round [.identifier "k", .string "y"]

/-- The formals that are left of the closure are well formed. A call of it fails for a malformed
marker, which is the one in its body. -/
theorem session_formals_misplacing :
    Session variadicWorld ∧ variadicWorld.Reaches variadicClosure ∧
      Closure.WellFormed [("x", .number .one)] ["y", "&", "rest"] ∧
      Closure.Accepts [("x", .number .one)] ["y", "&", "rest"] [.string "y"] ∧
      (∃ frame last, Closure.bindArguments [("x", .number .one)] ["y", "&", "rest"] [.string "y"] =
          .ok (frame, []) ∧
        Moment.Fails ⟨none, none⟩ ⟨.application .curly misplacing, 3, variadicWorld.push frame⟩
          .malformedVariadic last) ∧
      ∃ m, variadicWorld.Begins callsVariadic.display m ∧ m.Misplaces ⟨none, none⟩ := by
  have hbinds : bindsVariadic.Printable := by decide
  have hcalls : callsVariadic.Printable := by decide
  have hload : World.load ⟨⟨[], Bindings.withBuiltins []⟩, ""⟩ ⟨none, none⟩ 4
      bindsVariadic.display = some (.ok .unit, variadicWorld) := by
    rw [World.load, World.withSource_of_read _ hbinds.of_source_display]
    rfl
  have hevaluate : variadicWorld.evaluate ⟨none, none⟩ 4 callsVariadic.display =
      some (.error (.runtime .malformedVariadic), variadicWorld) := by
    rw [World.evaluate, World.withSource_of_read _ hcalls.of_source_display]
    rfl
  have hsession := Session.load _ _ _ _ _ _ .start hload
  have hmem : ("k", variadicClosure) ∈ variadicWorld.scopes.root :=
    Bindings.mem_of_get?_eq_some (Bindings.get?_set _ "k" "k" variadicClosure)
  have hreaches : variadicWorld.Reaches variadicClosure := .shown (.bound "k" hmem)
  obtain ⟨hclosures, -, herrors⟩ := session_formals hsession
  obtain ⟨hformals, hcall⟩ := hclosures variadicClosure hreaches _ _ _ _ .self
  obtain ⟨haccepts, hbody⟩ := hcall [.string "y"]
  exact ⟨hsession, hreaches, hformals, haccepts,
    hbody ⟨none, none⟩ 3 variadicWorld variadicWorld rfl,
    herrors ⟨none, none⟩ 4 callsVariadic.display variadicWorld (.inl hevaluate)⟩

end QuotedLisp
