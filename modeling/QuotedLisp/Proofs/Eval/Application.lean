import QuotedLisp.Eval.Session
import QuotedLisp.Proofs.Eval.Closure
import QuotedLisp.Proofs.Eval.Perform

/-!
# Applying closures

What the call of a closure comes to, by the number of arguments. With fewer arguments than it has
names it only waits for the others, `World.perform_call_few`; whether arguments come in one call or
in two makes no difference, `call_curried`; and `perform_call_by_count` goes through all the numbers
of arguments that there can be.
-/

namespace QuotedLisp

open Closure

/-- The call of a closure with fewer arguments than it has names is the closure that holds them
and waits for the others. -/
theorem World.perform_call_few (w : World) (host : Host) (run : Runner) {names : List Name}
    {args : List Value} (hnames : variadicMarker ∉ names) (hlength : args.length < names.length)
    (rest : Option Name) (bound : Bindings) (b : Bracket) (body : List Value) :
    w.perform (call host run (.closure bound (formalsOf names rest) b body) args) =
      some (.ok (.closure (bound.setAll (names.zip args))
        (formalsOf (names.drop args.length) rest) b body), w) := by
  obtain ⟨name, later, hwaiting, -⟩ := @formalsOf_drop _ rest hnames _ hlength
  rw [perform_call_closure, bindArguments_few hnames hlength, hwaiting]

/-- A closure that is called with fewer arguments than it has names is a closure that waits for the
others, and nothing has changed. To call that one with the others is to call the first one with all
of them: the result or the error is the same, and the world afterwards; and if some are wanting
still, it is the same closure in either way, which holds all that were given. -/
theorem call_curried (host : Host) (run : Runner) (w : World) (bound : Bindings)
    (names : List Name) (rest : Option Name) (b : Bracket) (body first second : List Value)
    (hnames : variadicMarker ∉ names) (hfirst : first.length < names.length)
    (hcount : rest = none → first.length + second.length ≤ names.length) :
    ∃ held : Bindings,
      w.perform (call host run (.closure bound (formalsOf names rest) b body) first) =
        some (.ok (.closure held (formalsOf (names.drop first.length) rest) b body), w) ∧
      w.perform (call host run
          (.closure held (formalsOf (names.drop first.length) rest) b body) second) =
        w.perform (call host run (.closure bound (formalsOf names rest) b body)
          (first ++ second)) ∧
      (first.length + second.length < names.length →
        w.perform (call host run (.closure bound (formalsOf names rest) b body)
            (first ++ second)) =
          some (.ok (.closure (bound.setAll (names.zip (first ++ second)))
            (formalsOf (names.drop (first.length + second.length)) rest) b body), w)) := by
  refine ⟨bound.setAll (names.zip first),
    w.perform_call_few host run hnames hfirst rest bound b body, ?_, fun hlength => ?_⟩
  · rw [World.perform_call_closure, World.perform_call_closure,
      bindArguments_append hnames (Nat.le_of_lt hfirst) hcount]
  · rw [← List.length_append] at hlength ⊢
    exact w.perform_call_few host run hnames hlength rest bound b body

/-- A closure of a repeated name, another name and the rest, which holds a value for the repeated
name already and lists what it is given. -/
def listing : Value :=
  .closure [("x", .string "held")] ["x", "x", "y", "&", "more"] .curly
    [.identifier "list", .identifier "x", .identifier "y", .identifier "more"]

/-- The closure takes one argument alone and four others later, as it takes all five at once. -/
theorem call_curried_listing :
    ∃ held,
      World.bare.perform (call ⟨none, none⟩ (run ⟨none, none⟩ 1) listing [.string "a"]) =
        some (.ok held, World.bare) ∧
      World.bare.perform (call ⟨none, none⟩ (run ⟨none, none⟩ 1) held
          [.string "b", .string "c", .string "d", .string "e"]) =
        some (.ok (.quoted [.string "b", .string "c", .quoted [.string "d", .string "e"]]),
          World.bare) := by
  obtain ⟨held, hfirst, hsecond, -⟩ := call_curried ⟨none, none⟩ (run ⟨none, none⟩ 1) .bare
    [("x", .string "held")] ["x", "x", "y"] (some "more") .curly
    [.identifier "list", .identifier "x", .identifier "y", .identifier "more"]
    [.string "a"] [.string "b", .string "c", .string "d", .string "e"]
    (by decide) (by decide) (by decide)
  exact ⟨_, hfirst, hsecond.trans rfl⟩

/-- What the call of a closure comes to. With fewer arguments than names it is a closure of the same
body that holds them and waits for the others, and nothing has changed. With an argument for each
name, and more only if there is a name for the rest, the body is run in a frame of its own on top of
the scopes of the caller; there the names are bound in order over what the closure held, and after
them the name for the rest to the list of the arguments that are left. With too many arguments, or if
what should be the name for the rest is another marker, the call fails and the body is not run. Of
several bindings of one name the last counts. -/
theorem World.perform_call_by_count (w : World) (host : Host) (run : Runner) (bound : Bindings)
    {names : List Name} (hnames : variadicMarker ∉ names) (rest : Option Name) (b : Bracket)
    (body args : List Value) :
    (args.length < names.length →
      w.perform (call host run (.closure bound (formalsOf names rest) b body) args) =
        some (.ok (.closure (bound.setAll (names.zip args))
          (formalsOf (names.drop args.length) rest) b body), w)) ∧
    (rest = none → args.length = names.length →
      w.perform (call host run (.closure bound (formalsOf names rest) b body) args) =
        w.perform (Evaluation.inFrame (bound.setAll (names.zip args)) (run b body))) ∧
    (∀ name, rest = some name → name ≠ variadicMarker → names.length ≤ args.length →
      w.perform (call host run (.closure bound (formalsOf names rest) b body) args) =
        w.perform (Evaluation.inFrame
          ((bound.setAll (names.zip args)).set name (.quoted (args.drop names.length)))
          (run b body))) ∧
    (rest = none → names.length < args.length →
      w.perform (call host run (.closure bound (formalsOf names rest) b body) args) =
        some (.error (.tooManyArguments names.length args.length), w)) ∧
    (rest = some variadicMarker → names.length ≤ args.length →
      w.perform (call host run (.closure bound (formalsOf names rest) b body) args) =
        some (.error .malformedVariadic, w)) ∧
    ∀ name, (bound.setAll (names.zip args)).get? name =
      ((names.zip args).reverse.lookup name).or (bound.get? name) := by
  refine ⟨?_, ?_, ?_, ?_, ?_, fun name => Bindings.get?_setAll bound _ name⟩
  · intro hfew
    exact w.perform_call_few host run hnames hfew rest bound b body
  · intro hrest hlength
    subst hrest
    rw [perform_call_closure, bindArguments_exact hnames hlength]
  · intro name hrest hname hlength
    subst hrest
    rw [perform_call_closure, bindArguments_rest hnames hlength, if_neg hname]
  · intro hrest hlength
    subst hrest
    rw [perform_call_closure, bindArguments_many hnames hlength]
  · intro hrest hlength
    subst hrest
    rw [perform_call_closure, bindArguments_rest hnames hlength, if_pos rfl]

/-- With two arguments the closure waits for the last name and holds the second of them for the
repeated one, with three it lists no rest, and without a name for the rest four are too many. -/
theorem perform_call_by_count_listing :
    variadicMarker ∉ ["x", "x", "y"] ∧
      World.bare.perform (call ⟨none, none⟩ (run ⟨none, none⟩ 1) listing
          [.string "a", .string "b"]) =
        some (.ok (.closure [("x", .string "b")] ["y", "&", "more"] .curly
          [.identifier "list", .identifier "x", .identifier "y", .identifier "more"]),
          World.bare) ∧
      World.bare.perform (call ⟨none, none⟩ (run ⟨none, none⟩ 1) listing
          [.string "a", .string "b", .string "c"]) =
        some (.ok (.quoted [.string "b", .string "c", .quoted []]), World.bare) ∧
      World.bare.perform (call ⟨none, none⟩ (run ⟨none, none⟩ 1)
          (.closure [("x", .string "held")] ["x", "x", "y"] .curly [.identifier "y"])
          [.string "a", .string "b", .string "c", .string "d"]) =
        some (.error (.tooManyArguments 3 4), World.bare) := by
  have hnames : variadicMarker ∉ ["x", "x", "y"] := by decide
  have hlisting := World.perform_call_by_count World.bare ⟨none, none⟩ (run ⟨none, none⟩ 1)
    [("x", .string "held")] hnames (some "more") .curly
    [.identifier "list", .identifier "x", .identifier "y", .identifier "more"]
  obtain ⟨hwaits, -⟩ := hlisting [.string "a", .string "b"]
  obtain ⟨-, -, hruns, -⟩ := hlisting [.string "a", .string "b", .string "c"]
  obtain ⟨-, -, -, hfails, -⟩ := World.perform_call_by_count World.bare ⟨none, none⟩
    (run ⟨none, none⟩ 1) [("x", .string "held")] hnames none .curly [.identifier "y"]
    [.string "a", .string "b", .string "c", .string "d"]
  exact ⟨hnames, hwaits (by decide), (hruns "more" rfl (by decide) (by decide)).trans rfl,
    hfails rfl (by decide)⟩

end QuotedLisp
