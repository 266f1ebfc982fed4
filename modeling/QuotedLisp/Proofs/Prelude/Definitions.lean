import QuotedLisp.Eval.Session
import QuotedLisp.Prelude
import QuotedLisp.Proofs.Eval.Answers
import QuotedLisp.Proofs.Eval.BigStep
import QuotedLisp.Proofs.Scope.Entries

/-!
# What the prelude defines

The statements that the source of the prelude is read as, `of_source_prelude`, and what they bind:
`entries`, most of them functions that the form `fun` defines. Wherever the builtin functions are
bound in a root, to load the prelude there binds just these (`loads_prelude`). Code that is called
later meets the same values if the names that it uses have not been bound anew, in the root or in a
frame; such scopes are described by `Scopes.HasPrelude`.
-/

namespace QuotedLisp

namespace Prelude

/-- The application of a function, given by its name. -/
abbrev form (name : Name) (args : List Value) : Value :=
  .list .round (.identifier name :: args)

/-- A function that the prelude defines. -/
structure Function where
  name : Name
  formals : List Name
  body : List Value

namespace Function

/-- The closure that the name of the function is bound to. -/
def value (f : Function) : Value :=
  .closure [] f.formals .curly f.body

/-- The statement that defines the function. -/
def statement (f : Function) : Value :=
  form "fun" [.quoted (.identifier f.name :: f.formals.map .identifier), .quoted f.body]

/-- The name of the function with the closure. -/
def entry (f : Function) : Name × Value :=
  (f.name, f.value)

end Function

/-- The body of a function that distinguishes whether the list `l` is empty. -/
def byCases (empty other : List Value) : List Value :=
  [.identifier "if", form "=" [.identifier "l", .identifier "nil"], .quoted empty, .quoted other]

/-- The first item of the list `l`, evaluated. -/
def firstItem : Value :=
  form "eval" [form "head" [.identifier "l"]]

/-- The list `l` without its first item. -/
def otherItems : Value :=
  form "tail" [.identifier "l"]

/-- Negation. -/
def negation : Function where
  name := "not"
  formals := ["x"]
  body := [.identifier "if", .identifier "x", .quoted [.identifier "false"],
    .quoted [.identifier "true"]]

/-- A function with its arguments exchanged. -/
def exchange : Function where
  name := "flip"
  formals := ["f", "a", "b"]
  body := [.identifier "f", .identifier "b", .identifier "a"]

/-- One function after another. -/
def composition : Function where
  name := "comp"
  formals := ["f", "g", "x"]
  body := [.identifier "f", form "g" [.identifier "x"]]

/-- The length of a list. -/
def length : Function where
  name := "len"
  formals := ["l"]
  body := byCases [.number (.zero false)]
    [.identifier "+", .number .one, form "len" [otherItems]]

/-- The item of a list at an index. -/
def item : Function where
  name := "nth"
  formals := ["n", "l"]
  body := [.identifier "if", form "=" [.identifier "n", .number (.zero false)],
    .quoted [.identifier "eval", form "head" [.identifier "l"]],
    .quoted [.identifier "nth", form "-" [.identifier "n", .number .one], otherItems]]

/-- The last item of a list. -/
def lastItem : Function where
  name := "last"
  formals := ["l"]
  body := [.identifier "nth", form "-" [form "len" [.identifier "l"], .number .one],
    .identifier "l"]

/-- The items of a list in reverse. -/
def reversal : Function where
  name := "reverse"
  formals := ["l"]
  body := byCases [.identifier "nil"]
    [.identifier "join", form "reverse" [otherItems], form "head" [.identifier "l"]]

/-- The last of several values. -/
def sequence : Function where
  name := "do"
  formals := [variadicMarker, "l"]
  body := byCases [.identifier "nil"] [.identifier "last", .identifier "l"]

/-- The images of the items of a list. -/
def mapping : Function where
  name := "map"
  formals := ["f", "l"]
  body := byCases [.identifier "nil"]
    [.identifier "join", form "list" [form "f" [firstItem]],
      form "map" [.identifier "f", otherItems]]

/-- The items of a list that a test accepts. -/
def selection : Function where
  name := "filter"
  formals := ["f", "l"]
  body := byCases [.identifier "nil"]
    [.identifier "join",
      form "if" [form "f" [firstItem], .quoted [.identifier "head", .identifier "l"],
        .quoted [.identifier "nil"]],
      form "filter" [.identifier "f", otherItems]]

/-- The fold of a list from the left. -/
def leftFold : Function where
  name := "foldl"
  formals := ["f", "z", "l"]
  body := byCases [.identifier "z"]
    [.identifier "foldl", .identifier "f", form "f" [.identifier "z", firstItem], otherItems]

/-- The sum of a list of numbers. -/
def total : Function where
  name := "sum"
  formals := ["l"]
  body := [.identifier "foldl", .identifier "+", .number (.zero false), .identifier "l"]

/-- The product of a list of numbers. -/
def totalProduct : Function where
  name := "product"
  formals := ["l"]
  body := [.identifier "foldl", .identifier "*", .number .one, .identifier "l"]

/-- The functions, in the order in which they are defined. -/
def functions : List Function :=
  [negation, exchange, composition, length, item, lastItem, reversal, sequence, mapping, selection,
    leftFold, total, totalProduct]

/-- The form that defines functions, from the name with the formals and the body. -/
def definer : Function where
  name := "fun"
  formals := ["f", "b"]
  body := [.identifier "def", form "head" [.identifier "f"],
    form "fn" [form "tail" [.identifier "f"], .identifier "b"]]

/-- The statement that binds a name. -/
def binds (name : Name) (v : Value) : Value :=
  form "def" [.quoted [.identifier name], v]

/-- The statements of the prelude. -/
def statements : List Value :=
  binds "nil" (.quoted []) :: binds "true" (.number .one) ::
    binds "false" (.number (.zero false)) ::
    binds definer.name (form "fn" [.quoted (definer.formals.map .identifier),
      .quoted definer.body]) ::
    functions.map Function.statement

/-- What is bound before the functions are defined. -/
def atomEntries : List (Name × Value) :=
  [("nil", .quoted []), ("true", .number .one), ("false", .number (.zero false)), definer.entry]

/-- What the prelude binds. -/
def entries : List (Name × Value) :=
  atomEntries ++ functions.map Function.entry

/-- The statements can be written down. -/
theorem printable_statements : ∀ v ∈ statements, v.Printable := by
  decide +kernel

/-- Texts one after the other have their characters one after the other. -/
theorem toList_join (parts : List (List Char)) :
    (String.join (parts.map String.ofList)).toList = parts.flatten := by
  rw [String.toList_join, List.flatMap_map, List.flatMap_def]
  simp [String.toList_ofList]

set_option maxRecDepth 2000 in
/-- The source has the same tokens as the text of the statements, with a space between them. -/
theorem tokenize_source : tokenize source = tokenizeChars (spaced (Value.toTexts statements)) := by
  -- The characters of the seven sections are those of their literals.
  have hchars : source.toList = List.flatten _ := toList_join [_, _, _, _, _, _, _]
  rw [tokenize, hchars]
  decide +kernel

/-- The source is read as the statements. -/
theorem of_source_prelude : Value.ofSource source = .ok statements := by
  have hwritten : Value.Written (spaced (Value.toTexts statements)) statements :=
    Value.written_spaced fun v hv => (printable_statements v hv).written
  obtain ⟨tokens, htokens, hspells⟩ := Value.of_source_eq_ok.mp hwritten.of_source
  rw [tokenize, String.toList_ofList] at htokens
  exact Value.of_source_eq_ok.mpr ⟨tokens, tokenize_source.trans htokens, hspells⟩

end Prelude

/-- A frame of arguments hides no name that is not a formal. -/
theorem Scopes.get?_push_zip {formals : List Name} {name : Name} (h : name ∉ formals)
    (scopes : Scopes) (args : List Value) :
    (scopes.push (formals.zip args)).get? name = scopes.get? name := by
  have hframe : Bindings.get? (formals.zip args) name = none := by
    induction formals generalizing args with
    | nil => rfl
    | cons formal formals ih =>
        simp only [List.mem_cons, not_or] at h
        cases args with
        | nil => rfl
        | cons arg args =>
            rw [List.zip_cons_cons, Bindings.get?_cons, if_neg h.1]
            exact ih h.2 args
  show ((List.findSome? _ (formals.zip args :: scopes.frames)).or _) = _
  rw [List.findSome?_cons, hframe]
  rfl

/-- A name that is bound in the root changes no other. -/
theorem Scopes.get?_define_of_ne {name other : Name} (h : other ≠ name) (scopes : Scopes) (v : Value) :
    (scopes.define name v).get? other = scopes.get? other := by
  rw [Scopes.get?, Scopes.define, Bindings.get?_set, if_neg h]
  rfl

/-- Without frames names are looked up in the root. -/
theorem Scopes.get?_root (root : Bindings) (name : Name) :
    Scopes.get? ⟨[], root⟩ name = root.get? name := rfl

namespace Prelude

/-- All builtin functions are what their names stand for. -/
def OffersBuiltins (scopes : Scopes) : Prop :=
  ∀ b : Builtin, scopes.get? b.name = some (.builtin b)

/-- Another name that is bound in a root hides no builtin function. -/
theorem OffersBuiltins.set {root : Bindings} (h : OffersBuiltins ⟨[], root⟩) (name : Name)
    (hname : Builtin.ofName? name = none) (v : Value) : OffersBuiltins ⟨[], root.set name v⟩ := by
  intro b
  have hne : b.name ≠ name := by
    rintro rfl
    exact absurd hname (by cases b <;> decide)
  rw [Scopes.get?_root, Bindings.get?_set, if_neg hne]
  exact h b

section

variable {host : Host} {prints : Prop} {scopes after : Scopes} {args : List Value}
  {result : Except RuntimeError Value}

/-- The call of a function of the prelude runs its body in a frame of its arguments. -/
theorem Function.calls (f : Function)
    (hbind : Closure.bindArguments [] f.formals args = .ok (f.formals.zip args, []))
    (h : (scopes.push (f.formals.zip args)).Runs host prints f.body
      (result, after.push (f.formals.zip args))) :
    scopes.Calls host prints f.value args (result, after) :=
  Scopes.calls_closure hbind h

/-- What the binding of a value to the first of a list comes to, which has to be a name. -/
def boundTo (scopes : Scopes) (v : Value) : Value → Except RuntimeError Value × Scopes
  | .identifier name => (.ok .unit, scopes.define name v)
  | first => (.error (first.mismatch Builtin.define.name "Identifier"), scopes)

/-- What the definition of a function comes to: the closure is made, and then it is bound. -/
def definition (scopes : Scopes) (first : Value) (others body : List Value) :
    Except RuntimeError Value × Scopes :=
  match Closure.make [.quoted others, .quoted body] with
  | .error e => (.error e, scopes)
  | .ok f => boundTo scopes f first

/-- A function with well-placed formals is bound to its closure. -/
theorem definition_function (scopes : Scopes) {f : Function}
    (hformals : Closure.wellPlaced f.formals = true) :
    definition scopes (.identifier f.name) (f.formals.map .identifier) f.body =
      (.ok .unit, scopes.define f.name f.value) := by
  unfold definition
  rw [Closure.make_eq_ok.mpr ⟨f.formals, f.body, rfl, hformals, rfl⟩]
  rfl

/-- From a frame a definition comes to the same, as the name is bound in the root. -/
theorem definition_push (scopes : Scopes) (frame : Bindings) (first : Value)
    (others body : List Value) :
    definition (scopes.push frame) first others body =
      ((definition scopes first others body).1,
        (definition scopes first others body).2.push frame) := by
  unfold definition
  split
  · rfl
  · unfold boundTo
    split <;> rfl

/-- The call that binds a value to the first of a list. -/
theorem calls_bind (first v : Value) :
    scopes.Calls host prints (.builtin .define) [.quoted [first], v] (boundTo scopes v first) := by
  cases first with
  | identifier name => exact Scopes.calls_define name v
  | _ => exact Scopes.comesTo_of_perform 0 fun _ => rfl

/-- To make a closure and to bind it is to define a function, however its parts are written. -/
theorem runs_definition (hdefine : scopes.get? Builtin.define.name = some (.builtin .define))
    (hlambda : scopes.get? Builtin.lambda.name = some (.builtin .lambda))
    {name names code first : Value} {others body : List Value}
    (hname : scopes.Evaluates host prints name (.ok (.quoted [first]), scopes))
    (hnames : scopes.Evaluates host prints names (.ok (.quoted others), scopes))
    (hcode : scopes.Evaluates host prints code (.ok (.quoted body), scopes)) :
    scopes.Runs host prints [.identifier "def", name, form "fn" [names, code]]
      (definition scopes first others body) := by
  have hfunction : scopes.Runs host prints [.identifier "fn", names, code]
      (Closure.make [.quoted others, .quoted body], scopes) :=
    Scopes.runs_builtin .lambda hlambda (hnames.cons (hcode.cons Scopes.evaluatesAll_nil))
      fun _ => rfl
  unfold definition
  split
  · rename_i e hmake
    rw [hmake] at hfunction
    exact Scopes.runs_application_error hdefine rfl (hname.cons (hfunction.evaluates.cons_error []))
  · rename_i f hmake
    rw [hmake] at hfunction
    exact Scopes.runs_application hdefine rfl
      (hname.cons (hfunction.evaluates.cons Scopes.evaluatesAll_nil)) (calls_bind first f)

/-- The statement that makes the closure of a function and binds it. -/
theorem evaluates_function (h : OffersBuiltins scopes) (f : Function)
    (hformals : Closure.wellPlaced f.formals = true) :
    scopes.Evaluates host prints
      (binds f.name (form "fn" [.quoted (f.formals.map .identifier), .quoted f.body]))
      (.ok .unit, scopes.define f.name f.value) := by
  rw [← definition_function scopes hformals]
  exact (runs_definition (h .define) (h .lambda) (Scopes.evaluates_self rfl)
    (Scopes.evaluates_self rfl) (Scopes.evaluates_self rfl)).evaluates

/-- The builtin functions that the form uses. -/
def definerBuiltins : List Builtin :=
  [.define, .head, .lambda, .tail]

/-- The call of the form that defines functions takes the list apart and defines the function. The
names in the list are data there, so they are not mistaken for the formals of the form. -/
theorem calls_definer (h : ∀ b ∈ definerBuiltins, scopes.get? b.name = some (.builtin b))
    (first : Value) (others body : List Value) :
    scopes.Calls host prints definer.value [.quoted (first :: others), .quoted body]
      (definition scopes first others body) := by
  let frame : Bindings := definer.formals.zip [.quoted (first :: others), .quoted body]
  have hbuiltin (b : Builtin) (hb : b ∈ definerBuiltins) :
      (scopes.push frame).get? b.name = some (.builtin b) := by
    have hformal : b.name ∉ definer.formals := by
      cases b <;> decide
    rw [Scopes.get?_push_zip hformal, h b hb]
  have hlist : (scopes.push frame).EvaluatesAll host prints [.identifier "f"]
      (.ok [.quoted (first :: others)], scopes.push frame) :=
    (Scopes.evaluates_name "f" rfl rfl).cons Scopes.evaluatesAll_nil
  have hname := Scopes.runs_builtin .head (hbuiltin .head (by decide)) hlist fun _ => rfl
  have hnames := Scopes.runs_builtin .tail (hbuiltin .tail (by decide)) hlist fun _ => rfl
  have hbody := runs_definition (hbuiltin .define (by decide)) (hbuiltin .lambda (by decide))
    hname.evaluates hnames.evaluates (Scopes.evaluates_name "b" rfl rfl)
  rw [definition_push] at hbody
  exact definer.calls rfl hbody

variable {root : Bindings}

/-- Where the root is the only scope, a statement that binds a name does so there. -/
theorem evaluates_binds (h : OffersBuiltins ⟨[], root⟩) {expr v : Value}
    (hexpr : Scopes.Evaluates host prints ⟨[], root⟩ expr (.ok v, ⟨[], root⟩)) (name : Name) :
    Scopes.Evaluates host prints ⟨[], root⟩ (binds name expr)
      (.ok .unit, ⟨[], root.set name v⟩) :=
  (Scopes.runs_application (h .define) rfl
    ((Scopes.evaluates_self rfl).cons (hexpr.cons Scopes.evaluatesAll_nil))
    (Scopes.calls_define name v)).evaluates

/-- Where the root is the only scope, the statement of a function binds it there. -/
theorem evaluates_statement (h : OffersBuiltins ⟨[], root⟩)
    (hdefiner : Scopes.get? ⟨[], root⟩ definer.name = some definer.value) {f : Function}
    (hformals : Closure.wellPlaced f.formals = true) :
    Scopes.Evaluates host prints ⟨[], root⟩ f.statement
      (.ok .unit, ⟨[], root.set f.name f.value⟩) := by
  have hdefinition := definition_function ⟨[], root⟩ hformals
  exact (Scopes.runs_application hdefiner rfl
    ((Scopes.evaluates_self rfl).cons ((Scopes.evaluates_self rfl).cons Scopes.evaluatesAll_nil))
    (hdefinition ▸ calls_definer (fun b _ => h b) _ _ _)).evaluates

/-- Statements of functions bind them one after the other, if their names are those of no builtin
function and not that of the form. -/
theorem executes_statements (h : OffersBuiltins ⟨[], root⟩)
    (hdefiner : Scopes.get? ⟨[], root⟩ definer.name = some definer.value) {fs : List Function}
    (hfs : ∀ f ∈ fs, Builtin.ofName? f.name = none ∧ definer.name ≠ f.name ∧
      Closure.wellPlaced f.formals = true) :
    Scopes.Executes host prints ⟨[], root⟩ (fs.map Function.statement)
      (.ok .unit, ⟨[], root.setAll (fs.map Function.entry)⟩) := by
  induction fs generalizing root with
  | nil => exact Scopes.executes_nil
  | cons f fs ih =>
      obtain ⟨⟨hbuiltin, hname, hformals⟩, hrest⟩ := List.forall_mem_cons.mp hfs
      refine (evaluates_statement h hdefiner hformals).statement
        (ih (h.set f.name hbuiltin f.value) ?_ hrest)
      rw [Scopes.get?_root, Bindings.get?_set, if_neg hname]
      exact hdefiner

/-- Where the builtin functions are bound in the root and the root is the only scope, the statements
of the prelude bind what it defines. -/
theorem executes_prelude (h : OffersBuiltins ⟨[], root⟩) :
    Scopes.Executes host prints ⟨[], root⟩ statements (.ok .unit, ⟨[], root.setAll entries⟩) := by
  have hnil := h.set "nil" (by decide) (.quoted [])
  have htrue := hnil.set "true" (by decide) (.number .one)
  have hfalse := htrue.set "false" (by decide) (.number (.zero false))
  have hfun := hfalse.set definer.name (by decide) definer.value
  have hentries : root.setAll entries =
      (root.setAll atomEntries).setAll (functions.map Function.entry) := List.foldl_append
  rw [hentries]
  refine (evaluates_binds h (Scopes.evaluates_self rfl) "nil").statement ?_
  refine (evaluates_binds hnil (Scopes.evaluates_self rfl) "true").statement ?_
  refine (evaluates_binds htrue (Scopes.evaluates_self rfl) "false").statement ?_
  refine (evaluates_function hfalse definer rfl).statement ?_
  refine executes_statements hfun ?_ (by decide)
  rw [Scopes.get?_root, Bindings.get?_set, if_pos rfl]

end

/-- Wherever the builtin functions are bound in a root and the root is the only scope, to load the
prelude binds what it defines, and nothing else happens. -/
theorem loads_prelude {w : World} (hframes : w.scopes.frames = []) (h : OffersBuiltins w.scopes)
    (host : Host) :
    w.Loads host source
      (.ok .unit, { w with scopes := ⟨[], w.scopes.root.setAll entries⟩ }) := by
  obtain ⟨⟨frames, root⟩, printed⟩ := w
  obtain rfl : frames = [] := hframes
  exact (World.loads_iff of_source_prelude).mpr ((executes_prelude h).answers printed)

end Prelude

namespace Scopes

/-- The names stand for what they stand for after the prelude has been loaded into a root in which
the builtin functions are bound. -/
def HasPrelude (scopes : Scopes) (names : List Name) : Prop :=
  ∃ (w loaded : World) (host : Host), w.scopes.frames = [] ∧ Prelude.OffersBuiltins w.scopes ∧
    w.Loads host Prelude.source (.ok .unit, loaded) ∧
    ∀ name ∈ names, scopes.get? name = loaded.scopes.get? name

namespace HasPrelude

variable {scopes : Scopes} {names : List Name}

/-- Fewer names. -/
theorem mono (h : scopes.HasPrelude names) {fewer : List Name} (hsub : ∀ name ∈ fewer, name ∈ names) :
    scopes.HasPrelude fewer := by
  obtain ⟨w, loaded, host, hframes, hbuiltins, hloads, hnames⟩ := h
  exact ⟨w, loaded, host, hframes, hbuiltins, hloads, fun name hname => hnames name (hsub name hname)⟩

/-- A frame of arguments on top, if none of the names is a formal. -/
theorem push (h : scopes.HasPrelude names) (formals : List Name)
    (hformals : ∀ name ∈ names, name ∉ formals) (args : List Value) :
    (scopes.push (formals.zip args)).HasPrelude names := by
  obtain ⟨w, loaded, host, hframes, hbuiltins, hloads, hnames⟩ := h
  refine ⟨w, loaded, host, hframes, hbuiltins, hloads, fun name hname => ?_⟩
  rw [Scopes.get?_push_zip (hformals name hname), hnames name hname]

/-- Another name that is bound in the root. -/
theorem define (h : scopes.HasPrelude names) (name : Name) (hname : name ∉ names) (v : Value) :
    (scopes.define name v).HasPrelude names := by
  obtain ⟨w, loaded, host, hframes, hbuiltins, hloads, hnames⟩ := h
  refine ⟨w, loaded, host, hframes, hbuiltins, hloads, fun other hother => ?_⟩
  rw [Scopes.get?_define_of_ne (ne_of_mem_of_not_mem hother hname), hnames other hother]

/-- A name stands for what the prelude binds it to, or else for the builtin function that has it. -/
theorem get? (h : scopes.HasPrelude names) (name : Name) (hname : name ∈ names) {v : Value}
    (hv : (Prelude.entries.reverse.lookup name).or ((Builtin.ofName? name).map .builtin) = some v) :
    scopes.get? name = some v := by
  obtain ⟨w, loaded, host, hframes, hbuiltins, hloads, hnames⟩ := h
  obtain rfl := congrArg Prod.snd (hloads.unique (Prelude.loads_prelude hframes hbuiltins host))
  simp only [hnames name hname, Scopes.get?_root, Bindings.get?_setAll]
  cases hentry : Prelude.entries.reverse.lookup name with
  | some u =>
      rw [hentry] at hv
      exact hv
  | none =>
      rw [hentry, Option.none_or] at hv
      obtain ⟨b, hb, rfl⟩ := Option.map_eq_some_iff.mp hv
      obtain rfl : b.name = name := by simpa using List.find?_some hb
      obtain ⟨⟨frames, root⟩, printed⟩ := w
      obtain rfl : frames = [] := hframes
      exact hbuiltins b

end HasPrelude

/-- The names stand for it where the builtin functions and the prelude are all that is bound. -/
theorem hasPrelude_root (names : List Name) :
    HasPrelude ⟨[], (Bindings.withBuiltins []).setAll Prelude.entries⟩ names :=
  ⟨World.bare, _, ⟨none, none⟩, rfl, fun b => by cases b <;> rfl,
    Prelude.loads_prelude rfl (fun b => by cases b <;> rfl) ⟨none, none⟩, fun _ _ => rfl⟩

end Scopes

end QuotedLisp
