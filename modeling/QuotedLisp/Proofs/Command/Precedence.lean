import QuotedLisp.Command.Config

/-!
# Precedence on the command line

The arguments are read from the left, and one of them may take the next as its path. So an argument
counts if it is `Free`, and the first free one that settles the outcome (`Decides`) does. If there
is none, the file to run is the only free argument that names one, and the prelude is what the last
free option about it says, before anything that the environment says (`selected`).
-/

namespace QuotedLisp.Config

/-- The argument is not the path of a free option before it. -/
def isFree (args : List String) : Nat → Bool
  | 0 => true
  | i + 1 => !(isFree args i && args[i]? == some "--prelude")

/-- The argument at the index, which is free. -/
def Free (args : List String) (i : Nat) (arg : String) : Prop :=
  isFree args i = true ∧ args[i]? = some arg

/-- Whether an argument is free can be seen from those before it. -/
instance (args : List String) (i : Nat) (arg : String) : Decidable (Free args i arg) :=
  inferInstanceAs (Decidable (_ ∧ _))

/-- An argument that two dashes begin. -/
def Dashed (arg : String) : Prop :=
  ∃ name, arg = "--" ++ name

/-- The arguments that two dashes begin are those that have the form of an option. -/
theorem isOption_iff {arg : String} : isOption arg = true ↔ Dashed arg := by
  rw [isOption, List.isPrefixOf_iff_prefix]
  constructor
  · rintro ⟨name, hname⟩
    have harg : arg = String.ofList ("--".toList ++ name) := by
      rw [hname, String.ofList_toList]
    exact ⟨String.ofList name, harg.trans String.ofList_append⟩
  · rintro ⟨name, rfl⟩
    exact ⟨name.toList, String.toList_append.symm⟩

/-- Whether two dashes begin an argument is seen from its characters. -/
instance (arg : String) : Decidable (Dashed arg) :=
  decidable_of_iff _ isOption_iff

/-- An argument that names a file. -/
abbrev IsFile (arg : String) : Prop :=
  ¬ Dashed arg ∧ arg ≠ "-h"

section

variable (environment : String → Option String) (args : List String)

/-- The prelude that the environment asks for: the file that its variable names, or the bundled one
if the variable is not set or is empty. -/
def environmentPrelude : PreludeChoice :=
  match environment "QLISP_PRELUDE" with
  | some path => if path ≠ "" then .file path else .bundled
  | none => .bundled

/-- The directory of modules that the environment asks for: the one that its variable names, or the
working directory if the variable is not set or is empty. -/
def environmentRoot : String :=
  match environment "QLISP_PATH" with
  | some path => if path ≠ "" then path else "."
  | none => "."

/-- The prelude after so many arguments: what the last free option about it says, or else what the
environment asks for. -/
def selected : Nat → PreludeChoice
  | 0 => environmentPrelude environment
  | i + 1 =>
    if Free args i "--no-prelude" then .none
    else if Free args i "--prelude" then (args[i + 1]?.map PreludeChoice.file).getD (selected i)
    else selected i

/-- The argument at the index settles the outcome, if no earlier one does. -/
inductive Decides (i : Nat) : Except ConfigError Config → Prop where
  | help (arg) :
      Free args i arg → arg = "--help" ∨ arg = "-h" →
      Decides i (.ok ⟨.help, selected environment args i, environmentRoot environment⟩)
  | unknown (arg) :
      Free args i arg → Dashed arg → arg ∉ ["--help", "--no-prelude", "--prelude"] →
      Decides i (.error (.unknownOption arg))
  | second (j file arg) :
      j < i → Free args j file → IsFile file → Free args i arg → IsFile arg →
      Decides i (.error .tooManyArguments)
  | noPath :
      Free args i "--prelude" → i + 1 = args.length → Decides i (.error .missingPreludePath)

/-- The mode after so many arguments, if none of them settles the outcome. -/
def ModeAfter (n : Nat) (mode : Mode) : Prop :=
  mode = .repl ∧ (∀ j < n, ∀ file, Free args j file → ¬ IsFile file) ∨
    ∃ j file, j < n ∧ Free args j file ∧ IsFile file ∧ mode = .runFile file

/-- What has been read of the arguments before an index that is free, if none of them settles the
outcome. -/
structure Read (n : Nat) (config : Config) : Prop where
  le_length : n ≤ args.length
  free : isFree args n = true
  prelude : config.prelude = selected environment args n
  root : config.moduleRoot = environmentRoot environment
  mode : ModeAfter args n config.mode

/-- What the arguments from an index on come to. -/
def ComesTo (n : Nat) (outcome : Except ConfigError Config) : Prop :=
  (∃ i ≥ n, Decides environment args i outcome ∧
    ∀ j ≥ n, j < i → ∀ other, ¬ Decides environment args j other) ∨
  (∀ i ≥ n, ∀ other, ¬ Decides environment args i other) ∧
    ∃ config, outcome = .ok config ∧ Read environment args args.length config

end

variable {environment : String → Option String} {args : List String} {n : Nat}
  {outcome : Except ConfigError Config} {config : Config} {arg : String}

/-- An argument that settles nothing is passed over. -/
theorem ComesTo.skip (h : ComesTo environment args (n + 1) outcome)
    (hnone : ∀ other, ¬ Decides environment args n other) : ComesTo environment args n outcome := by
  have hfrom (i : Nat) (hi : i ≥ n) : i = n ∨ i ≥ n + 1 := by omega
  rcases h with ⟨i, hi, hdecides, hfirst⟩ | ⟨hrest, hread⟩
  · refine .inl ⟨i, Nat.le_of_succ_le hi, hdecides, fun j hj hlt => ?_⟩
    rcases hfrom j hj with rfl | hj
    · exact hnone
    · exact hfirst j hj hlt
  · refine .inr ⟨fun i hi => ?_, hread⟩
    rcases hfrom i hi with rfl | hi
    · exact hnone
    · exact hrest i hi

/-- An argument that settles the outcome is the first that does from there on. -/
theorem Decides.comesTo (h : Decides environment args n outcome) :
    ComesTo environment args n outcome :=
  .inl ⟨n, Nat.le_refl n, h, fun _ hj hlt => absurd hlt (Nat.not_lt.mpr hj)⟩

/-- Two arguments at one index are one. -/
theorem Free.unique {other : String} {i : Nat} (h : Free args i arg) (h' : Free args i other) :
    arg = other :=
  Option.some.inj (h.2.symm.trans h'.2)

/-- A request for help is no other kind of argument. -/
theorem help_apart (h : arg = "--help" ∨ arg = "-h") :
    ¬ IsFile arg ∧ arg ≠ "--prelude" ∧ arg ≠ "--no-prelude" ∧
      (Dashed arg → arg ∈ ["--help", "--no-prelude", "--prelude"]) := by
  rcases h with rfl | rfl <;> decide

/-- A file is named by an argument that has not the form of an option. -/
theorem IsFile.apart (h : IsFile arg) : arg ≠ "--prelude" ∧ arg ≠ "--no-prelude" := by
  constructor <;> rintro rfl <;> exact absurd h (by decide)

/-- An argument settles one outcome. -/
theorem Decides.unique {i : Nat} {other : Except ConfigError Config}
    (h : Decides environment args i outcome) (h' : Decides environment args i other) :
    outcome = other := by
  cases h <;> cases h' <;> grind [Free.unique, help_apart, IsFile.apart]

/-- An argument that settles the outcome is free. -/
theorem Decides.free {i : Nat} (h : Decides environment args i outcome) :
    ∃ arg, Free args i arg := by
  cases h <;> exact ⟨_, ‹_›⟩

/-- After an argument that takes no path the next is free. -/
theorem Free.succ (h : Free args n arg) (harg : arg ≠ "--prelude") :
    isFree args (n + 1) = true := by
  simp [isFree, h.1, h.2, harg]

/-- After the option that takes a path, the next argument is the path and the one after it is
free. -/
theorem Free.path (h : Free args n "--prelude") :
    isFree args (n + 1) = false ∧ isFree args (n + 2) = true := by
  simp [isFree, h.1, h.2]

/-- The path is not free. -/
theorem Free.path_not_free (h : Free args n "--prelude") (arg : String) :
    ¬ Free args (n + 1) arg := by
  intro hfree
  rw [Free, h.path.1] at hfree
  cases hfree.1

/-- The option against a prelude settles nothing. -/
theorem Free.noPrelude_not_decides (h : Free args n "--no-prelude")
    (outcome : Except ConfigError Config) : ¬ Decides environment args n outcome := by
  intro hdecides
  cases hdecides <;> grind [Free.unique, help_apart, IsFile.apart]

/-- Nor does the option for one, if there is a path for it. -/
theorem Free.prelude_not_decides (h : Free args n "--prelude") {path : String}
    (hpath : args[n + 1]? = some path) (outcome : Except ConfigError Config) :
    ¬ Decides environment args n outcome := by
  have hlt := (List.getElem?_eq_some_iff.mp hpath).1
  intro hdecides
  cases hdecides <;> grind [Free.unique, help_apart, IsFile.apart]

/-- Nor does the path. -/
theorem Free.path_not_decides (h : Free args n "--prelude") (outcome : Except ConfigError Config) :
    ¬ Decides environment args (n + 1) outcome := by
  intro hdecides
  obtain ⟨arg, hfree⟩ := hdecides.free
  exact h.path_not_free arg hfree

/-- Nor does the name of a file, if there was none before. -/
theorem Free.file_not_decides (h : Free args n arg) (hfile : IsFile arg)
    (hearlier : ∀ j < n, ∀ file, Free args j file → ¬ IsFile file)
    (outcome : Except ConfigError Config) : ¬ Decides environment args n outcome := by
  intro hdecides
  cases hdecides <;> grind [Free.unique, help_apart, IsFile.apart]

/-- The path of the prelude is what was selected last. -/
theorem Free.selected_path (h : Free args n "--prelude") {path : String}
    (hpath : args[n + 1]? = some path) : selected environment args (n + 2) = .file path := by
  have hnext := h.path_not_free
  rw [selected, if_neg (hnext _), if_neg (hnext _), selected, if_neg, if_pos h, hpath]
  · rfl
  · exact fun hnone => absurd (h.unique hnone) (by decide)

/-- No prelude is what was selected last. -/
theorem Free.selected_none (h : Free args n "--no-prelude") :
    selected environment args (n + 1) = .none := by
  rw [selected, if_pos h]

/-- Any other argument selects nothing. -/
theorem Free.selected_other (h : Free args n arg) (hnone : arg ≠ "--no-prelude")
    (hpath : arg ≠ "--prelude") :
    selected environment args (n + 1) = selected environment args n := by
  rw [selected, if_neg fun hfree => hnone (h.unique hfree),
    if_neg fun hfree => hpath (h.unique hfree)]

/-- What is left of the arguments begins with the one at the index. -/
theorem Read.free_of_drop (h : Read environment args n config) {later : List String}
    (hrest : args.drop n = arg :: later) : Free args n arg ∧ args.drop (n + 1) = later := by
  refine ⟨⟨h.free, ?_⟩, ?_⟩
  · rw [← List.head?_drop, hrest]
    rfl
  · rw [← List.tail_drop, hrest]
    rfl

/-- An argument that names no file leaves the mode. -/
theorem ModeAfter.succ {mode : Mode} (h : ModeAfter args n mode)
    (harg : ∀ arg, Free args n arg → ¬ IsFile arg) : ModeAfter args (n + 1) mode := by
  rcases h with ⟨hrepl, hnone⟩ | ⟨j, file, hj, hfile⟩
  · refine .inl ⟨hrepl, fun j hj file => ?_⟩
    rcases Nat.lt_succ_iff_lt_or_eq.mp hj with hlt | rfl
    · exact hnone j hlt file
    · exact harg file
  · exact .inr ⟨j, file, Nat.lt_succ_of_lt hj, hfile⟩

/-- Without a file there was none. -/
theorem ModeAfter.of_repl {mode : Mode} (h : ModeAfter args n mode) (hmode : mode = .repl) :
    ∀ j < n, ∀ file, Free args j file → ¬ IsFile file := by
  rcases h with ⟨-, hnone⟩ | ⟨j, file, -, -, -, hrun⟩
  · exact hnone
  · rw [hmode] at hrun
    cases hrun

/-- After the option against a prelude. -/
theorem Read.without_prelude (h : Read environment args n config)
    (hfree : Free args n "--no-prelude") :
    Read environment args (n + 1) { config with prelude := .none } where
  le_length := (List.getElem?_eq_some_iff.mp hfree.2).1
  free := hfree.succ (by decide)
  prelude := hfree.selected_none.symm
  root := h.root
  mode := h.mode.succ fun _ harg => hfree.unique harg ▸ by decide

/-- After the option for a prelude and its path. -/
theorem Read.with_prelude (h : Read environment args n config) (hfree : Free args n "--prelude")
    {path : String} (hpath : args[n + 1]? = some path) :
    Read environment args (n + 2) { config with prelude := .file path } where
  le_length := (List.getElem?_eq_some_iff.mp hpath).1
  free := hfree.path.2
  prelude := (hfree.selected_path hpath).symm
  root := h.root
  mode := by
    have hmode : ModeAfter args (n + 1) config.mode :=
      h.mode.succ fun _ harg => hfree.unique harg ▸ by decide
    exact hmode.succ fun arg harg => absurd harg (hfree.path_not_free arg)

/-- After the name of a file. -/
theorem Read.with_file (h : Read environment args n config) (hfree : Free args n arg)
    (hfile : IsFile arg) : Read environment args (n + 1) { config with mode := .runFile arg } where
  le_length := (List.getElem?_eq_some_iff.mp hfree.2).1
  free := hfree.succ hfile.apart.1
  prelude := h.prelude.trans (hfree.selected_other hfile.apart.2 hfile.apart.1).symm
  root := h.root
  mode := .inr ⟨n, arg, Nat.lt_succ_self n, hfree, hfile, rfl⟩

/-- The rest of the arguments, read after those before it, settles the outcome or gives the
configuration. -/
theorem readArguments_comesTo {rest : List String} (hrest : args.drop n = rest)
    (hread : Read environment args n config) :
    ComesTo environment args n (readArguments config rest) := by
  fun_induction readArguments config rest generalizing n with
  | case1 config =>
      have hlength : n = args.length :=
        Nat.le_antisymm hread.le_length (List.drop_eq_nil_iff.mp hrest)
      refine .inr ⟨fun i hi other hdecides => ?_, config, rfl, hlength ▸ hread⟩
      obtain ⟨arg, hfree⟩ := hdecides.free
      have hlt := (List.getElem?_eq_some_iff.mp hfree.2).1
      omega
  | case2 config arg rest hhelp =>
      obtain ⟨hfree, -⟩ := hread.free_of_drop hrest
      have hdecides : Decides environment args n _ := .help arg hfree hhelp
      rw [← hread.prelude, ← hread.root] at hdecides
      exact hdecides.comesTo
  | case3 config rest _ ih =>
      obtain ⟨hfree, hlater⟩ := hread.free_of_drop hrest
      exact (ih hlater (hread.without_prelude hfree)).skip hfree.noPrelude_not_decides
  | case4 config =>
      obtain ⟨hfree, hlater⟩ := hread.free_of_drop hrest
      have hend : n + 1 = args.length :=
        Nat.le_antisymm (List.getElem?_eq_some_iff.mp hfree.2).1 (List.drop_eq_nil_iff.mp hlater)
      exact (Decides.noPath hfree hend).comesTo
  | case5 config path later _ _ ih =>
      obtain ⟨hfree, hlater⟩ := hread.free_of_drop hrest
      have hpath : args[n + 1]? = some path := by
        rw [← List.head?_drop, hlater]
        rfl
      have hrest' : args.drop (n + 2) = later := by
        rw [← List.tail_drop, hlater]
        rfl
      have hnext := ih hrest' (hread.with_prelude hfree hpath)
      exact (hnext.skip hfree.path_not_decides).skip (hfree.prelude_not_decides hpath)
  | case6 config arg rest hhelp hnone hprelude hoption =>
      obtain ⟨hfree, -⟩ := hread.free_of_drop hrest
      have hknown : arg ∉ ["--help", "--no-prelude", "--prelude"] := by simp_all
      exact (Decides.unknown arg hfree (isOption_iff.mp hoption) hknown).comesTo
  | case7 config arg rest hhelp hnone hprelude hoption hrepl ih =>
      obtain ⟨hfree, hlater⟩ := hread.free_of_drop hrest
      have hfile : IsFile arg := ⟨mt isOption_iff.mpr hoption, fun h => hhelp (.inr h)⟩
      have hearlier := hread.mode.of_repl hrepl
      exact (ih hlater (hread.with_file hfree hfile)).skip (hfree.file_not_decides hfile hearlier)
  | case8 config arg rest hhelp hnone hprelude hoption hmode =>
      obtain ⟨hfree, -⟩ := hread.free_of_drop hrest
      have hfile : IsFile arg := ⟨mt isOption_iff.mpr hoption, fun h => hhelp (.inr h)⟩
      rcases hread.mode with ⟨hrepl, -⟩ | ⟨j, file, hj, hother, hisFile, -⟩
      · exact absurd hrepl hmode
      · exact (Decides.second j file arg hj hother hisFile hfree hfile).comesTo

/-- A variable that is not set counts as one that is empty. -/
theorem nonEmpty_eq (environment : String → Option String) (name : String) :
    nonEmpty environment name =
      match environment name with
      | some path => if path ≠ "" then some path else none
      | none => none := by
  unfold nonEmpty
  cases environment name with
  | none => rfl
  | some path => by_cases hempty : path = "" <;> simp [hempty]

/-- Before the first argument, the prelude is the one that the environment asks for. -/
theorem ofEnvironment_prelude (environment : String → Option String) :
    (ofEnvironment environment).prelude = environmentPrelude environment := by
  show ((nonEmpty environment "QLISP_PRELUDE").map PreludeChoice.file).getD .bundled = _
  rw [nonEmpty_eq, environmentPrelude]
  cases environment "QLISP_PRELUDE" with
  | none => rfl
  | some path => by_cases hempty : path = "" <;> simp [hempty]

/-- So is the directory of modules. -/
theorem ofEnvironment_moduleRoot (environment : String → Option String) :
    (ofEnvironment environment).moduleRoot = environmentRoot environment := by
  show (nonEmpty environment "QLISP_PATH").getD "." = _
  rw [nonEmpty_eq, environmentRoot]
  cases environment "QLISP_PATH" with
  | none => rfl
  | some path => by_cases hempty : path = "" <;> simp [hempty]

/-- Nothing has been read before the first argument. -/
theorem read_start (args : List String) (environment : String → Option String) :
    Read environment args 0 (ofEnvironment environment) where
  le_length := Nat.zero_le _
  free := rfl
  prelude := ofEnvironment_prelude environment
  root := ofEnvironment_moduleRoot environment
  mode := .inl ⟨rfl, fun _ hj => absurd hj (Nat.not_lt_zero _)⟩

/-- The first free argument that settles the outcome does: a request for help, with the prelude that
was selected before it, an option that is not known, a second file, or an option for a prelude
without its path. If there is none, the mode is to run the only file, or none, and the prelude is
what the last free option about it says, or else what the environment says. The directory of modules
is what the environment says, whatever the arguments are. -/
theorem parse_precedence (args : List String) (environment : String → Option String) :
    (∀ i outcome, Decides environment args i outcome →
      (∀ j < i, ∀ other, ¬ Decides environment args j other) →
      parse args environment = outcome) ∧
    ((∀ i other, ¬ Decides environment args i other) →
      ∃ mode, parse args environment =
          .ok ⟨mode, selected environment args args.length, environmentRoot environment⟩ ∧
        (∀ i file, Free args i file → IsFile file → mode = .runFile file) ∧
        ((∀ i file, Free args i file → ¬ IsFile file) → mode = .repl)) ∧
    ∀ config, parse args environment = .ok config →
      config.moduleRoot = environmentRoot environment := by
  have hcomesTo : ComesTo environment args 0 (parse args environment) :=
    readArguments_comesTo rfl (read_start args environment)
  refine ⟨fun i outcome hdecides hfirst => ?_, fun hnone => ?_, fun config hconfig => ?_⟩
  · rcases hcomesTo with ⟨k, -, hdecides', hfirst'⟩ | ⟨hnone, -⟩
    · rcases Nat.lt_trichotomy k i with hlt | rfl | hlt
      · exact absurd hdecides' (hfirst k hlt _)
      · exact hdecides'.unique hdecides
      · exact absurd hdecides (hfirst' i (Nat.zero_le i) hlt _)
    · exact absurd hdecides (hnone i (Nat.zero_le i) _)
  · rcases hcomesTo with ⟨k, -, hdecides, -⟩ | ⟨-, config, hconfig, hread⟩
    · exact absurd hdecides (hnone k _)
    · refine ⟨config.mode, by rw [hconfig, ← hread.prelude, ← hread.root], ?_, ?_⟩
      · intro i file hfree hfile
        rcases hread.mode with ⟨-, hnofile⟩ | ⟨j, other, -, hother, hisFile, hmode⟩
        · exact absurd hfile (hnofile i (List.getElem?_eq_some_iff.mp hfree.2).1 file hfree)
        · rcases Nat.lt_trichotomy i j with hlt | rfl | hlt
          · exact absurd (.second i file other hlt hfree hfile hother hisFile) (hnone j _)
          · rw [hmode, hother.unique hfree]
          · exact absurd (.second j other file hlt hother hisFile hfree hfile) (hnone i _)
      · intro hnofile
        rcases hread.mode with ⟨hrepl, -⟩ | ⟨j, other, -, hother, hisFile, -⟩
        · exact hrepl
        · exact absurd hisFile (hnofile j other hother)
  · rw [hconfig] at hcomesTo
    rcases hcomesTo with ⟨k, -, hdecides, -⟩ | ⟨-, other, heq, hread⟩
    · cases hdecides
      rfl
    · cases heq
      exact hread.root

/-- A prelude in a file with the name of an option, a request for help, and two files. -/
def helpLine : List String :=
  ["--prelude", "--help", "-h", "a.lisp", "b.lisp"]

/-- A file, and a prelude in a file with the name of an option. -/
def fileLine : List String :=
  ["a.lisp", "--prelude", "-h"]

/-- An environment that names a directory of modules and leaves the prelude empty. -/
def emptyPrelude : String → Option String
  | "QLISP_PRELUDE" => some ""
  | "QLISP_PATH" => some "/lib"
  | _ => none

/-- An environment that names a prelude and leaves the directory of modules empty. -/
def emptyRoot : String → Option String
  | "QLISP_PRELUDE" => some "my.lisp"
  | "QLISP_PATH" => some ""
  | _ => none

/-- The path of a prelude is no request for help. The third argument of the first line is one, so
the second file is no error. No argument of the second line settles the outcome, and its option
counts before the environment. Without arguments the environment counts, but not where it is
empty. -/
theorem parse_precedence_swallowed :
    Decides (fun _ => none) helpLine 2 (.ok ⟨.help, .file "--help", "."⟩) ∧
      (∀ j < 2, ∀ other, ¬ Decides (fun _ => none) helpLine j other) ∧
      parse helpLine (fun _ => none) = .ok ⟨.help, .file "--help", "."⟩ ∧
      (∀ i other, ¬ Decides emptyRoot fileLine i other) ∧
      parse fileLine emptyRoot = .ok ⟨.runFile "a.lisp", .file "-h", "."⟩ ∧
      (∀ environment i other, ¬ Decides environment [] i other) ∧
      parse [] emptyRoot = .ok ⟨.repl, .file "my.lisp", "."⟩ ∧
      parse [] emptyPrelude = .ok ⟨.repl, .bundled, "/lib"⟩ := by
  have hhelp : Decides (fun _ => none) helpLine 2 (.ok ⟨.help, .file "--help", "."⟩) :=
    .help "-h" (by decide) (.inr rfl)
  have hfirst : ∀ j < 2, ∀ other, ¬ Decides (fun _ => none) helpLine j other := by
    have hoption : Free helpLine 0 "--prelude" := by decide
    intro j hj
    match j, hj with
    | 0, _ => exact hoption.prelude_not_decides rfl
    | 1, _ => exact hoption.path_not_decides
  have hnone : ∀ i other, ¬ Decides emptyRoot fileLine i other := by
    have hfile : Free fileLine 0 "a.lisp" := by decide
    have hoption : Free fileLine 1 "--prelude" := by decide
    intro i other hdecides
    obtain ⟨arg, hfree⟩ := hdecides.free
    match i, (List.getElem?_eq_some_iff.mp hfree.2).1 with
    | 0, _ => exact hfile.file_not_decides (by decide) nofun other hdecides
    | 1, _ => exact hoption.prelude_not_decides rfl other hdecides
    | 2, _ => exact hoption.path_not_decides other hdecides
  have hnofree : ∀ i arg, ¬ Free [] i arg := fun i arg hfree => nomatch hfree.2
  have hempty : ∀ environment i other, ¬ Decides environment [] i other := by
    intro environment i other hdecides
    obtain ⟨arg, hfree⟩ := hdecides.free
    exact hnofree i arg hfree
  obtain ⟨hdecided, -⟩ := parse_precedence helpLine fun _ => none
  obtain ⟨-, hundecided, -⟩ := parse_precedence fileLine emptyRoot
  obtain ⟨mode, hparse, hrun, -⟩ := hundecided hnone
  obtain rfl := hrun 0 "a.lisp" (by decide) (by decide)
  have hbare (environment : String → Option String) : parse [] environment =
      .ok ⟨.repl, environmentPrelude environment, environmentRoot environment⟩ := by
    obtain ⟨-, hundecided, -⟩ := parse_precedence [] environment
    obtain ⟨mode, hparse, -, hrepl⟩ := hundecided (hempty environment)
    obtain rfl := hrepl fun i file hfree => absurd hfree (hnofree i file)
    exact hparse
  exact ⟨hhelp, hfirst, hdecided 2 _ hhelp hfirst, hnone, hparse, hempty, hbare emptyRoot,
    hbare emptyPrelude⟩

end QuotedLisp.Config
