import QuotedLisp.Command.Config
import QuotedLisp.Eval.Session
import QuotedLisp.Module.Files
import QuotedLisp.Prelude
import QuotedLisp.Text.Blank
import QuotedLisp.Text.Correction

/-!
# The program

What the command does, as functions of its arguments, variables, files and input: it runs a file,
or it evaluates its input line by line. A part of a run answers with what it prints and the world
that it leaves; a computation that never ends has no answer.
-/

namespace QuotedLisp

/-- What a part of a run writes to its two outputs. -/
structure Written where
  stdout : String := ""
  stderr : String := ""

namespace Written

/-- What two parts of a run write, one after the other. -/
def append (first second : Written) : Written :=
  ⟨first.stdout ++ second.stdout, first.stderr ++ second.stderr⟩

/-- Parts of a run are put together by `++`. -/
instance : Append Written :=
  ⟨append⟩

end Written

/-- Why a run fails. -/
inductive Failure where
  | unreadableFile (path : String) (error : FileError)
  | unreadablePrelude (path : String) (error : FileError)
  | brokenPrelude (error : Error)
  | brokenProgram (error : Error)

/-- An error of the language as the program reports it. -/
def Error.report : Error → String
  | .runtime e => (Value.error e).display
  | e => s!"Parse error: {e.message}"

/-- The failure in words. -/
def Failure.message : Failure → String
  | .unreadableFile path e => s!"Failed to read file '{path}': {e.message}"
  | .unreadablePrelude path e => s!"Failed to read prelude '{path}': {e.message}"
  | .brokenPrelude e => s!"Failed to load prelude: {e.report}"
  | .brokenProgram e => e.report

/-- What a part of a run ends in: a result, the text it printed, and the world it leaves. -/
structure Progress (α : Type) where
  result : Except Failure α
  printed : String
  world : World

/-- What a whole run writes and the status it exits with. -/
structure Exit where
  code : Nat
  written : Written

namespace Program

/-- How the command is used. -/
def usage : String := s!"Usage:
  qlisp [options]              Start interactive REPL
  qlisp [options] <file.lisp>  Run a qlisp file
  qlisp --help                 Show this help message

Options:
  --prelude <path>  Load <path> instead of the bundled prelude
  --no-prelude      Start without a prelude

Environment:
  {preludeVariable}     Prelude file, overridden by the options above
  {modulePathVariable}        Directory `import` loads modules from (default: .)
  RUST_LOG          Enable diagnostic logging, e.g. RUST_LOG=qlisp=debug
"

/-- What is shown before the first line of input. -/
def banner : String :=
  "qlisp REPL\nType expressions to evaluate; exit, Ctrl-C or Ctrl-D to quit\n\n"

/-- What code relies on when the command runs it. -/
def host (config : Config) (read : FileReader) : Host :=
  ⟨some (config.moduleFiles.source read), none⟩

/-- A part of a run that evaluates code. What is printed is handed over and leaves the world. -/
def progress {α β : Type} (failure : Error → Failure) (result : α → β)
    (outcome : Except Error α × World) : Progress β :=
  let (answer, after) := outcome
  ⟨(answer.map result).mapError failure, after.printed, { after with printed := "" }⟩

/-- The text of the prelude, if there is one to load. A prelude file that does not exist is passed
over. -/
def preludeText (choice : PreludeChoice) (read : FileReader) : Except Failure (Option String) :=
  match choice with
  | .none => .ok none
  | .bundled => .ok (some Prelude.source)
  | .file path =>
    match read path with
    | .ok text => .ok (some text)
    | .error .notFound => .ok none
    | .error e => .error (.unreadablePrelude path e)

/-- The beginning of every run: the builtin functions, and the prelude loaded. -/
def start (config : Config) (read : FileReader) (allowance : Nat) : Option (Progress Unit) :=
  match preludeText config.prelude read with
  | .error failure => some ⟨.error failure, "", .bare⟩
  | .ok none => some ⟨.ok (), "", .bare⟩
  | .ok (some text) =>
    (World.bare.load (host config read) allowance text).map
      (progress .brokenPrelude fun _ => ())

/-- What a line of input asks for. -/
inductive Line where
  | nothing
  | ending
  | code (source : String)

/-- Backspaces in a line are carried out, blanks around it do not count, and a line of blanks asks
for nothing. -/
def readLine (line : List Char) : Line :=
  let input := String.ofList (Text.trim (Text.correct line))
  if input = "" then .nothing
  else if input = "exit" ∨ input = "(exit)" then .ending
  else .code input

/-- Evaluates the source of a line. -/
def enter (config : Config) (read : FileReader) (allowance : Nat) (w : World) (source : String) :
    Option (Progress Value) :=
  (w.evaluate (host config read) allowance source).map (progress .brokenProgram id)

/-- What evaluating a line writes: what it printed, then its value or its failure. -/
def answer (p : Progress Value) : Written :=
  match p.result with
  | .ok v => ⟨p.printed ++ v.display ++ "\n", ""⟩
  | .error failure => ⟨p.printed, failure.message ++ "\n"⟩

/-- What the lines of an input write, up to the one that ends the run. -/
def enterLines (config : Config) (read : FileReader) (allowance : Nat) (w : World) :
    List (List Char) → Option Written
  | [] => some {}
  | line :: rest =>
    match readLine line with
    | .nothing => enterLines config read allowance w rest
    | .ending => some {}
    | .code source => do
      let p ← enter config read allowance w source
      let later ← enterLines config read allowance p.world rest
      some (answer p ++ later)

/-- The exit of a run that printed a text and then failed. -/
def failed (printed : String) (failure : Failure) : Exit :=
  ⟨1, printed, failure.message ++ "\n"⟩

/-- A session on the lines of an input. -/
def runInput (config : Config) (read : FileReader) (allowance : Nat) (stdin : String) :
    Option Exit := do
  let begun ← start config read allowance
  match begun.result with
  | .error failure => some (failed begun.printed failure)
  | .ok () =>
    let written ← enterLines config read allowance begun.world (stdin.toList.splitOn '\n')
    some ⟨0, ⟨begun.printed ++ banner, ""⟩ ++ written⟩

/-- Evaluates the statements of a program. -/
def runStatements (config : Config) (read : FileReader) (allowance : Nat) (w : World)
    (source : String) : Option (Progress Unit) :=
  (w.load (host config read) allowance source).map (progress .brokenProgram fun _ => ())

/-- A run of the statements of a file. The file is read before anything is evaluated. -/
def runFile (config : Config) (read : FileReader) (allowance : Nat) (path : String) :
    Option Exit := do
  match read path with
  | .error e => some (failed "" (.unreadableFile path e))
  | .ok text =>
    let begun ← start config read allowance
    match begun.result with
    | .error failure => some (failed begun.printed failure)
    | .ok () =>
      let p ← runStatements config read allowance begun.world text
      match p.result with
      | .ok () => some ⟨0, begun.printed ++ p.printed, ""⟩
      | .error failure => some (failed (begun.printed ++ p.printed) failure)

/-- The exit of a command line that asks for nothing that can be done. -/
def refused (e : ConfigError) : Exit :=
  ⟨1, "", s!"Error: {e.message}\n" ++ usage⟩

/-- A whole run of the command. -/
def invoke (args : List String) (environment : String → Option String) (read : FileReader)
    (allowance : Nat) (stdin : String) : Option Exit :=
  match Config.parse args environment with
  | .error e => some (refused e)
  | .ok config =>
    match config.mode with
    | .help => some ⟨0, "", usage⟩
    | .repl => runInput config read allowance stdin
    | .runFile path => runFile config read allowance path

end Program

end QuotedLisp
