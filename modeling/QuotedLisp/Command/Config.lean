import QuotedLisp.Module.Files

/-!
# Command-line configuration

What a command line and the environment ask for. Options take precedence over variables, and later
options over earlier ones; the first thing on the line that settles the outcome, a request for help
or a fault, ends the reading.
-/

namespace QuotedLisp

/-- The variable that names a prelude file. -/
def preludeVariable : String :=
  "QLISP_PRELUDE"

/-- The variable that names the directory of modules. -/
def modulePathVariable : String :=
  "QLISP_PATH"

/-- What the program is asked to do. -/
inductive Mode where
  | repl
  | runFile (path : String)
  | help
deriving DecidableEq, Repr

/-- What is loaded before anything else. -/
inductive PreludeChoice where
  | bundled
  | file (path : String)
  | none
deriving DecidableEq, Repr

/-- Everything that the command line and the environment decide. -/
structure Config where
  mode : Mode
  prelude : PreludeChoice
  moduleRoot : String
deriving DecidableEq, Repr

/-- A command line that asks for nothing that can be done. -/
inductive ConfigError where
  | missingPreludePath
  | unknownOption (option : String)
  | tooManyArguments
deriving DecidableEq, Repr

/-- The error in words. -/
def ConfigError.message : ConfigError → String
  | .missingPreludePath => "--prelude requires a path"
  | .unknownOption option => s!"Unknown option '{option}'"
  | .tooManyArguments => "Too many arguments"

namespace Config

/-- Where the modules of a run are. -/
def moduleFiles (config : Config) : ModuleFiles :=
  { root := config.moduleRoot }

/-- The value of a variable that is set and not empty. -/
def nonEmpty (environment : String → Option String) (name : String) : Option String :=
  (environment name).filter (· != "")

/-- The configuration of an empty command line. -/
def ofEnvironment (environment : String → Option String) : Config where
  mode := .repl
  prelude := ((nonEmpty environment preludeVariable).map PreludeChoice.file).getD .bundled
  moduleRoot := (nonEmpty environment modulePathVariable).getD "."

/-- An argument that has the form of an option. -/
def isOption (arg : String) : Bool :=
  "--".toList.isPrefixOf arg.toList

/-- The configuration after the arguments that are left, read from the left. -/
def readArguments (config : Config) : List String → Except ConfigError Config
  | [] => .ok config
  | arg :: rest =>
    if arg = "--help" ∨ arg = "-h" then .ok { config with mode := .help }
    else if arg = "--no-prelude" then readArguments { config with prelude := .none } rest
    else if arg = "--prelude" then
      match rest with
      | [] => .error .missingPreludePath
      | path :: later => readArguments { config with prelude := .file path } later
    else if isOption arg then .error (.unknownOption arg)
    else if config.mode = .repl then readArguments { config with mode := .runFile arg } rest
    else .error .tooManyArguments

/-- The configuration that arguments and variables ask for. -/
def parse (args : List String) (environment : String → Option String) :
    Except ConfigError Config :=
  readArguments (ofEnvironment environment) args

end Config

end QuotedLisp
