import QuotedLisp.Command.Program

/-!
# The command

The outer layer of the command: it obtains arguments, variables, files and lines, and writes what
`Program` answers. The functions of `Program` are pure, so a file is fetched when an answer shows
that it was wanted, and the part of the run that wanted it is done again with the file at hand.
-/

namespace QuotedLisp.Command

/-- How a file that was not fetched yet presents itself. -/
def notFetched : FileError :=
  .other "not fetched"

/-- The files that were fetched, with what was found. -/
abbrev Fetched := List (String × Except FileError String)

/-- A reader that knows the fetched files. -/
def Fetched.reader (files : Fetched) : FileReader := fun path =>
  (files.lookup path).getD (.error notFetched)

/-- The file that a failure shows to be wanted. -/
def wanted? (config : Config) : Failure → Option String
  | .unreadableFile path e => if e = notFetched then some path else none
  | .unreadablePrelude path e => if e = notFetched then some path else none
  | .brokenPrelude (.runtime (.moduleFailure name message))
  | .brokenProgram (.runtime (.moduleFailure name message)) =>
    if message = notFetched.message then some (config.moduleFiles.pathOf name) else none
  | _ => none

/-- The number of a system error, which some calls report negated. -/
def systemCode (code : UInt32) : UInt32 :=
  if code < 0x80000000 then code else 0 - code

/-- The error of a failed access in the terms of the program. -/
def fileError : IO.Error → FileError
  | .noFileOrDirectory .. => .notFound
  | .permissionDenied .. => .other "Permission denied (os error 13)"
  | .inappropriateType _ code _ => if systemCode code = 20 then .notADirectory else .isADirectory
  | e@(.invalidArgument _ code _) =>
    if systemCode code = 36 then .nameTooLong else .other e.toString
  | e => .other e.toString

/-- What is found at a path. -/
def fetch (path : String) : IO (Except FileError String) := do
  if path.contains '\x00' then return .error .nulInName
  try
    let content ← IO.FS.readBinFile path
    match String.fromUTF8? content with
    | some text => return .ok text
    | none => return .error .notText
  catch e => return .error (fileError e)

/-- Carries out a part of a run, fetching the files that it turns out to want. -/
partial def carryOut {α : Type} (config : Config) (attempt : FileReader → Option (Progress α))
    (files : Fetched := []) : IO (Progress α) := do
  match attempt files.reader with
  | none => throw (IO.userError "the computation is nested too deeply")
  | some p =>
    match p.result with
    | .ok _ => return p
    | .error failure =>
      match wanted? config failure with
      | none => return p
      | some path => carryOut config attempt ((path, ← fetch path) :: files)

/-- How deeply applications may be nested. -/
def allowance : Nat :=
  1000000000

/-- Writes what a part of a run writes. -/
def write (written : Written) : IO Unit := do
  let stdout ← IO.getStdout
  stdout.putStr written.stdout
  stdout.flush
  (← IO.getStderr).putStr written.stderr

/-- Reports a failure. -/
def fail (failure : Failure) : IO UInt32 := do
  write { stderr := failure.message ++ "\n" }
  return 1

/-- Evaluates the lines of the input up to the one that ends the run. -/
partial def converse (config : Config) (w : World) : IO UInt32 := do
  let line ← (← IO.getStdin).getLine
  if line = "" then return 0
  match Program.readLine line.toList with
  | .nothing => converse config w
  | .ending => return 0
  | .code source =>
    let p ← carryOut config fun read => Program.enter config read allowance w source
    write (Program.answer p)
    converse config p.world

/-- Starts a run, and goes on with it unless the prelude fails. -/
def startRun (config : Config) (next : World → IO UInt32) : IO UInt32 := do
  let begun ← carryOut config fun read => Program.start config read allowance
  write { stdout := begun.printed }
  match begun.result with
  | .error failure => fail failure
  | .ok () => next begun.world

/-- Runs the statements of a text. -/
def runText (config : Config) (text : String) (w : World) : IO UInt32 := do
  let p ← carryOut config fun read => Program.runStatements config read allowance w text
  write { stdout := p.printed }
  match p.result with
  | .error failure => fail failure
  | .ok () => return 0

/-- Runs the command and answers with its exit status. -/
def execute (args : List String) : IO UInt32 := do
  let prelude ← IO.getEnv preludeVariable
  let modulePath ← IO.getEnv modulePathVariable
  let environment (name : String) : Option String :=
    if name = preludeVariable then prelude
    else if name = modulePathVariable then modulePath
    else none
  match Config.parse args environment with
  | .error e =>
    write (Program.refused e).written
    return 1
  | .ok config =>
    match config.mode with
    | .help =>
      write { stderr := Program.usage }
      return 0
    | .repl =>
      startRun config fun w => do
        write { stdout := Program.banner }
        converse config w
    | .runFile path =>
      match ← fetch path with
      | .error e => fail (.unreadableFile path e)
      | .ok text => startRun config (runText config text)

end QuotedLisp.Command

/-- The command. -/
def main (args : List String) : IO UInt32 :=
  QuotedLisp.Command.execute args
