/-!
# File trees

Files as a program sees them: paths lead through directories to byte contents, which count as text
if they are valid UTF-8. `FileTree.read` walks a path, from the working directory unless it is
absolute, and says why it leads to no text.
-/

namespace QuotedLisp

/-- Why a path gives no text. -/
inductive FileError where
  | notFound
  | notADirectory
  | isADirectory
  | nameTooLong
  | nulInName
  | notText
  /-- Any other failure, in the words of the system. -/
  | other (message : String)
deriving DecidableEq, Repr

/-- The error in words. -/
def FileError.message : FileError → String
  | .notFound => "No such file or directory (os error 2)"
  | .notADirectory => "Not a directory (os error 20)"
  | .isADirectory => "Is a directory (os error 21)"
  | .nameTooLong => "File name too long (os error 36)"
  | .nulInName => "file name contained an unexpected NUL byte"
  | .notText => "stream did not contain valid UTF-8"
  | .other message => message

/-- How the text of a file is obtained from its path. -/
abbrev FileReader := String → Except FileError String

/-- What a name in a directory stands for. -/
inductive FileEntry where
  | directory
  | file (content : ByteArray)

/-- The parts of a path between its slashes. -/
abbrev PathParts := List String

/-- Named files and directories, by their path from the top, and the working directory. The
directories on the way to any of them exist too. -/
structure FileTree where
  entries : List (PathParts × FileEntry)
  workingDirectory : PathParts

namespace FileTree

/-- The parts of a path, empty ones included. -/
def split (path : String) : PathParts :=
  (path.toList.splitOn '/').map String.ofList

/-- The place reached from a directory by one part of a path: the directory itself by an empty part
or a point, and the one above it by two points. -/
def follow (place : PathParts) (part : String) : PathParts :=
  if part = "" ∨ part = "." then place
  else if part = ".." then place.dropLast
  else place ++ [part]

/-- The directories that a row of parts enters and leaves again upwards. -/
def leftUpwards (place : PathParts) : List String → List PathParts
  | [] => []
  | part :: rest =>
    let later := leftUpwards (follow place part) rest
    if part = ".." then place :: later else later

/-- The tree with something new at a path, and with every directory that the path leads through. -/
def create (tree : FileTree) (path : String) (entry : FileEntry) : FileTree :=
  let start := tree.workingDirectory
  let passed := (leftUpwards start (split path)).map (·, FileEntry.directory)
  { tree with entries := ((split path).foldl follow start, entry) :: passed ++ tree.entries }

/-- Files named by paths relative to a working directory, created one after the other. -/
def ofFiles (workingDirectory : PathParts) (files : List (String × FileEntry)) : FileTree :=
  files.foldl (fun tree (path, entry) => tree.create path entry) ⟨[], workingDirectory⟩

/-- What is found at the end of a row of parts. -/
def entry? (tree : FileTree) (parts : PathParts) : Option FileEntry :=
  match tree.entries.lookup parts with
  | some entry => some entry
  | none =>
    if (tree.workingDirectory :: tree.entries.map (·.1)).any (parts.isPrefixOf ·) then
      some .directory
    else none

/-- The longest name of a file, in bytes. -/
def maxNameSize : Nat :=
  255

/-- The longest path, in bytes. -/
def maxPathSize : Nat :=
  4095

/-- One step of a walk, from a place that was reached to a part of the path. -/
def step (tree : FileTree) (place : PathParts) (part : String) : Except FileError PathParts :=
  match tree.entry? place with
  | none => .error .notFound
  | some (.file _) => .error .notADirectory
  | some .directory =>
    if maxNameSize < part.utf8ByteSize then .error .nameTooLong
    else if (tree.entry? (follow place part)).isSome then .ok (follow place part)
    else .error .notFound

/-- The place that a path leads to. -/
def walk (tree : FileTree) (path : String) : Except FileError PathParts :=
  if path.toList.contains '\x00' then .error .nulInName
  else if path = "" then .error .notFound
  else if maxPathSize < path.utf8ByteSize then .error .nameTooLong
  else
    let start := if path.toList.head? = some '/' then [] else tree.workingDirectory
    (split path).foldlM tree.step start

/-- The text of the file at a path. -/
def read (tree : FileTree) : FileReader := fun path => do
  match tree.entry? (← tree.walk path) with
  | none => .error .notFound
  | some .directory => .error .isADirectory
  | some (.file content) =>
    match String.fromUTF8? content with
    | none => .error .notText
    | some text => .ok text

end FileTree

end QuotedLisp
