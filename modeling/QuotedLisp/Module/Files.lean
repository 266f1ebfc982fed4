import QuotedLisp.FileTree
import QuotedLisp.Module.Source

/-!
# Modules in files

A module is a file under a common root, named after the module with an extension.
-/

namespace QuotedLisp

/-- Where the files of modules are, and what their names end in. -/
structure ModuleFiles where
  root : String := "."
  extension : String := "lisp"

namespace ModuleFiles

/-- A path continued by a relative one; an absolute one stands for itself. -/
def joinPath (base relative : String) : String :=
  if relative.toList.head? = some '/' then relative
  else if base.toList.getLast?.all (· == '/') then base ++ relative
  else base ++ "/" ++ relative

/-- The path of a module's file. Points in the name of the module stay. -/
def pathOf (files : ModuleFiles) (name : String) : String :=
  joinPath files.root name ++ "." ++ files.extension

/-- The modules that files hold. A file that does not exist is no module, and any other failure to
read one is reported. -/
def source (files : ModuleFiles) (read : FileReader) : ModuleSource where
  read name :=
    match read (files.pathOf name) with
    | .ok text => .ok (some text)
    | .error .notFound => .ok none
    | .error e => .error e.message

end ModuleFiles

end QuotedLisp
