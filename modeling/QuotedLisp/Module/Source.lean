/-!
# Module sources

Where the texts of modules come from.
-/

namespace QuotedLisp

/-- A store of module texts by name. Reading finds a text, or that there is no such module, or
fails with a message. -/
structure ModuleSource where
  read : String → Except String (Option String)

namespace ModuleSource

/-- A source that holds the given texts. -/
def ofList (texts : List (String × String)) : ModuleSource :=
  ⟨fun name => .ok (texts.lookup name)⟩

/-- A source that fails whatever is read. -/
def failing (message : String) : ModuleSource :=
  ⟨fun _ => .error message⟩

end ModuleSource

end QuotedLisp
