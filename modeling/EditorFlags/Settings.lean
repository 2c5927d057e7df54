import EditorFlags.FlagFile
import EditorFlags.Json.Literal

/-!
# Settings

What an editor gets when it asks for the flags of a project: one list of all
tokens, printed as a JSON object with a single key, one flag on a line.
-/

namespace EditorFlags

/-- The flags of a project, in order. -/
structure Settings where
  flags : List String
deriving DecidableEq, Repr

namespace Settings

/-- The settings that some items make: their tokens, without the line ends. -/
def ofItems (items : List Item) : Settings :=
  ⟨Item.tokens items⟩

/-- The settings as JSON. -/
def render (settings : Settings) : String :=
  if settings.flags.isEmpty then "\x7b\n  \"flags\": []\n\x7d"
  else
    let lines := settings.flags.map fun flag => "    " ++ Json.quote flag
    "\x7b\n  \"flags\": [\n" ++ String.intercalate ",\n" lines ++ "\n  ]\n\x7d"

end Settings

end EditorFlags
