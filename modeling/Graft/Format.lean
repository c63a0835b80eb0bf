import Graft.Interchange.Encode
import Graft.Json.Printer
import Graft.Outline

/-!
# Output formats

The forms in which a tree is written: the interchange form for other programs, and the outline for
people.
-/

namespace Graft

/-- An output format. -/
inductive Format where
  | json
  | outline
deriving DecidableEq, Repr, Inhabited

namespace Format

/-- The format of that name. The outline also goes by the extension of its files. -/
def ofName? (name : String) : Option Format :=
  if name = "json" then some .json
  else if name = "outline" ∨ name = "md" then some .outline
  else none

/-- The message for a name that no format has. -/
def unknownMessage (name : String) : String :=
  s!"unknown format: {name}. Use json or outline"

/-- The extension of files in this format. -/
def extension : Format → String
  | .json => "json"
  | .outline => "md"

/-- A tree in this format. -/
def render : Format → DeclarationTree → String
  | .json, tree => tree.encode.indented ++ "\n"
  | .outline, tree => Outline.ofTree tree

end Format

end Graft
