import Graft.Document
import Graft.Source.LineKind

/-!
# Comments above a declaration

The comment lines that document a field: the run of comments, attributes and blank lines directly
above it, of which the comments count.
-/

namespace Graft.Source

/-- A line that may stand between a declaration and its comments. -/
def mayPrecede (line : List Char) : Bool :=
  match lineKind line with
  | .blank | .comment | .attribute => true
  | _ => false

/-- The comment lines above a line, from top to bottom and without indentation. A line beyond the
end of the document has nothing above it. -/
def commentsAbove (d : Document) (line : Nat) : List String :=
  if line - 1 ≤ d.size then
    (((d.lines.take (line - 1)).reverse.takeWhile (mayPrecede ·.toList)).filter
      (isComment ·.toList)).reverse.map fun l => String.ofList (Text.trim l.toList)
  else
    []

end Graft.Source
