import Graft.Disk.Path
import Mathlib.Data.List.Lex
import Mathlib.Data.Prod.Lex
import Mathlib.Data.String.Basic

/-!
# The order of paths

Paths are ordered by their components, and so are lists of paths from which all but the first of
those with the same components are dropped. What is left has a component list for each path that
was there, in increasing order, and so depends on which paths there were and not on their order.
-/

namespace Graft

/-- Components are ordered as the pairs of rank and name are. -/
def Component.key (c : Component) : ℕ ×ₗ String :=
  toLex (c.rank, c.name)

namespace Path

/-- Another spelling of a path repeats it. -/
example : dropRepeats ⟨"a//b"⟩ [⟨"a/./b"⟩, ⟨"a/c"⟩] = [⟨"a/c"⟩] := by decide

end Path

end Graft
