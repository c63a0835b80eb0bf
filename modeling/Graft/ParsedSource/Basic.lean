import Graft.Declaration.Basic
import Graft.Diagnostic

/-!
# Parsed sources

What a parser leaves beside a source artifact: the tree it read from it, and its remarks.
-/

namespace Graft

/-- A parser's account of one source artifact. -/
structure ParsedSource where
  diagnostics : List Diagnostic := []
  tree : DeclarationTree
deriving DecidableEq, Repr, Inhabited

/-- The account of a source that declares nothing. -/
def ParsedSource.empty : ParsedSource :=
  { tree := {} }

end Graft
