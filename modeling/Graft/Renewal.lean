import Graft.Merge.Tree
import Graft.ParsedSource.Validation
import Graft.Recovery.Tree

/-!
# Renewal

One artifact brought up to date: the parsed tree of the existing source is validated, filled with
the text of the source, and merged with what the generator made. Where no source exists there is
nothing to merge with.
-/

namespace Graft

/-- The result of a renewal. -/
structure Renewal where
  tree : DeclarationTree
  changes : List Change := []
  diagnostics : List Diagnostic := []
deriving DecidableEq, Repr

namespace Renewal

/-- What a renewal shows on its way. -/
inductive Step where
  /-- A member's text is being recovered. -/
  | recovering (step : Recovery.Step)
  /-- The merge did something. -/
  | merging (change : Change)
  /-- There is no existing source. -/
  | nothingExists
  /-- The merge succeeded. -/
  | merged (changes : List Change) (lines diagnostics : Nat) (problems : Bool)
deriving DecidableEq, Repr

/-- A renewal without an existing source: the generated tree as it is. -/
def fresh (generated : DeclarationTree) : Traced Step Failure Renewal := do
  Traced.record .nothingExists
  pure { tree := generated }

/-- The renewal of an existing source. -/
def ofSource (parsed : ParsedSource) (text : String) (generated : DeclarationTree) :
    Traced Step Failure Renewal :=
  let document := Document.ofText text
  let valid := parsed.validate document
  let diagnostics := valid.records
  do
    let tree ← Traced.ofExcept (valid.outcome.mapError .parsedTree)
    let recovered ← (Recovery.recoverTree document tree).mapRecords .recovering
    let merge := Merge.mergeTrees recovered generated
    let tree ← merge.mapRecords .merging
    Traced.record
      (.merged merge.records document.size diagnostics.length (anyProblem diagnostics))
    pure { tree, changes := merge.records, diagnostics }

/-- The renewal of a source that may exist. -/
def ofSource? (parsed : ParsedSource) (text : Option String) (generated : DeclarationTree) :
    Traced Step Failure Renewal :=
  match text with
  | none => fresh generated
  | some text => ofSource parsed text generated

end Renewal

end Graft
