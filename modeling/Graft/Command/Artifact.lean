import Graft.Command.Fault
import Graft.Command.Log
import Graft.Disk.Host
import Graft.Interchange.Decode

/-!
# Renewing one artifact

The files that belong to one artifact, and the renewal from what stands at their paths: the
generated tree has to be there; the artifact need not be, but if it is, its parsed tree has to be
there too.
-/

namespace Graft

/-- The end of the names of generated trees. -/
def generatedSuffix : String := ".gen.json"

/-- The end of the names of parsed trees. -/
def parsedSuffix : String := ".tree.json"

/-- The files of one artifact. -/
structure ArtifactFiles where
  /-- The generated tree. -/
  generated : Path
  /-- The artifact itself. -/
  existing : Option Path := none
  /-- The parsed tree of the artifact, if it does not stand beside the artifact. -/
  parsed : Option Path := none
deriving DecidableEq, Repr

/-- A computation that keeps a log. -/
abbrev Logged (α : Type) := Traced LogEntry CommandFault α

namespace ArtifactFiles

/-- The parsed tree that stands beside an artifact. -/
def besides (existing : Path) : Path :=
  ⟨existing.text ++ parsedSuffix⟩

/-- Every path that may be read. -/
def paths (files : ArtifactFiles) : List Path :=
  files.generated :: files.existing.toList ++ (files.existing.map besides).toList ++
    files.parsed.toList

/-- The generated tree. -/
def generatedTree (files : ArtifactFiles) (look : Path → Standing Contents) :
    Except CommandFault DeclarationTree :=
  match (look files.generated).read with
  | .error cause => .error (.unreadableGenerated files.generated cause)
  | .ok text =>
    match Interchange.ofText? Interchange.tree? text with
    | none => .error (.invalidGenerated files.generated)
    | some tree => .ok tree

/-- The parsed tree of an artifact that exists. -/
def parsedSource (files : ArtifactFiles) (look : Path → Standing Contents) (existing : Path) :
    Except CommandFault ParsedSource :=
  let path := files.parsed.getD (besides existing)
  match (look path).read with
  | .error cause => .error (.unreadableTree path cause)
  | .ok text =>
    match Interchange.ofText? Interchange.parsedSource? text with
    | none => .error (.invalidTree path)
    | some parsed => .ok parsed

/-- The renewal of an artifact that is not there. -/
def renewFresh (generated : DeclarationTree) : Logged Renewal := do
  Traced.record (.step .nothingExists)
  pure { tree := generated }

/-- The renewal of an artifact that is there. -/
def renewExisting (files : ArtifactFiles) (look : Path → Standing Contents) (existing : Path)
    (generated : DeclarationTree) : Logged Renewal := do
  let text ← Traced.ofExcept ((look existing).read.mapError (.unreadableArtifact existing))
  let parsed ← Traced.ofExcept (files.parsedSource look existing)
  let renewal ← ((Renewal.ofSource parsed text generated).mapRecords .step).mapError
    (.unmergeable existing)
  Traced.recordAll (renewal.diagnostics.map (.diagnostic existing))
  Traced.record (.merged existing renewal.changes)
  pure renewal

/-- Renew the artifact from what stands at the paths of its files. -/
def renew (files : ArtifactFiles) (look : Path → Standing Contents) : Logged Renewal := do
  let generated ← Traced.ofExcept (files.generatedTree look)
  match files.existing with
  | none => renewFresh generated
  | some existing =>
    if (look existing).isFile then
      files.renewExisting look existing generated
    else
      Traced.record (.noArtifactYet existing)
      renewFresh generated

end ArtifactFiles

/-! ### Artifacts of a batch -/

/-- The artifact that a generated tree belongs to. -/
def artifactOf (generated : Path) : Path :=
  let name := (generated.fileName?).getD ""
  generated.withFileName <|
    if name.endsWith generatedSuffix then
      String.ofList (name.toList.take (name.length - generatedSuffix.length))
    else
      name

/-- The files of the artifact that a generated tree belongs to. -/
def ArtifactFiles.ofGenerated (generated : Path) : ArtifactFiles :=
  { generated, existing := some (artifactOf generated) }

/-- The output file of a generated tree in a directory. -/
def outputOf (directory : Path) (format : Format) (generated : Path) : Path :=
  directory.join ((artifactOf generated).fileName?.getD "artifact" ++ "." ++ format.extension)

/-! ### Writing the result -/

section

variable {m : Type → Type} [Monad m] [Host m]

/-- Renew an artifact and write the result. -/
def writeArtifact (files : ArtifactFiles) (output : Path) (format : Format) : m (Logged Unit) := do
  let look ← Host.look files.paths
  let result := files.renew look
  match result.outcome with
  | .error fault => pure ⟨result.records, .error fault⟩
  | .ok r =>
    let written ← Host.write output (format.render r.tree)
    pure ⟨result.records, written.mapError (.unwritable output)⟩

/-- Renew an artifact and give the result as text. -/
def showArtifact (files : ArtifactFiles) (format : Format) : m (Logged String) := do
  let look ← Host.look files.paths
  let result := files.renew look
  pure ⟨result.records, result.outcome.map fun r => format.render r.tree⟩

end

end Graft
