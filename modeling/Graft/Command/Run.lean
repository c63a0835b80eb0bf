import Graft.Command.Selection

/-!
# Running commands

The two commands: merge one artifact, or a batch of artifacts, each independently of the others. An
artifact of a batch that fails is skipped; the batch goes on, and fails at its end.
-/

namespace Graft

/-- What to do. -/
inductive Command where
  /-- Merge one artifact, to a file or to the standard output. -/
  | merge (files : ArtifactFiles) (output : Option Path)
  /-- Merge the artifacts that the arguments select, into a directory. -/
  | batch (arguments : List String) (directory : Path)
deriving DecidableEq, Repr

/-- A command, and the name of the output format. -/
structure Invocation where
  command : Command
  format : String := "json"
deriving DecidableEq, Repr

/-- How a command ended. -/
structure CommandResult where
  log : List LogEntry := []
  /-- The text for the standard output. -/
  output : String := ""
  fault : Option CommandFault := none
deriving DecidableEq, Repr

namespace CommandResult

/-- The result of a logged computation. -/
def ofLogged {α : Type} (x : Logged α) (output : α → String) : CommandResult :=
  match x.outcome with
  | .ok a => { log := x.records, output := output a }
  | .error fault => { log := x.records, fault := some fault }

/-- The exit code. -/
def exitCode (r : CommandResult) : Nat :=
  if r.fault.isSome then 1 else 0

/-- The causes of the fault in words, the outermost first. -/
def causes (r : CommandResult) : List String :=
  (r.fault.map CommandFault.causes).getD []

/-- The lines of the log, as far as it is shown. -/
def logLines (r : CommandResult) (shown : LogLevel) : List String :=
  (r.log.filter fun e => shown.shows e.level).map LogEntry.text

end CommandResult

variable {m : Type → Type} [Monad m] [Host m]

/-- Merge one artifact. -/
def runMerge (files : ArtifactFiles) (output : Option Path) (format : Format) :
    m CommandResult := do
  match output with
  | some path => return .ofLogged (← writeArtifact files path format) fun _ => ""
  | none => return .ofLogged (← showArtifact files format) id

/-! ### Batches -/

/-- What a batch says about one artifact. -/
def artifactLog (generated : Path) (x : Logged Unit) : List LogEntry :=
  match x.outcome with
  | .ok _ => x.records
  | .error fault => x.records ++ [.skipped (artifactOf generated) fault.causes]

/-- Merge the artifacts of these generated trees, one after the other. -/
def writeArtifacts (directory : Path) (format : Format) :
    List Path → m (List (Path × Logged Unit))
  | [] => pure []
  | generated :: rest => do
    let done ← writeArtifact (.ofGenerated generated) (outputOf directory format generated) format
    let more ← writeArtifacts directory format rest
    pure ((generated, done) :: more)

/-- How a batch ended that selected these generated trees, with what came of each. -/
def batchResult (selecting : List LogEntry) (results : List (Path × Logged Unit)) :
    CommandResult :=
  let total := results.length
  let failed := results.countP fun (_, x) => !x.outcome.isOk
  {
    log := selecting ++ results.flatMap (fun (generated, x) => artifactLog generated x) ++
      [.tally (total - failed) total]
    fault := if failed = 0 then none else some (.someFailed failed total) }

/-- Merge the artifacts that the arguments select. The output directory comes first, and nothing is
merged unless the whole selection is valid. -/
def runBatch (arguments : List String) (directory : Path) (format : Format) :
    m CommandResult := do
  match ← makeDirectories directory with
  | .error cause => return { fault := some (.noOutputDirectory directory cause) }
  | .ok () =>
    let selection := select (← Host.listing) arguments
    match selection.outcome with
    | .error fault => return { log := selection.records, fault := some fault }
    | .ok generated =>
      return batchResult selection.records (← writeArtifacts directory format generated)

/-- Run a command. An unknown format is found before anything else is done. -/
def Invocation.run (i : Invocation) : m CommandResult := do
  match Format.ofName? i.format with
  | none => return { fault := some (.unknownFormat i.format) }
  | some format =>
    match i.command with
    | .merge files output => runMerge files output format
    | .batch arguments directory => runBatch arguments directory format

end Graft
