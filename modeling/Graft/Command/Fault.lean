import Graft.Disk.Pattern
import Graft.Failure
import Graft.Format

/-!
# Why a command fails

Each way in which a command can fail, with its causes in words, the outermost first.
-/

namespace Graft

/-- Why a command failed. -/
inductive CommandFault where
  | unknownFormat (name : String)
  | unreadableGenerated (path : Path) (cause : DiskFault)
  | invalidGenerated (path : Path)
  | unreadableArtifact (path : Path) (cause : DiskFault)
  | unreadableTree (path : Path) (cause : DiskFault)
  | invalidTree (path : Path)
  | unmergeable (path : Path) (cause : Failure)
  | unwritable (path : Path) (cause : DiskFault)
  | noOutputDirectory (path : Path) (cause : DiskFault)
  | invalidPattern (pattern : String) (cause : PatternError)
  /-- Some artifacts of a batch failed. -/
  | someFailed (failed total : Nat)
deriving DecidableEq, Repr

/-- The causes in words. -/
def CommandFault.causes : CommandFault → List String
  | .unknownFormat name => [Format.unknownMessage name]
  | .unreadableGenerated path cause => [s!"failed to read {path.text}", cause.message]
  | .invalidGenerated path => [s!"invalid generated tree: {path.text}"]
  | .unreadableArtifact path cause => [s!"failed to read {path.text}", cause.message]
  | .unreadableTree path cause => [s!"failed to read parsed tree {path.text}", cause.message]
  | .invalidTree path =>
    [s!"failed to load {path.text}", (Failure.parsedTree .unreadable).message]
  | .unmergeable path cause => [s!"failed to merge {path.text}", cause.message]
  | .unwritable path cause => [s!"failed to write {path.text}", cause.message]
  | .noOutputDirectory path cause =>
    [s!"failed to create output directory: {path.text}", cause.message]
  | .invalidPattern pattern cause => [s!"invalid glob pattern: {pattern}", cause.message]
  | .someFailed failed total => [s!"{failed} of {total} artifacts failed"]

end Graft
