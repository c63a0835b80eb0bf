import Graft.Main
import Graft.Proofs.Merge.TreeSteps
import Graft.Proofs.Merge.Frame
import Graft.Proofs.Merge.Shape
import Graft.Proofs.Merge.Idempotence
import Graft.Proofs.Merge.Pairs
import Graft.Proofs.Merge.Pruning
import Graft.Proofs.Merge.Nested
import Graft.Proofs.Merge.HandWritten
import Graft.Proofs.Merge.Keys
import Graft.Proofs.Merge.Names
import Graft.Proofs.Merge.Overloads
import Graft.Proofs.Merge.SelfMerge
import Graft.Proofs.Merge.Description
import Graft.Proofs.Text.Lines
import Graft.Proofs.Recovery.KnownEnds
import Graft.Proofs.Recovery.Texts
import Graft.Proofs.Recovery.Nesting
import Graft.Proofs.Interchange.Renewed
import Graft.Proofs.Merge.Clashes
import Graft.Proofs.Disk.Directories
import Graft.Proofs.Merge.FoldRegions
import Graft.Proofs.Command.Artifacts
import Graft.Proofs.Command.Independence
import Graft.Proofs.Command.Outputs
import Graft.Proofs.Recovery.Closing
import Graft.Proofs.Recovery.Blocks
import Graft.Proofs.Recovery.Recovered
import Graft.Proofs.Recovery.CutShort
import Graft.Proofs.Recovery.Accessors
import Graft.Proofs.Recovery.Ends
import Graft.Proofs.Recovery.AbstractLines
import Graft.Proofs.Recovery.Comments
import Graft.Proofs.Recovery.Balance
import Graft.Proofs.Recovery.Clauses
import Graft.Proofs.Recovery.Attributes
import Graft.Proofs.Recovery.FoldMarks
import Graft.Proofs.Recovery.ClauseOrder
import Graft.Proofs.Recovery.Framing
import Graft.Proofs.ParsedSource.Consistency
import Graft.Proofs.Merge.Report
import Graft.Proofs.Recovery.Tiling
import Graft.Proofs.Machine.Members
import Graft.Proofs.Machine.Trees
import Graft.Proofs.Disk.Order
import Graft.Proofs.Disk.Spellings
import Graft.Proofs.Command.Selecting
import Graft.Proofs.Command.Respelling
import Graft.Proofs.Command.SameArguments
