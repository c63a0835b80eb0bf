import Graft.Proofs.Command.Independence
import Graft.Proofs.Command.Respelling
import Graft.Proofs.Command.Selecting

/-!
# Batches of the same arguments

A batch is told what to merge in any order and with any overlap, and what it does is the same for
all of them: nothing is merged before the whole selection has been found to be valid, and then the
selected generated trees are merged in the order of their components, each of them once. Only the
spelling of a path that is selected in several ways depends on which of them comes first, and it is
of no account unless a path that is made from it becomes too long.
-/

namespace Graft

variable {arguments arguments' : List String} {directory : Path} {format : Format}
  {d d' : Disk Contents}

/-! ### Spellings that are selected -/

end Graft
