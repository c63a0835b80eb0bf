import Graft.Disk.Path
import Mathlib.Data.List.Basic

/-!
# Names in paths

The last component of a path, and the parts of a path that is made by adding a name to another one.
-/

namespace Graft

namespace Path

/-! ### Parts -/

end Path

end Graft
