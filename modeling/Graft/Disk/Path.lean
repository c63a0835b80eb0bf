/-!
# Paths

A path is kept as it is written, because messages show it so. Two paths that differ only in
repeated slashes or in dots that stay where they are have the same components, and paths are
ordered by their components.
-/

namespace Graft

/-- A path as it is written. -/
structure Path where
  text : String
deriving DecidableEq, Repr, Inhabited

/-- A part of a path. -/
inductive Component where
  /-- The slash at the start. -/
  | root
  /-- A dot at the start. -/
  | current
  | parent
  | normal (name : String)
deriving DecidableEq, Repr

namespace Component

/-- The place of a kind of component in the order. -/
def rank : Component → Nat
  | .root => 0
  | .current => 1
  | .parent => 2
  | .normal _ => 3

/-- The name of a component that has one. -/
def name : Component → String
  | .normal name => name
  | _ => ""

/-- The order of components: by kind, then by name. -/
def isLess (a b : Component) : Bool :=
  a.rank < b.rank || (a.rank == b.rank && a.name < b.name)

/-- The component that a part between slashes stands for, unless it means to stay. -/
def ofPiece? (piece : String) : Option Component :=
  if piece = "" ∨ piece = "." then none
  else if piece = ".." then some .parent
  else some (.normal piece)

end Component

namespace Path

/-- The parts of the text between slashes. -/
def pieces (p : Path) : List String :=
  (p.text.toList.splitOn '/').map String.ofList

/-- Whether the path starts at the root. -/
def isAbsolute (p : Path) : Bool :=
  p.text.toList.head? = some '/'

/-- The components. -/
def components (p : Path) : List Component :=
  let start :=
    if p.isAbsolute then [Component.root]
    else if p.pieces.head? = some "." then [.current]
    else []
  start ++ p.pieces.filterMap Component.ofPiece?

/-- The order of component lists. -/
def componentsLe : List Component → List Component → Bool
  | [], _ => true
  | _ :: _, [] => false
  | a :: as, b :: bs => a.isLess b || (a == b && componentsLe as bs)

/-- The order of paths. -/
def le (p q : Path) : Bool :=
  componentsLe p.components q.components

/-- The last component, if it is a name. -/
def fileName? (p : Path) : Option String :=
  match p.components.getLast? with
  | some (.normal name) => some name
  | _ => none

/-- A path inside this one. A path from the root stays as it is. -/
def join (p : Path) (inner : String) : Path :=
  if inner.toList.head? = some '/' then ⟨inner⟩
  else if p.text = "" ∨ p.text.toList.getLast? = some '/' then ⟨p.text ++ inner⟩
  else ⟨p.text ++ "/" ++ inner⟩

/-- The parts, from the last to the first, without those at the end that mean to stay. The first
part of all is never dropped. -/
def dropStaying : List String → List String
  | piece :: next :: rest =>
    if piece = "" ∨ piece = "." then dropStaying (next :: rest) else piece :: next :: rest
  | ps => ps

/-- The path without its last component. -/
def parent (p : Path) : Path :=
  match dropStaying (dropStaying p.pieces.reverse).tail with
  | [""] => ⟨"/"⟩
  | ps => ⟨"/".intercalate ps.reverse⟩

/-- A path and what is left of it when its last components are dropped, as many as counted. -/
def ancestorsUpTo : (count : Nat) → Path → List Path
  | 0, _ => []
  | count + 1, p => p :: ancestorsUpTo count p.parent

/-- The path, its parent, and so on, down to the one with a single component. -/
def ancestors (p : Path) : List Path :=
  ancestorsUpTo p.components.length p

/-- The path with another name in place of its last one. -/
def withFileName (p : Path) (name : String) : Path :=
  if p.fileName?.isSome then p.parent.join name else p.join name

/-- Drop each path that has the components of the one kept before it. -/
def dropRepeats (kept : Path) : List Path → List Path
  | [] => []
  | p :: ps =>
    if p.components = kept.components then dropRepeats kept ps else p :: dropRepeats p ps

/-- Paths in order, each one once: of several with the same components the first one stays. -/
def sortedOnce (ps : List Path) : List Path :=
  match ps.mergeSort le with
  | [] => []
  | p :: ps => p :: dropRepeats p ps

end Path

end Graft
