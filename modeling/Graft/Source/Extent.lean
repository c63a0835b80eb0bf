/-!
# Extents

Which lines the text of each member takes. A member runs from its first line to the line before the
next member; the last one runs to the end of its type. The line of the closing brace of a type may
be unknown: then the last member's extent reaches to the next thing whose line is known, and takes
in the closing braces of the scopes that end on the way.
-/

namespace Graft

/-- How the text of a type ends. -/
inductive TypeEnd where
  /-- The closing brace stands on this line. -/
  | onLine (line : Nat)
  /-- The text ends somewhere before line `stop`, after the closing braces of that many scopes. -/
  | before (stop scopes : Nat)
deriving DecidableEq, Repr

/-- The lines of one member: from `start` on and before `stop`. -/
structure Extent where
  start : Nat
  stop : Nat
  /-- Whether the member is the last one of its type. -/
  isLast : Bool := false
  /-- How many enclosing scopes close inside the extent after the member itself. -/
  scopes : Nat := 0
deriving DecidableEq, Repr

namespace Extent

/-- The last line of the extent; an empty one has its first line there. -/
def endLine (x : Extent) : Nat :=
  max (x.stop - 1) x.start

/-- How many closing braces of enclosing scopes follow the member's own: only a last member has
any. -/
def trailingScopes (x : Extent) : Nat :=
  if x.isLast then x.scopes else 0

/-- How the type ends that is declared over this extent. -/
def innerEnd (x : Extent) (closingLine : Option Nat) : TypeEnd :=
  match closingLine with
  | some line => .onLine line
  | none => .before x.stop (x.scopes + 1)

/-- The extent of the last member of a type. -/
def ofLast (start : Nat) : TypeEnd → Extent
  | .onLine line => { start, stop := line, isLast := true }
  | .before stop scopes => { start, stop, isLast := true, scopes }

/-- The extents of the members that start on the given lines, in order. -/
def tiling (bound : TypeEnd) : List Nat → List Extent
  | [] => []
  | [start] => [ofLast start bound]
  | start :: next :: rest => { start, stop := next } :: tiling bound (next :: rest)

@[simp]
theorem tiling_nil (bound : TypeEnd) : tiling bound [] = [] := rfl

@[simp]
theorem tiling_singleton (bound : TypeEnd) (start : Nat) :
    tiling bound [start] = [ofLast start bound] := rfl

@[simp]
theorem tiling_cons_cons (bound : TypeEnd) (start next : Nat) (rest : List Nat) :
    tiling bound (start :: next :: rest) =
      { start, stop := next } :: tiling bound (next :: rest) := rfl

/-- Each member has one extent, and the extent starts where the member does. -/
theorem map_start_tiling (bound : TypeEnd) (starts : List Nat) :
    (tiling bound starts).map Extent.start = starts := by
  induction starts with
  | nil => rfl
  | cons s rest ih =>
    cases rest with
    | nil => cases bound <;> rfl
    | cons n rest => simpa using ih

end Extent

end Graft
