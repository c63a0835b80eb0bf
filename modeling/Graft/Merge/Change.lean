/-!
# What a merge did

One record for each declaration that a merge added, replaced, kept against the generator, or
removed, with the path of the declaration.
-/

namespace Graft

/-- What can be added. -/
inductive Addition where
  | namespaceWhole
  | importLine
  | typeWhole
  | member
deriving DecidableEq, Repr, Inhabited

/-- The words in front of the path of an addition. -/
def Addition.text : Addition → String
  | .namespaceWhole => "namespace "
  | .importLine => "import "
  | .typeWhole => "type "
  | .member => ""

/-- A change, or a decision not to change. -/
inductive Change where
  /-- A generated declaration without an existing counterpart went in. -/
  | added (what : Addition) (path : String)
  /-- An existing member that the generator owns was replaced. -/
  | replaced (path : String)
  /-- A hand-written member was kept although the generator has a counterpart. -/
  | kept (path : String)
  /-- An existing member that the generator owns, but no longer makes, went out. -/
  | removed (path : String)
deriving DecidableEq, Repr, Inhabited

namespace Change

/-- The path of the declaration. -/
def path : Change → String
  | .added _ p | .replaced p | .kept p | .removed p => p

/-- The change as a line of text. -/
def text : Change → String
  | .added what p => s!"added {what.text}{p}"
  | .replaced p => s!"regenerated {p}"
  | .kept p => s!"kept hand-written {p}"
  | .removed p => s!"removed stale {p}"

/-- Whether something came in. -/
def isAddition : Change → Bool
  | .added .. => true
  | _ => false

/-- Whether a member was replaced. -/
def isReplacement : Change → Bool
  | .replaced _ => true
  | _ => false

/-- Whether a hand-written member was kept. -/
def isRetention : Change → Bool
  | .kept _ => true
  | _ => false

/-- Whether a member went out. -/
def isRemoval : Change → Bool
  | .removed _ => true
  | _ => false

/-- The changes of a merge as a tally in one line. -/
def tally (changes : List Change) : String :=
  s!"{changes.countP isAddition} added, {changes.countP isReplacement} regenerated, " ++
    s!"{changes.countP isRetention} kept, {changes.countP isRemoval} removed"

end Change

end Graft
