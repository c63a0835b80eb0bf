import Graft.Declaration.Identity
import Graft.Failure
import Graft.Merge.Change
import Graft.Traced

/-!
# Merging a generated tree into an existing one

The existing tree is the one that stays; what the generator made is brought into it, one member at a
time. A member that the generator owns is replaced by its new version and removed when there is none
any more. Everything else is hand-written and stays as it is. Of a type that exists on both sides,
top-level or nested, only the members are merged, never the header.
-/

namespace Graft.Merge

/-- A merge, which shows what it did. -/
abbrev Merging (α : Type) := Traced Change Failure α

/-- The path of a declaration inside another one. -/
def pathInside (parent name : String) : String :=
  if parent = "" then name else parent ++ "." ++ name

/-- The name of a namespace in the path of a change. -/
def namespaceLabel (name : String) : String :=
  if name = "" then "<global>" else name

/-! ### Members -/

/-- The new version of a member. Fold regions belong to the place, so the marks of the old version
stay if the new one has none. -/
def replacement (existing : MemberHead) (incoming : MemberHead) : MemberHead :=
  if incoming.fold.isEmpty then { incoming with fold := existing.fold } else incoming

/-- Append a generated member that has no counterpart. A hand-written member that has its name but
not its class is in the way; one that the generator owns is not, since it will be removed. -/
def insertMember (type path : String) (target : List Member) (incoming : Member) :
    Merging (List Member) :=
  match target.find? fun m => !m.isGenerated && m.clashesWith incoming with
  | some m => Traced.fail (.clash type incoming.name incoming.kind m.kind)
  | none => do
    Traced.record (.added .member path)
    pure (target ++ [incoming])

/-- Bring the new version of a member to where the old one stands. -/
def updateMember (path : String) (existing : Member) (incoming : Member) : Merging Member :=
  if existing.isGenerated then do
    Traced.record (.replaced path)
    pure (incoming.withHead (replacement existing.head incoming.head))
  else do
    Traced.record (.kept path)
    pure existing

/-- Whether the generator owns a member and does not make it any more. -/
def isStale (source : List Member) (existing : Member) : Bool :=
  existing.isGenerated && !source.any (·.isMatchFor existing)

/-- Remove the stale members. -/
def removeStale (type : String) (source target : List Member) : Merging (List Member) := do
  Traced.recordAll ((target.filter (isStale source)).map fun m =>
    .removed (pathInside type m.label))
  pure (target.filter fun m => !isStale source m)

mutual

/-- Bring one generated member into the members of a type. -/
def bringMember (type : String) (target : List Member) : Member → Merging (List Member)
  | .plain head content =>
    let incoming := Member.plain head content
    let path := pathInside type incoming.label
    match Member.locate incoming target with
    | none => insertMember type path target incoming
    | some (before, existing, after) => do
      let merged ← updateMember path existing incoming
      pure (before ++ merged :: after)
  | .nested head header members =>
    let incoming := Member.nested head header members
    let path := pathInside type incoming.label
    match Member.locate incoming target with
    | none => insertMember type path target incoming
    | some (before, .nested oldHead oldHeader oldMembers, after) => do
      let grown ← bringMembers path oldMembers members
      let merged ← removeStale path members grown
      pure (before ++ .nested oldHead oldHeader merged :: after)
    | some _ => pure target

/-- Bring generated members into the members of a type, in order. -/
def bringMembers (type : String) (target : List Member) : List Member → Merging (List Member)
  | [] => pure target
  | m :: ms => do
    let target ← bringMember type target m
    bringMembers type target ms

end

/-- Merge the members of a type: bring in the generated ones, then remove the stale ones. -/
def mergeMembers (type : String) (target source : List Member) : Merging (List Member) := do
  let grown ← bringMembers type target source
  removeStale type source grown

/-! ### Types and namespaces -/

/-- Merge a generated type into the types of a namespace: into the first one of its name, or as a
new one. -/
def bringType (ns : String) (incoming : TypeDecl) : List TypeDecl → Merging (List TypeDecl)
  | [] => do
    Traced.record (.added .typeWhole (pathInside ns incoming.header.name))
    pure [incoming]
  | t :: ts =>
    if t.header.name = incoming.header.name then do
      let members ← mergeMembers (pathInside ns incoming.header.name) t.members incoming.members
      pure ({ t with members } :: ts)
    else do
      let ts ← bringType ns incoming ts
      pure (t :: ts)

/-- Merge generated types, in order. -/
def bringTypes (ns : String) (target : List TypeDecl) : List TypeDecl → Merging (List TypeDecl)
  | [] => pure target
  | t :: ts => do
    let target ← bringType ns t target
    bringTypes ns target ts

/-- Add the imports that are not there yet, in order. -/
def bringImports (ns : String) (target : List String) : List String → Merging (List String)
  | [] => pure target
  | i :: is =>
    if i ∈ target then
      bringImports ns target is
    else do
      Traced.record (.added .importLine s!"{i} in {namespaceLabel ns}")
      bringImports ns (target ++ [i]) is

/-- Merge a generated namespace into the existing ones: into the first one of its name, or as a new
one. -/
def bringNamespace (incoming : Namespace) : List Namespace → Merging (List Namespace)
  | [] => do
    Traced.record (.added .namespaceWhole (namespaceLabel incoming.name))
    pure [incoming]
  | ns :: rest =>
    if ns.name = incoming.name then do
      let imports ← bringImports ns.name ns.imports incoming.imports
      let types ← bringTypes ns.name ns.types incoming.types
      pure ({ ns with imports, types } :: rest)
    else do
      let rest ← bringNamespace incoming rest
      pure (ns :: rest)

/-- Merge generated namespaces, in order. -/
def bringNamespaces (target : List Namespace) : List Namespace → Merging (List Namespace)
  | [] => pure target
  | ns :: rest => do
    let target ← bringNamespace ns target
    bringNamespaces target rest

/-- Merge a generated tree into an existing one. -/
def mergeTrees (existing generated : DeclarationTree) : Merging DeclarationTree := do
  let namespaces ← bringNamespaces existing.namespaces generated.namespaces
  pure { namespaces }

end Graft.Merge
