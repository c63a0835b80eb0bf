import Graft.Recovery.AccessorClauses
import Graft.Recovery.Body
import Graft.Source.Comment
import Graft.Traced

/-!
# Recovering a tree

A parsed tree says where each member starts, but its bodies are not the source's text. This module
fills them in from the document: the bodies of callables, the accessors of properties and the
comments of fields, in all types and at every depth. An abstract member has no body, and may lack a
line; any other member must have one.
-/

namespace Graft.Recovery

/-- A member whose text is being recovered. -/
structure Step where
  member : String
  kind : MemberKind
  start : Nat
  stop : Nat
  /-- How many types enclose the member's own. -/
  depth : Nat
deriving DecidableEq, Repr

/-- A computation that shows which members it went through. -/
abbrev Recovering (α : Type) := Traced Step Failure α

/-! ### Members -/

/-- Recover the text of a member that is not a type. -/
def recoverContent (d : Document) (extent : Extent) (head : MemberHead) :
    Content → Except Failure (MemberHead × Content)
  | .field typeName _ => .ok (head, .field typeName (Source.commentsAbove d extent.start))
  | .method returnType signature _ =>
    if head.isAbstract then
      .ok (head, .method returnType signature "")
    else do
      let body ← recoverBody d extent head.name
      pure ({ head with fold := body.fold }, .method returnType signature body.text)
  | .constructor signature _ =>
    if head.isAbstract then
      .ok (head, .constructor signature "")
    else do
      let body ← recoverBody d extent head.name
      pure ({ head with fold := body.fold }, .constructor signature body.text)
  | .property typeName _ =>
    if head.isAbstract then
      .ok (head, .property typeName {})
    else do
      let body ← recoverBody d extent head.name
      let accessors ← recoverAccessors body.text head.name extent.start
      pure ({ head with fold := body.fold }, .property typeName accessors)

/-- The first member that must have a line and has none. -/
def missingLine? (members : List Member) : Option Member :=
  members.find? fun m => m.firstLine?.isNone && !m.head.isAbstract

/-- The extents of the members that have a line. -/
def extentsOf (bound : TypeEnd) (members : List Member) : List Extent :=
  Extent.tiling bound (members.filterMap Member.firstLine?)

mutual

/-- Recover the text of one member from its extent. -/
def recoverMember (d : Document) (depth : Nat) (extent : Extent) : Member → Recovering Member
  | .plain head content => do
    Traced.record ⟨head.name, (Member.plain head content).kind, extent.start, extent.stop, depth⟩
    let (head, content) ← Traced.ofExcept (recoverContent d extent head content)
    pure (.plain head content)
  | .nested head header members => do
    Traced.record ⟨head.name, .nestedType, extent.start, extent.stop, depth⟩
    match missingLine? members with
    | some m => Traced.fail (.parsedTree (.missingLine m.name header.name))
    | none =>
      let bound := extent.innerEnd (header.closingLine.map UInt64.toNat)
      let members ← recoverLocated d (depth + 1) (extentsOf bound members) members
      pure (.nested head header members)

/-- Recover the text of the members that have a line, each from the next of the extents. -/
def recoverLocated (d : Document) (depth : Nat) (extents : List Extent) :
    List Member → Recovering (List Member)
  | [] => pure []
  | m :: ms =>
    match m.firstLine?, extents with
    | some _, extent :: extents => do
      let m ← recoverMember d depth extent m
      let ms ← recoverLocated d depth extents ms
      pure (m :: ms)
    | _, _ => do
      let ms ← recoverLocated d depth extents ms
      pure (m :: ms)

end

/-! ### Types and namespaces -/

/-- Recover the members of a type that ends as given. -/
def recoverMembers (d : Document) (depth : Nat) (bound : TypeEnd) (type : String)
    (members : List Member) : Recovering (List Member) :=
  match missingLine? members with
  | some m => Traced.fail (.parsedTree (.missingLine m.name type))
  | none => recoverLocated d depth (extentsOf bound members) members

/-- A nested type is recovered as any other type, one level deeper. -/
theorem recoverMember_nested (d : Document) (depth : Nat) (extent : Extent) (head : MemberHead)
    (header : TypeHeader) (members : List Member) :
    recoverMember d depth extent (.nested head header members) =
      Traced.record ⟨head.name, .nestedType, extent.start, extent.stop, depth⟩ >>= fun _ =>
        recoverMembers d (depth + 1) (extent.innerEnd (header.closingLine.map UInt64.toNat))
          header.name members >>= fun members => pure (.nested head header members) := by
  rw [recoverMember, recoverMembers]
  cases missingLine? members <;> rfl

/-- How a type ends: on its closing line if that is known, else before the next type of its
namespace, else where the namespace does. -/
def typeEnd (type : TypeDecl) (next : Option TypeDecl) (namespaceStop namespaceScopes : Nat) :
    TypeEnd :=
  match type.header.closingLine, next.bind (·.header.firstLine) with
  | some line, _ => .onLine line.toNat
  | none, some line => .before line.toNat 1
  | none, none => .before namespaceStop (1 + namespaceScopes)

/-- Recover the types of a namespace whose last type ends before line `stop`, after that many
scopes besides its own. -/
def recoverTypes (d : Document) (stop scopes : Nat) : List TypeDecl → Recovering (List TypeDecl)
  | [] => pure []
  | t :: ts => do
    let members ← recoverMembers d 0 (typeEnd t ts.head? stop scopes) t.header.name t.members
    let ts ← recoverTypes d stop scopes ts
    pure ({ t with members } :: ts)

/-- Where the last type of a namespace ends at the latest, and how many scopes besides the type's
own close before: none if the line of the closing brace is known, else the namespace's own. -/
def namespaceEnd (d : Document) (ns : Namespace) (next : Option Namespace) : Nat × Nat :=
  match ns.closingLine with
  | some line => (line.toNat, 0)
  | none =>
    let stop := match next.bind (·.firstLine) with
      | some line => line.toNat
      | none => d.size + 1
    (stop, if ns.isBraced then 1 else 0)

/-- Recover the types of all namespaces. -/
def recoverNamespaces (d : Document) : List Namespace → Recovering (List Namespace)
  | [] => pure []
  | ns :: rest => do
    let (stop, scopes) := namespaceEnd d ns rest.head?
    let types ← recoverTypes d stop scopes ns.types
    let rest ← recoverNamespaces d rest
    pure ({ ns with types } :: rest)

/-- Fill a parsed tree with the text of its document. -/
def recoverTree (d : Document) (tree : DeclarationTree) : Recovering DeclarationTree := do
  let namespaces ← recoverNamespaces d tree.namespaces
  pure { namespaces }

end Graft.Recovery
