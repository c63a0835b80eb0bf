import Graft.Declaration.Basic
import Graft.Text.Lines

/-!
# Outlines

A tree as a Markdown outline for people: a heading for each namespace and each of its types, a
bullet for each member, and the members of a nested type indented below its bullet.
-/

namespace Graft.Outline

/-- The header of a type: modifiers, name, base types. -/
def heading (t : TypeHeader) : String :=
  String.join (t.modifiers.map (· ++ " ")) ++ t.name ++
    if t.bases = [] then "" else " : " ++ ", ".intercalate t.bases

/-- The accessors that are there. -/
def accessorWords (a : Accessors) : String :=
  (if a.get.isSome then "get; " else "") ++ if a.set.isSome then "set; " else ""

/-- The size of a body in lines, if it has any. -/
def bodySize (body : Option String) : String :=
  match (body.map fun b => (Text.lines b.toList).length).getD 0 with
  | 0 => ""
  | 1 => " (1 line)"
  | n => s!" ({n} lines)"

/-- What a member is. -/
def declaration : Member → String
  | .plain head (.field typeName _) => s!"field `{typeName} {head.name}`"
  | .plain head (.method returnType signature _) =>
    s!"method `{returnType} {head.name}(" ++ ", ".intercalate signature ++ ")`"
  | .plain head (.constructor signature _) =>
    s!"constructor `{head.name}(" ++ ", ".intercalate signature ++ ")`"
  | .plain head (.property typeName accessors) =>
    s!"property `{typeName} {head.name} \x7b " ++ accessorWords accessors ++ "\x7d`"
  | .nested _ header _ => "nested type `" ++ heading header ++ "`"

/-- The text of a member's bullet. -/
def bullet (m : Member) : String :=
  declaration m ++ (if m.head.isAbstract then " _abstract_" else "") ++
    (if m.isGenerated then " _(generated)_" else "") ++ bodySize m.body?

mutual

/-- The bullets of a member. -/
def bullets (depth : Nat) : Member → List String
  | .plain head content =>
    [String.ofList (List.replicate (2 * depth) ' ') ++ "- " ++ bullet (.plain head content)]
  | .nested head header members =>
    (String.ofList (List.replicate (2 * depth) ' ') ++ "- " ++
      bullet (.nested head header members)) :: allBullets (depth + 1) members

/-- The bullets of a member list. -/
def allBullets (depth : Nat) : List Member → List String
  | [] => []
  | m :: ms => bullets depth m ++ allBullets depth ms

end

/-- The section of a type. -/
def typeSection (t : TypeDecl) : String :=
  "## " ++ heading t.header ++ "\n\n" ++
    (if t.members.isEmpty then "_No members._" else "\n".intercalate (allBullets 0 t.members)) ++
    "\n\n"

/-- The section of a namespace. -/
def namespaceSection (ns : Namespace) : String :=
  (if ns.name = "" then "# Global namespace\n\n" else "# " ++ ns.name ++ "\n\n") ++
    (if ns.imports = [] then ""
      else "Imports: " ++ ", ".intercalate (ns.imports.map fun i => s!"`{i}`") ++ "\n\n") ++
    String.join (ns.types.map typeSection)

/-- The outline of a tree. -/
def ofTree (tree : DeclarationTree) : String :=
  String.join (tree.namespaces.map namespaceSection)

end Graft.Outline
