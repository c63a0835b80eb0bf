import Graft.Declaration.Basic
import Graft.Diagnostic
import Graft.Json.Basic

/-!
# Trees as JSON

The form in which trees and diagnostics are exchanged with parsers and printers. What is empty or
missing in most declarations is left out: line annotations, the base types and modifiers of a type,
and the annotations, fold marks and abstractness of a member. The body of a member names its kind
first; a nested type puts its own parts beside that.
-/

namespace Graft

/-- A member that is left out if there is no value. -/
def optionalMember (name : String) : Option Json → List (String × Json)
  | none => []
  | some v => [(name, v)]

/-- A list of texts that is left out if it is empty. -/
def optionalTexts (name : String) (ss : List String) : List (String × Json) :=
  if ss = [] then [] else [(name, Json.texts ss)]

/-- A line annotation, which is left out if it is missing. -/
def optionalLine (name : String) (line : Option UInt64) : List (String × Json) :=
  optionalMember name (line.map fun n => Json.nat n.toNat)

/-- A flag that is left out unless it is set. -/
def optionalFlag (name : String) (flag : Bool) : List (String × Json) :=
  if flag then [(name, .bool true)] else []

/-! ### Parts of a member -/

/-- A marker: the generation marker is a word, any other attribute an object with its name. -/
def Marker.encode : Marker → Json
  | .generate => Json.text "generate"
  | .attribute name => Json.ofMembers [("attribute", Json.text name)]

/-- Fold marks. -/
def FoldMarks.encode (f : FoldMarks) : Json :=
  Json.ofMembers
    (optionalMember "opened" (f.opened.map Json.text) ++ optionalFlag "closed" f.closed)

/-- Accessors, those that are there. -/
def Accessors.encode (a : Accessors) : Json :=
  Json.ofMembers
    (optionalMember "get" (a.get.map Json.text) ++ optionalMember "set" (a.set.map Json.text))

/-- The members of a body that is not a type. -/
def Content.encodeMembers : Content → List (String × Json)
  | .field typeName comments =>
    [("kind", Json.text "field"), ("type_name", Json.text typeName),
      ("doc_comment", Json.texts comments)]
  | .method returnType signature body =>
    [("kind", Json.text "method"), ("return_type", Json.text returnType),
      ("signature", Json.texts signature), ("body", Json.text body)]
  | .constructor signature body =>
    [("kind", Json.text "constructor"), ("signature", Json.texts signature),
      ("body", Json.text body)]
  | .property typeName accessors =>
    [("kind", Json.text "property"), ("type_name", Json.text typeName),
      ("accessors", accessors.encode)]

/-- What a member says before its body. -/
def MemberHead.encodeMembers (h : MemberHead) : List (String × Json) :=
  [("name", Json.text h.name)] ++
    (if h.annotations.isEmpty then []
      else [("annotations", .array (h.annotations.toList.map Marker.encode))]) ++
    optionalLine "first_line" h.firstLine ++
    optionalFlag "is_abstract" h.isAbstract ++
    if h.fold.isEmpty then [] else [("fold", h.fold.encode)]

/-- The members of a type, the encoded member list given. -/
def TypeHeader.encodeMembers (t : TypeHeader) (members : List Json) : List (String × Json) :=
  [("name", Json.text t.name)] ++ optionalTexts "bases" t.bases ++
    optionalTexts "modifiers" t.modifiers ++ [("members", .array members)] ++
    optionalLine "first_line" t.firstLine ++ optionalLine "closing_line" t.closingLine

/-! ### Members, types, namespaces -/

mutual

/-- A member. -/
def Member.encode : Member → Json
  | .plain head content =>
    Json.ofMembers (head.encodeMembers ++ [("body", Json.ofMembers content.encodeMembers)])
  | .nested head header members =>
    Json.ofMembers (head.encodeMembers ++
      [("body", Json.ofMembers
        (("kind", Json.text "nested_type") :: header.encodeMembers (Member.encodeAll members)))])

/-- A member list. -/
def Member.encodeAll : List Member → List Json
  | [] => []
  | m :: ms => m.encode :: Member.encodeAll ms

end

@[simp]
theorem Member.encodeAll_eq_map (ms : List Member) :
    Member.encodeAll ms = ms.map Member.encode := by
  induction ms with
  | nil => rfl
  | cons m ms ih => simp [Member.encodeAll, ih]

/-- A type. -/
def TypeDecl.encode (t : TypeDecl) : Json :=
  Json.ofMembers (t.header.encodeMembers (t.members.map Member.encode))

/-- A namespace. -/
def Namespace.encode (ns : Namespace) : Json :=
  Json.ofMembers
    ([("name", Json.text ns.name), ("imports", Json.texts ns.imports),
        ("types", .array (ns.types.map TypeDecl.encode))] ++
      optionalLine "first_line" ns.firstLine ++ optionalLine "closing_line" ns.closingLine)

/-- A declaration tree. -/
def DeclarationTree.encode (tree : DeclarationTree) : Json :=
  Json.ofMembers [("namespaces", .array (tree.namespaces.map Namespace.encode))]

/-- A diagnostic. -/
def Diagnostic.encode (d : Diagnostic) : Json :=
  Json.ofMembers
    ([("severity", Json.text d.severity.text)] ++ optionalLine "line" d.line ++
      [("message", Json.text d.message)])

end Graft
