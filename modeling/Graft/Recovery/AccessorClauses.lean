import Graft.Failure
import Graft.Text.Space
import Graft.Text.Word

/-!
# Accessor clauses

The text between the outer braces of a property starts with the clause of one accessor: its keyword,
then a block in braces, or a semicolon for an accessor without a body of its own. A getter may be
followed by a setter. What comes after is not looked at.
-/

namespace Graft.Recovery

open Text

/-- What follows a keyword that stands alone at the start of a text. -/
def afterKeyword? (keyword text : List Char) : Option (List Char) :=
  if keyword.isPrefixOf text then
    match text.drop keyword.length with
    | [] => some []
    | c :: cs => if isAlphanumeric c || c == '_' then none else some (c :: cs)
  else
    none

/-- Split a text at the closing brace that ends the block it starts in. `depth` counts the blocks
opened since, `seen` is what was read of the block so far, the last character first. -/
def splitBlock? (depth : Nat) (seen : List Char) : List Char → Option (List Char × List Char)
  | [] => none
  | c :: cs =>
    if c = '}' then
      match depth with
      | 0 => some (seen.reverse, cs)
      | depth + 1 => splitBlock? depth (c :: seen) cs
    else if c = '{' then
      splitBlock? (depth + 1) (c :: seen) cs
    else
      splitBlock? depth (c :: seen) cs

/-- The body of an accessor from what follows its keyword, and the text after its clause. -/
def accessorBody (keyword : String) (text : List Char) :
    Except BodyFault (List Char × List Char) :=
  match trimStart text with
  | ';' :: rest => .ok ([], rest)
  | '{' :: inner =>
    match splitBlock? 0 [] inner with
    | some (block, rest) => .ok (trim block, rest)
    | none => .error (.unendedAccessor keyword)
  | _ => .error (.noAccessorBody keyword)

/-- The accessors of a property from the text between its braces. -/
def accessorsOf (text : List Char) : Except BodyFault Accessors :=
  match afterKeyword? "get".toList (trimStart text) with
  | some afterGet => do
    let (get, rest) ← accessorBody "get" afterGet
    match afterKeyword? "set".toList (trimStart rest) with
    | some afterSet => do
      let (set, _) ← accessorBody "set" afterSet
      pure { get := some (String.ofList get), set := some (String.ofList set) }
    | none => pure { get := some (String.ofList get) }
  | none =>
    match afterKeyword? "set".toList (trimStart text) with
    | some afterSet => do
      let (set, _) ← accessorBody "set" afterSet
      pure { set := some (String.ofList set) }
    | none => pure {}

/-- Split the text between the braces of a property; a fault is reported on the given line. -/
def recoverAccessors (text : String) (member : String) (line : Nat) : Except Failure Accessors :=
  (accessorsOf text.toList).mapError (.body member line)

end Graft.Recovery
