import Graft.Document
import Graft.Failure
import Graft.ParsedSource.Basic
import Graft.Text.Space
import Graft.Traced

/-!
# Validating a parsed tree against its document

The line annotations of a parsed tree decide which text belongs to which member, so they are
validated before use: every line exists, declarations come in the order of their lines, a type does
not close before its last member, and a member with a body has a line. A member that starts on a
blank line is odd, but no more than a warning.
-/

namespace Graft.ParsedSource

/-- A validation, which collects diagnostics. -/
abbrev Validating (α : Type) := Traced Diagnostic AnnotationFault α

/-- A line that is annotated has to exist. -/
def validateLine (d : Document) (declaration : Annotated) (line : Option UInt64) :
    Validating Unit :=
  match line with
  | none => pure ()
  | some n =>
    if n.toNat = 0 ∨ d.size < n.toNat then
      Traced.fail (.outside declaration n.toNat d.size)
    else
      pure ()

/-- Whether a line exists and holds nothing but white space. -/
def isBlankLine (d : Document) (line : Nat) : Bool :=
  (d.line? line).any fun l => (Text.trim l.toList).isEmpty

/-- The warning for a member that starts on a blank line. -/
def blankLineWarning (member : String) (line : UInt64) : Diagnostic :=
  .warning (some line) s!"member `{member}` is annotated with a blank line"

/-- The head of a member that comes after a member on line `previous`. The result is the line of
the last member so far. -/
def validateHead (d : Document) (type : String) (previous : Option Nat) (head : MemberHead) :
    Validating (Option Nat) :=
  match head.firstLine with
  | none =>
    if head.isAbstract then pure previous else Traced.fail (.missingLine head.name type)
  | some line => do
    validateLine d (.memberNamed head.name) (some line)
    match previous with
    | some before =>
      if line.toNat ≤ before then
        Traced.fail (.memberOutOfOrder head.name type line.toNat before)
      else
        pure ()
    | none => pure ()
    if isBlankLine d line.toNat then
      Traced.record (blankLineWarning head.name line)
    else
      pure ()
    pure (some line.toNat)

/-- The closing line of a type whose last member is on line `last`. -/
def validateClosing (header : TypeHeader) (last : Option Nat) : Validating Unit :=
  match header.closingLine, last with
  | some line, some last =>
    if line.toNat ≤ last then
      Traced.fail (.closesTooEarly header.name line.toNat last)
    else
      pure ()
  | _, _ => pure ()

mutual

/-- A member that comes after a member on line `previous`, with everything inside it. A nested type
without a line is not looked into. -/
def validateMember (d : Document) (type : String) (previous : Option Nat) :
    Member → Validating (Option Nat)
  | .plain head _ => validateHead d type previous head
  | .nested head header members => do
    let reached ← validateHead d type previous head
    if head.firstLine.isSome then
      validateLine d (.typeNamed header.name) header.closingLine
      let last ← validateMembers d header.name none members
      validateClosing header last
    else
      pure ()
    pure reached

/-- Members in order. -/
def validateMembers (d : Document) (type : String) (previous : Option Nat) :
    List Member → Validating (Option Nat)
  | [] => pure previous
  | m :: ms => do
    let reached ← validateMember d type previous m
    validateMembers d type reached ms

end

/-- A type with its members. -/
def validateType (d : Document) (type : TypeDecl) : Validating Unit := do
  validateLine d (.typeNamed type.header.name) type.header.closingLine
  let last ← validateMembers d type.header.name none type.members
  validateClosing type.header last

/-- The types of a namespace in order, the last one before them on line `previous`. -/
def validateTypes (d : Document) (previous : Option Nat) : List TypeDecl → Validating Unit
  | [] => pure ()
  | t :: ts => do
    validateLine d (.typeNamed t.header.name) t.header.firstLine
    match previous, t.header.firstLine with
    | some before, some line =>
      if line.toNat ≤ before then
        Traced.fail (.typeOutOfOrder t.header.name line.toNat)
      else
        pure ()
    | _, _ => pure ()
    validateType d t
    validateTypes d ((t.header.firstLine.map UInt64.toNat).or previous) ts

/-- Namespaces in order. -/
def validateNamespaces (d : Document) : List Namespace → Validating Unit
  | [] => pure ()
  | ns :: rest => do
    validateLine d (.namespaceNamed ns.name) ns.closingLine
    validateTypes d none ns.types
    validateNamespaces d rest

/-- The tree of a parsed source, if its annotations fit the document. The diagnostics are those of
the parser and then the warnings of the validation. -/
def validate (parsed : ParsedSource) (d : Document) : Validating DeclarationTree := do
  Traced.recordAll parsed.diagnostics
  validateNamespaces d parsed.tree.namespaces
  pure parsed.tree

end Graft.ParsedSource
