import Graft.Declaration.Basic

/-!
# Why a renewal fails

Each way in which the renewal of one artifact can fail, and the message for it. A failure
leaves nothing to write for the artifact.
-/

namespace Graft

/-- Why the text of a member could not be recovered from the source. -/
inductive BodyFault where
  /-- No opening brace in the member's lines. -/
  | noOpeningBrace
  /-- Fewer closing braces at the end of the member's lines than scopes end there. -/
  | noClosingBrace
  /-- After an accessor keyword comes neither a block nor a semicolon. -/
  | noAccessorBody (keyword : String)
  /-- The block of an accessor does not end. -/
  | unendedAccessor (keyword : String)
deriving DecidableEq, Repr

/-- The wording of a fault. -/
def BodyFault.message : BodyFault → String
  | .noOpeningBrace => "could not find opening brace"
  | .noClosingBrace => "could not find closing brace"
  | .noAccessorBody keyword => "expected `\x7b` or `;` after `" ++ keyword ++ "`"
  | .unendedAccessor keyword => s!"unterminated `{keyword}` accessor"

/-- What a line annotation is about. -/
inductive Annotated where
  | namespaceNamed (name : String)
  | typeNamed (name : String)
  | memberNamed (name : String)
deriving DecidableEq, Repr

/-- The wording for the annotated declaration. -/
def Annotated.text : Annotated → String
  | .namespaceNamed name => s!"namespace `{name}`"
  | .typeNamed name => s!"type `{name}`"
  | .memberNamed name => s!"member `{name}`"

/-- Why the annotations of a parsed tree do not fit its document. -/
inductive AnnotationFault where
  /-- The parsed tree is not readable at all. -/
  | unreadable
  /-- A line number outside the document. -/
  | outside (declaration : Annotated) (line size : Nat)
  /-- A type that does not start after the type before it. -/
  | typeOutOfOrder (type : String) (line : Nat)
  /-- A member with a body but without a line. -/
  | missingLine (member type : String)
  /-- A member that does not start after the member before it. -/
  | memberOutOfOrder (member type : String) (line previous : Nat)
  /-- A type that closes before its last member. -/
  | closesTooEarly (type : String) (line last : Nat)
deriving DecidableEq, Repr

/-- The wording of a fault. -/
def AnnotationFault.message : AnnotationFault → String
  | .unreadable => "invalid tree file"
  | .outside declaration line size =>
    s!"{declaration.text} refers to line {line}, but the document has {size} lines"
  | .typeOutOfOrder type line =>
    s!"type `{type}` starts at line {line}, before the type preceding it"
  | .missingLine member type => s!"member `{member}` of `{type}` has no line annotation"
  | .memberOutOfOrder member type line previous =>
    s!"member `{member}` of `{type}` starts at line {line}, not after its previous sibling " ++
      s!"(line {previous})"
  | .closesTooEarly type line last =>
    s!"type `{type}` closes at line {line}, before its last member (line {last})"

/-- Why a renewal failed. -/
inductive Failure where
  /-- The text of a member could not be recovered. -/
  | body (member : String) (line : Nat) (fault : BodyFault)
  /-- A generated member and a hand-written one share a name but are of different classes. -/
  | clash (type member : String) (generated existing : MemberKind)
  /-- The parsed tree does not fit the document. -/
  | parsedTree (fault : AnnotationFault)
deriving DecidableEq, Repr

/-- The message of a failure. -/
def Failure.message : Failure → String
  | .body member line fault => s!"malformed body for `{member}` at line {line}: {fault.message}"
  | .clash type member generated existing =>
    s!"cannot merge `{member}` into type `{type}`: " ++
      s!"generated {generated.text} clashes with existing {existing.text}"
  | .parsedTree fault => s!"parse error: {fault.message}"

end Graft
