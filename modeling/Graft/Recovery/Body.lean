import Graft.Document
import Graft.Failure
import Graft.Source.LineKind
import Graft.Source.Extent

/-!
# Bodies

The text between the outer braces of a member. The opening brace is the first one in the member's
lines. The closing brace is found from the end: after it come only lines that belong to no body, and
the closing braces of the scopes that end with the member. Fold markers among those lines are
remembered.

Lines are handled from the last one to the first, so that the end of the text is the head of the
list.
-/

namespace Graft.Recovery

open Source Text

/-- A line of the source without its line end. -/
abbrev Line := List Char

/-- The text of a member's body, and the fold regions that open or close after it. -/
structure Body where
  text : String
  fold : FoldMarks := {}
deriving DecidableEq, Repr

/-! ### The end of a body -/

/-- The fold marks together with what the line marks. Lines come from the last to the first, so the
region that opens nearest to the body is the one that stays. -/
def noteFold (fold : FoldMarks) (line : Line) : FoldMarks :=
  match lineKind line with
  | .foldClosing => fold.closing
  | .foldOpening name => fold.opening (String.ofList name)
  | _ => fold

/-- The lines without those at the end that belong to no body; what is dropped leaves its fold
marks. -/
def dropNoise (fold : FoldMarks) : List Line → List Line × FoldMarks
  | [] => ([], fold)
  | line :: rest =>
    if isNoise line then dropNoise (noteFold fold line) rest else (line :: rest, fold)

/-- What stands before the last closing brace of a line. -/
def beforeLastBrace? (line : Line) : Option Line :=
  match line.reverse.dropWhile (· != '}') with
  | [] => none
  | _ :: before => some before.reverse

/-- The lines without the closing brace on the last one: a line that holds nothing else goes as a
whole, any other loses what follows its last closing brace as well. -/
def dropBrace? : List Line → Option (List Line)
  | [] => none
  | line :: rest =>
    if trim line = ['}'] then
      some rest
    else
      (beforeLastBrace? line).map (· :: rest)

/-- The lines without the closing braces of that many scopes, and without what follows each. -/
def dropScopes? (fold : FoldMarks) : Nat → List Line → Option (List Line × FoldMarks)
  | 0, lines => some (lines, fold)
  | scopes + 1, lines =>
    let (kept, fold) := dropNoise fold lines
    match dropBrace? kept with
    | none => none
    | some rest => dropScopes? fold scopes rest

/-! ### The body -/

/-- What follows the first opening brace. -/
def afterBrace? (s : List Char) : Option (List Char) :=
  match s.dropWhile (· != '{') with
  | [] => none
  | _ :: rest => some rest

/-- The text of a body from its lines: blank lines at its start and white space at its end are not
part of it. -/
def bodyText (lines : List Line) : List Char :=
  trimEnd (joinLines (lines.dropWhile isBlank))

/-- The text between the outer braces of the member that has these lines. -/
def bodyOfLines (lines : List Line) (scopes : Nat) : Except BodyFault Body :=
  match afterBrace? (joinLines lines) with
  | none => .error .noOpeningBrace
  | some rest =>
    match dropScopes? {} (scopes + 1) (pieces rest).reverse with
    | none => .error .noClosingBrace
    | some (kept, fold) => .ok { text := String.ofList (bodyText kept.reverse), fold }

/-- Recover the body of a member from its lines in the document. A missing opening brace is
reported on the member's first line, a missing closing brace on its last. -/
def recoverBody (d : Document) (extent : Extent) (member : String) : Except Failure Body :=
  match bodyOfLines ((d.between extent.start extent.stop).map String.toList)
      extent.trailingScopes with
  | .ok body => .ok body
  | .error .noOpeningBrace => .error (.body member extent.start .noOpeningBrace)
  | .error fault => .error (.body member extent.endLine fault)

end Graft.Recovery
