import Graft.Disk.Basic

/-!
# File name patterns

A pattern selects files by their paths. In a part between slashes, an asterisk stands for any text,
a question mark for any character, and brackets for a character among those listed, or for one not
among them if an exclamation mark comes first. Two asterisks that are a part of their own stand for
any number of directories.
-/

namespace Graft

/-! ### Reading a pattern -/

/-- What is wrong with a pattern. -/
inductive PatternProblem where
  | wildcards
  | recursiveWildcards
  | range
deriving DecidableEq, Repr

/-- A problem and the position of the character where it shows. -/
structure PatternError where
  position : Nat
  problem : PatternProblem
deriving DecidableEq, Repr

/-- The message for a pattern error. -/
def PatternError.message (e : PatternError) : String :=
  s!"Pattern syntax error near position {e.position}: " ++
    match e.problem with
    | .wildcards => "wildcards are either regular `*` or recursive `**`"
    | .recursiveWildcards => "recursive wildcards must form a single path component"
    | .range => "invalid range pattern"

/-- An entry in brackets: a character, or all from one to another. -/
structure CharRange where
  first : Char
  last : Char
deriving DecidableEq, Repr

/-- A piece of a pattern. -/
inductive PatternToken where
  | char (c : Char)
  | anyChar
  | anyText
  | anyDirectories
  | among (ranges : List CharRange)
  | notAmong (ranges : List CharRange)
deriving DecidableEq, Repr

namespace Pattern

/-- The entries between brackets. -/
def charRanges : List Char → List CharRange
  | a :: '-' :: b :: rest => ⟨a, b⟩ :: charRanges rest
  | a :: rest => ⟨a, a⟩ :: charRanges rest
  | [] => []

/-- Split what follows an opening bracket at the bracket that closes it. The first character in the
brackets, or the first one after the exclamation mark, is never the closing one. -/
def splitBrackets? : List Char → Option (PatternToken × List Char)
  | '!' :: c :: rest =>
    (close? rest).map fun (cs, rest) => (.notAmong (charRanges (c :: cs)), rest)
  | '!' :: [] => none
  | c :: rest => (close? rest).map fun (cs, rest) => (.among (charRanges (c :: cs)), rest)
  | [] => none
where
  /-- The characters before the first closing bracket, and those after it. -/
  close? (s : List Char) : Option (List Char × List Char) :=
    match s.dropWhile (· != ']') with
    | [] => none
    | _ :: rest => some (s.takeWhile (· != ']'), rest)

/-- The tokens of a pattern of which `length` characters are still to be read, if that is enough.
-/
def tokensFrom : (fuel position : Nat) → (previous : Option Char) → List Char →
    Except PatternError (List PatternToken)
  | 0, _, _, _ => .ok []
  | _ + 1, _, _, [] => .ok []
  | fuel + 1, position, previous, '*' :: rest =>
    match rest with
    | '*' :: '*' :: _ => .error ⟨position + 2, .wildcards⟩
    | '*' :: rest =>
      if position ≠ 0 ∧ previous ≠ some '/' then
        .error ⟨position - 1, .recursiveWildcards⟩
      else
        match rest with
        | [] => .ok [.anyDirectories]
        | '/' :: rest =>
          (tokensFrom fuel (position + 3) (some '/') rest).map (.anyDirectories :: ·)
        | _ => .error ⟨position + 2, .recursiveWildcards⟩
    | rest => (tokensFrom fuel (position + 1) (some '*') rest).map (.anyText :: ·)
  | fuel + 1, position, _, '?' :: rest =>
    (tokensFrom fuel (position + 1) (some '?') rest).map (.anyChar :: ·)
  | fuel + 1, position, _, '[' :: rest =>
    match splitBrackets? rest with
    | none => .error ⟨position, .range⟩
    | some (token, after) =>
      (tokensFrom fuel (position + 1 + (rest.length - after.length)) (some ']') after).map
        (token :: ·)
  | fuel + 1, position, _, c :: rest =>
    (tokensFrom fuel (position + 1) (some c) rest).map (.char c :: ·)

/-- The tokens of a pattern. -/
def tokens (s : List Char) : Except PatternError (List PatternToken) :=
  tokensFrom s.length 0 none s

/-- The text that a pattern stands for, if it stands for one text only. -/
def literal? : List PatternToken → Option String
  | [] => some ""
  | .char c :: rest => (literal? rest).map (String.singleton c ++ ·)
  | _ => none

/-- A part between slashes. -/
inductive Part where
  /-- Exactly this name. -/
  | name (s : String)
  | tokens (ts : List PatternToken)
  | anyDirectories
deriving DecidableEq, Repr

/-- The part with these tokens. -/
def Part.ofTokens (ts : List PatternToken) : Part :=
  if ts = [.anyDirectories] then .anyDirectories
  else
    match literal? ts with
    | some s => .name s
    | none => .tokens ts

/-- The parts of a pattern. The pattern has to be right as a whole and in each part. -/
def parts (pattern : String) : Except PatternError (List Part) := do
  let _ ← tokens pattern.toList
  let pieces := match pattern.toList.splitOn '/' with
    | [] => [[]]
    | [piece] => [piece]
    | pieces => if pieces.getLast? = some [] then pieces.dropLast else pieces
  pieces.mapM fun piece => (tokens piece).map Part.ofTokens

/-! ### Matching names -/

/-- Whether a character is in the range. -/
def CharRange.has (r : CharRange) (c : Char) : Bool :=
  r.first ≤ c && c ≤ r.last

/-- All ends of a text, from the whole text to the empty one. -/
def ends : List Char → List (List Char)
  | [] => [[]]
  | c :: s => (c :: s) :: ends s

theorem mem_ends {t s : List Char} : t ∈ ends s ↔ t <:+ s := by
  induction s with
  | nil => simp [ends]
  | cons c s ih => simp [ends, List.suffix_cons_iff, ih]

/-- What may be left of a text after a token, when one of `rests` was left before it. All of them
are ends of the first one. -/
def restsAfter (rests : List (List Char)) : PatternToken → List (List Char)
  | .anyText | .anyDirectories =>
    match rests with
    | [] => []
    | longest :: _ => ends longest
  | .char c => step (c == ·)
  | .anyChar => step fun _ => true
  | .among rs => step fun c => rs.any (CharRange.has · c)
  | .notAmong rs => step fun c => !rs.any (CharRange.has · c)
where
  /-- What is left after one character that passes the test. -/
  step (passes : Char → Bool) : List (List Char) :=
    rests.filterMap fun rest =>
      match rest with
      | [] => none
      | c :: s => if passes c then some s else none

/-- Whether a name matches the tokens of a part: after all tokens, nothing may be left. -/
def accepts (ts : List PatternToken) (s : List Char) : Bool :=
  (ts.foldl restsAfter [s]).any List.isEmpty

/-- Whether a name matches a part. -/
def Part.accepts (part : Part) (name : String) : Bool :=
  match part with
  | .name s => s = name
  | .tokens ts => Pattern.accepts ts name.toList
  | .anyDirectories => true

/-! ### Finding files -/

/-- The path of what a name leads to. From the working directory itself, a path starts anew. -/
def inside (p : Path) (name : String) : Path :=
  if p.components = [.current] then ⟨name⟩ else p.join name

/-- The path to which exactly this name leads, if something is there. -/
def follow? (d : Disk Unit) (p : Path) (name : String) : Option Path :=
  let next := inside p name
  let isThere :=
    if name = "." ∨ name = ".." then (d.standing p).isDirectory else (d.standing next).isThere
  if isThere then some next else none

/-- The names that lead from a directory down to each place below it. A directory comes before what
is in it. -/
def namesBelow (d : Disk Unit) (p : Path) : List (List String) :=
  match d.standing p with
  | .directory location => (d.locations.filterMap location.namesTo?).mergeSort fun a b => !b.lex a
  | _ => []

/-- The paths to which the dot names lead that a pattern accepts. A pattern accepts them only if it
starts with a dot itself. -/
def dotPaths (d : Disk Unit) (p : Path) (ts : List PatternToken) : List Path :=
  if ts.head? = some (.char '.') ∧ (d.standing p).isDirectory then
    (["..", "."].filter fun name => accepts ts name.toList).map p.join
  else
    []

/-- The files that a pattern leads to from a path. -/
def filesFrom (d : Disk Unit) : List Part → Path → List Path
  | [], p => if (d.standing p).isFile then [p] else []
  | .name s :: rest, p =>
    match follow? d p s with
    | none => []
    | some p => filesFrom d rest p
  | .tokens ts :: rest, p =>
    let names := (namesBelow d p).filter fun names =>
      names.length = 1 && names.all fun n => accepts ts n.toList
    (dotPaths d p ts ++ names.map (·.foldl inside p)).flatMap (filesFrom d rest)
  | [.anyDirectories], _ => []
  | .anyDirectories :: .anyDirectories :: rest, p => filesFrom d (.anyDirectories :: rest) p
  | .anyDirectories :: part :: rest, p =>
    let names := (namesBelow d p).filter fun names =>
      names.getLast?.any part.accepts
    (names.map (·.foldl inside p)).flatMap (filesFrom d rest)

/-- The files that a pattern selects. A pattern that ends in a slash asks for directories and
selects none, and so does one that starts at the root. -/
def files (d : Disk Unit) (pattern : String) : Except PatternError (List Path) := do
  let ps ← parts pattern
  if pattern.toList.head? = some '/' ∨ pattern.toList.getLast? = some '/' then
    pure []
  else
    pure (filesFrom d ps ⟨"."⟩)

end Pattern

end Graft
