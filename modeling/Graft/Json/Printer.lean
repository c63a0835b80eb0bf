import Graft.Json.Basic

/-!
# Writing JSON

One printer for every layout. A layout says where white space goes, so the compact form and the
indented form differ in two fields only.
-/

namespace Graft.Json

/-! ### Strings -/

/-- A digit of the hexadecimal system, in lower case. -/
def hexDigit (n : Nat) : Char :=
  if n < 10 then Char.ofNat ('0'.toNat + n) else Char.ofNat ('a'.toNat + (n - 10))

/-- A character inside a string literal: quotation marks, backslashes and control characters are
escaped, everything else stands for itself. -/
def escaped (c : Char) : List Char :=
  if c = '"' then ['\\', '"']
  else if c = '\\' then ['\\', '\\']
  else if c = '\x08' then ['\\', 'b']
  else if c = '\x0c' then ['\\', 'f']
  else if c = '\n' then ['\\', 'n']
  else if c = '\r' then ['\\', 'r']
  else if c = '\t' then ['\\', 't']
  else if c.toNat < 0x20 then
    ['\\', 'u', '0', '0', hexDigit (c.toNat / 16), hexDigit (c.toNat % 16)]
  else [c]

/-- A string literal. One that spells no text is written as half a surrogate pair. -/
def quoted : Spelled → List Char
  | some s => '"' :: (s.toList.flatMap escaped ++ ['"'])
  | none => "\"\\ud800\"".toList

/-! ### Values -/

/-- Where white space goes. -/
structure Layout where
  /-- What stands before an item, and before the closing bracket, at that depth. -/
  lineBreak : Nat → List Char
  /-- What stands after the colon. -/
  gap : List Char

/-- No white space at all. -/
def Layout.compact : Layout where
  lineBreak _ := []
  gap := []

/-- One item a line, indented by two spaces for each open bracket. -/
def Layout.indented : Layout where
  lineBreak depth := '\n' :: List.replicate (2 * depth) ' '
  gap := [' ']

mutual

/-- The text of a value inside `depth` open brackets. -/
def print (layout : Layout) (depth : Nat) : Json → List Char
  | .null => "null".toList
  | .bool true => "true".toList
  | .bool false => "false".toList
  | .number n => n.text
  | .string s => quoted s
  | .array [] => ['[', ']']
  | .array (v :: vs) =>
    '[' :: (layout.lineBreak (depth + 1) ++ print layout (depth + 1) v ++
      printItems layout (depth + 1) vs ++ layout.lineBreak depth ++ [']'])
  | .object [] => ['{', '}']
  | .object ((name, v) :: ms) =>
    '{' :: (layout.lineBreak (depth + 1) ++ quoted name ++ ':' :: layout.gap ++
      print layout (depth + 1) v ++ printMembers layout (depth + 1) ms ++
      layout.lineBreak depth ++ ['}'])

/-- The items after the first one. -/
def printItems (layout : Layout) (depth : Nat) : List Json → List Char
  | [] => []
  | v :: vs =>
    ',' :: (layout.lineBreak depth ++ print layout depth v ++ printItems layout depth vs)

/-- The members after the first one. -/
def printMembers (layout : Layout) (depth : Nat) : List (Spelled × Json) → List Char
  | [] => []
  | (name, v) :: ms =>
    ',' :: (layout.lineBreak depth ++ quoted name ++ ':' :: layout.gap ++
      print layout depth v ++ printMembers layout depth ms)

end

/-- The text of a value without white space. -/
def compact (v : Json) : String :=
  String.ofList (print .compact 0 v)

/-- The text of a value with one item a line. -/
def indented (v : Json) : String :=
  String.ofList (print .indented 0 v)

end Graft.Json
