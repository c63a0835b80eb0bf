import Graft.Json.Basic

/-!
# Reading JSON

A reader takes one character at a time. Its state is what it is in the middle of, and the arrays and
objects around that, the innermost first. Since nothing but the state is remembered, reading
`s ++ t` is reading `s` and then `t`, and a deeply nested text needs no more than a long stack.

The grammar is the strict one: no comments, no trailing commas, no leading zeros, no control
characters inside strings, and only spaces, tabs and line ends around values.
-/

namespace Graft.Json

/-! ### Numbers -/

/-- Which part of a number literal the reader has reached. -/
inductive NumberPart where
  | sign
  | zero
  | whole
  | point
  | fraction
  | mark
  | markSign
  | exponent
deriving DecidableEq, Repr

/-- A number literal read so far. -/
structure NumberSoFar where
  part : NumberPart
  negative : Bool := false
  whole : Nat := 0
  /-- The digits after the point, the last one first. -/
  fraction : List Char := []
  exponentNegative : Bool := false
  exponent : Nat := 0
deriving DecidableEq, Repr

/-- The value of a digit. -/
def digitValue (c : Char) : Nat :=
  c.toNat - '0'.toNat

namespace NumberSoFar

/-- The literal that starts with this character. -/
def start? (c : Char) : Option NumberSoFar :=
  if c = '-' then some { part := .sign, negative := true }
  else if c = '0' then some { part := .zero }
  else if c.isDigit then some { part := .whole, whole := digitValue c }
  else none

/-- The literal after a point or an exponent mark. -/
def leaveWhole? (n : NumberSoFar) (c : Char) : Option NumberSoFar :=
  if c = '.' then some { n with part := .point }
  else if c = 'e' ∨ c = 'E' then some { n with part := .mark }
  else none

/-- The literal with one more character, if that can belong to it. -/
def step? (n : NumberSoFar) (c : Char) : Option NumberSoFar :=
  match n.part with
  | .sign =>
    if c = '0' then some { n with part := .zero }
    else if c.isDigit then some { n with part := .whole, whole := digitValue c }
    else none
  | .zero => n.leaveWhole? c
  | .whole =>
    if c.isDigit then some { n with whole := 10 * n.whole + digitValue c } else n.leaveWhole? c
  | .point =>
    if c.isDigit then some { n with part := .fraction, fraction := [c] } else none
  | .fraction =>
    if c.isDigit then some { n with fraction := c :: n.fraction }
    else if c = 'e' ∨ c = 'E' then some { n with part := .mark }
    else none
  | .mark =>
    if c = '+' then some { n with part := .markSign }
    else if c = '-' then some { n with part := .markSign, exponentNegative := true }
    else if c.isDigit then some { n with part := .exponent, exponent := digitValue c }
    else none
  | .markSign =>
    if c.isDigit then some { n with part := .exponent, exponent := digitValue c } else none
  | .exponent =>
    if c.isDigit then some { n with exponent := 10 * n.exponent + digitValue c } else none

/-- The literal, if it may end here. -/
def number? (n : NumberSoFar) : Option Number :=
  match n.part with
  | .zero | .whole | .fraction =>
    some { negative := n.negative, whole := n.whole, fraction := n.fraction.reverse }
  | .exponent =>
    some {
      negative := n.negative, whole := n.whole, fraction := n.fraction.reverse
      exponent := some (if n.exponentNegative then -(n.exponent : Int) else n.exponent) }
  | _ => none

end NumberSoFar

/-! ### Strings -/

/-- Where in an escape the reader is. -/
inductive EscapePart where
  | outside
  | backslash
  /-- That many hexadecimal digits are still to come. -/
  | hex (left value : Nat)
deriving DecidableEq, Repr

/-- A string literal read so far. -/
structure StringSoFar where
  part : EscapePart := .outside
  /-- The characters spelled, the last one first. -/
  chars : List Char := []
  /-- The first half of a surrogate pair whose second half must come next. -/
  half : Option Nat := none
  /-- Whether every pair so far was complete. -/
  isText : Bool := true
deriving DecidableEq, Repr

/-- The value of a hexadecimal digit. -/
def hexValue? (c : Char) : Option Nat :=
  if c.isDigit then some (digitValue c)
  else if 'a' ≤ c ∧ c ≤ 'f' then some (c.toNat - 'a'.toNat + 10)
  else if 'A' ≤ c ∧ c ≤ 'F' then some (c.toNat - 'A'.toNat + 10)
  else none

/-- The character of an escape with one letter. -/
def escapeOf? (c : Char) : Option Char :=
  if c = '"' then some '"'
  else if c = '\\' then some '\\'
  else if c = '/' then some '/'
  else if c = 'b' then some '\x08'
  else if c = 'f' then some '\x0c'
  else if c = 'n' then some '\n'
  else if c = 'r' then some '\r'
  else if c = 't' then some '\t'
  else none

namespace StringSoFar

/-- Add a character. -/
def push (s : StringSoFar) (c : Char) : StringSoFar :=
  { part := .outside, chars := c :: s.chars, isText := s.isText && s.half.isNone }

/-- Add a unit of the 16-bit encoding: half a surrogate pair, or the character it is the number of.
-/
def pushUnit (s : StringSoFar) (u : Nat) : StringSoFar :=
  if 0xd800 ≤ u ∧ u < 0xdc00 then
    { s with part := .outside, half := some u, isText := s.isText && s.half.isNone }
  else if 0xdc00 ≤ u ∧ u < 0xe000 then
    match s.half with
    | some h =>
      { s with
        part := .outside, half := none
        chars := Char.ofNat (0x10000 + (h - 0xd800) * 0x400 + (u - 0xdc00)) :: s.chars }
    | none => { s with part := .outside, isText := false }
  else
    s.push (Char.ofNat u)

/-- The literal with one more character, the closing quotation mark excepted. -/
def step? (s : StringSoFar) (c : Char) : Option StringSoFar :=
  match s.part with
  | .outside =>
    if c = '\\' then some { s with part := .backslash }
    else if c.toNat < 0x20 then none
    else some (s.push c)
  | .backslash =>
    if c = 'u' then some { s with part := .hex 3 0 } else (escapeOf? c).map s.push
  | .hex left value =>
    match hexValue? c with
    | none => none
    | some d =>
      match left with
      | 0 => some (s.pushUnit (16 * value + d))
      | left + 1 => some { s with part := .hex left (16 * value + d) }

/-- What the literal spells. -/
def spelled (s : StringSoFar) : Spelled :=
  if s.isText && s.half.isNone then some (String.ofList s.chars.reverse) else none

end StringSoFar

/-! ### Values -/

/-- An array or object that is open: what it holds so far, the last first. -/
inductive Frame where
  | array (items : List Json)
  /-- An object before the name of its next member. -/
  | object (members : List (Spelled × Json))
  /-- An object after the name of its next member. -/
  | member (members : List (Spelled × Json)) (name : Spelled)
deriving Repr

/-- What the reader is in the middle of. -/
inductive Focus where
  /-- A value comes next. -/
  | value
  /-- After an opening bracket: a value or the closing bracket comes next. -/
  | firstItem
  /-- After an opening brace: a name or the closing brace comes next. -/
  | firstName
  /-- A name comes next. -/
  | name
  /-- A colon comes next. -/
  | colon
  /-- The word for a value, of which this is still to come. -/
  | word (rest : List Char) (value : Json)
  | number (n : NumberSoFar)
  | string (s : StringSoFar)
  /-- The name of a member. -/
  | nameString (s : StringSoFar)
  /-- A value is complete. -/
  | done (value : Json)
deriving Repr

/-- The state of a reader. -/
structure Reader where
  focus : Focus := .value
  frames : List Frame := []
deriving Repr

/-- The white space that may stand between the parts of a JSON text. -/
def isGap (c : Char) : Bool :=
  c == ' ' || c == '\t' || c == '\n' || c == '\r'

namespace Reader

/-- Begin a value. -/
def begin? (frames : List Frame) (c : Char) : Option Reader :=
  if c = '{' then some ⟨.firstName, .object [] :: frames⟩
  else if c = '[' then some ⟨.firstItem, .array [] :: frames⟩
  else if c = '"' then some ⟨.string {}, frames⟩
  else if c = 't' then some ⟨.word "rue".toList (.bool true), frames⟩
  else if c = 'f' then some ⟨.word "alse".toList (.bool false), frames⟩
  else if c = 'n' then some ⟨.word "ull".toList .null, frames⟩
  else (NumberSoFar.start? c).map fun n => ⟨.number n, frames⟩

/-- Go on after a complete value. -/
def resume? (value : Json) (frames : List Frame) (c : Char) : Option Reader :=
  if isGap c then
    some ⟨.done value, frames⟩
  else
    match frames with
    | .array items :: frames =>
      if c = ',' then some ⟨.value, .array (value :: items) :: frames⟩
      else if c = ']' then some ⟨.done (.array (value :: items).reverse), frames⟩
      else none
    | .member members name :: frames =>
      if c = ',' then some ⟨.name, .object ((name, value) :: members) :: frames⟩
      else if c = '}' then some ⟨.done (.object ((name, value) :: members).reverse), frames⟩
      else none
    | _ => none

/-- Read one character. -/
def step (r : Reader) (c : Char) : Option Reader :=
  match r.focus with
  | .value => if isGap c then some r else begin? r.frames c
  | .firstItem =>
    if isGap c then some r
    else if c = ']' then some ⟨.done (.array []), r.frames.tail⟩
    else begin? r.frames c
  | .firstName =>
    if isGap c then some r
    else if c = '"' then some { r with focus := .nameString {} }
    else if c = '}' then some ⟨.done (.object []), r.frames.tail⟩
    else none
  | .name =>
    if isGap c then some r
    else if c = '"' then some { r with focus := .nameString {} }
    else none
  | .colon =>
    if isGap c then some r
    else if c = ':' then some { r with focus := .value }
    else none
  | .word [] value => resume? value r.frames c
  | .word (d :: rest) value =>
    if c = d then
      some { r with focus := if rest = [] then .done value else .word rest value }
    else
      none
  | .number n =>
    match n.step? c with
    | some n => some { r with focus := .number n }
    | none => n.number?.bind fun n => resume? (.number n) r.frames c
  | .string s =>
    if s.part = .outside ∧ c = '"' then some { r with focus := .done (.string s.spelled) }
    else (s.step? c).map fun s => { r with focus := .string s }
  | .nameString s =>
    if s.part = .outside ∧ c = '"' then
      match r.frames with
      | .object members :: frames => some ⟨.colon, .member members s.spelled :: frames⟩
      | _ => none
    else
      (s.step? c).map fun s => { r with focus := .nameString s }
  | .done value => resume? value r.frames c

/-- Read a text, one character after the other. -/
def run (r : Reader) (s : List Char) : Option Reader :=
  s.foldlM step r

/-- Reading `s ++ t` is reading `s` and then `t`. -/
theorem run_append (r : Reader) (s t : List Char) : r.run (s ++ t) = (r.run s).bind (·.run t) := by
  simp [run, bind]

@[simp]
theorem run_nil (r : Reader) : r.run [] = some r := rfl

theorem run_cons (r : Reader) (c : Char) (s : List Char) :
    r.run (c :: s) = (r.step c).bind (·.run s) := by
  simp [run, bind]

/-- The value read, if the text may end here. -/
def value? (r : Reader) : Option Json :=
  match r.focus, r.frames with
  | .done value, [] => some value
  | .number n, [] => n.number?.map .number
  | _, _ => none

end Reader

/-- The value that a JSON text denotes. -/
def parse? (text : String) : Option Json :=
  ((Reader.mk .value []).run text.toList).bind Reader.value?

end Graft.Json
