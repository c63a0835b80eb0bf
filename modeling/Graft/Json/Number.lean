/-!
# Numbers of JSON texts

A number literal is kept as it is written, so that a line number stays exact up to the last digit
and is told from a fraction that has the same value. The other thing to know of a literal is
whether double precision can hold its magnitude.
-/

namespace Graft.Json

/-- A number literal. -/
structure Number where
  negative : Bool := false
  /-- The part before the point. -/
  whole : Nat
  /-- The digits after the point; none if there is no point. -/
  fraction : List Char := []
  /-- The power of ten. -/
  exponent : Option Int := none
deriving DecidableEq, Repr, Inhabited

namespace Number

/-- The literal of a natural number. -/
def ofNat (n : Nat) : Number :=
  { whole := n }

/-- The value of a literal that is an integer written without sign, point and exponent, and fits
into 64 bits. -/
def toWord? (n : Number) : Option UInt64 :=
  if n.negative = false ∧ n.fraction = [] ∧ n.exponent = none ∧ n.whole < UInt64.size then
    some (UInt64.ofNat n.whole)
  else
    none

theorem toWord?_ofNat_toNat (w : UInt64) : (ofNat w.toNat).toWord? = some w := by
  simp [toWord?, ofNat, UInt64.toNat_lt_size w]

/-- The literal as text. -/
def text (n : Number) : List Char :=
  (if n.negative then ['-'] else []) ++ (Nat.repr n.whole).toList ++
    (if n.fraction = [] then [] else '.' :: n.fraction) ++
    match n.exponent with
    | none => []
    | some e => 'e' :: (toString e).toList

/-! ### Magnitude -/

/-- Round to the nearest number that has at most 53 binary digits before its trailing zeros, a tie
going to the one whose last digit is even. -/
def roundToDouble (n : Nat) : Nat :=
  if n < Nat.pow 2 53 then
    n
  else
    let unit := Nat.pow 2 (n.log2 - 52)
    let below := n / unit
    let excess := 2 * (n % unit)
    if excess < unit ∨ (excess = unit ∧ below % 2 = 0) then below * unit else (below + 1) * unit

/-- The smallest number that rounds to more than double precision can hold. -/
def overflowBound : Nat :=
  Nat.pow 2 1024 - Nat.pow 2 970

/-- Read digits as long as the value stays within 64 bits: the value, and what was not read. -/
def leadingDigits (value : Nat) : List Char → Nat × List Char
  | [] => (value, [])
  | d :: ds =>
    let next := 10 * value + (d.toNat - '0'.toNat)
    if next < UInt64.size then leadingDigits next ds else (value, d :: ds)

/-- The leading digits of the literal that fit into 64 bits, and the power of ten to scale them by,
apart from the one written as exponent. -/
def significand (n : Number) : Nat × Int :=
  let (value, left) := leadingDigits 0 (Nat.repr n.whole).toList
  let (value, unread) := leadingDigits value n.fraction
  (value, (left.length : Int) - ((n.fraction.length - unread.length : Nat) : Int))

/-- Whether double precision holds the literal's magnitude, when the leading digits and the power of
ten are rounded before they are multiplied. An exponent beyond 31 bits is too large for any digits
but zeros, whatever power of ten the digits bring along. -/
def isFinite (n : Number) : Bool :=
  let (digits, scale) := n.significand
  let written := n.exponent.getD 0
  let power := scale + written
  if digits = 0 then
    true
  else if written ≥ Nat.pow 2 31 then
    false
  else if power > 308 then
    false
  else if power < 0 then
    true
  else
    roundToDouble digits * roundToDouble (Nat.pow 10 power.toNat) < overflowBound

end Number

end Graft.Json
