import Graft.Json.Number

/-!
# JSON values

Values as a JSON text spells them: objects keep the order of their members and may repeat a name.
-/

namespace Graft.Json

/-- What a string literal spells: `none` if it has an escape for one half of a surrogate pair
without the other, which no text contains. -/
abbrev Spelled := Option String

end Graft.Json

namespace Graft

open Json (Number Spelled)

/-- A JSON value. -/
inductive Json where
  | null
  | bool (value : Bool)
  | number (literal : Number)
  | string (spelled : Spelled)
  | array (items : List Json)
  | object (members : List (Spelled × Json))
deriving Repr, Inhabited

namespace Json

/-- A string value. -/
def text (s : String) : Json :=
  .string (some s)

/-- A natural number. -/
def nat (n : Nat) : Json :=
  .number (.ofNat n)

/-- An object with these members. -/
def ofMembers (members : List (String × Json)) : Json :=
  .object (members.map fun (name, value) => (some name, value))

/-- A list of texts. -/
def texts (ss : List String) : Json :=
  .array (ss.map text)

/-! ### Nesting -/

mutual

/-- How many arrays and objects are open at once at most. -/
def depth : Json → Nat
  | .array items => 1 + depthItems items
  | .object members => 1 + depthMembers members
  | _ => 0

/-- The depth of the deepest item. -/
def depthItems : List Json → Nat
  | [] => 0
  | v :: vs => max v.depth (depthItems vs)

/-- The depth of the deepest member. -/
def depthMembers : List (Spelled × Json) → Nat
  | [] => 0
  | (_, v) :: ms => max v.depth (depthMembers ms)

end

mutual

/-- Whether a value can be held as data: at most `levels` arrays and objects are open at once,
every string is a text, and double precision holds every number's magnitude. -/
def isHoldable (levels : Nat) : Json → Bool
  | .null | .bool _ => true
  | .number n => n.isFinite
  | .string s => s.isSome
  | .array items =>
    match levels with
    | 0 => false
    | levels + 1 => areHoldable levels items
  | .object members =>
    match levels with
    | 0 => false
    | levels + 1 => membersHoldable levels members

/-- Whether all items can be held as data. -/
def areHoldable (levels : Nat) : List Json → Bool
  | [] => true
  | v :: vs => v.isHoldable levels && areHoldable levels vs

/-- Whether all members can be held as data. -/
def membersHoldable (levels : Nat) : List (Spelled × Json) → Bool
  | [] => true
  | (name, v) :: ms => name.isSome && v.isHoldable levels && membersHoldable levels ms

end

end Json

end Graft
