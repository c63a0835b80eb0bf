import Graft.Declaration.Basic

/-!
# When two members are the same declaration

A generated member and a member of the existing artifact stand for the same declaration when they
have the same name and are of one class. Callables may be overloaded, so their parameter lists
count as well: they have the same length, and every parameter type of the candidate occurs among
those of the existing member. The order and the number of occurrences do not count, so the relation
is not symmetric.
-/

namespace Graft

/-- Kinds that may stand for each other under one name. -/
inductive NameClass where
  | field
  | property
  | nestedType
  | callable
deriving DecidableEq, Repr

namespace Member

/-- The class a member belongs to. -/
def nameClass : Member → NameClass
  | .plain _ (.field ..) => .field
  | .plain _ (.method ..) => .callable
  | .plain _ (.constructor ..) => .callable
  | .plain _ (.property ..) => .property
  | .nested .. => .nestedType

/-- Whether the existing member is the declaration that the candidate stands for. -/
def isMatchFor (existing candidate : Member) : Bool :=
  existing.name == candidate.name && existing.nameClass == candidate.nameClass &&
    (existing.nameClass != .callable ||
      (existing.signature.length == candidate.signature.length &&
        candidate.signature.all existing.signature.contains))

/-- Whether two members share a name that their classes do not allow them to share. -/
def clashesWith (existing candidate : Member) : Bool :=
  existing.name == candidate.name && existing.nameClass != candidate.nameClass

theorem isMatchFor_iff {e c : Member} :
    e.isMatchFor c = true ↔
      e.name = c.name ∧ e.nameClass = c.nameClass ∧
        (e.nameClass = .callable →
          e.signature.length = c.signature.length ∧ ∀ ty ∈ c.signature, ty ∈ e.signature) := by
  by_cases h : e.nameClass = .callable <;> simp [isMatchFor, h, and_assoc]

theorem clashesWith_iff {e c : Member} :
    e.clashesWith c = true ↔ e.name = c.name ∧ e.nameClass ≠ c.nameClass := by
  simp [clashesWith]

/-- Every member stands for itself. -/
@[simp]
theorem isMatchFor_self (m : Member) : m.isMatchFor m = true := by
  simp [isMatchFor_iff]

/-- Two members never match and clash at once. -/
theorem not_clashesWith_of_isMatchFor {e c : Member} (h : e.isMatchFor c = true) :
    e.clashesWith c = false := by
  simp [clashesWith, (isMatchFor_iff.1 h).2.1]

/-! ### Finding the existing member -/

/-- The first member that is the candidate's declaration, with the members before and after it. -/
def locate (candidate : Member) : List Member → Option (List Member × Member × List Member)
  | [] => none
  | m :: ms =>
    if m.isMatchFor candidate then
      some ([], m, ms)
    else
      (locate candidate ms).map fun (before, found, after) => (m :: before, found, after)

/-- The position of the first member that is the candidate's declaration. -/
def indexFor? (members : List Member) (candidate : Member) : Option Nat :=
  (locate candidate members).map (·.1.length)

theorem locate_eq_some_iff {candidate found : Member} {members before after : List Member} :
    locate candidate members = some (before, found, after) ↔
      members = before ++ found :: after ∧ found.isMatchFor candidate = true ∧
        ∀ m ∈ before, m.isMatchFor candidate = false := by
  induction members generalizing before with
  | nil => simp [locate]
  | cons m ms ih =>
    simp only [locate]
    split
    · next h =>
      cases before with
      | nil => simp; grind
      | cons b bs => simp; grind
    · next h =>
      cases before with
      | nil => simp; grind
      | cons b bs =>
        simp only [Option.map_eq_some_iff, Prod.mk.injEq, Prod.exists, List.cons.injEq]
        constructor
        · rintro ⟨x, y, z, hx, ⟨rfl, rfl⟩, rfl, rfl⟩
          have := ih.1 hx
          simp_all
        · rintro ⟨hm, hf, hb⟩
          simp only [List.cons_append, List.cons.injEq] at hm
          exact ⟨bs, found, after, ih.2 ⟨hm.2, hf, fun m h => hb m (by simp [h])⟩,
            ⟨hm.1, rfl⟩, rfl, rfl⟩

theorem locate_eq_none_iff {candidate : Member} {members : List Member} :
    locate candidate members = none ↔ ∀ m ∈ members, m.isMatchFor candidate = false := by
  induction members with
  | nil => simp [locate]
  | cons m ms ih =>
    simp only [locate]
    split <;> simp_all

end Member

end Graft
