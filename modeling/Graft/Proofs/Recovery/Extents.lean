import Mathlib.Data.List.Basic
import Graft.Recovery.Tree

/-!
# The extents of a member list

Each member that has a line has one extent, which starts there. Where it stops depends on the next
member that has a line, and for the last one on how the type ends.
-/

namespace Graft.Recovery

/-! ### The extent of one member -/

/-- The extent of a member that starts on a line, in a type that ends as given, when the next member
starts on line `next`. -/
def extentAt (bound : TypeEnd) (start : Nat) : Option Nat → Extent
  | none => .ofLast start bound
  | some next => { start, stop := next }

@[simp] lemma start_extentAt (bound : TypeEnd) (start : Nat) (next : Option Nat) :
    (extentAt bound start next).start = start := by
  cases next with
  | some n => rfl
  | none => cases bound <;> rfl

/-- An extent stops where the next one starts; the last one is bounded by the type. -/
lemma tiling_cons (bound : TypeEnd) (start : Nat) (rest : List Nat) :
    Extent.tiling bound (start :: rest) =
      extentAt bound start rest.head? :: Extent.tiling bound rest := by
  cases rest <;> rfl

/-! ### Member lists -/

/-- The lines on which the members start that have one. -/
def startsOf (ms : List Member) : List Nat :=
  ms.filterMap Member.firstLine?

lemma startsOf_cons_of_eq_some {m : Member} {n : Nat} (h : m.firstLine? = some n)
    (ms : List Member) : startsOf (m :: ms) = n :: startsOf ms :=
  List.filterMap_cons_some h

lemma startsOf_cons_of_eq_none {m : Member} (h : m.firstLine? = none) (ms : List Member) :
    startsOf (m :: ms) = startsOf ms :=
  List.filterMap_cons_none h

/-- The extents depend on the members by the lines on which they start. -/
lemma extentsOf_eq_tiling (bound : TypeEnd) (ms : List Member) :
    extentsOf bound ms = Extent.tiling bound (startsOf ms) := rfl

/-- A member with a line has an extent, up to the next member that has one. -/
lemma extentsOf_cons_of_eq_some {m : Member} {n : Nat} (h : m.firstLine? = some n)
    (bound : TypeEnd) (ms : List Member) :
    extentsOf bound (m :: ms) = extentAt bound n (startsOf ms).head? :: extentsOf bound ms := by
  rw [extentsOf_eq_tiling, startsOf_cons_of_eq_some h, tiling_cons]
  rfl

/-- A member without a line has no extent and bounds none. -/
lemma extentsOf_cons_of_eq_none {m : Member} (h : m.firstLine? = none) (bound : TypeEnd)
    (ms : List Member) : extentsOf bound (m :: ms) = extentsOf bound ms := by
  rw [extentsOf_eq_tiling, startsOf_cons_of_eq_none h, extentsOf_eq_tiling]

/-! ### What the heads decide -/

/-- Where members start is part of their heads. -/
lemma startsOf_congr {ms ms' : List Member} (h : ms'.map Member.head = ms.map Member.head) :
    startsOf ms' = startsOf ms := by
  have heads : ∀ ms : List Member,
      startsOf ms = (ms.map Member.head).filterMap fun k => k.firstLine.map UInt64.toNat :=
    fun ms => List.filterMap_map.symm ▸ rfl
  rw [heads, heads, h]

/-- Recovering texts leaves where members start, and so their extents. -/
lemma extentsOf_congr {ms ms' : List Member} (h : ms'.map Member.head = ms.map Member.head)
    (bound : TypeEnd) : extentsOf bound ms' = extentsOf bound ms := by
  rw [extentsOf_eq_tiling, extentsOf_eq_tiling, startsOf_congr h]

/-- Only abstract members may go without a line. -/
lemma missingLine?_eq_none_iff {ms : List Member} :
    missingLine? ms = none ↔
      ∀ k ∈ ms.map Member.head, k.firstLine.isSome = true ∨ k.isAbstract = true := by
  simp [missingLine?, Member.firstLine?, Option.isSome_iff_ne_none, or_iff_not_imp_left]

lemma missingLine?_eq_none_congr {ms ms' : List Member}
    (h : ms'.map Member.head = ms.map Member.head) :
    missingLine? ms' = none ↔ missingLine? ms = none := by
  rw [missingLine?_eq_none_iff, missingLine?_eq_none_iff, h]

end Graft.Recovery
