/-!
# Annotations

The attributes a member carries in the source. One of them, the generation marker, says that the
generator wrote the member and may overwrite or remove it; the others are carried along untouched.
A member has a set of annotations, held in one order so that equal sets are equal values.
-/

namespace Graft

/-- One annotation of a member. -/
inductive Marker where
  | generate
  | attribute (name : String)
deriving DecidableEq, Repr, Inhabited

/-! ### Sorted insertion -/

/-- Put a name into a strictly increasing list of names, once. -/
def insertName (name : String) : List String → List String
  | [] => [name]
  | n :: ns =>
    if name < n then name :: n :: ns
    else if name = n then n :: ns
    else n :: insertName name ns

theorem sorted_nil : ([] : List String).Pairwise (· < ·) := .nil

theorem mem_insertName {name n : String} {ns : List String} :
    n ∈ insertName name ns ↔ n = name ∨ n ∈ ns := by
  induction ns with
  | nil => simp [insertName]
  | cons m ms ih =>
    simp only [insertName]
    split
    · simp
    · split
      · next h => subst h; simp
      · simp only [List.mem_cons, ih]; grind

theorem pairwise_insertName {name : String} {ns : List String} (h : ns.Pairwise (· < ·)) :
    (insertName name ns).Pairwise (· < ·) := by
  induction ns with
  | nil => simp [insertName]
  | cons m ms ih =>
    obtain ⟨hm, hms⟩ := List.pairwise_cons.1 h
    simp only [insertName]
    split
    · next hlt =>
      refine List.pairwise_cons.2 ⟨?_, h⟩
      intro k hk
      rcases List.mem_cons.1 hk with rfl | hk
      · exact hlt
      · exact String.lt_trans hlt (hm k hk)
    · next hlt =>
      split
      · exact h
      · next hne =>
        refine List.pairwise_cons.2 ⟨?_, ih hms⟩
        intro k hk
        rcases mem_insertName.1 hk with rfl | hk
        · by_cases hmk : m < k
          · exact hmk
          · exact absurd (String.le_antisymm (String.not_lt.1 hmk) (String.not_lt.1 hlt)) hne
        · exact hm k hk

/-! ### Sets of annotations -/

/-- A set of annotations: the generation marker or not, and the names of the other attributes in
strictly increasing order. -/
structure Annotations where
  isGenerated : Bool := false
  attributes : List String := []
  sorted : attributes.Pairwise (· < ·) := by exact sorted_nil
deriving DecidableEq, Repr

namespace Annotations

instance : Inhabited Annotations := ⟨{}⟩

/-- No annotation at all. -/
def empty : Annotations := {}

/-- Whether there is no annotation. -/
def isEmpty (a : Annotations) : Bool :=
  !a.isGenerated && a.attributes.isEmpty

/-- Add one annotation. -/
def insert (a : Annotations) : Marker → Annotations
  | .generate => { a with isGenerated := true }
  | .attribute name => ⟨a.isGenerated, insertName name a.attributes, pairwise_insertName a.sorted⟩

/-- The set of the annotations listed. -/
def ofList (ms : List Marker) : Annotations :=
  ms.foldl insert empty

/-- The annotations in order: the generation marker first, then the attributes by name. -/
def toList (a : Annotations) : List Marker :=
  (if a.isGenerated then [.generate] else []) ++ a.attributes.map .attribute

theorem mem_toList_insert {a : Annotations} {m n : Marker} :
    n ∈ (a.insert m).toList ↔ n = m ∨ n ∈ a.toList := by
  cases m <;> cases n <;> by_cases h : a.isGenerated <;>
    simp [insert, toList, mem_insertName, h]

end Annotations

end Graft
