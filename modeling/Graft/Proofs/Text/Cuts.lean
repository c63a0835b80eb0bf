import Mathlib.Data.String.Basic

/-!
# Cuts at byte offsets

A text is cut at a byte offset, and that is possible only between two characters: an offset inside
the bytes of a character, or behind the text, is no place for a cut. The offsets at which a
character is found, and those behind a character of one byte, are.
-/

namespace Graft.Text

/-- The text before a byte offset and the text from there on, if a cut is possible there. -/
def cutAt? : (offset : Nat) → List Char → Option (List Char × List Char)
  | 0, s => some ([], s)
  | _ + 1, [] => none
  | n + 1, c :: s =>
    if c.utf8Size ≤ n + 1 then
      (cutAt? (n + 1 - c.utf8Size) s).map fun (before, after) => (c :: before, after)
    else
      none

/-- The byte offset of the first occurrence of a character. -/
def offsetOf? (c : Char) : List Char → Option Nat
  | [] => none
  | x :: s => if x = c then some 0 else (offsetOf? c s).map (x.utf8Size + ·)

/-- The byte offset of the last occurrence of a character. -/
def lastOffsetOf? (c : Char) : List Char → Option Nat
  | [] => none
  | x :: s =>
    match lastOffsetOf? c s with
    | some n => some (x.utf8Size + n)
    | none => if x = c then some 0 else none

/-- A text is cut behind every beginning. -/
theorem cutAt?_append (s t : List Char) : cutAt? (String.utf8Len s) (s ++ t) = some (s, t) := by
  induction s with
  | nil => simp [cutAt?]
  | cons c s ih =>
    obtain ⟨n, hn⟩ := Nat.exists_eq_add_one.mpr c.utf8Size_pos
    rw [String.utf8Len_cons, hn, ← Nat.add_assoc, List.cons_append, cutAt?, if_pos (by omega),
      show String.utf8Len s + n + 1 - c.utf8Size = String.utf8Len s by omega, ih]
    rfl

/-- It is cut behind a character of one byte too. -/
lemma cutAt?_succ {c : Char} (hc : c.utf8Size = 1) (s t : List Char) :
    cutAt? (String.utf8Len s + 1) (s ++ c :: t) = some (s ++ [c], t) := by
  have h := cutAt?_append (s ++ [c]) t
  rwa [String.utf8Len_append, String.utf8Len_cons, hc, String.utf8Len_nil, List.append_assoc,
    List.singleton_append] at h

lemma offsetOf?_of_not_mem {c : Char} {s : List Char} (h : c ∉ s) : offsetOf? c s = none := by
  induction s with
  | nil => rfl
  | cons x s ih =>
    rw [List.mem_cons, not_or] at h
    rw [offsetOf?, if_neg (Ne.symm h.1), ih h.2]
    rfl

/-- The first of a character is behind everything before it, counted in bytes. -/
lemma offsetOf?_append {c : Char} {before : List Char} (h : c ∉ before) (after : List Char) :
    offsetOf? c (before ++ c :: after) = some (String.utf8Len before) := by
  induction before with
  | nil => simp [offsetOf?]
  | cons x s ih =>
    rw [List.mem_cons, not_or] at h
    rw [List.cons_append, offsetOf?, if_neg (Ne.symm h.1), ih h.2, String.utf8Len_cons,
      Nat.add_comm]
    rfl

lemma lastOffsetOf?_of_not_mem {c : Char} {s : List Char} (h : c ∉ s) :
    lastOffsetOf? c s = none := by
  induction s with
  | nil => rfl
  | cons x s ih =>
    rw [List.mem_cons, not_or] at h
    rw [lastOffsetOf?, ih h.2]
    exact if_neg (Ne.symm h.1)

/-- Likewise for the last of a character, behind which there is none. -/
lemma lastOffsetOf?_append {c : Char} {after : List Char} (before : List Char) (h : c ∉ after) :
    lastOffsetOf? c (before ++ c :: after) = some (String.utf8Len before) := by
  induction before with
  | nil => simp [lastOffsetOf?, lastOffsetOf?_of_not_mem h]
  | cons x s ih =>
    rw [List.cons_append, lastOffsetOf?, ih, String.utf8Len_cons, Nat.add_comm]

/-- No cut goes through a character. -/
example : cutAt? 1 ['é', '}'] = none := by decide

end Graft.Text
