import Mathlib.Data.List.Basic
import Graft.Text.Lines
import Graft.Text.Space

/-!
# Texts and their lines

How the lines of a text change when something is put behind it, and what neither cutting a text into
lines nor trimming it can change: how often a character occurs that is not white space.
-/

namespace Graft.Text

/-! ### Behind the last line -/

/-- What follows the last line feed of a text. -/
def lastLine (s : List Char) : List Char :=
  (pieces s).getLast (pieces_ne_nil s)

lemma pieces_eq_dropLast_append (s : List Char) : pieces s = (pieces s).dropLast ++ [lastLine s] :=
  (List.dropLast_append_getLast (pieces_ne_nil s)).symm

/-- What stands at the end of the last line stands at the end of the text. -/
lemma joinLines_append_singleton (ls : List (List Char)) (l t : List Char) :
    joinLines (ls ++ [l ++ t]) = joinLines (ls ++ [l]) ++ t := by
  cases ls with
  | nil => simp
  | cons k ks =>
    rw [joinLines_append (List.cons_ne_nil k ks) (List.cons_ne_nil _ []),
      joinLines_append (List.cons_ne_nil k ks) (List.cons_ne_nil _ [])]
    simp

/-- Text without a line feed goes to the last line. -/
lemma pieces_append_of_not_mem {t : List Char} (h : '\n' ∉ t) (s : List Char) :
    pieces (s ++ t) = (pieces s).dropLast ++ [lastLine s ++ t] := by
  have hlines : ∀ l ∈ (pieces s).dropLast ++ [lastLine s ++ t], '\n' ∉ l := by
    intro l hl
    rcases List.mem_append.mp hl with hl | hl
    · exact not_mem_of_mem_pieces (List.dropLast_subset _ hl)
    · rw [List.mem_singleton.mp hl, List.mem_append, not_or]
      exact ⟨not_mem_of_mem_pieces (List.getLast_mem (pieces_ne_nil s)), h⟩
  have hjoin : joinLines ((pieces s).dropLast ++ [lastLine s ++ t]) = s ++ t := by
    rw [joinLines_append_singleton, ← pieces_eq_dropLast_append, joinLines_pieces]
  rw [← hjoin, pieces_joinLines (by simp) hlines]

lemma lastLine_append_of_not_mem {t : List Char} (h : '\n' ∉ t) (s : List Char) :
    lastLine (s ++ t) = lastLine s ++ t := by
  simp only [lastLine, pieces_append_of_not_mem h]
  exact List.getLast_concat

/-- Whole lines stay lines. -/
lemma pieces_append_lines {ls : List (List Char)} (h : ∀ l ∈ ls, '\n' ∉ l) (s : List Char) :
    pieces (s ++ ls.flatMap ('\n' :: ·)) = pieces s ++ ls := by
  induction ls generalizing s with
  | nil => simp
  | cons l ls ih =>
    have hl := pieces_of_not_mem (h l List.mem_cons_self)
    have ih := ih (fun k hk => h k (List.mem_cons_of_mem l hk)) (s ++ '\n' :: l)
    rw [List.append_assoc, pieces_append_newline, hl, List.append_assoc] at ih
    simpa using ih

lemma joinLines_append_lines {ls : List (List Char)} (h : ls ≠ []) (ks : List (List Char)) :
    joinLines (ls ++ ks) = joinLines ls ++ ks.flatMap ('\n' :: ·) := by
  induction ks generalizing ls with
  | nil => simp
  | cons k ks ih =>
    have hk : joinLines (ls ++ [k]) = joinLines ls ++ '\n' :: k := by
      rw [joinLines_append h (List.cons_ne_nil k []), joinLines_singleton]
    rw [List.append_cons, ih (by simp), hk]
    simp

/-- A text has one line more than line feeds. -/
lemma length_pieces (s : List Char) : (pieces s).length = s.count '\n' + 1 := by
  induction s with
  | nil => rfl
  | cons c cs ih =>
    by_cases hc : c = '\n'
    · subst hc
      simp [consPiece, ih]
    · obtain ⟨p, ps, hp⟩ := List.exists_cons_of_ne_nil (pieces_ne_nil cs)
      rw [List.count_cons_of_ne hc, ← ih, pieces_cons, hp]
      simp [consPiece, hc]

/-- What stands before a line feed does not matter to the last line. -/
lemma lastLine_append_newline (s t : List Char) : lastLine (s ++ '\n' :: t) = lastLine t := by
  simp only [lastLine, pieces_append_newline]
  exact List.getLast_append_of_ne_nil _ (pieces_ne_nil t)

/-! ### White space -/

lemma trimStart_append_of_isSpace {w : List Char} (h : ∀ c ∈ w, isSpace c = true) (s : List Char) :
    trimStart (w ++ s) = trimStart s :=
  List.dropWhile_append_of_pos h

lemma trimStart_append_of_eq_cons {s cs : List Char} {c : Char} (h : trimStart s = c :: cs)
    (t : List Char) : trimStart (s ++ t) = c :: (cs ++ t) := by
  rw [trimStart] at h
  rw [trimStart, List.dropWhile_append, h]
  rfl

/-- Trimming at the start cuts off white space and nothing else. -/
lemma exists_append_trimStart (s : List Char) :
    ∃ w, s = w ++ trimStart s ∧ ∀ c ∈ w, isSpace c = true :=
  ⟨s.takeWhile isSpace, List.takeWhile_append_dropWhile.symm,
    fun c hc => List.all_eq_true.mp List.all_takeWhile c hc⟩

lemma trimEnd_append_of_isSpace {w : List Char} (h : ∀ c ∈ w, isSpace c = true) (s : List Char) :
    trimEnd (s ++ w) = trimEnd s := by
  rw [trimEnd, List.reverse_append, List.dropWhile_append_of_pos (by simpa using h), trimEnd]

lemma trimEnd_eq_nil {w : List Char} (h : ∀ c ∈ w, isSpace c = true) : trimEnd w = [] :=
  trimEnd_append_of_isSpace h []

@[simp] lemma trimEnd_trimEnd (s : List Char) : trimEnd (trimEnd s) = trimEnd s := by
  obtain ⟨w, hs, hw⟩ := exists_trimEnd_append s
  conv_rhs => rw [hs, trimEnd_append_of_isSpace hw]

/-! ### Counting characters -/

lemma count_joinLines {c : Char} (hc : c ≠ '\n') (ls : List (List Char)) :
    (joinLines ls).count c = ls.flatten.count c := by
  induction ls with
  | nil => rfl
  | cons l ls ih =>
    cases ls with
    | nil => simp
    | cons k ks =>
      rw [joinLines_cons_cons, List.count_append, List.count_cons_of_ne (Ne.symm hc), ih,
        ← List.count_append, ← List.flatten_cons]

lemma mem_joinLines_iff {c : Char} (hc : c ≠ '\n') {ls : List (List Char)} :
    c ∈ joinLines ls ↔ ∃ l ∈ ls, c ∈ l := by
  rw [← List.count_pos_iff, count_joinLines hc, List.count_pos_iff, List.mem_flatten]

lemma count_trimEnd {c : Char} (hc : isSpace c = false) (s : List Char) :
    (trimEnd s).count c = s.count c := by
  obtain ⟨w, hw, hspace⟩ := exists_trimEnd_append s
  have hzero : w.count c = 0 := by
    refine List.count_eq_zero.mpr fun h => ?_
    rw [hspace c h] at hc
    cases hc
  conv_rhs => rw [hw, List.count_append, hzero, Nat.add_zero]

lemma count_trimStart {c : Char} (hc : isSpace c = false) (s : List Char) :
    (trimStart s).count c = s.count c := by
  induction s with
  | nil => rfl
  | cons d s ih =>
    by_cases hd : isSpace d = true
    · have hne : d ≠ c := by
        rintro rfl
        rw [hd] at hc
        cases hc
      rw [trimStart, List.dropWhile_cons_of_pos hd, List.count_cons_of_ne hne]
      exact ih
    · rw [trimStart, List.dropWhile_cons_of_neg hd]

/-- Two texts that are each followed by a certain character are the same if they hold it equally
often. -/
lemma eq_of_count_eq {c : Char} {s s' t t' : List Char} (h : s ++ c :: t = s' ++ c :: t')
    (hc : s.count c = s'.count c) : s = s' ∧ t = t' := by
  rcases List.append_eq_append_iff.mp h with ⟨u, hu, ht⟩ | ⟨u, hu, ht⟩
  · cases u with
    | nil => simp_all
    | cons e u =>
      obtain ⟨rfl, -⟩ := List.cons.inj ht
      rw [hu, List.count_append, List.count_cons_self] at hc
      omega
  · cases u with
    | nil => simp_all
    | cons e u =>
      obtain ⟨rfl, -⟩ := List.cons.inj ht
      rw [hu, List.count_append, List.count_cons_self] at hc
      omega

end Graft.Text
