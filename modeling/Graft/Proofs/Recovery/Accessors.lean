import Graft.Proofs.Recovery.Blocks
import Graft.Proofs.Recovery.Clauses

/-!
# Accessors and what follows them

The accessors of a property are read from the start of its text, and nobody looks at what follows
them. If a text goes on with a closing brace, then, the same accessors are read from it:
`accessorsOf_blockText_append`.
-/

namespace Graft.Recovery

open Source Text

/-! ### Texts that go on with a closing brace -/

/-- The text is white space, then a closing brace, and whatever follows. -/
def StartsClosing (t : List Char) : Prop :=
  ∃ rest, trimStart t = '}' :: rest

lemma startsClosing_append_brace {w : List Char} (h : ∀ c ∈ w, isSpace c = true)
    (rest : List Char) : StartsClosing (w ++ '}' :: rest) :=
  ⟨rest, List.dropWhile_append_of_pos h⟩

lemma StartsClosing.exists_cons {t : List Char} (h : StartsClosing t) :
    ∃ c cs, t = c :: cs ∧ (isSpace c = true ∨ c = '}') := by
  obtain ⟨rest, hrest⟩ := h
  cases t with
  | nil => cases hrest
  | cons c cs =>
    refine ⟨c, cs, rfl, ?_⟩
    by_cases hc : isSpace c = true
    · exact .inl hc
    · rw [trimStart, List.dropWhile_cons_of_neg hc] at hrest
      exact .inr (List.cons.inj hrest).1

lemma StartsClosing.exists_trimStart_append {t : List Char} (h : StartsClosing t)
    (s : List Char) : ∃ t', StartsClosing t' ∧ trimStart (s ++ t) = trimStart s ++ t' := by
  cases hs : trimStart s with
  | nil =>
    obtain ⟨rest, hrest⟩ := h
    refine ⟨'}' :: rest, startsClosing_append_brace (w := []) (by simp) rest, ?_⟩
    rw [trimStart] at hs
    rw [trimStart, List.dropWhile_append, hs, List.isEmpty_nil, if_pos rfl, ← hrest]
    rfl
  | cons c cs => exact ⟨t, h, trimStart_append_of_eq_cons hs t⟩

/-! ### Clauses and what follows them -/

/-- The clause of an accessor ends where it does, whatever follows. -/
lemma Clause.append {keyword : String} {text body rest : List Char}
    (h : Clause keyword text body rest) (t : List Char) :
    Clause keyword (text ++ t) body (rest ++ t) := by
  cases h with
  | semicolon hw hw' rest =>
    simp only [List.append_assoc, List.cons_append]
    exact .semicolon hw hw' (rest ++ t)
  | block hw hw' hb rest =>
    simp only [List.append_assoc, List.cons_append]
    exact .block hw hw' hb (rest ++ t)

/-- No keyword begins before a closing brace and ends behind it. -/
lemma not_startsWith_append {keyword : String} {text t : List Char}
    (h : ¬ StartsWith keyword text) (ht : StartsClosing t)
    (hk : keyword.toList.all (fun c => !isSpace c && c != '}') = true) :
    ¬ StartsWith keyword (text ++ t) := by
  rintro ⟨after, hafter, hend⟩
  obtain ⟨t', ht', htrim⟩ := ht.exists_trimStart_append text
  rw [htrim] at hafter
  apply h
  rcases List.append_eq_append_iff.mp hafter with ⟨u, hu, hrest⟩ | ⟨u, hu, rfl⟩
  · cases u with
    | nil => exact ⟨[], by simp [hu], nofun⟩
    | cons d ds =>
      -- then the keyword goes on with the brace, or with white space before it
      obtain ⟨c, cs, rfl, hc⟩ := ht'.exists_cons
      obtain ⟨rfl, -⟩ := List.cons.inj hrest
      have hd := List.all_eq_true.mp hk c (by simp [hu])
      rcases hc with hc | rfl
      · simp [hc] at hd
      · simp at hd
  · refine ⟨u, hu, fun c hc => hend c ?_⟩
    rw [List.head?_append, Option.mem_def.mp hc]
    rfl

theorem Accessing.append {text t : List Char} {accessors : Accessors}
    (h : Accessing text accessors) (ht : StartsClosing t) : Accessing (text ++ t) accessors := by
  have hget : "get".toList.all (fun c => !isSpace c && c != '}') = true := by decide
  have hset : "set".toList.all (fun c => !isSpace c && c != '}') = true := by decide
  cases h with
  | none hg hs =>
    exact .none (not_startsWith_append hg ht hget) (not_startsWith_append hs ht hset)
  | getter hg hs => exact .getter (hg.append t) (not_startsWith_append hs ht hset)
  | both hg hs => exact .both (hg.append t) (hs.append t)
  | setter hs => exact .setter (hs.append t)

/-! ### The text of a property -/

lemma trimStart_trimEnd_append {w : List Char} (h : ∀ c ∈ w, isSpace c = true) (s : List Char) :
    trimStart (trimEnd (w ++ s)) = trimStart (trimEnd s) := by
  rw [trimEnd, List.reverse_append, List.dropWhile_append]
  split
  · next he =>
    have hw : w.reverse.dropWhile isSpace = [] := by
      rw [List.dropWhile_eq_nil_iff]
      simpa using h
    rw [hw, trimEnd, List.isEmpty_iff.mp he]
  · rw [List.reverse_append, List.reverse_reverse, trimStart, List.dropWhile_append_of_pos h]
    rfl

/-- Blank lines at the start make no difference to the accessors. -/
lemma accessorsOf_bodyText (s : List Char) :
    accessorsOf (bodyText (pieces s)) = accessorsOf (trimEnd s) := by
  obtain ⟨blank, space, hjoin, hblank, hspace⟩ := exists_joinLines_eq (pieces s)
  have hlines : ∀ c ∈ endLines blank, isSpace c = true := by
    intro c hc
    obtain ⟨line, hline, hc⟩ := List.mem_flatMap.mp hc
    rcases List.mem_append.mp hc with hc | hc
    · exact isSpace_of_isIndent (isBlank_iff.mp (hblank line hline) c hc)
    · rw [List.mem_singleton.mp hc]
      decide
  rw [joinLines_pieces, ← List.append_assoc] at hjoin
  rw [accessorsOf, accessorsOf]
  conv_rhs => rw [hjoin, trimEnd_append_of_isSpace hspace, trimStart_trimEnd_append hlines]
  rw [bodyText, trimEnd_trimEnd]

lemma exists_trimEnd_append_brace (s t : List Char) :
    ∃ t', trimEnd (s ++ '}' :: t) = s ++ '}' :: t' := by
  obtain ⟨w, hs, hw⟩ := exists_trimEnd_append (s ++ '}' :: t)
  rcases List.append_eq_append_iff.mp hs with ⟨u, hu, ht⟩ | ⟨u, -, hu⟩
  · cases u with
    | nil =>
      rw [List.nil_append] at ht
      exact absurd (hw '}' (by simp [← ht])) (by decide)
    | cons c u =>
      obtain ⟨rfl, -⟩ := List.cons.inj ht
      exact ⟨u, hu⟩
  · exact absurd (hw '}' (by simp [hu])) (by decide)

/-- If the text of a property goes on behind a closing brace, its accessors are the same. -/
theorem accessorsOf_blockText_append {text : List Char} {accessors : Accessors}
    (h : accessorsOf (blockText text).toList = .ok accessors) (t : List Char) :
    accessorsOf (blockText (text ++ '}' :: t)).toList = .ok accessors := by
  rw [blockText, String.toList_ofList, accessorsOf_bodyText] at h ⊢
  obtain ⟨t', ht⟩ := exists_trimEnd_append_brace text t
  obtain ⟨w, htext, hw⟩ := exists_trimEnd_append text
  have hsplit : trimEnd (text ++ '}' :: t) = trimEnd text ++ (w ++ '}' :: t') := by
    rw [ht, ← List.append_assoc, ← htext]
  rw [hsplit]
  rw [accessorsOf_ok_iff] at h ⊢
  exact h.append (startsClosing_append_brace hw t')

end Graft.Recovery
