import Mathlib.Data.List.Infix
import Graft.Recovery.AccessorClauses

/-!
# Balanced texts

A text is balanced if its braces are. The block of an accessor is read up to the first closing brace
that opens nothing before it: that is the one before which the text is balanced,
`splitBlock?_eq_some_iff`, and if there is none, the block does not end.
-/

namespace Graft.Recovery

/-- No beginning of the text closes more than it opens, and nothing stays open. -/
structure Balanced (s : List Char) : Prop where
  count_le : ∀ t ∈ s.inits, t.count '}' ≤ t.count '{'
  count_eq : s.count '{' = s.count '}'

/-! ### Open blocks -/

/-- The text closes that many blocks besides those it opens, and no beginning of it closes more. -/
structure ClosesAll (depth : Nat) (s : List Char) : Prop where
  count_le : ∀ t, t <+: s → t.count '}' ≤ t.count '{' + depth
  count_eq : s.count '}' = s.count '{' + depth

lemma balanced_iff_closesAll {s : List Char} : Balanced s ↔ ClosesAll 0 s := by
  constructor
  · intro h
    exact ⟨fun t ht => h.count_le t ((List.mem_inits t s).mpr ht), h.count_eq.symm⟩
  · intro h
    exact ⟨fun t ht => h.count_le t ((List.mem_inits t s).mp ht), h.count_eq.symm⟩

lemma closesAll_nil : ClosesAll 0 [] := by
  refine ⟨fun t ht => ?_, rfl⟩
  rw [List.prefix_nil.mp ht]
  exact Nat.le_refl 0

lemma not_closesAll_zero_cons (s : List Char) : ¬ ClosesAll 0 ('}' :: s) := by
  intro h
  have hle := h.count_le ['}'] ⟨s, rfl⟩
  simp at hle

/-- A character in front changes how many blocks are open behind it. -/
lemma closesAll_cons_iff {c : Char} {depth depth' : Nat}
    (h : [c].count '{' + depth = [c].count '}' + depth') (s : List Char) :
    ClosesAll depth (c :: s) ↔ ClosesAll depth' s := by
  have hcount : ∀ b (t : List Char), (c :: t).count b = [c].count b + t.count b := by
    intro b t
    rw [← List.singleton_append, List.count_append]
  constructor
  · rintro ⟨hle, heq⟩
    refine ⟨fun t ht => ?_, ?_⟩
    · have hle := hle (c :: t) (List.cons_prefix_cons.mpr ⟨rfl, ht⟩)
      rw [hcount '}' t, hcount '{' t] at hle
      omega
    · rw [hcount '}' s, hcount '{' s] at heq
      omega
  · rintro ⟨hle, heq⟩
    refine ⟨fun t ht => ?_, ?_⟩
    · rcases List.prefix_cons_iff.mp ht with rfl | ⟨u, rfl, hu⟩
      · exact Nat.zero_le _
      · have hle := hle u hu
        rw [hcount '}' u, hcount '{' u]
        omega
    · rw [hcount '}' s, hcount '{' s]
      omega

/-! ### The block that ends -/

/-- The rest of a block that is open `depth` levels down ends with the brace that closes all of
them. -/
lemma splitBlock?_eq_some_iff_closesAll {depth : Nat} {seen s block rest : List Char} :
    splitBlock? depth seen s = some (block, rest) ↔
      ∃ t, block = seen.reverse ++ t ∧ s = t ++ '}' :: rest ∧ ClosesAll depth t := by
  induction s generalizing depth seen with
  | nil => simp [splitBlock?]
  | cons c cs ih =>
    -- reading one more character of the block, which leaves `depth'` levels open
    have hstep : ∀ {depth'}, [c].count '{' + depth = [c].count '}' + depth' →
        (c = '}' → depth ≠ 0) →
        ((∃ t, block = (c :: seen).reverse ++ t ∧ cs = t ++ '}' :: rest ∧ ClosesAll depth' t) ↔
          ∃ t, block = seen.reverse ++ t ∧ c :: cs = t ++ '}' :: rest ∧ ClosesAll depth t) := by
      intro depth' hd hc
      constructor
      · rintro ⟨t, rfl, rfl, ht⟩
        exact ⟨c :: t, by simp, rfl, (closesAll_cons_iff hd t).mpr ht⟩
      · rintro ⟨t, rfl, hs, ht⟩
        cases t with
        | nil =>
          obtain ⟨rfl, -⟩ := List.cons.inj hs
          exact absurd (by simpa using ht.count_eq.symm) (hc rfl)
        | cons e t =>
          obtain ⟨rfl, rfl⟩ := List.cons.inj hs
          exact ⟨t, by simp, rfl, (closesAll_cons_iff hd t).mp ht⟩
    unfold splitBlock?
    split
    · next hc =>
      subst hc
      cases depth with
      | zero =>
        simp only [Option.some.injEq, Prod.mk.injEq]
        constructor
        · rintro ⟨rfl, rfl⟩
          exact ⟨[], by simp, rfl, closesAll_nil⟩
        · rintro ⟨t, rfl, hs, ht⟩
          cases t with
          | nil => exact ⟨by simp, (List.cons.inj hs).2⟩
          | cons e t =>
            obtain ⟨rfl, -⟩ := List.cons.inj hs
            exact absurd ht (not_closesAll_zero_cons t)
      | succ depth =>
        rw [ih]
        exact hstep (by simp; omega) (by simp)
    · next hc =>
      split
      · next ho =>
        subst ho
        rw [ih]
        exact hstep (by simp; omega) (by simp)
      · next ho =>
        rw [ih]
        exact hstep (by simp [hc, ho]) (fun h => absurd h hc)

/-- A block is split off up to the closing brace before which the text is balanced. -/
theorem splitBlock?_eq_some_iff {s block rest : List Char} :
    splitBlock? 0 [] s = some (block, rest) ↔ s = block ++ '}' :: rest ∧ Balanced block := by
  rw [splitBlock?_eq_some_iff_closesAll, balanced_iff_closesAll]
  simp

/-- A block does not end if no closing brace has a balanced text before it. -/
theorem splitBlock?_eq_none_iff {s : List Char} :
    splitBlock? 0 [] s = none ↔ ∀ block rest, s = block ++ '}' :: rest → ¬ Balanced block := by
  simp only [Option.eq_none_iff_forall_ne_some, Prod.forall, ne_eq, splitBlock?_eq_some_iff,
    not_and]

end Graft.Recovery
