import Graft.Proofs.Recovery.Nesting

/-!
# Extents tile the lines of a type

The extents of the members of one type follow each other without a gap: where one stops the next
one starts, the first one starts with the first member and the last one stops where the type ends.
So every line in between belongs to exactly one of them, and their lines in a document, one extent
after the other, are the document's lines from the first member to the end of the type, wherever
the document itself ends.
-/

namespace Graft

/-- How many closing braces of enclosing scopes come before the end. -/
def TypeEnd.scopes : TypeEnd → Nat
  | .onLine _ => 0
  | .before _ scopes => scopes

namespace Extent

lemma ofLast_eq (start : Nat) (bound : TypeEnd) :
    ofLast start bound =
      { start, stop := bound.stop, isLast := true, scopes := bound.scopes } := by
  cases bound <;> rfl

/-! ### Chains of extents -/

/-- The extents are not empty, the first one starts on line `start`, each of the others where the
one before it stops, and the last one stops before line `stop`. -/
def Chain (start : Nat) : List Extent → Nat → Prop
  | [], stop => start = stop
  | x :: xs, stop => x.start = start ∧ start < x.stop ∧ Chain x.stop xs stop

lemma Chain.bounds {start stop : Nat} {xs : List Extent} (h : Chain start xs stop) :
    start ≤ stop ∧ ∀ x ∈ xs, start ≤ x.start ∧ x.start < x.stop ∧ x.stop ≤ stop := by
  induction xs generalizing start with
  | nil => exact ⟨Nat.le_of_eq h, by simp⟩
  | cons x xs ih =>
    obtain ⟨hstart, hlt, hxs⟩ := h
    obtain ⟨hle, hmem⟩ := ih hxs
    refine ⟨by omega, List.forall_mem_cons.mpr ⟨by omega, fun y hy => ?_⟩⟩
    obtain ⟨hstart', hlt', hstop'⟩ := hmem y hy
    exact ⟨by omega, hlt', hstop'⟩

/-- Every line of a chain belongs to exactly one of its extents. -/
theorem Chain.existsUnique_holds {start stop : Nat} {xs : List Extent} (h : Chain start xs stop)
    {n : Nat} (hstart : start ≤ n) (hstop : n < stop) : ∃! x, x ∈ xs ∧ x.Holds n := by
  induction xs generalizing start with
  | nil => exact absurd (Nat.lt_of_le_of_lt hstart hstop) (h ▸ Nat.lt_irrefl start)
  | cons x xs ih =>
    obtain ⟨rfl, hlt, hxs⟩ := h
    by_cases hn : n < x.stop
    · refine ⟨x, ⟨List.mem_cons_self, hstart, hn⟩, fun y ⟨hy, hholds⟩ => ?_⟩
      obtain rfl | hy := List.mem_cons.mp hy
      · rfl
      · have hafter := (hxs.bounds.2 y hy).1
        exact absurd hholds.1 (by omega)
    · obtain ⟨y, ⟨hy, hholds⟩, hunique⟩ := ih hxs (Nat.le_of_not_lt hn)
      refine ⟨y, ⟨List.mem_cons_of_mem x hy, hholds⟩, fun z ⟨hz, hz'⟩ => ?_⟩
      obtain rfl | hz := List.mem_cons.mp hz
      · exact absurd hz'.2 hn
      · exact hunique z ⟨hz, hz'⟩

/-- The lines of the extents of a chain, one extent after the other. -/
theorem Chain.flatMap_between {start stop : Nat} {xs : List Extent} (h : Chain start xs stop)
    (d : Document) : (xs.flatMap fun x => d.between x.start x.stop) = d.between start stop := by
  induction xs generalizing start with
  | nil => rw [List.flatMap_nil, show start = stop from h, d.between_self]
  | cons x xs ih =>
    obtain ⟨rfl, hlt, hxs⟩ := h
    rw [List.flatMap_cons, ih hxs, d.between_append (Nat.le_of_lt hlt) hxs.bounds.1]

/-! ### The extents of the members of a type -/

lemma map_stop_tiling (bound : TypeEnd) (starts : List Nat) :
    (tiling bound starts).map stop = (starts ++ [bound.stop]).tail := by
  induction starts with
  | nil => rfl
  | cons s rest ih =>
    cases rest with
    | nil => simp [ofLast_eq]
    | cons n rest => simpa using ih

/-- Only the last extent is known to be the last, and only it holds closing braces of enclosing
scopes. -/
lemma isLast_and_scopes_of_tiling {bound : TypeEnd} {starts : List Nat} {i : Nat} {x : Extent}
    (h : (tiling bound starts)[i]? = some x) :
    (x.isLast = true ↔ i + 1 = starts.length) ∧
      x.scopes = if i + 1 = starts.length then bound.scopes else 0 := by
  induction starts generalizing i with
  | nil => cases h
  | cons s rest ih =>
    cases rest with
    | nil =>
      rw [tiling_singleton, ofLast_eq] at h
      obtain ⟨rfl, rfl⟩ : i = 0 ∧ _ := by simpa [List.getElem?_singleton] using h
      simp
    | cons n rest =>
      rw [tiling_cons_cons] at h
      cases i with
      | zero =>
        obtain rfl := Option.some.inj h
        simp
      | succ i => simpa using ih h

/-- The extents of members in order form a chain from the first member to the end of the type. -/
lemma chain_tiling {bound : TypeEnd} {first : Nat} {rest : List Nat}
    (hsorted : (first :: rest).Pairwise (· < ·))
    (hbound : ∀ last ∈ (first :: rest).getLast?, last < bound.stop) :
    Chain first (tiling bound (first :: rest)) bound.stop := by
  induction rest generalizing first with
  | nil =>
    rw [tiling_singleton, ofLast_eq]
    exact ⟨rfl, hbound first rfl, rfl⟩
  | cons next rest ih =>
    obtain ⟨hfirst, hrest⟩ := List.pairwise_cons.mp hsorted
    rw [tiling_cons_cons]
    exact ⟨rfl, hfirst next List.mem_cons_self, ih hrest fun last hlast => hbound last hlast⟩

/-- The extents of members in order, in a type that ends behind the last of them, tile the lines of
the type. There is one for each member, and it starts with the member; it is not empty, and stops
where the next one starts or where the type ends; only the last one is marked so and holds closing
braces of enclosing scopes. Every line from the first member to the end of the type belongs to
exactly one extent, and in every document the lines of all extents are those lines, in order. -/
theorem tiling_tiles {bound : TypeEnd} {starts : List Nat} (hpos : ∀ s ∈ starts, 1 ≤ s)
    (hsorted : starts.Pairwise (· < ·)) (hbound : ∀ last ∈ starts.getLast?, last < bound.stop) :
    (tiling bound starts).map start = starts ∧
      (tiling bound starts).map stop = (starts ++ [bound.stop]).tail ∧
      (∀ x ∈ tiling bound starts, 1 ≤ x.start ∧ x.start < x.stop) ∧
      (∀ i x, (tiling bound starts)[i]? = some x →
        (x.isLast = true ↔ i + 1 = starts.length) ∧
          x.scopes = if i + 1 = starts.length then bound.scopes else 0) ∧
      ∀ first ∈ starts.head?,
        (∀ n, first ≤ n → n < bound.stop → ∃! x, x ∈ tiling bound starts ∧ x.Holds n) ∧
          ∀ d : Document,
            ((tiling bound starts).flatMap fun x => d.between x.start x.stop) =
              d.between first bound.stop := by
  refine ⟨map_start_tiling bound starts, map_stop_tiling bound starts, ?_,
    fun i x => isLast_and_scopes_of_tiling, ?_⟩
  · intro x hx
    have hstart : x.start ∈ starts := by
      rw [← map_start_tiling bound starts]
      exact List.mem_map_of_mem hx
    cases starts with
    | nil => cases hx
    | cons first rest =>
      exact ⟨hpos _ hstart, ((chain_tiling hsorted hbound).bounds.2 x hx).2.1⟩
  · intro first hfirst
    cases starts with
    | nil => cases hfirst
    | cons first rest =>
      obtain rfl := Option.some.inj hfirst
      have hchain := chain_tiling hsorted hbound
      exact ⟨fun n => hchain.existsUnique_holds, hchain.flatMap_between⟩

/-- Three members, of which the last one and the end of the type lie behind the document's four
lines. -/
theorem tiling_past_the_end :
    (∀ s ∈ [2, 4, 7], 1 ≤ s) ∧ [2, 4, 7].Pairwise (· < ·) ∧ 7 < (TypeEnd.before 9 1).stop ∧
      tiling (.before 9 1) [2, 4, 7] =
        [{ start := 2, stop := 4 }, { start := 4, stop := 7 },
          { start := 7, stop := 9, isLast := true, scopes := 1 }] ∧
      ((tiling (.before 9 1) [2, 4, 7]).flatMap fun x =>
          (Document.ofLines ["a", "b", "c", "d"]).between x.start x.stop) =
        (Document.ofLines ["a", "b", "c", "d"]).between 2 9 :=
  ⟨by decide, by decide, by decide, rfl,
    ((tiling_tiles (by decide) (by decide) (by decide)).2.2.2.2 2 rfl).2 _⟩

end Extent

end Graft
