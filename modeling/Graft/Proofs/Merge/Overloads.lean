import Mathlib.Data.List.Nodup
import Graft.Proofs.Merge.Names

/-!
# Merging overloads

A generated overload goes to the first member that it matches. That need not be the one with its own
parameter list: among `Find(int, string)` and `Find(string, int)` it is the first, whichever of the
two is generated. If the first one carries the marker, it is replaced, and the generated overload
then stands there beside the old one with the same parameter list.

This is the only way in which two callables of one type come to have the same name and parameter
list. `EachFindsOwn` excludes it, and it does so for a whole run: what is brought in later finds its
own place still, or else finds that nothing has its key.
-/

namespace Graft.Merge

/-- The first member that `g` matches has its key, unless it is hand-written. So `g` replaces no
other overload. -/
def FindsOwn (target : List Member) (g : Member) : Prop :=
  ∀ x ∈ target.find? (·.isMatchFor g), x.isGenerated = true → x.key = g.key

/-- A generated member whose key is in the list already replaces no other overload. -/
def EachFindsOwn (target source : List Member) : Prop :=
  ∀ g ∈ source, (∃ e ∈ target, e.key = g.key) → FindsOwn target g

instance (target : List Member) : DecidablePred (FindsOwn target) :=
  fun g => inferInstanceAs
    (Decidable (∀ x ∈ target.find? (·.isMatchFor g), x.isGenerated = true → x.key = g.key))

instance (target source : List Member) : Decidable (EachFindsOwn target source) :=
  inferInstanceAs (Decidable (∀ g ∈ source, (∃ e ∈ target, e.key = g.key) → FindsOwn target g))

lemma findsOwn_of_find? {target : List Member} {g e : Member}
    (he : target.find? (·.isMatchFor g) = some e) (hk : e.isGenerated = true → e.key = g.key) :
    FindsOwn target g := by
  intro x hx hxg
  rw [he, Option.mem_some_iff] at hx
  subst hx
  exact hk hxg

/-! ### Lists in which one member changes -/

section Replace

variable {before after : List Member} {a b : Member}

lemma find?_append_cons_iff {p : Member → Bool} {x : Member} :
    (before ++ a :: after).find? p = some x ↔
      before.find? p = some x ∨
        before.find? p = none ∧ (p a = true ∧ a = x ∨ p a = false ∧ after.find? p = some x) := by
  rw [List.find?_append]
  cases before.find? p with
  | some y => simp
  | none => cases hp : p a <;> simp [hp]

lemma find?_of_first {p : Member → Bool} (hb : ∀ m ∈ before, p m = false) (ha : p a = true) :
    (before ++ a :: after).find? p = some a := by
  refine find?_append_cons_iff.mpr (.inr ⟨?_, .inl ⟨ha, rfl⟩⟩)
  rw [List.find?_eq_none]
  intro m hm
  simp [hb m hm]

lemma key_ne_of_nodup (h : ((before ++ a :: after).map Member.key).Nodup) {m : Member}
    (hm : m ∈ before ++ after) : m.key ≠ a.key := by
  obtain ⟨hbefore, hafter⟩ := not_mem_keys_of_nodup h
  intro hk
  rcases List.mem_append.mp hm with hm | hm
  · exact hbefore (List.mem_map.mpr ⟨m, hm, hk⟩)
  · exact hafter (List.mem_map.mpr ⟨m, hm, hk⟩)

lemma nodup_keys_replace (h : ((before ++ a :: after).map Member.key).Nodup)
    (hb : ∀ m ∈ before ++ after, m.key ≠ b.key) :
    ((before ++ b :: after).map Member.key).Nodup := by
  rw [List.map_append, List.map_cons, List.nodup_middle, List.nodup_cons, ← List.map_append] at h ⊢
  refine ⟨?_, h.2⟩
  intro hmem
  obtain ⟨m, hm, hk⟩ := List.mem_map.mp hmem
  exact hb m hm hk

end Replace

/-! ### Distinct keys stay distinct -/

lemma Step.nodup_keys {target target' : List Member} {g : Member}
    (ht : (target.map Member.key).Nodup)
    (hf : (∃ e ∈ target, e.key = g.key) → FindsOwn target g) (hs : Step target g target') :
    (target'.map Member.key).Nodup := by
  rcases hs.append_or_update with ⟨hm, -, rfl⟩ | ⟨before, e, e', after, rfl, rfl, hb, he, hu⟩
  · rw [List.map_append, List.map_singleton, ← List.concat_eq_append, List.nodup_concat]
    refine ⟨?_, ht⟩
    intro hg
    obtain ⟨m, hmt, hk⟩ := List.mem_map.mp hg
    have hmg := hm m hmt
    rw [Member.isMatchFor_of_key_eq hk] at hmg
    cases hmg
  · apply nodup_keys_replace ht
    intro m hm hme
    by_cases hgen : e.isGenerated = true
    · -- `g` replaces `e`, so it has the key of `e` or one that is new
      have hkg : e'.key = g.key := hu.key_of_generated hgen
      have hmt : m ∈ before ++ e :: after := Member.mem_append_cons_iff.mpr (.inr hm)
      have hown := hf ⟨m, hmt, hme.trans hkg⟩ e (find?_of_first hb he) hgen
      exact key_ne_of_nodup ht hm (hme.trans (hkg.trans hown.symm))
    · have hke := hu.key_of_hand_written (by simpa using hgen)
      exact key_ne_of_nodup ht hm (hme.trans hke)

lemma FindsOwn.append {target : List Member} {d : Member} (g : Member) (h : FindsOwn target d)
    (hd : ∃ c ∈ target, c.key = d.key) : FindsOwn (target ++ [g]) d := by
  obtain ⟨c, hc, hcd⟩ := hd
  have hsome : (target.find? (·.isMatchFor d)).isSome :=
    List.find?_isSome.mpr ⟨c, hc, Member.isMatchFor_of_key_eq hcd⟩
  obtain ⟨y, hy⟩ := Option.isSome_iff_exists.mp hsome
  intro x hx hxg
  rw [List.find?_append, hy] at hx
  refine h x ?_ hxg
  rw [hy]
  exact hx

/-- A member that goes to the place of another one does not come in the way of a third one, which
has its key in the list elsewhere. -/
lemma FindsOwn.update {before after : List Member} {e e' g d : Member}
    (ht : ((before ++ e :: after).map Member.key).Nodup) (hu : Updates e g e')
    (hd : ∃ c ∈ before ++ e' :: after, c.key = d.key) (hg : d.key ≠ g.key)
    (h : FindsOwn (before ++ e :: after) d) : FindsOwn (before ++ e' :: after) d := by
  obtain ⟨c, hc, hcd⟩ := hd
  -- a replaced member was not what `d` would find: if it had the key of `d`, no other one has it
  have hother : before.find? (·.isMatchFor d) = none → e.isGenerated = true →
      e.isMatchFor d = false := by
    intro hb hgen
    rw [Bool.eq_false_iff]
    intro hed
    have hke : e.key = d.key :=
      h e (find?_append_cons_iff.mpr (.inr ⟨hb, .inl ⟨hed, rfl⟩⟩)) hgen
    have hce' : c ≠ e' := by
      rintro rfl
      exact hg (hcd.symm.trans (hu.key_of_generated hgen))
    have hrest := (Member.mem_append_cons_iff.mp hc).resolve_left hce'
    exact key_ne_of_nodup ht hrest (hcd.trans hke.symm)
  intro x hx hxg
  rcases find?_append_cons_iff.mp hx with hb | ⟨hb, ⟨hp, rfl⟩ | ⟨hp, ha⟩⟩
  · exact h x (find?_append_cons_iff.mpr (.inl hb)) hxg
  · by_cases hgen : e.isGenerated = true
    · have hed := Member.isMatchFor_trans hu.isMatchFor hp
      rw [hother hb hgen] at hed
      cases hed
    · rw [hu.isGenerated_of_hand_written (by simpa using hgen)] at hxg
      cases hxg
  · refine h x (find?_append_cons_iff.mpr (.inr ⟨hb, .inr ⟨?_, ha⟩⟩)) hxg
    by_cases hgen : e.isGenerated = true
    · exact hother hb hgen
    · rw [← hp]
      exact (Member.isMatchFor_congr_key (hu.key_of_hand_written (by simpa using hgen)) d).symm

/-- Bringing in one member sends no later one to another overload. -/
lemma Step.eachFindsOwn {target target' part : List Member} {g : Member}
    (ht : (target.map Member.key).Nodup) (hg : ∀ d ∈ part, d.key ≠ g.key)
    (hf : EachFindsOwn target part) (hs : Step target g target') :
    EachFindsOwn target' part := by
  intro d hd hkey
  -- the key of `d` was in the list before
  have hbefore : ∃ m ∈ target, m.key = d.key := by
    obtain ⟨c, hc, hcd⟩ := hkey
    rcases hs.key_of_mem hc with ⟨m, hm, hmc, -⟩ | hgc
    · exact ⟨m, hm, hmc.trans hcd⟩
    · exact absurd (hgc.trans hcd).symm (hg d hd)
  rcases hs.append_or_update with ⟨-, -, rfl⟩ | ⟨before, e, e', after, rfl, rfl, -, -, hu⟩
  · exact (hf d hd hbefore).append g hbefore
  · exact (hf d hd hbefore).update ht hu hkey (hg d hd)

lemma Steps.nodup_keys {target source grown : List Member} (ht : (target.map Member.key).Nodup)
    (hs : (source.map Member.key).Nodup) (hf : EachFindsOwn target source)
    (h : Steps target source grown) : (grown.map Member.key).Nodup := by
  induction source generalizing target with
  | nil =>
    cases h
    exact ht
  | cons g gs ih =>
    rw [List.map_cons, List.nodup_cons] at hs
    cases h with
    | cons h hsteps =>
      have hgs : ∀ d ∈ gs, d.key ≠ g.key := fun d hd hk => hs.1 (hk ▸ List.mem_map_of_mem hd)
      have hrest : EachFindsOwn target gs := fun d hd => hf d (List.mem_cons_of_mem _ hd)
      refine ih (h.nodup_keys ht (hf g List.mem_cons_self)) hs.2 ?_ hsteps
      exact h.eachFindsOwn ht hgs hrest

lemma Merges.nodup_keys {target source merged : List Member}
    (ht : (target.map Member.key).Nodup) (hs : (source.map Member.key).Nodup)
    (hf : EachFindsOwn target source) (h : Merges target source merged) :
    (merged.map Member.key).Nodup := by
  obtain ⟨grown, hsteps, rfl⟩ := h
  exact (hsteps.nodup_keys ht hs hf).sublist (List.filter_sublist.map Member.key)

/-- When callables of one name have distinct parameter lists on both sides, they have in the merged
tree, provided that a generated overload with an exact counterpart replaces no other overload. -/
theorem overloads_stay_distinct {existing generated merged : DeclarationTree}
    (hd : DistinctTypes generated)
    (hne : EveryType DistinctNames existing) (hng : EveryType DistinctNames generated)
    (hoe : EveryType DistinctOverloads existing) (hog : EveryType DistinctOverloads generated)
    (hf : EveryTypePair EachFindsOwn existing generated)
    (h : (mergeTrees existing generated).outcome = .ok merged) :
    EveryType DistinctOverloads merged := by
  have hkeys : EveryType (fun ms => (ms.map Member.key).Nodup) merged := by
    refine mergeTrees_everyType (R := EachFindsOwn) ?_ ?_ hd hf ?_ ?_ h
    · intro target source merged hf ht hs hm
      exact hm.nodup_keys ht hs hf
    · intro ms hms
      exact (nodup_keys_iff.mp hms).1.distinctNested
    · exact (hne.and hoe).imp fun ms => nodup_keys_iff.mpr
    · exact (hng.and hog).imp fun ms => nodup_keys_iff.mpr
  exact hkeys.imp fun ms hms => (nodup_keys_iff.mp hms).2

/-- A hand-written method without a result. -/
def finder (signature : List String) : Member :=
  Member.ofMethod "Find" signature

/-- The same method with the marker. -/
def generatedFinder (signature : List String) : Member :=
  (finder signature).annotate .generate

/-- `Find(int, int)` matches a hand-written overload first, which it does not replace. -/
theorem finders_stay_distinct :
    (mergeTrees
        (.ofMembers "Shop" "Order" [finder ["int", "string"], generatedFinder ["int", "int"]])
        (.ofMembers "Shop" "Order" [generatedFinder ["int", "int"]])).outcome =
      .ok (.ofMembers "Shop" "Order" [finder ["int", "string"], generatedFinder ["int", "int"]]) ∧
    EveryTypePair EachFindsOwn
      (.ofMembers "Shop" "Order" [finder ["int", "string"], generatedFinder ["int", "int"]])
      (.ofMembers "Shop" "Order" [generatedFinder ["int", "int"]]) ∧
    EveryType DistinctOverloads
      (.ofMembers "Shop" "Order" [finder ["int", "string"], generatedFinder ["int", "int"]]) := by
  have hm : (mergeTrees
      (.ofMembers "Shop" "Order" [finder ["int", "string"], generatedFinder ["int", "int"]])
      (.ofMembers "Shop" "Order" [generatedFinder ["int", "int"]])).outcome =
      .ok (.ofMembers "Shop" "Order" [finder ["int", "string"], generatedFinder ["int", "int"]]) :=
    rfl
  have hf : EveryPair EachFindsOwn [finder ["int", "string"], generatedFinder ["int", "int"]]
      [generatedFinder ["int", "int"]] := .of_nestedTypes_eq_nil (by decide) rfl
  have hd := overloads_stay_distinct (distinctTypes_ofMembers _ _ _) (.ofMembers (by decide) rfl)
    (.ofMembers (by decide) rfl) (.ofMembers (by decide) rfl) (.ofMembers (by decide) rfl)
    (hf.ofMembers _ _) hm
  exact ⟨hm, hf.ofMembers _ _, hd⟩

/-- The generated `Find(string, int)` replaces `Find(int, string)` and stands beside a hand-written
method with its very parameter list. -/
theorem finder_duplicated :
    WellFormed
      (.ofMembers "Shop" "Order" [generatedFinder ["int", "string"], finder ["string", "int"]]) ∧
    WellFormed (.ofMembers "Shop" "Order" [generatedFinder ["string", "int"]]) ∧
    EveryType DistinctOverloads
      (.ofMembers "Shop" "Order" [generatedFinder ["int", "string"], finder ["string", "int"]]) ∧
    EveryType DistinctOverloads
      (.ofMembers "Shop" "Order" [generatedFinder ["string", "int"]]) ∧
    (mergeTrees
        (.ofMembers "Shop" "Order" [generatedFinder ["int", "string"], finder ["string", "int"]])
        (.ofMembers "Shop" "Order" [generatedFinder ["string", "int"]])).outcome =
      .ok (.ofMembers "Shop" "Order"
        [generatedFinder ["string", "int"], finder ["string", "int"]]) ∧
    ¬ EveryType DistinctOverloads (.ofMembers "Shop" "Order"
      [generatedFinder ["string", "int"], finder ["string", "int"]]) := by
  refine ⟨wellFormed_ofMembers ⟨by decide, by decide⟩ rfl,
    wellFormed_ofMembers ⟨by decide, by decide⟩ rfl, .ofMembers (by decide) rfl,
    .ofMembers (by decide) rfl, rfl, ?_⟩
  intro hd
  have hdistinct := (hd _ (List.mem_singleton_self _) _ (List.mem_singleton_self _)).here
  revert hdistinct
  decide

end Graft.Merge
