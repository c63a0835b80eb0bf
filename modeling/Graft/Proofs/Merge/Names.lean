import Graft.Proofs.Merge.Keys

/-!
# Merged trees are well-formed

In a well-formed tree a name tells which declaration is meant, up to overloads. A merge keeps this,
although it breaks it on the way: a generated member may come in next to an old one of its name and
another class, if the old one carries the marker. Such an old member is stale. No generated member
matches it, since that one would clash with the one that came in.
-/

namespace Graft

/-- No two members clash, and the members of each class that cannot be overloaded have distinct
names. -/
structure WellNamed (ms : List Member) : Prop where
  noClash : NoClash ms
  distinctNames : DistinctNames ms

/-- The names of namespaces are distinct, those of types within a namespace, and those of the
members of every type. -/
structure WellFormed (tree : DeclarationTree) : Prop extends DistinctTypes tree where
  members : EveryType WellNamed tree

namespace Merge

/-! ### Names within a class -/

/-- Whether names are distinct is decided by the names and the classes of the members. -/
lemma distinctNames_iff {ms : List Member} :
    DistinctNames ms ↔
      (ms.map fun m => (m.name, m.nameClass)).Pairwise
        fun a b => a.2 = b.2 → a.2 ≠ .callable → a.1 ≠ b.1 := by
  rw [List.pairwise_map]
  rfl

/-- A step keeps names and classes, or appends a member that none matches. -/
lemma Step.distinctNames {target target' : List Member} {g : Member} (ht : DistinctNames target)
    (hs : Step target g target') : DistinctNames target' := by
  rcases hs.append_or_update with ⟨hm, -, rfl⟩ | ⟨before, e, e', after, rfl, rfl, -, -, hu⟩
  · refine List.pairwise_append.mpr ⟨ht, List.pairwise_singleton _ _, ?_⟩
    intro m hmt g' hg' hk hc hn
    obtain rfl := List.mem_singleton.mp hg'
    have hmg : m.isMatchFor g' = true :=
      Member.isMatchFor_iff.mpr ⟨hn, hk, fun h => absurd h hc⟩
    rw [hm m hmt] at hmg
    cases hmg
  · rw [distinctNames_iff] at ht ⊢
    simpa [hu.name_eq, hu.nameClass_eq] using ht

lemma Steps.distinctNames {target source grown : List Member} (ht : DistinctNames target)
    (hs : Steps target source grown) : DistinctNames grown := by
  induction source generalizing target with
  | nil =>
    cases hs
    exact ht
  | cons g gs ih =>
    cases hs with
    | cons h hs => exact ih (h.distinctNames ht) hs

lemma Merges.distinctNames {target source merged : List Member} (ht : DistinctNames target)
    (h : Merges target source merged) : DistinctNames merged := by
  obtain ⟨grown, hs, rfl⟩ := h
  exact List.Pairwise.filter _ (hs.distinctNames ht)

/-! ### Names across classes -/

/-- Where a name belongs to one class and a hand-written member has it, only members of that class
can be brought in under it. -/
lemma Steps.nameClass_of_hand_written {target part grown : List Member} {n : String}
    {c : NameClass} (hm : ∃ m ∈ target, m.isGenerated = false ∧ m.name = n ∧ m.nameClass = c)
    (hc : ∀ m ∈ target, m.name = n → m.nameClass = c) (hs : Steps target part grown) :
    ∀ g ∈ part, g.name = n → g.nameClass = c := by
  induction part generalizing target with
  | nil =>
    intro g hg
    cases hg
  | cons g gs ih =>
    cases hs with
    | @cons _ middle _ _ _ h hs =>
      obtain ⟨m, hmt, hmg, hmn, hmc⟩ := hm
      have hg : g.name = n → g.nameClass = c := by
        intro hn
        by_contra hne
        rcases h.append_or_update with ⟨-, hcl, -⟩ | ⟨before, e, e', after, rfl, -, -, he, -⟩
        · have hmcl : m.clashesWith g = true :=
            Member.clashesWith_iff.mpr ⟨hmn.trans hn.symm, fun he => hne (he ▸ hmc)⟩
          rw [hcl m hmt hmcl] at hmg
          cases hmg
        · -- the place it goes to has its name and its class
          obtain ⟨hen, hek, -⟩ := Member.isMatchFor_iff.mp he
          exact hne (hek ▸ hc e (by simp) (hen.trans hn))
      obtain ⟨m', hm', hk', hg'⟩ := h.hand_written hmt hmg
      obtain ⟨hn', hc', -⟩ := Member.key_eq_iff.mp hk'
      have hmiddle : ∀ x ∈ middle, x.name = n → x.nameClass = c := by
        intro x hx hxn
        rcases h.key_of_mem hx with ⟨y, hy, hk, -⟩ | hk
        · obtain ⟨hyn, hyc, -⟩ := Member.key_eq_iff.mp hk
          exact hyc ▸ hc y hy (hyn.trans hxn)
        · obtain ⟨hgn, hgc, -⟩ := Member.key_eq_iff.mp hk
          exact hgc ▸ hg (hgn.trans hxn)
      intro d hd
      rcases List.mem_cons.mp hd with rfl | hd
      · exact hg
      · exact ih ⟨m', hm', hg', hn'.trans hmn, hc'.trans hmc⟩ hmiddle hs d hd

/-- A member that was there before does not clash with one that came in. -/
lemma Merges.not_clashesWith {target source merged : List Member} (ht : NoClash target)
    (hs : NoClash source) (h : Merges target source merged) {a m g : Member} (ha : a ∈ merged)
    (hm : m ∈ target) (hma : m.key = a.key) (hmg : m.isGenerated = a.isGenerated)
    (hg : g ∈ source) : a.clashesWith g = false := by
  obtain ⟨grown, hsteps, rfl⟩ := h
  have hfresh : isStale source a = false := by simpa using (List.mem_filter.mp ha).2
  rw [Bool.eq_false_iff]
  intro hcl
  obtain ⟨hn, hne⟩ := Member.clashesWith_iff.mp hcl
  by_cases hgen : a.isGenerated = true
  · -- `a` stayed, so a generated member of its name and class matches it, and clashes with `g`
    have hex : ∃ d ∈ source, d.isMatchFor a = true := by
      by_contra hno
      rw [Bool.eq_false_iff, ne_eq, isStale_iff] at hfresh
      apply hfresh
      refine ⟨hgen, ?_⟩
      intro d hd
      rw [Bool.eq_false_iff]
      intro hda
      exact hno ⟨d, hd, hda⟩
    obtain ⟨d, hd, hda⟩ := hex
    obtain ⟨hdn, hdc, -⟩ := Member.isMatchFor_iff.mp hda
    have hdg : d.clashesWith g = true :=
      Member.clashesWith_iff.mpr ⟨hdn.trans hn, fun he => hne (hdc ▸ he)⟩
    rw [hs d hd g hg] at hdg
    cases hdg
  · -- `a` is hand-written, so `g` could not have come in
    have hgen : a.isGenerated = false := by simpa using hgen
    obtain ⟨hmn, hmc, -⟩ := Member.key_eq_iff.mp hma
    have hclass : ∀ x ∈ target, x.name = g.name → x.nameClass = a.nameClass := by
      intro x hx hxn
      by_contra hxc
      have hxm : x.clashesWith m = true :=
        Member.clashesWith_iff.mpr
          ⟨hxn.trans (hn.symm.trans hmn.symm), fun he => hxc (he.trans hmc)⟩
      rw [ht x hx m hm] at hxm
      cases hxm
    have hw : ∃ x ∈ target, x.isGenerated = false ∧ x.name = g.name ∧ x.nameClass = a.nameClass :=
      ⟨m, hm, hmg.trans hgen, hmn.trans hn, hmc⟩
    exact hne (hsteps.nameClass_of_hand_written hw hclass g hg rfl).symm

/-- No clash comes up between the two sides: it would have been with a hand-written member, where
the merge fails, or with a marked one, which is stale then. -/
lemma Merges.noClash {target source merged : List Member} (ht : NoClash target)
    (hs : NoClash source) (h : Merges target source merged) : NoClash merged := by
  intro a ha b hb
  rcases h.key_of_mem ha with ⟨m, hm, hma, hmg⟩ | ⟨g, hg, hga⟩
  · rcases h.key_of_mem hb with ⟨m', hm', hmb, -⟩ | ⟨g', hg', hgb⟩
    · rw [← Member.clashesWith_congr_key hma hmb]
      exact ht m hm m' hm'
    · rw [← Member.clashesWith_congr_key rfl hgb]
      exact h.not_clashesWith ht hs ha hm hma hmg hg'
  · rcases h.key_of_mem hb with ⟨m', hm', hmb, hmg'⟩ | ⟨g', hg', hgb⟩
    · rw [← Member.clashesWith_congr_key hga rfl, Member.clashesWith_comm]
      exact h.not_clashesWith ht hs hb hm' hmb hmg' hg
    · rw [← Member.clashesWith_congr_key hga hgb]
      exact hs g hg g' hg'

/-! ### Trees -/

/-- Types and namespaces are joined by name, so no name comes twice. -/
lemma mergeTrees_distinctTypes {existing generated merged : DeclarationTree}
    (he : DistinctTypes existing) (hg : DistinctTypes generated)
    (h : (mergeTrees existing generated).outcome = .ok merged) : DistinctTypes merged := by
  rw [mergeTrees_ok_iff] at h
  refine ⟨h.nodup_keys @JoinsNamespace.name_eq he.namespaces, ?_⟩
  intro n' hn'
  rcases h.mem_cases @JoinsNamespace.name_eq hg.namespaces hn' with
    hn | hn | ⟨n, hn, _, _, _, types, hj, rfl⟩
  · exact he.types n' hn
  · exact hg.types n' hn
  · exact hj.nodup_keys @JoinsType.name_eq (he.types n hn)

lemma Merges.wellNamed {target source merged : List Member} (ht : WellNamed target)
    (hs : WellNamed source) (h : Merges target source merged) : WellNamed merged :=
  ⟨h.noClash ht.noClash hs.noClash, h.distinctNames ht.distinctNames⟩

/-- Merging a well-formed tree into a well-formed one leaves a well-formed one. -/
theorem merged_tree_wellFormed {existing generated merged : DeclarationTree}
    (he : WellFormed existing) (hg : WellFormed generated)
    (h : (mergeTrees existing generated).outcome = .ok merged) : WellFormed merged where
  toDistinctTypes := mergeTrees_distinctTypes he.toDistinctTypes hg.toDistinctTypes h
  members := by
    have hr : EveryTypePair (fun _ _ => True) existing generated := by
      intro n hn g _ _ t ht u _ _
      exact .of_forall (fun _ _ => trivial) (he.members n hn t ht) u.members
    refine mergeTrees_everyType ?_ ?_ hg.toDistinctTypes hr he.members hg.members h
    · intro target source merged _ ht hs hm
      exact hm.wellNamed ht hs
    · intro ms hms
      exact hms.distinctNames.distinctNested

lemma wellFormed_ofMembers {ns type : String} {ms : List Member} (h : WellNamed ms)
    (hn : nestedTypes ms = []) : WellFormed (.ofMembers ns type ms) where
  toDistinctTypes := distinctTypes_ofMembers ns type ms
  members := .ofMembers h hn

/-- A generated field turns into a property, next to a hand-written method. While the members are
brought in, both are there. -/
theorem field_turned_into_property_wellFormed :
    WellFormed (.ofMembers "Shop" "Order"
      [(Member.ofField "Total" "decimal").annotate .generate, .ofMethod "Audit" []]) ∧
    WellFormed (.ofMembers "Shop" "Order"
      [(Member.ofProperty "Total" "decimal").annotate .generate]) ∧
    (mergeTrees
        (.ofMembers "Shop" "Order"
          [(Member.ofField "Total" "decimal").annotate .generate, .ofMethod "Audit" []])
        (.ofMembers "Shop" "Order"
          [(Member.ofProperty "Total" "decimal").annotate .generate])).outcome =
      .ok (.ofMembers "Shop" "Order"
        [.ofMethod "Audit" [], (Member.ofProperty "Total" "decimal").annotate .generate]) ∧
    WellFormed (.ofMembers "Shop" "Order"
      [.ofMethod "Audit" [], (Member.ofProperty "Total" "decimal").annotate .generate]) := by
  have he : WellFormed (.ofMembers "Shop" "Order"
      [(Member.ofField "Total" "decimal").annotate .generate, .ofMethod "Audit" []]) :=
    wellFormed_ofMembers ⟨by decide, by decide⟩ rfl
  have hg : WellFormed (.ofMembers "Shop" "Order"
      [(Member.ofProperty "Total" "decimal").annotate .generate]) :=
    wellFormed_ofMembers ⟨by decide, by decide⟩ rfl
  have hm : (mergeTrees
      (.ofMembers "Shop" "Order"
        [(Member.ofField "Total" "decimal").annotate .generate, .ofMethod "Audit" []])
      (.ofMembers "Shop" "Order"
        [(Member.ofProperty "Total" "decimal").annotate .generate])).outcome =
      .ok (.ofMembers "Shop" "Order"
        [.ofMethod "Audit" [], (Member.ofProperty "Total" "decimal").annotate .generate]) := rfl
  exact ⟨he, hg, hm, merged_tree_wellFormed he hg hm⟩

end Merge

end Graft
