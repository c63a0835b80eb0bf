import Graft.Proofs.Merge.Shape
import Graft.Proofs.Merge.TreeSteps

/-!
# Merging inside nested types

Among the nested types of a member list a merge goes by name, as it does among the types of a
namespace. So what holds of each pair of member lists that a merge pairs up, and is passed on to
the merged list, holds of every type of the merged tree: `Merges.everyDepth` for the types nested in
one, and `mergeTrees_everyType` for the whole tree.
-/

namespace Graft.Merge

/-! ### Nested types by name -/

/-- Joining two nested types: the members are merged, everything else stays. -/
def JoinsNested (old incoming new : NestedType) : Prop :=
  ∃ members, Merges old.members incoming.members members ∧ new = { old with members }

lemma JoinsNested.name_eq {old g new : NestedType} (h : JoinsNested old g new) :
    new.head.name = old.head.name := by
  obtain ⟨members, -, rfl⟩ := h
  rfl

lemma nestedTypes_renewed_cons {e : Member} {h : MemberHead} {c : Content}
    (he : e.isMatchFor (.plain h c) = true) (ms : List Member) :
    nestedTypes (renewed e (.plain h c) :: ms) = nestedTypes (e :: ms) := by
  cases e with
  | nested k t inner => simp at he
  | plain k d =>
    unfold renewed
    split <;> rfl

lemma name_ne_of_mem_nestedTypes {ms source : List Member} {h : MemberHead} {t : TypeHeader}
    (hb : ∀ m ∈ ms, m.isMatchFor (.nested h t source) = false) :
    ∀ x ∈ nestedTypes ms, x.head.name ≠ h.name := by
  intro x hx
  exact Member.nested_isMatchFor_nested_eq_false_iff.mp (hb _ (mem_nestedTypes.mp hx))

/-- Nested types are brought into a member list by name, as types are into a namespace. -/
theorem Steps.nestedTypes {target source grown : List Member} (hs : Steps target source grown) :
    KeyedSteps (·.head.name) JoinsNested (nestedTypes target) (nestedTypes source)
      (nestedTypes grown) := by
  induction source generalizing target with
  | nil =>
    cases hs
    exact .nil _
  | cons g gs ih =>
    cases hs with
    | cons h hs =>
      have hgs := ih hs
      -- only a nested type is a step of the nested types
      cases h with
      | append hm _ =>
        cases g with
        | plain k c => simpa using hgs
        | nested k t inner =>
          rw [nestedTypes_nested_cons]
          refine .cons ?_ hgs
          rw [nestedTypes_append, nestedTypes_nested_cons, nestedTypes_nil]
          have ha : KeyedStep (·.head.name) JoinsNested [] (⟨k, t, inner⟩ : NestedType) _ :=
            .append _
          simpa using ha.append_left (name_ne_of_mem_nestedTypes hm)
      | renew _ he =>
        rw [nestedTypes_append, nestedTypes_renewed_cons he, ← nestedTypes_append] at hgs
        exact hgs
      | descend hb he hi =>
        rw [nestedTypes_nested_cons]
        rw [Member.nested_isMatchFor_nested_iff] at he
        refine .cons ?_ hgs
        rw [nestedTypes_append, nestedTypes_append, nestedTypes_nested_cons,
          nestedTypes_nested_cons]
        refine KeyedStep.append_left (name_ne_of_mem_nestedTypes hb) ?_
        exact .join he ⟨_, ⟨_, hi, rfl⟩, rfl⟩

/-- When the names of the generated nested types are distinct, each nested type of a merged list is
an old one, a generated one, or an old one whose members were merged once. -/
lemma Merges.mem_nestedTypes_cases {target source merged : List Member}
    (h : Merges target source merged) (hds : DistinctNested source) {x : NestedType}
    (hx : x ∈ nestedTypes merged) :
    x ∈ nestedTypes target ∨ x ∈ nestedTypes source ∨
      ∃ a ∈ nestedTypes target, ∃ g ∈ nestedTypes source,
        a.head.name = g.head.name ∧ Merges a.members g.members x.members := by
  obtain ⟨grown, hs, rfl⟩ := h
  have hgrown : x ∈ nestedTypes grown :=
    mem_nestedTypes.mpr (List.mem_filter.mp (mem_nestedTypes.mp hx)).1
  rcases hs.nestedTypes.mem_cases @JoinsNested.name_eq hds hgrown with
    ht | hg | ⟨a, ha, g, hg, hn, hj⟩
  · exact .inl ht
  · exact .inr (.inl hg)
  · obtain ⟨members, hm, rfl⟩ := hj
    exact .inr (.inr ⟨a, ha, g, hg, hn, hm⟩)

/-! ### What holds at every depth -/

section EveryDepth

variable {P : List Member → Prop} {R : List Member → List Member → Prop}

/-- What a merge of one pair passes on to the merged list, it passes on at every depth. -/
theorem Merges.everyDepth
    (hP : ∀ target source merged, R target source → P target → P source →
      Merges target source merged → P merged)
    (hN : ∀ ms, P ms → DistinctNested ms) {target source merged : List Member}
    (hr : EveryPair R target source) (ht : EveryDepth P target) (hs : EveryDepth P source)
    (h : Merges target source merged) : EveryDepth P merged := by
  induction hr generalizing merged with
  | @intro target source here _ ih =>
    rw [everyDepth_iff] at ht hs ⊢
    refine ⟨hP _ _ _ here ht.1 hs.1 h, ?_⟩
    intro x hx
    rcases h.mem_nestedTypes_cases (hN _ hs.1) hx with ha | hg | ⟨a, ha, g, hg, hn, hm⟩
    · exact ht.2 x ha
    · exact hs.2 x hg
    · exact ih a ha g hg hn (ht.2 a ha) (hs.2 g hg) hm

/-- What a merge of one pair passes on to the merged list, a merge of trees passes on to every type
of the merged tree. -/
theorem mergeTrees_everyType
    (hP : ∀ target source merged, R target source → P target → P source →
      Merges target source merged → P merged)
    (hN : ∀ ms, P ms → DistinctNested ms) {existing generated merged : DeclarationTree}
    (hd : DistinctTypes generated) (hr : EveryTypePair R existing generated)
    (he : EveryType P existing) (hg : EveryType P generated)
    (h : (mergeTrees existing generated).outcome = .ok merged) : EveryType P merged := by
  rw [mergeTrees_ok_iff] at h
  intro n' hn' t' ht'
  rcases h.mem_cases @JoinsNamespace.name_eq hd.namespaces hn' with
    hn | hn | ⟨n, hn, g, hgn, hng, types, hj, rfl⟩
  · exact he n' hn t' ht'
  · exact hg n' hn t' ht'
  · rcases hj.mem_cases @JoinsType.name_eq (hd.types g hgn) ht' with
      ht | ht | ⟨t, ht, u, hu, htu, members, hm, rfl⟩
    · exact he n hn t' ht
    · exact hg g hgn t' ht
    · exact hm.everyDepth hP hN (hr n hn g hgn hng t ht u hu htu) (he n hn t ht) (hg g hgn u hu)

end EveryDepth

end Graft.Merge
