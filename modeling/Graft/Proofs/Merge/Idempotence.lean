import Graft.Proofs.Merge.Shape
import Graft.Proofs.Merge.TreeSteps

/-!
# Merging twice

A merged tree is a fixed point of merging the same generated tree into it again, provided that the
generator does not make two different members that stand for one declaration. After a merge each
generated member finds, as the first member it matches, what it would leave there: this is
`Settled`, and it is all that the second merge needs.

What is found for one generated member stays when the next one is brought in, since matching is
transitive: a place that the next one takes over matched both of them only if the two matched.
-/

namespace Graft.Merge

/-! ### Settled lists -/

mutual

/-- The generated member would leave the existing one as it is. -/
inductive Settles : Member → Member → Prop where
  | plain {e : Member} {h : MemberHead} {c : Content} (hr : renewed e (.plain h c) = e) :
      Settles e (.plain h c)
  | nested {oh h : MemberHead} {ot t : TypeHeader} {old source : List Member}
      (hs : Settled old source) : Settles (.nested oh ot old) (.nested h t source)

/-- Merging the generated members would leave the list as it is. -/
inductive Settled : List Member → List Member → Prop where
  | intro {target source : List Member}
      (found : ∀ g ∈ source, (target.find? (·.isMatchFor g)).isSome)
      (settles : ∀ g ∈ source, ∀ x, target.find? (·.isMatchFor g) = some x → Settles x g)
      (fresh : ∀ m ∈ target, isStale source m = false) : Settled target source

end

/-- The first member that the generated one matches is what it would leave there. -/
def SettledFor (target : List Member) (g : Member) : Prop :=
  ∃ x, target.find? (·.isMatchFor g) = some x ∧ Settles x g

lemma settled_of_forall {target source : List Member} (hg : ∀ g ∈ source, SettledFor target g)
    (hf : ∀ m ∈ target, isStale source m = false) : Settled target source := by
  refine .intro (fun g hgs => ?_) (fun g hgs x hx => ?_) hf
  · obtain ⟨x, hx, -⟩ := hg g hgs
    simp [hx]
  · obtain ⟨y, hy, hs⟩ := hg g hgs
    rw [hx, Option.some.injEq] at hy
    rwa [hy]

/-! ### A second merge changes nothing -/

/-- A change that neither adds nor removes anything. -/
def KeepsAll (c : Change) : Prop :=
  c.isAddition = false ∧ c.isRemoval = false

lemma updateMember_keepsAll (path : String) (e g : Member) :
    (updateMember path e g).Returns KeepsAll (renewed e g) := by
  unfold updateMember renewed
  split
  · exact (Traced.returns_record ⟨rfl, rfl⟩).bind (Traced.returns_pure _)
  · exact (Traced.returns_record ⟨rfl, rfl⟩).bind (Traced.returns_pure e)

lemma updateMember_returns (path : String) {e g : Member} (hr : renewed e g = e) :
    (updateMember path e g).Returns KeepsAll e := by
  have h := updateMember_keepsAll path e g
  rwa [hr] at h

lemma removeStale_returns (type : String) {source target : List Member}
    (hf : ∀ m ∈ target, isStale source m = false) :
    (removeStale type source target).Returns KeepsAll target := by
  have hk : withoutStale source target = target := by
    simpa [withoutStale] using hf
  have hr : target.filter (isStale source) = [] := by
    simpa using hf
  refine ⟨by rw [outcome_removeStale, hk], ?_⟩
  simp [removeStale, hr, Traced.recordAll, bind, Traced.andThen, pure]

lemma bringMembers_returns {type : String} {target source : List Member}
    (h : ∀ g ∈ source, (bringMember type target g).Returns KeepsAll target) :
    (bringMembers type target source).Returns KeepsAll target :=
  Traced.returns_loop (fun _ => by rw [bringMembers]) (fun _ _ _ => by rw [bringMembers]) h

mutual

theorem Settles.returns {target : List Member} {x g : Member} (type : String)
    (hx : target.find? (·.isMatchFor g) = some x) (hs : Settles x g) :
    (bringMember type target g).Returns KeepsAll target := by
  obtain ⟨before, after, hl, rfl⟩ := Member.exists_locate_of_find? hx
  match hs with
  | .plain hr =>
    rw [bringMember_plain_of_locate type hl]
    exact (updateMember_returns _ hr).bind (Traced.returns_pure _)
  | .nested hs =>
    rw [bringMember_nested_of_locate type hl]
    obtain ⟨hg, hf⟩ := hs.returns (pathInside type _)
    exact (hg.bind (removeStale_returns _ hf)).bind (Traced.returns_pure _)

theorem Settled.returns {target source : List Member} (type : String)
    (hs : Settled target source) :
    (bringMembers type target source).Returns KeepsAll target ∧
      ∀ m ∈ target, isStale source m = false := by
  match hs with
  | .intro found settles fresh =>
    refine ⟨bringMembers_returns fun g hg => ?_, fresh⟩
    obtain ⟨x, hx⟩ := Option.isSome_iff_exists.mp (found g hg)
    exact (settles g hg x hx).returns type hx

end

/-! ### What a merge leaves is settled -/

/-- Members that do not match each other are settled for themselves. -/
theorem settled_self {ms : List Member} (h : EveryDepth Unmatched ms) : Settled ms ms := by
  induction h with
  | @intro ms here inside ih =>
    refine settled_of_forall (fun g hg => ?_) (fun m hm => ?_)
    · have hsome : (ms.find? (·.isMatchFor g)).isSome :=
        List.find?_isSome.mpr ⟨g, hg, g.isMatchFor_self⟩
      obtain ⟨x, hx⟩ := Option.isSome_iff_exists.mp hsome
      have hxg : x = g := by
        by_contra hne
        have := here x (List.mem_of_find?_eq_some hx) g hg hne
        rw [Member.isMatchFor_of_find? hx] at this
        exact absurd this (by decide)
      subst hxg
      refine ⟨x, hx, ?_⟩
      cases x with
      | plain k c => exact .plain (renewed_self _)
      | nested k t inner => exact .nested (ih k t inner hg)
    · exact isStale_eq_false hm fun _ => m.isMatchFor_self

/-- Replacing an element that is not the one found. -/
lemma find?_replace {α : Type} {p : α → Bool} {before after : List α} {e e' x : α}
    (hx : (before ++ e :: after).find? p = some x)
    (he : before.find? p = none → p e = false) (he' : p e' = false) :
    (before ++ e' :: after).find? p = some x := by
  rw [List.find?_append] at hx ⊢
  cases hb : before.find? p with
  | some y => simpa [hb] using hx
  | none => simpa [hb, he hb, he'] using hx

lemma find?_filter_of_find? {α : Type} {p q : α → Bool} {as : List α} {x : α}
    (hx : as.find? p = some x) (hq : q x = true) : (as.filter q).find? p = some x := by
  obtain ⟨hp, before, after, rfl, hb⟩ := List.find?_eq_some_iff_append.mp hx
  refine List.find?_eq_some_iff_append.mpr ⟨hp, before.filter q, after.filter q, ?_, ?_⟩
  · simp [hq]
  · intro a ha
    exact hb a (List.mem_filter.mp ha).1

/-- What a generated member would leave is not stale. -/
lemma Settles.not_isStale {source : List Member} {x g : Member} (hg : g ∈ source)
    (hm : x.isMatchFor g = true) (hs : Settles x g) : isStale source x = false := by
  refine isStale_eq_false hg fun hx => ?_
  cases hs with
  | plain hr =>
    rw [← hr] at hx ⊢
    exact isMatchFor_renewed_of_isGenerated hx
  | nested _ =>
    rw [Member.nested_isMatchFor_nested_iff] at hm ⊢
    exact hm.symm

/-- What is found for a member is still found when another one has been brought in. -/
lemma Step.keeps_settledFor {target target' : List Member} {d g : Member}
    (hdg : d.isMatchFor g = false) (hgd : g.isMatchFor d = false)
    (hd : SettledFor target d) (hs : Step target g target') : SettledFor target' d := by
  obtain ⟨x, hx, hsx⟩ := hd
  cases hs with
  | append _ _ => exact ⟨x, by rw [List.find?_append, hx]; rfl, hsx⟩
  | @renew before after e h c hb he =>
    by_cases hg : e.isGenerated = true
    · refine ⟨x, find?_replace hx (fun hbn => ?_) ?_, hsx⟩
      · -- the place was found for `d` before, so it matched like `d`
        by_contra hed
        rw [Bool.not_eq_false] at hed
        rw [List.find?_append, hbn] at hx
        simp only [List.find?_cons, hed, Option.none_or, Option.some.injEq] at hx
        subst hx
        cases hsx with
        | plain hr =>
          rw [← hr, isMatchFor_renewed_left hg, hdg] at he
          exact absurd he (by decide)
        | nested _ => simp at he
      · rw [isMatchFor_renewed_left hg, hgd]
    · rw [renewed_of_not_isGenerated (by simpa using hg)]
      exact ⟨x, hx, hsx⟩
  | @descend before after old source grown oh h ot t hb he hs =>
    have hed : (Member.nested oh ot old).isMatchFor d = false := by
      by_contra hed
      rw [Bool.not_eq_false] at hed
      cases d with
      | plain k c => simp at hed
      | nested k u inner =>
        rw [Member.nested_isMatchFor_nested_iff] at hed he
        rw [Member.nested_isMatchFor_nested_eq_false_iff] at hdg
        exact hdg (hed.symm.trans he)
    refine ⟨x, find?_replace hx (fun _ => hed) ?_, hsx⟩
    rw [← hed]
    exact Member.isMatchFor_congr_left rfl rfl rfl d

lemma settled_withoutStale {source grown : List Member}
    (h : ∀ g ∈ source, SettledFor grown g) : Settled (withoutStale source grown) source := by
  refine settled_of_forall (fun g hg => ?_) (fun m hm => ?_)
  · obtain ⟨x, hx, hs⟩ := h g hg
    have hf := hs.not_isStale hg (Member.isMatchFor_of_find? hx)
    exact ⟨x, find?_filter_of_find? hx (by simp [hf]), hs⟩
  · simpa using (List.mem_filter.mp hm).2

mutual

/-- After a step the member that was brought in is settled. -/
theorem Step.settledFor {target target' : List Member} {g : Member}
    (hi : ∀ k t inner, g = .nested k t inner → EveryDepth Unmatched inner)
    (hs : Step target g target') : SettledFor target' g := by
  match hs with
  | .append hm _ =>
    refine ⟨g, ?_, ?_⟩
    · rw [List.find?_append, List.find?_eq_none.mpr (by simpa using hm)]
      simp
    · cases g with
      | plain k c => exact .plain (renewed_self _)
      | nested k t inner => exact .nested (settled_self (hi k t inner rfl))
  | @Step.renew before after e h c hb he =>
    refine ⟨_, ?_, .plain (renewed_renewed e _)⟩
    rw [List.find?_append, List.find?_eq_none.mpr (by simpa using hb)]
    simp [renewed_isMatchFor he]
  | @Step.descend before after old source grown oh h ot t hb he hs =>
    have hd := hi h t source rfl
    have hg := hs.settledFor [] (by simpa using hd.here)
      (fun _ _ _ hm => hd.inside hm) (by simp)
    have hst := settled_withoutStale fun g hgs => hg g (by simpa using hgs)
    refine ⟨.nested oh ot (withoutStale source grown), ?_, .nested hst⟩
    have hm : (Member.nested oh ot (withoutStale source grown)).isMatchFor
        (.nested h t source) = true := by
      rwa [Member.nested_isMatchFor_nested_iff] at he ⊢
    rw [List.find?_append, List.find?_eq_none.mpr (by simpa using hb)]
    simp [hm]

/-- After some steps all members that were brought in are settled. -/
theorem Steps.settledFor {target part grown : List Member} (done : List Member)
    (hu : Unmatched (done ++ part))
    (hi : ∀ k t inner, Member.nested k t inner ∈ part → EveryDepth Unmatched inner)
    (hd : ∀ d ∈ done, SettledFor target d) (hs : Steps target part grown) :
    ∀ d ∈ done ++ part, SettledFor grown d := by
  match hs with
  | .nil _ => simpa using hd
  | @Steps.cons _ middle _ part g h hs =>
    have hu' : Unmatched ((done ++ [g]) ++ part) := by simpa using hu
    have hg := h.settledFor fun k t inner he => hi k t inner (by simp [he])
    -- what was settled before the step still is, and now `g` is as well
    have hdone : ∀ d ∈ done ++ [g], SettledFor middle d := by
      intro d hdm
      by_cases hne : d = g
      · rwa [hne]
      · have hdm : d ∈ done := by simpa [hne] using hdm
        have hdg := hu d (by simp [hdm]) g (by simp) hne
        have hgd := hu g (by simp) d (by simp [hdm]) (Ne.symm hne)
        exact h.keeps_settledFor hdg hgd (hd d hdm)
    intro d hdm
    refine hs.settledFor (done ++ [g]) hu' (fun k t inner hm => ?_) hdone d (by simpa using hdm)
    exact hi k t inner (by simp [hm])

end

/-- What a merge leaves is settled. -/
theorem Merges.settled {target source merged : List Member} (hu : EveryDepth Unmatched source)
    (h : Merges target source merged) : Settled merged source := by
  obtain ⟨grown, hs, rfl⟩ := h
  have hg := hs.settledFor [] (by simpa using hu.here) (fun _ _ _ hm => hu.inside hm)
    (by simp)
  exact settled_withoutStale fun g hgs => hg g (by simpa using hgs)

/-! ### Types and namespaces -/

/-- A generated type would leave the types of a namespace as they are. -/
def SettledType (types : List TypeDecl) (g : TypeDecl) : Prop :=
  ∃ t, types.find? (·.header.name = g.header.name) = some t ∧ Settled t.members g.members

/-- A generated namespace would leave the namespaces of a tree as they are. -/
def SettledNamespace (namespaces : List Namespace) (g : Namespace) : Prop :=
  ∃ n, namespaces.find? (·.name = g.name) = some n ∧ (∀ i ∈ g.imports, i ∈ n.imports) ∧
    ∀ t ∈ g.types, SettledType n.types t

lemma bringType_returns {ns : String} {types : List TypeDecl} {g : TypeDecl}
    (h : SettledType types g) : (bringType ns g types).Returns KeepsAll types := by
  obtain ⟨t, ht, hs⟩ := h
  induction types with
  | nil => cases ht
  | cons u us ih =>
    rw [bringType]
    split
    · next hn =>
      simp only [List.find?_cons, hn, decide_true, Option.some.injEq] at ht
      subst ht
      obtain ⟨hg, hf⟩ := hs.returns (pathInside ns g.header.name)
      exact (hg.bind (removeStale_returns _ hf)).bind (Traced.returns_pure _)
    · next hn =>
      simp only [List.find?_cons, hn, decide_false] at ht
      exact (ih ht).bind (Traced.returns_pure _)

lemma bringTypes_returns {ns : String} {types source : List TypeDecl}
    (h : ∀ g ∈ source, SettledType types g) :
    (bringTypes ns types source).Returns KeepsAll types :=
  Traced.returns_loop (fun _ => rfl) (fun _ _ _ => rfl) fun g hg => bringType_returns (h g hg)

lemma bringImports_returns {ns : String} {target imports : List String}
    (h : ∀ i ∈ imports, i ∈ target) :
    (bringImports ns target imports).Returns KeepsAll target := by
  induction imports with
  | nil => exact Traced.returns_pure target
  | cons i is ih =>
    rw [bringImports, if_pos (h i List.mem_cons_self)]
    exact ih fun j hj => h j (List.mem_cons_of_mem _ hj)

lemma bringNamespace_returns {namespaces : List Namespace} {g : Namespace}
    (h : SettledNamespace namespaces g) :
    (bringNamespace g namespaces).Returns KeepsAll namespaces := by
  obtain ⟨n, hn, hi, ht⟩ := h
  induction namespaces with
  | nil => cases hn
  | cons m ms ih =>
    rw [bringNamespace]
    split
    · next hk =>
      simp only [List.find?_cons, hk, decide_true, Option.some.injEq] at hn
      subst hn
      exact (bringImports_returns hi).bind
        ((bringTypes_returns ht).bind (Traced.returns_pure _))
    · next hk =>
      simp only [List.find?_cons, hk, decide_false] at hn
      exact (ih hn).bind (Traced.returns_pure _)

lemma bringNamespaces_returns {namespaces source : List Namespace}
    (h : ∀ g ∈ source, SettledNamespace namespaces g) :
    (bringNamespaces namespaces source).Returns KeepsAll namespaces :=
  Traced.returns_loop (fun _ => rfl) (fun _ _ _ => rfl) fun g hg => bringNamespace_returns (h g hg)

/-- Types that were brought in are settled. -/
lemma settledType_of_steps {target grown source : List TypeDecl}
    (hn : (source.map (·.header.name)).Nodup)
    (hu : ∀ t ∈ source, EveryDepth Unmatched t.members)
    (h : KeyedSteps (·.header.name) JoinsType target source grown) :
    ∀ g ∈ source, SettledType grown g := by
  intro g hg
  obtain ⟨-, hf⟩ | ⟨t, t', -, hj, hf⟩ :=
    h.find?_of_mem @JoinsType.name_eq hn hg
  · exact ⟨g, hf, settled_self (hu g hg)⟩
  · obtain ⟨members, hm, rfl⟩ := hj
    exact ⟨_, hf, hm.settled (hu g hg)⟩

/-- Types that are all there already are settled. -/
lemma settledType_self {types : List TypeDecl} (hn : (types.map (·.header.name)).Nodup)
    (hu : ∀ t ∈ types, EveryDepth Unmatched t.members) :
    ∀ g ∈ types, SettledType types g := by
  intro g hg
  exact ⟨g, find?_key_of_mem hn hg, settled_self (hu g hg)⟩

/-- Merging a generated tree into the result of merging it once more changes nothing, and its
changes neither add nor remove anything. -/
theorem merge_merged_eq {existing generated merged : DeclarationTree}
    (hd : DistinctTypes generated) (hu : EveryType Unmatched generated)
    (h : (mergeTrees existing generated).outcome = .ok merged) :
    (mergeTrees merged generated).outcome = .ok merged ∧
      ∀ c ∈ (mergeTrees merged generated).records,
        c.isAddition = false ∧ c.isRemoval = false := by
  rw [mergeTrees_ok_iff] at h
  have hs : ∀ g ∈ generated.namespaces, SettledNamespace merged.namespaces g := by
    intro g hg
    obtain ⟨-, hf⟩ | ⟨n, n', -, hj, hf⟩ :=
      h.find?_of_mem @JoinsNamespace.name_eq hd.namespaces hg
    · exact ⟨g, hf, fun i hi => hi, settledType_self (hd.types g hg) (hu g hg)⟩
    · obtain ⟨types, ht, rfl⟩ := hj
      exact ⟨_, hf, fun i hi => mem_withImports_of_mem hi,
        settledType_of_steps (hd.types g hg) (hu g hg) ht⟩
  exact (bringNamespaces_returns hs).bind (Traced.returns_pure merged)

/-- Merging a field next to a hand-written one, and then once more. -/
theorem merge_field_twice :
    (mergeTrees (.ofMembers "Shop" "Order" [.ofField "note" "string"])
        (.ofMembers "Shop" "Order" [.ofField "total" "decimal"])).outcome =
      .ok (.ofMembers "Shop" "Order" [.ofField "note" "string", .ofField "total" "decimal"]) ∧
    (mergeTrees (.ofMembers "Shop" "Order" [.ofField "note" "string", .ofField "total" "decimal"])
        (.ofMembers "Shop" "Order" [.ofField "total" "decimal"])).outcome =
      .ok (.ofMembers "Shop" "Order" [.ofField "note" "string", .ofField "total" "decimal"]) := by
  have hm : (mergeTrees (.ofMembers "Shop" "Order" [.ofField "note" "string"])
      (.ofMembers "Shop" "Order" [.ofField "total" "decimal"])).outcome =
        .ok (.ofMembers "Shop" "Order" [.ofField "note" "string", .ofField "total" "decimal"]) :=
    rfl
  have hu : EveryDepth Unmatched [.ofField "total" "decimal"] :=
    everyDepth_iff.mpr ⟨by decide, by simp [Member.ofField]⟩
  exact ⟨hm, (merge_merged_eq (distinctTypes_ofMembers _ _ _) (hu.ofMembers _ _) hm).1⟩

end Graft.Merge
