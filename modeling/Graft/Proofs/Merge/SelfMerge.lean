import Graft.Proofs.Merge.Idempotence
import Graft.Proofs.Merge.Overloads

/-!
# Merging a tree into itself

A well-formed tree can be merged into itself, and nothing is added or removed: a generated member
goes to its own place or to an earlier one, so the places behind it still hold what they held, and
each member finds a match when its turn comes.

Whether the tree stays as it is depends on the overloads. A member that goes to an earlier place
leaves its key there instead of the one that it finds. No later member brings that key back, and so
an overload is lost. The merge changes nothing exactly if each overload finds its own place first,
or a hand-written one.
-/

namespace Graft.Merge

/-! ### The merge succeeds -/

/-- A member is found at its own place or before it. -/
lemma exists_locate_of_mem (done part : List Member) (g : Member) :
    ∃ before e mid, Member.locate g (done ++ g :: part) = some (before, e, mid ++ part) ∧
      done ++ [g] = before ++ e :: mid := by
  cases hl : Member.locate g (done ++ [g]) with
  | none =>
    have hg := Member.locate_eq_none_iff.mp hl g (by simp)
    rw [Member.isMatchFor_self] at hg
    cases hg
  | some found =>
    obtain ⟨before, e, mid⟩ := found
    obtain ⟨hs, he, hb⟩ := Member.locate_eq_some_iff.mp hl
    refine ⟨before, e, mid, Member.locate_eq_some_iff.mpr ⟨?_, he, hb⟩, hs⟩
    have hsplit := congrArg (· ++ part) hs
    simpa using hsplit

theorem bringMembers_self {ms : List Member} (hd : EveryDepth DistinctNames ms) (type : String) :
    ∃ grown, (bringMembers type ms ms).Returns KeepsAll grown ∧
      ∀ m ∈ grown, isStale ms m = false := by
  induction hd generalizing type with
  | @intro ms here inside ih =>
    have hrun : ∃ grown, (bringMembers type ms ms).Returns KeepsAll grown := by
      refine Traced.returns_loop_self (bringMember type) (fun _ => by rw [bringMembers])
        (fun _ _ _ => by rw [bringMembers]) DistinctNames here ?_
      intro done g part hg hn
      obtain ⟨before, e, mid, hl, hs⟩ := exists_locate_of_mem done part g
      have hstep : ∃ e', (bringMember type (done ++ g :: part) g).Returns KeepsAll
          (before ++ e' :: mid ++ part) := by
        simp only [List.append_assoc, List.cons_append]
        cases g with
        | plain k c =>
          rw [bringMember_plain_of_locate type hl]
          exact ⟨_, (updateMember_keepsAll _ e _).bind (Traced.returns_pure _)⟩
        | nested k t inner =>
          obtain ⟨hd, he, -⟩ := Member.locate_eq_some_iff.mp hl
          -- the names of nested types are distinct, so it finds itself
          obtain rfl := hn.eq_of_isMatchFor (by simp [hd]) (by simp) (by simp [Member.nameClass]) he
          obtain ⟨grown, hgrown, hfresh⟩ := ih k t inner hg (pathInside type k.name)
          rw [bringMember_nested_of_locate type hl]
          exact ⟨_, (hgrown.bind (removeStale_returns _ hfresh)).bind (Traced.returns_pure _)⟩
      obtain ⟨e', hreturns⟩ := hstep
      exact ⟨_, hreturns, (bringMember_ok_iff.mp hreturns.1).distinctNames hn⟩
    obtain ⟨grown, hgrown⟩ := hrun
    refine ⟨grown, hgrown, ?_⟩
    intro m hm
    have hkey : ∃ g ∈ ms, g.key = m.key := by
      rcases (bringMembers_ok_iff.mp hgrown.1).key_of_mem hm with ⟨g, hg, hk, -⟩ | ⟨g, hg, hk⟩
      · exact ⟨g, hg, hk⟩
      · exact ⟨g, hg, hk⟩
    obtain ⟨g, hg, hk⟩ := hkey
    exact isStale_eq_false hg fun _ => Member.isMatchFor_of_key_eq hk

lemma mergeMembers_self {ms : List Member} (hd : EveryDepth DistinctNames ms) (type : String) :
    ∃ merged, (mergeMembers type ms ms).Returns KeepsAll merged := by
  obtain ⟨grown, hgrown, hfresh⟩ := bringMembers_self hd type
  exact ⟨grown, hgrown.bind (removeStale_returns type hfresh)⟩

/-- A loop over a list with distinct keys, started on this list, of which every round finds its own
item and keeps the item's key. -/
lemma returns_keyed_self {α : Type} {key : α → String} (step : List α → α → Merging (List α))
    {loop : List α → List α → Merging (List α)} (hnil : ∀ b, loop b [] = pure b)
    (hcons : ∀ b a as, loop b (a :: as) = step b a >>= fun b => loop b as) {as : List α}
    (hn : (as.map key).Nodup)
    (h : ∀ a ∈ as, ∃ a', key a' = key a ∧ ∀ done part, (∀ b ∈ done, key b ≠ key a) →
      (step (done ++ a :: part) a).Returns KeepsAll (done ++ a' :: part)) :
    ∃ as', (loop as as).Returns KeepsAll as' := by
  refine Traced.returns_loop_self step hnil hcons (fun l => (l.map key).Nodup) hn ?_
  intro done a part ha hnd
  obtain ⟨a', hkey, hstep⟩ := h a ha
  have hne : ∀ b ∈ done, key b ≠ key a := by
    intro b hb hk
    exact (not_mem_keys_of_nodup hnd).1 (List.mem_map.mpr ⟨b, hb, hk⟩)
  refine ⟨done ++ [a'], ?_, ?_⟩
  · simpa using hstep done part hne
  · simpa [hkey] using hnd

lemma bringTypes_self (ns : String) {types : List TypeDecl}
    (hn : (types.map (·.header.name)).Nodup)
    (hd : ∀ t ∈ types, EveryDepth DistinctNames t.members) :
    ∃ types', (bringTypes ns types types).Returns KeepsAll types' := by
  refine returns_keyed_self (fun target t => bringType ns t target) (fun _ => rfl)
    (fun _ _ _ => rfl) hn ?_
  intro t ht
  obtain ⟨members, hm⟩ := mergeMembers_self (hd t ht) (pathInside ns t.header.name)
  refine ⟨{ t with members }, rfl, ?_⟩
  intro done part hne
  induction done with
  | nil =>
    rw [List.nil_append, bringType, if_pos rfl]
    exact hm.bind (Traced.returns_pure _)
  | cons u us ih =>
    rw [List.cons_append, bringType, if_neg (hne u List.mem_cons_self)]
    have hus := ih fun v hv => hne v (List.mem_cons_of_mem _ hv)
    exact hus.bind (Traced.returns_pure _)

lemma mergeTrees_self {tree : DeclarationTree} (hd : DistinctTypes tree)
    (hn : EveryType DistinctNames tree) :
    ∃ merged, (mergeTrees tree tree).Returns KeepsAll merged := by
  have hrun : ∃ namespaces,
      (bringNamespaces tree.namespaces tree.namespaces).Returns KeepsAll namespaces := by
    refine returns_keyed_self (fun target n => bringNamespace n target) (fun _ => rfl)
      (fun _ _ _ => rfl) hd.namespaces ?_
    intro n hnm
    obtain ⟨types, htypes⟩ := bringTypes_self n.name (hd.types n hnm) (hn n hnm)
    refine ⟨{ n with types }, rfl, ?_⟩
    intro done part hne
    induction done with
    | nil =>
      rw [List.nil_append, bringNamespace, if_pos rfl]
      have himports : (bringImports n.name n.imports n.imports).Returns KeepsAll n.imports :=
        bringImports_returns fun i hi => hi
      exact himports.bind (htypes.bind (Traced.returns_pure _))
    | cons m ms ih =>
      rw [List.cons_append, bringNamespace, if_neg (hne m List.mem_cons_self)]
      have hms := ih fun k hk => hne k (List.mem_cons_of_mem _ hk)
      exact hms.bind (Traced.returns_pure _)
  obtain ⟨namespaces, hnamespaces⟩ := hrun
  exact ⟨_, hnamespaces.bind (Traced.returns_pure _)⟩

/-! ### Overloads that find their own places -/

/-- Members whose overloads find their own places are settled for themselves. -/
theorem settled_self_of_eachFindsOwn {ms : List Member}
    (hd : EveryDepth (fun ms => (ms.map Member.key).Nodup ∧ EachFindsOwn ms ms) ms) :
    Settled ms ms := by
  induction hd with
  | @intro ms here inside ih =>
    obtain ⟨hk, hf⟩ := here
    apply settled_of_forall
    · intro g hg
      have hsome : (ms.find? (·.isMatchFor g)).isSome :=
        List.find?_isSome.mpr ⟨g, hg, g.isMatchFor_self⟩
      obtain ⟨x, hx⟩ := Option.isSome_iff_exists.mp hsome
      have hxm := List.mem_of_find?_eq_some hx
      refine ⟨x, hx, ?_⟩
      cases g with
      | plain k c =>
        refine .plain ?_
        by_cases hxg : x.isGenerated = true
        · have hkey := hf _ hg ⟨_, hg, rfl⟩ x hx hxg
          obtain rfl := List.inj_on_of_nodup_map hk hxm hg hkey
          exact renewed_self _
        · exact renewed_of_not_isGenerated (by simpa using hxg) _
      | nested k t inner =>
        have hkey := Member.key_eq_of_isMatchFor (by simp [Member.nameClass])
          (Member.isMatchFor_of_find? hx)
        obtain rfl := List.inj_on_of_nodup_map hk hxm hg hkey
        exact .nested (ih k t inner hg)
    · intro m hm
      exact isStale_eq_false hm fun _ => m.isMatchFor_self

/-! ### Overloads that do not -/

lemma Step.mem_of_not_isMatchFor {target target' : List Member} {g m : Member}
    (hs : Step target g target') (hm : m ∈ target) (hne : m.isMatchFor g = false) :
    m ∈ target' := by
  rcases hs.append_or_update with ⟨-, -, rfl⟩ | ⟨before, e, e', after, rfl, rfl, -, he, -⟩
  · exact List.mem_append_left _ hm
  · have hme : m ≠ e := by
      rintro rfl
      rw [hne] at he
      cases he
    have hrest := (Member.mem_append_cons_iff.mp hm).resolve_left hme
    exact Member.mem_append_cons_iff.mpr (.inr hrest)

lemma Steps.mem_of_not_isMatchFor {target source grown : List Member} {m : Member}
    (hs : Steps target source grown) (hm : m ∈ target)
    (hne : ∀ g ∈ source, m.isMatchFor g = false) : m ∈ grown := by
  induction source generalizing target with
  | nil =>
    cases hs
    exact hm
  | cons g gs ih =>
    cases hs with
    | cons h hs =>
      have hmid := h.mem_of_not_isMatchFor hm (hne g List.mem_cons_self)
      exact ih hs hmid fun d hd => hne d (List.mem_cons_of_mem _ hd)

/-- A key that a step takes out of a list is not brought back by members with other keys. -/
lemma Steps.key_ne_of_mem {before after part grown : List Member} {e e' : Member}
    (hk : ((before ++ e :: after).map Member.key).Nodup) (he' : e'.key ≠ e.key)
    (hp : ∀ d ∈ part, d.key ≠ e.key) (hs : Steps (before ++ e' :: after) part grown) :
    ∀ m ∈ grown, m.key ≠ e.key := by
  intro m hm hme
  rcases hs.key_of_mem hm with ⟨l, hl, hlm, -⟩ | ⟨d, hd, hdm⟩
  · have hle : l.key = e.key := hlm.trans hme
    have hne : l ≠ e' := fun h => he' (h ▸ hle)
    exact key_ne_of_nodup hk ((Member.mem_append_cons_iff.mp hl).resolve_left hne) hle
  · exact hp d hd (hdm.trans hme)

/-- In a run that ends where it started, what replaces a member has its key: the old key would not
come back. -/
lemma Steps.key_eq_of_renewed {before after done part : List Member} {e g : Member}
    (hk : ((before ++ e :: after).map Member.key).Nodup)
    (hms : before ++ e :: after = done ++ g :: part)
    (hb : ∀ m ∈ before, m.isMatchFor g = false) (he : e.isMatchFor g = true)
    (hgen : e.isGenerated = true)
    (hs : Steps (before ++ renewed e g :: after) part (before ++ e :: after)) :
    e.key = g.key := by
  by_contra hne
  have hfirst : (done ++ g :: part).find? (·.isMatchFor g) = some e := by
    rw [← hms]
    exact find?_of_first hb he
  have hdone : e ∈ done := by
    rcases find?_append_cons_iff.mp hfirst with hd | ⟨-, ⟨-, rfl⟩ | ⟨hgg, -⟩⟩
    · exact List.mem_of_find?_eq_some hd
    · exact absurd rfl hne
    · rw [Member.isMatchFor_self] at hgg
      cases hgg
  have hlater : ∀ d ∈ part, d.key ≠ e.key := by
    intro d hd hde
    rw [hms, List.map_append, List.nodup_append] at hk
    refine hk.2.2 _ (List.mem_map_of_mem hdone) _ ?_ hde.symm
    exact List.mem_map_of_mem (List.mem_cons_of_mem _ hd)
  have hnew : (renewed e g).key ≠ e.key := by
    rw [(updates_renewed he).key_of_generated hgen]
    exact Ne.symm hne
  exact hs.key_ne_of_mem hk hnew hlater e (by simp) rfl

/-- A nested type whose place is not reached any more stays to the end of a run. -/
lemma Steps.mem_of_nested {target part grown : List Member} {h : MemberHead} {t : TypeHeader}
    {inner : List Member} (hs : Steps target part grown) (hm : .nested h t inner ∈ target)
    (hp : ∀ d ∈ part, d.key ≠ (Member.nested h t inner).key) : .nested h t inner ∈ grown := by
  apply hs.mem_of_not_isMatchFor hm
  intro d hd
  rw [Bool.eq_false_iff]
  intro hmd
  have hc : d.nameClass ≠ .callable := by
    rw [← (Member.isMatchFor_iff.mp hmd).2.1]
    simp [Member.nameClass]
  exact hp d hd (Member.key_eq_of_isMatchFor hc hmd).symm

/-- A run over members of the list that ends where it started changes nothing in its first step: the
member that is brought in finds its own key or a hand-written member, and the members of a nested
type are what a merge with themselves leaves. -/
lemma Step.eq_of_steps {ms done part middle : List Member} {g : Member}
    (hk : (ms.map Member.key).Nodup) (hms : ms = done ++ g :: part) (h : Step ms g middle)
    (hs : Steps middle part ms) :
    middle = ms ∧ FindsOwn ms g ∧
      ∀ k t inner, g = .nested k t inner → Merges inner inner inner := by
  have hg : g ∈ ms := by simp [hms]
  cases h with
  | append hm _ =>
    have hgg := hm g hg
    rw [Member.isMatchFor_self] at hgg
    cases hgg
  | @renew before after e k c hb he =>
    have hfirst : (before ++ e :: after).find? (·.isMatchFor (.plain k c)) = some e :=
      find?_of_first hb he
    by_cases hgen : e.isGenerated = true
    · have hkey := hs.key_eq_of_renewed hk hms hb he hgen
      obtain rfl := List.inj_on_of_nodup_map hk (by simp) hg hkey
      exact ⟨by rw [renewed_self], findsOwn_of_find? hfirst fun _ => rfl, by simp⟩
    · have hgen : e.isGenerated = false := by simpa using hgen
      refine ⟨by rw [renewed_of_not_isGenerated hgen], findsOwn_of_find? hfirst ?_, by simp⟩
      intro hx
      rw [hgen] at hx
      cases hx
  | @descend before after old source grown oh k ot t hb he hsteps =>
    have hfirst : (before ++ .nested oh ot old :: after).find? (·.isMatchFor (.nested k t source)) =
        some (.nested oh ot old) := find?_of_first hb he
    have hkey := Member.key_eq_of_isMatchFor (by simp [Member.nameClass]) he
    have heq := List.inj_on_of_nodup_map hk (by simp) hg hkey
    rw [Member.nested.injEq] at heq
    obtain ⟨rfl, rfl, rfl⟩ := heq
    have hpart : ∀ d ∈ part, d.key ≠ (Member.nested oh ot (withoutStale old grown)).key := by
      intro d hd
      rw [hms] at hk
      exact key_ne_of_nodup hk (List.mem_append_right _ hd)
    -- what it was merged to is there in the end, under the key of the nested type itself
    have hstays := hs.mem_of_nested (by simp) hpart
    have hsame := List.inj_on_of_nodup_map hk hstays hg rfl
    rw [Member.nested.injEq] at hsame
    refine ⟨by rw [hsame.2.2], findsOwn_of_find? hfirst fun _ => rfl, ?_⟩
    rintro _ _ _ ⟨⟩
    exact ⟨grown, hsteps, hsame.2.2.symm⟩

lemma Steps.findsOwn_of_self {ms part : List Member} (done : List Member)
    (hk : (ms.map Member.key).Nodup) (hms : ms = done ++ part) (hs : Steps ms part ms) :
    ∀ g ∈ part, FindsOwn ms g ∧
      ∀ k t inner, g = .nested k t inner → Merges inner inner inner := by
  induction part generalizing done with
  | nil =>
    intro g hg
    cases hg
  | cons g gs ih =>
    cases hs with
    | @cons _ middle _ _ _ h hs =>
      obtain ⟨rfl, hg⟩ := h.eq_of_steps hk hms hs
      intro d hd
      rcases List.mem_cons.mp hd with rfl | hd
      · exact hg
      · exact ih (done ++ [g]) (by simpa using hms) hs d hd

/-- Members that a merge with themselves leaves as they are have overloads that find their own
places. -/
theorem eachFindsOwn_of_merges_self {ms : List Member}
    (hd : EveryDepth (fun ms => (ms.map Member.key).Nodup) ms) (h : Merges ms ms ms) :
    EveryDepth (fun ms => EachFindsOwn ms ms) ms := by
  induction hd with
  | @intro ms hk inside ih =>
    obtain ⟨grown, hs, hw⟩ := h
    have hfresh : ∀ m ∈ grown, isStale ms m = false := by
      intro m hm
      rcases hs.key_of_mem hm with ⟨g, hg, hgm, -⟩ | ⟨g, hg, hgm⟩
      · exact isStale_eq_false hg fun _ => Member.isMatchFor_of_key_eq hgm
      · exact isStale_eq_false hg fun _ => Member.isMatchFor_of_key_eq hgm
    have hgrown : grown = ms := by
      rw [hw]
      exact (List.filter_eq_self.mpr fun m hm => by simp [hfresh m hm]).symm
    rw [hgrown] at hs
    have hown := hs.findsOwn_of_self [] hk (List.nil_append ms).symm
    constructor
    · intro g hg _
      exact (hown g hg).1
    · intro k t inner hm
      exact ih k t inner hm ((hown _ hm).2 k t inner rfl)

/-! ### Trees -/

/-- A well-formed tree can be merged into itself, and nothing is added or removed. The tree stays as
it is exactly if each overload, in every type, finds its own place first or a hand-written one. -/
theorem merge_self_eq_iff {tree : DeclarationTree} (hw : WellFormed tree)
    (ho : EveryType DistinctOverloads tree) :
    ∃ merged, (mergeTrees tree tree).outcome = .ok merged ∧
      (∀ c ∈ (mergeTrees tree tree).records, c.isAddition = false ∧ c.isRemoval = false) ∧
      (merged = tree ↔ EveryType (fun ms => EachFindsOwn ms ms) tree) := by
  have hn : EveryType DistinctNames tree := hw.members.imp fun _ h => h.distinctNames
  have hk : EveryType (fun ms => (ms.map Member.key).Nodup) tree :=
    (hn.and ho).imp fun _ => nodup_keys_iff.mpr
  obtain ⟨merged, hok, hrecords⟩ := mergeTrees_self hw.toDistinctTypes hn
  refine ⟨merged, hok, hrecords, ?_, ?_⟩
  · rintro rfl n hnm t ht
    rw [mergeTrees_ok_iff] at hok
    obtain ⟨types, hts, heq⟩ := hok.joins_of_mem @JoinsNamespace.name_eq hw.namespaces hw.namespaces
      hnm hnm hnm rfl rfl
    have htypes : types = n.types := by rw [heq]
    rw [htypes] at hts
    obtain ⟨members, hm, heq⟩ := hts.joins_of_mem @JoinsType.name_eq (hw.types n hnm)
      (hw.types n hnm) ht ht ht rfl rfl
    have hmembers : members = t.members := by rw [heq]
    rw [hmembers] at hm
    exact eachFindsOwn_of_merges_self (hk n hnm t ht) hm
  · intro hf
    have hs : ∀ n ∈ tree.namespaces, SettledNamespace tree.namespaces n := by
      intro n hnm
      refine ⟨n, find?_key_of_mem hw.namespaces hnm, fun i hi => hi, ?_⟩
      intro t ht
      refine ⟨t, find?_key_of_mem (hw.types n hnm) ht, ?_⟩
      exact settled_self_of_eachFindsOwn ((hk n hnm t ht).and (hf n hnm t ht))
    have hself : (mergeTrees tree tree).Returns KeepsAll tree :=
      (bringNamespaces_returns hs).bind (Traced.returns_pure tree)
    exact Except.ok.inj (hok.symm.trans hself.1)

/-- `Find(int, int)` matches a hand-written overload, which stands before it. -/
def finderOrder : DeclarationTree :=
  .ofMembers "Shop" "Order" [(Member.ofField "id" "int").annotate .generate,
    finder ["int", "string"], generatedFinder ["int", "int"]]

/-- The hand-written overload is not replaced, and the tree stays as it is. -/
theorem finders_merged_into_themselves :
    WellFormed finderOrder ∧ EveryType DistinctOverloads finderOrder ∧
      (mergeTrees finderOrder finderOrder).outcome = .ok finderOrder := by
  have hw : WellFormed finderOrder := wellFormed_ofMembers ⟨by decide, by decide⟩ rfl
  have ho : EveryType DistinctOverloads finderOrder := .ofMembers (by decide) rfl
  obtain ⟨merged, hok, -, hiff⟩ := merge_self_eq_iff hw ho
  have hself : merged = finderOrder := hiff.mpr (.ofMembers (by decide) rfl)
  rw [hself] at hok
  exact ⟨hw, ho, hok⟩

/-- `Find(string, int)` matches a generated overload, which stands before it. -/
def confusedFinders : DeclarationTree :=
  .ofMembers "Shop" "Order" [generatedFinder ["int", "string"], generatedFinder ["string", "int"]]

/-- `Find(string, int)` goes to the place of `Find(int, string)`, which is lost. -/
theorem finder_overwritten :
    WellFormed confusedFinders ∧ EveryType DistinctOverloads confusedFinders ∧
      ∃ merged, (mergeTrees confusedFinders confusedFinders).outcome = .ok merged ∧
        merged = .ofMembers "Shop" "Order"
          [generatedFinder ["string", "int"], generatedFinder ["string", "int"]] ∧
        merged ≠ confusedFinders := by
  refine ⟨wellFormed_ofMembers ⟨by decide, by decide⟩ rfl, .ofMembers (by decide) rfl, ?_⟩
  exact ⟨_, rfl, rfl, by decide⟩

end Graft.Merge
