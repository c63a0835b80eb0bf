import Graft.Proofs.Merge.Frame
import Graft.Proofs.Merge.Nested

/-!
# What becomes of hand-written members

A member without the generation marker is not removed by the merge of the list it stands in, but
the nested type around it may be. `CarriedAway` says that this happens to one of the enclosing
types: it carries the marker, and the generated type for the one around it has no nested type of
its name.
A hand-written member whose enclosing types are not carried away is still there after a merge,
unchanged and at the same path. When the names on a path are not ambiguous, it is there only then.

The rule that a merge never removes hand-written code fails for the others:
`hand_written_field_carried_away`.
-/

namespace Graft.Merge

/-! ### Paths -/

/-- What a nested type is, apart from its members. -/
abbrev Enclosing := MemberHead × TypeHeader

/-- The member stands in the list, inside these nested types. -/
def StandsIn (m : Member) : List Enclosing → List Member → Prop
  | [], ms => m ∈ ms
  | (h, t) :: path, ms => ∃ inner, .nested h t inner ∈ ms ∧ StandsIn m path inner

/-- One of the nested types on a path carries the marker and has no counterpart among the generated
members. -/
def CarriedAway : List Enclosing → List Member → Prop
  | [], _ => False
  | (h, _) :: path, source =>
    (h.annotations.isGenerated = true ∧
      ∀ k t inner, .nested k t inner ∈ source → k.name ≠ h.name) ∨
    ∃ k t inner, .nested k t inner ∈ source ∧ k.name = h.name ∧ CarriedAway path inner

/-- The names of the nested types on a path. -/
def pathNames (path : List Enclosing) : List String :=
  path.map (·.1.name)

/-- The member stands in a type of a tree, inside these nested types. -/
def StandsAt (tree : DeclarationTree) (ns type : String) (path : List Enclosing) (m : Member) :
    Prop :=
  ∃ ms ∈ memberLists tree ns type, StandsIn m path ms

/-- A generated type makes one of the nested types on a path go. -/
def CarriedAwayAt (generated : DeclarationTree) (ns type : String) (path : List Enclosing) : Prop :=
  ∃ source ∈ memberLists generated ns type, CarriedAway path source

/-! ### What is not carried away stays -/

lemma isStale_nested_iff {source : List Member} {h : MemberHead} {t : TypeHeader}
    {inner : List Member} :
    isStale source (.nested h t inner) = true ↔
      h.annotations.isGenerated = true ∧
        ∀ k u ms, .nested k u ms ∈ source → k.name ≠ h.name := by
  rw [isStale_iff, Member.isGenerated_nested]
  refine and_congr_right fun _ => ⟨fun hn k u ms hm => ?_, fun hn g hg => ?_⟩
  · exact Member.nested_isMatchFor_nested_eq_false_iff.mp (hn _ hm)
  · cases g with
    | plain k c => exact Member.plain_isMatchFor_nested _ _ _ _ _
    | nested k u ms =>
      exact Member.nested_isMatchFor_nested_eq_false_iff.mpr (hn k u ms hg)

theorem Frame.standsIn {sources : List (List Member)} {old new : List Member} {m : Member}
    {path : List Enclosing} (hf : Frame sources old new) (hg : m.isGenerated = false)
    (hp : m.nameClass ≠ .nestedType) (hc : ∀ source ∈ sources, ¬ CarriedAway path source)
    (h : StandsIn m path old) : StandsIn m path new := by
  induction path generalizing sources old new with
  | nil =>
    have hd : ∀ source ∈ sources, isStale source m = false := by
      intro source _
      simp [isStale, hg]
    obtain ⟨m', hm', hs⟩ := hf.exists_of_mem h hd
    cases hs with
    | kept k c => exact hm'
    | replaced hk _ =>
      rw [Member.isGenerated_plain, hk] at hg
      cases hg
    | inside _ => exact absurd rfl hp
  | cons k path ih =>
    obtain ⟨inner, hm, hin⟩ := h
    have hd : ∀ source ∈ sources, isStale source (.nested k.1 k.2 inner) = false := by
      intro source hs
      rw [Bool.eq_false_iff]
      exact fun hst => hc source hs (.inl (isStale_nested_iff.mp hst))
    obtain ⟨m', hm', hs⟩ := hf.exists_of_mem hm hd
    cases hs with
    | inside hfi =>
      refine ⟨_, hm', ih hfi (fun ms hms hca => ?_) hin⟩
      obtain ⟨source, hs, l, t, hl, hn⟩ := mem_innerLists.mp hms
      exact hc source hs (.inr ⟨l, t, ms, hl, hn, hca⟩)

lemma StandsAt.merged {existing generated merged : DeclarationTree} {ns type : String}
    {path : List Enclosing} {m : Member}
    (h : (mergeTrees existing generated).outcome = .ok merged) (hg : m.isGenerated = false)
    (hp : m.nameClass ≠ .nestedType) (hc : ¬ CarriedAwayAt generated ns type path)
    (hm : StandsAt existing ns type path m) : StandsAt merged ns type path m := by
  obtain ⟨ms, hms, hin⟩ := hm
  obtain ⟨n, hn, rfl, t, ht, rfl, rfl⟩ := mem_memberLists.mp hms
  obtain ⟨n', hn', hnf⟩ := (mergeTrees_extends h).exists_of_mem hn
  obtain ⟨t', ht', htf⟩ := hnf.types.exists_of_mem ht
  refine ⟨t'.members, ?_, htf.members.standsIn hg hp (fun s hs hca => hc ⟨s, hs, hca⟩) hin⟩
  exact mem_memberLists.mpr ⟨n', hn', hnf.name, t', ht', by rw [htf.header], rfl⟩

/-! ### What is carried away is gone -/

section Distinct

variable {target source merged inner inner' : List Member} {k k' : MemberHead} {t t' : TypeHeader}

/-- No nested type has the name of a stale one in the end. -/
lemma Merges.not_mem_of_isStale (h : Merges target source merged) (hd : DistinctNested target)
    (hm : .nested k t inner ∈ target) (hst : isStale source (.nested k t inner) = true)
    (hk : k'.name = k.name) : .nested k' t' inner' ∉ merged := by
  intro hm'
  obtain ⟨grown, hs, rfl⟩ := h
  obtain ⟨hm', hst'⟩ := List.mem_filter.mp hm'
  have ha : (⟨k, t, inner⟩ : NestedType) ∈ nestedTypes target := mem_nestedTypes.mpr hm
  have ha' : (⟨k', t', inner'⟩ : NestedType) ∈ nestedTypes grown := mem_nestedTypes.mpr hm'
  have hns : k.name ∉ (nestedTypes source).map (·.head.name) := by
    intro hx
    obtain ⟨x, hx, hxk⟩ := List.mem_map.mp hx
    exact (isStale_nested_iff.mp hst).2 x.head x.header x.members (mem_nestedTypes.mp hx) hxk
  -- no generated type has the name, so the steps leave the stale one as it is
  have he := hs.nestedTypes.eq_of_mem @JoinsNested.name_eq hd ha ha' hns hk
  rw [NestedType.mk.injEq] at he
  rw [he.1, he.2.1, he.2.2, hst] at hst'
  exact absurd hst' (by decide)

/-- The members of a nested type and its counterpart are merged. -/
lemma Merges.merges_of_mem (h : Merges target source merged) (hdt : DistinctNested target)
    (hds : DistinctNested source) {l : MemberHead} {u : TypeHeader} {incoming : List Member}
    (hm : .nested k t inner ∈ target) (hg : .nested l u incoming ∈ source)
    (hm' : .nested k' t' inner' ∈ merged) (hl : l.name = k.name) (hk : k'.name = k.name) :
    Merges inner incoming inner' := by
  obtain ⟨grown, hs, rfl⟩ := h
  have ha : (⟨k, t, inner⟩ : NestedType) ∈ nestedTypes target := mem_nestedTypes.mpr hm
  have hag : (⟨l, u, incoming⟩ : NestedType) ∈ nestedTypes source := mem_nestedTypes.mpr hg
  have ha' : (⟨k', t', inner'⟩ : NestedType) ∈ nestedTypes grown :=
    mem_nestedTypes.mpr (List.mem_filter.mp hm').1
  obtain ⟨members, hmm, he⟩ :=
    hs.nestedTypes.joins_of_mem @JoinsNested.name_eq hdt hds ha hag ha' hl.symm hk
  rw [NestedType.mk.injEq] at he
  rwa [he.2.2]

end Distinct

/-- Stale nested types go with everything in them, and where a counterpart exists the same holds of
its members. -/
theorem Merges.not_standsIn {target source merged : List Member} {m : Member}
    {path path' : List Enclosing} (h : Merges target source merged)
    (hdt : EveryDepth DistinctNested target) (hds : EveryDepth DistinctNested source)
    (hm : StandsIn m path target) (hc : CarriedAway path source)
    (hn : pathNames path' = pathNames path) : ¬ StandsIn m path' merged := by
  induction path generalizing target source merged path' with
  | nil => cases hc
  | cons k path ih =>
    cases path' with
    | nil => cases hn
    | cons k' path' =>
      obtain ⟨hk, hn⟩ := List.cons_eq_cons.mp hn
      rintro ⟨inner', hm', hin'⟩
      obtain ⟨inner, hm, hin⟩ := hm
      rcases hc with hst | ⟨l, u, incoming, hg, hl, hc⟩
      · exact h.not_mem_of_isStale hdt.here hm (isStale_nested_iff.mpr hst) hk hm'
      · have hi := h.merges_of_mem hdt.here hds.here hm hg hm' hl hk
        exact ih hi (hdt.inside hm) (hds.inside hg) hin hc hn hin'

/-- With distinct names the merge of two trees joins the types of one path. -/
lemma merges_of_mem {existing generated merged : DeclarationTree} {ns type : String}
    {target source members : List Member}
    (h : (mergeTrees existing generated).outcome = .ok merged)
    (hde : DistinctTypes existing) (hdg : DistinctTypes generated)
    (ht : target ∈ memberLists existing ns type) (hs : source ∈ memberLists generated ns type)
    (hm : members ∈ memberLists merged ns type) : Merges target source members := by
  obtain ⟨n, hn, rfl, t, htn, rfl, rfl⟩ := mem_memberLists.mp ht
  obtain ⟨g, hg, hgn, u, hu, hut, rfl⟩ := mem_memberLists.mp hs
  obtain ⟨n', hn', hnn, t', ht', htt, rfl⟩ := mem_memberLists.mp hm
  rw [mergeTrees_ok_iff] at h
  obtain ⟨types, hts, rfl⟩ := h.joins_of_mem @JoinsNamespace.name_eq hde.namespaces
    hdg.namespaces hn hg hn' hgn.symm hnn
  obtain ⟨members, hmm, rfl⟩ := hts.joins_of_mem @JoinsType.name_eq (hde.types n hn)
    (hdg.types g hg) htn hu ht' hut.symm htt
  exact hmm

lemma mem_memberLists_ofMembers {ns type : String} {ms : List Member} :
    ms ∈ memberLists (.ofMembers ns type ms) ns type := by
  simp [memberLists, DeclarationTree.ofMembers]

lemma eq_of_mem_memberLists_ofMembers {ns type ns' type' : String} {ms ms' : List Member}
    (h : ms' ∈ memberLists (.ofMembers ns type ms) ns' type') : ms' = ms := by
  obtain ⟨n, hn, -, t, ht, -, rfl⟩ := mem_memberLists.mp h
  obtain rfl := List.mem_singleton.mp hn
  obtain rfl := List.mem_singleton.mp ht
  rfl

lemma everyDepth_of_mem {P : List Member → Prop} {tree : DeclarationTree} (hp : EveryType P tree)
    {ns type : String} {ms : List Member} (hm : ms ∈ memberLists tree ns type) :
    EveryDepth P ms := by
  obtain ⟨n, hn, -, t, ht, -, rfl⟩ := mem_memberLists.mp hm
  exact hp n hn t ht

/-- A hand-written member stays, unchanged and at its path, unless one of the nested types around
it is carried away. When names are distinct on both sides, it stays only then. -/
theorem hand_written_member_stays {existing generated merged : DeclarationTree}
    {ns type : String} {path : List Enclosing} {m : Member}
    (h : (mergeTrees existing generated).outcome = .ok merged)
    (hm : StandsAt existing ns type path m) (hg : m.isGenerated = false)
    (hp : m.nameClass ≠ .nestedType) :
    (¬ CarriedAwayAt generated ns type path → StandsAt merged ns type path m) ∧
      (DistinctTypes existing → DistinctTypes generated →
        EveryType DistinctNested existing → EveryType DistinctNested generated →
        ((∃ path', pathNames path' = pathNames path ∧ StandsAt merged ns type path' m) ↔
          ¬ CarriedAwayAt generated ns type path)) := by
  refine ⟨fun hc => hm.merged h hg hp hc, fun hde hdg hne hng => ⟨?_, fun hc => ?_⟩⟩
  · rintro ⟨path', hn, ms', hms', hin'⟩ ⟨source, hs, hc⟩
    obtain ⟨target, ht, hin⟩ := hm
    have hmm := merges_of_mem h hde hdg ht hs hms'
    have hdt := everyDepth_of_mem hne ht
    have hds := everyDepth_of_mem hng hs
    exact hmm.not_standsIn hdt hds hin hc hn hin'
  · exact ⟨path, rfl, hm.merged h hg hp hc⟩

/-- A nested type that carries the marker. -/
def columns (members : List Member) : Member :=
  (Member.ofType { header := { name := "Columns" }, members }).annotate .generate

lemma everyDepth_columns {ms : List Member} (h : EveryDepth DistinctNested ms) :
    EveryDepth DistinctNested [columns ms] := by
  refine everyDepth_iff.mpr ⟨List.pairwise_singleton _ _, fun x hx => ?_⟩
  obtain rfl := List.mem_singleton.mp hx
  exact h

/-- The field stays when the generator makes its type again, whatever that contains. -/
theorem hand_written_field_in_columns_stays :
    (mergeTrees (.ofMembers "Shop" "Order" [columns [.ofField "Custom" "int"]])
        (.ofMembers "Shop" "Order" [columns []])).outcome =
      .ok (.ofMembers "Shop" "Order" [columns [.ofField "Custom" "int"]]) ∧
    ∃ path, pathNames path = ["Columns"] ∧
      StandsAt (.ofMembers "Shop" "Order" [columns [.ofField "Custom" "int"]]) "Shop" "Order" path
        (.ofField "Custom" "int") := by
  have hm : (mergeTrees (.ofMembers "Shop" "Order" [columns [.ofField "Custom" "int"]])
      (.ofMembers "Shop" "Order" [columns []])).outcome =
        .ok (.ofMembers "Shop" "Order" [columns [.ofField "Custom" "int"]]) := rfl
  have hs : StandsAt (.ofMembers "Shop" "Order" [columns [.ofField "Custom" "int"]])
      "Shop" "Order" [((columns []).head, { name := "Columns" })] (.ofField "Custom" "int") :=
    ⟨_, mem_memberLists_ofMembers, _, List.mem_singleton_self _, List.mem_singleton_self _⟩
  have hc : ¬ CarriedAwayAt (.ofMembers "Shop" "Order" [columns []]) "Shop" "Order"
      [((columns []).head, { name := "Columns" })] := by
    rintro ⟨source, hsource, hc⟩
    obtain rfl := eq_of_mem_memberLists_ofMembers hsource
    rcases hc with ⟨-, hno⟩ | ⟨_, _, _, _, _, hc⟩
    · exact hno _ _ _ (List.mem_singleton_self _) rfl
    · exact hc
  have hf : EveryDepth DistinctNested [.ofField "Custom" "int"] :=
    everyDepth_iff.mpr ⟨by decide, by simp [Member.ofField]⟩
  have hn : EveryDepth DistinctNested [] :=
    everyDepth_iff.mpr ⟨by decide, by simp⟩
  have hd := distinctTypes_ofMembers "Shop" "Order"
  have hiff := (hand_written_member_stays hm hs rfl (by decide)).2 (hd _) (hd _)
    ((everyDepth_columns hf).ofMembers _ _) ((everyDepth_columns hn).ofMembers _ _)
  exact ⟨hm, hiff.mpr hc⟩

/-- The field goes when the generator makes its type no more. -/
theorem hand_written_field_carried_away :
    (mergeTrees (.ofMembers "Shop" "Order" [columns [.ofField "Custom" "int"]])
        (.ofMembers "Shop" "Order" [])).outcome = .ok (.ofMembers "Shop" "Order" []) ∧
    StandsAt (.ofMembers "Shop" "Order" [columns [.ofField "Custom" "int"]]) "Shop" "Order"
      [((columns []).head, { name := "Columns" })] (.ofField "Custom" "int") ∧
    (Member.ofField "Custom" "int").isGenerated = false ∧
    ∀ path, ¬ StandsAt (.ofMembers "Shop" "Order" []) "Shop" "Order" path
      (.ofField "Custom" "int") := by
  refine ⟨rfl, ⟨_, mem_memberLists_ofMembers, _, List.mem_singleton_self _,
    List.mem_singleton_self _⟩, rfl, ?_⟩
  rintro path ⟨ms, hms, hin⟩
  obtain rfl := eq_of_mem_memberLists_ofMembers hms
  cases path with
  | nil => cases hin
  | cons k path =>
    obtain ⟨inner, hm, -⟩ := hin
    cases hm

end Graft.Merge
