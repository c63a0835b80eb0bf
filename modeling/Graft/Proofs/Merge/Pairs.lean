import Graft.Proofs.Merge.Nested

/-!
# The pairs of types that a merge pairs up

A merge of two trees comes to merging the members of a generated type into those of an existing
one: first for types at the top of a namespace, and from each such pair for the types nested in
them. `Visits` and `TreeVisits` are these pairs, each with the member lists at the time when they
are merged. Each pair is merged by `mergeMembers`. A merge that succeeds does so in all of its
pairs, and its report holds what each pair reports. What a pair is merged to is there in the merged
tree, unless a later type of the same name is merged into it.
-/

namespace Graft.Merge

/-- Merging `source` into `target` comes to merging `source'` into `target'`. -/
inductive Visits : String → List Member → List Member → String → List Member → List Member →
    Prop where
  | here (type : String) (target source : List Member) :
      Visits type target source type target source
  | inside {type type' : String} {target source target' source' : List Member}
      {pre post reached before after old inner : List Member} {h oh : MemberHead}
      {t ot : TypeHeader} (hs : source = pre ++ .nested h t inner :: post)
      (hr : (bringMembers type target pre).outcome = .ok reached)
      (hl : Member.locate (.nested h t inner) reached = some (before, .nested oh ot old, after))
      (hv : Visits (pathInside type h.name) old inner type' target' source') :
      Visits type target source type' target' source'

/-- Merging two trees comes to merging `source` into `target`, the members of a type with that
path. -/
inductive TreeVisits (existing generated : DeclarationTree) :
    String → List Member → List Member → Prop where
  | inside {pre post reached : List Namespace} {g n : Namespace}
      {preT postT reachedT : List TypeDecl} {u t : TypeDecl} {type : String}
      {target source : List Member}
      (hg : generated.namespaces = pre ++ g :: post)
      (hr : (bringNamespaces existing.namespaces pre).outcome = .ok reached)
      (hn : reached.find? (·.name = g.name) = some n)
      (hu : g.types = preT ++ u :: postT)
      (hrT : (bringTypes n.name n.types preT).outcome = .ok reachedT)
      (ht : reachedT.find? (·.header.name = u.header.name) = some t)
      (hv : Visits (pathInside n.name u.header.name) t.members u.members type target source) :
      TreeVisits existing generated type target source

lemma TreeVisits.ofMembers (ns type : String) (target source : List Member) :
    TreeVisits (.ofMembers ns type target) (.ofMembers ns type source) (pathInside ns type)
      target source := by
  have hn := List.find?_cons_of_pos (l := []) (p := fun n : Namespace => n.name = ns)
    (a := { name := ns, types := [{ header := { name := type }, members := target }] }) (by simp)
  have ht := List.find?_cons_of_pos (l := []) (p := fun t : TypeDecl => t.header.name = type)
    (a := { header := { name := type }, members := target }) (by simp)
  exact .inside (List.nil_append _).symm rfl hn (List.nil_append _).symm rfl ht (.here _ _ _)

/-! ### All pairs of a successful merge are merged -/

lemma steps_append_iff {target pre post grown : List Member} :
    Steps target (pre ++ post) grown ↔
      ∃ reached, Steps target pre reached ∧ Steps reached post grown := by
  induction pre generalizing target with
  | nil =>
    constructor
    · intro h
      exact ⟨target, .nil target, h⟩
    · rintro ⟨reached, h, hs⟩
      cases h
      exact hs
  | cons g gs ih =>
    constructor
    · intro h
      cases h with
      | cons h hs =>
        obtain ⟨reached, h₁, h₂⟩ := ih.mp hs
        exact ⟨reached, .cons h h₁, h₂⟩
    · rintro ⟨reached, h, hs⟩
      cases h with
      | cons h h' => exact .cons h (ih.mpr ⟨reached, h', hs⟩)

/-- Steps end in one list only. -/
lemma Steps.unique {target source grown grown' : List Member} (h : Steps target source grown)
    (h' : Steps target source grown') : grown = grown' := by
  have he := h.run ""
  rw [h'.run ""] at he
  exact (Except.ok.inj he).symm

/-- A nested type that finds a nested one is merged into it. -/
lemma Step.merges_of_locate {target target' before after old inner : List Member}
    {h oh : MemberHead} {t ot : TypeHeader} (hs : Step target (.nested h t inner) target')
    (hl : Member.locate (.nested h t inner) target = some (before, .nested oh ot old, after)) :
    ∃ merged, Merges old inner merged ∧ target' = before ++ .nested oh ot merged :: after := by
  cases hs with
  | append hm _ =>
    rw [Member.locate_eq_none_iff.mpr hm] at hl
    cases hl
  | descend hb he hs =>
    rw [Member.locate_eq_some_iff.mpr ⟨rfl, he, hb⟩] at hl
    cases hl
    exact ⟨_, ⟨_, hs, rfl⟩, rfl⟩

/-- Later generated members leave a nested type alone if none of them has its name. -/
lemma Steps.mem_of_not_mem_names {before after inner source grown : List Member} {h : MemberHead}
    {t : TypeHeader} (hs : Steps (before ++ .nested h t inner :: after) source grown)
    (hb : ∀ m ∈ before, m.isMatchFor (.nested h t inner) = false)
    (hn : h.name ∉ (Graft.nestedTypes source).map (·.head.name)) :
    .nested h t inner ∈ grown := by
  have hfind := hs.nestedTypes.find?_of_not_mem @JoinsNested.name_eq hn
  have hbefore : (Graft.nestedTypes before).find? (·.head.name = h.name) = none :=
    List.find?_eq_none.mpr fun x hx => by simpa using name_ne_of_mem_nestedTypes hb x hx
  rw [nestedTypes_append, nestedTypes_nested_cons, List.find?_append, hbefore, Option.none_or,
    List.find?_cons_of_pos (by simp)] at hfind
  exact mem_nestedTypes.mp (List.mem_of_find?_eq_some hfind)

/-- A nested type stands among the merged members once a generated one has been merged into it,
unless a later one has its name as well. -/
lemma Steps.mem_withoutStale {before after pre post inner members grown : List Member}
    {h oh : MemberHead} {t ot : TypeHeader}
    (hs : Steps (before ++ .nested oh ot members :: after) post grown)
    (hb : ∀ m ∈ before, m.isMatchFor (.nested h t inner) = false) (he : oh.name = h.name)
    (hd : DistinctNested (pre ++ .nested h t inner :: post)) :
    .nested oh ot members ∈ withoutStale (pre ++ .nested h t inner :: post) grown := by
  have hlater : oh.name ∉ (Graft.nestedTypes post).map (·.head.name) := by
    rw [DistinctNested, nestedTypes_append, nestedTypes_nested_cons] at hd
    rw [he]
    exact (not_mem_keys_of_nodup hd).2
  have hbefore : ∀ m ∈ before, m.isMatchFor (.nested oh ot members) = false := by
    have hname : (Member.nested oh ot members).name = (Member.nested h t inner).name := he
    intro m hm
    rw [← hb m hm]
    exact Member.isMatchFor_congr_right hname rfl rfl m
  have hstays : isStale (pre ++ .nested h t inner :: post) (.nested oh ot members) = false :=
    isStale_eq_false List.mem_append_cons_self fun _ =>
      Member.nested_isMatchFor_nested_iff.mpr he.symm
  refine List.mem_filter.mpr ⟨hs.mem_of_not_mem_names hbefore hlater, ?_⟩
  rw [hstays]
  rfl

/-- `ms` are the members of the type with the path `type'`, which is nested in a type with the path
`type` and the given members, or is that type. -/
inductive Holds : String → List Member → String → List Member → Prop where
  | here (type : String) (ms : List Member) : Holds type ms type ms
  | inside {type type' : String} {ms inner ms' : List Member} {h : MemberHead} {t : TypeHeader}
      (hm : .nested h t inner ∈ ms) (hi : Holds (pathInside type h.name) inner type' ms') :
      Holds type ms type' ms'

/-- `ms` are the members of a type of the tree with the path `type`. -/
def TreeHolds (tree : DeclarationTree) (type : String) (ms : List Member) : Prop :=
  ∃ n ∈ tree.namespaces, ∃ t ∈ n.types,
    Holds (pathInside n.name t.header.name) t.members type ms

/-- What a pair is merged to stands in what the pair that leads to it is merged to, unless a later
generated type has its name. -/
theorem Visits.exists_merged {type type' : String}
    {target source target' source' merged : List Member}
    (hv : Visits type target source type' target' source') (h : Merges target source merged) :
    ∃ merged', Merges target' source' merged' ∧
      (EveryDepth DistinctNested source → Holds type merged type' merged') := by
  induction hv generalizing merged with
  | here type target source => exact ⟨merged, h, fun _ => .here type merged⟩
  | @inside type type' target source target' source' pre post reached before after old inner h oh t
      ot hs hr hl _ ih =>
    subst hs
    obtain ⟨grown, hg, rfl⟩ := h
    obtain ⟨reached', hp, hg⟩ := steps_append_iff.mp hg
    obtain rfl := hp.unique (bringMembers_ok_iff.mp hr)
    cases hg with
    | cons hg hpost =>
      obtain ⟨members, hm, rfl⟩ := hg.merges_of_locate hl
      obtain ⟨merged', hm', hholds⟩ := ih hm
      refine ⟨merged', hm', fun hd => ?_⟩
      obtain ⟨rfl, he, hb⟩ := Member.locate_eq_some_iff.mp hl
      rw [Member.nested_isMatchFor_nested_iff] at he
      refine .inside (hpost.mem_withoutStale hb he hd.here) ?_
      rw [he]
      exact hholds (hd.inside List.mem_append_cons_self)

section Keyed

variable {α κ : Type} {key : α → κ} {Joins : α → α → α → Prop}

lemma keyedSteps_append_iff {target pre post grown : List α} :
    KeyedSteps key Joins target (pre ++ post) grown ↔
      ∃ reached, KeyedSteps key Joins target pre reached ∧
        KeyedSteps key Joins reached post grown := by
  induction pre generalizing target with
  | nil => simp [keyedSteps_nil_iff]
  | cons g gs ih =>
    simp only [List.cons_append, keyedSteps_cons_iff, ih]
    constructor
    · rintro ⟨middle, h, reached, h₁, h₂⟩
      exact ⟨reached, ⟨middle, h, h₁⟩, h₂⟩
    · rintro ⟨reached, ⟨middle, h, h₁⟩, h₂⟩
      exact ⟨middle, h, reached, h₁, h₂⟩

/-- An element that finds one with its key is joined with it, and that is what is found in the end
unless a later element has its key. -/
lemma KeyedSteps.joins_of_find? [DecidableEq κ] (hJ : ∀ a g a', Joins a g a' → key a' = key a)
    {target reached grown pre post : List α} {g a : α}
    (h : KeyedSteps key Joins target (pre ++ g :: post) grown)
    (hr : ∀ r, KeyedSteps key Joins target pre r → r = reached)
    (ha : reached.find? (key · = key g) = some a) :
    ∃ a', Joins a g a' ∧ (((pre ++ g :: post).map key).Nodup → a' ∈ grown) := by
  obtain ⟨r, hp, hs⟩ := keyedSteps_append_iff.mp h
  obtain rfl := hr r hp
  obtain ⟨middle, hg, hpost⟩ := keyedSteps_cons_iff.mp hs
  obtain ⟨hn, -⟩ | ⟨b, b', hb, hj, hb'⟩ := hg.find?_self hJ
  · rw [hn] at ha
    cases ha
  · rw [hb, Option.some.injEq] at ha
    refine ⟨b', ha ▸ hj, fun hnodup => ?_⟩
    rw [← hpost.find?_of_not_mem hJ (not_mem_keys_of_nodup hnodup).2] at hb'
    exact List.mem_of_find?_eq_some hb'

end Keyed

/-- A pair of types of a successful merge is merged. If the names of the generated types are
distinct in each namespace and in each type, what it is merged to stands in the merged tree. -/
theorem TreeVisits.exists_merged {existing generated merged : DeclarationTree} {type : String}
    {target source : List Member} (hv : TreeVisits existing generated type target source)
    (h : (mergeTrees existing generated).outcome = .ok merged) :
    ∃ merged', Merges target source merged' ∧
      (DistinctTypes generated → EveryType DistinctNested generated →
        TreeHolds merged type merged') := by
  rw [mergeTrees_ok_iff] at h
  cases hv with
  | @inside pre post reached g n preT postT reachedT u t _ _ _ hg hr hn hu hrT ht hv =>
    have hmemg : g ∈ generated.namespaces := by simp [hg]
    have hmemu : u ∈ g.types := by simp [hu]
    have hreached : ∀ r, KeyedSteps (·.name) JoinsNamespace existing.namespaces pre r →
        r = reached := by
      intro r hr'
      rw [bringNamespaces_ok_iff.mpr hr'] at hr
      exact Except.ok.inj hr
    have hreachedT : ∀ r, KeyedSteps (·.header.name) JoinsType n.types preT r →
        r = reachedT := by
      intro r hr'
      rw [bringTypes_ok_iff.mpr hr'] at hrT
      exact Except.ok.inj hrT
    rw [hg] at h
    obtain ⟨n', ⟨types, hj, rfl⟩, hn'⟩ := h.joins_of_find? @JoinsNamespace.name_eq hreached hn
    rw [hu] at hj
    obtain ⟨t', ⟨members, hm, rfl⟩, ht'⟩ := hj.joins_of_find? @JoinsType.name_eq hreachedT ht
    obtain ⟨merged', hm', hholds⟩ := hv.exists_merged hm
    refine ⟨merged', hm', fun hd hnested => ?_⟩
    have hname : t.header.name = u.header.name := by simpa using List.find?_some ht
    refine ⟨_, hn' (hg ▸ hd.namespaces), _, ht' (hu ▸ hd.types g hmemg), ?_⟩
    rw [hname]
    exact hholds (hnested g hmemg u hmemu)

theorem TreeVisits.merges {existing generated merged : DeclarationTree} {type : String}
    {target source : List Member} (hv : TreeVisits existing generated type target source)
    (h : (mergeTrees existing generated).outcome = .ok merged) :
    ∃ merged', (mergeMembers type target source).outcome = .ok merged' := by
  obtain ⟨merged', hm, -⟩ := hv.exists_merged h
  exact ⟨merged', mergeMembers_ok_iff.mpr hm⟩

/-! ### The report of a pair is part of the report of the merge -/

/-- The report of a call is part of the report of the call that leads to it. -/
lemma Visits.isInfix {type type' : String} {target source target' source' : List Member}
    (hv : Visits type target source type' target' source') :
    (mergeMembers type' target' source').records <:+:
      (mergeMembers type target source).records := by
  induction hv with
  | here type target source => exact List.infix_refl _
  | @inside type type' target source target' source' pre post reached before after old inner h oh t
      ot hs hr hl _ ih =>
    have hinner : (mergeMembers (pathInside type h.name) old inner).records <:+:
        (bringMember type reached (.nested h t inner)).records := by
      rw [bringMember_nested_of_locate type hl]
      exact (Traced.isPrefix_records_bind _ _).isInfix
    have hmember : (bringMember type reached (.nested h t inner)).records <:+:
        (bringMembers type target source).records := by
      rw [hs]
      exact Traced.isInfix_records_loop (bringMember type) (bringMembers type)
        (fun _ => by rw [bringMembers]) (fun _ _ _ => by rw [bringMembers]) hr _ post
    have hcall : (bringMembers type target source).records <:+:
        (mergeMembers type target source).records :=
      (Traced.isPrefix_records_bind _ _).isInfix
    exact ih.trans (hinner.trans (hmember.trans hcall))

/-- A type that finds one of its name reports the merge of their members. -/
lemma records_bringType (ns : String) (g : TypeDecl) (target : List TypeDecl) :
    (bringType ns g target).records =
      match target.find? (·.header.name = g.header.name) with
      | none => [.added .typeWhole (pathInside ns g.header.name)]
      | some t => (mergeMembers (pathInside ns g.header.name) t.members g.members).records := by
  induction target with
  | nil => rfl
  | cons t ts ih =>
    unfold bringType
    split
    · next hn =>
      rw [Traced.records_bind_pure]
      simp [hn]
    · next hn =>
      rw [Traced.records_bind_pure, ih]
      simp [hn]

lemma records_bringNamespace (g : Namespace) (target : List Namespace) :
    (bringNamespace g target).records =
      match target.find? (·.name = g.name) with
      | none => [.added .namespaceWhole (namespaceLabel g.name)]
      | some n => (bringImports n.name n.imports g.imports).records ++
          (bringTypes n.name n.types g.types).records := by
  induction target with
  | nil => rfl
  | cons n ns ih =>
    unfold bringNamespace
    split
    · next hn =>
      rw [Traced.bind_of_ok (outcome_bringImports _ _ _)]
      simp [hn, Traced.records_bind_pure]
    · next hn =>
      rw [Traced.records_bind_pure, ih]
      simp [hn]

/-- The report of a call that a merge of trees comes to is part of the report of that merge. -/
lemma TreeVisits.isInfix {existing generated : DeclarationTree} {type : String}
    {target source : List Member}
    (hv : TreeVisits existing generated type target source) :
    (mergeMembers type target source).records <:+: (mergeTrees existing generated).records := by
  cases hv with
  | @inside pre post reached g n preT postT reachedT u t _ _ _ hg hr hn hu hrT ht hv =>
    have htype : (bringType n.name u reachedT).records <:+:
        (bringTypes n.name n.types g.types).records := by
      rw [hu]
      exact Traced.isInfix_records_loop (fun ts t => bringType n.name t ts) (bringTypes n.name)
        (fun _ => by rw [bringTypes]) (fun _ _ _ => by rw [bringTypes]) hrT u postT
    have htypes : (bringTypes n.name n.types g.types).records <:+:
        (bringNamespace g reached).records := by
      rw [records_bringNamespace, hn]
      exact (List.suffix_append _ _).isInfix
    have hnamespace : (bringNamespace g reached).records <:+:
        (bringNamespaces existing.namespaces generated.namespaces).records := by
      rw [hg]
      exact Traced.isInfix_records_loop (fun ns n => bringNamespace n ns) bringNamespaces
        (fun _ => by rw [bringNamespaces]) (fun _ _ _ => by rw [bringNamespaces]) hr g post
    rw [records_bringType, ht] at htype
    rw [mergeTrees, Traced.records_bind_pure]
    exact hv.isInfix.trans (htype.trans (htypes.trans hnamespace))

end Graft.Merge
