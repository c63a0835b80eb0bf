import Mathlib.Data.List.Nodup
import Graft.Proofs.Merge.HandWritten
import Graft.Proofs.Merge.Names

/-!
# When a merge fails

A merge fails in one way only: a generated member is to come in under the name of a hand-written
one that is of another class. The test is made against the list as it stands at that time, with the
members that came in before. When both trees are well-formed this makes no difference: what came in
before clashes with no generated member, and what is still there from before is as it was. So
`fails_iff_hand_written_clash` speaks of the two trees only, and of the names and classes in them.
-/

namespace Graft.Merge

/-! ### Some pair of types -/

/-- `R` holds of one of the pairs that a merge of two member lists pairs up: of the lists, or of the
members of two types of one name that are nested in them, at any depth. The text is the path of the
type. -/
inductive SomePair (R : String → List Member → List Member → Prop) :
    String → List Member → List Member → Prop where
  | here {type : String} {target source : List Member} (h : R type target source) :
      SomePair R type target source
  | inside {type : String} {target source : List Member} {x y : NestedType}
      (hx : x ∈ nestedTypes target) (hy : y ∈ nestedTypes source)
      (hn : x.head.name = y.head.name)
      (h : SomePair R (pathInside type y.head.name) x.members y.members) :
      SomePair R type target source

/-- `R` holds of the members of some two types of one name in namespaces of one name, or of types
nested in them. -/
def SomeTypePair (R : String → List Member → List Member → Prop)
    (existing generated : DeclarationTree) : Prop :=
  ∃ n ∈ existing.namespaces, ∃ g ∈ generated.namespaces, n.name = g.name ∧
    ∃ t ∈ n.types, ∃ u ∈ g.types, t.header.name = u.header.name ∧
      SomePair R (pathInside g.name u.header.name) t.members u.members

section SomePair

variable {R S : String → List Member → List Member → Prop}

/-- A weaker relation holds of some pair as well. -/
lemma SomePair.imp (h : ∀ type target source, R type target source → S type target source)
    {type : String} {target source : List Member} (hp : SomePair R type target source) :
    SomePair S type target source := by
  induction hp with
  | here hr => exact .here (h _ _ _ hr)
  | inside hx hy hn _ ih => exact .inside hx hy hn ih

lemma SomeTypePair.imp (h : ∀ type target source, R type target source → S type target source)
    {existing generated : DeclarationTree} (hp : SomeTypePair R existing generated) :
    SomeTypePair S existing generated := by
  obtain ⟨n, hn, g, hg, hng, t, ht, u, hu, htu, hp⟩ := hp
  exact ⟨n, hn, g, hg, hng, t, ht, u, hu, htu, hp.imp h⟩

end SomePair

/-- A generated member has the name of a hand-written one, but not its class. -/
def HandWrittenClash (target source : List Member) : Prop :=
  ∃ e ∈ target, ∃ g ∈ source, e.isGenerated = false ∧ e.clashesWith g = true

/-- The failure tells of such a clash in the type of that path. -/
def TellsClash (f : Failure) (type : String) (target source : List Member) : Prop :=
  ∃ e ∈ target, ∃ g ∈ source, e.isGenerated = false ∧ e.clashesWith g = true ∧
    f = .clash type g.name g.kind e.kind

lemma TellsClash.clash {f : Failure} {type : String} {target source : List Member}
    (h : TellsClash f type target source) : HandWrittenClash target source := by
  obtain ⟨e, he, g, hg, hw, hc, -⟩ := h
  exact ⟨e, he, g, hg, hw, hc⟩

/-! ### A failure tells of a clash -/

/-- Only a hand-written member of another class can keep a generated one from being added. -/
lemma insertMember_error {type path : String} {target : List Member} {g : Member} {f : Failure}
    (h : (insertMember type path target g).outcome = .error f) :
    ∃ m ∈ target, m.isGenerated = false ∧ m.clashesWith g = true ∧
      f = .clash type g.name g.kind m.kind := by
  unfold insertMember at h
  split at h
  · next m hf =>
    have hm := List.find?_some hf
    simp only [Bool.and_eq_true, Bool.not_eq_true'] at hm
    simp only [Traced.outcome_fail, Except.error.injEq] at h
    exact ⟨m, List.mem_of_find?_eq_some hf, hm.1, hm.2, h.symm⟩
  · cases h

/-- Bringing in a member fails because a member is in its way, or inside the nested type it is
brought to. -/
lemma bringMember_error {type : String} {target : List Member} {g : Member} {f : Failure}
    (h : (bringMember type target g).outcome = .error f) :
    (∃ m ∈ target, m.isGenerated = false ∧ m.clashesWith g = true ∧
        f = .clash type g.name g.kind m.kind) ∨
      ∃ x ∈ nestedTypes target, ∃ k t inner, g = .nested k t inner ∧ x.head.name = k.name ∧
        (bringMembers (pathInside type k.name) x.members inner).outcome = .error f := by
  cases g with
  | plain k c =>
    simp only [bringMember] at h
    split at h
    · exact .inl (insertMember_error h)
    · simp [Traced.outcome_bind_eq_error_iff] at h
  | nested k t inner =>
    simp only [bringMember] at h
    split at h
    · exact .inl (insertMember_error h)
    · next before oh ot old after hl =>
      obtain ⟨rfl, he, -⟩ := Member.locate_eq_some_iff.mp hl
      rw [Member.nested_isMatchFor_nested_iff] at he
      simp only [Traced.outcome_bind_eq_error_iff, outcome_removeStale, reduceCtorEq,
        Traced.outcome_pure, and_false, exists_const, or_false] at h
      exact .inr ⟨⟨oh, ot, old⟩, mem_nestedTypes.mpr (by simp), k, t, inner, rfl, he, h⟩
    · cases h

/-- A list fails at the first member that does. -/
lemma bringMembers_error {type : String} {target source : List Member} {f : Failure}
    (h : (bringMembers type target source).outcome = .error f) :
    ∃ pre g post reached, source = pre ++ g :: post ∧ Steps target pre reached ∧
      (bringMember type reached g).outcome = .error f := by
  obtain ⟨pre, g, post, reached, hs, hr, he⟩ := Traced.exists_of_loop_error
    (bringMember type) (bringMembers type) (fun _ => by rw [bringMembers])
    (fun _ _ _ => by rw [bringMembers]) h
  exact ⟨pre, g, post, reached, hs, bringMembers_ok_iff.mp hr, he⟩

/-- Removing members cannot fail. -/
lemma mergeMembers_error_iff {type : String} {target source : List Member} {f : Failure} :
    (mergeMembers type target source).outcome = .error f ↔
      (bringMembers type target source).outcome = .error f := by
  simp [mergeMembers, Traced.outcome_bind_eq_error_iff]

/-- A hand-written member was there before, or a generated one of its name and class came in. -/
lemma Step.origin {target target' : List Member} {g m : Member} (h : Step target g target')
    (hm : m ∈ target') (hw : m.isGenerated = false) :
    (∃ e ∈ target, e.isGenerated = false ∧ e.key = m.key ∧ e.kind = m.kind) ∨ g.key = m.key := by
  cases h with
  | append _ _ =>
    rcases List.mem_append.mp hm with hm | hm
    · exact .inl ⟨m, hm, hw, rfl, rfl⟩
    · obtain rfl := List.mem_singleton.mp hm
      exact .inr rfl
  | @renew before after e k c _ he =>
    rcases Member.mem_append_cons_iff.mp hm with rfl | hm
    · by_cases hg : e.isGenerated = true
      · exact .inr ((updates_renewed he).key_of_generated hg).symm
      · have hg : e.isGenerated = false := by simpa using hg
        rw [renewed_of_not_isGenerated hg]
        exact .inl ⟨e, by simp, hg, rfl, rfl⟩
    · exact .inl ⟨m, Member.mem_append_cons_iff.mpr (.inr hm), hw, rfl, rfl⟩
  | descend _ _ _ =>
    rcases Member.mem_append_cons_iff.mp hm with rfl | hm
    · exact .inl ⟨_, List.mem_append_right _ List.mem_cons_self, hw, rfl, rfl⟩
    · exact .inl ⟨m, Member.mem_append_cons_iff.mpr (.inr hm), hw, rfl, rfl⟩

/-- A hand-written member of the grown list comes from a hand-written one of the same key and kind,
or from a generated one. -/
lemma Steps.origin {target source grown : List Member} {m : Member} (hs : Steps target source grown)
    (hm : m ∈ grown) (hw : m.isGenerated = false) :
    (∃ e ∈ target, e.isGenerated = false ∧ e.key = m.key ∧ e.kind = m.kind) ∨
      ∃ g ∈ source, g.key = m.key := by
  induction source generalizing target with
  | nil =>
    cases hs
    exact .inl ⟨m, hm, hw, rfl, rfl⟩
  | cons g gs ih =>
    cases hs with
    | cons h hs =>
      rcases ih hs with ⟨e, he, hew, hek, hen⟩ | ⟨d, hd, hk⟩
      · rcases h.origin he hew with ⟨e', he', hw', hk', hn'⟩ | hgk
        · exact .inl ⟨e', he', hw', hk'.trans hek, hn'.trans hen⟩
        · exact .inr ⟨g, List.mem_cons_self, hgk.trans hek⟩
      · exact .inr ⟨d, List.mem_cons_of_mem _ hd, hk⟩

/-- Before a nested type is brought in, the one of its name is as it was at the start. -/
lemma mem_nestedTypes_of_steps {target source grown : List Member} {x : NestedType}
    (hs : Steps target source grown) (hx : x ∈ nestedTypes grown)
    (hd : DistinctNested source) (hn : ∀ y ∈ nestedTypes source, y.head.name ≠ x.head.name) :
    x ∈ nestedTypes target := by
  rcases hs.nestedTypes.mem_cases @JoinsNested.name_eq hd hx with ht | hg | ⟨a, -, g, hg, hk, hj⟩
  · exact ht
  · exact absurd rfl (hn x hg)
  · exact absurd (hk.symm.trans hj.name_eq.symm) (hn g hg)

lemma wellNamed_of_append {pre post : List Member} (h : WellNamed (pre ++ post)) :
    WellNamed pre where
  noClash := fun a ha b hb =>
    h.noClash a (List.mem_append_left _ ha) b (List.mem_append_left _ hb)
  distinctNames := (List.pairwise_append.mp h.distinctNames).1

/-- A failure tells a clash of some pair of types. By induction on the depth of the generated
members, of which no two are in each other's way, so that an old member is. -/
theorem bringMembers_tellsClash {type : String} {target source : List Member} {f : Failure}
    (hs : EveryDepth WellNamed source)
    (h : (bringMembers type target source).outcome = .error f) :
    SomePair (TellsClash f) type target source := by
  induction hs generalizing type target with
  | @intro source here _ ih =>
    obtain ⟨pre, g, post, reached, rfl, hr, h⟩ := bringMembers_error h
    have hg : g ∈ pre ++ g :: post := by simp
    rcases bringMember_error h with ⟨m, hm, hw, hc, rfl⟩ | ⟨x, hx, k, t, inner, rfl, hn, h⟩
    · rcases hr.origin hm hw with ⟨e, he, hew, hek, hen⟩ | ⟨d, hd, hdk⟩
      · refine .here ⟨e, he, g, hg, hew, ?_, by rw [hen]⟩
        rw [Member.clashesWith_congr_key hek rfl, hc]
      · -- what came in before does not clash with what the generator makes
        have hdg := here.noClash d (List.mem_append_left _ hd) g hg
        rw [Member.clashesWith_congr_key hdk rfl, hc] at hdg
        cases hdg
    · have hy : (⟨k, t, inner⟩ : NestedType) ∈ nestedTypes (pre ++ .nested k t inner :: post) :=
        mem_nestedTypes.mpr hg
      have hdistinct := here.distinctNames.distinctNested
      rw [DistinctNested, nestedTypes_append, nestedTypes_nested_cons] at hdistinct
      have hx' : x ∈ nestedTypes target := by
        have hnested := (wellNamed_of_append here).distinctNames.distinctNested
        refine mem_nestedTypes_of_steps hr hx hnested ?_
        intro y hy hyx
        have hpre := List.mem_map_of_mem (f := fun z : NestedType => z.head.name) hy
        rw [hyx, hn] at hpre
        exact (not_mem_keys_of_nodup hdistinct).1 hpre
      exact .inside hx' hy hn (ih k t inner hg h)

/-! ### A clash makes the merge fail -/

/-- A list that was merged has no clash left to tell, since hand-written members stay. -/
lemma Merges.not_handWrittenClash {target source merged : List Member} (ht : WellNamed target)
    (h : Merges target source merged) : ¬ HandWrittenClash target source := by
  rintro ⟨e, he, g, hg, hw, hc⟩
  obtain ⟨grown, hs, -⟩ := h
  obtain ⟨hn, hk⟩ := Member.clashesWith_iff.mp hc
  have hclass : ∀ m ∈ target, m.name = e.name → m.nameClass = e.nameClass := by
    intro m hm hmn
    by_contra hmc
    have hme := ht.noClash m hm e he
    rw [Member.clashesWith_iff.mpr ⟨hmn, hmc⟩] at hme
    cases hme
  exact hk (hs.nameClass_of_hand_written ⟨e, he, hw, rfl, rfl⟩ hclass g hg hn.symm).symm

/-- Nor has any pair of types inside it. The induction follows the path to the pair. -/
theorem Merges.not_somePair {type : String} {target source merged : List Member}
    (hp : SomePair (fun _ => HandWrittenClash) type target source)
    (ht : EveryDepth WellNamed target) (hs : EveryDepth WellNamed source) :
    ¬ Merges target source merged := by
  induction hp generalizing merged with
  | here hc => exact fun h => h.not_handWrittenClash ht.here hc
  | inside hx hy hn _ ih =>
    rintro ⟨grown, hsteps, -⟩
    obtain ⟨-, members, hm, -⟩ := hsteps.nestedTypes.exists_joins @JoinsNested.name_eq
      ht.here.distinctNames.distinctNested hs.here.distinctNames.distinctNested hx hy hn
    exact ih (ht.inside (mem_nestedTypes.mp hx)) (hs.inside (mem_nestedTypes.mp hy)) hm

/-! ### Types and namespaces -/

/-- A type that is only added cannot fail. -/
lemma bringType_error {ns : String} {g : TypeDecl} {target : List TypeDecl} {f : Failure}
    (h : (bringType ns g target).outcome = .error f) :
    ∃ t, target.find? (·.header.name = g.header.name) = some t ∧
      (mergeMembers (pathInside ns g.header.name) t.members g.members).outcome = .error f := by
  induction target with
  | nil => cases h
  | cons t ts ih =>
    unfold bringType at h
    split at h
    · next hn =>
      simp only [Traced.outcome_bind_eq_error_iff, Traced.outcome_pure, reduceCtorEq, and_false,
        exists_const, or_false] at h
      exact ⟨t, by simp [hn], h⟩
    · next hn =>
      simp only [Traced.outcome_bind_eq_error_iff, Traced.outcome_pure, reduceCtorEq, and_false,
        exists_const, or_false] at h
      obtain ⟨t', hf, he⟩ := ih h
      exact ⟨t', by simpa [hn] using hf, he⟩

lemma bringNamespace_error {g : Namespace} {target : List Namespace} {f : Failure}
    (h : (bringNamespace g target).outcome = .error f) :
    ∃ n, target.find? (·.name = g.name) = some n ∧
      (bringTypes n.name n.types g.types).outcome = .error f := by
  induction target with
  | nil => cases h
  | cons n ns ih =>
    unfold bringNamespace at h
    split at h
    · next hn =>
      simp only [Traced.outcome_bind_eq_error_iff, outcome_bringImports, Traced.outcome_pure,
        reduceCtorEq, and_false, exists_const, or_false, false_or, Except.ok.injEq,
        exists_eq_left'] at h
      exact ⟨n, by simp [hn], h⟩
    · next hn =>
      simp only [Traced.outcome_bind_eq_error_iff, Traced.outcome_pure, reduceCtorEq, and_false,
        exists_const, or_false] at h
      obtain ⟨n', hf, he⟩ := ih h
      exact ⟨n', by simpa [hn] using hf, he⟩

/-- Where an element has no earlier one of its key, it is brought to one that was there at the
start. -/
lemma KeyedSteps.mem_of_find? {α κ : Type} [DecidableEq κ] {key : α → κ}
    {Joins : α → α → α → Prop} (hJ : ∀ a g a', Joins a g a' → key a' = key a)
    {target reached pre post : List α} {g a : α} (hn : ((pre ++ g :: post).map key).Nodup)
    (h : KeyedSteps key Joins target pre reached) (ha : reached.find? (key · = key g) = some a) :
    a ∈ target ∧ key a = key g := by
  rw [h.find?_of_not_mem hJ (not_mem_keys_of_nodup hn).1] at ha
  exact ⟨List.mem_of_find?_eq_some ha, by simpa using List.find?_some ha⟩

/-- What a failed merge of trees tells is a clash of one of its pairs. -/
theorem mergeTrees_tellsClash {existing generated : DeclarationTree} {f : Failure}
    (hg : WellFormed generated) (h : (mergeTrees existing generated).outcome = .error f) :
    SomeTypePair (TellsClash f) existing generated := by
  simp only [mergeTrees, Traced.outcome_bind_eq_error_iff, Traced.outcome_pure, reduceCtorEq,
    and_false, exists_const, or_false] at h
  obtain ⟨pre, g, post, reached, hs, hr, h⟩ := Traced.exists_of_loop_error
    (fun ns g => bringNamespace g ns) bringNamespaces (fun _ => rfl)
    (fun _ _ _ => rfl) h
  obtain ⟨n, hn, h⟩ := bringNamespace_error h
  have hgn : g ∈ generated.namespaces := by simp [hs]
  have hd := hg.namespaces
  rw [hs] at hd
  obtain ⟨hn, hng⟩ :=
    (bringNamespaces_ok_iff.mp hr).mem_of_find? @JoinsNamespace.name_eq hd hn
  obtain ⟨preT, u, postT, reachedT, hsT, hrT, h⟩ := Traced.exists_of_loop_error
    (fun ts u => bringType n.name u ts) (bringTypes n.name) (fun _ => rfl)
    (fun _ _ _ => rfl) h
  obtain ⟨t, ht, h⟩ := bringType_error h
  have hu : u ∈ g.types := by simp [hsT]
  have hd := hg.types g hgn
  rw [hsT] at hd
  obtain ⟨ht, htu⟩ := (bringTypes_ok_iff.mp hrT).mem_of_find? @JoinsType.name_eq hd ht
  rw [mergeMembers_error_iff, hng] at h
  exact ⟨n, hn, g, hgn, hng, t, ht, u, hu, htu, bringMembers_tellsClash (hg.members g hgn u hu) h⟩

/-- A hand-written clash makes the merge fail, wherever it is. -/
theorem mergeTrees_not_ok {existing generated merged : DeclarationTree} (he : WellFormed existing)
    (hg : WellFormed generated)
    (hp : SomeTypePair (fun _ => HandWrittenClash) existing generated) :
    (mergeTrees existing generated).outcome ≠ .ok merged := by
  intro h
  rw [mergeTrees_ok_iff] at h
  obtain ⟨n, hn, g, hgn, hng, t, ht, u, hu, htu, hp⟩ := hp
  obtain ⟨-, types, hj, -⟩ :=
    h.exists_joins @JoinsNamespace.name_eq he.namespaces hg.namespaces hn hgn hng
  obtain ⟨-, members, hm, -⟩ :=
    hj.exists_joins @JoinsType.name_eq (he.types n hn) (hg.types g hgn) ht hu htu
  exact hm.not_somePair hp (he.members n hn t ht) (hg.members g hgn u hu)

/-! ### Names and classes are all that counts -/

/-- Inside the types at a path, a member that passes the test has that name and that class. -/
def DeclaredAt (passes : Member → Bool) (tree : DeclarationTree) (ns type : String)
    (names : List String) (name : String) (c : NameClass) : Prop :=
  ∃ path m, pathNames path = names ∧ StandsAt tree ns type path m ∧ passes m = true ∧
    m.name = name ∧ m.nameClass = c

/-- At every path the members that pass the test have the same names and classes in both trees. -/
def SameDeclared (passes : Member → Bool) (a b : DeclarationTree) : Prop :=
  ∀ ns type names name c,
    DeclaredAt passes a ns type names name c ↔ DeclaredAt passes b ns type names name c

/-- A pair with a clash is told by the places of the two members, which have the same names on the
way. -/
lemma somePair_handWrittenClash_iff {type : String} {target source : List Member} :
    SomePair (fun _ => HandWrittenClash) type target source ↔
      ∃ path path' e g, pathNames path = pathNames path' ∧ StandsIn e path target ∧
        StandsIn g path' source ∧ e.isGenerated = false ∧ e.clashesWith g = true := by
  constructor
  · intro h
    induction h with
    | here h =>
      obtain ⟨e, he, g, hg, hw, hc⟩ := h
      exact ⟨[], [], e, g, rfl, he, hg, hw, hc⟩
    | @inside _ _ _ x y hx hy hn _ ih =>
      obtain ⟨path, path', e, g, hp, he, hg, hw, hc⟩ := ih
      exact ⟨(x.head, x.header) :: path, (y.head, y.header) :: path', e, g,
        congrArg₂ List.cons hn hp, ⟨x.members, mem_nestedTypes.mp hx, he⟩,
        ⟨y.members, mem_nestedTypes.mp hy, hg⟩, hw, hc⟩
  · rintro ⟨path, path', e, g, hp, he, hg, hw, hc⟩
    induction path generalizing path' type target source with
    | nil =>
      cases path' with
      | nil => exact .here ⟨e, he, g, hg, hw, hc⟩
      | cons k' path' => cases hp
    | cons k path ih =>
      cases path' with
      | nil => cases hp
      | cons k' path' =>
        obtain ⟨hk, hp⟩ := List.cons_eq_cons.mp hp
        obtain ⟨inner, hm, he⟩ := he
        obtain ⟨inner', hm', hg⟩ := hg
        have hx : (⟨k.1, k.2, inner⟩ : NestedType) ∈ nestedTypes target := mem_nestedTypes.mpr hm
        have hy : (⟨k'.1, k'.2, inner'⟩ : NestedType) ∈ nestedTypes source :=
          mem_nestedTypes.mpr hm'
        exact .inside hx hy hk (ih path' hp he hg)

lemma someTypePair_handWrittenClash_iff {existing generated : DeclarationTree} :
    SomeTypePair (fun _ => HandWrittenClash) existing generated ↔
      ∃ ns type names name c c', c ≠ c' ∧
        DeclaredAt (fun m => !m.isGenerated) existing ns type names name c ∧
        DeclaredAt (fun _ => true) generated ns type names name c' := by
  constructor
  · rintro ⟨n, hn, g, hg, hng, t, ht, u, hu, htu, hp⟩
    obtain ⟨path, path', e, d, hpp, he, hd, hw, hc⟩ := somePair_handWrittenClash_iff.mp hp
    obtain ⟨hname, hclass⟩ := Member.clashesWith_iff.mp hc
    refine ⟨g.name, u.header.name, pathNames path', d.name, e.nameClass, d.nameClass, hclass,
      ⟨path, e, hpp, ⟨t.members, ?_, he⟩, by simp [hw], hname, rfl⟩,
      ⟨path', d, rfl, ⟨u.members, ?_, hd⟩, rfl, rfl, rfl⟩⟩
    · exact mem_memberLists.mpr ⟨n, hn, hng, t, ht, htu, rfl⟩
    · exact mem_memberLists.mpr ⟨g, hg, rfl, u, hu, rfl, rfl⟩
  · rintro ⟨ns, type, names, name, c, c', hne, ⟨path, e, hpe, ⟨ms, hms, he⟩, hw, hen, hec⟩,
      ⟨path', d, hpd, ⟨ms', hms', hd⟩, -, hdn, hdc⟩⟩
    obtain ⟨n, hn, hnn, t, ht, htt, rfl⟩ := mem_memberLists.mp hms
    obtain ⟨g, hg, hgn, u, hu, hut, rfl⟩ := mem_memberLists.mp hms'
    refine ⟨n, hn, g, hg, hnn.trans hgn.symm, t, ht, u, hu, htt.trans hut.symm, ?_⟩
    refine somePair_handWrittenClash_iff.mpr
      ⟨path, path', e, d, hpe.trans hpd.symm, he, hd, by simpa using hw, ?_⟩
    rw [Member.clashesWith_iff, hen, hdn, hec, hdc]
    exact ⟨rfl, hne⟩

/-- The merge of two well-formed trees fails exactly if in some pair of types of one name a
generated member has the name of a hand-written one but not its class; the failure then tells of
such a pair. So neither order nor what the generator owns plays a part: a merge of two other trees
fails as well, if at every path the hand-written members of the first one and the members of the
second one have the same names and classes. -/
theorem fails_iff_hand_written_clash {existing generated : DeclarationTree}
    (he : WellFormed existing) (hg : WellFormed generated) :
    ((∃ f, (mergeTrees existing generated).outcome = .error f) ↔
        SomeTypePair (fun _ => HandWrittenClash) existing generated) ∧
      (∀ f, (mergeTrees existing generated).outcome = .error f →
        SomeTypePair (TellsClash f) existing generated) ∧
      (∀ existing' generated', WellFormed existing' → WellFormed generated' →
        SameDeclared (fun m => !m.isGenerated) existing existing' →
        SameDeclared (fun _ => true) generated generated' →
        ((∃ f, (mergeTrees existing generated).outcome = .error f) ↔
          ∃ f, (mergeTrees existing' generated').outcome = .error f)) := by
  have hfails : ∀ a b, WellFormed a → WellFormed b →
      ((∃ f, (mergeTrees a b).outcome = .error f) ↔
        SomeTypePair (fun _ => HandWrittenClash) a b) := by
    intro a b ha hb
    constructor
    · rintro ⟨f, h⟩
      exact (mergeTrees_tellsClash hb h).imp fun _ _ _ => TellsClash.clash
    · intro hp
      cases h : (mergeTrees a b).outcome with
      | error f => exact ⟨f, rfl⟩
      | ok merged => exact absurd h (mergeTrees_not_ok ha hb hp)
  refine ⟨hfails _ _ he hg, fun f => mergeTrees_tellsClash hg, ?_⟩
  intro existing' generated' he' hg' hse hsg
  rw [hfails _ _ he hg, hfails _ _ he' hg', someTypePair_handWrittenClash_iff,
    someTypePair_handWrittenClash_iff]
  simp only [hse _ _ _ _ _, hsg _ _ _ _ _]

lemma declaredAt_ofMembers_iff {passes : Member → Bool} {ns type ns' type' name : String}
    {names : List String} {c : NameClass} {ms : List Member} (hn : nestedTypes ms = []) :
    DeclaredAt passes (.ofMembers ns type ms) ns' type' names name c ↔
      ns = ns' ∧ type = type' ∧ names = [] ∧
        ∃ m ∈ ms, passes m = true ∧ m.name = name ∧ m.nameClass = c := by
  constructor
  · rintro ⟨path, m, hp, ⟨ms', hms, hin⟩, hm⟩
    obtain ⟨n, hns, rfl, t, ht, rfl, rfl⟩ := mem_memberLists.mp hms
    obtain rfl := List.mem_singleton.mp hns
    obtain rfl := List.mem_singleton.mp ht
    cases path with
    | nil => exact ⟨rfl, rfl, hp.symm, m, hin, hm⟩
    | cons k path =>
      obtain ⟨inner, hk, -⟩ := hin
      have hx : (⟨k.1, k.2, inner⟩ : NestedType) ∈ nestedTypes ms := mem_nestedTypes.mpr hk
      rw [hn] at hx
      cases hx
  · rintro ⟨rfl, rfl, rfl, m, hin, hm⟩
    exact ⟨[], m, rfl, ⟨ms, mem_memberLists_ofMembers, hin⟩, hm⟩

/-- A generated property meets a hand-written field, and does so in another order and without the
member that carries the marker as well. -/
theorem total_clashes_in_any_order :
    (mergeTrees
        (.ofMembers "Shop" "Order"
          [(Member.ofField "Id" "long").annotate .generate, .ofField "Total" "decimal"])
        (.ofMembers "Shop" "Order"
          [.ofProperty "Total" "decimal", .ofField "Id" "long"])).outcome =
      .error (.clash "Shop.Order" "Total" .property .field) ∧
    SomeTypePair (TellsClash (.clash "Shop.Order" "Total" .property .field))
      (.ofMembers "Shop" "Order"
        [(Member.ofField "Id" "long").annotate .generate, .ofField "Total" "decimal"])
      (.ofMembers "Shop" "Order" [.ofProperty "Total" "decimal", .ofField "Id" "long"]) ∧
    ∃ f, (mergeTrees (.ofMembers "Shop" "Order" [.ofField "Total" "decimal"])
      (.ofMembers "Shop" "Order"
        [.ofField "Id" "long", .ofProperty "Total" "decimal"])).outcome = .error f := by
  have hm : (mergeTrees
      (.ofMembers "Shop" "Order"
        [(Member.ofField "Id" "long").annotate .generate, .ofField "Total" "decimal"])
      (.ofMembers "Shop" "Order"
        [.ofProperty "Total" "decimal", .ofField "Id" "long"])).outcome =
      .error (.clash "Shop.Order" "Total" .property .field) := rfl
  have he : WellFormed (.ofMembers "Shop" "Order"
      [(Member.ofField "Id" "long").annotate .generate, .ofField "Total" "decimal"]) :=
    wellFormed_ofMembers ⟨by decide, by decide⟩ rfl
  have hg : WellFormed (.ofMembers "Shop" "Order"
      [.ofProperty "Total" "decimal", .ofField "Id" "long"]) :=
    wellFormed_ofMembers ⟨by decide, by decide⟩ rfl
  have he' : WellFormed (.ofMembers "Shop" "Order" [.ofField "Total" "decimal"]) :=
    wellFormed_ofMembers ⟨by decide, by decide⟩ rfl
  have hg' : WellFormed (.ofMembers "Shop" "Order"
      [.ofField "Id" "long", .ofProperty "Total" "decimal"]) :=
    wellFormed_ofMembers ⟨by decide, by decide⟩ rfl
  obtain ⟨-, htells, hany⟩ := fails_iff_hand_written_clash he hg
  refine ⟨hm, htells _ hm, (hany _ _ he' hg' ?_ ?_).mp ⟨_, hm⟩⟩
  · intro ns type names name c
    rw [declaredAt_ofMembers_iff rfl, declaredAt_ofMembers_iff rfl]
    have hid : ((Member.ofField "Id" "long").annotate .generate).isGenerated = true := rfl
    simp [hid]
  · intro ns type names name c
    rw [declaredAt_ofMembers_iff rfl, declaredAt_ofMembers_iff rfl]
    simp [or_comm]

end Graft.Merge
