import Graft.Proofs.Merge.Shape
import Graft.Proofs.Merge.TreeSteps

/-!
# What a merge leaves alone

`Frame sources old new` says what may have become of a member list after the lists in `sources`
were merged into it, one after the other. Each old member is still at its place, or it carries the
generation marker and one of the sources does not make it any more; what came in stands behind all
of them. A hand-written plain member is the same as before, and of a nested type the head and the
header are. Frames compose, so what one step keeps is kept by a whole merge, and by several merges
into one type.

The main result `existing_declarations_framed` carries this up to namespaces and types, which are
never removed at all.
-/

namespace Graft.Merge

/-! ### Frames -/

/-- The member lists of the types of that name which are nested directly in one of the lists. -/
def innerLists (name : String) (sources : List (List Member)) : List (List Member) :=
  sources.flatMap fun source =>
    ((nestedTypes source).filter (·.head.name = name)).map (·.members)

mutual

/-- What merges of `sources` into a type may make of a member that they do not remove. -/
inductive Slot : List (List Member) → Member → Member → Prop where
  /-- A plain member may stay as it is. -/
  | kept {sources : List (List Member)} (h : MemberHead) (c : Content) :
      Slot sources (.plain h c) (.plain h c)
  /-- A plain member that carries the marker may be replaced by a candidate of it. -/
  | replaced {sources : List (List Member)} {h h' : MemberHead} {c c' : Content}
      (hg : h.annotations.isGenerated = true)
      (hm : (Member.plain h c).isMatchFor (.plain h' c') = true) :
      Slot sources (.plain h c) (.plain h' c')
  /-- Of a nested type only the members may change. -/
  | inside {sources : List (List Member)} {h : MemberHead} {t : TypeHeader}
      {ms ms' : List Member} (hf : Frame (innerLists h.name sources) ms ms') :
      Slot sources (.nested h t ms) (.nested h t ms')

/-- What merges of `sources` into a type may make of its member list. -/
inductive Frame : List (List Member) → List Member → List Member → Prop where
  /-- Behind the old members there may be new ones. -/
  | added {sources : List (List Member)} (ms : List Member) : Frame sources [] ms
  | keep {sources : List (List Member)} {m m' : Member} {ms ms' : List Member}
      (hm : Slot sources m m') (hf : Frame sources ms ms') : Frame sources (m :: ms) (m' :: ms')
  /-- A member goes only if it is stale for one of the sources. -/
  | drop {sources : List (List Member)} {m : Member} {ms ms' : List Member}
      (hd : ∃ source ∈ sources, isStale source m = true) (hf : Frame sources ms ms') :
      Frame sources (m :: ms) ms'

end

/-! ### Staleness -/

/-- What a member became is stale only if the member was. -/
lemma Slot.isStale_of_isStale {sources : List (List Member)} {source : List Member}
    {m m' : Member} (hs : Slot sources m m') (h : isStale source m' = true) :
    isStale source m = true := by
  cases hs with
  | kept h c => exact h
  | replaced hg hm =>
    rw [isStale_iff] at h ⊢
    refine ⟨hg, fun g hgs => ?_⟩
    by_contra hgm
    rw [Bool.not_eq_false] at hgm
    have := h.2 g hgs
    rw [Member.isMatchFor_trans hgm hm] at this
    exact absurd this (by decide)
  | inside hf => rwa [isStale_nested_congr] at h

/-! ### Frames compose -/

/-- An inner list comes from a nested type of that name in one of the sources. -/
lemma mem_innerLists {name : String} {sources : List (List Member)} {ms : List Member} :
    ms ∈ innerLists name sources ↔
      ∃ source ∈ sources, ∃ h t, Member.nested h t ms ∈ source ∧ h.name = name := by
  simp only [innerLists, List.mem_flatMap, List.mem_map, List.mem_filter, mem_nestedTypes,
    decide_eq_true_eq]
  constructor
  · rintro ⟨source, hs, x, ⟨hx, hn⟩, rfl⟩
    exact ⟨source, hs, x.head, x.header, hx, hn⟩
  · rintro ⟨source, hs, h, t, hm, hn⟩
    exact ⟨source, hs, ⟨h, t, ms⟩, ⟨hm, hn⟩, rfl⟩

/-- More sources have more inner lists. -/
lemma innerLists_mono {name : String} {sources sources' : List (List Member)}
    (h : sources ⊆ sources') : innerLists name sources ⊆ innerLists name sources' := by
  intro ms hms
  rw [mem_innerLists] at hms ⊢
  obtain ⟨source, hs, rest⟩ := hms
  exact ⟨source, h hs, rest⟩

mutual

theorem Slot.refl {sources : List (List Member)} (m : Member) : Slot sources m m := by
  match m with
  | .plain h c => exact .kept h c
  | .nested h t ms => exact .inside (Frame.refl ms)

theorem Frame.refl {sources : List (List Member)} (ms : List Member) : Frame sources ms ms := by
  match ms with
  | [] => exact .added []
  | m :: ms => exact .keep (Slot.refl m) (Frame.refl ms)

end

mutual

theorem Slot.mono {sources sources' : List (List Member)} {m m' : Member}
    (h : sources ⊆ sources') (hs : Slot sources m m') : Slot sources' m m' := by
  match hs with
  | .kept k c => exact .kept k c
  | .replaced hg hm => exact .replaced hg hm
  | .inside hf => exact .inside (hf.mono (innerLists_mono h))

/-- A frame for some sources is one for more of them. -/
theorem Frame.mono {sources sources' : List (List Member)} {ms ms' : List Member}
    (h : sources ⊆ sources') (hf : Frame sources ms ms') : Frame sources' ms ms' := by
  match hf with
  | .added ms => exact .added ms
  | .keep hm hf => exact .keep (hm.mono h) (hf.mono h)
  | .drop ⟨source, hs, hd⟩ hf => exact .drop ⟨source, h hs, hd⟩ (hf.mono h)

end

mutual

theorem Slot.trans {sources : List (List Member)} {m₁ m₂ m₃ : Member}
    (h₁ : Slot sources m₁ m₂) (h₂ : Slot sources m₂ m₃) : Slot sources m₁ m₃ := by
  match h₁ with
  | .kept h c => exact h₂
  | .replaced hg hm =>
    cases h₂ with
    | kept h c => exact .replaced hg hm
    | replaced _ hm' => exact .replaced hg (Member.isMatchFor_trans hm hm')
  | .inside hf =>
    cases h₂ with
    | inside hf' => exact .inside (hf.trans hf')

/-- Merges with the same sources can follow each other. Both relations by one induction, as a nested
type is a frame for its members. -/
theorem Frame.trans {sources : List (List Member)} {ms₁ ms₂ ms₃ : List Member}
    (h₁ : Frame sources ms₁ ms₂) (h₂ : Frame sources ms₂ ms₃) : Frame sources ms₁ ms₃ := by
  match h₁ with
  | .added _ => exact .added ms₃
  | .drop hd hf => exact .drop hd (hf.trans h₂)
  | .keep hm hf =>
    cases h₂ with
    | keep hm' hf' => exact .keep (hm.trans hm') (hf.trans hf')
    | drop hd hf' =>
      -- the member went in the second merge, as what the first one made of it
      obtain ⟨source, hs, hd⟩ := hd
      exact .drop ⟨source, hs, hm.isStale_of_isStale hd⟩ (hf.trans hf')

end

/-- A member that is stale for none of the sources is still there. -/
lemma Frame.exists_of_mem {sources : List (List Member)} {old new : List Member}
    (hf : Frame sources old new) {m : Member} (hm : m ∈ old)
    (hd : ∀ source ∈ sources, isStale source m = false) : ∃ m' ∈ new, Slot sources m m' := by
  induction old generalizing new with
  | nil => cases hm
  | cons k ks ih =>
    cases hf with
    | keep hs hf =>
      rcases List.mem_cons.mp hm with rfl | hm
      · exact ⟨_, List.mem_cons_self, hs⟩
      · obtain ⟨m', hm', hs'⟩ := ih hf hm
        exact ⟨m', List.mem_cons_of_mem _ hm', hs'⟩
    | drop hst hf =>
      rcases List.mem_cons.mp hm with rfl | hm
      · obtain ⟨source, hs, hst⟩ := hst
        rw [hd source hs] at hst
        exact absurd hst (by decide)
      · exact ih hf hm

/-! ### What a step does is a frame -/

/-- Putting another member at one place, and new ones at the end. -/
lemma Frame.set {sources : List (List Member)} {m m' : Member} (before after : List Member)
    (hm : Slot sources m m') :
    Frame sources (before ++ m :: after) (before ++ m' :: after) := by
  induction before with
  | nil => exact .keep hm (.refl after)
  | cons b bs ih => exact .keep (.refl b) ih

/-- What is appended has no place among the old members. -/
lemma Frame.append {sources : List (List Member)} (ms added : List Member) :
    Frame sources ms (ms ++ added) := by
  induction ms with
  | nil => exact .added added
  | cons m ms ih => exact .keep (.refl m) ih

/-- Removing the stale members leaves the other ones where they are relative to each other. -/
lemma Frame.withoutStale {source : List Member} (ms : List Member) :
    Frame [source] ms (withoutStale source ms) := by
  apply withoutStale_induction (motive := fun ms _ left => Frame [source] ms left)
  · exact .added []
  · intro m _ _ _ h hf
    exact .drop ⟨source, List.mem_cons_self, h⟩ hf
  · intro m _ _ _ _ hf
    exact .keep (.refl m) hf

/-- A plain generated member replaces a plain one only. -/
lemma Slot.renewed {sources : List (List Member)} {e : Member} {h : MemberHead} {c : Content}
    (he : e.isMatchFor (.plain h c) = true) : Slot sources e (renewed e (.plain h c)) := by
  cases e with
  | nested k t ms => simp at he
  | plain k d =>
    by_cases hg : (Member.plain k d).isGenerated = true
    · have hm := isMatchFor_renewed he
      rw [renewed_of_isGenerated hg] at hm ⊢
      exact .replaced hg hm
    · rw [renewed_of_not_isGenerated (by simpa using hg)]
      exact .refl _

mutual

/-- A step with one of the generated members keeps the frame for all of them. -/
theorem Step.frame {target target' source : List Member} {g : Member} (hg : g ∈ source)
    (hs : Step target g target') : Frame [source] target target' := by
  match hs with
  | .append _ _ => exact .append target [g]
  | .renew _ he => exact .set _ _ (.renewed he)
  | .descend _ he hs =>
    rw [Member.nested_isMatchFor_nested_iff] at he
    have hf := (hs.frame (List.Subset.refl _)).trans (.withoutStale _)
    refine .set _ _ (.inside (hf.mono ?_))
    intro ms hms
    obtain rfl := List.mem_singleton.mp hms
    exact mem_innerLists.mpr ⟨source, by simp, _, _, hg, he.symm⟩

theorem Steps.frame {target grown part source : List Member} (hp : part ⊆ source)
    (hs : Steps target part grown) : Frame [source] target grown := by
  match hs with
  | .nil _ => exact .refl target
  | .cons h hs =>
    have hg := hp List.mem_cons_self
    exact (h.frame hg).trans (hs.frame fun m hm => hp (List.mem_cons_of_mem _ hm))

end

/-- Bringing the members in and removing the stale ones are two frames one after the other. -/
theorem Merges.frame {target source merged : List Member} (h : Merges target source merged) :
    Frame [source] target merged := by
  obtain ⟨grown, hs, rfl⟩ := h
  exact (hs.frame (List.Subset.refl source)).trans (.withoutStale grown)

/-! ### Types and namespaces -/

/-- Each old element is still at its place, as `R` allows; what came in stands behind them. -/
inductive Extends {α : Type} (R : α → α → Prop) : List α → List α → Prop where
  | added (as : List α) : Extends R [] as
  | keep {a b : α} {as bs : List α} (h : R a b) (hs : Extends R as bs) :
      Extends R (a :: as) (b :: bs)

section Extends

variable {α κ : Type} {R : α → α → Prop}

theorem Extends.refl (hr : ∀ a, R a a) (as : List α) : Extends R as as := by
  induction as with
  | nil => exact .added []
  | cons a as ih => exact .keep (hr a) ih

theorem Extends.trans (ht : ∀ a b c, R a b → R b c → R a c) {as bs cs : List α}
    (h₁ : Extends R as bs) (h₂ : Extends R bs cs) : Extends R as cs := by
  induction h₁ generalizing cs with
  | added _ => exact .added cs
  | keep h _ ih =>
    cases h₂ with
    | keep h' hs' => exact .keep (ht _ _ _ h h') (ih hs')

/-- An extension keeps the places of the old elements. -/
theorem Extends.getElem? {as bs : List α} (h : Extends R as bs) {i : Nat} {a : α}
    (ha : as[i]? = some a) : ∃ b, bs[i]? = some b ∧ R a b := by
  induction h generalizing i with
  | added _ => simp at ha
  | keep hr _ ih =>
    cases i with
    | zero =>
      rw [List.getElem?_cons_zero, Option.some.injEq] at ha
      subst ha
      exact ⟨_, rfl, hr⟩
    | succ i => exact ih ha

theorem Extends.exists_of_mem {as bs : List α} (h : Extends R as bs) {a : α} (ha : a ∈ as) :
    ∃ b ∈ bs, R a b := by
  obtain ⟨i, hi⟩ := List.getElem?_of_mem ha
  obtain ⟨b, hb, hr⟩ := h.getElem? hi
  exact ⟨b, List.mem_of_getElem? hb, hr⟩

variable {key : α → κ} {Joins : α → α → α → Prop}

/-- A step by keys joins one element or appends one. -/
theorem KeyedStep.extends (hr : ∀ a, R a a) {target target' : List α} {g : α}
    (hj : ∀ a a', key a = key g → Joins a g a' → R a a')
    (h : KeyedStep key Joins target g target') : Extends R target target' := by
  induction h with
  | append g => exact .added [g]
  | join hk hjs => exact .keep (hj _ _ hk hjs) (.refl hr _)
  | pass _ _ ih => exact .keep (hr _) (ih hj)

theorem KeyedSteps.extends (hr : ∀ a, R a a) (ht : ∀ a b c, R a b → R b c → R a c)
    {target source grown : List α}
    (hj : ∀ g ∈ source, ∀ a a', key a = key g → Joins a g a' → R a a')
    (h : KeyedSteps key Joins target source grown) : Extends R target grown := by
  induction h with
  | nil target => exact .refl hr target
  | cons h _ ih =>
    have hhead := h.extends hr (hj _ List.mem_cons_self)
    exact hhead.trans ht (ih fun g hg => hj g (List.mem_cons_of_mem _ hg))

end Extends

/-- The member lists of all types of that name in all namespaces of that name. -/
def memberLists (tree : DeclarationTree) (ns type : String) : List (List Member) :=
  (tree.namespaces.filter (·.name = ns)).flatMap fun n =>
    (n.types.filter (·.header.name = type)).map (·.members)

/-- What a merge leaves of a type: the header, and a frame of the members. -/
structure TypeFrame (sources : List (List Member)) (old new : TypeDecl) : Prop where
  header : new.header = old.header
  members : Frame sources old.members new.members

/-- What a merge leaves of a namespace. -/
structure NamespaceFrame (generated : DeclarationTree) (old new : Namespace) : Prop where
  name : new.name = old.name
  firstLine : new.firstLine = old.firstLine
  closingLine : new.closingLine = old.closingLine
  imports : old.imports <+: new.imports
  types : Extends (fun t t' => TypeFrame (memberLists generated old.name t.header.name) t t')
    old.types new.types

/-- The lists of a name come from all types of that name in all namespaces of that name. -/
lemma mem_memberLists {tree : DeclarationTree} {ns type : String} {ms : List Member} :
    ms ∈ memberLists tree ns type ↔
      ∃ n ∈ tree.namespaces, n.name = ns ∧ ∃ t ∈ n.types, t.header.name = type ∧
        t.members = ms := by
  simp [memberLists, and_assoc]

lemma TypeFrame.refl (sources : List (List Member)) (t : TypeDecl) : TypeFrame sources t t :=
  ⟨rfl, .refl t.members⟩

lemma TypeFrame.trans {sources : List (List Member)} {t₁ t₂ t₃ : TypeDecl}
    (h₁ : TypeFrame sources t₁ t₂) (h₂ : TypeFrame sources t₂ t₃) : TypeFrame sources t₁ t₃ :=
  ⟨h₂.header.trans h₁.header, h₁.members.trans h₂.members⟩

lemma NamespaceFrame.refl (generated : DeclarationTree) (n : Namespace) :
    NamespaceFrame generated n n :=
  ⟨rfl, rfl, rfl, List.prefix_refl n.imports, .refl (fun t => .refl _ t) n.types⟩

lemma NamespaceFrame.trans {generated : DeclarationTree} {n₁ n₂ n₃ : Namespace}
    (h₁ : NamespaceFrame generated n₁ n₂) (h₂ : NamespaceFrame generated n₂ n₃) :
    NamespaceFrame generated n₁ n₃ where
  name := h₂.name.trans h₁.name
  firstLine := h₂.firstLine.trans h₁.firstLine
  closingLine := h₂.closingLine.trans h₁.closingLine
  imports := h₁.imports.trans h₂.imports
  types := by
    have ht := h₂.types
    rw [h₁.name] at ht
    refine h₁.types.trans (fun t t' t'' h h' => ?_) ht
    rw [h.header] at h'
    exact h.trans h'

/-- Joining with a generated namespace leaves a frame. -/
lemma JoinsNamespace.frame {generated : DeclarationTree} {n g n' : Namespace}
    (hg : g ∈ generated.namespaces) (hn : n.name = g.name) (h : JoinsNamespace n g n') :
    NamespaceFrame generated n n' := by
  obtain ⟨types, hs, rfl⟩ := h
  refine ⟨rfl, rfl, rfl, prefix_withImports _ _, ?_⟩
  refine hs.extends (fun t => .refl _ t) (fun t t' t'' h h' => ?_) ?_
  · rw [h.header] at h'
    exact h.trans h'
  · rintro t ht old new hk ⟨members, hm, rfl⟩
    refine ⟨rfl, hm.frame.mono ?_⟩
    intro ms hms
    obtain rfl := List.mem_singleton.mp hms
    exact mem_memberLists.mpr ⟨g, hg, hn.symm, t, ht, hk.symm, rfl⟩

/-- The namespaces of the merged tree are the old ones, each in its frame, and new ones behind them.
-/
lemma mergeTrees_extends {existing generated merged : DeclarationTree}
    (h : (mergeTrees existing generated).outcome = .ok merged) :
    Extends (NamespaceFrame generated) existing.namespaces merged.namespaces := by
  rw [mergeTrees_ok_iff] at h
  refine h.extends (.refl generated) (fun _ _ _ => .trans) ?_
  intro g hg n n' hk hj
  exact hj.frame hg hk

/-- Each namespace, import and type of the existing tree stands at its old place after a merge, and
so ahead of what came in. Nothing but imports, types and members is changed, and the members of a
type are framed. -/
theorem existing_declarations_framed {existing generated merged : DeclarationTree}
    (h : (mergeTrees existing generated).outcome = .ok merged) (i : Nat) (n : Namespace)
    (hn : existing.namespaces[i]? = some n) :
    ∃ n', merged.namespaces[i]? = some n' ∧
      n'.name = n.name ∧ n'.firstLine = n.firstLine ∧ n'.closingLine = n.closingLine ∧
      n.imports <+: n'.imports ∧
      ∀ (j : Nat) (t : TypeDecl), n.types[j]? = some t →
        ∃ t', n'.types[j]? = some t' ∧ t'.header = t.header ∧
          Frame (memberLists generated n.name t.header.name) t.members t'.members := by
  obtain ⟨n', hn', hf⟩ := (mergeTrees_extends h).getElem? hn
  refine ⟨n', hn', hf.name, hf.firstLine, hf.closingLine, hf.imports, fun j t ht => ?_⟩
  obtain ⟨t', ht', htf⟩ := hf.types.getElem? ht
  exact ⟨t', ht', htf.header, htf.members⟩

/-- A hand-written field stays in front of the generated one. -/
theorem hand_written_field_framed :
    (mergeTrees (.ofMembers "Shop" "Order" [.ofField "note" "string"])
        (.ofMembers "Shop" "Order" [.ofField "total" "decimal"])).outcome =
      .ok (.ofMembers "Shop" "Order" [.ofField "note" "string", .ofField "total" "decimal"]) ∧
    Frame [[.ofField "total" "decimal"]] [.ofField "note" "string"]
      [.ofField "note" "string", .ofField "total" "decimal"] := by
  have hm : (mergeTrees (.ofMembers "Shop" "Order" [.ofField "note" "string"])
      (.ofMembers "Shop" "Order" [.ofField "total" "decimal"])).outcome =
        .ok (.ofMembers "Shop" "Order" [.ofField "note" "string", .ofField "total" "decimal"]) :=
    rfl
  obtain ⟨n', hn', -, -, -, -, ht⟩ := existing_declarations_framed hm 0 _ rfl
  cases hn'
  obtain ⟨t', ht', -, hf⟩ := ht 0 _ rfl
  cases ht'
  exact ⟨hm, hf⟩

end Graft.Merge
