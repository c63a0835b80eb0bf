import Graft.Proofs.Merge.Frame

/-!
# Fold regions across a merge

Where a region opens or closes in the source is recorded on the member in front of it. A generated
member has no such marks. A merge hands the marks of a place on to what is put there, and nested
types keep theirs. What is removed takes its marks with it.

`FoldFrame sources old gone new` says what may have become of the marks of a member list after the
lists in `sources` were merged into it: each old member is at its place with its marks, or it is
among those that are gone, and what came in has no marks. So the marks of a list are as before
exactly if none is on a member that is gone. A region may lose its end in this way.
-/

namespace Graft.Merge

/-! ### The marks of a member list -/

/-- How many regions close in a member list. -/
def closings (ms : List Member) : Nat :=
  ms.countP (·.head.fold.closed)

/-- The names of the regions that open in a member list, in order. -/
def openings (ms : List Member) : List String :=
  ms.filterMap (·.head.fold.opened)

/-- No region opens or closes at a member of the list. -/
def NoFolds (ms : List Member) : Prop :=
  ∀ m ∈ ms, m.head.fold.isEmpty = true

instance : DecidablePred NoFolds :=
  fun ms => inferInstanceAs (Decidable (∀ m ∈ ms, m.head.fold.isEmpty = true))

/-- The fold marks of a list are those of its members taken together. -/
lemma closings_cons (m : Member) (ms : List Member) :
    closings (m :: ms) = closings ms + if m.head.fold.closed then 1 else 0 :=
  List.countP_cons

lemma openings_cons (m : Member) (ms : List Member) :
    openings (m :: ms) = m.head.fold.opened.toList ++ openings ms := by
  unfold openings
  rw [List.filterMap_cons]
  cases m.head.fold.opened <;> rfl

lemma noFolds_cons_iff {m : Member} {ms : List Member} :
    NoFolds (m :: ms) ↔ m.head.fold.isEmpty = true ∧ NoFolds ms :=
  List.forall_mem_cons

/-- Without fold marks no region is opened or closed. -/
lemma noFolds_iff {ms : List Member} : NoFolds ms ↔ closings ms = 0 ∧ openings ms = [] := by
  induction ms with
  | nil => simp [NoFolds, closings, openings]
  | cons m ms ih =>
    rw [noFolds_cons_iff, ih, closings_cons, openings_cons, FoldMarks.isEmpty]
    cases m.head.fold.opened <;> cases m.head.fold.closed <;> simp

/-! ### Frames of marks -/

mutual

/-- What merges of `sources` into a type may make of a member that they do not remove. -/
inductive FoldSlot : List (List Member) → Member → Member → Prop where
  | plain {sources : List (List Member)} {h h' : MemberHead} {c c' : Content}
      (hs : Slot sources (.plain h c) (.plain h' c')) (hf : h'.fold = h.fold) :
      FoldSlot sources (.plain h c) (.plain h' c')
  /-- A nested type keeps its marks, and the same holds of its members. -/
  | nested {sources : List (List Member)} {h : MemberHead} {t : TypeHeader}
      {ms gone ms' : List Member} (hr : FoldFrame (innerLists h.name sources) ms gone ms') :
      FoldSlot sources (.nested h t ms) (.nested h t ms')

/-- What merges of `sources` into a type may make of its member list, and which members are gone. -/
inductive FoldFrame : List (List Member) → List Member → List Member → List Member → Prop where
  /-- Behind the old members there may be new ones without marks. -/
  | added {sources : List (List Member)} {ms : List Member} (hn : NoFolds ms) :
      FoldFrame sources [] [] ms
  | keep {sources : List (List Member)} {m m' : Member} {ms gone ms' : List Member}
      (hm : FoldSlot sources m m') (hr : FoldFrame sources ms gone ms') :
      FoldFrame sources (m :: ms) gone (m' :: ms')
  /-- A member goes only if it is stale for one of the sources. -/
  | drop {sources : List (List Member)} {m : Member} {ms gone ms' : List Member}
      (hd : ∃ source ∈ sources, isStale source m = true) (hr : FoldFrame sources ms gone ms') :
      FoldFrame sources (m :: ms) (m :: gone) ms'

end

/-- A member hands its fold marks on to what replaces it. -/
lemma FoldSlot.fold_eq {sources : List (List Member)} {m m' : Member}
    (h : FoldSlot sources m m') : m'.head.fold = m.head.fold := by
  cases h with
  | plain _ hf => exact hf
  | nested _ => rfl

section Marks

variable {sources : List (List Member)} {old gone new : List Member}

/-- What is gone was there before, and one of the sources does not make it any more. -/
lemma FoldFrame.gone_sublist (h : FoldFrame sources old gone new) :
    gone.Sublist old ∧ ∀ m ∈ gone, ∃ source ∈ sources, isStale source m = true := by
  induction old generalizing gone new with
  | nil =>
    cases h
    exact ⟨.slnil, by simp⟩
  | cons m ms ih =>
    cases h with
    | keep _ hr =>
      obtain ⟨hs, hd⟩ := ih hr
      exact ⟨hs.cons m, hd⟩
    | drop hd hr =>
      obtain ⟨hs, hds⟩ := ih hr
      exact ⟨hs.cons_cons m, List.forall_mem_cons.mpr ⟨hd, hds⟩⟩

/-- The closing marks that are gone are those of the members that are gone. -/
lemma FoldFrame.closings_eq (h : FoldFrame sources old gone new) :
    closings old = closings new + closings gone := by
  induction old generalizing gone new with
  | nil =>
    cases h with
    | added hn =>
      rw [(noFolds_iff.mp hn).1]
      rfl
  | cons m ms ih =>
    cases h with
    | keep hm hr =>
      rw [closings_cons, closings_cons, hm.fold_eq, ih hr]
      omega
    | drop _ hr =>
      rw [closings_cons, closings_cons, ih hr]
      omega

/-- The opening marks that are left are in their old order. -/
lemma FoldFrame.openings_sublist (h : FoldFrame sources old gone new) :
    (openings new).Sublist (openings old) ∧
      (openings old).length = (openings new).length + (openings gone).length := by
  induction old generalizing gone new with
  | nil =>
    cases h with
    | added hn =>
      rw [(noFolds_iff.mp hn).2]
      exact ⟨.slnil, rfl⟩
  | cons m ms ih =>
    cases h with
    | keep hm hr =>
      obtain ⟨hs, hl⟩ := ih hr
      rw [openings_cons, openings_cons, hm.fold_eq]
      refine ⟨hs.append_left _, ?_⟩
      rw [List.length_append, List.length_append, hl, Nat.add_assoc]
    | drop _ hr =>
      obtain ⟨hs, hl⟩ := ih hr
      rw [openings_cons, openings_cons]
      refine ⟨hs.trans (List.sublist_append_right _ _), ?_⟩
      rw [List.length_append, List.length_append, hl]
      omega

/-- The marks of a list are as before exactly if none went with a member that is gone. -/
theorem FoldFrame.marks_eq_iff (h : FoldFrame sources old gone new) :
    (closings new = closings old ∧ openings new = openings old) ↔ NoFolds gone := by
  have hc := h.closings_eq
  obtain ⟨hs, hl⟩ := h.openings_sublist
  rw [noFolds_iff]
  constructor
  · rintro ⟨hco, hop⟩
    rw [hop] at hl
    exact ⟨by omega, List.length_eq_zero_iff.mp (by omega)⟩
  · rintro ⟨hco, hop⟩
    rw [hop, List.length_nil, Nat.add_zero] at hl
    exact ⟨by omega, hs.eq_of_length hl.symm⟩

end Marks

/-! ### Frames of marks compose -/

mutual

theorem FoldSlot.slot {sources : List (List Member)} {m m' : Member}
    (h : FoldSlot sources m m') : Slot sources m m' := by
  match h with
  | .plain hs _ => exact hs
  | .nested hr => exact .inside hr.frame

/-- What keeps fold marks keeps declarations: forget the marks. -/
theorem FoldFrame.frame {sources : List (List Member)} {old gone new : List Member}
    (h : FoldFrame sources old gone new) : Frame sources old new := by
  match h with
  | .added _ => exact .added new
  | .keep hm hr => exact .keep hm.slot hr.frame
  | .drop hd hr => exact .drop hd hr.frame

end

mutual

theorem FoldSlot.refl {sources : List (List Member)} (m : Member) : FoldSlot sources m m := by
  match m with
  | .plain h c => exact .plain (.kept h c) rfl
  | .nested h t ms => exact .nested (FoldFrame.refl ms)

theorem FoldFrame.refl {sources : List (List Member)} (ms : List Member) :
    FoldFrame sources ms [] ms := by
  match ms with
  | [] => exact .added (by simp [NoFolds])
  | m :: ms => exact .keep (FoldSlot.refl m) (FoldFrame.refl ms)

end

mutual

theorem FoldSlot.mono {sources sources' : List (List Member)} {m m' : Member}
    (h : sources ⊆ sources') (hs : FoldSlot sources m m') : FoldSlot sources' m m' := by
  match hs with
  | .plain hs hf => exact .plain (hs.mono h) hf
  | .nested hr => exact .nested (hr.mono (innerLists_mono h))

/-- With more sources more members may be gone. -/
theorem FoldFrame.mono {sources sources' : List (List Member)} {old gone new : List Member}
    (h : sources ⊆ sources') (hr : FoldFrame sources old gone new) :
    FoldFrame sources' old gone new := by
  match hr with
  | .added hn => exact .added hn
  | .keep hm hr => exact .keep (hm.mono h) (hr.mono h)
  | .drop ⟨source, hs, hd⟩ hr => exact .drop ⟨source, h hs, hd⟩ (hr.mono h)

end

/-- A list without fold marks gets none. -/
lemma FoldFrame.noFolds {sources : List (List Member)} {old gone new : List Member}
    (h : FoldFrame sources old gone new) (hn : NoFolds old) : NoFolds new := by
  rw [noFolds_iff] at hn ⊢
  have hc := h.closings_eq
  obtain ⟨hs, -⟩ := h.openings_sublist
  rw [hn.2] at hs
  exact ⟨by omega, List.sublist_nil.mp hs⟩

mutual

theorem FoldSlot.trans {sources : List (List Member)} {m₁ m₂ m₃ : Member}
    (h₁ : FoldSlot sources m₁ m₂) (h₂ : FoldSlot sources m₂ m₃) : FoldSlot sources m₁ m₃ := by
  match h₁ with
  | .plain hs hf =>
    cases h₂ with
    | plain hs' hf' => exact .plain (hs.trans hs') (hf'.trans hf)
  | .nested hr =>
    cases h₂ with
    | nested hr' =>
      obtain ⟨gone, hr⟩ := hr.trans hr'
      exact .nested hr

/-- Frames follow each other, with the members gone that went on the way. -/
theorem FoldFrame.trans {sources : List (List Member)} {ms₁ gone₁ ms₂ gone₂ ms₃ : List Member}
    (h₁ : FoldFrame sources ms₁ gone₁ ms₂) (h₂ : FoldFrame sources ms₂ gone₂ ms₃) :
    ∃ gone, FoldFrame sources ms₁ gone ms₃ := by
  match h₁ with
  | .added hn => exact ⟨[], .added (h₂.noFolds hn)⟩
  | .drop hd hr =>
    obtain ⟨gone, hr⟩ := hr.trans h₂
    exact ⟨_, .drop hd hr⟩
  | .keep hm hr =>
    cases h₂ with
    | keep hm' hr' =>
      obtain ⟨gone, hr⟩ := hr.trans hr'
      exact ⟨gone, .keep (hm.trans hm') hr⟩
    | drop hd hr' =>
      obtain ⟨gone, hr⟩ := hr.trans hr'
      obtain ⟨source, hs, hd⟩ := hd
      exact ⟨_, .drop ⟨source, hs, hm.slot.isStale_of_isStale hd⟩ hr⟩

end

/-! ### What a step does is a frame of marks -/

lemma FoldFrame.set {sources : List (List Member)} {m m' : Member} (before after : List Member)
    (hm : FoldSlot sources m m') :
    FoldFrame sources (before ++ m :: after) [] (before ++ m' :: after) := by
  induction before with
  | nil => exact .keep hm (.refl after)
  | cons b bs ih => exact .keep (.refl b) ih

/-- Members without fold marks may come behind the others. -/
lemma FoldFrame.append {sources : List (List Member)} (ms : List Member) {added : List Member}
    (hn : NoFolds added) : FoldFrame sources ms [] (ms ++ added) := by
  induction ms with
  | nil => exact .added hn
  | cons m ms ih => exact .keep (.refl m) ih

/-- What is removed is what is stale, together with its fold marks. -/
lemma FoldFrame.withoutStale {source : List Member} (ms : List Member) :
    FoldFrame [source] ms (ms.filter (isStale source)) (withoutStale source ms) := by
  apply withoutStale_induction
  · exact .refl []
  · intro m _ _ _ h hr
    exact .drop ⟨source, List.mem_cons_self, h⟩ hr
  · intro m _ _ _ _ hr
    exact .keep (.refl m) hr

/-- What replaces a member has no marks of its own, so it takes over those of the place. -/
lemma FoldSlot.renewed {sources : List (List Member)} {e : Member} {h : MemberHead} {c : Content}
    (he : e.isMatchFor (.plain h c) = true) (hf : h.fold.isEmpty = true) :
    FoldSlot sources e (renewed e (.plain h c)) := by
  have hs : Slot sources e (Merge.renewed e (.plain h c)) := .renewed he
  cases e with
  | nested k t ms => simp at he
  | plain k d =>
    by_cases hg : (Member.plain k d).isGenerated = true
    · rw [renewed_of_isGenerated hg] at hs ⊢
      exact .plain hs (by simp [replacement, hf])
    · rw [renewed_of_not_isGenerated (by simpa using hg)]
      exact .refl _

mutual

/-- A step keeps the fold marks, but for those of members that are gone. -/
theorem Step.foldFrame {target target' source : List Member} {g : Member}
    (hn : EveryDepth NoFolds source) (hg : g ∈ source) (hs : Step target g target') :
    ∃ gone, FoldFrame [source] target gone target' := by
  have hgn := hn.here g hg
  match hs with
  | .append _ _ =>
    have hadded : NoFolds [g] := noFolds_cons_iff.mpr ⟨hgn, by simp [NoFolds]⟩
    exact ⟨[], .append target hadded⟩
  | .renew _ he => exact ⟨[], .set _ _ (.renewed he hgn)⟩
  | .descend _ he hs =>
    rw [Member.nested_isMatchFor_nested_iff] at he
    obtain ⟨_, hr⟩ := hs.foldFrame (hn.inside hg) (List.Subset.refl _)
    obtain ⟨_, hr⟩ := hr.trans (.withoutStale _)
    refine ⟨[], .set _ _ (.nested (hr.mono ?_))⟩
    intro ms hms
    obtain rfl := List.mem_singleton.mp hms
    exact mem_innerLists.mpr ⟨source, by simp, _, _, hg, he.symm⟩

theorem Steps.foldFrame {target grown part source : List Member} (hn : EveryDepth NoFolds source)
    (hp : part ⊆ source) (hs : Steps target part grown) :
    ∃ gone, FoldFrame [source] target gone grown := by
  match hs with
  | .nil _ => exact ⟨[], .refl target⟩
  | .cons h hs =>
    obtain ⟨_, hr⟩ := h.foldFrame hn (hp List.mem_cons_self)
    obtain ⟨_, hr'⟩ := hs.foldFrame hn fun m hm => hp (List.mem_cons_of_mem _ hm)
    exact hr.trans hr'

end

/-- The members that are removed in the end are all that is gone from the list. -/
theorem Merges.foldFrame {target source merged : List Member} (hn : EveryDepth NoFolds source)
    (h : Merges target source merged) : ∃ gone, FoldFrame [source] target gone merged := by
  obtain ⟨grown, hs, rfl⟩ := h
  obtain ⟨_, hr⟩ := hs.foldFrame hn (List.Subset.refl source)
  exact hr.trans (.withoutStale grown)

/-! ### Types and namespaces -/

/-- What each merge of members leaves, and what can be composed, a merge of trees leaves of every
type. -/
theorem mergeTrees_leaves {R : List (List Member) → List Member → List Member → Prop}
    {existing generated merged : DeclarationTree}
    (hrefl : ∀ sources ms, R sources ms ms)
    (htrans : ∀ sources a b c, R sources a b → R sources b c → R sources a c)
    (hmerges : ∀ ns type, ∀ source ∈ memberLists generated ns type, ∀ target merged,
      Merges target source merged → R (memberLists generated ns type) target merged)
    (h : (mergeTrees existing generated).outcome = .ok merged) :
    Extends (fun n n' : Namespace => n'.name = n.name ∧
      Extends (fun t t' : TypeDecl => t'.header = t.header ∧
        R (memberLists generated n.name t.header.name) t.members t'.members) n.types n'.types)
      existing.namespaces merged.namespaces := by
  have htypes : ∀ ns : String, ∀ t t' t'' : TypeDecl,
      t'.header = t.header ∧ R (memberLists generated ns t.header.name) t.members t'.members →
      t''.header = t'.header ∧ R (memberLists generated ns t'.header.name) t'.members t''.members →
      t''.header = t.header ∧ R (memberLists generated ns t.header.name) t.members t''.members := by
    rintro ns t t' t'' ⟨hh, hr⟩ ⟨hh', hr'⟩
    rw [hh] at hr'
    exact ⟨hh'.trans hh, htrans _ _ _ _ hr hr'⟩
  rw [mergeTrees_ok_iff] at h
  apply h.extends
  · intro n
    exact ⟨rfl, .refl (fun t => ⟨rfl, hrefl _ _⟩) n.types⟩
  · rintro n n' n'' ⟨hn, ht⟩ ⟨hn', ht'⟩
    rw [hn] at ht'
    exact ⟨hn'.trans hn, ht.trans (htypes _) ht'⟩
  · rintro g hg n _ hn ⟨types, hs, rfl⟩
    refine ⟨rfl, hs.extends (fun t => ⟨rfl, hrefl _ _⟩) (htypes _) ?_⟩
    rintro u hu t _ ht ⟨members, hm, rfl⟩
    have hsource := mem_memberLists.mpr ⟨g, hg, hn.symm, u, hu, ht.symm, rfl⟩
    exact ⟨rfl, hmerges _ _ _ hsource _ _ hm⟩

/-- Each type stands at its old place after a merge of a tree without marks. Its members are at
their places with their marks, or gone, and so are those of the types nested in it. In any such
frame what is gone are old members that are stale, and the marks are as before exactly if no member
that is gone had any. -/
theorem regions_kept_iff {existing generated merged : DeclarationTree}
    (hf : EveryType NoFolds generated)
    (h : (mergeTrees existing generated).outcome = .ok merged) :
    (∀ (i : Nat) (n : Namespace), existing.namespaces[i]? = some n →
      ∃ n', merged.namespaces[i]? = some n' ∧ n'.name = n.name ∧
        ∀ (j : Nat) (t : TypeDecl), n.types[j]? = some t →
          ∃ t' gone, n'.types[j]? = some t' ∧ t'.header = t.header ∧
            FoldFrame (memberLists generated n.name t.header.name) t.members gone t'.members) ∧
      ∀ sources old gone new, FoldFrame sources old gone new →
        (gone.Sublist old ∧ ∀ m ∈ gone, ∃ source ∈ sources, isStale source m = true) ∧
          ((closings new = closings old ∧ openings new = openings old) ↔ NoFolds gone) := by
  constructor
  · have hmerges : ∀ ns type, ∀ source ∈ memberLists generated ns type, ∀ target merged,
        Merges target source merged →
          ∃ gone, FoldFrame (memberLists generated ns type) target gone merged := by
      intro ns type source hs target merged hm
      obtain ⟨n, hn, -, t, ht, -, rfl⟩ := mem_memberLists.mp hs
      obtain ⟨gone, hr⟩ := hm.foldFrame (hf n hn t ht)
      exact ⟨gone, hr.mono (by simpa using hs)⟩
    have hleaves := mergeTrees_leaves
      (R := fun sources old new => ∃ gone, FoldFrame sources old gone new)
      (fun _ ms => ⟨[], .refl ms⟩) (fun _ _ _ _ ⟨_, hr⟩ ⟨_, hr'⟩ => hr.trans hr') hmerges h
    intro i n hn
    obtain ⟨n', hn', hname, htypes⟩ := hleaves.getElem? hn
    refine ⟨n', hn', hname, ?_⟩
    intro j t ht
    obtain ⟨t', ht', hheader, gone, hr⟩ := htypes.getElem? ht
    exact ⟨t', gone, ht', hheader, hr⟩
  · intro sources old gone new hr
    exact ⟨hr.gone_sublist, hr.marks_eq_iff⟩

/-- A hand-written method in front of the start of a region. -/
def load : Member :=
  .plain { name := "Load", fold := { opened := some "Cache" } } (.method "void" [] "")

/-- A method that carries the marker, with these fold marks. -/
def clear (fold : FoldMarks) : Member :=
  (Member.plain { name := "Clear", fold } (.method "void" [] "")).annotate .generate

/-- The new version of the method stands in front of the end of the region, as the old one did. -/
theorem region_end_handed_on :
    (mergeTrees (.ofMembers "Shop" "Order" [load, clear { closed := true }])
        (.ofMembers "Shop" "Order" [clear {}])).outcome =
      .ok (.ofMembers "Shop" "Order" [load, clear { closed := true }]) ∧
    ∃ gone, FoldFrame [[clear {}]] [load, clear { closed := true }] gone
      [load, clear { closed := true }] ∧ NoFolds gone := by
  have hm : (mergeTrees (.ofMembers "Shop" "Order" [load, clear { closed := true }])
      (.ofMembers "Shop" "Order" [clear {}])).outcome =
        .ok (.ofMembers "Shop" "Order" [load, clear { closed := true }]) := rfl
  have hf : EveryType NoFolds (.ofMembers "Shop" "Order" [clear {}]) :=
    .ofMembers (by decide) rfl
  obtain ⟨htypes, hmarks⟩ := regions_kept_iff hf hm
  obtain ⟨n', hn', -, ht⟩ := htypes 0 _ rfl
  cases hn'
  obtain ⟨t', gone, ht', -, hr⟩ := ht 0 _ rfl
  cases ht'
  exact ⟨hm, gone, hr, (hmarks _ _ _ _ hr).2.mp ⟨rfl, rfl⟩⟩

/-- When the generator does not make the method any more, the region has a start and no end. -/
theorem region_end_removed :
    EveryType NoFolds (.ofMembers "Shop" "Order" []) ∧
    (mergeTrees (.ofMembers "Shop" "Order" [load, clear { closed := true }])
        (.ofMembers "Shop" "Order" [])).outcome = .ok (.ofMembers "Shop" "Order" [load]) ∧
    (openings [load, clear { closed := true }] = ["Cache"] ∧
      closings [load, clear { closed := true }] = 1) ∧
    (openings [load] = ["Cache"] ∧ closings [load] = 0) :=
  ⟨.ofMembers (by decide) rfl, rfl, ⟨rfl, rfl⟩, ⟨rfl, rfl⟩⟩

end Graft.Merge
