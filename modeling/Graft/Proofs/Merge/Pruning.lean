import Graft.Proofs.Merge.Pairs

/-!
# Which members a merge removes

The places of a member list keep their numbers while generated members are brought in: a step
changes one place or appends. A place that no generated member reaches still holds the old member
when the stale ones are removed; a place that was reached holds something that is not stale. So an
old member with the marker is removed exactly if no generated member matches it and none was
brought to its place. Removed means that nothing is left of the place in the merged member list and
that the report tells so, `IsRemoved`; every other place is still there, `IsKept`.

The test for staleness asks whether a generated member matches the existing one, the search for a
place whether the existing one matches the generated one. For members that are not callable, and
for callables without repeated parameter types, this is the same. In general it is not:
`overload_without_counterpart_stays` is a marked method that stays although no generated method is
brought to it.
-/

namespace Graft.Merge

/-! ### Places -/

/-- A merge leaves `left` of place `i`, where `m` stands when all generated members have been
brought in: the merged members are members from before the place, then `left`, then members from
behind the place. -/
def LeavesAt (type : String) (target source : List Member) (i : Nat) (m : Member)
    (left : List Member) : Prop :=
  ∃ before after kept behind,
    (bringMembers type target source).outcome = .ok (before ++ m :: after) ∧ before.length = i ∧
      (mergeMembers type target source).outcome = .ok (kept ++ left ++ behind) ∧
      kept.Sublist before ∧ behind.Sublist after

/-- The member at place `i` is removed by a merge: nothing is left of the place, and the removal of
what stood there is recorded. -/
def IsRemoved (type : String) (target source : List Member) (i : Nat) : Prop :=
  ∃ m, LeavesAt type target source i m [] ∧
    .removed (pathInside type m.label) ∈ (mergeMembers type target source).records

/-- The member at place `i` is kept by a merge: it is there among the merged members. -/
def IsKept (type : String) (target source : List Member) (i : Nat) : Prop :=
  ∃ m, LeavesAt type target source i m [m]

/-- A generated member is brought to place `i`. -/
def IsReached (type : String) (target source : List Member) (i : Nat) : Prop :=
  ∃ pre g post reached, source = pre ++ g :: post ∧
    (bringMembers type target pre).outcome = .ok reached ∧ Member.indexFor? reached g = some i

lemma getElem?_replace {α : Type} {before after : List α} {x e : α} {i : Nat} (y : α)
    (he : (before ++ x :: after)[i]? = some e) :
    (before.length = i ∧ e = x ∧ (before ++ y :: after)[i]? = some y) ∨
      (before.length ≠ i ∧ (before ++ y :: after)[i]? = some e) := by
  by_cases hb : before.length = i
  · subst hb
    rw [List.getElem?_append_right (Nat.le_refl _), Nat.sub_self, List.getElem?_cons_zero,
      Option.some.injEq] at he
    exact .inl ⟨rfl, he.symm, by simp⟩
  · have hs : before ++ y :: after = (before ++ x :: after).set before.length y := by simp
    exact .inr ⟨hb, by rw [hs, List.getElem?_set_ne hb, he]⟩

/-- A step leaves a place as it is, unless the generated member is brought there: then the old
member matches the new one, which is not stale. -/
lemma Step.getElem? {target target' : List Member} {g e : Member} {i : Nat}
    (hs : Step target g target') (he : target[i]? = some e) :
    (Member.indexFor? target g ≠ some i ∧ target'[i]? = some e) ∨
      (Member.indexFor? target g = some i ∧ ∃ y, target'[i]? = some y ∧
        e.isMatchFor y = true ∧ (y.isGenerated = true → g.isMatchFor y = true)) := by
  cases hs with
  | append hm _ =>
    obtain ⟨hl, -⟩ := List.getElem?_eq_some_iff.mp he
    rw [Member.indexFor?_eq_none hm, List.getElem?_append_left hl]
    exact .inl ⟨by simp, he⟩
  | @renew before after x h c hb hm =>
    rw [Member.indexFor?_append_cons hm hb]
    obtain ⟨rfl, rfl, hy⟩ | ⟨hi, hy⟩ := getElem?_replace (renewed x (.plain h c)) he
    · exact .inr ⟨rfl, _, hy, isMatchFor_renewed hm, isMatchFor_renewed_of_isGenerated⟩
    · exact .inl ⟨by simpa using hi, hy⟩
  | @descend before after old source grown oh h ot t hb hm _ =>
    rw [Member.indexFor?_append_cons hm hb]
    obtain ⟨rfl, rfl, hy⟩ | ⟨hi, hy⟩ :=
      getElem?_replace (.nested oh ot (withoutStale source grown)) he
    · refine .inr ⟨rfl, _, hy, ?_, fun _ => ?_⟩
      · rw [Member.nested_isMatchFor_nested_iff]
      · rw [Member.nested_isMatchFor_nested_iff] at hm ⊢
        exact hm.symm
    · exact .inl ⟨by simpa using hi, hy⟩

/-- What a member brought to a place preserves of the member there, a run of steps preserves. -/
lemma Steps.exists_getElem? {P : Member → Prop} {target part grown : List Member}
    (hs : Steps target part grown)
    (hP : ∀ g ∈ part, ∀ x y, P x → x.isMatchFor y = true →
      (y.isGenerated = true → g.isMatchFor y = true) → P y)
    {i : Nat} {e : Member} (he : target[i]? = some e) (h : P e) :
    ∃ x, grown[i]? = some x ∧ P x := by
  induction part generalizing target e with
  | nil =>
    cases hs
    exact ⟨e, he, h⟩
  | cons g gs ih =>
    cases hs with
    | cons hg hs =>
      have hP' := fun g' hg' => hP g' (List.mem_cons_of_mem g hg')
      obtain ⟨-, hm⟩ | ⟨-, y, hm, hey, hy⟩ := hg.getElem? he
      · exact ih hs hP' hm h
      · exact ih hs hP' hm (hP g List.mem_cons_self e y h hey hy)

/-- A place that no generated member is brought to keeps its member. -/
lemma Steps.getElem?_of_not_reached {target source grown : List Member}
    (hs : Steps target source grown) {i : Nat} {e : Member} (he : target[i]? = some e)
    (hr : ∀ pre g post reached, source = pre ++ g :: post → Steps target pre reached →
      Member.indexFor? reached g ≠ some i) : grown[i]? = some e := by
  induction source generalizing target with
  | nil =>
    cases hs
    exact he
  | cons g gs ih =>
    cases hs with
    | cons h hs =>
      obtain ⟨-, hm⟩ | ⟨hi, -⟩ := h.getElem? he
      · refine ih hs hm fun pre g' post reached hp hpr => ?_
        exact hr (g :: pre) g' post reached (by rw [hp]; rfl) (.cons h hpr)
      · exact absurd hi (hr [] g gs target rfl (.nil target))

/-- A place that a generated member is brought to holds no stale member in the end. -/
lemma Steps.isStale_eq_false_of_reached (pre : List Member) {post reached grown : List Member}
    {g : Member} (hs : Steps reached (g :: post) grown) {i : Nat}
    (hi : Member.indexFor? reached g = some i) :
    ∃ x, grown[i]? = some x ∧ isStale (pre ++ g :: post) x = false := by
  cases hs with
  | cons h hs =>
    obtain ⟨x, hx, -⟩ := Member.isMatchFor_of_indexFor? hi
    obtain ⟨hn, -⟩ | ⟨-, y, hy, -, hgy⟩ := h.getElem? hx
    · exact absurd hi hn
    · refine hs.exists_getElem? (fun g' hg' _ z _ _ hz => ?_) hy (isStale_eq_false (by simp) hgy)
      exact isStale_eq_false (by simp [hg']) hz

/-- The old member at a place matches every generated member that is brought there. -/
lemma IsReached.isMatchFor {type : String} {target source : List Member} {i : Nat} {e : Member}
    (he : target[i]? = some e) (hr : IsReached type target source i) :
    ∃ g ∈ source, e.isMatchFor g = true := by
  obtain ⟨pre, g, post, reached, rfl, hp, hi⟩ := hr
  obtain ⟨x, hx, hex⟩ := (bringMembers_ok_iff.mp hp).exists_getElem? (P := fun x => e.isMatchFor x)
    (fun _ _ _ _ hx hxy _ => Member.isMatchFor_trans hx hxy) he e.isMatchFor_self
  obtain ⟨y, hy, hyg⟩ := Member.isMatchFor_of_indexFor? hi
  rw [hx, Option.some.injEq] at hy
  subst hy
  exact ⟨g, by simp, Member.isMatchFor_trans hex hyg⟩

/-! ### What is left of a place -/

lemma getElem?_of_leavesAt {type : String} {target source grown left : List Member} {i : Nat}
    {m : Member} (hs : Steps target source grown) (h : LeavesAt type target source i m left) :
    grown[i]? = some m := by
  obtain ⟨before, after, kept, behind, hgrown, rfl, -, -, -⟩ := h
  obtain rfl := hs.unique (bringMembers_ok_iff.mp hgrown)
  simp

/-- A merge leaves of a place what is left of the member there. -/
lemma Steps.leavesAt (type : String) {target source grown : List Member}
    (hs : Steps target source grown) {i : Nat} {m : Member} (hm : grown[i]? = some m) :
    LeavesAt type target source i m (withoutStale source [m]) := by
  obtain ⟨hi, rfl⟩ := List.getElem?_eq_some_iff.mp hm
  have hsplit : grown = grown.take i ++ grown[i] :: grown.drop (i + 1) := by simp
  refine ⟨grown.take i, grown.drop (i + 1), withoutStale source (grown.take i),
    withoutStale source (grown.drop (i + 1)), ?_, ?_, ?_, List.filter_sublist, List.filter_sublist⟩
  · rw [← hsplit, hs.run type]
  · rw [List.length_take, Nat.min_eq_left (Nat.le_of_lt hi)]
  · rw [mergeMembers_eq type hs, ← withoutStale_append, ← withoutStale_append, List.append_assoc,
      List.singleton_append, ← hsplit]

/-- Members that are not stale stay among those of a longer list that are not. -/
lemma length_le_withoutStale {source ms left : List Member} (hsub : left.Sublist ms)
    (hleft : ∀ x ∈ left, isStale source x = false) :
    left.length ≤ (withoutStale source ms).length := by
  have hself : withoutStale source left = left := by
    refine List.filter_eq_self.mpr fun x hx => ?_
    rw [hleft x hx]
    rfl
  rw [← hself]
  exact (hsub.filter _).length_le

/-- The members from before and behind the place that a merge keeps are not stale, so there are not
more of them than it keeps; hence nothing is left of the place only if its member is stale. -/
lemma isStale_of_leavesAt_nil {type : String} {target source : List Member} {i : Nat} {m : Member}
    (h : LeavesAt type target source i m []) : isStale source m = true := by
  obtain ⟨before, after, kept, behind, hgrown, -, hmerged, hbefore, hafter⟩ := h
  rw [mergeMembers_eq type (bringMembers_ok_iff.mp hgrown), List.append_nil] at hmerged
  have heq : withoutStale source (before ++ m :: after) = kept ++ behind := Except.ok.inj hmerged
  have hfresh : ∀ x ∈ kept ++ behind, isStale source x = false := by
    rw [← heq]
    exact fun x => isStale_eq_false_of_mem_withoutStale
  rw [List.forall_mem_append] at hfresh
  have hkept := length_le_withoutStale hbefore hfresh.1
  have hbehind := length_le_withoutStale hafter hfresh.2
  by_contra hst
  rw [Bool.not_eq_true] at hst
  rw [← List.singleton_append, withoutStale_append, withoutStale_append,
    withoutStale_singleton_of_not_isStale hst] at heq
  have hsum := congrArg List.length heq
  simp only [List.length_append, List.length_singleton] at hsum
  omega

variable {type : String} {target source grown : List Member} {i : Nat} {m : Member}

lemma Steps.isRemoved_iff_isStale (hs : Steps target source grown) (hm : grown[i]? = some m) :
    IsRemoved type target source i ↔ isStale source m = true := by
  constructor
  · rintro ⟨m', h, -⟩
    obtain rfl := Option.some.inj (hm.symm.trans (getElem?_of_leavesAt hs h))
    exact isStale_of_leavesAt_nil h
  · intro h
    have hleft := hs.leavesAt type hm
    rw [withoutStale_singleton_of_isStale h] at hleft
    refine ⟨m, hleft, ?_⟩
    rw [mergeMembers_eq type hs]
    apply List.mem_append_right
    exact List.mem_map_of_mem (List.mem_filter.mpr ⟨List.mem_of_getElem? hm, h⟩)

lemma Steps.isKept_iff (hs : Steps target source grown) (hm : grown[i]? = some m) :
    IsKept type target source i ↔ isStale source m = false := by
  constructor
  · rintro ⟨m', h⟩
    obtain rfl := Option.some.inj (hm.symm.trans (getElem?_of_leavesAt hs h))
    obtain ⟨before, after, kept, behind, hgrown, -, hmerged, -, -⟩ := h
    rw [mergeMembers_eq type (bringMembers_ok_iff.mp hgrown)] at hmerged
    apply isStale_eq_false_of_mem_withoutStale
    rw [Except.ok.inj hmerged]
    simp
  · intro h
    have hleft := hs.leavesAt type hm
    rw [withoutStale_singleton_of_not_isStale h] at hleft
    exact ⟨m, hleft⟩

/-! ### Removed members -/

/-- At a place that no generated member is brought to, the old member is there in the end. -/
lemma Steps.getElem?_of_not_isReached (hs : Steps target source grown) {e : Member}
    (he : target[i]? = some e) (hr : ¬ IsReached type target source i) : grown[i]? = some e := by
  refine hs.getElem?_of_not_reached he fun pre g post reached hp hpr hi => hr ?_
  exact ⟨pre, g, post, reached, hp, hpr.run type, hi⟩

/-- A place that a generated member is brought to is not removed. -/
lemma Steps.not_isRemoved_of_isReached (hs : Steps target source grown)
    (hr : IsReached type target source i) : ¬ IsRemoved type target source i := by
  obtain ⟨pre, g, post, reached, rfl, hp, hi⟩ := hr
  obtain ⟨r, hp', hs'⟩ := steps_append_iff.mp hs
  obtain rfl := hp'.unique (bringMembers_ok_iff.mp hp)
  obtain ⟨x, hx, hst⟩ := hs'.isStale_eq_false_of_reached pre hi
  rw [hs.isRemoved_iff_isStale hx, hst]
  exact Bool.false_ne_true

lemma Steps.isRemoved_iff (hs : Steps target source grown) {e : Member} (he : target[i]? = some e)
    (hg : e.isGenerated = true) :
    IsRemoved type target source i ↔
      (∀ g ∈ source, g.isMatchFor e = false) ∧ ¬ IsReached type target source i := by
  by_cases hr : IsReached type target source i
  · exact iff_of_false (hs.not_isRemoved_of_isReached hr) fun h => h.2 hr
  · rw [hs.isRemoved_iff_isStale (hs.getElem?_of_not_isReached he hr), isStale_iff,
      and_iff_left hr, and_iff_right hg]

/-- No place is both removed and kept, and each one that was there is one of the two. -/
lemma Steps.isKept_iff_not_isRemoved (hs : Steps target source grown) {e : Member}
    (he : target[i]? = some e) :
    IsKept type target source i ↔ ¬ IsRemoved type target source i := by
  obtain ⟨x, hx, -⟩ := hs.exists_getElem? (fun _ _ _ _ _ _ _ => trivial) he trivial
  rw [hs.isKept_iff hx, hs.isRemoved_iff_isStale hx, Bool.not_eq_true]

/-- What is removed is the old member itself, and no copy of it is left. -/
lemma Steps.removed_of_isRemoved (hs : Steps target source grown) {e : Member}
    (he : target[i]? = some e) (h : IsRemoved type target source i) :
    LeavesAt type target source i e [] ∧
      .removed (pathInside type e.label) ∈ (mergeMembers type target source).records ∧
      e ∉ withoutStale source grown := by
  have hr : ¬ IsReached type target source i := fun hr => hs.not_isRemoved_of_isReached hr h
  have hm := hs.getElem?_of_not_isReached he hr
  obtain ⟨m, hleft, hrecord⟩ := h
  obtain rfl := Option.some.inj (hm.symm.trans (getElem?_of_leavesAt hs hleft))
  refine ⟨hleft, hrecord, fun hmem => ?_⟩
  have hst := isStale_of_leavesAt_nil hleft
  rw [isStale_eq_false_of_mem_withoutStale hmem] at hst
  exact absurd hst (by decide)

/-- Without repeated parameter types a member matches what matches it. -/
lemma exists_isMatchFor_comm {source : List Member} {e : Member}
    (hn : e.nameClass = .callable → e.signature.Nodup ∧ ∀ g ∈ source, g.signature.Nodup) :
    (∃ g ∈ source, g.isMatchFor e = true) ↔ ∃ g ∈ source, e.isMatchFor g = true := by
  have hc : ∀ g ∈ source, g.isMatchFor e = true ↔ e.isMatchFor g = true := by
    intro g hg
    by_cases hk : e.nameClass = .callable
    · obtain ⟨he, hs⟩ := hn hk
      exact ⟨Member.isMatchFor_symm_of_nodup he, Member.isMatchFor_symm_of_nodup (hs g hg)⟩
    · exact (Member.isMatchFor_comm_of_not_callable hk).symm
  constructor
  · rintro ⟨g, hg, h⟩
    exact ⟨g, hg, (hc g hg).mp h⟩
  · rintro ⟨g, hg, h⟩
    exact ⟨g, hg, (hc g hg).mpr h⟩

/-- In every pair of types of a successful merge, an old member with the marker is removed exactly
if no generated member matches it and none is brought to its place; otherwise its place is kept.
The report of the merge tells each removal, and no removed member is left among the merged members,
which are the members of the type in the merged tree if no two generated types share a name. To be
removed is to have no counterpart, a generated member that it matches, exactly if having one is the
same as being matched by one or having one brought to its place. This is so when no parameter types
are repeated. -/
theorem generated_member_removed_iff {existing generated merged : DeclarationTree} {e : Member}
    (h : (mergeTrees existing generated).outcome = .ok merged)
    (hv : TreeVisits existing generated type target source)
    (he : target[i]? = some e) (hg : e.isGenerated = true) :
    (IsRemoved type target source i ↔
        (∀ g ∈ source, g.isMatchFor e = false) ∧ ¬ IsReached type target source i) ∧
      (IsKept type target source i ↔ ¬ IsRemoved type target source i) ∧
      (IsRemoved type target source i →
        LeavesAt type target source i e [] ∧
          .removed (pathInside type e.label) ∈ (mergeTrees existing generated).records) ∧
      (∃ merged', (mergeMembers type target source).outcome = .ok merged' ∧
        (IsRemoved type target source i → e ∉ merged') ∧
        (DistinctTypes generated → EveryType DistinctNested generated →
          TreeHolds merged type merged')) ∧
      ((IsRemoved type target source i ↔ ∀ g ∈ source, e.isMatchFor g = false) ↔
        ((∃ g ∈ source, e.isMatchFor g = true) ↔
          (∃ g ∈ source, g.isMatchFor e = true) ∨ IsReached type target source i)) ∧
      ((e.nameClass = .callable → e.signature.Nodup ∧ ∀ g ∈ source, g.signature.Nodup) →
        (IsRemoved type target source i ↔ ∀ g ∈ source, e.isMatchFor g = false)) := by
  obtain ⟨_, hm, hholds⟩ := hv.exists_merged h
  obtain ⟨grown, hs, rfl⟩ := hm
  have hr : IsRemoved type target source i ↔ _ := hs.isRemoved_iff he hg
  have hnone : ∀ p : Member → Bool, (∀ g ∈ source, p g = false) ↔ ¬ ∃ g ∈ source, p g = true := by
    intro p
    simp
  have hfwd := hnone fun g => e.isMatchFor g
  have hbwd := hnone fun g => g.isMatchFor e
  refine ⟨hr, hs.isKept_iff_not_isRemoved he, fun hrem => ?_, ?_, ?_, fun hn => ?_⟩
  · obtain ⟨hleft, hrecord, -⟩ := hs.removed_of_isRemoved he hrem
    exact ⟨hleft, hv.isInfix.subset hrecord⟩
  · refine ⟨_, mergeMembers_ok_iff.mpr ⟨grown, hs, rfl⟩, fun hrem => ?_, hholds⟩
    exact (hs.removed_of_isRemoved he hrem).2.2
  · rw [hr, hfwd, hbwd, ← not_or, not_iff_not]
    exact ⟨Iff.symm, Iff.symm⟩
  · rw [hr, hfwd, hbwd, exists_isMatchFor_comm hn, and_iff_left_iff_imp]
    exact fun hne hir => hne (hir.isMatchFor he)

/-- A method without a result that carries the marker. -/
def setter (signature : List String) : Member :=
  (Member.ofMethod "Set" signature).annotate .generate

/-- A marked method goes when the generator makes no overload any more: no member is left, and its
removal is all that is reported. -/
theorem setter_without_counterpart_removed :
    (mergeTrees (.ofMembers "Shop" "Order" [setter ["int"]])
        (.ofMembers "Shop" "Order" [])).outcome = .ok (.ofMembers "Shop" "Order" []) ∧
      (mergeTrees (.ofMembers "Shop" "Order" [setter ["int"]])
        (.ofMembers "Shop" "Order" [])).records = [.removed "Shop.Order.Set(int)"] ∧
      TreeVisits (.ofMembers "Shop" "Order" [setter ["int"]]) (.ofMembers "Shop" "Order" [])
        "Shop.Order" [setter ["int"]] [] ∧
      (setter ["int"]).isGenerated = true ∧ IsRemoved "Shop.Order" [setter ["int"]] [] 0 := by
  have hv := TreeVisits.ofMembers "Shop" "Order" [setter ["int"]] []
  have hm : (mergeTrees (.ofMembers "Shop" "Order" [setter ["int"]])
      (.ofMembers "Shop" "Order" [])).outcome = .ok (.ofMembers "Shop" "Order" []) := rfl
  obtain ⟨-, -, -, -, -, hr⟩ := generated_member_removed_iff (i := 0) hm hv rfl rfl
  exact ⟨hm, by decide +kernel, hv, rfl, (hr (by decide)).mpr (by decide)⟩

/-- `Set(int, int)` matches no `Set(int, string)`, so no generated method is brought to its place;
it is kept all the same, since the latter matches it, and no removal is reported. -/
theorem overload_without_counterpart_stays :
    (mergeTrees (.ofMembers "Shop" "Order" [setter ["int", "int"]])
        (.ofMembers "Shop" "Order" [setter ["int", "string"]])).outcome =
      .ok (.ofMembers "Shop" "Order" [setter ["int", "int"], setter ["int", "string"]]) ∧
    (mergeTrees (.ofMembers "Shop" "Order" [setter ["int", "int"]])
        (.ofMembers "Shop" "Order" [setter ["int", "string"]])).records =
      [.added .member "Shop.Order.Set(int, string)"] ∧
    TreeVisits (.ofMembers "Shop" "Order" [setter ["int", "int"]])
      (.ofMembers "Shop" "Order" [setter ["int", "string"]])
      "Shop.Order" [setter ["int", "int"]] [setter ["int", "string"]] ∧
    (setter ["int", "int"]).isGenerated = true ∧
    (∀ g ∈ [setter ["int", "string"]], (setter ["int", "int"]).isMatchFor g = false) ∧
    IsKept "Shop.Order" [setter ["int", "int"]] [setter ["int", "string"]] 0 ∧
    ¬ IsRemoved "Shop.Order" [setter ["int", "int"]] [setter ["int", "string"]] 0 := by
  have hgrown : (bringMembers "Shop.Order" [setter ["int", "int"]]
      [setter ["int", "string"]]).outcome =
        .ok [setter ["int", "int"], setter ["int", "string"]] := rfl
  have hs := bringMembers_ok_iff.mp hgrown
  have hkept : IsKept "Shop.Order" [setter ["int", "int"]] [setter ["int", "string"]] 0 :=
    (hs.isKept_iff rfl).mpr (by decide)
  have hnot := (hs.isKept_iff_not_isRemoved rfl).mp hkept
  exact ⟨rfl, by decide +kernel, .ofMembers _ _ _ _, rfl, by decide, hkept, hnot⟩

end Graft.Merge
