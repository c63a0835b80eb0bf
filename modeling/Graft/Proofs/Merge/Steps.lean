import Graft.Merge.Tree
import Graft.Proofs.Merge.Matching

/-!
# What a merge of members can do

A generated member that is brought into a member list goes to the first member it matches, or to
the end. `Step` lists the ways in which this can end well, `Steps` brings in a whole list, and
`Merges` removes the stale members after that. The three relations are exactly the successful
runs of `bringMember`, `bringMembers` and `mergeMembers`; which type the members belong to plays a
part in records and messages only. What holds of every merge is proved by induction on `Steps`.
-/

namespace Graft.Merge

/-! ### The relations -/

/-- The member at a place where a plain generated member was brought. -/
def renewed (existing incoming : Member) : Member :=
  if existing.isGenerated then
    incoming.withHead (replacement existing.head incoming.head)
  else
    existing

/-- The members that are not stale. -/
def withoutStale (source target : List Member) : List Member :=
  target.filter fun m => !isStale source m

mutual

/-- Bringing one generated member into a member list. -/
inductive Step : List Member → Member → List Member → Prop where
  /-- No member is its declaration and no hand-written one is in its way. -/
  | append {target : List Member} {g : Member}
      (hm : ∀ m ∈ target, m.isMatchFor g = false)
      (hc : ∀ m ∈ target, m.clashesWith g = true → m.isGenerated = true) :
      Step target g (target ++ [g])
  /-- The first member that matches a plain one is renewed. -/
  | renew {before after : List Member} {e : Member} {h : MemberHead} {c : Content}
      (hb : ∀ m ∈ before, m.isMatchFor (.plain h c) = false)
      (he : e.isMatchFor (.plain h c) = true) :
      Step (before ++ e :: after) (.plain h c) (before ++ renewed e (.plain h c) :: after)
  /-- The first member that matches a nested type gets its members merged. -/
  | descend {before after old source grown : List Member} {oh h : MemberHead} {ot t : TypeHeader}
      (hb : ∀ m ∈ before, m.isMatchFor (.nested h t source) = false)
      (he : (Member.nested oh ot old).isMatchFor (.nested h t source) = true)
      (hs : Steps old source grown) :
      Step (before ++ .nested oh ot old :: after) (.nested h t source)
        (before ++ .nested oh ot (withoutStale source grown) :: after)

/-- Bringing generated members into a member list, in order. -/
inductive Steps : List Member → List Member → List Member → Prop where
  | nil (target : List Member) : Steps target [] target
  | cons {target middle grown source : List Member} {g : Member}
      (h : Step target g middle) (hs : Steps middle source grown) :
      Steps target (g :: source) grown

end

/-- Merging generated members into those of a type. -/
def Merges (target source merged : List Member) : Prop :=
  ∃ grown, Steps target source grown ∧ merged = withoutStale source grown

/-! ### What is put in place of a member -/

@[simp] lemma name_replacement (k h : MemberHead) : (replacement k h).name = h.name := by
  unfold replacement
  split <;> rfl

lemma renewed_of_isGenerated {e : Member} (he : e.isGenerated = true) (g : Member) :
    renewed e g = g.withHead (replacement e.head g.head) := by
  simp [renewed, he]

lemma renewed_of_not_isGenerated {e : Member} (he : e.isGenerated = false) (g : Member) :
    renewed e g = e := by
  simp [renewed, he]

@[simp] lemma replacement_self (h : MemberHead) : replacement h h = h := by
  unfold replacement
  split <;> rfl

/-- Fold marks are handed on once. -/
@[simp] lemma replacement_replacement (k h : MemberHead) :
    replacement (replacement k h) h = replacement k h := by
  unfold replacement
  split <;> rfl

/-- A generated member is what it would leave in place of itself. -/
lemma renewed_self (m : Member) : renewed m m = m := by
  by_cases hm : m.isGenerated = true
  · rw [renewed_of_isGenerated hm, replacement_self]
    cases m <;> rfl
  · rw [renewed_of_not_isGenerated (by simpa using hm)]

lemma renewed_renewed (e g : Member) : renewed (renewed e g) g = renewed e g := by
  by_cases he : e.isGenerated = true
  · by_cases hr : (renewed e g).isGenerated = true
    · rw [renewed_of_isGenerated hr, renewed_of_isGenerated he]
      simp
    · rw [renewed_of_not_isGenerated (by simpa using hr)]
  · have hr := renewed_of_not_isGenerated (by simpa using he) g
    rw [hr, hr]

/-- What replaces a member matches what the generated member matches. -/
lemma isMatchFor_renewed_left {e : Member} (he : e.isGenerated = true) (g c : Member) :
    (renewed e g).isMatchFor c = g.isMatchFor c := by
  rw [renewed_of_isGenerated he, Member.isMatchFor_withHead_left (name_replacement _ _)]

lemma isMatchFor_renewed_right {e : Member} (he : e.isGenerated = true) (g m : Member) :
    m.isMatchFor (renewed e g) = m.isMatchFor g := by
  rw [renewed_of_isGenerated he, Member.isMatchFor_withHead_right (name_replacement _ _)]

/-- The member at the place still matches the generated one. -/
lemma renewed_isMatchFor {e g : Member} (he : e.isMatchFor g = true) :
    (renewed e g).isMatchFor g = true := by
  by_cases hg : e.isGenerated = true
  · rw [isMatchFor_renewed_left hg, Member.isMatchFor_self]
  · rwa [renewed_of_not_isGenerated (by simpa using hg)]

/-- The old member at the place matches the new one. -/
lemma isMatchFor_renewed {e g : Member} (he : e.isMatchFor g = true) :
    e.isMatchFor (renewed e g) = true := by
  by_cases hg : e.isGenerated = true
  · rwa [isMatchFor_renewed_right hg]
  · rw [renewed_of_not_isGenerated (by simpa using hg), Member.isMatchFor_self]

/-- A renewed member that carries the marker is the generated one. -/
lemma isMatchFor_renewed_of_isGenerated {e g : Member}
    (hr : (renewed e g).isGenerated = true) : g.isMatchFor (renewed e g) = true := by
  by_cases hg : e.isGenerated = true
  · rw [isMatchFor_renewed_right hg, Member.isMatchFor_self]
  · have he : e.isGenerated = false := by simpa using hg
    rw [renewed_of_not_isGenerated he, he] at hr
    exact absurd hr (by decide)

/-! ### Staleness -/

lemma isStale_iff {source : List Member} {m : Member} :
    isStale source m = true ↔
      m.isGenerated = true ∧ ∀ g ∈ source, g.isMatchFor m = false := by
  simp [isStale]

/-- For a nested type the marker and the name decide. -/
lemma isStale_nested_congr {source : List Member} {h : MemberHead} {t t' : TypeHeader}
    {ms ms' : List Member} :
    isStale source (.nested h t ms) = isStale source (.nested h t' ms') := by
  have hm : ∀ g : Member, g.isMatchFor (.nested h t ms) = g.isMatchFor (.nested h t' ms') :=
    fun g => Member.isMatchFor_congr_right rfl rfl rfl g
  simp only [isStale, hm, Member.isGenerated_nested]

/-- A member that a generated one matches is not stale. -/
lemma isStale_eq_false {source : List Member} {g m : Member} (hg : g ∈ source)
    (hm : m.isGenerated = true → g.isMatchFor m = true) : isStale source m = false := by
  rw [Bool.eq_false_iff, ne_eq, isStale_iff]
  rintro ⟨hx, hn⟩
  have := hn g hg
  rw [hm hx] at this
  exact absurd this (by decide)

lemma withoutStale_append (source before after : List Member) :
    withoutStale source (before ++ after) =
      withoutStale source before ++ withoutStale source after :=
  List.filter_append before after

lemma withoutStale_singleton_of_isStale {source : List Member} {m : Member}
    (h : isStale source m = true) : withoutStale source [m] = [] := by
  simp [withoutStale, h]

lemma withoutStale_singleton_of_not_isStale {source : List Member} {m : Member}
    (h : isStale source m = false) : withoutStale source [m] = [m] := by
  simp [withoutStale, h]

lemma isStale_eq_false_of_mem_withoutStale {source ms : List Member} {m : Member}
    (h : m ∈ withoutStale source ms) : isStale source m = false := by
  simpa using List.of_mem_filter h

/-- Going through a member list, the stale members drop out and the others are kept. -/
theorem withoutStale_induction {source : List Member}
    {motive : List Member → List Member → List Member → Prop} (nil : motive [] [] [])
    (drop : ∀ m ms gone left, isStale source m = true → motive ms gone left →
      motive (m :: ms) (m :: gone) left)
    (keep : ∀ m ms gone left, isStale source m = false → motive ms gone left →
      motive (m :: ms) gone (m :: left)) (ms : List Member) :
    motive ms (ms.filter (isStale source)) (withoutStale source ms) := by
  induction ms with
  | nil => exact nil
  | cons m ms ih =>
    cases h : isStale source m with
    | true => simpa [withoutStale, h] using drop m ms _ _ h ih
    | false => simpa [withoutStale, h] using keep m ms _ _ h ih

/-! ### Where a member is brought -/

lemma bringMember_of_locate_none (type : String) {target : List Member} {g : Member}
    (h : Member.locate g target = none) :
    bringMember type target g = insertMember type (pathInside type g.label) target g := by
  cases g with
  | plain k c => simp only [bringMember, h]
  | nested k t ms => simp only [bringMember, h]

lemma bringMember_plain_of_locate (type : String) {target before after : List Member}
    {e : Member} {h : MemberHead} {c : Content}
    (hl : Member.locate (.plain h c) target = some (before, e, after)) :
    bringMember type target (.plain h c) =
      updateMember (pathInside type (Member.plain h c).label) e (.plain h c) >>=
        fun new => pure (before ++ new :: after) := by
  simp only [bringMember, hl]

/-- Bringing a nested type to another one is a call for their members. -/
lemma bringMember_nested_of_locate (type : String)
    {target before after old inner : List Member} {oh h : MemberHead} {ot t : TypeHeader}
    (hl : Member.locate (.nested h t inner) target = some (before, .nested oh ot old, after)) :
    bringMember type target (.nested h t inner) =
      mergeMembers (pathInside type (Member.nested h t inner).label) old inner >>=
        fun merged => pure (before ++ .nested oh ot merged :: after) := by
  simp only [bringMember, hl, mergeMembers, Traced.bind_assoc]

/-! ### They are the successful runs -/

@[simp] lemma outcome_removeStale (type : String) (source target : List Member) :
    (removeStale type source target).outcome = .ok (withoutStale source target) := rfl

lemma insertMember_ok_iff {type path : String} {target target' : List Member} {g : Member} :
    (insertMember type path target g).outcome = .ok target' ↔
      (∀ m ∈ target, m.clashesWith g = true → m.isGenerated = true) ∧ target' = target ++ [g] := by
  unfold insertMember
  split
  · next m hf =>
    have hm := List.find?_some hf
    simp only [Bool.and_eq_true, Bool.not_eq_true'] at hm
    simp only [Traced.outcome_fail, reduceCtorEq, false_iff, not_and]
    intro h
    rw [h m (List.mem_of_find?_eq_some hf) hm.2] at hm
    exact absurd hm.1 (by decide)
  · next hf =>
    rw [List.find?_eq_none] at hf
    have hc : ∀ m ∈ target, m.clashesWith g = true → m.isGenerated = true := by
      intro m hm hcl
      have := hf m hm
      simpa [hcl] using this
    simp only [Traced.outcome_record_bind, Traced.outcome_pure, Except.ok.injEq]
    exact ⟨fun h => ⟨hc, h.symm⟩, fun h => h.2.symm⟩

@[simp] lemma outcome_updateMember (path : String) (e g : Member) :
    (updateMember path e g).outcome = .ok (renewed e g) := by
  unfold updateMember renewed
  split <;> rfl

mutual

/-- A successful run of `bringMember` is a step. -/
theorem step_of_bringMember {type : String} {target target' : List Member} (g : Member)
    (h : (bringMember type target g).outcome = .ok target') : Step target g target' := by
  match g with
  | .plain k c =>
    simp only [bringMember] at h
    split at h
    · next hl =>
      obtain ⟨hc, rfl⟩ := insertMember_ok_iff.mp h
      exact .append (Member.locate_eq_none_iff.mp hl) hc
    · next before e after hl =>
      obtain ⟨rfl, he, hb⟩ := Member.locate_eq_some_iff.mp hl
      simp only [Traced.outcome_bind_eq_ok_iff, outcome_updateMember, Traced.outcome_pure,
        Except.ok.injEq, exists_eq_left'] at h
      subst h
      exact .renew hb he
  | .nested k t source =>
    simp only [bringMember] at h
    split at h
    · next hl =>
      obtain ⟨hc, rfl⟩ := insertMember_ok_iff.mp h
      exact .append (Member.locate_eq_none_iff.mp hl) hc
    · next before oh ot old after hl =>
      obtain ⟨rfl, he, hb⟩ := Member.locate_eq_some_iff.mp hl
      simp only [Traced.outcome_bind_eq_ok_iff, outcome_removeStale, Traced.outcome_pure,
        Except.ok.injEq, exists_eq_left'] at h
      obtain ⟨grown, hg, rfl⟩ := h
      exact .descend hb he (steps_of_bringMembers source hg)
    · next found hne hl =>
      -- the found member is nested, since it matches a nested one
      obtain ⟨before, e, after⟩ := found
      obtain ⟨rfl, he, hb⟩ := Member.locate_eq_some_iff.mp hl
      cases e with
      | plain k' c => simp at he
      | nested oh ot old => exact absurd rfl (hne before oh ot old after)

/-- A successful run of `bringMembers` consists of steps. -/
theorem steps_of_bringMembers {type : String} {target grown : List Member} (source : List Member)
    (h : (bringMembers type target source).outcome = .ok grown) : Steps target source grown := by
  match source with
  | [] =>
    simp only [bringMembers, Traced.outcome_pure, Except.ok.injEq] at h
    subst h
    exact .nil target
  | g :: gs =>
    rw [bringMembers, Traced.outcome_bind_eq_ok_iff] at h
    obtain ⟨middle, hm, hg⟩ := h
    exact .cons (step_of_bringMember g hm) (steps_of_bringMembers gs hg)

end

mutual

theorem Step.run {target target' : List Member} {g : Member} (type : String)
    (h : Step target g target') : (bringMember type target g).outcome = .ok target' := by
  match h with
  | .append hm hc =>
    rw [bringMember_of_locate_none type (Member.locate_eq_none_iff.mpr hm)]
    exact insertMember_ok_iff.mpr ⟨hc, rfl⟩
  | .renew hb he =>
    rw [bringMember_plain_of_locate type (Member.locate_eq_some_iff.mpr ⟨rfl, he, hb⟩)]
    simp [Traced.outcome_bind_eq_ok_iff, outcome_updateMember]
  | .descend hb he hs =>
    rw [bringMember_nested_of_locate type (Member.locate_eq_some_iff.mpr ⟨rfl, he, hb⟩),
      mergeMembers]
    simp only [Traced.outcome_bind_eq_ok_iff, outcome_removeStale, Traced.outcome_pure]
    exact ⟨_, ⟨_, hs.run _, rfl⟩, rfl⟩

theorem Steps.run {target grown source : List Member} (type : String)
    (h : Steps target source grown) : (bringMembers type target source).outcome = .ok grown := by
  match h with
  | .nil _ => rfl
  | .cons hg hs =>
    rw [bringMembers, Traced.outcome_bind_eq_ok_iff]
    exact ⟨_, hg.run type, hs.run type⟩

end

theorem bringMember_ok_iff {type : String} {target target' : List Member} {g : Member} :
    (bringMember type target g).outcome = .ok target' ↔ Step target g target' :=
  ⟨step_of_bringMember g, Step.run type⟩

theorem bringMembers_ok_iff {type : String} {target source grown : List Member} :
    (bringMembers type target source).outcome = .ok grown ↔ Steps target source grown :=
  ⟨steps_of_bringMembers source, Steps.run type⟩

theorem mergeMembers_ok_iff {type : String} {target source merged : List Member} :
    (mergeMembers type target source).outcome = .ok merged ↔ Merges target source merged := by
  simp only [mergeMembers, Traced.outcome_bind_eq_ok_iff, bringMembers_ok_iff,
    outcome_removeStale, Except.ok.injEq, Merges]
  simp only [eq_comm]

/-! ### What a run records -/

/-- The removals of a call. -/
def removals (type : String) (source grown : List Member) : List Change :=
  (grown.filter (isStale source)).map fun m => .removed (pathInside type m.label)

/-- Removing the stale members records each of them, and leaves the others. -/
lemma removeStale_eq (type : String) (source grown : List Member) :
    removeStale type source grown =
      ⟨removals type source grown, .ok (withoutStale source grown)⟩ := by
  rw [removeStale, Traced.bind_of_ok rfl, removals]
  simp [Traced.recordAll, withoutStale]

/-- What a call records and returns: its removals come after what the generated members led to. -/
lemma mergeMembers_eq (type : String) {target source grown : List Member}
    (hs : Steps target source grown) :
    mergeMembers type target source =
      ⟨(bringMembers type target source).records ++ removals type source grown,
        .ok (withoutStale source grown)⟩ := by
  rw [mergeMembers, Traced.bind_of_ok (hs.run type), removeStale_eq]

end Graft.Merge
