import Mathlib.Data.List.Pairwise
import Graft.Proofs.Merge.Nested

/-!
# A merge in one pass

`described target source` says what a merge leaves without saying in what order things are done:
each existing member is looked at once, with its partner among the generated ones, and the generated
members without a partner follow. A merge does leave this when matching is unambiguous: on neither
side two members match, and across the sides matching goes both ways. Then each member has at most
one partner, and what stands at its place after it was brought there matches what it matched before.

Since the partner of a member does not depend on the order of the generated members, that order
only shows in the members that are appended.
-/

namespace Graft.Merge

/-! ### The description -/

/-- The generated members that no existing one matches. -/
def newcomers (target source : List Member) : List Member :=
  source.filter fun g => !target.any (·.isMatchFor g)

mutual

/-- What stands at the place of an existing member that stays. A plain member with the marker gives
way to its partner, which takes over the fold marks of the place if it has none. Of a nested type
with a partner the members are merged. Everything else is as it was. -/
def heir (source : List Member) : Member → Member
  | .plain h c =>
    match source.find? ((Member.plain h c).isMatchFor ·) with
    | some g =>
      if h.annotations.isGenerated then
        g.withHead { g.head with fold := if g.head.fold.isEmpty then h.fold else g.head.fold }
      else
        .plain h c
    | none => .plain h c
  | .nested h t ms =>
    match source.find? ((Member.nested h t ms).isMatchFor ·) with
    | some (.nested _ _ incoming) => .nested h t (survivors incoming ms ++ newcomers ms incoming)
    | _ => .nested h t ms

/-- What stands at the places of the existing members that stay: those without the marker and those
with a partner. -/
def survivors (source : List Member) : List Member → List Member
  | [] => []
  | m :: ms =>
    if m.isGenerated && !source.any (m.isMatchFor ·) then
      survivors source ms
    else
      heir source m :: survivors source ms

end

/-- What a merge leaves: the survivors, followed by the newcomers. -/
def described (target source : List Member) : List Member :=
  survivors source target ++ newcomers target source

/-- The survivors are the members that are not removed, each as its heir. -/
lemma survivors_eq_map (source ms : List Member) :
    survivors source ms =
      (ms.filter fun m => !(m.isGenerated && !source.any (m.isMatchFor ·))).map (heir source) := by
  induction ms with
  | nil => rw [survivors, List.filter_nil, List.map_nil]
  | cons m ms ih =>
    rw [survivors, List.filter_cons, ih]
    cases m.isGenerated && !source.any (m.isMatchFor ·) <;> simp

section Heir

variable {source : List Member} {h : MemberHead}

/-- A member that no generated one is for is its own heir. -/
lemma heir_of_find?_eq_none {e : Member} (hf : source.find? (e.isMatchFor ·) = none) :
    heir source e = e := by
  cases e with
  | plain k c => rw [heir, hf]
  | nested k t ms => rw [heir, hf]

lemma heir_plain {c : Content} {g : Member}
    (hf : source.find? ((Member.plain h c).isMatchFor ·) = some g) :
    heir source (.plain h c) = renewed (.plain h c) g := by
  have hhead : { g.head with fold := if g.head.fold.isEmpty then h.fold else g.head.fold } =
      replacement h g.head := by
    unfold replacement
    split <;> rfl
  rw [heir, hf]
  simp only [hhead]
  rfl

lemma heir_nested {k : MemberHead} {t u : TypeHeader} {ms incoming : List Member}
    (hf : source.find? ((Member.nested h t ms).isMatchFor ·) = some (.nested k u incoming)) :
    heir source (.nested h t ms) = .nested h t (described ms incoming) := by
  rw [heir, hf, described]

/-- The heir depends on the first generated member that the old one matches. -/
lemma heir_congr {source' : List Member} {e : Member}
    (hf : source'.find? (e.isMatchFor ·) = source.find? (e.isMatchFor ·)) :
    heir source' e = heir source e := by
  cases e with
  | plain k c => rw [heir, heir, hf]
  | nested k t ms => rw [heir, heir, hf]

end Heir

/-! ### Unambiguous matching -/

/-- No two members match. -/
def PairwiseUnmatched (ms : List Member) : Prop :=
  ms.Pairwise fun a b => a.isMatchFor b = false ∧ b.isMatchFor a = false

instance : DecidablePred PairwiseUnmatched :=
  fun _ => inferInstanceAs (Decidable (List.Pairwise _ _))

/-- On neither side two members match, and across the sides matching goes both ways. -/
structure Unambiguous (target source : List Member) : Prop where
  existing : PairwiseUnmatched target
  generated : PairwiseUnmatched source
  comm : ∀ e ∈ target, ∀ g ∈ source, e.isMatchFor g = g.isMatchFor e

/-- Each of two members matches the other. -/
structure Alike (a b : Member) : Prop where
  left : a.isMatchFor b = true
  right : b.isMatchFor a = true

lemma Alike.isMatchFor_eq {a b : Member} (h : Alike a b) (c : Member) :
    a.isMatchFor c = b.isMatchFor c := by
  rw [Bool.eq_iff_iff]
  exact ⟨Member.isMatchFor_trans h.right, Member.isMatchFor_trans h.left⟩

lemma Alike.eq_isMatchFor {a b : Member} (h : Alike a b) (c : Member) :
    c.isMatchFor a = c.isMatchFor b := by
  rw [Bool.eq_iff_iff]
  exact ⟨fun ha => Member.isMatchFor_trans ha h.left, fun hb => Member.isMatchFor_trans hb h.right⟩

/-- No member matches another exactly if this is so for one of them and for the rest. -/
lemma PairwiseUnmatched.middle_iff {before after : List Member} {e : Member} :
    PairwiseUnmatched (before ++ e :: after) ↔
      (∀ m ∈ before ++ after, e.isMatchFor m = false ∧ m.isMatchFor e = false) ∧
        PairwiseUnmatched (before ++ after) := by
  rw [PairwiseUnmatched, List.pairwise_middle fun h => ⟨h.2, h.1⟩, List.pairwise_cons]
  rfl

/-- Where no member matches another, one that matches is the member itself. -/
lemma PairwiseUnmatched.eq_of_isMatchFor {ms : List Member} (h : PairwiseUnmatched ms)
    {a b : Member} (ha : a ∈ ms) (hb : b ∈ ms) (hab : a.isMatchFor b = true) : a = b := by
  have hsymm : Std.Symm fun a b : Member => a.isMatchFor b = false ∧ b.isMatchFor a = false :=
    ⟨fun _ _ h => ⟨h.2, h.1⟩⟩
  by_contra hne
  rw [(List.Pairwise.forall h ha hb hne).1] at hab
  cases hab

/-! ### One step -/

section Step

variable {before after target part : List Member} {e e' g : Member}

/-- Appending a member that nothing matches leaves the rest unambiguous. -/
lemma Unambiguous.append (h : Unambiguous target (g :: part))
    (hm : ∀ m ∈ target, m.isMatchFor g = false) : Unambiguous (target ++ [g]) part where
  existing := by
    refine List.pairwise_append.mpr ⟨h.existing, List.pairwise_singleton _ _, ?_⟩
    intro m hmt d hd
    obtain rfl := List.mem_singleton.mp hd
    exact ⟨hm m hmt, by rw [← h.comm m hmt d List.mem_cons_self, hm m hmt]⟩
  generated := (List.pairwise_cons.mp h.generated).2
  comm := by
    intro m hm' d hd
    rcases List.mem_append.mp hm' with hmt | hmg
    · exact h.comm m hmt d (List.mem_cons_of_mem _ hd)
    · obtain rfl := List.mem_singleton.mp hmg
      obtain ⟨hmd, hdm⟩ := (List.pairwise_cons.mp h.generated).1 d hd
      rw [hmd, hdm]

/-- So does replacing one by a member that matches alike. -/
lemma Unambiguous.replace (h : Unambiguous (before ++ e :: after) (g :: part)) (ha : Alike e e') :
    Unambiguous (before ++ e' :: after) part where
  existing := by
    have hex := h.existing
    rw [PairwiseUnmatched.middle_iff] at hex ⊢
    refine ⟨?_, hex.2⟩
    intro m hm
    rw [← ha.isMatchFor_eq, ← ha.eq_isMatchFor]
    exact hex.1 m hm
  generated := (List.pairwise_cons.mp h.generated).2
  comm := by
    intro m hm d hd
    have hd' : d ∈ g :: part := List.mem_cons_of_mem _ hd
    rcases Member.mem_append_cons_iff.mp hm with rfl | hrest
    · rw [← ha.isMatchFor_eq, ← ha.eq_isMatchFor]
      exact h.comm e (by simp) d hd'
    · exact h.comm m (Member.mem_append_cons_iff.mpr (.inr hrest)) d hd'

/-- A generated member has no rival among the later ones. -/
lemma Unambiguous.not_isMatchFor (h : Unambiguous target (g :: part)) :
    ∀ d ∈ part, g.isMatchFor d = false := by
  intro d hd
  exact ((List.pairwise_cons.mp h.generated).1 d hd).1

lemma Unambiguous.alike (h : Unambiguous target part) (he : e ∈ target) (hg : g ∈ part)
    (hm : e.isMatchFor g = true) : Alike e g :=
  ⟨hm, by rw [← h.comm e he g hg, hm]⟩

lemma heir_eq_self (h : ∀ d ∈ part, e.isMatchFor d = false) : heir part e = e := by
  apply heir_of_find?_eq_none
  rw [List.find?_eq_none]
  intro d hd
  simp [h d hd]

lemma heir_cons_of_not_isMatchFor (h : e.isMatchFor g = false) :
    heir (g :: part) e = heir part e :=
  heir_congr (List.find?_cons_of_neg (by simp [h]))

/-- What stands at the place of a member in the end matches what the member matched. -/
lemma Alike.heir (h : Alike e g) (hf : part.find? (e.isMatchFor ·) = some g) :
    Alike e (heir part e) := by
  cases e with
  | plain k c =>
    rw [heir_plain hf]
    refine ⟨isMatchFor_renewed h.left, ?_⟩
    by_cases hg : (Member.plain k c).isGenerated = true
    · rw [isMatchFor_renewed_left hg, h.right]
    · rw [renewed_of_not_isGenerated (by simpa using hg), Member.isMatchFor_self]
  | nested k t ms =>
    cases g with
    | plain l d => simpa using h.left
    | nested l u incoming =>
      rw [heir_nested hf]
      exact ⟨Member.nested_isMatchFor_nested_iff.mpr rfl,
        Member.nested_isMatchFor_nested_iff.mpr rfl⟩

/-- A generated member that nothing matches is a newcomer. -/
lemma newcomers_cons_of_forall (h : ∀ m ∈ target, m.isMatchFor g = false) :
    newcomers target (g :: part) = g :: newcomers target part := by
  apply List.filter_cons_of_pos
  simpa using h

lemma newcomers_cons_of_mem (he : e ∈ target) (h : e.isMatchFor g = true) :
    newcomers target (g :: part) = newcomers target part := by
  apply List.filter_cons_of_neg
  simpa using ⟨e, he, h⟩

/-- The members of any two nested types of one name are merged as described. -/
def InsideAsDescribed (target source : List Member) : Prop :=
  ∀ x ∈ nestedTypes target, ∀ y ∈ nestedTypes source, x.head.name = y.head.name →
    ∀ merged, Merges x.members y.members merged → merged = described x.members y.members

/-- A step appends the generated member, or it leaves the heir of the one member that matches. -/
lemma Step.eq_heir {middle : List Member} (hi : InsideAsDescribed target (g :: part))
    (h : Step target g middle) :
    ((∀ m ∈ target, m.isMatchFor g = false) ∧ middle = target ++ [g]) ∨
      ∃ before e after, target = before ++ e :: after ∧ e.isMatchFor g = true ∧
        middle = before ++ heir (g :: part) e :: after := by
  cases h with
  | append hm _ => exact .inl ⟨hm, rfl⟩
  | @renew before after e k c _ he =>
    refine .inr ⟨before, e, after, rfl, he, ?_⟩
    cases e with
    | plain l d => rw [heir_plain (List.find?_cons_of_pos he)]
    | nested l t ms => simp at he
  | @descend before after old source grown oh k ot t _ he hs =>
    refine .inr ⟨before, _, after, rfl, he, ?_⟩
    rw [heir_nested (List.find?_cons_of_pos he)]
    have hx : (⟨oh, ot, old⟩ : NestedType) ∈
        nestedTypes (before ++ .nested oh ot old :: after) := by simp
    have hn := Member.nested_isMatchFor_nested_iff.mp he
    rw [← hi _ hx ⟨k, t, source⟩ (by simp) hn _ ⟨grown, hs, rfl⟩]

/-- A nested type that came in, or whose members were merged, is not merged again. -/
lemma InsideAsDescribed.step {middle : List Member} (hi : InsideAsDescribed target (g :: part))
    (hg : ∀ d ∈ part, g.isMatchFor d = false) (hm : ∀ m ∈ middle, m ∈ target ∨ Alike m g) :
    InsideAsDescribed middle part := by
  intro x hx y hy hn
  rcases hm _ (mem_nestedTypes.mp hx) with ht | ha
  · refine hi x (mem_nestedTypes.mpr ht) y ?_ hn
    exact mem_nestedTypes.mpr (List.mem_cons_of_mem _ (mem_nestedTypes.mp hy))
  · have hgy := hg _ (mem_nestedTypes.mp hy)
    rw [← ha.isMatchFor_eq, Member.nested_isMatchFor_nested_eq_false_iff] at hgy
    exact absurd hn hgy

/-- What a run ends with that starts from `target` and brings in the members of `part`: the heirs
of all members that are there, followed by the newcomers. -/
def completed (target part : List Member) : List Member :=
  target.map (heir part) ++ newcomers target part

/-- A newcomer is nobody's partner, and nobody comes after it in its place. -/
lemma completed_append (hu : Unambiguous target (g :: part))
    (hm : ∀ m ∈ target, m.isMatchFor g = false) :
    completed (target ++ [g]) part = completed target (g :: part) := by
  have hheirs : target.map (heir (g :: part)) = target.map (heir part) := by
    apply List.map_congr_left
    intro m hmt
    exact heir_cons_of_not_isMatchFor (hm m hmt)
  have hnew : newcomers (target ++ [g]) part = newcomers target part := by
    apply List.filter_congr
    intro d hd
    simp [hu.not_isMatchFor d hd]
  rw [completed, completed, newcomers_cons_of_forall hm, hheirs, hnew, List.map_append,
    List.map_singleton, heir_eq_self hu.not_isMatchFor, List.append_assoc, List.singleton_append]

/-- A partner of one member is no partner of another, and the heir in that member's place has no
partner any more. -/
lemma completed_replace (hu : Unambiguous (before ++ e :: after) (g :: part)) (heg : Alike e g) :
    completed (before ++ heir (g :: part) e :: after) part =
      completed (before ++ e :: after) (g :: part) := by
  have hheir : Alike e (heir (g :: part) e) := heg.heir (List.find?_cons_of_pos heg.left)
  have hfinal : heir part (heir (g :: part) e) = heir (g :: part) e := by
    apply heir_eq_self
    intro d hd
    rw [← hheir.isMatchFor_eq, heg.isMatchFor_eq, hu.not_isMatchFor d hd]
  have hheirs : (before ++ after).map (heir (g :: part)) = (before ++ after).map (heir part) := by
    apply List.map_congr_left
    intro m hm
    apply heir_cons_of_not_isMatchFor
    rw [← heg.eq_isMatchFor]
    exact ((PairwiseUnmatched.middle_iff.mp hu.existing).1 m hm).2
  have hnew : newcomers (before ++ heir (g :: part) e :: after) part =
      newcomers (before ++ e :: after) (g :: part) := by
    rw [newcomers_cons_of_mem (by simp) heg.left]
    apply List.filter_congr
    intro d _
    simp [hheir.isMatchFor_eq]
  rw [completed, completed, hnew]
  simp only [List.map_append, List.map_cons, hfinal] at hheirs ⊢
  rw [List.append_inj_left' hheirs (by simp), List.append_inj_right' hheirs (by simp)]

/-- A step leaves matching unambiguous, and does not change what the run will end with. -/
theorem Step.completed_eq {middle : List Member} (hu : Unambiguous target (g :: part))
    (hi : InsideAsDescribed target (g :: part)) (h : Step target g middle) :
    Unambiguous middle part ∧ InsideAsDescribed middle part ∧
      completed middle part = completed target (g :: part) := by
  rcases h.eq_heir hi with ⟨hm, rfl⟩ | ⟨before, e, after, rfl, he, rfl⟩
  · refine ⟨hu.append hm, hi.step hu.not_isMatchFor ?_, completed_append hu hm⟩
    intro m hmid
    rcases List.mem_append.mp hmid with hmt | hmg
    · exact .inl hmt
    · obtain rfl := List.mem_singleton.mp hmg
      exact .inr ⟨m.isMatchFor_self, m.isMatchFor_self⟩
  · have heg : Alike e g := hu.alike (by simp) List.mem_cons_self he
    have hheir : Alike e (heir (g :: part) e) := heg.heir (List.find?_cons_of_pos he)
    refine ⟨hu.replace hheir, hi.step hu.not_isMatchFor ?_, completed_replace hu heg⟩
    intro m hmid
    rcases Member.mem_append_cons_iff.mp hmid with rfl | hrest
    · refine .inr ⟨?_, ?_⟩
      · rw [← hheir.isMatchFor_eq, heg.left]
      · rw [← hheir.eq_isMatchFor, heg.right]
    · exact .inl (Member.mem_append_cons_iff.mpr (.inr hrest))

end Step

/-! ### A whole run -/

/-- When all generated members have been brought in, each existing member has given way to its heir
and the newcomers stand behind. -/
theorem Steps.eq_completed {target part grown : List Member} (hu : Unambiguous target part)
    (hi : InsideAsDescribed target part) (hs : Steps target part grown) :
    grown = completed target part := by
  induction part generalizing target with
  | nil =>
    cases hs
    have hself : grown.map (heir []) = grown := by
      apply List.map_id''
      intro e
      exact heir_eq_self (by simp)
    rw [completed, hself]
    simp [newcomers]
  | cons g gs ih =>
    cases hs with
    | cons h hs =>
      obtain ⟨hu', hi', hc⟩ := h.completed_eq hu hi
      rw [ih hu' hi' hs, hc]

/-- The heir is removed exactly if the old member has no counterpart. For this matching must go both
ways, which being unambiguous gives. -/
lemma isStale_heir {target source : List Member} {e : Member} (hu : Unambiguous target source)
    (he : e ∈ target) :
    isStale source (heir source e) = (e.isGenerated && !source.any (e.isMatchFor ·)) := by
  cases hf : source.find? (e.isMatchFor ·) with
  | some g =>
    have hg := List.mem_of_find?_eq_some hf
    have hm : e.isMatchFor g = true := by simpa using List.find?_some hf
    have heg := hu.alike he hg hm
    have hany : source.any (e.isMatchFor ·) = true := List.any_eq_true.mpr ⟨g, hg, hm⟩
    rw [hany, Bool.not_true, Bool.and_false]
    apply isStale_eq_false hg
    intro _
    rw [← (heg.heir hf).eq_isMatchFor, heg.right]
  | none =>
    have hback : source.any (·.isMatchFor e) = source.any (e.isMatchFor ·) := by
      rw [Bool.eq_iff_iff, List.any_eq_true, List.any_eq_true]
      apply exists_congr
      intro g
      apply and_congr_right
      intro hg
      rw [hu.comm e he g hg]
    rw [heir_of_find?_eq_none hf, isStale, hback]

/-- Where matching is unambiguous at every depth, a merge leaves what is described. -/
theorem Merges.eq_described {target source merged : List Member}
    (hu : EveryPair Unambiguous target source) (h : Merges target source merged) :
    merged = described target source := by
  induction hu generalizing merged with
  | @intro target source here _ ih =>
    obtain ⟨grown, hs, rfl⟩ := h
    have hi : InsideAsDescribed target source := by
      intro x hx y hy hn merged hm
      exact ih x hx y hy hn hm
    have hstay : ∀ e ∈ target, (!isStale source (heir source e)) =
        !(e.isGenerated && !source.any (e.isMatchFor ·)) := by
      intro e he
      rw [isStale_heir here he]
    have hnew : ∀ g ∈ newcomers target source, (!isStale source g) = true := by
      intro g hg
      rw [isStale_eq_false (List.mem_filter.mp hg).1 fun _ => g.isMatchFor_self]
      rfl
    rw [hs.eq_completed here hi, completed, withoutStale, List.filter_append, List.filter_map,
      List.filter_eq_self.mpr hnew, described, survivors_eq_map]
    congr 2
    exact List.filter_congr hstay

/-! ### The order of the generated members -/

section Perm

variable {target source source' : List Member}

/-- In whatever order, the only one is found first. -/
lemma find?_eq_of_perm {p : Member → Bool} (hp : source'.Perm source)
    (hu : ∀ a ∈ source, ∀ b ∈ source, p a = true → p b = true → a = b) :
    source'.find? p = source.find? p := by
  cases hf : source.find? p with
  | none =>
    rw [List.find?_eq_none] at hf ⊢
    intro a ha
    exact hf a (hp.mem_iff.mp ha)
  | some b =>
    have hb := List.mem_of_find?_eq_some hf
    have hsome : (source'.find? p).isSome :=
      List.find?_isSome.mpr ⟨b, hp.mem_iff.mpr hb, List.find?_some hf⟩
    obtain ⟨a, ha⟩ := Option.isSome_iff_exists.mp hsome
    have hab := hu a (hp.mem_iff.mp (List.mem_of_find?_eq_some ha)) b hb (List.find?_some ha)
      (List.find?_some hf)
    rw [ha, hab]

/-- A member has one partner, in whatever order the generated members are listed. -/
lemma Unambiguous.survivors_eq_of_perm (hu : Unambiguous target source)
    (hp : source'.Perm source) : survivors source' target = survivors source target := by
  have hany : ∀ e : Member, source'.any (e.isMatchFor ·) = source.any (e.isMatchFor ·) :=
    fun _ => hp.any_eq
  simp only [survivors_eq_map, hany]
  apply List.map_congr_left
  intro e he
  apply heir_congr
  apply find?_eq_of_perm hp
  intro a ha b hb hea heb
  have het := (List.mem_filter.mp he).1
  have hab : a.isMatchFor b = true := by
    rw [← (hu.alike het ha hea).isMatchFor_eq, heb]
  exact hu.generated.eq_of_isMatchFor ha hb hab

/-- To be unambiguous is no matter of order. -/
lemma everyPair_unambiguous_of_perm (hu : EveryPair Unambiguous target source)
    (hp : source'.Perm source) : EveryPair Unambiguous target source' := by
  have hsymm : ∀ {a b : Member}, a.isMatchFor b = false ∧ b.isMatchFor a = false →
      b.isMatchFor a = false ∧ a.isMatchFor b = false := fun h => ⟨h.2, h.1⟩
  refine .intro ⟨hu.here.existing, (hp.pairwise_iff hsymm).mpr hu.here.generated, ?_⟩ ?_
  · intro e he g hg
    exact hu.here.comm e he g (hp.mem_iff.mp hg)
  · intro x hx y hy hn
    rw [mem_nestedTypes, hp.mem_iff, ← mem_nestedTypes] at hy
    exact hu.inside hx hy hn

end Perm

/-- Where matching is unambiguous at every depth, a merge that succeeds leaves the survivors of the
existing members and behind them the newcomers. Another order of the generated members gives another
order of the newcomers at most. -/
theorem mergeMembers_eq_described {type : String} {target source merged : List Member}
    (hu : EveryPair Unambiguous target source)
    (h : (mergeMembers type target source).outcome = .ok merged) :
    merged = survivors source target ++ newcomers target source ∧
      ∀ source' merged', source'.Perm source →
        (mergeMembers type target source').outcome = .ok merged' →
        ∃ added, added.Perm (newcomers target source) ∧
          merged' = survivors source target ++ added := by
  refine ⟨(mergeMembers_ok_iff.mp h).eq_described hu, ?_⟩
  intro source' merged' hp h'
  have hm := (mergeMembers_ok_iff.mp h').eq_described (everyPair_unambiguous_of_perm hu hp)
  refine ⟨newcomers target source', hp.filter _, ?_⟩
  rw [hm, described, hu.here.survivors_eq_of_perm hp]

/-- `Foo` with the mark of a fold region, and `Bar`, are generated, and so is `Columns`; `Baz` and
the field `Custom` of `Columns` are hand-written. -/
def orderMembers : List Member :=
  [.plain { name := "Foo", annotations := { isGenerated := true }, fold := { closed := true } }
      (.field "int" []),
    (Member.ofMethod "Bar" []).annotate .generate,
    .ofMethod "Baz" [],
    .ofType ⟨{ name := "Columns" },
      [(Member.ofField "Id" "int").annotate .generate, .ofField "Custom" "int"]⟩]

/-- `Foo` and `Id` have another type now, there is no `Bar` any more, and `Qux`, `Quux` and `Total`
are new. -/
def generatedOrder : List Member :=
  [(Member.ofProperty "Qux" "int").annotate .generate,
    .ofType ⟨{ name := "Columns" },
      [(Member.ofField "Total" "int").annotate .generate,
        (Member.ofField "Id" "long").annotate .generate]⟩,
    (Member.ofMethod "Quux" []).annotate .generate,
    (Member.ofField "Foo" "long").annotate .generate]

lemma everyPair_unambiguous_order : EveryPair Unambiguous orderMembers generatedOrder := by
  refine .intro ⟨by decide, by decide, by decide⟩ ?_
  intro x hx y hy _
  obtain rfl := List.mem_singleton.mp hx
  obtain rfl := List.mem_singleton.mp hy
  exact .of_nestedTypes_eq_nil ⟨by decide, by decide, by decide⟩ rfl

/-- The order is merged as described, and from the reversed list come the same survivors. -/
theorem order_merged_as_described :
    (mergeMembers "Shop.Order" orderMembers generatedOrder).outcome = .ok
      [.plain { name := "Foo", annotations := { isGenerated := true }, fold := { closed := true } }
          (.field "long" []),
        .ofMethod "Baz" [],
        .ofType ⟨{ name := "Columns" },
          [(Member.ofField "Id" "long").annotate .generate, .ofField "Custom" "int",
            (Member.ofField "Total" "int").annotate .generate]⟩,
        (Member.ofProperty "Qux" "int").annotate .generate,
        (Member.ofMethod "Quux" []).annotate .generate] ∧
    (mergeMembers "Shop.Order" orderMembers generatedOrder).outcome =
      .ok (survivors generatedOrder orderMembers ++ newcomers orderMembers generatedOrder) ∧
    ∃ added, added.Perm (newcomers orderMembers generatedOrder) ∧
      (mergeMembers "Shop.Order" orderMembers generatedOrder.reverse).outcome =
        .ok (survivors generatedOrder orderMembers ++ added) := by
  have hm : (mergeMembers "Shop.Order" orderMembers generatedOrder).outcome = .ok _ := rfl
  have hr : (mergeMembers "Shop.Order" orderMembers generatedOrder.reverse).outcome = .ok _ := rfl
  obtain ⟨hmerged, horder⟩ := mergeMembers_eq_described everyPair_unambiguous_order hm
  obtain ⟨added, hp, hadded⟩ := horder _ _ (List.reverse_perm _) hr
  exact ⟨rfl, hm.trans (congrArg _ hmerged), added, hp, hr.trans (congrArg _ hadded)⟩

end Graft.Merge
