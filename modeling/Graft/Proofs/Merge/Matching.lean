import Mathlib.Data.List.Perm.Subperm
import Graft.Declaration.Identity

/-!
# Matching as a relation

`isMatchFor` compares names, classes and, for callables, parameter types. It is a preorder: the
parameter types of the candidate must occur among those of the existing member, so a member with
repeated parameter types is a candidate for more members than it has candidates itself. Between
members that are not callable it is symmetric, and between callables of which neither repeats a
parameter type as well.
-/

namespace Graft.Member

/-! ### A preorder -/

/-- Matching is transitive. It is not symmetric, as a list of parameter types may repeat one. -/
lemma isMatchFor_trans {a b c : Member} (hab : a.isMatchFor b = true)
    (hbc : b.isMatchFor c = true) : a.isMatchFor c = true := by
  rw [isMatchFor_iff] at hab hbc ⊢
  obtain ⟨hn, hk, hs⟩ := hab
  obtain ⟨hn', hk', hs'⟩ := hbc
  refine ⟨hn.trans hn', hk.trans hk', fun h => ?_⟩
  obtain ⟨hl, ht⟩ := hs h
  obtain ⟨hl', ht'⟩ := hs' (hk ▸ h)
  exact ⟨hl.trans hl', fun ty hty => ht ty (ht' ty hty)⟩

/-- Outside the callables a match goes both ways. -/
lemma isMatchFor_comm_of_not_callable {e c : Member} (he : e.nameClass ≠ .callable) :
    e.isMatchFor c = true ↔ c.isMatchFor e = true := by
  simp only [isMatchFor_iff]
  constructor
  · rintro ⟨hn, hk, -⟩
    exact ⟨hn.symm, hk.symm, fun hc => absurd (hk.trans hc) he⟩
  · rintro ⟨hn, hk, -⟩
    exact ⟨hn.symm, hk.symm, fun hc => absurd hc he⟩

/-- A candidate that repeats no parameter type is matched in return. -/
lemma isMatchFor_symm_of_nodup {e c : Member} (hc : c.signature.Nodup)
    (h : e.isMatchFor c = true) : c.isMatchFor e = true := by
  rw [isMatchFor_iff] at h ⊢
  obtain ⟨hn, hk, hs⟩ := h
  refine ⟨hn.symm, hk.symm, fun h' => ?_⟩
  obtain ⟨hl, ht⟩ := hs (hk.trans h')
  have hsub : c.signature.Subperm e.signature := List.subperm_of_subset hc ht
  have hperm : c.signature.Perm e.signature := hsub.perm_of_length_le (Nat.le_of_eq hl)
  exact ⟨hl.symm, fun ty hty => hperm.mem_iff.mpr hty⟩

/-! ### What a match looks at -/

@[simp] lemma nameClass_withHead (h : MemberHead) (m : Member) :
    (m.withHead h).nameClass = m.nameClass := by
  cases m with
  | plain k c => cases c <;> rfl
  | nested k t ms => rfl

@[simp] lemma signature_withHead (h : MemberHead) (m : Member) :
    (m.withHead h).signature = m.signature := by
  cases m with
  | plain k c => cases c <;> rfl
  | nested k t ms => rfl

@[simp] lemma name_nested (h : MemberHead) (t : TypeHeader) (ms : List Member) :
    (nested h t ms).name = h.name := rfl

@[simp] lemma isGenerated_plain (h : MemberHead) (c : Content) :
    (plain h c).isGenerated = h.annotations.isGenerated := rfl

@[simp] lemma isGenerated_nested (h : MemberHead) (t : TypeHeader) (ms : List Member) :
    (nested h t ms).isGenerated = h.annotations.isGenerated := rfl

/-- Members with the same name, class and parameter types match the same candidates. -/
lemma isMatchFor_congr_left {a b : Member} (hn : a.name = b.name) (hk : a.nameClass = b.nameClass)
    (hs : a.signature = b.signature) (c : Member) : a.isMatchFor c = b.isMatchFor c := by
  simp only [isMatchFor, hn, hk, hs]

/-- Members with the same name, class and parameter types are candidates for the same members. -/
lemma isMatchFor_congr_right {a b : Member} (hn : a.name = b.name)
    (hk : a.nameClass = b.nameClass) (hs : a.signature = b.signature) (e : Member) :
    e.isMatchFor a = e.isMatchFor b := by
  simp only [isMatchFor, hn, hk, hs]

/-- A head with the same name makes no difference to matching. -/
lemma isMatchFor_withHead_left {h : MemberHead} {m : Member} (hn : h.name = m.name) (c : Member) :
    (m.withHead h).isMatchFor c = m.isMatchFor c :=
  isMatchFor_congr_left (by simp [name, hn]) (nameClass_withHead h m) (signature_withHead h m) c

lemma isMatchFor_withHead_right {h : MemberHead} {m : Member} (hn : h.name = m.name) (e : Member) :
    e.isMatchFor (m.withHead h) = e.isMatchFor m :=
  isMatchFor_congr_right (by simp [name, hn]) (nameClass_withHead h m) (signature_withHead h m) e

/-! ### Nested types -/

/-- Between nested types the name decides. -/
lemma nested_isMatchFor_nested_iff {h h' : MemberHead} {t t' : TypeHeader}
    {ms ms' : List Member} :
    (nested h t ms).isMatchFor (nested h' t' ms') = true ↔ h.name = h'.name := by
  simp [isMatchFor_iff, nameClass]

lemma nested_isMatchFor_nested_eq_false_iff {h h' : MemberHead} {t t' : TypeHeader}
    {ms ms' : List Member} :
    (nested h t ms).isMatchFor (nested h' t' ms') = false ↔ h.name ≠ h'.name := by
  rw [Bool.eq_false_iff, ne_eq, nested_isMatchFor_nested_iff]

@[simp] lemma nested_isMatchFor_plain (h h' : MemberHead) (t : TypeHeader) (ms : List Member)
    (c : Content) : (nested h t ms).isMatchFor (plain h' c) = false := by
  cases c <;> simp [isMatchFor, nameClass]

@[simp] lemma plain_isMatchFor_nested (h h' : MemberHead) (t : TypeHeader) (ms : List Member)
    (c : Content) : (plain h' c).isMatchFor (nested h t ms) = false := by
  cases c <;> simp [isMatchFor, nameClass]

/-! ### Finding -/

lemma mem_append_cons_iff {m e : Member} {before after : List Member} :
    m ∈ before ++ e :: after ↔ m = e ∨ m ∈ before ++ after :=
  List.perm_middle.mem_iff.trans List.mem_cons

lemma isMatchFor_of_find? {g x : Member} {members : List Member}
    (h : members.find? (·.isMatchFor g) = some x) : x.isMatchFor g = true := by
  simpa using List.find?_some h

/-- The first member that matches splits the list. -/
lemma exists_locate_of_find? {g x : Member} {members : List Member}
    (h : members.find? (·.isMatchFor g) = some x) :
    ∃ before after, locate g members = some (before, x, after) ∧
      members = before ++ x :: after := by
  obtain ⟨hm, before, after, hs, hb⟩ := List.find?_eq_some_iff_append.mp h
  refine ⟨before, after, locate_eq_some_iff.mpr ⟨hs, hm, fun m hm => ?_⟩, hs⟩
  simpa using hb m hm

lemma indexFor?_eq_none {g : Member} {members : List Member}
    (h : ∀ m ∈ members, m.isMatchFor g = false) : indexFor? members g = none := by
  rw [indexFor?, locate_eq_none_iff.mpr h]
  rfl

/-- A generated member is brought to the first member that matches it. -/
lemma indexFor?_append_cons {g e : Member} {before after : List Member}
    (he : e.isMatchFor g = true) (hb : ∀ m ∈ before, m.isMatchFor g = false) :
    indexFor? (before ++ e :: after) g = some before.length := by
  rw [indexFor?, locate_eq_some_iff.mpr ⟨rfl, he, hb⟩]
  rfl

/-- At the place that a generated member is brought to stands a member that matches it. -/
lemma isMatchFor_of_indexFor? {g : Member} {members : List Member} {i : Nat}
    (h : indexFor? members g = some i) :
    ∃ x, members[i]? = some x ∧ x.isMatchFor g = true := by
  rw [indexFor?, Option.map_eq_some_iff] at h
  obtain ⟨⟨before, x, after⟩, hl, rfl⟩ := h
  obtain ⟨rfl, hx, -⟩ := locate_eq_some_iff.mp hl
  exact ⟨x, by simp, hx⟩

end Graft.Member
