import Mathlib.Data.List.Pairwise
import Graft.Proofs.Merge.Nested
import Graft.Proofs.Merge.Steps

/-!
# The keys of members

The key of a member is what tells it apart from the other members of its type: its name, its class
and, if it is callable, its parameter types. Members with one key match each other. Among members
that are not callable nothing else matches, so for them to have distinct keys is to have distinct
names within each class.

A step of a merge appends the generated member, or it updates the first member that matches. An
update leaves a hand-written member its key and gives any other the key of the generated one. It
never changes a name or a class.
-/

namespace Graft

namespace Member

/-- The name, the class and the parameter types of a member. -/
def key (m : Member) : String × NameClass × List String :=
  (m.name, m.nameClass, m.signature)

lemma key_eq_iff {a b : Member} :
    a.key = b.key ↔ a.name = b.name ∧ a.nameClass = b.nameClass ∧ a.signature = b.signature := by
  simp [key]

/-- What a member matches is decided by its key. -/
lemma isMatchFor_congr_key {a b : Member} (h : a.key = b.key) (c : Member) :
    a.isMatchFor c = b.isMatchFor c := by
  obtain ⟨hn, hk, hs⟩ := key_eq_iff.mp h
  exact isMatchFor_congr_left hn hk hs c

/-- Members with one key match each other. -/
lemma isMatchFor_of_key_eq {a b : Member} (h : a.key = b.key) : a.isMatchFor b = true := by
  rw [isMatchFor_congr_key h, isMatchFor_self]

lemma clashesWith_comm (a b : Member) : a.clashesWith b = b.clashesWith a := by
  rw [Bool.eq_iff_iff, clashesWith_iff, clashesWith_iff]
  constructor
  · rintro ⟨hn, hk⟩
    exact ⟨hn.symm, hk.symm⟩
  · rintro ⟨hn, hk⟩
    exact ⟨hn.symm, hk.symm⟩

lemma clashesWith_congr_key {a b c d : Member} (hac : a.key = c.key) (hbd : b.key = d.key) :
    a.clashesWith b = c.clashesWith d := by
  obtain ⟨hn, hk, -⟩ := key_eq_iff.mp hac
  obtain ⟨hn', hk', -⟩ := key_eq_iff.mp hbd
  simp only [clashesWith, hn, hk, hn', hk']

/-- Only callables have parameter types, so the key of another member is its name and class. -/
lemma signature_of_not_callable {m : Member} (h : m.nameClass ≠ .callable) : m.signature = [] := by
  cases m with
  | nested k t ms => rfl
  | plain k c =>
    cases c with
    | field => rfl
    | property => rfl
    | method => exact absurd rfl h
    | constructor => exact absurd rfl h

/-- What matches a member that is not callable has its key. For callables this fails, as parameter
lists match without being the same. -/
lemma key_eq_of_isMatchFor {e g : Member} (hg : g.nameClass ≠ .callable)
    (h : e.isMatchFor g = true) : e.key = g.key := by
  obtain ⟨hn, hk, -⟩ := isMatchFor_iff.mp h
  have he : e.nameClass ≠ .callable := hk ▸ hg
  rw [key_eq_iff, signature_of_not_callable he, signature_of_not_callable hg]
  exact ⟨hn, hk, rfl⟩

@[simp] lemma key_nested (h : MemberHead) (t : TypeHeader) (ms : List Member) :
    (nested h t ms).key = (h.name, .nestedType, []) := rfl

/-- A replacement that hands on the name leaves the key as it is. -/
lemma key_withHead {h : MemberHead} {m : Member} (hn : h.name = m.name) :
    (m.withHead h).key = m.key := by
  simp [key, name, hn]

end Member

/-! ### Conditions on keys -/

/-- No member has the name of one of another class. -/
def NoClash (ms : List Member) : Prop :=
  ∀ a ∈ ms, ∀ b ∈ ms, a.clashesWith b = false

/-- Fields have distinct names, and so have properties and nested types. -/
def DistinctNames (ms : List Member) : Prop :=
  ms.Pairwise fun a b => a.nameClass = b.nameClass → a.nameClass ≠ .callable → a.name ≠ b.name

/-- Callables of one name have distinct parameter lists. -/
def DistinctOverloads (ms : List Member) : Prop :=
  ms.Pairwise fun a b => a.nameClass = .callable → b.nameClass = .callable →
    a.name = b.name → a.signature ≠ b.signature

instance : DecidablePred NoClash :=
  fun ms => inferInstanceAs (Decidable (∀ a ∈ ms, ∀ b ∈ ms, a.clashesWith b = false))

instance : DecidablePred DistinctNames :=
  fun _ => inferInstanceAs (Decidable (List.Pairwise _ _))

instance : DecidablePred DistinctOverloads :=
  fun _ => inferInstanceAs (Decidable (List.Pairwise _ _))

/-- Distinct keys are distinct names outside the callables, and distinct parameter lists among the
callables of one name. -/
lemma nodup_keys_iff {ms : List Member} :
    (ms.map Member.key).Nodup ↔ DistinctNames ms ∧ DistinctOverloads ms := by
  rw [List.Nodup, List.pairwise_map, DistinctNames, DistinctOverloads, ← List.pairwise_and_iff]
  apply List.Pairwise.iff
  intro a b
  constructor
  · intro hne
    constructor
    · intro hk hc hn
      have hb : b.nameClass ≠ .callable := hk ▸ hc
      apply hne
      rw [Member.key_eq_iff, Member.signature_of_not_callable hc,
        Member.signature_of_not_callable hb]
      exact ⟨hn, hk, rfl⟩
    · intro ha hb hn hs
      exact hne (Member.key_eq_iff.mpr ⟨hn, ha.trans hb.symm, hs⟩)
  · rintro ⟨hnames, hoverloads⟩ he
    obtain ⟨hn, hk, hs⟩ := Member.key_eq_iff.mp he
    by_cases hc : a.nameClass = .callable
    · exact hoverloads hc (hk ▸ hc) hn hs
    · exact hnames hk hc hn

/-- Nested types are one of the classes within which names are distinct. -/
lemma DistinctNames.distinctNested {ms : List Member} (h : DistinctNames ms) :
    DistinctNested ms := by
  rw [DistinctNested, List.Nodup, List.pairwise_map, nestedTypes, List.pairwise_filterMap]
  refine List.Pairwise.imp ?_ h
  intro a b hab x hx y hy
  cases a with
  | plain => cases hx
  | nested h t inner =>
    cases b with
    | plain => cases hy
    | nested h' t' inner' =>
      cases hx
      cases hy
      exact hab rfl (by simp [Member.nameClass])

/-- With distinct names a member that is not callable matches none but itself. -/
lemma DistinctNames.eq_of_isMatchFor {ms : List Member} (h : DistinctNames ms) {e g : Member}
    (he : e ∈ ms) (hg : g ∈ ms) (hc : g.nameClass ≠ .callable) (hm : e.isMatchFor g = true) :
    e = g := by
  obtain ⟨hn, hk, -⟩ := Member.isMatchFor_iff.mp hm
  have hsymm : Std.Symm fun a b : Member =>
      a.nameClass = b.nameClass → a.nameClass ≠ .callable → a.name ≠ b.name := by
    constructor
    intro a b hab hba hb hn
    exact hab hba.symm (hba ▸ hb) hn.symm
  by_contra hne
  exact List.Pairwise.forall h he hg hne hk (hk ▸ hc) hn

namespace Merge

/-! ### What a step does to keys -/

/-- What bringing `g` to the place of `e` may leave there. -/
structure Updates (e g e' : Member) : Prop where
  isMatchFor : e.isMatchFor e' = true
  key_of_generated : e.isGenerated = true → e'.key = g.key
  key_of_hand_written : e.isGenerated = false → e'.key = e.key
  isGenerated_of_hand_written : e.isGenerated = false → e'.isGenerated = false

lemma Updates.name_eq {e g e' : Member} (h : Updates e g e') : e'.name = e.name :=
  (Member.isMatchFor_iff.mp h.isMatchFor).1.symm

lemma Updates.nameClass_eq {e g e' : Member} (h : Updates e g e') :
    e'.nameClass = e.nameClass :=
  (Member.isMatchFor_iff.mp h.isMatchFor).2.1.symm

/-- Renewing a member gives it the key of the generated one, unless it is hand-written. -/
lemma updates_renewed {e g : Member} (he : e.isMatchFor g = true) : Updates e g (renewed e g) where
  isMatchFor := isMatchFor_renewed he
  key_of_generated := by
    intro hg
    rw [renewed_of_isGenerated hg]
    exact Member.key_withHead (name_replacement _ _)
  key_of_hand_written := by
    intro hg
    rw [renewed_of_not_isGenerated hg]
  isGenerated_of_hand_written := by
    intro hg
    rwa [renewed_of_not_isGenerated hg]

/-- A nested type keeps its head; since names decide between nested types, its key is that of the
generated one as well. -/
lemma updates_nested {oh : MemberHead} {ot : TypeHeader} {old new : List Member} {g : Member}
    (he : (Member.nested oh ot old).isMatchFor g = true) :
    Updates (.nested oh ot old) g (.nested oh ot new) where
  isMatchFor := Member.nested_isMatchFor_nested_iff.mpr rfl
  key_of_generated := by
    intro _
    cases g with
    | plain => simp at he
    | nested h t ms =>
      rw [Member.nested_isMatchFor_nested_iff] at he
      simp [he]
  key_of_hand_written := fun _ => rfl
  isGenerated_of_hand_written := fun h => h

/-- All that a step can do, as far as keys go. -/
theorem Step.append_or_update {target target' : List Member} {g : Member}
    (hs : Step target g target') :
    ((∀ m ∈ target, m.isMatchFor g = false) ∧
        (∀ m ∈ target, m.clashesWith g = true → m.isGenerated = true) ∧ target' = target ++ [g]) ∨
      ∃ before e e' after, target = before ++ e :: after ∧ target' = before ++ e' :: after ∧
        (∀ m ∈ before, m.isMatchFor g = false) ∧ e.isMatchFor g = true ∧ Updates e g e' := by
  cases hs with
  | append hm hc => exact .inl ⟨hm, hc, rfl⟩
  | renew hb he => exact .inr ⟨_, _, _, _, rfl, rfl, hb, he, updates_renewed he⟩
  | descend hb he _ => exact .inr ⟨_, _, _, _, rfl, rfl, hb, he, updates_nested he⟩

/-- A step brings in no key but that of the generated member. -/
lemma Step.key_of_mem {target target' : List Member} {g m' : Member} (hs : Step target g target')
    (hm' : m' ∈ target') :
    (∃ m ∈ target, m.key = m'.key ∧ m.isGenerated = m'.isGenerated) ∨ g.key = m'.key := by
  rcases hs.append_or_update with ⟨-, -, rfl⟩ | ⟨before, e, e', after, rfl, rfl, -, -, hu⟩
  · rcases List.mem_append.mp hm' with hm | hm
    · exact .inl ⟨m', hm, rfl, rfl⟩
    · obtain rfl := List.mem_singleton.mp hm
      exact .inr rfl
  · by_cases he : m' = e'
    · subst he
      by_cases hg : e.isGenerated = true
      · exact .inr (hu.key_of_generated hg).symm
      · have hg : e.isGenerated = false := by simpa using hg
        refine .inl ⟨e, by simp, (hu.key_of_hand_written hg).symm, ?_⟩
        rw [hg, hu.isGenerated_of_hand_written hg]
    · have hrest := (Member.mem_append_cons_iff.mp hm').resolve_left he
      exact .inl ⟨m', Member.mem_append_cons_iff.mpr (.inr hrest), rfl, rfl⟩

/-- The keys after a run are old ones and keys of generated members. -/
lemma Steps.key_of_mem {target source grown : List Member} {m' : Member}
    (hs : Steps target source grown) (hm' : m' ∈ grown) :
    (∃ m ∈ target, m.key = m'.key ∧ m.isGenerated = m'.isGenerated) ∨
      ∃ g ∈ source, g.key = m'.key := by
  induction source generalizing target with
  | nil =>
    cases hs
    exact .inl ⟨m', hm', rfl, rfl⟩
  | cons g gs ih =>
    cases hs with
    | cons h hs =>
      rcases ih hs with ⟨m, hm, hk, hg⟩ | ⟨d, hd, hk⟩
      · rcases h.key_of_mem hm with ⟨l, hl, hlk, hlg⟩ | hgk
        · exact .inl ⟨l, hl, hlk.trans hk, hlg.trans hg⟩
        · exact .inr ⟨g, List.mem_cons_self, hgk.trans hk⟩
      · exact .inr ⟨d, List.mem_cons_of_mem _ hd, hk⟩

lemma Merges.key_of_mem {target source merged : List Member} {m' : Member}
    (h : Merges target source merged) (hm' : m' ∈ merged) :
    (∃ m ∈ target, m.key = m'.key ∧ m.isGenerated = m'.isGenerated) ∨
      ∃ g ∈ source, g.key = m'.key := by
  obtain ⟨grown, hs, rfl⟩ := h
  exact hs.key_of_mem (List.mem_filter.mp hm').1

/-- A hand-written member keeps its key and stays hand-written. -/
lemma Step.hand_written {target target' : List Member} {g m : Member} (hs : Step target g target')
    (hm : m ∈ target) (hg : m.isGenerated = false) :
    ∃ m' ∈ target', m'.key = m.key ∧ m'.isGenerated = false := by
  rcases hs.append_or_update with ⟨-, -, rfl⟩ | ⟨before, e, e', after, rfl, rfl, -, -, hu⟩
  · exact ⟨m, List.mem_append_left _ hm, rfl, hg⟩
  · by_cases he : m = e
    · subst he
      exact ⟨e', by simp, hu.key_of_hand_written hg, hu.isGenerated_of_hand_written hg⟩
    · have hrest := (Member.mem_append_cons_iff.mp hm).resolve_left he
      exact ⟨m, Member.mem_append_cons_iff.mpr (.inr hrest), rfl, hg⟩

end Merge

end Graft
