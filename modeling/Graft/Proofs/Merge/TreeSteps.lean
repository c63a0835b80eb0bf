import Mathlib.Data.List.Nodup
import Graft.Proofs.Merge.Steps

/-!
# What a merge of trees can do

Types and namespaces are brought into a list by name: the first one of the name is joined with the
generated one, and where there is none the generated one is appended. `KeyedStep` is this pattern
for any kind of declaration with a name. The successful runs of `bringType`, `bringNamespace` and
`mergeTrees` are instances of it.
-/

namespace Graft.Merge

/-! ### Lists with keys -/

section Keyed

variable {α κ : Type} (key : α → κ) (Joins : α → α → α → Prop)

/-- Bringing `g` into a list: into the first element with its key, or to the end. -/
inductive KeyedStep : List α → α → List α → Prop where
  | append (g : α) : KeyedStep [] g [g]
  | join {a g a' : α} {as : List α} (hk : key a = key g) (hj : Joins a g a') :
      KeyedStep (a :: as) g (a' :: as)
  | pass {a g : α} {as as' : List α} (hk : key a ≠ key g) (hs : KeyedStep as g as') :
      KeyedStep (a :: as) g (a :: as')

/-- Bringing several elements into a list, in order. -/
inductive KeyedSteps : List α → List α → List α → Prop where
  | nil (target : List α) : KeyedSteps target [] target
  | cons {target middle grown source : List α} {g : α} (h : KeyedStep key Joins target g middle)
      (hs : KeyedSteps middle source grown) : KeyedSteps target (g :: source) grown

variable {key Joins}

/-- Where keys are distinct, an element shares its own with none before and none behind it. -/
lemma not_mem_keys_of_nodup {before after : List α} {a : α}
    (h : ((before ++ a :: after).map key).Nodup) :
    key a ∉ before.map key ∧ key a ∉ after.map key := by
  rw [List.map_append, List.map_cons, List.nodup_middle, List.nodup_cons, List.mem_append,
    not_or] at h
  exact h.1

lemma keyedStep_nil_iff {g : α} {as : List α} : KeyedStep key Joins [] g as ↔ [g] = as := by
  constructor
  · intro h
    cases h
    rfl
  · rintro rfl
    exact .append g

lemma keyedStep_cons_of_eq {a g : α} {as bs : List α} (hk : key a = key g) :
    KeyedStep key Joins (a :: as) g bs ↔ ∃ a', Joins a g a' ∧ a' :: as = bs := by
  constructor
  · intro h
    cases h with
    | join _ hj => exact ⟨_, hj, rfl⟩
    | pass hne _ => exact absurd hk hne
  · rintro ⟨a', hj, rfl⟩
    exact .join hk hj

lemma keyedStep_cons_of_ne {a g : α} {as bs : List α} (hk : key a ≠ key g) :
    KeyedStep key Joins (a :: as) g bs ↔ ∃ as', KeyedStep key Joins as g as' ∧ a :: as' = bs := by
  constructor
  · intro h
    cases h with
    | join he _ => exact absurd he hk
    | pass _ hs => exact ⟨_, hs, rfl⟩
  · rintro ⟨as', hs, rfl⟩
    exact .pass hk hs

/-- Elements with other keys are passed. -/
lemma KeyedStep.append_left {before target target' : List α} {g : α}
    (hb : ∀ a ∈ before, key a ≠ key g) (h : KeyedStep key Joins target g target') :
    KeyedStep key Joins (before ++ target) g (before ++ target') := by
  induction before with
  | nil => exact h
  | cons a as ih =>
    exact .pass (hb a List.mem_cons_self) (ih fun b hb' => hb b (List.mem_cons_of_mem _ hb'))

lemma keyedSteps_nil_iff {target grown : List α} :
    KeyedSteps key Joins target [] grown ↔ target = grown := by
  constructor
  · intro h
    cases h
    rfl
  · rintro rfl
    exact .nil target

lemma keyedSteps_cons_iff {target source grown : List α} {g : α} :
    KeyedSteps key Joins target (g :: source) grown ↔
      ∃ middle, KeyedStep key Joins target g middle ∧ KeyedSteps key Joins middle source grown := by
  constructor
  · intro h
    cases h with
    | cons h hs => exact ⟨_, h, hs⟩
  · rintro ⟨middle, h, hs⟩
    exact .cons h hs

/-! #### Distinct keys -/

/-- A step adds at most the generated key, and only where it was missing. -/
lemma KeyedStep.nodup_keys (hJ : ∀ a g a', Joins a g a' → key a' = key a)
    {target target' : List α} {g : α} (hn : (target.map key).Nodup)
    (h : KeyedStep key Joins target g target') :
    (target'.map key).Nodup ∧ ∀ k ∈ target'.map key, k ∈ target.map key ∨ k = key g := by
  induction h with
  | append g => simp
  | join hk hj =>
    rw [List.map_cons, hJ _ _ _ hj, ← List.map_cons]
    exact ⟨hn, fun k hk' => .inl hk'⟩
  | pass hne _ ih =>
    rw [List.map_cons, List.nodup_cons] at hn
    obtain ⟨hnd, hkeys⟩ := ih hn.2
    rw [List.map_cons, List.nodup_cons]
    refine ⟨⟨fun ha => ?_, hnd⟩, fun k hk => ?_⟩
    · rcases hkeys _ ha with ha | ha
      · exact hn.1 ha
      · exact hne ha
    · rcases List.mem_cons.mp hk with rfl | hk
      · exact .inl List.mem_cons_self
      · rcases hkeys k hk with hk | hk
        · exact .inl (List.mem_cons_of_mem _ hk)
        · exact .inr hk

lemma KeyedSteps.nodup_keys (hJ : ∀ a g a', Joins a g a' → key a' = key a)
    {target grown source : List α} (hn : (target.map key).Nodup)
    (h : KeyedSteps key Joins target source grown) : (grown.map key).Nodup := by
  induction h with
  | nil target => exact hn
  | cons h _ ih => exact ih (h.nodup_keys hJ hn).1

/-! #### Where elements come from -/

lemma KeyedStep.mem_cases {target target' : List α} {g a' : α}
    (h : KeyedStep key Joins target g target') (ha' : a' ∈ target') :
    a' ∈ target ∨ a' = g ∨ ∃ a ∈ target, key a = key g ∧ Joins a g a' := by
  induction h with
  | append g => exact .inr (.inl (List.mem_singleton.mp ha'))
  | join hk hj =>
    rcases List.mem_cons.mp ha' with rfl | ha'
    · exact .inr (.inr ⟨_, List.mem_cons_self, hk, hj⟩)
    · exact .inl (List.mem_cons_of_mem _ ha')
  | pass _ _ ih =>
    rcases List.mem_cons.mp ha' with rfl | ha'
    · exact .inl List.mem_cons_self
    · rcases ih ha' with ha | rfl | ⟨a, ha, hk, hj⟩
      · exact .inl (List.mem_cons_of_mem _ ha)
      · exact .inr (.inl rfl)
      · exact .inr (.inr ⟨a, List.mem_cons_of_mem _ ha, hk, hj⟩)

/-- When the generated keys are distinct, each element is an old one, a generated one, or an old
one joined once with a generated one. -/
theorem KeyedSteps.mem_cases (hJ : ∀ a g a', Joins a g a' → key a' = key a)
    {target grown source : List α} (hn : (source.map key).Nodup)
    (h : KeyedSteps key Joins target source grown) {a' : α} (ha' : a' ∈ grown) :
    a' ∈ target ∨ a' ∈ source ∨
      ∃ a ∈ target, ∃ g ∈ source, key a = key g ∧ Joins a g a' := by
  induction h with
  | nil target => exact .inl ha'
  | @cons target middle grown source g h _ ih =>
    rw [List.map_cons, List.nodup_cons] at hn
    rcases ih hn.2 ha' with hm | hs | ⟨a, ha, d, hd, hk, hj⟩
    · rcases h.mem_cases hm with ht | rfl | ⟨a, ha, hk, hj⟩
      · exact .inl ht
      · exact .inr (.inl List.mem_cons_self)
      · exact .inr (.inr ⟨a, ha, g, List.mem_cons_self, hk, hj⟩)
    · exact .inr (.inl (List.mem_cons_of_mem _ hs))
    · -- what `g` was joined with has its key, so it is joined with no later one
      have hne : key a ≠ key g := fun he => hn.1 (he ▸ hk ▸ List.mem_map_of_mem hd)
      rcases h.mem_cases ha with ht | rfl | ⟨b, -, hb, hbj⟩
      · exact .inr (.inr ⟨a, ht, d, List.mem_cons_of_mem _ hd, hk, hj⟩)
      · exact absurd rfl hne
      · exact absurd ((hJ _ _ _ hbj).trans hb) hne

/-- What joining two elements passes on to the joined one holds of all elements. -/
theorem KeyedSteps.forall_mem {P : α → Prop} (hP : ∀ a g a', P a → P g → Joins a g a' → P a')
    {target grown source : List α} (h : KeyedSteps key Joins target source grown)
    (ht : ∀ a ∈ target, P a) (hs : ∀ g ∈ source, P g) : ∀ a ∈ grown, P a := by
  induction h with
  | nil target => exact ht
  | @cons target middle grown source g h _ ih =>
    rw [List.forall_mem_cons] at hs
    refine ih ?_ hs.2
    intro a' ha'
    rcases h.mem_cases ha' with ha | rfl | ⟨a, ha, -, hj⟩
    · exact ht a' ha
    · exact hs.1
    · exact hP a g a' (ht a ha) hs.1 hj

/-! #### What is found by a key -/

variable [DecidableEq κ]

/-- In a list with distinct keys each element is found under its key. -/
lemma find?_key_of_mem {as : List α} (hn : (as.map key).Nodup) {a : α} (ha : a ∈ as) :
    as.find? (key · = key a) = some a := by
  induction as with
  | nil => cases ha
  | cons b bs ih =>
    rw [List.map_cons, List.nodup_cons] at hn
    rcases List.mem_cons.mp ha with rfl | ha
    · simp
    · have hne : key b ≠ key a := fun he => hn.1 (he ▸ List.mem_map_of_mem ha)
      simpa [hne] using ih hn.2 ha

/-- A step does not change what is found under another key. -/
lemma KeyedStep.find?_of_ne (hJ : ∀ a g a', Joins a g a' → key a' = key a)
    {target target' : List α} {g : α} {k : κ} (hk : key g ≠ k)
    (h : KeyedStep key Joins target g target') :
    target'.find? (key · = k) = target.find? (key · = k) := by
  induction h with
  | append g => simp [hk]
  | join he hj => simp [hJ _ _ _ hj, he, hk]
  | pass _ _ ih => simp only [List.find?_cons, ih hk]

/-- Under its own key a step leaves the generated element, or what it was joined with. -/
lemma KeyedStep.find?_self (hJ : ∀ a g a', Joins a g a' → key a' = key a)
    {target target' : List α} {g : α} (h : KeyedStep key Joins target g target') :
    (target.find? (key · = key g) = none ∧ target'.find? (key · = key g) = some g) ∨
      ∃ a a', target.find? (key · = key g) = some a ∧ Joins a g a' ∧
        target'.find? (key · = key g) = some a' := by
  induction h with
  | append g => left; simp
  | join he hj => right; exact ⟨_, _, by simp [he], hj, by simp [hJ _ _ _ hj, he]⟩
  | pass hne _ ih => simpa [hne] using ih

lemma KeyedSteps.find?_of_not_mem (hJ : ∀ a g a', Joins a g a' → key a' = key a)
    {target grown source : List α} {k : κ} (hk : k ∉ source.map key)
    (h : KeyedSteps key Joins target source grown) :
    grown.find? (key · = k) = target.find? (key · = k) := by
  induction h with
  | nil target => rfl
  | cons h _ ih =>
    rw [List.map_cons, List.mem_cons, not_or] at hk
    rw [ih hk.2, h.find?_of_ne hJ (Ne.symm hk.1)]

/-- When the generated keys are distinct, each generated element is brought in by one step. -/
theorem KeyedSteps.find?_of_mem (hJ : ∀ a g a', Joins a g a' → key a' = key a)
    {target grown source : List α} (hn : (source.map key).Nodup) {g : α} (hg : g ∈ source)
    (h : KeyedSteps key Joins target source grown) :
    (target.find? (key · = key g) = none ∧ grown.find? (key · = key g) = some g) ∨
      ∃ a a', target.find? (key · = key g) = some a ∧ Joins a g a' ∧
        grown.find? (key · = key g) = some a' := by
  induction h with
  | nil target => cases hg
  | @cons target middle grown source g' h hs ih =>
    rw [List.map_cons, List.nodup_cons] at hn
    rcases List.mem_cons.mp hg with rfl | hg
    · rw [hs.find?_of_not_mem hJ hn.1]
      exact h.find?_self hJ
    · have hne : key g' ≠ key g := fun he => hn.1 (he ▸ List.mem_map_of_mem hg)
      rw [← h.find?_of_ne hJ hne]
      exact ih hn.2 hg

/-- When keys are distinct, the element under a key is joined with the generated one. -/
theorem KeyedSteps.joins_of_mem (hJ : ∀ a g a', Joins a g a' → key a' = key a)
    {target grown source : List α} (ht : (target.map key).Nodup) (hs : (source.map key).Nodup)
    (h : KeyedSteps key Joins target source grown) {a g a' : α} (ha : a ∈ target)
    (hg : g ∈ source) (ha' : a' ∈ grown) (hag : key a = key g) (hk : key a' = key a) :
    Joins a g a' := by
  have hfa := find?_key_of_mem ht ha
  have hfa' := find?_key_of_mem (h.nodup_keys hJ ht) ha'
  rw [hk, hag] at hfa'
  rw [hag] at hfa
  obtain ⟨hn, -⟩ | ⟨b, b', hb, hj, hb'⟩ := h.find?_of_mem hJ hs hg
  · rw [hn] at hfa
    cases hfa
  · rw [hfa, Option.some.injEq] at hb
    rw [hfa', Option.some.injEq] at hb'
    rwa [hb, hb']

/-- When keys are distinct, two elements of one key are joined. -/
theorem KeyedSteps.exists_joins (hJ : ∀ a g a', Joins a g a' → key a' = key a)
    {target grown source : List α} (ht : (target.map key).Nodup) (hs : (source.map key).Nodup)
    (h : KeyedSteps key Joins target source grown) {a g : α} (ha : a ∈ target)
    (hg : g ∈ source) (hag : key a = key g) : ∃ a', Joins a g a' := by
  have hfa := find?_key_of_mem ht ha
  rw [hag] at hfa
  obtain ⟨hn, -⟩ | ⟨b, b', hb, hj, -⟩ := h.find?_of_mem hJ hs hg
  · rw [hn] at hfa
    cases hfa
  · rw [hfa, Option.some.injEq] at hb
    exact ⟨b', hb ▸ hj⟩

/-- When keys are distinct, the element under a key that is not generated stays. -/
theorem KeyedSteps.eq_of_mem (hJ : ∀ a g a', Joins a g a' → key a' = key a)
    {target grown source : List α} (ht : (target.map key).Nodup)
    (h : KeyedSteps key Joins target source grown) {a a' : α} (ha : a ∈ target)
    (ha' : a' ∈ grown) (hs : key a ∉ source.map key) (hk : key a' = key a) : a' = a := by
  have hfa := find?_key_of_mem ht ha
  have hfa' := find?_key_of_mem (h.nodup_keys hJ ht) ha'
  rw [hk, h.find?_of_not_mem hJ hs, hfa, Option.some.injEq] at hfa'
  exact hfa'.symm

end Keyed

/-! ### Types, imports, namespaces -/

/-- Joining two types: the members are merged, the header stays. -/
def JoinsType (old incoming new : TypeDecl) : Prop :=
  ∃ members, Merges old.members incoming.members members ∧ new = { old with members }

/-- A list of imports with the ones it lacks at the end, each once. -/
def withImports (target : List String) : List String → List String
  | [] => target
  | i :: is => if i ∈ target then withImports target is else withImports (target ++ [i]) is

/-- Joining two namespaces: imports and types are brought in, everything else stays. -/
def JoinsNamespace (old incoming new : Namespace) : Prop :=
  ∃ types, KeyedSteps (·.header.name) JoinsType old.types incoming.types types ∧
    new = { old with imports := withImports old.imports incoming.imports, types }

lemma JoinsType.name_eq {old g new : TypeDecl} (h : JoinsType old g new) :
    new.header.name = old.header.name := by
  obtain ⟨members, -, rfl⟩ := h
  rfl

lemma JoinsNamespace.name_eq {old g new : Namespace} (h : JoinsNamespace old g new) :
    new.name = old.name := by
  obtain ⟨types, -, rfl⟩ := h
  rfl

lemma prefix_withImports (target imports : List String) :
    target <+: withImports target imports := by
  induction imports generalizing target with
  | nil => exact List.prefix_refl target
  | cons i is ih =>
    unfold withImports
    split
    · exact ih target
    · exact (List.prefix_append target [i]).trans (ih (target ++ [i]))

lemma mem_withImports_of_mem {target imports : List String} {i : String} (h : i ∈ imports) :
    i ∈ withImports target imports := by
  induction imports generalizing target with
  | nil => cases h
  | cons j js ih =>
    unfold withImports
    rcases List.mem_cons.mp h with rfl | h
    · split
      · next hi => exact (prefix_withImports target js).subset hi
      · exact (prefix_withImports (target ++ [i]) js).subset (by simp)
    · split <;> exact ih h

/-! ### They are the successful runs -/

theorem bringType_ok_iff {ns : String} {g : TypeDecl} {target target' : List TypeDecl} :
    (bringType ns g target).outcome = .ok target' ↔
      KeyedStep (·.header.name) JoinsType target g target' := by
  induction target generalizing target' with
  | nil => simp [bringType, keyedStep_nil_iff]
  | cons t ts ih =>
    unfold bringType
    split
    · next hn =>
      rw [keyedStep_cons_of_eq (a := t) (g := g) hn]
      simp only [Traced.outcome_bind_eq_ok_iff, mergeMembers_ok_iff, Traced.outcome_pure,
        Except.ok.injEq, JoinsType]
      constructor
      · rintro ⟨members, hm, rfl⟩
        exact ⟨_, ⟨members, hm, rfl⟩, rfl⟩
      · rintro ⟨_, ⟨members, hm, rfl⟩, rfl⟩
        exact ⟨members, hm, rfl⟩
    · next hn =>
      rw [keyedStep_cons_of_ne (a := t) (g := g) hn]
      simp only [Traced.outcome_bind_eq_ok_iff, ih, Traced.outcome_pure, Except.ok.injEq]

theorem bringTypes_ok_iff {ns : String} {source target grown : List TypeDecl} :
    (bringTypes ns target source).outcome = .ok grown ↔
      KeyedSteps (·.header.name) JoinsType target source grown := by
  induction source generalizing target with
  | nil => simp [bringTypes, keyedSteps_nil_iff]
  | cons t ts ih =>
    rw [keyedSteps_cons_iff]
    simp only [bringTypes, Traced.outcome_bind_eq_ok_iff, bringType_ok_iff, ih]

@[simp] lemma outcome_bringImports (ns : String) (target imports : List String) :
    (bringImports ns target imports).outcome = .ok (withImports target imports) := by
  induction imports generalizing target with
  | nil => rfl
  | cons i is ih =>
    unfold bringImports withImports
    split
    · exact ih target
    · exact ih (target ++ [i])

theorem bringNamespace_ok_iff {g : Namespace} {target target' : List Namespace} :
    (bringNamespace g target).outcome = .ok target' ↔
      KeyedStep (·.name) JoinsNamespace target g target' := by
  induction target generalizing target' with
  | nil => simp [bringNamespace, keyedStep_nil_iff]
  | cons ns rest ih =>
    unfold bringNamespace
    split
    · next hn =>
      rw [keyedStep_cons_of_eq (a := ns) (g := g) hn]
      simp only [Traced.outcome_bind_eq_ok_iff, outcome_bringImports, bringTypes_ok_iff,
        Traced.outcome_pure, Except.ok.injEq, exists_eq_left', JoinsNamespace]
      constructor
      · rintro ⟨types, ht, rfl⟩
        exact ⟨_, ⟨types, ht, rfl⟩, rfl⟩
      · rintro ⟨_, ⟨types, ht, rfl⟩, rfl⟩
        exact ⟨types, ht, rfl⟩
    · next hn =>
      rw [keyedStep_cons_of_ne (a := ns) (g := g) hn]
      simp only [Traced.outcome_bind_eq_ok_iff, ih, Traced.outcome_pure, Except.ok.injEq]

theorem bringNamespaces_ok_iff {source target grown : List Namespace} :
    (bringNamespaces target source).outcome = .ok grown ↔
      KeyedSteps (·.name) JoinsNamespace target source grown := by
  induction source generalizing target with
  | nil => simp [bringNamespaces, keyedSteps_nil_iff]
  | cons ns rest ih =>
    rw [keyedSteps_cons_iff]
    simp only [bringNamespaces, Traced.outcome_bind_eq_ok_iff, bringNamespace_ok_iff, ih]

theorem mergeTrees_ok_iff {existing generated merged : DeclarationTree} :
    (mergeTrees existing generated).outcome = .ok merged ↔
      KeyedSteps (·.name) JoinsNamespace existing.namespaces generated.namespaces
        merged.namespaces := by
  simp only [mergeTrees, Traced.outcome_bind_eq_ok_iff, bringNamespaces_ok_iff,
    Traced.outcome_pure, Except.ok.injEq]
  constructor
  · rintro ⟨namespaces, h, rfl⟩
    exact h
  · intro h
    exact ⟨_, h, rfl⟩

end Graft.Merge
