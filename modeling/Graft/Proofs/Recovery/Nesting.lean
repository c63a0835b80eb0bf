import Graft.Proofs.ParsedSource.Accepted
import Graft.Proofs.Recovery.Places

/-!
# Extents of different members

Validation keeps the extents of one type apart, but it does not compare types with each other: that
the extents of a whole tree are well nested is left to the annotations of types, namespaces and
nested types. `extents_wellNested_iff` says what these have to fulfil.
-/

namespace Graft

/-! ### Lines of an extent -/

namespace Extent

/-- The line is one of the extent's. -/
def Holds (x : Extent) (n : Nat) : Prop :=
  x.start ≤ n ∧ n < x.stop

instance (x : Extent) (n : Nat) : Decidable (x.Holds n) :=
  inferInstanceAs (Decidable (_ ∧ _))

/-- All lines of the first extent are lines of the second one. -/
def Within (x y : Extent) : Prop :=
  ∀ n, x.Holds n → y.Holds n

/-- The two extents have no line in common. -/
def Apart (x y : Extent) : Prop :=
  ∀ n, x.Holds n → ¬ y.Holds n

lemma Within.trans {x y z : Extent} (h : x.Within y) (h' : y.Within z) : x.Within z :=
  fun n hn => h' n (h n hn)

lemma Apart.symm {x y : Extent} (h : x.Apart y) : y.Apart x :=
  fun n hy hx => h n hx hy

/-- Extents inside of extents that are apart are apart as well. -/
lemma Apart.mono {x y x' y' : Extent} (h : x.Apart y) (hx : x'.Within x) (hy : y'.Within y) :
    x'.Apart y' :=
  fun n hn hn' => h n (hx n hn) (hy n hn')

/-- An extent that stops before another starts is apart from it. -/
lemma apart_of_le {x y : Extent} (h : x.stop ≤ y.start) : x.Apart y := by
  intro n hx hy
  exact absurd hx.2 (Nat.not_lt.mpr (Nat.le_trans h hy.1))

end Extent

/-- The line before which the text of the type ends. -/
def TypeEnd.stop : TypeEnd → Nat
  | .onLine line => line
  | .before stop _ => stop

namespace Recovery

/-- An extent stops at the next start, or where the type does. -/
lemma stop_extentAt (bound : TypeEnd) (start : Nat) (next : Option Nat) :
    (extentAt bound start next).stop = next.getD bound.stop := by
  cases next with
  | some n => rfl
  | none => cases bound <;> rfl

/-! ### Members of one type -/

/-- The line is one of those from the first member of a type to its end. -/
def Spans (bound : TypeEnd) (ms : List Member) (n : Nat) : Prop :=
  ∃ first ∈ (startsOf ms).head?, ∃ last ∈ (startsOf ms).getLast?,
    first ≤ n ∧ n < max last bound.stop

lemma start_mem_startsOf {bound : TypeEnd} {ms : List Member} {i : Nat} {m : Member} {x : Extent}
    (h : located? bound ms i = some (m, x)) : x.start ∈ startsOf ms := by
  induction ms generalizing i with
  | nil => simp [located?] at h
  | cons k ms ih =>
    cases i with
    | zero =>
      obtain ⟨rfl, n, hn, rfl⟩ := eq_located_of_zero h
      simp [startsOf_cons_of_eq_some hn]
    | succ i =>
      rw [located?_succ] at h
      exact List.mem_filterMap.mpr <| by
        obtain ⟨k', hk, hs⟩ := List.mem_filterMap.mp (ih h)
        exact ⟨k', List.mem_cons_of_mem _ hk, hs⟩

/-- A member ends before the next one with a line starts. -/
lemma stop_le_start {bound : TypeEnd} {ms : List Member} (hs : (startsOf ms).Pairwise (· < ·))
    {i j : Nat} (hij : i < j) {m k : Member} {x y : Extent}
    (hx : located? bound ms i = some (m, x)) (hy : located? bound ms j = some (k, y)) :
    x.stop ≤ y.start := by
  induction ms generalizing i j with
  | nil => simp [located?] at hx
  | cons m' ms ih =>
    obtain ⟨j, rfl⟩ := Nat.exists_eq_succ_of_ne_zero (Nat.ne_zero_of_lt hij)
    rw [located?_succ] at hy
    cases i with
    | zero =>
      obtain ⟨rfl, n, hn, rfl⟩ := eq_located_of_zero hx
      have hmem := start_mem_startsOf hy
      rw [startsOf_cons_of_eq_some hn] at hs
      rw [stop_extentAt]
      cases hrest : startsOf ms with
      | nil => simp [hrest] at hmem
      | cons first rest =>
        rw [hrest] at hmem hs
        rcases List.mem_cons.mp hmem with h | h
        · exact Nat.le_of_eq h.symm
        · exact Nat.le_of_lt ((List.pairwise_cons.mp hs.of_cons).1 _ h)
    | succ i =>
      rw [located?_succ] at hx
      have hs' : (startsOf ms).Pairwise (· < ·) := by
        cases hn : m'.firstLine? with
        | none => rwa [startsOf_cons_of_eq_none hn] at hs
        | some n =>
          rw [startsOf_cons_of_eq_some hn] at hs
          exact hs.of_cons
      exact ih hs' (Nat.lt_of_succ_lt_succ hij) hx hy

/-- Two members of one type have no line in common. -/
theorem apart_of_ne {bound : TypeEnd} {ms : List Member} (hs : (startsOf ms).Pairwise (· < ·))
    {i j : Nat} (hij : i ≠ j) {m k : Member} {x y : Extent}
    (hx : located? bound ms i = some (m, x)) (hy : located? bound ms j = some (k, y)) :
    x.Apart y := by
  rcases Nat.lt_or_gt_of_ne hij with h | h
  · exact Extent.apart_of_le (stop_le_start hs h hx hy)
  · exact (Extent.apart_of_le (stop_le_start hs h hy hx)).symm

/-- The span of a list is the first extent and the span of the rest. -/
lemma spans_cons {bound : TypeEnd} {m : Member} {ms : List Member} {start : Nat}
    (hm : m.firstLine? = some start) (hs : (startsOf (m :: ms)).Pairwise (· < ·)) {n : Nat} :
    Spans bound (m :: ms) n ↔
      (extentAt bound start (startsOf ms).head?).Holds n ∨ Spans bound ms n := by
  rw [startsOf_cons_of_eq_some hm] at hs
  rw [Spans, Spans, Extent.Holds, start_extentAt, stop_extentAt, startsOf_cons_of_eq_some hm]
  cases hrest : startsOf ms with
  | nil =>
    simp only [List.head?_cons, List.getLast?_singleton, List.head?_nil, List.getLast?_nil,
      Option.mem_def, Option.some.injEq, exists_eq_left', Option.getD_none, reduceCtorEq,
      false_and, exists_false, or_false]
    omega
  | cons first rest =>
    rw [hrest] at hs
    have hfirst : start < first := (List.pairwise_cons.mp hs).1 first (by simp)
    have hlast : first ≤ (first :: rest).getLast (by simp) := by
      rcases List.mem_cons.mp (List.getLast_mem (List.cons_ne_nil first rest)) with h | h
      · exact Nat.le_of_eq h.symm
      · exact Nat.le_of_lt ((List.pairwise_cons.mp hs.of_cons).1 _ h)
    simp only [List.head?_cons, List.getLast?_eq_some_getLast (List.cons_ne_nil _ _),
      List.getLast_cons (List.cons_ne_nil first rest), Option.mem_def, Option.some.injEq,
      exists_eq_left', Option.getD_some]
    omega

/-- A located member is the first one, or one of the rest. -/
lemma exists_located_cons {bound : TypeEnd} {m : Member} {ms : List Member} {P : Extent → Prop} :
    (∃ i k x, located? bound (m :: ms) i = some (k, x) ∧ P x) ↔
      (∃ start, m.firstLine? = some start ∧ P (extentAt bound start (startsOf ms).head?)) ∨
        ∃ i k x, located? bound ms i = some (k, x) ∧ P x := by
  constructor
  · rintro ⟨i, k, x, hi, hx⟩
    cases i with
    | zero =>
      obtain ⟨rfl, start, hn, rfl⟩ := eq_located_of_zero hi
      exact .inl ⟨start, hn, hx⟩
    | succ i => exact .inr ⟨i, k, x, located?_succ bound m ms i ▸ hi, hx⟩
  · rintro (⟨start, hn, hx⟩ | ⟨i, k, x, hi, hx⟩)
    · exact ⟨0, m, _, located?_zero hn bound ms, hx⟩
    · exact ⟨i + 1, k, x, (located?_succ bound m ms i).trans hi, hx⟩

/-- The members of a type take all lines from the first one to the end. -/
theorem spans_iff {bound : TypeEnd} {ms : List Member} (hs : (startsOf ms).Pairwise (· < ·))
    {n : Nat} : Spans bound ms n ↔ ∃ i m x, located? bound ms i = some (m, x) ∧ x.Holds n := by
  induction ms with
  | nil => simp [Spans, startsOf, located?]
  | cons m ms ih =>
    rw [exists_located_cons]
    cases hn : m.firstLine? with
    | none =>
      rw [startsOf_cons_of_eq_none hn] at hs
      simp only [Spans, startsOf_cons_of_eq_none hn, reduceCtorEq, false_and, exists_false,
        false_or]
      exact ih hs
    | some start =>
      rw [spans_cons hn hs]
      rw [startsOf_cons_of_eq_some hn] at hs
      simp only [Option.some.injEq, exists_eq_left', ih hs.of_cons]

/-! ### Members at any depth -/

section Accepted

open ParsedSource

variable {d : Document} {bound : TypeEnd} {ms : List Member}

lemma sorted_of_accepted (ha : MembersAccepted d none ms) : (startsOf ms).Pairwise (· < ·) :=
  ha.pairwise_startsOf

/-- A nested type that is read was accepted with its members. -/
lemma accepted_inner {inner : List Member} {i : Nat} {h : MemberHead} {t : TypeHeader} {x : Extent}
    (ha : MembersAccepted d none ms) (hi : located? bound ms i = some (.nested h t inner, x)) :
    MembersAccepted d none inner := by
  obtain ⟨hmem, hline⟩ := mem_of_located hi
  obtain ⟨_, hm⟩ := ha.exists_of_mem hmem
  have hsome : h.firstLine.isSome = true := by
    obtain ⟨n, hn, -⟩ := Option.map_eq_some_iff.mp hline
    simpa using Option.isSome_of_eq_some hn
  exact (hm.2 hsome).2

lemma MemberAt.accepted {inner : List Member} {path : List Nat} {h : MemberHead} {t : TypeHeader}
    {x : Extent} (ha : MembersAccepted d none ms)
    (hp : MemberAt bound ms path (.nested h t inner) x) : MembersAccepted d none inner := by
  generalize hm : Member.nested h t inner = k at hp
  induction hp with
  | here hi =>
    subst hm
    exact accepted_inner ha hi
  | inside hi _ ih => exact ih (accepted_inner ha hi) hm

/-- Two members of one type, at any depth, are read from one accepted list. -/
lemma MemberAt.exists_siblings (ha : MembersAccepted d none ms) {path : List Nat} {i j : Nat}
    {m k : Member} {x y : Extent} (hi : MemberAt bound ms (path ++ [i]) m x)
    (hj : MemberAt bound ms (path ++ [j]) k y) :
    ∃ bound' ms', MembersAccepted d none ms' ∧ located? bound' ms' i = some (m, x) ∧
      located? bound' ms' j = some (k, y) := by
  induction path generalizing bound ms with
  | nil =>
    rcases hi with hi | ⟨_, hi⟩
    · rcases hj with hj | ⟨_, hj⟩
      · exact ⟨bound, ms, ha, hi, hj⟩
      · cases hj
    · cases hi
  | cons o path ih =>
    have hne : ∀ i, path ++ [i] ≠ [] := fun i => by simp
    generalize hp : o :: path ++ [i] = p at hi
    generalize hq : o :: path ++ [j] = q at hj
    cases hi with
    | here _ => exact absurd (List.cons.inj hp).2 (hne i)
    | inside ho hi =>
      cases hj with
      | here _ => exact absurd (List.cons.inj hq).2 (hne j)
      | inside ho' hj =>
        obtain ⟨rfl, rfl⟩ := List.cons.inj hp
        obtain ⟨rfl, rfl⟩ := List.cons.inj hq
        rw [ho] at ho'
        cases ho'
        exact ih (accepted_inner ha ho) hi hj

/-- Two members of one type, at any depth, have no line in common. -/
theorem MemberAt.apart_of_siblings (ha : MembersAccepted d none ms) {path : List Nat} {i j : Nat}
    (hij : i ≠ j) {m k : Member} {x y : Extent} (hi : MemberAt bound ms (path ++ [i]) m x)
    (hj : MemberAt bound ms (path ++ [j]) k y) : x.Apart y := by
  obtain ⟨_, _, ha', hi', hj'⟩ := hi.exists_siblings ha hj
  exact apart_of_ne (sorted_of_accepted ha') hij hi' hj'

/-- Every nested type has its members within the extent of its own. -/
def InnerWithin (bound : TypeEnd) (ms : List Member) : Prop :=
  ∀ path h t inner x, MemberAt bound ms path (.nested h t inner) x →
    ∀ n, Spans (x.innerEnd (t.closingLine.map UInt64.toNat)) inner n → x.Holds n

lemma InnerWithin.inner {inner : List Member} {i : Nat} {h : MemberHead} {t : TypeHeader}
    {x : Extent} (hw : InnerWithin bound ms)
    (hi : located? bound ms i = some (.nested h t inner, x)) :
    InnerWithin (x.innerEnd (t.closingLine.map UInt64.toNat)) inner :=
  fun path h t inner y hp => hw (i :: path) h t inner y (.inside hi hp)

/-- What is read inside of a member lies in the extent of that member, as long as nested types end
in time. -/
lemma MemberAt.within (ha : MembersAccepted d none ms) (hw : InnerWithin bound ms) {i : Nat}
    {path : List Nat} {m k : Member} {x y : Extent} (hp : MemberAt bound ms (i :: path) m y)
    (hi : located? bound ms i = some (k, x)) : y.Within x := by
  induction path generalizing i bound ms k x with
  | nil =>
    rcases hp with hp | ⟨_, hp⟩
    · rw [hi] at hp
      cases hp
      exact fun _ h => h
    · cases hp
  | cons j path ih =>
    cases hp with
    | inside hi' hp =>
      rw [hi] at hi'
      cases hi'
      obtain ⟨_, _, k, z, hpath, hj⟩ := hp.exists_located
      cases hpath
      have hinner := accepted_inner ha hi
      refine (ih hinner (hw.inner hi) hp hj).trans fun n hn => ?_
      have hspan := (spans_iff (sorted_of_accepted hinner)).mpr ⟨j, k, z, hj, hn⟩
      exact hw [i] _ _ _ _ (.here hi) n hspan

/-- What is read anywhere in a type lies in the span of its members. -/
lemma MemberAt.spans (ha : MembersAccepted d none ms) (hw : InnerWithin bound ms) {path : List Nat}
    {m : Member} {x : Extent} (hp : MemberAt bound ms path m x) :
    ∀ n, x.Holds n → Spans bound ms n := by
  intro n hn
  obtain ⟨i, rest, k, y, rfl, hi⟩ := hp.exists_located
  exact (spans_iff (sorted_of_accepted ha)).mpr ⟨i, k, y, hi, hp.within ha hw hi n hn⟩

/-- The extents in a type are well nested if every nested type has its members within its own. -/
theorem MemberAt.within_or_apart (ha : MembersAccepted d none ms) (hw : InnerWithin bound ms)
    {p q : List Nat} {m k : Member} {x y : Extent} (hp : MemberAt bound ms p m x)
    (hq : MemberAt bound ms q k y) :
    (p <+: q → y.Within x) ∧ (¬ p <+: q → ¬ q <+: p → x.Apart y) := by
  induction p generalizing bound ms q with
  | nil => cases hp
  | cons i p ih =>
    obtain ⟨j, q, k', z, rfl, hj⟩ := hq.exists_located
    obtain ⟨_, _, m', w, hpath, hi⟩ := hp.exists_located
    cases hpath
    by_cases hij : i = j
    · subst hij
      rw [hi] at hj
      cases hj
      simp only [List.cons_prefix_cons, true_and]
      cases hp with
      | here hi' =>
        rw [hi] at hi'
        cases hi'
        exact ⟨fun _ => hq.within ha hw hi, fun h => absurd List.nil_prefix h⟩
      | inside hi' hp =>
        rw [hi] at hi'
        cases hi'
        cases hq with
        | here _ => exact ⟨fun h => absurd (List.prefix_nil.mp h) hp.ne_nil,
            fun _ h => absurd List.nil_prefix h⟩
        | inside hj hq =>
          rw [hi] at hj
          cases hj
          exact ih (accepted_inner ha hi) (hw.inner hi) hp hq
    · simp only [List.cons_prefix_cons, hij, false_and, false_implies, not_false_eq_true,
        forall_const, true_and, Ne.symm hij]
      exact (apart_of_ne (sorted_of_accepted ha) hij hi hj).mono (hp.within ha hw hi)
        (hq.within ha hw hj)

end Accepted

/-! ### Trees -/

/-- The second place is inside the first one, or it is the same. -/
def Place.Encloses (p q : Place) : Prop :=
  p.namespaceIndex = q.namespaceIndex ∧ p.typeIndex = q.typeIndex ∧ p.path <+: q.path

instance (p q : Place) : Decidable (p.Encloses q) :=
  inferInstanceAs (Decidable (_ ∧ _ ∧ _))

/-- The extents of two different members have no line in common, unless one of the members is a type
around the other one, and then its extent is around the other one, too. -/
def WellNested (d : Document) (tree : DeclarationTree) : Prop :=
  ∀ p q m k x y, ReadAt d tree p m x → ReadAt d tree q k y → p ≠ q →
    (p.Encloses q → y.Within x) ∧ (¬ p.Encloses q → ¬ q.Encloses p → x.Apart y)

/-- No two types of the tree, of one namespace or of different ones, have members on a common line.
-/
def TypesApart (d : Document) (tree : DeclarationTree) : Prop :=
  ∀ k l k' l' bound bound' ms ms', typeAt? d tree k l = some (bound, ms) →
    typeAt? d tree k' l' = some (bound', ms') → (k, l) ≠ (k', l') →
      ∀ n, Spans bound ms n → ¬ Spans bound' ms' n

/-- The members of every nested type are on lines of its own. -/
def NestedWithin (d : Document) (tree : DeclarationTree) : Prop :=
  ∀ p h t ms x, ReadAt d tree p (.nested h t ms) x →
    ∀ n, Spans (x.innerEnd (t.closingLine.map UInt64.toNat)) ms n → x.Holds n

section Accepted

open ParsedSource

variable {d : Document} {tree : DeclarationTree}

lemma accepted_typeAt {k l : Nat} {bound : TypeEnd} {ms : List Member} (ha : TreeAccepted d tree)
    (h : typeAt? d tree k l = some (bound, ms)) : MembersAccepted d none ms := by
  obtain ⟨n, hn, h⟩ := Option.bind_eq_some_iff.mp h
  obtain ⟨t, ht, h⟩ := Option.bind_eq_some_iff.mp h
  cases h
  obtain ⟨_, htype⟩ := (ha n (List.mem_of_getElem? hn)).2.exists_of_mem (List.mem_of_getElem? ht)
  exact htype.2.2

lemma NestedWithin.innerWithin (h : NestedWithin d tree) {k l : Nat} {bound : TypeEnd}
    {ms : List Member} (htype : typeAt? d tree k l = some (bound, ms)) : InnerWithin bound ms :=
  fun path k' t inner x hp => h ⟨k, l, path⟩ k' t inner x ⟨bound, ms, htype, hp⟩

/-- Two members of one type have no line in common. -/
theorem apart_of_siblings (ha : TreeAccepted d tree) {k l i j : Nat} {path : List Nat}
    (hij : i ≠ j) {m m' : Member} {x y : Extent} (hi : ReadAt d tree ⟨k, l, path ++ [i]⟩ m x)
    (hj : ReadAt d tree ⟨k, l, path ++ [j]⟩ m' y) : x.Apart y := by
  obtain ⟨bound, ms, htype, hi⟩ := hi
  obtain ⟨bound', ms', htype', hj⟩ := hj
  rw [htype] at htype'
  cases htype'
  exact hi.apart_of_siblings (accepted_typeAt ha htype) hij hj

/-- The tree is well nested exactly if its types are apart and nested types end within their
members. -/
theorem wellNested_iff (ha : TreeAccepted d tree) :
    WellNested d tree ↔ TypesApart d tree ∧ NestedWithin d tree := by
  constructor
  · intro h
    constructor
    · intro k l k' l' bound bound' ms ms' htype htype' hne n hn hn'
      obtain ⟨i, m, x, hi, hx⟩ := (spans_iff (sorted_of_accepted (accepted_typeAt ha htype))).mp hn
      obtain ⟨j, m', y, hj, hy⟩ :=
        (spans_iff (sorted_of_accepted (accepted_typeAt ha htype'))).mp hn'
      have hapart := h ⟨k, l, [i]⟩ ⟨k', l', [j]⟩ m m' x y ⟨bound, ms, htype, .here hi⟩
        ⟨bound', ms', htype', .here hj⟩ (fun he => hne (by cases he; rfl))
      refine hapart.2 ?_ ?_ n hx hy
      · rintro ⟨rfl, rfl, -⟩
        exact hne rfl
      · rintro ⟨rfl, rfl, -⟩
        exact hne rfl
    · intro p h' t ms x hp n hn
      obtain ⟨bound, ms', htype, hp⟩ := hp
      have hinner := hp.accepted (accepted_typeAt ha htype)
      obtain ⟨i, m, y, hi, hy⟩ := (spans_iff (sorted_of_accepted hinner)).mp hn
      have hpath : p.path ++ [i] ≠ p.path := by simp
      have hwithin := h p ⟨p.namespaceIndex, p.typeIndex, p.path ++ [i]⟩ _ m x y
        ⟨bound, ms', htype, hp⟩ ⟨bound, ms', htype, hp.snoc hi⟩
        (fun he => hpath (congrArg Place.path he).symm)
      exact hwithin.1 ⟨rfl, rfl, List.prefix_append _ _⟩ n hy
  · rintro ⟨happart, hnested⟩ p q m k x y ⟨bound, ms, htype, hp⟩ ⟨bound', ms', htype', hq⟩ -
    have hacc := accepted_typeAt ha htype
    by_cases htypes : (p.namespaceIndex, p.typeIndex) = (q.namespaceIndex, q.typeIndex)
    · obtain ⟨hn, ht⟩ := Prod.mk.inj htypes
      rw [← hn, ← ht, htype] at htype'
      cases htype'
      simp only [Place.Encloses, hn, ht, true_and]
      exact hp.within_or_apart hacc (hnested.innerWithin htype) hq
    · have hacc' := accepted_typeAt ha htype'
      refine ⟨?_, fun _ _ n hx hy => ?_⟩
      · rintro ⟨hn, ht, -⟩
        exact absurd (Prod.ext hn ht) htypes
      · exact happart _ _ _ _ _ _ _ _ htype htype' htypes n
          (hp.spans hacc (hnested.innerWithin htype) n hx)
          (hq.spans hacc' (hnested.innerWithin htype') n hy)

/-- In an accepted tree, two members of one type have no line in common. All extents are well nested
exactly if no two types have members on a common line and the members of every nested type are on
lines of its own. These are the extents that the recovery reads. -/
theorem extents_wellNested_iff {parsed : ParsedSource}
    (hv : (parsed.validate d).outcome = .ok tree) :
    (∀ k l i j path m m' x y, i ≠ j → ReadAt d tree ⟨k, l, path ++ [i]⟩ m x →
        ReadAt d tree ⟨k, l, path ++ [j]⟩ m' y → x.Apart y) ∧
      (WellNested d tree ↔ TypesApart d tree ∧ NestedWithin d tree) ∧
      ∀ r, (recoverTree d tree).outcome = .ok r → ∀ s, s ∈ (recoverTree d tree).records ↔
        ∃ p m x, ReadAt d tree p m x ∧ s = stepOf (p.path.length - 1) m x := by
  obtain ⟨ha, rfl⟩ := validate_ok_iff.mp hv
  refine ⟨?_, wellNested_iff ha, fun r hr s => mem_records_recoverTree hr⟩
  intro k l i j path m m' x y hij hi hj
  exact apart_of_siblings ha hij hi hj

end Accepted

/-! ### Two classes -/

/-- Two classes with a method each. -/
def classesSource : Document :=
  .ofLines [
    "class First \x7b",
    "    void Run() \x7b",
    "        go();",
    "    \x7d",
    "\x7d",
    "class Second \x7b",
    "    void Stop() \x7b",
    "        halt();",
    "    \x7d",
    "\x7d"]

/-- The method of the first class. -/
def runMethod : Member :=
  .plain { name := "Run", firstLine := some 2 } (.method "void" [] "")

/-- The method of the second class. -/
def stopMethod : Member :=
  .plain { name := "Stop", firstLine := some 7 } (.method "void" [] "")

/-- The tree of the source, with this line of the second class. -/
def classesTree (second : Option UInt64) : DeclarationTree where
  namespaces := [{
    types := [
      { header := { name := "First", firstLine := some 1 }, members := [runMethod] },
      { header := { name := "Second", firstLine := second }, members := [stopMethod] }] }]

/-- Without a line of the second class, the method of the first one is read up to the end. -/
theorem run_and_stop_overlap :
    ¬ ∀ (d : Document) (parsed : ParsedSource) (tree : DeclarationTree),
      (parsed.validate d).outcome = .ok tree → WellNested d tree := by
  intro h
  have hv : (ParsedSource.validate { tree := classesTree none } classesSource).outcome =
      .ok (classesTree none) := by
    decide +kernel
  have hrun : ReadAt classesSource (classesTree none) ⟨0, 0, [0]⟩ runMethod
      { start := 2, stop := 11, isLast := true, scopes := 1 } :=
    ⟨_, _, rfl, .here rfl⟩
  have hstop : ReadAt classesSource (classesTree none) ⟨0, 1, [0]⟩ stopMethod
      { start := 7, stop := 11, isLast := true, scopes := 1 } :=
    ⟨_, _, rfl, .here rfl⟩
  have hapart := (h _ _ _ hv _ _ _ _ _ _ hrun hstop (by decide)).2 (by decide) (by decide)
  exact hapart 7 (by decide) (by decide)

lemma typeAt?_classesTree {k l : Nat} {bound : TypeEnd} {ms : List Member}
    (h : typeAt? classesSource (classesTree (some 6)) k l = some (bound, ms)) :
    (k, l) = (0, 0) ∧ bound = .before 6 1 ∧ ms = [runMethod] ∨
      (k, l) = (0, 1) ∧ bound = .before 11 1 ∧ ms = [stopMethod] := by
  match k, l with
  | 0, 0 =>
    cases h
    exact .inl ⟨rfl, rfl, rfl⟩
  | 0, 1 =>
    cases h
    exact .inr ⟨rfl, rfl, rfl⟩
  | 0, _ + 2 => cases h
  | _ + 1, _ => cases h

lemma not_memberAt_nested {bound : TypeEnd} {h h' : MemberHead} {c : Content} {t : TypeHeader}
    {inner : List Member} {path : List Nat} {x : Extent} :
    ¬ MemberAt bound [.plain h c] path (.nested h' t inner) x := by
  rintro (hi | ⟨hi, _⟩)
  · simpa using (mem_of_located hi).1
  · simpa using (mem_of_located hi).1

/-- With it, the two methods are read from different lines. -/
theorem run_and_stop_apart :
    (ParsedSource.validate { tree := classesTree (some 6) } classesSource).outcome =
        .ok (classesTree (some 6)) ∧
      WellNested classesSource (classesTree (some 6)) := by
  have hv : (ParsedSource.validate { tree := classesTree (some 6) } classesSource).outcome =
      .ok (classesTree (some 6)) := by
    decide +kernel
  have hrun : ∀ n, Spans (.before 6 1) [runMethod] n → n < 6 := by
    rintro n ⟨_, _, last, hlast, _, hn⟩
    obtain rfl : 2 = last := Option.some.inj hlast
    exact hn
  have hstop : ∀ n, Spans (.before 11 1) [stopMethod] n → 7 ≤ n := by
    rintro n ⟨first, hfirst, _, _, hn, _⟩
    obtain rfl : 7 = first := Option.some.inj hfirst
    exact hn
  refine ⟨hv, (extents_wellNested_iff hv).2.1.mpr ⟨?_, ?_⟩⟩
  · intro k l k' l' bound bound' ms ms' h h' hne n hn hn'
    rcases typeAt?_classesTree h with ⟨hkl, rfl, rfl⟩ | ⟨hkl, rfl, rfl⟩ <;>
      rcases typeAt?_classesTree h' with ⟨hkl', rfl, rfl⟩ | ⟨hkl', rfl, rfl⟩
    · exact hne (hkl.trans hkl'.symm)
    · exact absurd (hrun n hn) (by have := hstop n hn'; omega)
    · exact absurd (hrun n hn') (by have := hstop n hn; omega)
    · exact hne (hkl.trans hkl'.symm)
  · rintro p h t inner x ⟨bound, ms, htype, hp⟩
    rcases typeAt?_classesTree htype with ⟨_, _, rfl⟩ | ⟨_, _, rfl⟩
    · exact absurd hp not_memberAt_nested
    · exact absurd hp not_memberAt_nested

end Recovery

end Graft
