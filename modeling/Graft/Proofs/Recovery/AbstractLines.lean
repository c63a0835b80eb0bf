import Graft.Proofs.Recovery.Ends
import Graft.Proofs.Recovery.Recovered

/-!
# Abstract members without a line

An abstract member has no text, and its line may be left out. The member before it then reaches over
the abstract declaration. Accessors and comments are the same as before, but the text of a callable
is so only if its longer extent has nothing behind the shorter one but what belongs to no body:
`recovered_alike_iff`.
-/

namespace Graft.Recovery

open Source Text

/-! ### Leaving out lines -/

mutual

/-- The second member is the first one, without the lines of some abstract members that are no
fields. -/
inductive MemberDrops : Member → Member → Prop where
  | kept (h : MemberHead) (c : Content) : MemberDrops (.plain h c) (.plain h c)
  | dropped {h : MemberHead} {c : Content} (ha : h.isAbstract = true) (hf : c.isField = false) :
      MemberDrops (.plain h c) (.plain { h with firstLine := none } c)
  | nested {h : MemberHead} {t : TypeHeader} {ms ms' : List Member} (hm : MembersDrop ms ms') :
      MemberDrops (.nested h t ms) (.nested h t ms')

/-- The second list is the first one, without the lines of some abstract members. -/
inductive MembersDrop : List Member → List Member → Prop where
  | nil : MembersDrop [] []
  | cons {m m' : Member} {ms ms' : List Member} (hm : MemberDrops m m')
      (hs : MembersDrop ms ms') : MembersDrop (m :: ms) (m' :: ms')

end

/-- The second type is the first one, without the lines of some abstract members. -/
def TypeDrops (t t' : TypeDecl) : Prop :=
  t'.header = t.header ∧ MembersDrop t.members t'.members

/-- The second namespace is the first one, without the lines of some abstract members. -/
def NamespaceDrops (n n' : Namespace) : Prop :=
  List.Forall₂ TypeDrops n.types n'.types ∧ n' = { n with types := n'.types }

/-- The second tree is the first one, without the lines of some abstract members. -/
def DropsLines (tree tree' : DeclarationTree) : Prop :=
  List.Forall₂ NamespaceDrops tree.namespaces tree'.namespaces

mutual

/-- The member without fold marks, and without the lines and texts of abstract members. -/
def strip : Member → Member
  | .plain h c =>
    if h.isAbstract && !c.isField then
      .plain { h with firstLine := none, fold := {} } (c.withText "" {})
    else
      .plain { h with fold := {} } c
  | .nested h t ms => .nested h t (stripAll ms)

/-- The members without fold marks, and without the lines and texts of abstract ones. -/
def stripAll : List Member → List Member
  | [] => []
  | m :: ms => strip m :: stripAll ms

end

/-- The type without fold marks, and without the lines and texts of abstract members. -/
def stripType (t : TypeDecl) : TypeDecl :=
  { t with members := stripAll t.members }

/-- The namespace without fold marks, and without the lines and texts of abstract members. -/
def stripNamespace (n : Namespace) : Namespace :=
  { n with types := n.types.map stripType }

/-- The tree without fold marks, and without the lines and texts of abstract members. -/
def stripTree (tree : DeclarationTree) : DeclarationTree where
  namespaces := tree.namespaces.map stripNamespace

/-! ### What stays -/

mutual

lemma MemberDrops.strip_eq {m m' : Member} (h : MemberDrops m m') : strip m' = strip m := by
  match h with
  | .kept _ _ => rfl
  | .dropped ha hf => simp [strip, ha, hf]
  | .nested hm => rw [strip, strip, hm.stripAll_eq]

lemma MembersDrop.stripAll_eq {ms ms' : List Member} (h : MembersDrop ms ms') :
    stripAll ms' = stripAll ms := by
  match h with
  | .nil => rfl
  | .cons hm hs => rw [stripAll, stripAll, hm.strip_eq, hs.stripAll_eq]

end

/-- A line stays as it is or is left out. -/
lemma MemberDrops.firstLine?_eq {m m' : Member} (h : MemberDrops m m') :
    m'.firstLine? = m.firstLine? ∨ m'.firstLine? = none ∧
      ∃ k c, m = .plain k c ∧ k.isAbstract = true ∧ c.isField = false := by
  cases h with
  | kept _ _ => exact .inl rfl
  | dropped ha hf => exact .inr ⟨rfl, _, _, rfl, ha, hf⟩
  | nested _ => exact .inl rfl

lemma MemberDrops.firstLine?_of_eq_some {m m' : Member} (h : MemberDrops m m') {n : Nat}
    (hn : m'.firstLine? = some n) : m.firstLine? = some n := by
  rcases h.firstLine?_eq with he | ⟨hnone, -⟩
  · rw [← he, hn]
  · rw [hnone] at hn
    cases hn

lemma MembersDrop.startsOf_sublist {ms ms' : List Member} (h : MembersDrop ms ms') :
    (startsOf ms').Sublist (startsOf ms) := by
  induction ms generalizing ms' with
  | nil =>
    cases h
    exact List.Sublist.refl _
  | cons m ms ih =>
    cases h with
    | @cons _ m' _ ms' hm hs =>
      cases hn : m'.firstLine? with
      | some n =>
        rw [startsOf_cons_of_eq_some hn, startsOf_cons_of_eq_some (hm.firstLine?_of_eq_some hn)]
        exact (ih hs).cons_cons n
      | none =>
        rw [startsOf_cons_of_eq_none hn]
        cases hk : m.firstLine? with
        | some k =>
          rw [startsOf_cons_of_eq_some hk]
          exact (ih hs).cons k
        | none =>
          rw [startsOf_cons_of_eq_none hk]
          exact ih hs

/-! ### Validation -/

section Accepted

open ParsedSource

variable {d : Document}

lemma headAccepted_mono {previous previous' : Option Nat} {h : MemberHead}
    (ha : HeadAccepted d previous h) (hp : ∀ b ∈ previous', ∃ a ∈ previous, b ≤ a) :
    HeadAccepted d previous' h := by
  refine ⟨ha.1, ha.2.1, fun n hn b hb => ?_⟩
  obtain ⟨a, hmem, hle⟩ := hp b hb
  exact Nat.lt_of_le_of_lt hle (ha.2.2 n hn a hmem)

/-- Without some of the members' lines, a type closes behind its last member all the more. -/
lemma closingAccepted_drop {t : TypeHeader} {ms ms' : List Member} (hd : MembersDrop ms ms')
    (hms : MembersAccepted d none ms) (ha : ClosingAccepted d t ms) : ClosingAccepted d t ms' := by
  refine ⟨ha.1, fun n hn last hlast => ?_⟩
  have hmem := hd.startsOf_sublist.subset (List.mem_of_getLast? hlast)
  obtain ⟨init, k, hk⟩ : ∃ init k, startsOf ms = init ++ [k] :=
    ⟨_, _, (List.dropLast_append_getLast (List.ne_nil_of_mem hmem)).symm⟩
  have hlt := ha.2 n hn k (by simp [hk])
  have hsorted := sorted_of_accepted hms
  rw [hk] at hmem hsorted
  rcases List.mem_append.mp hmem with hinit | hlast
  · exact Nat.lt_trans ((List.pairwise_append.mp hsorted).2.2 last hinit k (by simp)) hlt
  · rwa [List.mem_singleton.mp hlast]

mutual

lemma MemberDrops.accepted {previous previous' : Option Nat} {m m' : Member}
    (hd : MemberDrops m m') (ha : MemberAccepted d previous m)
    (hp : ∀ b ∈ previous', ∃ a ∈ previous, b ≤ a) : MemberAccepted d previous' m' := by
  match hd with
  | .kept _ _ => exact headAccepted_mono ha hp
  | .dropped habs _ => exact ⟨fun _ => habs, nofun, nofun⟩
  | .nested hm =>
    refine ⟨headAccepted_mono ha.1 hp, fun hs => ?_⟩
    obtain ⟨hc, hms⟩ := ha.2 hs
    exact ⟨closingAccepted_drop hm hms hc, hm.accepted hms nofun⟩

/-- Members are still in order when some of them have no line any more. -/
lemma MembersDrop.accepted {previous previous' : Option Nat} {ms ms' : List Member}
    (hd : MembersDrop ms ms') (ha : MembersAccepted d previous ms)
    (hp : ∀ b ∈ previous', ∃ a ∈ previous, b ≤ a) : MembersAccepted d previous' ms' := by
  match hd with
  | .nil => trivial
  | @MembersDrop.cons m m' _ _ hm hs =>
    refine ⟨hm.accepted ha.1 hp, hs.accepted ha.2 fun b hb => ?_⟩
    cases hn : m'.firstLine? with
    | some n =>
      rw [hn] at hb
      rw [hm.firstLine?_of_eq_some hn]
      exact ⟨b, hb, Nat.le_refl b⟩
    | none =>
      rw [hn, Option.none_or] at hb
      obtain ⟨a, hmem, hle⟩ := hp b hb
      cases hk : m.firstLine? with
      | none => exact ⟨a, hmem, hle⟩
      | some k =>
        obtain ⟨line, hline, rfl⟩ := Option.map_eq_some_iff.mp hk
        have hlt := ha.1.head.2.2 line hline a hmem
        exact ⟨_, rfl, Nat.le_trans hle (Nat.le_of_lt hlt)⟩

end

lemma typeAccepted_drop {previous : Option Nat} {t t' : TypeDecl} (hd : TypeDrops t t')
    (ha : TypeAccepted d previous t) : TypeAccepted d previous t' := by
  obtain ⟨hh, hm⟩ := hd
  obtain ⟨hline, hclosing, hms⟩ := ha
  rw [TypeAccepted, hh]
  exact ⟨hline, closingAccepted_drop hm hms hclosing, hm.accepted hms nofun⟩

lemma typesAccepted_drop {previous : Option Nat} {ts ts' : List TypeDecl}
    (hd : List.Forall₂ TypeDrops ts ts') (ha : TypesAccepted d previous ts) :
    TypesAccepted d previous ts' := by
  induction hd generalizing previous with
  | nil => trivial
  | cons ht _ ih =>
    refine ⟨typeAccepted_drop ht ha.1, ?_⟩
    rw [ht.1]
    exact ih ha.2

lemma treeAccepted_drop {tree tree' : DeclarationTree} (hd : DropsLines tree tree')
    (ha : TreeAccepted d tree) : TreeAccepted d tree' := by
  obtain ⟨ns⟩ := tree
  obtain ⟨ns'⟩ := tree'
  unfold TreeAccepted at ha ⊢
  unfold DropsLines at hd
  dsimp only at hd ha ⊢
  induction hd with
  | nil => simp
  | cons hn _ ih =>
    rw [List.forall_mem_cons] at ha ⊢
    refine ⟨⟨?_, typesAccepted_drop hn.1 ha.1.2⟩, ih ha.2⟩
    rw [hn.2]
    exact ha.1.1

end Accepted

/-! ### Members recovered alike -/

section Alike

variable {d : Document}

/-- Callables with a body that are read at the same place below two member lists have the same end
in both. -/
def EndsAlike (d : Document) (bound : TypeEnd) (ms : List Member) (bound' : TypeEnd)
    (ms' : List Member) : Prop :=
  ∀ path h c x y, MemberAt bound ms path (.plain h c) x →
    MemberAt bound' ms' path (.plain h c) y → h.isAbstract = false → c.isField = false →
      c.isProperty = false → SameEnd d x y

/-- The same for a member and what is inside it, read from these extents. -/
def EndAlike (d : Document) (x y : Extent) : Member → Member → Prop
  | .plain h c, _ =>
    h.isAbstract = false → c.isField = false → c.isProperty = false → SameEnd d x y
  | .nested _ t ms, .nested _ _ ms' =>
    EndsAlike d (x.innerEnd (t.closingLine.map UInt64.toNat)) ms
      (y.innerEnd (t.closingLine.map UInt64.toNat)) ms'
  | .nested .., .plain .. => True

lemma endsAlike_cons_of_dropped {bound bound' : TypeEnd} {m m' : Member} {ms ms' : List Member}
    (hm : m'.firstLine? = none) :
    EndsAlike d bound (m :: ms) bound' (m' :: ms') ↔ EndsAlike d bound ms bound' ms' := by
  constructor
  · intro h path k c x y hx hy
    obtain ⟨i, rest, _, _, rfl, _⟩ := hx.exists_located
    exact h ((i + 1) :: rest) k c x y (memberAt_succ_iff.mpr hx) (memberAt_succ_iff.mpr hy)
  · intro h path k c x y hx hy
    obtain ⟨i, rest, _, _, rfl, _⟩ := hy.exists_located
    cases i with
    | zero => exact absurd hy (not_memberAt_zero hm)
    | succ i => exact h (i :: rest) k c x y (memberAt_succ_iff.mp hx) (memberAt_succ_iff.mp hy)

/-- A member that has its line in both lists is the same in both, or has members of its own. -/
lemma endsAlike_cons_of_kept {bound bound' : TypeEnd} {m m' : Member} {ms ms' : List Member}
    {n : Nat} (hd : MemberDrops m m') (hn : m'.firstLine? = some n) :
    EndsAlike d bound (m :: ms) bound' (m' :: ms') ↔
      EndAlike d (extentAt bound n (startsOf ms).head?) (extentAt bound' n (startsOf ms').head?)
          m m' ∧
        EndsAlike d bound ms bound' ms' := by
  have hx₀ := located?_zero (hd.firstLine?_of_eq_some hn) bound ms
  have hy₀ := located?_zero hn bound' ms'
  constructor
  · intro h
    constructor
    · cases hd with
      | kept k c => exact h [0] k c _ _ (.here hx₀) (.here hy₀)
      | dropped _ _ => cases hn
      | nested _ =>
        intro path k c x y hx hy
        exact h (0 :: path) k c x y (.inside hx₀ hx) (.inside hy₀ hy)
    · intro path k c x y hx hy
      obtain ⟨i, rest, _, _, rfl, _⟩ := hx.exists_located
      exact h ((i + 1) :: rest) k c x y (memberAt_succ_iff.mpr hx) (memberAt_succ_iff.mpr hy)
  · rintro ⟨hm, hms⟩ path k c x y hx hy
    obtain ⟨i, rest, _, _, rfl, _⟩ := hx.exists_located
    cases i with
    | succ i => exact hms (i :: rest) k c x y (memberAt_succ_iff.mp hx) (memberAt_succ_iff.mp hy)
    | zero =>
      rw [memberAt_zero_iff hx₀] at hx
      rw [memberAt_zero_iff hy₀] at hy
      cases hd with
      | kept _ _ =>
        obtain ⟨-, hk, rfl⟩ | ⟨_, _, _, hk, -⟩ := hx
        · obtain ⟨-, -, rfl⟩ | ⟨_, _, _, hk', -⟩ := hy
          · cases hk
            exact hm
          · cases hk'
        · cases hk
      | dropped _ _ => cases hn
      | nested _ =>
        obtain ⟨-, hk, -⟩ | ⟨_, _, _, hk, hx⟩ := hx
        · cases hk
        · obtain ⟨-, hk', -⟩ | ⟨_, _, _, hk', hy⟩ := hy
          · cases hk'
          · cases hk
            cases hk'
            exact hm _ _ _ _ _ hx hy

/-- Recovering the content changes only the fold marks of the head, and a field stays one. -/
lemma RecoversContent.exists_fold {x : Extent} {h k : MemberHead} {c r : Content}
    (hr : RecoversContent d x h c k r) :
    (∃ fold, k = { h with fold }) ∧ r.isField = c.isField := by
  cases hr with
  | field typeName comments => exact ⟨⟨h.fold, rfl⟩, rfl⟩
  | cleared _ _ => exact ⟨⟨h.fold, rfl⟩, by simp⟩
  | filled _ _ _ _ => exact ⟨⟨_, rfl⟩, by simp⟩

lemma strip_plain_eq_iff {x y : Extent} {h k k' : MemberHead} {c r r' : Content}
    (hs : x.start = y.start) (hr : RecoversContent d x h c k r)
    (hr' : RecoversContent d y h c k' r') :
    strip (.plain k' r') = strip (.plain k r) ↔
      (h.isAbstract = false → c.isField = false → c.isProperty = false → SameEnd d x y) := by
  have heq := recoversContent_eq_iff hs hr hr'
  obtain ⟨⟨fold, rfl⟩, hf⟩ := hr.exists_fold
  obtain ⟨⟨fold', rfl⟩, hf'⟩ := hr'.exists_fold
  rw [← heq]
  by_cases ha : h.isAbstract && !c.isField
  · have hsame : r' = r := heq.mpr fun ha' => by simp [ha'] at ha
    simp [strip, hsame]
  · simp [strip, hf, hf', ha]

/-- An abstract member that is no field is recovered to the same, wherever its extent is. -/
lemma RecoversMember.strip_eq {x : Extent} {h : MemberHead} {c : Content} {r : Member}
    (hr : RecoversMember d x (.plain h c) r) (ha : h.isAbstract = true) (hf : c.isField = false) :
    strip r = strip (.plain h c) := by
  obtain ⟨hr⟩ | _ := hr
  cases hr with
  | field _ _ => cases hf
  | cleared _ _ => simp [strip, ha, hf]
  | filled _ ha' _ _ =>
    rw [ha] at ha'
    cases ha'

/-- A member that has no line any more was read or passed by before; either way it is the same as
without its line. -/
lemma RecoversLocated.exists_of_dropped {bound : TypeEnd} {m m' : Member} {ms rs : List Member}
    (hr : RecoversLocated d (extentsOf bound (m :: ms)) (m :: ms) rs) (hm : MemberDrops m m')
    (hn : m'.firstLine? = none) :
    ∃ r rs₁, RecoversLocated d (extentsOf bound ms) ms rs₁ ∧ rs = r :: rs₁ ∧
      strip r = strip m := by
  cases hk : m.firstLine? with
  | none =>
    rw [extentsOf_cons_of_eq_none hk] at hr
    obtain ⟨rs, hrs, rfl⟩ := (recoversLocated_cons_of_passed (.inl hk)).mp hr
    exact ⟨m, rs, hrs, rfl, rfl⟩
  | some k =>
    rw [extentsOf_cons_of_eq_some hk] at hr
    obtain ⟨r, hrm, rs, hrs, rfl⟩ := (recoversLocated_cons_of_isSome (by simp [hk])).mp hr
    obtain he | ⟨-, h, c, rfl, ha, hf⟩ := hm.firstLine?_eq
    · rw [hn, hk] at he
      cases he
    · exact ⟨r, rs, hrs, rfl, hrm.strip_eq ha hf⟩

mutual

/-- What is recovered of a member from extents with the same start. -/
theorem RecoversMember.strip_eq_iff {x y : Extent} {m m' r r' : Member}
    (hr : RecoversMember d x m r) (hr' : RecoversMember d y m' r') (hd : MemberDrops m m')
    (hs : x.start = y.start) (hn : m'.firstLine?.isSome = true) :
    strip r' = strip r ↔ EndAlike d x y m m' := by
  match m, hd with
  | .plain h c, .kept _ _ =>
    obtain ⟨hc⟩ | _ := hr
    obtain ⟨hc'⟩ | _ := hr'
    exact strip_plain_eq_iff hs hc hc'
  | .plain h c, .dropped _ _ => cases hn
  | .nested h t ms, .nested ho =>
    obtain ⟨rs, ⟨-, hl⟩, rfl⟩ := recoversMember_nested_iff.mp hr
    obtain ⟨rs', ⟨-, hl'⟩, rfl⟩ := recoversMember_nested_iff.mp hr'
    simp only [strip, Member.nested.injEq, true_and]
    exact hl.strip_eq_iff hl' ho

/-- What is recovered of the members of two types that differ in where they end, and in which
abstract members have a line. -/
theorem RecoversLocated.strip_eq_iff {bound bound' : TypeEnd} {ms ms' rs rs' : List Member}
    (hr : RecoversLocated d (extentsOf bound ms) ms rs)
    (hr' : RecoversLocated d (extentsOf bound' ms') ms' rs') (hd : MembersDrop ms ms') :
    stripAll rs' = stripAll rs ↔ EndsAlike d bound ms bound' ms' := by
  match ms, hd with
  | [], .nil =>
    cases hr
    cases hr'
    refine iff_of_true rfl ?_
    intro path h c x y hx
    obtain ⟨_, _, _, _, -, hi⟩ := hx.exists_located
    simp [located?] at hi
  | m :: ms, @MembersDrop.cons _ m' _ ms' hm ho =>
    cases hn : m'.firstLine? with
    | some n =>
      have hk := hm.firstLine?_of_eq_some hn
      rw [extentsOf_cons_of_eq_some hk] at hr
      rw [extentsOf_cons_of_eq_some hn] at hr'
      obtain ⟨r, hrm, rs, hrs, rfl⟩ := (recoversLocated_cons_of_isSome (by simp [hk])).mp hr
      obtain ⟨r', hrm', rs', hrs', rfl⟩ := (recoversLocated_cons_of_isSome (by simp [hn])).mp hr'
      rw [stripAll, stripAll, List.cons.injEq, endsAlike_cons_of_kept hm hn,
        hrm.strip_eq_iff hrm' hm (by simp) (by simp [hn]), hrs.strip_eq_iff hrs' ho]
    | none =>
      rw [extentsOf_cons_of_eq_none hn] at hr'
      obtain ⟨rs', hrs', rfl⟩ := (recoversLocated_cons_of_passed (.inl hn)).mp hr'
      obtain ⟨r, rs, hrs, rfl, hstrip⟩ := hr.exists_of_dropped hm hn
      rw [stripAll, stripAll, List.cons.injEq, endsAlike_cons_of_dropped hn, hstrip,
        hm.strip_eq, and_iff_right rfl, hrs.strip_eq_iff hrs' ho]

end

/-! ### Types, namespaces, trees -/

lemma forall_getElem?_cons {α : Type} {a b : α} {as bs : List α} {P : Nat → α → α → Prop} :
    (∀ i t t', (a :: as)[i]? = some t → (b :: bs)[i]? = some t' → P i t t') ↔
      P 0 a b ∧ ∀ i t t', as[i]? = some t → bs[i]? = some t' → P (i + 1) t t' := by
  constructor
  · exact fun h => ⟨h 0 a b rfl rfl, fun i t t' ht ht' => h (i + 1) t t' ht ht'⟩
  · rintro ⟨h₀, h⟩ i t t' ht ht'
    cases i with
    | zero =>
      cases ht
      cases ht'
      exact h₀
    | succ i => exact h i t t' ht ht'

/-- The types of two namespaces that end as given have members that end alike. -/
def TypesAlike (d : Document) (stop scopes : Nat) (ts : List TypeDecl) (stop' scopes' : Nat)
    (ts' : List TypeDecl) : Prop :=
  ∀ l t t', ts[l]? = some t → ts'[l]? = some t' →
    EndsAlike d (typeEnd t ts[l + 1]? stop scopes) t.members
      (typeEnd t' ts'[l + 1]? stop' scopes') t'.members

lemma RecoversTypes.strip_eq_iff {stop scopes stop' scopes' : Nat} {ts ts' rs rs' : List TypeDecl}
    (hd : List.Forall₂ TypeDrops ts ts') (hr : RecoversTypes d stop scopes ts rs)
    (hr' : RecoversTypes d stop' scopes' ts' rs') :
    rs'.map stripType = rs.map stripType ↔ TypesAlike d stop scopes ts stop' scopes' ts' := by
  induction hd generalizing rs rs' with
  | nil =>
    cases hr
    cases hr'
    exact iff_of_true rfl nofun
  | cons ht _ ih =>
    obtain _ | ⟨hm, hr⟩ := hr
    obtain _ | ⟨hm', hr'⟩ := hr'
    rw [List.head?_eq_getElem?] at hm hm'
    rw [TypesAlike, forall_getElem?_cons, List.map_cons, List.map_cons, List.cons.injEq,
      ih hr hr', stripType, stripType, TypeDecl.mk.injEq, and_iff_right ht.1,
      hm.2.strip_eq_iff hm'.2 ht.2]
    rfl

lemma stripNamespace_eq_iff {n n' : Namespace} {types types' : List TypeDecl}
    (hn : n' = { n with types := n'.types }) :
    types'.map stripType = types.map stripType ↔
      stripNamespace { n' with types := types' } = stripNamespace { n with types } := by
  rw [hn]
  simp [stripNamespace]

lemma RecoversNamespaces.strip_eq_iff {ns ns' rs rs' : List Namespace}
    (hd : List.Forall₂ NamespaceDrops ns ns') (hr : RecoversNamespaces d ns rs)
    (hr' : RecoversNamespaces d ns' rs') :
    rs'.map stripNamespace = rs.map stripNamespace ↔
      ∀ k n n', ns[k]? = some n → ns'[k]? = some n' →
        TypesAlike d (namespaceEnd d n ns[k + 1]?).1 (namespaceEnd d n ns[k + 1]?).2 n.types
          (namespaceEnd d n' ns'[k + 1]?).1 (namespaceEnd d n' ns'[k + 1]?).2 n'.types := by
  induction hd generalizing rs rs' with
  | nil =>
    cases hr
    cases hr'
    exact iff_of_true rfl nofun
  | cons hn _ ih =>
    obtain _ | ⟨ht, hr⟩ := hr
    obtain _ | ⟨ht', hr'⟩ := hr'
    obtain ⟨htypes, hn⟩ := hn
    rw [List.head?_eq_getElem?] at ht ht'
    rw [forall_getElem?_cons, List.map_cons, List.map_cons, List.cons.injEq, ih hr hr',
      ← stripNamespace_eq_iff hn, ht.strip_eq_iff htypes ht']
    rfl

/-- Recovering two trees of which one lacks the lines of some abstract members gives the same
exactly if all callables end alike. -/
theorem recoverTree_alike_iff {tree tree' recovered recovered' : DeclarationTree}
    (hd : DropsLines tree tree') (hr : (recoverTree d tree).outcome = .ok recovered)
    (hr' : (recoverTree d tree').outcome = .ok recovered') :
    stripTree recovered' = stripTree recovered ↔
      ∀ p h c x y, ReadAt d tree p (.plain h c) x → ReadAt d tree' p (.plain h c) y →
        h.isAbstract = false → c.isField = false → c.isProperty = false → SameEnd d x y := by
  rw [recoverTree_ok_iff] at hr hr'
  rw [stripTree, stripTree, DeclarationTree.mk.injEq, hr.strip_eq_iff hd hr']
  constructor
  · rintro hall ⟨k, l, path⟩ h c x y hx hy
    obtain ⟨n, hn, t, ht, hx⟩ := readAt_iff.mp hx
    obtain ⟨n', hn', t', ht', hy⟩ := readAt_iff.mp hy
    exact hall k n n' hn hn' l t t' ht ht' path h c x y hx hy
  · intro hall k n n' hn hn' l t t' ht ht' path h c x y hx hy
    exact hall ⟨k, l, path⟩ h c x y (readAt_iff.mpr ⟨n, hn, t, ht, hx⟩)
      (readAt_iff.mpr ⟨n', hn', t', ht', hy⟩)

/-- The lines of abstract members may be left out of an accepted tree: it is accepted as before. If
it is recovered, too, then with the same bodies, accessors and comments, exactly if of every
callable with a body one extent ends behind the other: the longer one has nothing more than the
closing braces of scopes, and lines that belong to no body. -/
theorem recovered_alike_iff {parsed : ParsedSource} {tree tree' recovered : DeclarationTree}
    (hv : (parsed.validate d).outcome = .ok tree)
    (hr : (recoverTree d tree).outcome = .ok recovered) (hd : DropsLines tree tree') :
    ({ parsed with tree := tree' }.validate d).outcome = .ok tree' ∧
      ∀ recovered', (recoverTree d tree').outcome = .ok recovered' →
        (stripTree recovered' = stripTree recovered ↔
          ∀ p h c x y, ReadAt d tree p (.plain h c) x → ReadAt d tree' p (.plain h c) y →
            h.isAbstract = false → c.isField = false → c.isProperty = false →
              SameEnd d x y) := by
  obtain ⟨ha, rfl⟩ := ParsedSource.validate_ok_iff.mp hv
  exact ⟨ParsedSource.validate_ok_iff.mpr ⟨treeAccepted_drop hd ha, rfl⟩,
    fun recovered' hr' => recoverTree_alike_iff hd hr hr'⟩

end Alike

/-! ### An abstract property before and after a method -/

/-- An abstract class with two abstract properties and a method between them. -/
def figureSource : Document :=
  .ofLines [
    "abstract class Figure \x7b",
    "    abstract int Area \x7b get; \x7d",
    "    void Draw() \x7b",
    "        Paint();",
    "    \x7d",
    "    abstract int Size \x7b get; \x7d",
    "\x7d"]

/-- The tree of the source, with these lines of the properties and this body of the method. -/
def figureTree (area size : Option UInt64) (draw : String) : DeclarationTree where
  namespaces := [{
    types := [{
      header := { name := "Figure", firstLine := some 1, closingLine := some 7 }
      members := [
        .plain { name := "Area", firstLine := area, isAbstract := true } (.property "int" {}),
        .plain { name := "Draw", firstLine := some 3 } (.method "void" [] draw),
        .plain { name := "Size", firstLine := size, isAbstract := true } (.property "int" {})] }] }]

lemma recoverTree_figureTree :
    (recoverTree figureSource (figureTree (some 2) (some 6) "")).outcome =
      .ok (figureTree (some 2) (some 6) "        Paint();") := by
  decide +kernel

/-- Without the line of the property before the method, the same is recovered. -/
theorem draw_without_area_line :
    (ParsedSource.validate { tree := figureTree (some 2) (some 6) "" } figureSource).outcome =
        .ok (figureTree (some 2) (some 6) "") ∧
      DropsLines (figureTree (some 2) (some 6) "") (figureTree none (some 6) "") ∧
      (ParsedSource.validate { tree := figureTree none (some 6) "" } figureSource).outcome =
        .ok (figureTree none (some 6) "") ∧
      (∀ p h c x y, ReadAt figureSource (figureTree (some 2) (some 6) "") p (.plain h c) x →
        ReadAt figureSource (figureTree none (some 6) "") p (.plain h c) y →
          h.isAbstract = false → c.isField = false → c.isProperty = false →
            SameEnd figureSource x y) := by
  have hv : (ParsedSource.validate { tree := figureTree (some 2) (some 6) "" }
      figureSource).outcome = .ok (figureTree (some 2) (some 6) "") := by
    decide +kernel
  have hd : DropsLines (figureTree (some 2) (some 6) "") (figureTree none (some 6) "") :=
    .cons ⟨.cons ⟨rfl, .cons (.dropped rfl rfl) (.cons (.kept _ _) (.cons (.kept _ _) .nil))⟩
      .nil, rfl⟩ .nil
  have hr' : (recoverTree figureSource (figureTree none (some 6) "")).outcome =
      .ok (figureTree none (some 6) "        Paint();") := by
    decide +kernel
  obtain ⟨hv', hiff⟩ := recovered_alike_iff hv recoverTree_figureTree hd
  exact ⟨hv, hd, hv', (hiff _ hr').mp rfl⟩

/-- Without the line of the property behind it, the method's body ends in the property's braces. -/
theorem draw_with_size_clause :
    ¬ ∀ (d : Document) (parsed : ParsedSource) (tree tree' recovered recovered' : DeclarationTree),
      (parsed.validate d).outcome = .ok tree →
        (∀ n ∈ tree.namespaces, ∀ t ∈ n.types, ∀ m ∈ t.members, m.firstLine?.isSome = true) →
        (recoverTree d tree).outcome = .ok recovered → DropsLines tree tree' →
          (recoverTree d tree').outcome = .ok recovered' →
            stripTree recovered' = stripTree recovered := by
  intro h
  have hv : (ParsedSource.validate { tree := figureTree (some 2) (some 6) "" }
      figureSource).outcome = .ok (figureTree (some 2) (some 6) "") := by
    decide +kernel
  have hd : DropsLines (figureTree (some 2) (some 6) "") (figureTree (some 2) none "") :=
    .cons ⟨.cons ⟨rfl, .cons (.kept _ _) (.cons (.kept _ _) (.cons (.dropped rfl rfl) .nil))⟩
      .nil, rfl⟩ .nil
  have hr' : (recoverTree figureSource (figureTree (some 2) none "")).outcome =
      .ok (figureTree (some 2) none
        "        Paint();\n    \x7d\n    abstract int Size \x7b get;") := by
    decide +kernel
  have hsame := h _ _ _ _ _ _ hv (by decide) recoverTree_figureTree hd hr'
  exact absurd hsame (by decide +kernel)

end Graft.Recovery
