import Graft.Proofs.Recovery.Extents
import Graft.Proofs.Recovery.Runs

/-!
# Where members are read

Every member that has a line is read from its extent. A place in a tree is given by the numbers of a
namespace, of a type and of the members on the way; `ReadAt` says which member is there, and from
which extent it is read. What the recovery of a tree does is just that: `mem_records_recoverTree`.
-/

namespace Graft.Recovery

/-! ### The members of a type -/

/-- The member at a position, with its extent, if it has a line. -/
def located? (bound : TypeEnd) (ms : List Member) (i : Nat) : Option (Member × Extent) := do
  let m ← ms[i]?
  let start ← m.firstLine?
  pure (m, extentAt bound start (startsOf (ms.drop (i + 1))).head?)

/-- A path of positions leads to a member that is read from an extent: from a member of the type, or
from one of a nested type on the way. -/
inductive MemberAt : TypeEnd → List Member → List Nat → Member → Extent → Prop where
  | here {bound : TypeEnd} {ms : List Member} {i : Nat} {m : Member} {x : Extent}
      (hi : located? bound ms i = some (m, x)) : MemberAt bound ms [i] m x
  | inside {bound : TypeEnd} {ms inner : List Member} {i : Nat} {h : MemberHead} {t : TypeHeader}
      {x y : Extent} {path : List Nat} {m : Member}
      (hi : located? bound ms i = some (.nested h t inner, x))
      (hp : MemberAt (x.innerEnd (t.closingLine.map UInt64.toNat)) inner path m y) :
      MemberAt bound ms (i :: path) m y

lemma located?_zero {m : Member} {n : Nat} (h : m.firstLine? = some n) (bound : TypeEnd)
    (ms : List Member) :
    located? bound (m :: ms) 0 = some (m, extentAt bound n (startsOf ms).head?) := by
  simp [located?, h]

lemma located?_succ (bound : TypeEnd) (m : Member) (ms : List Member) (i : Nat) :
    located? bound (m :: ms) (i + 1) = located? bound ms i := by
  simp [located?]

/-- At the first position is the first member, read up to the next one that has a line. -/
lemma eq_located_of_zero {bound : TypeEnd} {m k : Member} {ms : List Member} {x : Extent}
    (h : located? bound (m :: ms) 0 = some (k, x)) :
    k = m ∧ ∃ n, m.firstLine? = some n ∧ x = extentAt bound n (startsOf ms).head? := by
  cases hn : m.firstLine? with
  | none => simp [located?, hn] at h
  | some n =>
    rw [located?_zero hn] at h
    cases h
    exact ⟨rfl, n, rfl, rfl⟩

/-- A located member belongs to the list and starts where its extent does. -/
lemma mem_of_located {bound : TypeEnd} {ms : List Member} {i : Nat} {m : Member} {x : Extent}
    (h : located? bound ms i = some (m, x)) : m ∈ ms ∧ m.firstLine? = some x.start := by
  obtain ⟨k, hk, h⟩ := Option.bind_eq_some_iff.mp h
  obtain ⟨n, hn, h⟩ := Option.bind_eq_some_iff.mp h
  cases h
  exact ⟨List.mem_of_getElem? hk, by rw [start_extentAt, hn]⟩

/-- A path has a first position, and a located member is there. -/
lemma MemberAt.exists_located {bound : TypeEnd} {ms : List Member} {path : List Nat} {m : Member}
    {x : Extent} (h : MemberAt bound ms path m x) :
    ∃ i rest k y, path = i :: rest ∧ located? bound ms i = some (k, y) := by
  cases h with
  | here hi => exact ⟨_, _, _, _, rfl, hi⟩
  | inside hi _ => exact ⟨_, _, _, _, rfl, hi⟩

lemma MemberAt.ne_nil {bound : TypeEnd} {ms : List Member} {path : List Nat} {m : Member}
    {x : Extent} (h : MemberAt bound ms path m x) : path ≠ [] := by
  cases h <;> simp

/-- One step further, into a nested type. -/
lemma MemberAt.snoc {bound : TypeEnd} {ms inner : List Member} {path : List Nat} {h : MemberHead}
    {t : TypeHeader} {x y : Extent} {i : Nat} {m : Member}
    (hp : MemberAt bound ms path (.nested h t inner) x)
    (hi : located? (x.innerEnd (t.closingLine.map UInt64.toNat)) inner i = some (m, y)) :
    MemberAt bound ms (path ++ [i]) m y := by
  generalize hm : Member.nested h t inner = k at hp
  induction hp with
  | here hj =>
    subst hm
    exact .inside hj (.here hi)
  | inside hj _ ih => exact .inside hj (ih hi hm)

/-! ### Trees -/

/-- The members of a type of a tree, by the numbers of its namespace and of the type there, and how
the type ends. -/
def typeAt? (d : Document) (tree : DeclarationTree) (k l : Nat) :
    Option (TypeEnd × List Member) := do
  let n ← tree.namespaces[k]?
  let t ← n.types[l]?
  let (stop, scopes) := namespaceEnd d n tree.namespaces[k + 1]?
  pure (typeEnd t n.types[l + 1]? stop scopes, t.members)

/-- A place for a member in a tree. -/
structure Place where
  /-- The number of the namespace. -/
  namespaceIndex : Nat
  /-- The number of the type in its namespace. -/
  typeIndex : Nat
  /-- The numbers of the members on the way, from the type down. -/
  path : List Nat
deriving DecidableEq, Repr

/-- At the place is a member that is read from the extent. -/
def ReadAt (d : Document) (tree : DeclarationTree) (p : Place) (m : Member) (x : Extent) : Prop :=
  ∃ bound ms, typeAt? d tree p.namespaceIndex p.typeIndex = some (bound, ms) ∧
    MemberAt bound ms p.path m x

/-! ### These are the extents that the recovery reads -/

/-- The record for a member that is read from an extent. -/
def stepOf (depth : Nat) (m : Member) (x : Extent) : Step :=
  ⟨m.name, m.kind, x.start, x.stop, depth⟩

/-- Positions behind the first are positions in the rest of the list. -/
lemma memberAt_succ_iff {bound : TypeEnd} {m k : Member} {ms : List Member} {i : Nat}
    {path : List Nat} {y : Extent} :
    MemberAt bound (m :: ms) ((i + 1) :: path) k y ↔ MemberAt bound ms (i :: path) k y := by
  constructor
  · rintro (hi | ⟨hi, hp⟩)
    · exact .here (located?_succ bound m ms i ▸ hi)
    · exact .inside (located?_succ bound m ms i ▸ hi) hp
  · rintro (hi | ⟨hi, hp⟩)
    · exact .here ((located?_succ bound m ms i).trans hi)
    · exact .inside ((located?_succ bound m ms i).trans hi) hp

/-- A path that begins at the first member ends there or goes on inside it. -/
lemma memberAt_zero_iff {bound : TypeEnd} {m k : Member} {ms : List Member} {path : List Nat}
    {x y : Extent} (hm : located? bound (m :: ms) 0 = some (m, x)) :
    MemberAt bound (m :: ms) (0 :: path) k y ↔
      path = [] ∧ k = m ∧ y = x ∨
        ∃ h t inner, m = .nested h t inner ∧
          MemberAt (x.innerEnd (t.closingLine.map UInt64.toNat)) inner path k y := by
  constructor
  · rintro (hi | ⟨hi, hp⟩)
    · rw [hm] at hi
      cases hi
      exact .inl ⟨rfl, rfl, rfl⟩
    · rw [hm] at hi
      cases hi
      exact .inr ⟨_, _, _, rfl, hp⟩
  · rintro (⟨rfl, rfl, rfl⟩ | ⟨h, t, inner, rfl, hp⟩)
    · exact .here hm
    · exact .inside hm hp

/-- No path leads through a member without a line. -/
lemma not_memberAt_zero {bound : TypeEnd} {m k : Member} {ms : List Member} {path : List Nat}
    {y : Extent} (hm : m.firstLine? = none) : ¬ MemberAt bound (m :: ms) (0 :: path) k y := by
  intro h
  obtain ⟨_, _, _, _, hpath, hi⟩ := h.exists_located
  cases hpath
  simp [located?, hm] at hi

/-- The steps of a member itself and of what is inside it. -/
lemma exists_memberAt_zero_iff {bound : TypeEnd} {m : Member} {ms : List Member} {x : Extent}
    (hm : located? bound (m :: ms) 0 = some (m, x)) {depth : Nat} {s : Step} :
    (∃ path k y, MemberAt bound (m :: ms) (0 :: path) k y ∧
        s = stepOf (depth + path.length) k y) ↔
      s = stepOf depth m x ∨
        ∃ h t inner, m = .nested h t inner ∧ ∃ i path k y,
          MemberAt (x.innerEnd (t.closingLine.map UInt64.toNat)) inner (i :: path) k y ∧
            s = stepOf (depth + 1 + path.length) k y := by
  have hdepth : ∀ i (path : List Nat), depth + (i :: path).length = depth + 1 + path.length := by
    intro i path
    rw [List.length_cons, Nat.add_comm path.length 1, Nat.add_assoc]
  simp only [memberAt_zero_iff hm]
  constructor
  · rintro ⟨path, k, y, ⟨rfl, rfl, rfl⟩ | ⟨h, t, inner, rfl, hp⟩, rfl⟩
    · exact .inl rfl
    · obtain ⟨i, rest, _, _, rfl, _⟩ := hp.exists_located
      exact .inr ⟨h, t, inner, rfl, i, rest, k, y, hp, by rw [hdepth]⟩
  · rintro (rfl | ⟨h, t, inner, rfl, i, path, k, y, hp, rfl⟩)
    · exact ⟨[], m, x, .inl ⟨rfl, rfl, rfl⟩, rfl⟩
    · exact ⟨i :: path, k, y, .inr ⟨h, t, inner, rfl, hp⟩, by rw [hdepth]⟩

lemma recoverLocated_of_passed {d : Document} {depth : Nat} {xs : List Extent} {m : Member}
    {ms : List Member} (hn : m.firstLine? = none) :
    recoverLocated d depth xs (m :: ms) =
      recoverLocated d depth xs ms >>= fun ms => pure (m :: ms) := by
  simp only [recoverLocated, hn]

lemma recoverLocated_of_located {d : Document} {depth : Nat} {x : Extent} {xs : List Extent}
    {m : Member} {ms : List Member} {n : Nat} (hn : m.firstLine? = some n) :
    recoverLocated d depth (x :: xs) (m :: ms) =
      recoverMember d depth x m >>= fun m =>
        recoverLocated d depth xs ms >>= fun ms => pure (m :: ms) := by
  simp only [recoverLocated, hn]

lemma recoverMembers_of_eq_none {d : Document} {depth : Nat} {bound : TypeEnd} {type : String}
    {ms : List Member} (h : missingLine? ms = none) :
    recoverMembers d depth bound type ms = recoverLocated d depth (extentsOf bound ms) ms := by
  unfold recoverMembers
  rw [h]

mutual

/-- A member is recorded, and so are the members inside it, one level deeper. -/
lemma mem_records_recoverMember {d : Document} {depth : Nat} {x : Extent} {m r : Member} {s : Step}
    (hr : (recoverMember d depth x m).outcome = .ok r) :
    s ∈ (recoverMember d depth x m).records ↔
      s = stepOf depth m x ∨
        ∃ h t inner, m = .nested h t inner ∧ ∃ i path k y,
          MemberAt (x.innerEnd (t.closingLine.map UInt64.toNat)) inner (i :: path) k y ∧
            s = stepOf (depth + 1 + path.length) k y := by
  match m with
  | .plain h c =>
    have hrec : (recoverMember d depth x (.plain h c)).records = [stepOf depth (.plain h c) x] := by
      rw [recoverMember, Traced.records_record_bind]
      cases recoverContent d x h c <;> rfl
    simp [hrec]
  | .nested h t ms =>
    rw [recoverMember_nested, Traced.outcome_record_bind, Traced.outcome_bind_eq_ok_iff] at hr
    obtain ⟨ms', hms, -⟩ := hr
    have hnone := (recoverMembers_ok_iff_located.mp hms).1
    rw [recoverMember_nested, Traced.records_record_bind, List.mem_cons,
      Traced.mem_records_bind_iff hms]
    rw [recoverMembers_of_eq_none hnone] at hms ⊢
    rw [mem_records_recoverLocated hms, Traced.records_pure]
    refine or_congr Iff.rfl ?_
    simp

/-- The members of a list are recorded at the depth of the list, and what is inside them as deep as
its path is long. -/
theorem mem_records_recoverLocated {d : Document} {depth : Nat} {bound : TypeEnd}
    {ms r : List Member} {s : Step}
    (hr : (recoverLocated d depth (extentsOf bound ms) ms).outcome = .ok r) :
    s ∈ (recoverLocated d depth (extentsOf bound ms) ms).records ↔
      ∃ i path k y, MemberAt bound ms (i :: path) k y ∧ s = stepOf (depth + path.length) k y := by
  match ms with
  | [] =>
    have hnone : ∀ i path k y, ¬ MemberAt bound [] (i :: path) k y := by
      intro i path k y h
      obtain ⟨_, _, _, _, _, hi⟩ := h.exists_located
      simp [located?] at hi
    simp [recoverLocated, hnone]
  | m :: ms =>
    rw [← Nat.or_exists_add_one]
    simp only [memberAt_succ_iff]
    cases hn : m.firstLine? with
    | none =>
      rw [extentsOf_cons_of_eq_none hn, recoverLocated_of_passed hn] at hr ⊢
      obtain ⟨ms', hms, -⟩ := Traced.outcome_bind_eq_ok_iff.mp hr
      rw [Traced.mem_records_bind_iff hms, mem_records_recoverLocated hms]
      simp [not_memberAt_zero hn]
    | some n =>
      rw [extentsOf_cons_of_eq_some hn, recoverLocated_of_located hn] at hr ⊢
      obtain ⟨m', hm, hrest⟩ := Traced.outcome_bind_eq_ok_iff.mp hr
      obtain ⟨ms', hms, -⟩ := Traced.outcome_bind_eq_ok_iff.mp hrest
      rw [Traced.mem_records_bind_iff hm, Traced.mem_records_bind_iff hms,
        mem_records_recoverMember hm, mem_records_recoverLocated hms,
        exists_memberAt_zero_iff (located?_zero hn bound ms)]
      simp

end

lemma mem_records_recoverMembers {d : Document} {bound : TypeEnd} {type : String}
    {ms r : List Member} {s : Step} (hr : (recoverMembers d 0 bound type ms).outcome = .ok r) :
    s ∈ (recoverMembers d 0 bound type ms).records ↔
      ∃ path m x, MemberAt bound ms path m x ∧ s = stepOf (path.length - 1) m x := by
  obtain ⟨hnone, hl⟩ := recoverMembers_ok_iff_located.mp hr
  rw [recoverMembers_of_eq_none hnone, mem_records_recoverLocated hl]
  constructor
  · rintro ⟨i, path, m, x, hp, rfl⟩
    exact ⟨i :: path, m, x, hp, by simp⟩
  · rintro ⟨path, m, x, hp, rfl⟩
    obtain ⟨i, rest, _, _, rfl, _⟩ := hp.exists_located
    exact ⟨i, rest, m, x, hp, by simp⟩

/-- Positions in a list with one more element in front. -/
lemma exists_getElem?_cons {α : Type} {a : α} {as : List α} {P : Nat → α → Prop} :
    (∃ i b, (a :: as)[i]? = some b ∧ P i b) ↔ P 0 a ∨ ∃ i b, as[i]? = some b ∧ P (i + 1) b := by
  rw [← Nat.or_exists_add_one]
  simp

/-- Each type ends where the next one of the namespace begins. -/
lemma mem_records_recoverTypes {d : Document} {stop scopes : Nat} {ts r : List TypeDecl} {s : Step}
    (hr : (recoverTypes d stop scopes ts).outcome = .ok r) :
    s ∈ (recoverTypes d stop scopes ts).records ↔
      ∃ l t, ts[l]? = some t ∧ ∃ path m x,
        MemberAt (typeEnd t ts[l + 1]? stop scopes) t.members path m x ∧
          s = stepOf (path.length - 1) m x := by
  induction ts generalizing r with
  | nil => simp [recoverTypes]
  | cons t ts ih =>
    rw [recoverTypes] at hr ⊢
    obtain ⟨members, hm, hrest⟩ := Traced.outcome_bind_eq_ok_iff.mp hr
    obtain ⟨ts', hts, -⟩ := Traced.outcome_bind_eq_ok_iff.mp hrest
    rw [Traced.mem_records_bind_iff hm, Traced.mem_records_bind_iff hts,
      mem_records_recoverMembers hm, ih hts, exists_getElem?_cons, List.head?_eq_getElem?]
    simp

lemma recoverNamespaces_cons (d : Document) (n : Namespace) (ns : List Namespace) :
    recoverNamespaces d (n :: ns) =
      recoverTypes d (namespaceEnd d n ns.head?).1 (namespaceEnd d n ns.head?).2 n.types >>=
        fun types => recoverNamespaces d ns >>= fun rest => pure ({ n with types } :: rest) := rfl

/-- The last type of a namespace ends where the namespace does, which the next namespace may bound.
-/
lemma mem_records_recoverNamespaces {d : Document} {ns r : List Namespace} {s : Step}
    (hr : (recoverNamespaces d ns).outcome = .ok r) :
    s ∈ (recoverNamespaces d ns).records ↔
      ∃ k n, ns[k]? = some n ∧ ∃ l t, n.types[l]? = some t ∧ ∃ path m x,
        MemberAt (typeEnd t n.types[l + 1]? (namespaceEnd d n ns[k + 1]?).1
            (namespaceEnd d n ns[k + 1]?).2) t.members path m x ∧
          s = stepOf (path.length - 1) m x := by
  induction ns generalizing r with
  | nil => simp [recoverNamespaces]
  | cons n ns ih =>
    rw [recoverNamespaces_cons] at hr ⊢
    obtain ⟨types, ht, hrest⟩ := Traced.outcome_bind_eq_ok_iff.mp hr
    obtain ⟨ns', hns, -⟩ := Traced.outcome_bind_eq_ok_iff.mp hrest
    rw [Traced.mem_records_bind_iff ht, Traced.mem_records_bind_iff hns,
      mem_records_recoverTypes ht, ih hns, exists_getElem?_cons, List.head?_eq_getElem?]
    simp

/-- What the recovery of a tree reads, by its records: all members at places of the tree, each from
its extent. -/
theorem mem_records_recoverTree {d : Document} {tree r : DeclarationTree} {s : Step}
    (hr : (recoverTree d tree).outcome = .ok r) :
    s ∈ (recoverTree d tree).records ↔
      ∃ p m x, ReadAt d tree p m x ∧ s = stepOf (p.path.length - 1) m x := by
  obtain ⟨ns, hns, -⟩ := Traced.outcome_bind_eq_ok_iff.mp hr
  rw [recoverTree, Traced.mem_records_bind_iff hns, mem_records_recoverNamespaces hns,
    Traced.records_pure]
  constructor
  · rintro (⟨k, n, hn, l, t, ht, path, m, x, hp, rfl⟩ | h)
    · exact ⟨⟨k, l, path⟩, m, x, ⟨_, _, by simp [typeAt?, hn, ht], hp⟩, rfl⟩
    · cases h
  · rintro ⟨⟨k, l, path⟩, m, x, ⟨bound, ms, htype, hp⟩, rfl⟩
    obtain ⟨n, hn, htype⟩ := Option.bind_eq_some_iff.mp htype
    obtain ⟨t, ht, htype⟩ := Option.bind_eq_some_iff.mp htype
    cases htype
    exact .inl ⟨k, n, hn, l, t, ht, path, m, x, hp, rfl⟩

end Graft.Recovery
