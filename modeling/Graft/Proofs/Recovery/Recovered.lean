import Graft.Proofs.Recovery.Nesting

/-!
# Recovered members at their places

The recovery changes neither the lines of members nor the ends of types: what was read at a place of
the tree has its recovered member at the same place, with the same extent,
`ReadAt.exists_recovered`. What is recovered at a place can be told from what was read there.
-/

namespace Graft.Recovery

/-! ### Members -/

/-- Recovering a member leaves its line as it is. -/
lemma RecoversMember.firstLine?_eq {d : Document} {x : Extent} {m m' : Member}
    (h : RecoversMember d x m m') : m'.firstLine? = m.firstLine? := by
  cases h with
  | plain hc => cases hc <;> rfl
  | nested _ _ => rfl

/-- A member with a body gets the text and the fold marks of what is recovered from its extent. -/
lemma RecoversMember.exists_filled {d : Document} {x : Extent} {h : MemberHead} {c : Content}
    {m : Member} (hm : RecoversMember d x (.plain h c) m) (ha : h.isAbstract = false)
    (hf : c.isField = false) :
    ∃ body accessors, recoverBody d x h.name = .ok body ∧
      m = .plain { h with fold := body.fold } (c.withText body.text accessors) := by
  obtain ⟨hc⟩ | _ := hm
  cases hc with
  | field typeName comments => cases hf
  | cleared _ habs =>
    rw [ha] at habs
    cases habs
  | filled _ _ hb _ => exact ⟨_, _, hb, rfl⟩

lemma RecoversLocated.startsOf_eq {d : Document} {xs : List Extent} {ms ms' : List Member}
    (h : RecoversLocated d xs ms ms') : startsOf ms' = startsOf ms := by
  induction ms generalizing xs ms' with
  | nil =>
    cases h
    rfl
  | cons m ms ih =>
    cases h with
    | located _ hm hl =>
      simp only [startsOf, List.filterMap_cons, hm.firstLine?_eq] at ih ⊢
      rw [ih hl]
    | passed _ hl =>
      simp only [startsOf, List.filterMap_cons] at ih ⊢
      rw [ih hl]

/-- The member at a position of the list is recovered from its extent. -/
lemma RecoversLocated.exists_located {d : Document} {bound : TypeEnd} {ms ms' : List Member}
    (h : RecoversLocated d (extentsOf bound ms) ms ms') {i : Nat} {m : Member} {x : Extent}
    (hi : located? bound ms i = some (m, x)) :
    ∃ m', located? bound ms' i = some (m', x) ∧ RecoversMember d x m m' := by
  induction ms generalizing ms' i with
  | nil => simp [located?] at hi
  | cons k ms ih =>
    cases hk : k.firstLine? with
    | none =>
      rw [extentsOf_cons_of_eq_none hk] at h
      obtain ⟨ms', hl, rfl⟩ := (recoversLocated_cons_of_passed (.inl hk)).mp h
      cases i with
      | zero =>
        obtain ⟨-, n, hn, -⟩ := eq_located_of_zero hi
        rw [hk] at hn
        cases hn
      | succ i =>
        rw [located?_succ] at hi ⊢
        exact ih hl hi
    | some n =>
      rw [extentsOf_cons_of_eq_some hk] at h
      obtain ⟨k', hm, ms', hl, rfl⟩ := (recoversLocated_cons_of_isSome (by simp [hk])).mp h
      cases i with
      | zero =>
        rw [located?_zero hk] at hi
        cases hi
        rw [located?_zero (hm.firstLine?_eq.trans hk), hl.startsOf_eq]
        exact ⟨k', rfl, hm⟩
      | succ i =>
        rw [located?_succ] at hi ⊢
        exact ih hl hi

lemma RecoversMembers.exists_memberAt {d : Document} {bound : TypeEnd} {ms ms' : List Member}
    (h : RecoversMembers d bound ms ms') {path : List Nat} {m : Member} {x : Extent}
    (hp : MemberAt bound ms path m x) :
    ∃ m', MemberAt bound ms' path m' x ∧ RecoversMember d x m m' := by
  induction hp generalizing ms' with
  | here hi =>
    obtain ⟨m', hi', hm⟩ := h.2.exists_located hi
    exact ⟨m', .here hi', hm⟩
  | inside hi _ ih =>
    obtain ⟨k, hi', hk⟩ := h.2.exists_located hi
    obtain ⟨inner, hinner, rfl⟩ := recoversMember_nested_iff.mp hk
    obtain ⟨m', hp', hm⟩ := ih hinner
    exact ⟨m', .inside hi' hp', hm⟩

/-! ### Trees -/

lemma RecoversTypes.map_header {d : Document} {stop scopes : Nat} {ts ts' : List TypeDecl}
    (h : RecoversTypes d stop scopes ts ts') : ts'.map (·.header) = ts.map (·.header) := by
  induction h with
  | nil => rfl
  | cons _ _ ih => rw [List.map_cons, List.map_cons, ih]

/-- How a type ends is told by its header and the next one's. -/
lemma typeEnd_congr {t t' : TypeDecl} {next next' : Option TypeDecl}
    (h : t'.header = t.header) (hn : next'.map (·.header) = next.map (·.header))
    (stop scopes : Nat) : typeEnd t' next' stop scopes = typeEnd t next stop scopes := by
  have hline : next'.bind (·.header.firstLine) = next.bind (·.header.firstLine) := by
    have hbind := congrArg (Option.bind · TypeHeader.firstLine) hn
    rwa [Option.bind_map, Option.bind_map] at hbind
  rw [typeEnd, h, hline, typeEnd]

lemma RecoversTypes.exists_type {d : Document} {stop scopes : Nat} {ts ts' : List TypeDecl}
    (h : RecoversTypes d stop scopes ts ts') {l : Nat} {t : TypeDecl} (ht : ts[l]? = some t) :
    ∃ t', ts'[l]? = some t' ∧
      typeEnd t' ts'[l + 1]? stop scopes = typeEnd t ts[l + 1]? stop scopes ∧
      RecoversMembers d (typeEnd t ts[l + 1]? stop scopes) t.members t'.members := by
  induction h generalizing l with
  | nil => cases ht
  | @cons u ts ts' members hm hts ih =>
    cases l with
    | zero =>
      cases ht
      rw [List.head?_eq_getElem?] at hm
      refine ⟨_, rfl, typeEnd_congr rfl ?_ stop scopes, hm⟩
      have hnext := congrArg (·[0]?) hts.map_header
      simpa using hnext
    | succ l => exact ih ht

lemma RecoversNamespaces.map_lines {d : Document} {ns ns' : List Namespace}
    (h : RecoversNamespaces d ns ns') : ns'.map (·.firstLine) = ns.map (·.firstLine) := by
  induction h with
  | nil => rfl
  | cons _ _ ih => rw [List.map_cons, List.map_cons, ih]

/-- Where the types of a namespace end is told by its own lines and the next one's. -/
lemma namespaceEnd_congr {d : Document} {n : Namespace} {types : List TypeDecl}
    {next next' : Option Namespace} (h : next'.map (·.firstLine) = next.map (·.firstLine)) :
    namespaceEnd d { n with types } next' = namespaceEnd d n next := by
  have hline : next'.bind (·.firstLine) = next.bind (·.firstLine) := by
    have hbind := congrArg (Option.bind · id) h
    rwa [Option.bind_map, Option.bind_map] at hbind
  rw [namespaceEnd, hline]
  rfl

lemma RecoversNamespaces.exists_namespace {d : Document} {ns ns' : List Namespace}
    (h : RecoversNamespaces d ns ns') {k : Nat} {n : Namespace} (hn : ns[k]? = some n) :
    ∃ n', ns'[k]? = some n' ∧ namespaceEnd d n' ns'[k + 1]? = namespaceEnd d n ns[k + 1]? ∧
      RecoversTypes d (namespaceEnd d n ns[k + 1]?).1 (namespaceEnd d n ns[k + 1]?).2 n.types
        n'.types := by
  induction h generalizing k with
  | nil => cases hn
  | @cons u ns ns' types ht hns ih =>
    cases k with
    | zero =>
      cases hn
      rw [List.head?_eq_getElem?] at ht
      refine ⟨_, rfl, namespaceEnd_congr ?_, ht⟩
      have hnext := congrArg (·[0]?) hns.map_lines
      simpa using hnext
    | succ k => exact ih hn

lemma typeAt?_eq_some_iff {d : Document} {tree : DeclarationTree} {k l : Nat} {bound : TypeEnd}
    {ms : List Member} :
    typeAt? d tree k l = some (bound, ms) ↔
      ∃ n, tree.namespaces[k]? = some n ∧ ∃ t, n.types[l]? = some t ∧
        typeEnd t n.types[l + 1]? (namespaceEnd d n tree.namespaces[k + 1]?).1
          (namespaceEnd d n tree.namespaces[k + 1]?).2 = bound ∧ t.members = ms := by
  simp [typeAt?, Option.bind_eq_some_iff]

lemma readAt_iff {d : Document} {tree : DeclarationTree} {p : Place} {m : Member} {x : Extent} :
    ReadAt d tree p m x ↔
      ∃ n, tree.namespaces[p.namespaceIndex]? = some n ∧ ∃ t, n.types[p.typeIndex]? = some t ∧
        MemberAt (typeEnd t n.types[p.typeIndex + 1]?
            (namespaceEnd d n tree.namespaces[p.namespaceIndex + 1]?).1
            (namespaceEnd d n tree.namespaces[p.namespaceIndex + 1]?).2) t.members p.path m x := by
  constructor
  · rintro ⟨bound, ms, htype, hp⟩
    obtain ⟨n, hn, t, ht, rfl, rfl⟩ := typeAt?_eq_some_iff.mp htype
    exact ⟨n, hn, t, ht, hp⟩
  · rintro ⟨n, hn, t, ht, hp⟩
    exact ⟨_, _, typeAt?_eq_some_iff.mpr ⟨n, hn, t, ht, rfl, rfl⟩, hp⟩

lemma exists_typeAt {d : Document} {tree recovered : DeclarationTree}
    (hr : (recoverTree d tree).outcome = .ok recovered) {k l : Nat} {bound : TypeEnd}
    {ms : List Member} (h : typeAt? d tree k l = some (bound, ms)) :
    ∃ ms', typeAt? d recovered k l = some (bound, ms') ∧ RecoversMembers d bound ms ms' := by
  obtain ⟨n, hn, t, ht, rfl, rfl⟩ := typeAt?_eq_some_iff.mp h
  obtain ⟨n', hn', hend, hts⟩ := (recoverTree_ok_iff.mp hr).exists_namespace hn
  obtain ⟨t', ht', htend, hms⟩ := hts.exists_type ht
  refine ⟨t'.members, typeAt?_eq_some_iff.mpr ⟨n', hn', t', ht', ?_, rfl⟩, hms⟩
  rw [hend, htend]

/-- What is read at a place is recovered there, from its extent. -/
theorem ReadAt.exists_recovered {d : Document} {tree recovered : DeclarationTree} {p : Place}
    {m : Member} {x : Extent} (h : ReadAt d tree p m x)
    (hr : (recoverTree d tree).outcome = .ok recovered) :
    ∃ m', ReadAt d recovered p m' x ∧ RecoversMember d x m m' := by
  obtain ⟨bound, ms, htype, hp⟩ := h
  obtain ⟨ms', htype', hms⟩ := exists_typeAt hr htype
  obtain ⟨m', hp', hm⟩ := hms.exists_memberAt hp
  exact ⟨m', ⟨bound, ms', htype', hp'⟩, hm⟩

/-! ### Lines of a place -/

open ParsedSource in
lemma MemberAt.start_exists {d : Document} {bound : TypeEnd} {ms : List Member} {path : List Nat}
    {m : Member} {x : Extent} (h : MemberAt bound ms path m x) (ha : MembersAccepted d none ms) :
    0 < x.start ∧ x.start ≤ d.size := by
  induction h with
  | here hi =>
    obtain ⟨hmem, hline⟩ := mem_of_located hi
    obtain ⟨n, hn, hstart⟩ := Option.map_eq_some_iff.mp hline
    obtain ⟨_, hm⟩ := ha.exists_of_mem hmem
    rw [← hstart]
    exact hm.head.2.1 n hn
  | inside hi _ ih => exact ih (accepted_inner ha hi)

/-- In an accepted tree, what is read starts on a line of the document. -/
lemma ReadAt.start_exists {d : Document} {tree : DeclarationTree} {p : Place} {m : Member}
    {x : Extent} (h : ReadAt d tree p m x) (ha : ParsedSource.TreeAccepted d tree) :
    0 < x.start ∧ x.start ≤ d.size := by
  obtain ⟨_, _, htype, hp⟩ := h
  exact hp.start_exists (accepted_typeAt ha htype)

end Graft.Recovery
