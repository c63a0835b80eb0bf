import Mathlib.Data.List.Basic
import Graft.Recovery.Tree

/-!
# What recovering a tree can do

`RecoversContent`, `RecoversMember`, `RecoversLocated`, `RecoversTypes` and `RecoversNamespaces` are
the successful runs of the recovery, from the content of a member up to the namespaces of a tree:
`recoverTree_ok_iff`. How deep a member is nested plays a part in records only. What holds of every
recovery is proved by induction on these relations.
-/

namespace Graft

/-! ### Contents with a text -/

namespace Content

/-- Whether it is the content of a field, which has comments and no text of its own. -/
def isField : Content → Bool
  | .field .. => true
  | _ => false

/-- Whether it is the content of a property, whose text is that of its accessors. -/
def isProperty : Content → Bool
  | .property .. => true
  | _ => false

/-- The content with another text: another body, or other accessors. -/
def withText (body : String) (accessors : Accessors) : Content → Content
  | .field typeName comments => .field typeName comments
  | .method returnType signature _ => .method returnType signature body
  | .constructor signature _ => .constructor signature body
  | .property typeName _ => .property typeName accessors

@[simp] lemma isField_withText (body : String) (accessors : Accessors) (c : Content) :
    (c.withText body accessors).isField = c.isField := by
  cases c <;> rfl

@[simp] lemma isProperty_withText (body : String) (accessors : Accessors) (c : Content) :
    (c.withText body accessors).isProperty = c.isProperty := by
  cases c <;> rfl

@[simp] lemma withText_withText (body body' : String) (accessors accessors' : Accessors)
    (c : Content) :
    (c.withText body accessors).withText body' accessors' = c.withText body' accessors' := by
  cases c <;> rfl

end Content

namespace Recovery

/-! ### The relations -/

/-- Recovering the content of a member with that head: the comments of a field, and the text of any
other member. -/
inductive RecoversContent (d : Document) (x : Extent) (h : MemberHead) :
    Content → MemberHead → Content → Prop where
  | field (typeName : String) (comments : List String) :
      RecoversContent d x h (.field typeName comments) h
        (.field typeName (Source.commentsAbove d x.start))
  /-- An abstract member has no text. -/
  | cleared {c : Content} (hc : c.isField = false) (ha : h.isAbstract = true) :
      RecoversContent d x h c h (c.withText "" {})
  | filled {c : Content} {body : Body} {accessors : Accessors} (hc : c.isField = false)
      (ha : h.isAbstract = false) (hb : recoverBody d x h.name = .ok body)
      (hs : c.isProperty = true → recoverAccessors body.text h.name x.start = .ok accessors) :
      RecoversContent d x h c { h with fold := body.fold } (c.withText body.text accessors)

mutual

/-- Recovering one member from its extent. -/
inductive RecoversMember (d : Document) : Extent → Member → Member → Prop where
  | plain {x : Extent} {h h' : MemberHead} {c c' : Content}
      (hc : RecoversContent d x h c h' c') :
      RecoversMember d x (.plain h c) (.plain h' c')
  /-- The members of a nested type are recovered up to where it ends; nothing else changes. -/
  | nested {x : Extent} {h : MemberHead} {t : TypeHeader} {ms ms' : List Member}
      (hm : missingLine? ms = none)
      (hl : RecoversLocated d (extentsOf (x.innerEnd (t.closingLine.map UInt64.toNat)) ms) ms ms') :
      RecoversMember d x (.nested h t ms) (.nested h t ms')

/-- Recovering the members that have a line, each from the next of the extents. -/
inductive RecoversLocated (d : Document) : List Extent → List Member → List Member → Prop where
  | nil (xs : List Extent) : RecoversLocated d xs [] []
  | located {x : Extent} {xs : List Extent} {m m' : Member} {ms ms' : List Member}
      (hn : m.firstLine?.isSome = true) (hm : RecoversMember d x m m')
      (hl : RecoversLocated d xs ms ms') : RecoversLocated d (x :: xs) (m :: ms) (m' :: ms')
  /-- A member without a line is passed by. -/
  | passed {xs : List Extent} {m : Member} {ms ms' : List Member}
      (hn : m.firstLine? = none ∨ xs = []) (hl : RecoversLocated d xs ms ms') :
      RecoversLocated d xs (m :: ms) (m :: ms')

end

/-- Recovering the members of a type that ends as given. -/
def RecoversMembers (d : Document) (bound : TypeEnd) (ms ms' : List Member) : Prop :=
  missingLine? ms = none ∧ RecoversLocated d (extentsOf bound ms) ms ms'

/-- Recovering the types of a namespace. -/
inductive RecoversTypes (d : Document) (stop scopes : Nat) :
    List TypeDecl → List TypeDecl → Prop where
  | nil : RecoversTypes d stop scopes [] []
  | cons {t : TypeDecl} {ts ts' : List TypeDecl} {members : List Member}
      (hm : RecoversMembers d (typeEnd t ts.head? stop scopes) t.members members)
      (ht : RecoversTypes d stop scopes ts ts') :
      RecoversTypes d stop scopes (t :: ts) ({ t with members } :: ts')

/-- Recovering the types of all namespaces. -/
inductive RecoversNamespaces (d : Document) : List Namespace → List Namespace → Prop where
  | nil : RecoversNamespaces d [] []
  | cons {n : Namespace} {ns ns' : List Namespace} {types : List TypeDecl}
      (ht : RecoversTypes d (namespaceEnd d n ns.head?).1 (namespaceEnd d n ns.head?).2 n.types
        types)
      (hn : RecoversNamespaces d ns ns') :
      RecoversNamespaces d (n :: ns) ({ n with types } :: ns')

/-! ### Inversion -/

/-- A member that has a line takes the first extent. -/
lemma recoversLocated_cons_of_isSome {d : Document} {x : Extent} {xs : List Extent} {m : Member}
    {ms ms' : List Member} (hn : m.firstLine?.isSome = true) :
    RecoversLocated d (x :: xs) (m :: ms) ms' ↔
      ∃ m₁, RecoversMember d x m m₁ ∧ ∃ ms₁, RecoversLocated d xs ms ms₁ ∧ m₁ :: ms₁ = ms' := by
  constructor
  · intro h
    cases h with
    | located _ hm hl => exact ⟨_, hm, _, hl, rfl⟩
    | passed hp _ => simp_all
  · rintro ⟨m₁, hm, ms₁, hl, rfl⟩
    exact .located hn hm hl

/-- A member without a line stays as it is and takes no extent. -/
lemma recoversLocated_cons_of_passed {d : Document} {xs : List Extent} {m : Member}
    {ms ms' : List Member} (hn : m.firstLine? = none ∨ xs = []) :
    RecoversLocated d xs (m :: ms) ms' ↔
      ∃ ms₁, RecoversLocated d xs ms ms₁ ∧ m :: ms₁ = ms' := by
  constructor
  · intro h
    cases h with
    | located hs _ _ => simp_all
    | passed _ hl => exact ⟨_, hl, rfl⟩
  · rintro ⟨ms₁, hl, rfl⟩
    exact .passed hn hl

/-! ### One step of a run -/

lemma except_bind_eq_ok_iff {ε α β : Type} {x : Except ε α} {f : α → Except ε β} {b : β} :
    (x >>= f) = .ok b ↔ ∃ a, x = .ok a ∧ f a = .ok b := by
  cases x <;> simp [bind, Except.bind]

/-- The content of a member is recovered in one of three ways, of which only the last can fail. -/
theorem recoverContent_ok_iff {d : Document} {x : Extent} {h h' : MemberHead} {c c' : Content} :
    recoverContent d x h c = .ok (h', c') ↔ RecoversContent d x h c h' c' := by
  constructor
  · intro hr
    by_cases ha : h.isAbstract = true
    · cases c with
      | field typeName comments =>
        cases hr
        exact .field typeName comments
      | _ =>
        rw [recoverContent, if_pos ha] at hr
        cases hr
        exact .cleared rfl ha
    · have hb := Bool.not_eq_true _ ▸ ha
      cases c with
      | field typeName comments =>
        cases hr
        exact .field typeName comments
      | property typeName old =>
        rw [recoverContent, if_neg ha, except_bind_eq_ok_iff] at hr
        obtain ⟨body, hbody, hr⟩ := hr
        obtain ⟨accessors, hs, hr⟩ := except_bind_eq_ok_iff.mp hr
        cases hr
        exact .filled (c := .property typeName old) rfl hb hbody fun _ => hs
      | method returnType signature old =>
        rw [recoverContent, if_neg ha, except_bind_eq_ok_iff] at hr
        obtain ⟨body, hbody, hr⟩ := hr
        cases hr
        exact @RecoversContent.filled d x h (.method returnType signature old) body {} rfl hb hbody
          nofun
      | constructor signature old =>
        rw [recoverContent, if_neg ha, except_bind_eq_ok_iff] at hr
        obtain ⟨body, hbody, hr⟩ := hr
        cases hr
        exact @RecoversContent.filled d x h (.constructor signature old) body {} rfl hb hbody nofun
  · intro hr
    cases hr with
    | field typeName comments => rfl
    | cleared hc ha =>
      cases c with
      | field typeName comments => cases hc
      | _ => rw [recoverContent, if_pos ha, Content.withText]
    | filled hc ha hb hs =>
      have ha : ¬ h.isAbstract = true := by simp [ha]
      cases c with
      | field typeName comments => cases hc
      | property typeName old =>
        rw [recoverContent, if_neg ha, except_bind_eq_ok_iff]
        exact ⟨_, hb, except_bind_eq_ok_iff.mpr ⟨_, hs rfl, rfl⟩⟩
      | _ =>
        rw [recoverContent, if_neg ha, except_bind_eq_ok_iff]
        exact ⟨_, hb, rfl⟩

lemma recoverMember_plain_ok_iff {d : Document} {depth : Nat} {x : Extent} {h : MemberHead}
    {c : Content} {m' : Member} :
    (recoverMember d depth x (.plain h c)).outcome = .ok m' ↔
      ∃ h' c', RecoversContent d x h c h' c' ∧ .plain h' c' = m' := by
  rw [recoverMember, Traced.outcome_record_bind, Traced.outcome_bind_eq_ok_iff]
  simp only [Traced.ofExcept, recoverContent_ok_iff, Traced.outcome_pure, Except.ok.injEq,
    Prod.exists]

/-- Whether a line is missing is decided before the first member is read. -/
lemma recoverMembers_ok_iff_located {d : Document} {depth : Nat} {bound : TypeEnd} {type : String}
    {ms ms' : List Member} :
    (recoverMembers d depth bound type ms).outcome = .ok ms' ↔
      missingLine? ms = none ∧
        (recoverLocated d depth (extentsOf bound ms) ms).outcome = .ok ms' := by
  unfold recoverMembers
  cases missingLine? ms <;> simp

/-- A nested type is recovered by recovering its members, one level deeper. -/
lemma recoverMember_nested_ok_iff {d : Document} {depth : Nat} {x : Extent} {h : MemberHead}
    {t : TypeHeader} {ms : List Member} {m' : Member} :
    (recoverMember d depth x (.nested h t ms)).outcome = .ok m' ↔
      ∃ ms', (recoverMembers d (depth + 1) (x.innerEnd (t.closingLine.map UInt64.toNat)) t.name
        ms).outcome = .ok ms' ∧ .nested h t ms' = m' := by
  rw [recoverMember_nested, Traced.outcome_record_bind, Traced.outcome_bind_eq_ok_iff]
  simp only [Traced.outcome_pure, Except.ok.injEq]

lemma recoverLocated_cons_of_isSome {d : Document} {depth : Nat} {x : Extent} {xs : List Extent}
    {m : Member} {ms ms' : List Member} (hn : m.firstLine?.isSome = true) :
    (recoverLocated d depth (x :: xs) (m :: ms)).outcome = .ok ms' ↔
      ∃ m₁, (recoverMember d depth x m).outcome = .ok m₁ ∧
        ∃ ms₁, (recoverLocated d depth xs ms).outcome = .ok ms₁ ∧ m₁ :: ms₁ = ms' := by
  obtain ⟨n, hn⟩ := Option.isSome_iff_exists.mp hn
  simp only [recoverLocated, hn, Traced.outcome_bind_eq_ok_iff, Traced.outcome_pure,
    Except.ok.injEq]

lemma recoverLocated_cons_of_passed {d : Document} {depth : Nat} {xs : List Extent}
    {m : Member} {ms ms' : List Member} (hn : m.firstLine? = none ∨ xs = []) :
    (recoverLocated d depth xs (m :: ms)).outcome = .ok ms' ↔
      ∃ ms₁, (recoverLocated d depth xs ms).outcome = .ok ms₁ ∧ m :: ms₁ = ms' := by
  rw [recoverLocated]
  · simp only [Traced.outcome_bind_eq_ok_iff, Traced.outcome_pure, Except.ok.injEq]
  · intro n x xs' hs hx
    simp_all

/-! ### They are the successful runs -/

mutual

/-- The successful runs for one member. By induction on the members, together with
`recoverLocated_ok_iff`, for all depths at once. -/
theorem recoverMember_ok_iff {d : Document} {depth : Nat} {x : Extent} {m m' : Member} :
    (recoverMember d depth x m).outcome = .ok m' ↔ RecoversMember d x m m' := by
  match m with
  | .plain h c =>
    rw [recoverMember_plain_ok_iff]
    constructor
    · rintro ⟨h', c', hc, rfl⟩
      exact .plain hc
    · rintro (⟨hc⟩ | _)
      exact ⟨_, _, hc, rfl⟩
  | .nested h t ms =>
    rw [recoverMember_nested_ok_iff]
    simp only [recoverMembers_ok_iff_located, recoverLocated_ok_iff]
    constructor
    · rintro ⟨ms', ⟨hm, hl⟩, rfl⟩
      exact .nested hm hl
    · rintro (_ | ⟨hm, hl⟩)
      exact ⟨_, ⟨hm, hl⟩, rfl⟩

theorem recoverLocated_ok_iff {d : Document} {depth : Nat} {xs : List Extent}
    {ms ms' : List Member} :
    (recoverLocated d depth xs ms).outcome = .ok ms' ↔ RecoversLocated d xs ms ms' := by
  match ms with
  | [] =>
    simp only [recoverLocated, Traced.outcome_pure, Except.ok.injEq]
    constructor
    · rintro rfl
      exact .nil xs
    · rintro ⟨⟩
      rfl
  | m :: ms =>
    by_cases hn : m.firstLine? = none ∨ xs = []
    · simp only [recoverLocated_cons_of_passed hn, recoversLocated_cons_of_passed hn,
        recoverLocated_ok_iff]
    · rw [not_or] at hn
      have hs := Option.isSome_iff_ne_none.mpr hn.1
      obtain ⟨x, xs, rfl⟩ := List.exists_cons_of_ne_nil hn.2
      simp only [recoverLocated_cons_of_isSome hs, recoversLocated_cons_of_isSome hs,
        recoverMember_ok_iff, recoverLocated_ok_iff]

end

theorem recoverMembers_ok_iff {d : Document} {depth : Nat} {bound : TypeEnd} {type : String}
    {ms ms' : List Member} :
    (recoverMembers d depth bound type ms).outcome = .ok ms' ↔ RecoversMembers d bound ms ms' := by
  rw [recoverMembers_ok_iff_located, recoverLocated_ok_iff, RecoversMembers]

/-- A nested type is recovered as any other type that ends where its member does. -/
lemma recoversMember_nested_iff {d : Document} {x : Extent} {h : MemberHead} {t : TypeHeader}
    {ms : List Member} {m' : Member} :
    RecoversMember d x (.nested h t ms) m' ↔
      ∃ ms', RecoversMembers d (x.innerEnd (t.closingLine.map UInt64.toNat)) ms ms' ∧
        m' = .nested h t ms' := by
  constructor
  · rintro (_ | ⟨hm, hl⟩)
    exact ⟨_, ⟨hm, hl⟩, rfl⟩
  · rintro ⟨ms', ⟨hm, hl⟩, rfl⟩
    exact .nested hm hl

/-- Types are recovered one after the other, each bounded by the one behind it. -/
theorem recoverTypes_ok_iff {d : Document} {stop scopes : Nat} {ts ts' : List TypeDecl} :
    (recoverTypes d stop scopes ts).outcome = .ok ts' ↔ RecoversTypes d stop scopes ts ts' := by
  induction ts generalizing ts' with
  | nil =>
    simp only [recoverTypes, Traced.outcome_pure, Except.ok.injEq]
    constructor
    · rintro rfl
      exact .nil
    · rintro ⟨⟩
      rfl
  | cons t ts ih =>
    simp only [recoverTypes, Traced.outcome_bind_eq_ok_iff, recoverMembers_ok_iff, ih,
      Traced.outcome_pure, Except.ok.injEq]
    constructor
    · rintro ⟨members, hm, ts₁, ht, rfl⟩
      exact .cons hm ht
    · rintro (_ | ⟨hm, ht⟩)
      exact ⟨_, hm, _, ht, rfl⟩

theorem recoverNamespaces_ok_iff {d : Document} {ns ns' : List Namespace} :
    (recoverNamespaces d ns).outcome = .ok ns' ↔ RecoversNamespaces d ns ns' := by
  induction ns generalizing ns' with
  | nil =>
    simp only [recoverNamespaces, Traced.outcome_pure, Except.ok.injEq]
    constructor
    · rintro rfl
      exact .nil
    · rintro ⟨⟩
      rfl
  | cons n ns ih =>
    simp only [recoverNamespaces, Traced.outcome_bind_eq_ok_iff, recoverTypes_ok_iff, ih,
      Traced.outcome_pure, Except.ok.injEq]
    constructor
    · rintro ⟨types, ht, ns₁, hn, rfl⟩
      exact .cons ht hn
    · rintro (_ | ⟨ht, hn⟩)
      exact ⟨_, ht, _, hn, rfl⟩

/-- A tree is recovered by recovering its namespaces. It fails if one member of one type does. -/
theorem recoverTree_ok_iff {d : Document} {tree recovered : DeclarationTree} :
    (recoverTree d tree).outcome = .ok recovered ↔
      RecoversNamespaces d tree.namespaces recovered.namespaces := by
  simp only [recoverTree, Traced.outcome_bind_eq_ok_iff, recoverNamespaces_ok_iff,
    Traced.outcome_pure, Except.ok.injEq]
  constructor
  · rintro ⟨ns, hn, rfl⟩
    exact hn
  · intro h
    exact ⟨_, h, rfl⟩

end Recovery

end Graft
