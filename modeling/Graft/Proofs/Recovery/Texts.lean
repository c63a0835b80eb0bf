import Graft.Proofs.ParsedSource.Accepted
import Graft.Proofs.Recovery.Runs

/-!
# Which texts come from the document

A parser's own account of bodies and accessors is worth nothing: the recovery puts the document's
text in its place. It does not reach everywhere, though. A nested type may be abstract and then
needs no line, and nobody looks inside a nested type without a line; a member with a text in there
is a hidden one and keeps what the parser made of it. The parser's texts have no influence on what
is recovered exactly if no text is hidden: `texts_recovered_iff`.
-/

namespace Graft

/-! ### Replacing texts -/

namespace Member

mutual

/-- The member with these texts in place of those that it holds, inside it as well. An abstract
member holds none. -/
def withTexts (body : String) (accessors : Accessors) : Member → Member
  | .plain h c => .plain h (if h.isAbstract then c else c.withText body accessors)
  | .nested h t ms => .nested h t (withTextsAll body accessors ms)

/-- The members with these texts in place of those that they hold. -/
def withTextsAll (body : String) (accessors : Accessors) : List Member → List Member
  | [] => []
  | m :: ms => withTexts body accessors m :: withTextsAll body accessors ms

end

mutual

/-- Whether the member holds a text, itself or somewhere inside. -/
def holdsText : Member → Bool
  | .plain h c => !h.isAbstract && !c.isField
  | .nested _ _ ms => holdTexts ms

/-- Whether one of the members holds a text. -/
def holdTexts : List Member → Bool
  | [] => false
  | m :: ms => holdsText m || holdTexts ms

end

mutual

/-- Whether there is a text inside the member in a nested type that has no line. -/
def hidesText : Member → Bool
  | .plain .. => false
  | .nested h _ ms => if h.firstLine.isSome then hideTexts ms else holdTexts ms

/-- Whether there is a text in a nested type without a line, in one of the members. -/
def hideTexts : List Member → Bool
  | [] => false
  | m :: ms => hidesText m || hideTexts ms

end

end Member

/-- The type with these texts in place of those that its members hold. -/
def TypeDecl.withTexts (body : String) (accessors : Accessors) (t : TypeDecl) : TypeDecl :=
  { t with members := Member.withTextsAll body accessors t.members }

/-- The namespace with these texts in place of those in its types. -/
def Namespace.withTexts (body : String) (accessors : Accessors) (n : Namespace) : Namespace :=
  { n with types := n.types.map (·.withTexts body accessors) }

namespace DeclarationTree

/-- The tree with these texts in place of those that its members hold. -/
def withTexts (body : String) (accessors : Accessors) (tree : DeclarationTree) : DeclarationTree :=
  { namespaces := tree.namespaces.map (·.withTexts body accessors) }

/-- Whether a text of the tree is in a nested type that has no line. -/
def hidesText (tree : DeclarationTree) : Bool :=
  tree.namespaces.any fun n => n.types.any fun t => Member.hideTexts t.members

/-- The second tree is the first one, with other texts in some of the places that hold one. -/
def Retexts (tree tree' : DeclarationTree) : Prop :=
  tree'.withTexts "" {} = tree.withTexts "" {}

end DeclarationTree

/-! ### What texts do not change -/

namespace Member

@[simp] lemma head_withTexts (body : String) (accessors : Accessors) (m : Member) :
    (m.withTexts body accessors).head = m.head := by
  cases m <;> rfl

@[simp] lemma firstLine?_withTexts (body : String) (accessors : Accessors) (m : Member) :
    (m.withTexts body accessors).firstLine? = m.firstLine? := by
  rw [firstLine?, head_withTexts, firstLine?]

@[simp] lemma map_head_withTextsAll (body : String) (accessors : Accessors) (ms : List Member) :
    (withTextsAll body accessors ms).map head = ms.map head := by
  induction ms with
  | nil => rfl
  | cons m ms ih => rw [withTextsAll, List.map_cons, List.map_cons, ih, head_withTexts]

mutual

/-- Only the last of two sets of texts is left. -/
@[simp] lemma withTexts_withTexts (body body' : String) (accessors accessors' : Accessors)
    (m : Member) :
    (m.withTexts body accessors).withTexts body' accessors' = m.withTexts body' accessors' := by
  match m with
  | .plain h c =>
    by_cases ha : h.isAbstract = true
    · simp [withTexts, ha]
    · simp [withTexts, ha]
  | .nested h t ms => simp [withTexts, withTextsAll_withTextsAll body body' accessors accessors' ms]

@[simp] lemma withTextsAll_withTextsAll (body body' : String) (accessors accessors' : Accessors)
    (ms : List Member) :
    withTextsAll body' accessors' (withTextsAll body accessors ms) =
      withTextsAll body' accessors' ms := by
  match ms with
  | [] => rfl
  | m :: ms =>
    simp [withTextsAll, withTexts_withTexts body body' accessors accessors' m,
      withTextsAll_withTextsAll body body' accessors accessors' ms]

end

end Member

/-- Trees that differ in their texts are the same once the texts are replaced. -/
lemma DeclarationTree.Retexts.withTexts_eq {tree tree' : DeclarationTree}
    (h : tree.Retexts tree') (body : String) (accessors : Accessors) :
    tree'.withTexts body accessors = tree.withTexts body accessors := by
  have hw := congrArg (DeclarationTree.withTexts body accessors) h
  have twice : ∀ tree : DeclarationTree,
      (tree.withTexts "" {}).withTexts body accessors = tree.withTexts body accessors := by
    intro tree
    simp [DeclarationTree.withTexts, Namespace.withTexts, TypeDecl.withTexts]
  rwa [twice, twice] at hw

lemma DeclarationTree.retexts_withTexts (body : String) (accessors : Accessors)
    (tree : DeclarationTree) : tree.Retexts (tree.withTexts body accessors) := by
  simp [DeclarationTree.Retexts, DeclarationTree.withTexts, Namespace.withTexts, TypeDecl.withTexts]

/-! ### Validation does not read texts -/

namespace ParsedSource

open Recovery

mutual

/-- The validation does not look at texts. -/
lemma memberAccepted_withTexts {d : Document} {previous : Option Nat} {body : String}
    {accessors : Accessors} (m : Member) :
    MemberAccepted d previous (m.withTexts body accessors) ↔ MemberAccepted d previous m := by
  match m with
  | .plain h c => rfl
  | .nested h t ms =>
    simp only [Member.withTexts, MemberAccepted, ClosingAccepted,
      startsOf_congr (Member.map_head_withTextsAll body accessors ms),
      membersAccepted_withTextsAll ms]

lemma membersAccepted_withTextsAll {d : Document} {previous : Option Nat} {body : String}
    {accessors : Accessors} (ms : List Member) :
    MembersAccepted d previous (Member.withTextsAll body accessors ms) ↔
      MembersAccepted d previous ms := by
  match ms with
  | [] => rfl
  | m :: ms =>
    simp only [Member.withTextsAll, MembersAccepted, Member.firstLine?_withTexts,
      memberAccepted_withTexts m, membersAccepted_withTextsAll ms]

end

lemma typeAccepted_withTexts {d : Document} {previous : Option Nat} {body : String}
    {accessors : Accessors} {t : TypeDecl} :
    TypeAccepted d previous (t.withTexts body accessors) ↔ TypeAccepted d previous t := by
  simp only [TypeAccepted, TypeDecl.withTexts, ClosingAccepted,
    startsOf_congr (Member.map_head_withTextsAll body accessors t.members),
    membersAccepted_withTextsAll]

lemma typesAccepted_withTexts {d : Document} {previous : Option Nat} {body : String}
    {accessors : Accessors} {ts : List TypeDecl} :
    TypesAccepted d previous (ts.map (·.withTexts body accessors)) ↔
      TypesAccepted d previous ts := by
  induction ts generalizing previous with
  | nil => rfl
  | cons t ts ih =>
    rw [List.map_cons, TypesAccepted, TypesAccepted, typeAccepted_withTexts, ih]
    rfl

lemma treeAccepted_withTexts {d : Document} {body : String} {accessors : Accessors}
    {tree : DeclarationTree} :
    TreeAccepted d (tree.withTexts body accessors) ↔ TreeAccepted d tree := by
  simp only [TreeAccepted, DeclarationTree.withTexts, Namespace.withTexts, List.forall_mem_map,
    typesAccepted_withTexts]

/-- A parsed source with other texts is accepted as well. -/
theorem validate_retexted {parsed : ParsedSource} {d : Document} {tree tree' : DeclarationTree}
    (h : (parsed.validate d).outcome = .ok tree) (ht : tree.Retexts tree') :
    ({ parsed with tree := tree' }.validate d).outcome = .ok tree' := by
  obtain ⟨hv, rfl⟩ := validate_ok_iff.mp h
  refine validate_ok_iff.mpr ⟨?_, rfl⟩
  rwa [← treeAccepted_withTexts, ht.withTexts_eq "" {}, treeAccepted_withTexts]

end ParsedSource

/-! ### Two accounts that are recovered alike -/

section TwoAccounts

variable {body body' : String} {accessors accessors' : Accessors}

lemma Content.exists_withText_eq_self (c : Content) :
    ∃ body accessors, c.withText body accessors = c := by
  cases c with
  | field typeName comments => exact ⟨"", {}, rfl⟩
  | method returnType signature old => exact ⟨old, {}, rfl⟩
  | constructor signature old => exact ⟨old, {}, rfl⟩
  | property typeName old => exact ⟨"", old, rfl⟩

/-- Two different texts make no difference to a content exactly if it is that of a field, which has
none. -/
lemma Content.withText_eq_iff (hb : body ≠ body') (ha : accessors ≠ accessors') {c k : Content} :
    c.withText body accessors = k ∧ c.withText body' accessors' = k ↔
      c = k ∧ c.isField = true := by
  cases c with
  | field typeName comments => simp [Content.withText, Content.isField]
  | property typeName old =>
    refine ⟨?_, by simp [Content.isField]⟩
    rintro ⟨rfl, h⟩
    exact absurd (Content.property.inj h).2.symm ha
  | method returnType signature old =>
    refine ⟨?_, by simp [Content.isField]⟩
    rintro ⟨rfl, h⟩
    exact absurd (Content.method.inj h).2.2.symm hb
  | constructor signature old =>
    refine ⟨?_, by simp [Content.isField]⟩
    rintro ⟨rfl, h⟩
    exact absurd (Content.constructor.inj h).2.symm hb

mutual

/-- Two accounts of a member agree exactly where it holds no text. -/
lemma Member.withTexts_eq_iff (hb : body ≠ body') (ha : accessors ≠ accessors') (m k : Member) :
    m.withTexts body accessors = k ∧ m.withTexts body' accessors' = k ↔
      m = k ∧ m.holdsText = false := by
  match m, k with
  | .plain h c, .plain h' k =>
    by_cases habs : h.isAbstract = true
    · simp [Member.withTexts, Member.holdsText, habs]
    · simp only [Member.withTexts, Member.holdsText, habs, Member.plain.injEq]
      have hc := Content.withText_eq_iff hb ha (c := c) (k := k)
      simp only [Bool.false_eq_true, if_false, Bool.not_false, Bool.true_and,
        Bool.not_eq_false', and_assoc, ← hc]
      tauto
  | .nested h t ms, .nested h' t' ks =>
    have hs := Member.withTextsAll_eq_iff hb ha ms ks
    simp only [Member.withTexts, Member.holdsText, Member.nested.injEq, and_assoc, ← hs]
    tauto
  | .plain h c, .nested .. => simp [Member.withTexts]
  | .nested h t ms, .plain .. => simp [Member.withTexts]

/-- Two different texts make no difference to a member list exactly if it holds none. -/
lemma Member.withTextsAll_eq_iff (hb : body ≠ body') (ha : accessors ≠ accessors')
    (ms ks : List Member) :
    Member.withTextsAll body accessors ms = ks ∧ Member.withTextsAll body' accessors' ms = ks ↔
      ms = ks ∧ Member.holdTexts ms = false := by
  match ms, ks with
  | [], ks => simp [Member.withTextsAll, Member.holdTexts]
  | m :: ms, [] => simp [Member.withTextsAll]
  | m :: ms, k :: ks =>
    have hm := Member.withTexts_eq_iff hb ha m k
    have hs := Member.withTextsAll_eq_iff hb ha ms ks
    simp only [Member.withTextsAll, Member.holdTexts, List.cons.injEq, Bool.or_eq_false_iff]
    rw [and_and_and_comm, hm, hs, and_and_and_comm]

end

namespace Recovery

/-- What a content is recovered to does not depend on the text that was there. -/
lemma RecoversContent.withText {d : Document} {x : Extent} {h h' : MemberHead} {c c' : Content}
    (hc : RecoversContent d x h c h' c') (body : String) (accessors : Accessors) :
    RecoversContent d x h (c.withText body accessors) h' c' := by
  cases hc with
  | field typeName comments => exact .field typeName comments
  | cleared hf ha =>
    rw [← Content.withText_withText body "" accessors {}]
    exact .cleared (by simp [hf]) ha
  | @filled _ text _ hf ha hb hs =>
    rw [← Content.withText_withText body text.text accessors]
    exact .filled (by simp [hf]) ha hb (by simpa using hs)

/-- The old text has no influence on what is recovered. -/
lemma recoversContent_withText_iff {d : Document} {x : Extent} {h h' : MemberHead}
    {c c' : Content} :
    RecoversContent d x h (c.withText body accessors) h' c' ↔ RecoversContent d x h c h' c' := by
  refine ⟨fun hc => ?_, fun hc => hc.withText body accessors⟩
  obtain ⟨old, oldAccessors, hold⟩ := c.exists_withText_eq_self
  have hback := hc.withText old oldAccessors
  rwa [Content.withText_withText, hold] at hback

lemma recoversMember_plain_withTexts_iff {d : Document} {x : Extent} {h : MemberHead}
    {c : Content} {r : Member} :
    RecoversMember d x ((Member.plain h c).withTexts body accessors) r ↔
      RecoversMember d x (.plain h c) r := by
  have hiff : ∀ c' h' k, RecoversContent d x h (if h.isAbstract then c' else
      c'.withText body accessors) h' k ↔ RecoversContent d x h c' h' k := by
    intro c' h' k
    split
    · rfl
    · exact recoversContent_withText_iff
  constructor
  · rintro (⟨hc⟩ | _)
    exact .plain ((hiff _ _ _).mp hc)
  · rintro (⟨hc⟩ | _)
    exact .plain ((hiff _ _ _).mpr hc)

/-- A member that is passed by has to be abstract, and hides whatever text it holds. -/
lemma hidesText_of_firstLine?_eq_none {m : Member} {ms : List Member}
    (hn : m.firstLine? = none) (hm : missingLine? (m :: ms) = none) :
    m.hidesText = m.holdsText := by
  have hline : m.head.firstLine = none := by simpa [Member.firstLine?] using hn
  have habs := missingLine?_eq_none_iff.mp hm m.head (by simp)
  cases m with
  | plain h c => simp_all [Member.hidesText, Member.holdsText]
  | nested h t ms => simp_all [Member.hidesText, Member.holdsText]

lemma recoversLocated_cons_cons_iff {d : Document} {x : Extent} {xs : List Extent} {m k : Member}
    {ms ks : List Member} (hn : m.firstLine?.isSome = true) :
    RecoversLocated d (x :: xs) (m :: ms) (k :: ks) ↔
      RecoversMember d x m k ∧ RecoversLocated d xs ms ks := by
  rw [recoversLocated_cons_of_isSome hn]
  simp

lemma recoversLocated_passed_cons_iff {d : Document} {xs : List Extent} {m k : Member}
    {ms ks : List Member} (hn : m.firstLine? = none) :
    RecoversLocated d xs (m :: ms) (k :: ks) ↔ m = k ∧ RecoversLocated d xs ms ks := by
  rw [recoversLocated_cons_of_passed (.inl hn)]
  simp [and_comm]

mutual

/-- Two accounts of a member are recovered alike exactly if it hides no text, and then its own
account is, too. -/
theorem recoversMember_withTexts_iff (hb : body ≠ body') (ha : accessors ≠ accessors')
    {d : Document} {x : Extent} {m r : Member} (hn : m.firstLine?.isSome = true) :
    RecoversMember d x (m.withTexts body accessors) r ∧
        RecoversMember d x (m.withTexts body' accessors') r ↔
      RecoversMember d x m r ∧ m.hidesText = false := by
  match m with
  | .plain h c =>
    simp only [recoversMember_plain_withTexts_iff, and_self, Member.hidesText, and_true]
  | .nested h t ms =>
    have hline : h.firstLine.isSome = true := by simpa [Member.firstLine?] using hn
    simp only [Member.withTexts, recoversMember_nested_iff, Member.hidesText, if_pos hline]
    constructor
    · rintro ⟨⟨ks, h₁, rfl⟩, ks', h₂, hk⟩
      obtain rfl : ks = ks' := (Member.nested.inj hk).2.2
      obtain ⟨h₀, hhide⟩ := (recoversMembers_withTexts_iff hb ha).mp ⟨h₁, h₂⟩
      exact ⟨⟨ks, h₀, rfl⟩, hhide⟩
    · rintro ⟨⟨ks, h₀, rfl⟩, hhide⟩
      obtain ⟨h₁, h₂⟩ := (recoversMembers_withTexts_iff hb ha).mpr ⟨h₀, hhide⟩
      exact ⟨⟨ks, h₁, rfl⟩, ks, h₂, rfl⟩

/-- Two recoveries that start from different texts come to the same exactly if every text is read
again: a text of a member that is passed by stays as it was. -/
theorem recoversLocated_withTexts_iff (hb : body ≠ body') (ha : accessors ≠ accessors')
    {d : Document} {bound : TypeEnd} {ms r : List Member} (hm : missingLine? ms = none) :
    RecoversLocated d (extentsOf bound ms) (Member.withTextsAll body accessors ms) r ∧
        RecoversLocated d (extentsOf bound ms) (Member.withTextsAll body' accessors' ms) r ↔
      RecoversLocated d (extentsOf bound ms) ms r ∧ Member.hideTexts ms = false := by
  match ms, r with
  | [], r => simp [Member.withTextsAll, Member.hideTexts]
  | m :: ms, [] =>
    have hnil : ∀ (m : Member) (ms : List Member) (xs : List Extent),
        ¬ RecoversLocated d xs (m :: ms) [] := nofun
    simp [Member.withTextsAll, hnil]
  | m :: ms, k :: ks =>
    have hms : missingLine? ms = none := by
      rw [missingLine?_eq_none_iff] at hm ⊢
      exact fun h hh => hm h (List.mem_cons_of_mem _ hh)
    have ih := @recoversLocated_withTexts_iff hb ha d bound ms ks hms
    have hw : ∀ body accessors, (m.withTexts body accessors).firstLine? = m.firstLine? :=
      fun body accessors => Member.firstLine?_withTexts body accessors m
    simp only [Member.withTextsAll, Member.hideTexts, Bool.or_eq_false_iff]
    cases hn : m.firstLine? with
    | none =>
      rw [hn] at hw
      rw [extentsOf_cons_of_eq_none hn, recoversLocated_passed_cons_iff (hw _ _),
        recoversLocated_passed_cons_iff (hw _ _), recoversLocated_passed_cons_iff hn,
        and_and_and_comm, Member.withTexts_eq_iff hb ha, ih, and_and_and_comm,
        hidesText_of_firstLine?_eq_none hn hm]
    | some n =>
      have hs : m.firstLine?.isSome = true := by simp [hn]
      have hws : ∀ body accessors, (m.withTexts body accessors).firstLine?.isSome = true :=
        fun body accessors => (hw body accessors).symm ▸ hs
      rw [extentsOf_cons_of_eq_some hn, recoversLocated_cons_cons_iff (hws _ _),
        recoversLocated_cons_cons_iff (hws _ _), recoversLocated_cons_cons_iff hs,
        and_and_and_comm, recoversMember_withTexts_iff hb ha hs, ih, and_and_and_comm]

theorem recoversMembers_withTexts_iff (hb : body ≠ body') (ha : accessors ≠ accessors')
    {d : Document} {bound : TypeEnd} {ms r : List Member} :
    RecoversMembers d bound (Member.withTextsAll body accessors ms) r ∧
        RecoversMembers d bound (Member.withTextsAll body' accessors' ms) r ↔
      RecoversMembers d bound ms r ∧ Member.hideTexts ms = false := by
  have hmiss : ∀ body accessors,
      missingLine? (Member.withTextsAll body accessors ms) = none ↔ missingLine? ms = none :=
    fun body accessors =>
      missingLine?_eq_none_congr (Member.map_head_withTextsAll body accessors ms)
  have hext : ∀ body accessors,
      extentsOf bound (Member.withTextsAll body accessors ms) = extentsOf bound ms :=
    fun body accessors => extentsOf_congr (Member.map_head_withTextsAll body accessors ms) bound
  simp only [RecoversMembers, hmiss, hext]
  by_cases hm : missingLine? ms = none
  · simp only [hm, true_and]
    exact recoversLocated_withTexts_iff hb ha hm
  · simp only [hm, false_and]

end

lemma recoversTypes_cons_iff {d : Document} {stop scopes : Nat} {t k : TypeDecl}
    {ts ks : List TypeDecl} :
    RecoversTypes d stop scopes (t :: ts) (k :: ks) ↔
      (RecoversMembers d (typeEnd t ts.head? stop scopes) t.members k.members ∧
        t.header = k.header) ∧ RecoversTypes d stop scopes ts ks := by
  constructor
  · rintro (_ | ⟨hm, ht⟩)
    exact ⟨⟨hm, rfl⟩, ht⟩
  · rintro ⟨⟨hm, hh⟩, ht⟩
    have hk : k = { t with members := k.members } := by rw [hh]
    rw [hk]
    exact .cons hm ht

/-- Where a type ends is no matter of texts. -/
lemma typeEnd_withTexts (t : TypeDecl) (ts : List TypeDecl) (stop scopes : Nat) (body : String)
    (accessors : Accessors) :
    typeEnd (t.withTexts body accessors) (ts.map (·.withTexts body accessors)).head? stop scopes =
      typeEnd t ts.head? stop scopes := by
  cases ts <;> rfl

lemma recoversTypes_withTexts_iff (hb : body ≠ body') (ha : accessors ≠ accessors')
    {d : Document} {stop scopes : Nat} {ts r : List TypeDecl} :
    RecoversTypes d stop scopes (ts.map (·.withTexts body accessors)) r ∧
        RecoversTypes d stop scopes (ts.map (·.withTexts body' accessors')) r ↔
      RecoversTypes d stop scopes ts r ∧ (ts.any fun t => Member.hideTexts t.members) = false := by
  induction ts generalizing r with
  | nil => simp
  | cons t ts ih =>
    cases r with
    | nil =>
      have hnil : ∀ (t : TypeDecl) (ts : List TypeDecl),
          ¬ RecoversTypes d stop scopes (t :: ts) [] := nofun
      simp [hnil]
    | cons k ks =>
      rw [List.map_cons, List.map_cons, recoversTypes_cons_iff, recoversTypes_cons_iff,
        recoversTypes_cons_iff, typeEnd_withTexts, typeEnd_withTexts, List.any_cons,
        Bool.or_eq_false_iff, and_and_and_comm, ih, and_and_and_comm]
      have hm := @recoversMembers_withTexts_iff _ _ _ _ hb ha d (typeEnd t ts.head? stop scopes)
        t.members k.members
      simp only [TypeDecl.withTexts]
      tauto

lemma recoversNamespaces_cons_iff {d : Document} {n k : Namespace} {ns ks : List Namespace} :
    RecoversNamespaces d (n :: ns) (k :: ks) ↔
      (RecoversTypes d (namespaceEnd d n ns.head?).1 (namespaceEnd d n ns.head?).2 n.types k.types ∧
        { n with types := k.types } = k) ∧ RecoversNamespaces d ns ks := by
  constructor
  · rintro (_ | ⟨ht, hn⟩)
    exact ⟨⟨ht, rfl⟩, hn⟩
  · rintro ⟨⟨ht, hk⟩, hn⟩
    rw [← hk]
    exact .cons ht hn

lemma namespaceEnd_withTexts (d : Document) (n : Namespace) (ns : List Namespace) (body : String)
    (accessors : Accessors) :
    namespaceEnd d (n.withTexts body accessors) (ns.map (·.withTexts body accessors)).head? =
      namespaceEnd d n ns.head? := by
  cases ns <;> rfl

lemma recoversNamespaces_withTexts_iff (hb : body ≠ body') (ha : accessors ≠ accessors')
    {d : Document} {ns r : List Namespace} :
    RecoversNamespaces d (ns.map (·.withTexts body accessors)) r ∧
        RecoversNamespaces d (ns.map (·.withTexts body' accessors')) r ↔
      RecoversNamespaces d ns r ∧
        (ns.any fun n => n.types.any fun t => Member.hideTexts t.members) = false := by
  induction ns generalizing r with
  | nil => simp
  | cons n ns ih =>
    cases r with
    | nil =>
      have hnil : ∀ (n : Namespace) (ns : List Namespace),
          ¬ RecoversNamespaces d (n :: ns) [] := nofun
      simp [hnil]
    | cons k ks =>
      rw [List.map_cons, List.map_cons, recoversNamespaces_cons_iff, recoversNamespaces_cons_iff,
        recoversNamespaces_cons_iff, namespaceEnd_withTexts, namespaceEnd_withTexts, List.any_cons,
        Bool.or_eq_false_iff, and_and_and_comm, ih, and_and_and_comm]
      have ht := @recoversTypes_withTexts_iff _ _ _ _ hb ha d (namespaceEnd d n ns.head?).1
        (namespaceEnd d n ns.head?).2 n.types k.types
      simp only [Namespace.withTexts]
      tauto

/-- The same for whole trees: the texts that survive a recovery are those of members that it passes
by. -/
theorem recoverTree_withTexts_iff (hb : body ≠ body') (ha : accessors ≠ accessors')
    {d : Document} {tree recovered : DeclarationTree} :
    (recoverTree d (tree.withTexts body accessors)).outcome = .ok recovered ∧
        (recoverTree d (tree.withTexts body' accessors')).outcome = .ok recovered ↔
      (recoverTree d tree).outcome = .ok recovered ∧ tree.hidesText = false := by
  simp only [recoverTree_ok_iff]
  exact recoversNamespaces_withTexts_iff hb ha

end Recovery

end TwoAccounts

/-! ### The parser's texts have no influence -/

namespace Recovery

/-- Where no text is hidden, another account of the texts is recovered to the same tree. -/
theorem recoverTree_retexted {d : Document} {tree tree' recovered : DeclarationTree}
    (h : (recoverTree d tree).outcome = .ok recovered) (hh : tree.hidesText = false)
    (ht : tree.Retexts tree') : (recoverTree d tree').outcome = .ok recovered := by
  have hb : "" ≠ "_" := by decide
  have ha : ({} : Accessors) ≠ { get := some "" } := by decide
  have htwo := (recoverTree_withTexts_iff hb ha).mpr ⟨h, hh⟩
  rw [← ht.withTexts_eq, ← ht.withTexts_eq] at htwo
  exact ((recoverTree_withTexts_iff hb ha).mp htwo).1

/-- The bodies and accessors in an accepted tree have no influence on what is recovered exactly if
none of them is inside a nested type without a line. -/
theorem texts_recovered_iff {d : Document} {parsed : ParsedSource}
    {tree recovered : DeclarationTree} (hv : (parsed.validate d).outcome = .ok tree)
    (hr : (recoverTree d tree).outcome = .ok recovered) :
    (∀ tree', tree.Retexts tree' →
        ({ parsed with tree := tree' }.validate d).outcome = .ok tree' ∧
          (recoverTree d tree').outcome = .ok recovered) ↔
      tree.hidesText = false := by
  constructor
  · intro h
    have hb : "" ≠ "_" := by decide
    have ha : ({} : Accessors) ≠ { get := some "" } := by decide
    have htwo := (recoverTree_withTexts_iff hb ha).mp
      ⟨(h _ (tree.retexts_withTexts _ _)).2, (h _ (tree.retexts_withTexts _ _)).2⟩
    exact htwo.2
  · intro hh tree' ht
    exact ⟨ParsedSource.validate_retexted hv ht, recoverTree_retexted hr hh ht⟩

/-! ### An abstract class inside a class -/

/-- A class that holds an abstract one, which has a method with a body. -/
def shapeSource : Document :=
  .ofLines [
    "class Shape \x7b",
    "    abstract class Part \x7b",
    "        void Draw() \x7b",
    "            Paint();",
    "        \x7d",
    "    \x7d",
    "\x7d"]

/-- The tree of the source, with this line of the inner class and this body of the method. -/
def shapeTree (part : Option UInt64) (draw : String) : DeclarationTree where
  namespaces := [{
    types := [{
      header := { name := "Shape", firstLine := some 1, closingLine := some 7 }
      members := [
        .nested { name := "Part", firstLine := part, isAbstract := true }
          { name := "Part", closingLine := some 6 }
          [.plain { name := "Draw", firstLine := some 3 } (.method "void" [] draw)]] }] }]

/-- With a line for the inner class the method's body comes from the source. -/
theorem draw_recovered :
    (ParsedSource.validate { tree := shapeTree (some 2) "parsed();" } shapeSource).outcome =
        .ok (shapeTree (some 2) "parsed();") ∧
      ∀ tree', (shapeTree (some 2) "parsed();").Retexts tree' →
        (ParsedSource.validate { tree := tree' } shapeSource).outcome = .ok tree' ∧
          (recoverTree shapeSource tree').outcome =
            .ok (shapeTree (some 2) "            Paint();") := by
  have hv : (ParsedSource.validate { tree := shapeTree (some 2) "parsed();" } shapeSource).outcome =
      .ok (shapeTree (some 2) "parsed();") := by
    decide +kernel
  have hr : (recoverTree shapeSource (shapeTree (some 2) "parsed();")).outcome =
      .ok (shapeTree (some 2) "            Paint();") := by
    decide +kernel
  exact ⟨hv, (texts_recovered_iff hv hr).mpr (by decide)⟩

/-- Without one, nobody looks inside, and the body is what the parser made of it. -/
theorem draw_not_recovered :
    ¬ ∀ (d : Document) (parsed : ParsedSource) (tree recovered tree' : DeclarationTree),
      (parsed.validate d).outcome = .ok tree → (recoverTree d tree).outcome = .ok recovered →
        tree.Retexts tree' → (recoverTree d tree').outcome = .ok recovered := by
  intro h
  have hv : (ParsedSource.validate { tree := shapeTree none "parsed();" } shapeSource).outcome =
      .ok (shapeTree none "parsed();") := by
    decide +kernel
  have hr : ∀ draw, (recoverTree shapeSource (shapeTree none draw)).outcome =
      .ok (shapeTree none draw) :=
    fun draw => rfl
  have hsame := h _ _ _ _ (shapeTree none "") hv (hr "parsed();") rfl
  rw [hr] at hsame
  exact absurd (Except.ok.inj hsame) (by decide)

end Recovery

end Graft
