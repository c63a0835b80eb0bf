import Graft.Proofs.Merge.Matching

/-!
# Conditions on trees

Conditions on the member lists of a tree hold at every depth: for the members of each type of a
namespace, and for those of every type nested in one.
-/

namespace Graft

/-! ### Nested types -/

/-- A nested type as a member list has it. -/
structure NestedType where
  head : MemberHead
  header : TypeHeader
  members : List Member

/-- The nested types in a member list. -/
def nestedTypes (ms : List Member) : List NestedType :=
  ms.filterMap fun
    | .plain .. => none
    | .nested head header members => some { head, header, members }

/-- The nested types of a member list are those of its members that declare a type. -/
lemma mem_nestedTypes {ms : List Member} {x : NestedType} :
    x ∈ nestedTypes ms ↔ .nested x.head x.header x.members ∈ ms := by
  simp only [nestedTypes, List.mem_filterMap]
  constructor
  · rintro ⟨m, hm, hx⟩
    cases m with
    | plain h c => cases hx
    | nested h t inner =>
      cases hx
      exact hm
  · intro hm
    exact ⟨_, hm, rfl⟩

@[simp] lemma nestedTypes_append (ms ms' : List Member) :
    nestedTypes (ms ++ ms') = nestedTypes ms ++ nestedTypes ms' :=
  List.filterMap_append

@[simp] lemma nestedTypes_plain_cons (h : MemberHead) (c : Content) (ms : List Member) :
    nestedTypes (.plain h c :: ms) = nestedTypes ms := rfl

@[simp] lemma nestedTypes_nested_cons (h : MemberHead) (t : TypeHeader) (inner ms : List Member) :
    nestedTypes (.nested h t inner :: ms) = ⟨h, t, inner⟩ :: nestedTypes ms := rfl

@[simp] lemma nestedTypes_nil : nestedTypes [] = [] := rfl

/-! ### Conditions at every depth -/

/-- `P` holds of a member list and of the members of every type nested in it, at any depth. -/
inductive EveryDepth (P : List Member → Prop) : List Member → Prop where
  | intro {ms : List Member} (here : P ms)
      (inside : ∀ h t inner, Member.nested h t inner ∈ ms → EveryDepth P inner) : EveryDepth P ms

lemma EveryDepth.here {P : List Member → Prop} {ms : List Member} (h : EveryDepth P ms) :
    P ms := by
  cases h with
  | intro here _ => exact here

/-- What holds at every depth of a list does so of the members of a nested type. -/
lemma EveryDepth.inside {P : List Member → Prop} {ms inner : List Member} {h : MemberHead}
    {t : TypeHeader} (hd : EveryDepth P ms) (hm : Member.nested h t inner ∈ ms) :
    EveryDepth P inner := by
  cases hd with
  | intro _ inside => exact inside h t inner hm

/-- To hold at every depth is to hold here, and at every depth of each nested type. -/
lemma everyDepth_iff {P : List Member → Prop} {ms : List Member} :
    EveryDepth P ms ↔ P ms ∧ ∀ x ∈ nestedTypes ms, EveryDepth P x.members := by
  constructor
  · intro h
    exact ⟨h.here, fun x hx => h.inside (mem_nestedTypes.mp hx)⟩
  · rintro ⟨here, inside⟩
    exact .intro here fun h t inner hm => inside ⟨h, t, inner⟩ (mem_nestedTypes.mpr hm)

/-- A list without nested types has one depth only. -/
lemma EveryDepth.of_nestedTypes_eq_nil {P : List Member → Prop} {ms : List Member} (h : P ms)
    (hn : nestedTypes ms = []) : EveryDepth P ms := by
  refine everyDepth_iff.mpr ⟨h, ?_⟩
  intro x hx
  rw [hn] at hx
  cases hx

lemma EveryDepth.imp {P Q : List Member → Prop} {ms : List Member} (h : ∀ ms, P ms → Q ms)
    (hd : EveryDepth P ms) : EveryDepth Q ms := by
  induction hd with
  | intro here _ ih => exact .intro (h _ here) ih

/-- Two conditions that hold at every depth hold there together. -/
lemma EveryDepth.and {P Q : List Member → Prop} {ms : List Member} (hp : EveryDepth P ms)
    (hq : EveryDepth Q ms) : EveryDepth (fun ms => P ms ∧ Q ms) ms := by
  induction hp with
  | intro here _ ih =>
    exact .intro ⟨here, hq.here⟩ fun h t inner hm => ih h t inner hm (hq.inside hm)

/-- No member stands for the declaration of a different one. -/
def Unmatched (ms : List Member) : Prop :=
  ∀ a ∈ ms, ∀ b ∈ ms, a ≠ b → a.isMatchFor b = false

/-- The names of the types nested directly in a member list are distinct. -/
def DistinctNested (ms : List Member) : Prop :=
  ((nestedTypes ms).map (·.head.name)).Nodup

instance : DecidablePred Unmatched :=
  fun ms => inferInstanceAs (Decidable (∀ a ∈ ms, ∀ b ∈ ms, a ≠ b → a.isMatchFor b = false))

instance : DecidablePred DistinctNested :=
  fun _ => inferInstanceAs (Decidable (List.Nodup _))

/-! ### Conditions on pairs of member lists -/

/-- `R` holds of two member lists and of the members of any two types of one name that are nested in
them, at any depth. These are the pairs of types that a merge pairs up. -/
inductive EveryPair (R : List Member → List Member → Prop) : List Member → List Member → Prop where
  | intro {target source : List Member} (here : R target source)
      (inside : ∀ x ∈ nestedTypes target, ∀ y ∈ nestedTypes source, x.head.name = y.head.name →
        EveryPair R x.members y.members) : EveryPair R target source

lemma EveryPair.here {R : List Member → List Member → Prop} {target source : List Member}
    (h : EveryPair R target source) : R target source := by
  cases h with
  | intro here _ => exact here

/-- What holds of every pair does so inside two nested types of one name. -/
lemma EveryPair.inside {R : List Member → List Member → Prop} {target source : List Member}
    (h : EveryPair R target source) {x y : NestedType} (hx : x ∈ nestedTypes target)
    (hy : y ∈ nestedTypes source) (hn : x.head.name = y.head.name) :
    EveryPair R x.members y.members := by
  cases h with
  | intro _ inside => exact inside x hx y hy hn

/-- A relation between any two lists holds of every pair. The condition on the first list only
serves to go down to its nested types. -/
lemma EveryPair.of_forall {R : List Member → List Member → Prop} (h : ∀ ms ms', R ms ms')
    {P : List Member → Prop} {target : List Member} (hd : EveryDepth P target)
    (source : List Member) : EveryPair R target source := by
  induction hd generalizing source with
  | intro _ _ ih =>
    refine .intro (h _ _) ?_
    intro x hx y _ _
    exact ih x.head x.header x.members (mem_nestedTypes.mp hx) y.members

/-- If one side has no nested types, the two lists are the only pair. -/
lemma EveryPair.of_nestedTypes_eq_nil {R : List Member → List Member → Prop}
    {target source : List Member} (h : R target source) (hn : nestedTypes target = []) :
    EveryPair R target source := by
  refine .intro h ?_
  intro x hx
  rw [hn] at hx
  cases hx

/-! ### Conditions on trees -/

/-- The names of namespaces are distinct, and the names of types within a namespace. -/
structure DistinctTypes (tree : DeclarationTree) : Prop where
  namespaces : (tree.namespaces.map (·.name)).Nodup
  types : ∀ n ∈ tree.namespaces, (n.types.map (·.header.name)).Nodup

/-- The tree that declares one type. -/
def DeclarationTree.ofMembers (ns type : String) (members : List Member) : DeclarationTree :=
  { namespaces := [{ name := ns, types := [{ header := { name := type }, members }] }] }

/-- `P` holds of the members of every type of a tree, top-level or nested. -/
def EveryType (P : List Member → Prop) (tree : DeclarationTree) : Prop :=
  ∀ n ∈ tree.namespaces, ∀ t ∈ n.types, EveryDepth P t.members

lemma EveryType.imp {P Q : List Member → Prop} {tree : DeclarationTree} (h : ∀ ms, P ms → Q ms)
    (hp : EveryType P tree) : EveryType Q tree :=
  fun n hn t ht => (hp n hn t ht).imp h

lemma EveryType.and {P Q : List Member → Prop} {tree : DeclarationTree} (hp : EveryType P tree)
    (hq : EveryType Q tree) : EveryType (fun ms => P ms ∧ Q ms) tree :=
  fun n hn t ht => (hp n hn t ht).and (hq n hn t ht)

/-- `R` holds of the members of any two types of one name in namespaces of one name, and of the
types nested in them. -/
def EveryTypePair (R : List Member → List Member → Prop) (existing generated : DeclarationTree) :
    Prop :=
  ∀ n ∈ existing.namespaces, ∀ g ∈ generated.namespaces, n.name = g.name →
    ∀ t ∈ n.types, ∀ u ∈ g.types, t.header.name = u.header.name → EveryPair R t.members u.members

lemma distinctTypes_ofMembers (ns type : String) (members : List Member) :
    DistinctTypes (.ofMembers ns type members) := by
  constructor <;> simp [DeclarationTree.ofMembers]

/-- The types of a tree that declares one type are that type and those nested in it. -/
lemma EveryDepth.ofMembers {P : List Member → Prop} {members : List Member} (ns type : String)
    (h : EveryDepth P members) : EveryType P (.ofMembers ns type members) := by
  simpa [EveryType, DeclarationTree.ofMembers] using h

/-- For a single type without nested ones, a condition on the tree is one on its members. -/
lemma EveryType.ofMembers {P : List Member → Prop} {members : List Member} {ns type : String}
    (h : P members) (hn : nestedTypes members = []) : EveryType P (.ofMembers ns type members) :=
  (EveryDepth.of_nestedTypes_eq_nil h hn).ofMembers ns type

/-- Two trees that declare one type of the same name are paired up as these types are. -/
lemma EveryPair.ofMembers {R : List Member → List Member → Prop} {target source : List Member}
    (ns type : String) (h : EveryPair R target source) :
    EveryTypePair R (.ofMembers ns type target) (.ofMembers ns type source) := by
  simpa [EveryTypePair, DeclarationTree.ofMembers] using h

end Graft
