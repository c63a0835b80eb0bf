import Graft.Proofs.Merge.Description
import Graft.Proofs.Merge.Pruning

/-!
# What the report of a merge accounts for

Each generated member of a pair of types has one `Effect`: one record, or the merge of the nested
type that it matches. A call of `mergeMembers` records the effects in order and then the removals,
`CallAccount`. The report of a merge is made of the records of such calls and of single namespaces,
imports and types that went in; if it shows nothing but hand-written members that were kept, the
tree is the old one.
-/

namespace Graft.Merge

/-! ### Effects -/

/-- What a generated member leads to at a place of the member list. -/
inductive Effect where
  /-- This is recorded. -/
  | change (place : Nat) (c : Change)
  /-- The nested type there gets its members merged. -/
  | merge (place : Nat) (type : String) (target source : List Member)

namespace Effect

def place : Effect → Nat
  | change i _ | merge i _ _ _ => i

/-- What it adds to the report. -/
def records : Effect → List Change
  | change _ c => [c]
  | merge _ type target source => (mergeMembers type target source).records

/-- What it adds to the report apart from the merge of a nested type. -/
def own : Effect → List Change
  | change _ c => [c]
  | merge .. => []

end Effect

/-- Bringing one generated member into the members of a type, with the effect it has. -/
inductive Brings (type : String) : List Member → Member → Effect → List Member → Prop where
  | added {target : List Member} {g : Member} (hm : ∀ m ∈ target, m.isMatchFor g = false)
      (hc : ∀ m ∈ target, m.clashesWith g = true → m.isGenerated = true) :
      Brings type target g (.change target.length (.added .member (pathInside type g.label)))
        (target ++ [g])
  | replaced {before after : List Member} {e : Member} {h : MemberHead} {c : Content}
      (hb : ∀ m ∈ before, m.isMatchFor (.plain h c) = false)
      (he : e.isMatchFor (.plain h c) = true) (hg : e.isGenerated = true) :
      Brings type (before ++ e :: after) (.plain h c)
        (.change before.length (.replaced (pathInside type (Member.plain h c).label)))
        (before ++ .plain (replacement e.head h) c :: after)
  | kept {before after : List Member} {e : Member} {h : MemberHead} {c : Content}
      (hb : ∀ m ∈ before, m.isMatchFor (.plain h c) = false)
      (he : e.isMatchFor (.plain h c) = true) (hg : e.isGenerated = false) :
      Brings type (before ++ e :: after) (.plain h c)
        (.change before.length (.kept (pathInside type (Member.plain h c).label)))
        (before ++ e :: after)
  | merged {before after old source merged : List Member} {oh h : MemberHead} {ot t : TypeHeader}
      (hb : ∀ m ∈ before, m.isMatchFor (.nested h t source) = false)
      (he : (Member.nested oh ot old).isMatchFor (.nested h t source) = true)
      (hm : Merges old source merged) :
      Brings type (before ++ .nested oh ot old :: after) (.nested h t source)
        (.merge before.length (pathInside type (Member.nested h t source).label) old source)
        (before ++ .nested oh ot merged :: after)

/-- Bringing generated members into the members of a type, in order: each has one effect. -/
inductive BringsAll (type : String) :
    List Member → List Member → List Effect → List Member → Prop where
  | nil (target : List Member) : BringsAll type target [] [] target
  | cons {target middle grown source : List Member} {g : Member} {effect : Effect}
      {effects : List Effect} (h : Brings type target g effect middle)
      (hs : BringsAll type middle source effects grown) :
      BringsAll type target (g :: source) (effect :: effects) grown

variable {type : String} {target middle grown source : List Member} {g : Member} {effect : Effect}
  {effects : List Effect}

/-! ### Every step has an effect -/

/-- Every step has an effect, and so a record of what it did. -/
lemma Step.exists_brings (type : String) (h : Step target g middle) :
    ∃ effect, Brings type target g effect middle := by
  cases h with
  | append hm hc => exact ⟨_, .added hm hc⟩
  | @renew before after e h c hb he =>
    by_cases hg : e.isGenerated = true
    · rw [renewed_of_isGenerated hg]
      exact ⟨_, .replaced hb he hg⟩
    · have hg' : e.isGenerated = false := by simpa using hg
      rw [renewed_of_not_isGenerated hg']
      exact ⟨_, .kept hb he hg'⟩
  | descend hb he hs => exact ⟨_, .merged hb he ⟨_, hs, rfl⟩⟩

/-- Without its effect, what is brought is a step. -/
lemma Brings.step (h : Brings type target g effect middle) : Step target g middle := by
  cases h with
  | added hm hc => exact .append hm hc
  | @replaced before after e h c hb he hg =>
    have hstep : Step _ _ (before ++ renewed e (.plain h c) :: after) := .renew hb he
    rwa [renewed_of_isGenerated hg] at hstep
  | @kept before after e h c hb he hg =>
    have hstep : Step _ _ (before ++ renewed e (.plain h c) :: after) := .renew hb he
    rwa [renewed_of_not_isGenerated hg] at hstep
  | merged hb he hm =>
    obtain ⟨grown, hs, rfl⟩ := hm
    exact .descend hb he hs

lemma Steps.exists_bringsAll (type : String) (h : Steps target source grown) :
    ∃ effects, BringsAll type target source effects grown := by
  induction source generalizing target with
  | nil =>
    cases h
    exact ⟨[], .nil _⟩
  | cons g gs ih =>
    cases h with
    | cons hg hs =>
      obtain ⟨effect, hg⟩ := hg.exists_brings type
      obtain ⟨effects, hs⟩ := ih hs
      exact ⟨effect :: effects, .cons hg hs⟩

/-- The effects tell nothing that the steps do not. -/
lemma BringsAll.steps (h : BringsAll type target source effects grown) :
    Steps target source grown := by
  induction h with
  | nil target => exact .nil target
  | cons h _ ih => exact .cons h.step ih

/-! ### What is recorded -/

/-- A member that nothing is in the way of is appended, and recorded as added. -/
lemma insertMember_eq (type path : String)
    (hc : ∀ m ∈ target, m.clashesWith g = true → m.isGenerated = true) :
    insertMember type path target g = ⟨[.added .member path], .ok (target ++ [g])⟩ := by
  have hfree : target.find? (fun m => !m.isGenerated && m.clashesWith g) = none := by
    rw [List.find?_eq_none]
    intro m hm
    simp only [Bool.and_eq_true, Bool.not_eq_true']
    rintro ⟨hf, hcl⟩
    exact absurd (hc m hm hcl) (by simp [hf])
  rw [insertMember, hfree]
  rfl

/-- An effect is what `bringMember` does and records. -/
theorem Brings.run (h : Brings type target g effect middle) :
    bringMember type target g = ⟨effect.records, .ok middle⟩ := by
  cases h with
  | added hm hc =>
    rw [bringMember_of_locate_none type (Member.locate_eq_none_iff.mpr hm), insertMember_eq _ _ hc]
    rfl
  | replaced hb he hg =>
    rw [bringMember_plain_of_locate type (Member.locate_eq_some_iff.mpr ⟨rfl, he, hb⟩),
      updateMember, if_pos hg]
    rfl
  | kept hb he hg =>
    rw [bringMember_plain_of_locate type (Member.locate_eq_some_iff.mpr ⟨rfl, he, hb⟩),
      updateMember, if_neg (by simp [hg])]
    rfl
  | merged hb he hm =>
    rw [bringMember_nested_of_locate type (Member.locate_eq_some_iff.mpr ⟨rfl, he, hb⟩),
      Traced.bind_of_ok (mergeMembers_ok_iff.mpr hm)]
    simp [Effect.records]

/-- The records of a list are those of its members, one after the other. -/
theorem BringsAll.run (h : BringsAll type target source effects grown) :
    bringMembers type target source = ⟨effects.flatMap Effect.records, .ok grown⟩ := by
  induction h with
  | nil target => rfl
  | cons h _ ih => rw [bringMembers, h.run, Traced.bind_of_ok rfl, ih, List.flatMap_cons]

/-! ### Counts -/

/-- A list grows by what its own additions count. Additions inside a nested type do not count for
it. -/
lemma Brings.length_eq (h : Brings type target g effect middle) :
    middle.length = target.length + effect.own.countP Change.isAddition ∧
      effect.own.countP Change.isRemoval = 0 := by
  cases h with
  | added hm hc => exact ⟨by simp [Effect.own, Change.isAddition], rfl⟩
  | replaced hb he hg => exact ⟨by simp [Effect.own, Change.isAddition], rfl⟩
  | kept hb he hg => exact ⟨by simp [Effect.own, Change.isAddition], rfl⟩
  | merged hb he hm => exact ⟨by simp [Effect.own], rfl⟩

lemma BringsAll.length_eq (h : BringsAll type target source effects grown) :
    grown.length = target.length + (effects.flatMap Effect.own).countP Change.isAddition ∧
      (effects.flatMap Effect.own).countP Change.isRemoval = 0 := by
  induction h with
  | nil target => exact ⟨rfl, rfl⟩
  | cons h _ ih =>
    obtain ⟨hlength, hremoval⟩ := h.length_eq
    simp only [List.flatMap_cons, List.countP_append]
    omega

lemma countP_removals (type : String) (source grown : List Member) :
    (removals type source grown).countP Change.isAddition = 0 ∧
      (removals type source grown).countP Change.isRemoval =
        (removals type source grown).length := by
  rw [removals, List.countP_map, List.countP_map, List.length_map]
  exact ⟨List.countP_eq_zero.mpr (by simp [Change.isAddition]),
    List.countP_eq_length.mpr (by simp [Change.isRemoval])⟩

/-- What is kept and what is removed make up the list. -/
lemma length_withoutStale_add (type : String) (source grown : List Member) :
    (withoutStale source grown).length + (removals type source grown).length = grown.length := by
  have hlength := List.length_eq_length_filter_add (l := grown) (isStale source)
  rw [removals, List.length_map, withoutStale]
  omega

/-! ### Places that are reached -/

/-- The member at the place of an effect carries the marker only if the generated one matches it. -/
lemma Brings.exists_getElem? (h : Brings type target g effect middle) :
    ∃ m, middle[effect.place]? = some m ∧ (m.isGenerated = true → g.isMatchFor m = true) := by
  have hplace : ∀ (before after : List Member) (m : Member),
      (before ++ m :: after)[before.length]? = some m := by
    simp
  cases h with
  | added hm hc => exact ⟨g, hplace _ [] g, fun _ => g.isMatchFor_self⟩
  | @replaced before after e h c hb he hg =>
    refine ⟨_, hplace before after _, fun _ => ?_⟩
    have hname : (replacement e.head h).name = (Member.plain h c).name := name_replacement _ _
    exact (Member.isMatchFor_withHead_right hname _).trans (Member.isMatchFor_self _)
  | @kept before after e h c hb he hg =>
    exact ⟨_, hplace before after _, fun hg' => absurd hg' (by simp [hg])⟩
  | @merged before after old source merged oh h ot t hb he hm =>
    refine ⟨_, hplace before after _, fun _ => ?_⟩
    rw [Member.nested_isMatchFor_nested_iff] at he ⊢
    exact he.symm

/-- No place of an effect holds a stale member in the end. -/
lemma BringsAll.exists_not_isStale {part : List Member}
    (h : BringsAll type target part effects grown) (hp : part ⊆ source) :
    ∀ effect ∈ effects, ∃ m, grown[effect.place]? = some m ∧ isStale source m = false := by
  induction h with
  | nil target => simp
  | @cons target middle grown part g effect effects h hs ih =>
    obtain ⟨hg, hp⟩ := List.cons_subset.mp hp
    obtain ⟨m, hm, hgm⟩ := h.exists_getElem?
    rw [List.forall_mem_cons]
    refine ⟨?_, ih hp⟩
    refine hs.steps.exists_getElem? (fun g' hg' _ m' _ _ hm' => ?_) hm (isStale_eq_false hg hgm)
    exact isStale_eq_false (hp hg') hm'

/-! ### One call -/

/-- What a call of `mergeMembers` does and records: the effects of the generated members, one for
each, and the removals. -/
structure CallAccount (type : String) (target source : List Member) (effects : List Effect)
    (grown : List Member) : Prop where
  brings : BringsAll type target source effects grown
  run : mergeMembers type target source =
    ⟨effects.flatMap Effect.records ++ removals type source grown,
      .ok (withoutStale source grown)⟩
  count : (withoutStale source grown).length +
      (effects.flatMap Effect.own ++ removals type source grown).countP Change.isRemoval =
    target.length +
      (effects.flatMap Effect.own ++ removals type source grown).countP Change.isAddition
  stays : ∀ effect ∈ effects, ∃ m, grown[effect.place]? = some m ∧ isStale source m = false

/-- Every call has an account of its effects. -/
lemma Merges.exists_callAccount {merged : List Member} (type : String)
    (h : Merges target source merged) :
    ∃ effects grown, CallAccount type target source effects grown := by
  obtain ⟨grown, hs, -⟩ := h
  obtain ⟨effects, hb⟩ := hs.exists_bringsAll type
  refine ⟨effects, grown, hb, ?_, ?_, hb.exists_not_isStale (List.Subset.refl source)⟩
  · rw [mergeMembers_eq type hs, hb.run]
  · obtain ⟨hlength, hremoval⟩ := hb.length_eq
    obtain ⟨hadditions, hremovals⟩ := countP_removals type source grown
    have hkept := length_withoutStale_add type source grown
    rw [List.countP_append, List.countP_append]
    omega

/-! ### The whole report -/

/-- The records of one step of a merge outside of types: something that is not a member went in, or
two types were merged. -/
inductive IsBlock (existing generated : DeclarationTree) : List Change → Prop where
  | added {what : Addition} (hw : what ≠ .member) (path : String) :
      IsBlock existing generated [.added what path]
  | call {type : String} {target source : List Member}
      (hv : TreeVisits existing generated type target source) :
      IsBlock existing generated (mergeMembers type target source).records

/-- The records are made of such blocks. -/
def MadeOfBlocks (existing generated : DeclarationTree) (rs : List Change) : Prop :=
  ∃ blocks : List (List Change), rs = blocks.flatten ∧ ∀ b ∈ blocks, IsBlock existing generated b

section Blocks

variable {existing generated : DeclarationTree}

lemma madeOfBlocks_nil : MadeOfBlocks existing generated [] :=
  ⟨[], rfl, by simp⟩

/-- One block is a report made of blocks. -/
lemma IsBlock.madeOfBlocks {rs : List Change} (h : IsBlock existing generated rs) :
    MadeOfBlocks existing generated rs :=
  ⟨[rs], by simp, by simpa using h⟩

lemma madeOfBlocks_added {what : Addition} (hw : what ≠ .member) (path : String) :
    MadeOfBlocks existing generated [.added what path] :=
  (IsBlock.added hw path).madeOfBlocks

/-- Reports made of blocks can be put together. -/
lemma MadeOfBlocks.append {rs ss : List Change} (hr : MadeOfBlocks existing generated rs)
    (hs : MadeOfBlocks existing generated ss) : MadeOfBlocks existing generated (rs ++ ss) := by
  obtain ⟨blocks, rfl, hb⟩ := hr
  obtain ⟨blocks', rfl, hb'⟩ := hs
  exact ⟨blocks ++ blocks', by simp, List.forall_mem_append.mpr ⟨hb, hb'⟩⟩

/-- Imports are added one by one, and never replaced or removed. -/
lemma madeOfBlocks_bringImports (ns : String) (target imports : List String) :
    MadeOfBlocks existing generated (bringImports ns target imports).records := by
  induction imports generalizing target with
  | nil => exact madeOfBlocks_nil
  | cons i is ih =>
    unfold bringImports
    split
    · exact ih target
    · rw [Traced.records_record_bind, ← List.singleton_append]
      exact (madeOfBlocks_added (by decide) _).append (ih _)

/-- The whole report is made of blocks, for any two trees. A merge that fails leaves one as well. -/
theorem madeOfBlocks_mergeTrees (existing generated : DeclarationTree) :
    MadeOfBlocks existing generated (mergeTrees existing generated).records := by
  rw [mergeTrees, Traced.records_bind_pure]
  refine Traced.records_loop (fun ns n => bringNamespace n ns) bringNamespaces madeOfBlocks_nil
    (fun _ _ => MadeOfBlocks.append) (fun _ => by rw [bringNamespaces])
    (fun _ _ _ => by rw [bringNamespaces]) fun pre g post reached hg hr => ?_
  rw [records_bringNamespace]
  split
  · exact madeOfBlocks_added (by decide) _
  · next n hn =>
    refine (madeOfBlocks_bringImports _ _ _).append ?_
    refine Traced.records_loop (fun ts t => bringType n.name t ts) (bringTypes n.name)
      madeOfBlocks_nil (fun _ _ => MadeOfBlocks.append) (fun _ => by rw [bringTypes])
      (fun _ _ _ => by rw [bringTypes]) fun preT u postT reachedT hu hrT => ?_
    rw [records_bringType]
    split
    · exact madeOfBlocks_added (by decide) _
    · next t ht =>
      exact (IsBlock.call (.inside hg hr hn hu hrT ht (.here _ _ _))).madeOfBlocks

end Blocks

/-! ### Reports of retentions only -/

/-- A hand-written member was kept. -/
def IsRetention (c : Change) : Prop :=
  c.isRetention = true

/-- Anything but a retention shows in the report. -/
lemma record_bind_givesBack {α : Type} {c : Change} (h : c.isRetention = false)
    (f : Unit → Merging α) (a : α) : (Traced.record c >>= f).GivesBack IsRetention a :=
  Traced.givesBack_record_bind (by simp [IsRetention, h]) f a

lemma insertMember_givesBack (type path : String) (target : List Member) (g : Member) :
    (insertMember type path target g).GivesBack IsRetention target := by
  unfold insertMember
  split
  · exact Traced.givesBack_fail _ _
  · exact record_bind_givesBack rfl _ _

/-- A replacement is recorded as such, so without one the old member stays. -/
lemma updateMember_givesBack (path : String) (e g : Member) :
    (updateMember path e g).GivesBack IsRetention e := by
  unfold updateMember
  split
  · exact record_bind_givesBack rfl _ _
  · intro b hb _
    exact (Except.ok.inj hb).symm

/-- Members that went out are recorded. -/
lemma removeStale_givesBack (type : String) (source target : List Member) :
    (removeStale type source target).GivesBack IsRetention target := by
  intro b hb hr
  rw [removeStale_eq] at hb hr
  obtain rfl := Except.ok.inj hb
  rw [withoutStale, List.filter_eq_self]
  intro m hm
  by_contra hst
  have hremoved : Change.removed (pathInside type m.label) ∈ removals type source target :=
    List.mem_map_of_mem (List.mem_filter.mpr ⟨hm, by simpa using hst⟩)
  exact absurd (hr _ hremoved) Bool.false_ne_true

mutual

/-- By induction on the generated member, together with `bringMembers_givesBack`: a call for a
nested type gives back its members. -/
lemma bringMember_givesBack (type : String) (target : List Member) (g : Member) :
    (bringMember type target g).GivesBack IsRetention target := by
  cases hl : Member.locate g target with
  | none =>
    rw [bringMember_of_locate_none type hl]
    exact insertMember_givesBack _ _ _ _
  | some found =>
    obtain ⟨before, e, after⟩ := found
    obtain ⟨rfl, he, -⟩ := Member.locate_eq_some_iff.mp hl
    match g with
    | .plain k c =>
      rw [bringMember_plain_of_locate type hl]
      exact (updateMember_givesBack _ _ _).bind (Traced.givesBack_pure _)
    | .nested k t inner =>
      cases e with
      | plain k' c => simp at he
      | nested oh ot old =>
        rw [bringMember_nested_of_locate type hl]
        have hcall : (mergeMembers (pathInside type (Member.nested k t inner).label) old
            inner).GivesBack IsRetention old :=
          (bringMembers_givesBack _ old inner).bind (removeStale_givesBack _ _ _)
        exact hcall.bind (Traced.givesBack_pure _)

lemma bringMembers_givesBack (type : String) (target source : List Member) :
    (bringMembers type target source).GivesBack IsRetention target := by
  match source with
  | [] =>
    rw [bringMembers]
    exact Traced.givesBack_pure target
  | g :: gs =>
    rw [bringMembers]
    exact (bringMember_givesBack type target g).bind (bringMembers_givesBack type target gs)

end

/-- A type that is not found is added, which is recorded. -/
lemma bringType_givesBack (ns : String) (g : TypeDecl) (target : List TypeDecl) :
    (bringType ns g target).GivesBack IsRetention target := by
  induction target with
  | nil => exact record_bind_givesBack rfl _ _
  | cons t ts ih =>
    unfold bringType
    split
    · have hcall : (mergeMembers (pathInside ns g.header.name) t.members g.members).GivesBack
          IsRetention t.members :=
        (bringMembers_givesBack _ _ _).bind (removeStale_givesBack _ _ _)
      exact hcall.bind (Traced.givesBack_pure _)
    · exact ih.bind (Traced.givesBack_pure _)

lemma bringTypes_givesBack (ns : String) (target source : List TypeDecl) :
    (bringTypes ns target source).GivesBack IsRetention target :=
  Traced.givesBack_loop (fun ts t => bringType ns t ts) (fun _ => by rw [bringTypes])
    (fun _ _ _ => by rw [bringTypes]) fun t _ => bringType_givesBack ns t target

lemma bringImports_givesBack (ns : String) (target imports : List String) :
    (bringImports ns target imports).GivesBack IsRetention target := by
  induction imports with
  | nil => exact Traced.givesBack_pure target
  | cons i is ih =>
    unfold bringImports
    split
    · exact ih
    · exact record_bind_givesBack rfl _ _

lemma bringNamespace_givesBack (g : Namespace) (target : List Namespace) :
    (bringNamespace g target).GivesBack IsRetention target := by
  induction target with
  | nil => exact record_bind_givesBack rfl _ _
  | cons n ns ih =>
    unfold bringNamespace
    split
    · refine (bringImports_givesBack _ _ _).bind ?_
      exact (bringTypes_givesBack _ _ _).bind (Traced.givesBack_pure _)
    · exact ih.bind (Traced.givesBack_pure _)

/-- A merge that reports only that hand-written members were kept changes nothing. -/
theorem mergeTrees_givesBack (existing generated : DeclarationTree) :
    (mergeTrees existing generated).GivesBack IsRetention existing :=
  (Traced.givesBack_loop (fun ns n => bringNamespace n ns)
    (fun _ => by rw [bringNamespaces]) (fun _ _ _ => by rw [bringNamespaces])
    fun n _ => bringNamespace_givesBack n existing.namespaces).bind (Traced.givesBack_pure _)

/-! ### The account -/

/-- The report of a successful merge is made of the records of merged types and of namespaces,
imports and types that went in. Where the members of two types are merged, each generated member has
one effect, a record or the merge of a nested type, the number of members grows by the additions and
shrinks by the removals recorded there, and no member at the place of an effect is removed. If only
retentions are reported, the tree is the old one. -/
theorem report_accounts {existing generated merged : DeclarationTree}
    (h : (mergeTrees existing generated).outcome = .ok merged) :
    MadeOfBlocks existing generated (mergeTrees existing generated).records ∧
      (∀ type target source, TreeVisits existing generated type target source →
        (mergeMembers type target source).records <:+: (mergeTrees existing generated).records ∧
          ∃ effects grown, CallAccount type target source effects grown) ∧
      ((∀ c ∈ (mergeTrees existing generated).records, c.isRetention = true) →
        merged = existing) := by
  refine ⟨madeOfBlocks_mergeTrees existing generated, fun type target source hv => ?_, fun hr => ?_⟩
  · obtain ⟨merged', hm⟩ := hv.merges h
    exact ⟨hv.isInfix, (mergeMembers_ok_iff.mp hm).exists_callAccount type⟩
  · exact mergeTrees_givesBack existing generated merged h hr

/-- `Qux` and `Quux` are new, `Foo` is replaced, `Columns` is merged and `Bar` goes. -/
theorem order_accounted :
    (∃ merged, (mergeTrees (.ofMembers "Shop" "Order" orderMembers)
        (.ofMembers "Shop" "Order" generatedOrder)).outcome = .ok merged) ∧
      (mergeTrees (.ofMembers "Shop" "Order" orderMembers)
          (.ofMembers "Shop" "Order" generatedOrder)).records =
        [.added .member "Shop.Order.Qux", .added .member "Shop.Order.Columns.Total",
          .replaced "Shop.Order.Columns.Id", .added .member "Shop.Order.Quux()",
          .replaced "Shop.Order.Foo", .removed "Shop.Order.Bar()"] ∧
      ∃ effects grown, CallAccount "Shop.Order" orderMembers generatedOrder effects grown := by
  have hm : (mergeTrees (.ofMembers "Shop" "Order" orderMembers)
      (.ofMembers "Shop" "Order" generatedOrder)).outcome = .ok _ := rfl
  have hv := TreeVisits.ofMembers "Shop" "Order" orderMembers generatedOrder
  exact ⟨⟨_, hm⟩, by decide +kernel, ((report_accounts hm).2.1 _ _ _ hv).2⟩

end Graft.Merge
