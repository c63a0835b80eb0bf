import Mathlib.Data.List.Basic
import Graft.ParsedSource.Validation
import Graft.Proofs.Recovery.Extents

/-!
# What the validation accepts

`TreeAccepted` says which trees fit a document: lines exist, and come in order where the order
matters. The validation succeeds on these trees and on no others: `validate_ok_iff`.
-/

namespace Graft.ParsedSource

open Recovery

/-! ### The conditions -/

/-- The line exists, if one is given. -/
def LineExists (d : Document) (line : Option UInt64) : Prop :=
  ∀ n ∈ line, 0 < n.toNat ∧ n.toNat ≤ d.size

/-- A member may come after a member on line `previous`: it starts on a later line, or is abstract
and has none. -/
def HeadAccepted (d : Document) (previous : Option Nat) (h : MemberHead) : Prop :=
  (h.firstLine = none → h.isAbstract = true) ∧ LineExists d h.firstLine ∧
    ∀ n ∈ h.firstLine, ∀ before ∈ previous, before < n.toNat

/-- A type closes on an existing line after its last member. -/
def ClosingAccepted (d : Document) (t : TypeHeader) (ms : List Member) : Prop :=
  LineExists d t.closingLine ∧ ∀ n ∈ t.closingLine, ∀ last ∈ (startsOf ms).getLast?, last < n.toNat

mutual

/-- A member fits after a member on line `previous`, and so does everything inside it. What is
inside a nested type without a line does not matter. -/
def MemberAccepted (d : Document) (previous : Option Nat) : Member → Prop
  | .plain h _ => HeadAccepted d previous h
  | .nested h t ms =>
    HeadAccepted d previous h ∧
      (h.firstLine.isSome = true → ClosingAccepted d t ms ∧ MembersAccepted d none ms)

/-- Members fit after a member on line `previous`. -/
def MembersAccepted (d : Document) (previous : Option Nat) : List Member → Prop
  | [] => True
  | m :: ms => MemberAccepted d previous m ∧ MembersAccepted d (m.firstLine?.or previous) ms

end

/-- A type fits after a type on line `previous`. -/
def TypeAccepted (d : Document) (previous : Option Nat) (t : TypeDecl) : Prop :=
  (LineExists d t.header.firstLine ∧
      ∀ n ∈ t.header.firstLine, ∀ before ∈ previous, before < n.toNat) ∧
    ClosingAccepted d t.header t.members ∧ MembersAccepted d none t.members

/-- The types of a namespace fit, the last one before them on line `previous`. -/
def TypesAccepted (d : Document) (previous : Option Nat) : List TypeDecl → Prop
  | [] => True
  | t :: ts =>
    TypeAccepted d previous t ∧
      TypesAccepted d ((t.header.firstLine.map UInt64.toNat).or previous) ts

/-- The annotations of a tree fit the document. -/
def TreeAccepted (d : Document) (tree : DeclarationTree) : Prop :=
  ∀ n ∈ tree.namespaces, LineExists d n.closingLine ∧ TypesAccepted d none n.types

/-! ### Success of the validation -/

/-- Going on after a step that succeeds under a condition, with a known value. -/
lemma outcome_bind_of_ok_iff {α β : Type} {x : Validating α} {f : α → Validating β} {p : Prop}
    {a : α} {b : β} (h : ∀ r, x.outcome = .ok r ↔ p ∧ a = r) :
    (x >>= f).outcome = .ok b ↔ p ∧ (f a).outcome = .ok b := by
  rw [Traced.outcome_bind_eq_ok_iff]
  simp only [h]
  constructor
  · rintro ⟨_, ⟨hp, rfl⟩, hf⟩
    exact ⟨hp, hf⟩
  · rintro ⟨hp, hf⟩
    exact ⟨_, ⟨hp, rfl⟩, hf⟩

/-- A check returns nothing, so what follows depends only on whether it succeeds. -/
lemma outcome_check_bind {α : Type} {x : Validating Unit} {f : Unit → Validating α} {a : α} :
    (x >>= f).outcome = .ok a ↔ x.outcome = .ok () ∧ (f ()).outcome = .ok a :=
  outcome_bind_of_ok_iff fun _ => (and_iff_left rfl).symm

/-- A refusal lets the rest run only if its condition fails. -/
lemma outcome_refuse_bind {α : Type} {p : Prop} [Decidable p] {e : AnnotationFault}
    {f : Unit → Validating α} {x : Validating α} {a : α} :
    (if p then Traced.fail e >>= f else x).outcome = .ok a ↔ ¬ p ∧ x.outcome = .ok a := by
  split <;> simp [*, Traced.outcome_bind_eq_ok_iff]

lemma validateLine_ok_iff {d : Document} {declaration : Annotated} {line : Option UInt64} :
    (validateLine d declaration line).outcome = .ok () ↔ LineExists d line := by
  cases line with
  | none => simp [validateLine, LineExists]
  | some n =>
    by_cases hn : n.toNat = 0 ∨ d.size < n.toNat
    · simp only [validateLine, if_pos hn, Traced.outcome_fail, reduceCtorEq, false_iff]
      intro h
      have := h n rfl
      omega
    · simp only [validateLine, if_neg hn, Traced.outcome_pure, true_iff]
      rintro _ ⟨⟩
      omega

lemma validateClosing_ok_iff {t : TypeHeader} {last : Option Nat} :
    (validateClosing t last).outcome = .ok () ↔
      ∀ n ∈ t.closingLine, ∀ k ∈ last, k < n.toNat := by
  unfold validateClosing
  cases t.closingLine with
  | none => simp
  | some n =>
    cases last with
    | none => simp
    | some k =>
      by_cases hk : n.toNat ≤ k
      · simp [hk]
      · simpa [hk] using Nat.not_le.mp hk

/-- What is handed on is the line of the member, or the one before if it has none. -/
lemma validateHead_ok_iff {d : Document} {type : String} {previous reached : Option Nat}
    {h : MemberHead} :
    (validateHead d type previous h).outcome = .ok reached ↔
      HeadAccepted d previous h ∧ (h.firstLine.map UInt64.toNat).or previous = reached := by
  unfold validateHead HeadAccepted
  cases hl : h.firstLine with
  | none => cases h.isAbstract <;> simp [LineExists]
  | some n =>
    have hwarn : ∀ (warning : Diagnostic) (x : Validating (Option Nat)),
        (if isBlankLine d n.toNat then Traced.record warning >>= fun _ => x else x).outcome =
          x.outcome := by
      intro warning x
      split <;> rfl
    cases previous with
    | none =>
      simp only [outcome_check_bind, validateLine_ok_iff]
      simp [hwarn]
    | some before =>
      simp only [outcome_check_bind, outcome_refuse_bind, validateLine_ok_iff]
      simp [hwarn, and_assoc]

/-- Where the last of the members is that have a line, or else the last one before them. -/
lemma getLast?_startsOf_cons (m : Member) (ms : List Member) (previous : Option Nat) :
    (startsOf ms).getLast?.or (m.firstLine?.or previous) =
      (startsOf (m :: ms)).getLast?.or previous := by
  cases hm : m.firstLine? with
  | none => rw [startsOf_cons_of_eq_none hm, Option.none_or]
  | some n =>
    rw [startsOf_cons_of_eq_some hm, List.getLast?_cons]
    cases (startsOf ms).getLast? <;> rfl

mutual

/-- By induction on the member, together with `validateMembers_ok_iff`: a nested type is accepted
with its members. -/
lemma validateMember_ok_iff {d : Document} {type : String} {previous reached : Option Nat}
    {m : Member} :
    (validateMember d type previous m).outcome = .ok reached ↔
      MemberAccepted d previous m ∧ m.firstLine?.or previous = reached := by
  match m with
  | .plain h c => exact validateHead_ok_iff
  | .nested h t ms =>
    have hms : ∀ reached, (validateMembers d t.name none ms).outcome = .ok reached ↔
        MembersAccepted d none ms ∧ (startsOf ms).getLast? = reached := by
      intro reached
      rw [validateMembers_ok_iff, Option.or_none]
    rw [validateMember, outcome_bind_of_ok_iff fun _ => validateHead_ok_iff, MemberAccepted,
      and_assoc]
    refine and_congr_right fun _ => ?_
    by_cases hl : h.firstLine.isSome = true
    · simp only [hl, if_true, forall_const, outcome_check_bind, validateLine_ok_iff,
        outcome_bind_of_ok_iff hms, validateClosing_ok_iff, Traced.outcome_pure, Except.ok.injEq,
        ClosingAccepted]
      tauto
    · simp only [hl, if_false, Bool.false_eq_true, false_implies, true_and, Traced.outcome_pure,
        Except.ok.injEq]
      rfl

/-- What is handed on from a list is the last line on which a member starts. -/
theorem validateMembers_ok_iff {d : Document} {type : String} {previous reached : Option Nat}
    {ms : List Member} :
    (validateMembers d type previous ms).outcome = .ok reached ↔
      MembersAccepted d previous ms ∧ (startsOf ms).getLast?.or previous = reached := by
  match ms with
  | [] => simp [validateMembers, MembersAccepted, startsOf]
  | m :: ms =>
    rw [validateMembers, outcome_bind_of_ok_iff fun _ => validateMember_ok_iff,
      validateMembers_ok_iff, MembersAccepted, and_assoc, getLast?_startsOf_cons]

end

lemma validateType_ok_iff {d : Document} {t : TypeDecl} :
    (validateType d t).outcome = .ok () ↔
      ClosingAccepted d t.header t.members ∧ MembersAccepted d none t.members := by
  rw [validateType, outcome_check_bind, validateLine_ok_iff,
    outcome_bind_of_ok_iff fun _ => validateMembers_ok_iff, Option.or_none, validateClosing_ok_iff,
    ClosingAccepted, and_assoc]
  exact and_congr_right' and_comm

/-- The types of a namespace are checked in order, each against the type before it. -/
lemma validateTypes_ok_iff {d : Document} {previous : Option Nat} {ts : List TypeDecl} :
    (validateTypes d previous ts).outcome = .ok () ↔ TypesAccepted d previous ts := by
  induction ts generalizing previous with
  | nil => simp [validateTypes, TypesAccepted]
  | cons t ts ih =>
    rw [validateTypes, TypesAccepted, TypeAccepted, outcome_check_bind, validateLine_ok_iff]
    cases previous with
    | none => simp [outcome_check_bind, validateType_ok_iff, ih, and_assoc]
    | some before =>
      cases t.header.firstLine with
      | none => simp [outcome_check_bind, validateType_ok_iff, ih, and_assoc]
      | some n =>
        simp [outcome_check_bind, outcome_refuse_bind, validateType_ok_iff, ih, and_assoc]

lemma validateNamespaces_ok_iff {d : Document} {ns : List Namespace} :
    (validateNamespaces d ns).outcome = .ok () ↔
      ∀ n ∈ ns, LineExists d n.closingLine ∧ TypesAccepted d none n.types := by
  induction ns with
  | nil => simp [validateNamespaces]
  | cons n ns ih =>
    simp only [validateNamespaces, outcome_check_bind, validateLine_ok_iff, validateTypes_ok_iff,
      ih, List.forall_mem_cons, and_assoc]

/-- The accepted trees are those whose annotations fit the document. -/
theorem validate_ok_iff {parsed : ParsedSource} {d : Document} {tree : DeclarationTree} :
    (parsed.validate d).outcome = .ok tree ↔ TreeAccepted d parsed.tree ∧ parsed.tree = tree := by
  rw [validate, outcome_check_bind, outcome_check_bind, validateNamespaces_ok_iff,
    Traced.outcome_pure, Except.ok.injEq]
  exact and_iff_right rfl

/-! ### What accepted members have in common -/

lemma MemberAccepted.head {d : Document} {previous : Option Nat} {m : Member}
    (h : MemberAccepted d previous m) : HeadAccepted d previous m.head := by
  cases m with
  | plain k c => exact h
  | nested k t ms => exact h.1

lemma MembersAccepted.exists_of_mem {d : Document} {previous : Option Nat} {ms : List Member}
    (h : MembersAccepted d previous ms) {m : Member} (hm : m ∈ ms) :
    ∃ previous, MemberAccepted d previous m := by
  induction ms generalizing previous with
  | nil => cases hm
  | cons k ms ih =>
    rcases List.mem_cons.mp hm with rfl | hm
    · exact ⟨previous, h.1⟩
    · exact ih h.2 hm

lemma TypesAccepted.exists_of_mem {d : Document} {previous : Option Nat} {ts : List TypeDecl}
    (h : TypesAccepted d previous ts) {t : TypeDecl} (ht : t ∈ ts) :
    ∃ previous, TypeAccepted d previous t := by
  induction ts generalizing previous with
  | nil => cases ht
  | cons u ts ih =>
    rcases List.mem_cons.mp ht with rfl | ht
    · exact ⟨previous, h.1⟩
    · exact ih h.2 ht

/-- Accepted members start on later and later lines. -/
theorem MembersAccepted.pairwise_startsOf {d : Document} {previous : Option Nat}
    {ms : List Member} (h : MembersAccepted d previous ms) :
    (previous.toList ++ startsOf ms).Pairwise (· < ·) := by
  induction ms generalizing previous with
  | nil => cases previous <;> simp [startsOf]
  | cons m ms ih =>
    have hrest := ih h.2
    cases hn : m.firstLine? with
    | none => rwa [hn, Option.none_or, ← startsOf_cons_of_eq_none hn] at hrest
    | some n =>
      obtain ⟨line, hline, rfl⟩ := Option.map_eq_some_iff.mp hn
      have hlt := h.1.head.2.2 line hline
      rw [hn, Option.some_or, Option.toList_some, List.singleton_append] at hrest
      rw [startsOf_cons_of_eq_some hn]
      cases previous with
      | none => exact hrest
      | some before =>
        refine List.pairwise_cons.mpr ⟨fun k hk => ?_, hrest⟩
        rcases List.mem_cons.mp hk with rfl | hk
        · exact hlt before rfl
        · exact Nat.lt_trans (hlt before rfl) ((List.pairwise_cons.mp hrest).1 k hk)

end Graft.ParsedSource
