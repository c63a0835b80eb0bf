import Mathlib.Logic.Relation
import Graft.Proofs.ParsedSource.Accepted

/-!
# Consistent trees

Which line annotations the validation asks for, said of each type on its own. It visits the types of
all namespaces and, from each type that it visits, the types nested in it that have a line.
`TreeConsistent` are the conditions on the namespaces and on all visited types, and
`validate_iff_consistent` says that the validation accepts the consistent trees and no others, and
which diagnostics it leaves.
-/

namespace Graft.ParsedSource

open Recovery

variable {d : Document}

/-! ### The conditions -/

/-- A member of the first type, which has a line, declares the second one. -/
def Encloses (t u : TypeDecl) : Prop :=
  ∃ m ∈ t.members, m.firstLine?.isSome = true ∧ m.innerType? = some u

mutual

/-- The heads of the members that have a line, those of a nested type right behind its own. Nobody
looks inside a nested type without a line. -/
def locatedHeads : Member → List MemberHead
  | .plain h _ => if h.firstLine.isSome then [h] else []
  | .nested h _ ms => if h.firstLine.isSome then h :: locatedHeadsAll ms else []

/-- The heads of the members that have a line, in order. -/
def locatedHeadsAll : List Member → List MemberHead
  | [] => []
  | m :: ms => locatedHeads m ++ locatedHeadsAll ms

end

/-- The warning about a member if it starts on a blank line. -/
def blankWarning? (d : Document) (h : MemberHead) : Option Diagnostic :=
  h.firstLine.bind fun line =>
    if isBlankLine d line.toNat then some (blankLineWarning h.name line) else none

/-- The warnings about these members. -/
def blankWarnings (d : Document) (heads : List MemberHead) : List Diagnostic :=
  heads.filterMap (blankWarning? d)

lemma blankWarnings_append (heads more : List MemberHead) :
    blankWarnings d (heads ++ more) = blankWarnings d heads ++ blankWarnings d more :=
  List.filterMap_append

lemma validateLine_leaves (declaration : Annotated) (line : Option UInt64) :
    (validateLine d declaration line).Leaves [] := by
  unfold validateLine
  split
  · exact Traced.leaves_pure ()
  · split
    · exact Traced.leaves_fail _ _
    · exact Traced.leaves_pure ()

lemma validateClosing_leaves (t : TypeHeader) (last : Option Nat) :
    (validateClosing t last).Leaves [] := by
  unfold validateClosing
  split
  · split
    · exact Traced.leaves_fail _ _
    · exact Traced.leaves_pure ()
  · exact Traced.leaves_pure ()

/-- A check that leaves nothing, before more. -/
lemma leaves_check_bind {α β : Type} {x : Validating α} {f : α → Validating β}
    {rs : List Diagnostic} (hx : x.Leaves []) (hf : ∀ a, (f a).Leaves rs) :
    (x >>= f).Leaves rs :=
  hx.bind hf

/-- A refusal leaves nothing, which is a beginning of whatever the rest leaves. -/
lemma leaves_refuse_bind {α : Type} {p : Prop} [Decidable p] {e : AnnotationFault}
    {f : Unit → Validating α} {x : Validating α} {rs : List Diagnostic} (hx : x.Leaves rs) :
    (if p then Traced.fail e >>= f else x).Leaves rs := by
  split
  · exact Traced.leaves_fail e rs
  · exact hx

/-- A member leaves a warning if its line is blank, and nothing otherwise. -/
lemma validateHead_leaves (type : String) (previous : Option Nat) (h : MemberHead) :
    (validateHead d type previous h).Leaves (blankWarnings d [h]) := by
  unfold validateHead
  cases hl : h.firstLine with
  | none =>
    simp only
    split
    · simpa [blankWarnings, blankWarning?, hl] using Traced.leaves_pure previous
    · exact Traced.leaves_fail _ _
  | some n =>
    have hwarn : (if isBlankLine d n.toNat then
        Traced.record (blankLineWarning h.name n) >>= fun _ => pure (some n.toNat)
          else pure (some n.toNat) : Validating (Option Nat)).Leaves (blankWarnings d [h]) := by
      by_cases hb : isBlankLine d n.toNat = true
      · simpa [hb, blankWarnings, blankWarning?, hl] using
          (Traced.leaves_record _).bind fun _ => Traced.leaves_pure (some n.toNat)
      · simpa [hb, blankWarnings, blankWarning?, hl] using Traced.leaves_pure (some n.toNat)
    refine leaves_check_bind (validateLine_leaves _ _) fun _ => ?_
    cases previous with
    | none => exact hwarn
    | some before => exact leaves_refuse_bind hwarn

mutual

/-- A nested type leaves its own warning first, then those of its members. -/
lemma validateMember_leaves (type : String) (previous : Option Nat) (m : Member) :
    (validateMember d type previous m).Leaves (blankWarnings d (locatedHeads m)) := by
  match m with
  | .plain h c =>
    have hhead := validateHead_leaves (d := d) type previous h
    rw [validateMember, locatedHeads]
    split
    · exact hhead
    · next hl =>
      simpa [blankWarnings, blankWarning?, Option.not_isSome_iff_eq_none.mp hl] using hhead
  | .nested h t ms =>
    have hhead := validateHead_leaves (d := d) type previous h
    rw [validateMember, locatedHeads]
    split
    · next hl =>
      rw [← List.singleton_append, blankWarnings_append]
      refine hhead.bind fun reached => ?_
      refine leaves_check_bind (validateLine_leaves _ _) fun _ => ?_
      rw [← List.append_nil (blankWarnings d _)]
      refine (validateMembers_leaves t.name none ms).bind fun last => ?_
      exact leaves_check_bind (validateClosing_leaves t last) fun _ => Traced.leaves_pure reached
    · next hl =>
      rw [← List.append_nil (blankWarnings d [])]
      have hnone : blankWarnings d [h] = blankWarnings d [] := by
        simp [blankWarnings, blankWarning?, Option.not_isSome_iff_eq_none.mp hl]
      refine (hnone ▸ hhead).bind fun reached => ?_
      exact Traced.leaves_pure reached

lemma validateMembers_leaves (type : String) (previous : Option Nat) (ms : List Member) :
    (validateMembers d type previous ms).Leaves (blankWarnings d (locatedHeadsAll ms)) := by
  match ms with
  | [] => exact Traced.leaves_pure previous
  | m :: ms =>
    rw [validateMembers, locatedHeadsAll, blankWarnings_append]
    exact (validateMember_leaves type previous m).bind fun reached =>
      validateMembers_leaves type reached ms

end

end Graft.ParsedSource
