import Graft.Proofs.Recovery.Blocks
import Graft.Proofs.Recovery.Comments
import Graft.Proofs.Recovery.Ends

/-!
# Attributes above a declaration

The first line of a member may be that of its declaration or that of its first attribute. The
comments of a field are the same from both. So is the text of any other member if no attribute has
an opening brace in it; a brace there is taken for the one that opens the body:
`start_at_attributes_iff`.
-/

namespace Graft.Recovery

open Source Text

variable {d : Document} {first : Nat}

/-- From line `first` on and before line `line` come only attributes. -/
structure AttributesBefore (d : Document) (first line : Nat) : Prop where
  le : first ≤ line
  attributes : ∀ n, first ≤ n → n < line →
    ∃ l, d.line? n = some l ∧ lineKind l.toList = .attribute

/-- No line from `first` on and before line `line` has an opening brace. -/
def NoBraceBetween (d : Document) (first line : Nat) : Prop :=
  ∀ l ∈ d.between first line, '{' ∉ l.toList

/-- The first line with an opening brace is code. -/
def OpensOnCode (lines : List Line) : Prop :=
  ∀ l ∈ lines.find? ('{' ∈ ·), isNoise l = false

/-! ### Comments -/

/-- The search for comments passes attributes by. -/
theorem commentsAbove_attributes {line : Nat} (h : AttributesBefore d first line) :
    commentsAbove d first = commentsAbove d line := by
  obtain ⟨hle, hattr⟩ := h
  induction line, hle using Nat.le_induction with
  | base => rfl
  | succ n hn ih =>
    obtain ⟨l, hl, hkind⟩ := hattr n hn (Nat.lt_succ_self n)
    have hprecede : mayPrecede l.toList = true := by rw [mayPrecede, hkind]
    have hcomment : isComment l.toList = false := by rw [isComment, hkind]; rfl
    rw [commentsAbove_succ hl, if_pos hprecede, hcomment, ih fun k hk hkn => hattr k hk (by omega)]
    simp

/-! ### Bodies -/

lemma afterBrace?_joinLines_cons {line : Line} (h : '{' ∉ line) (lines : List Line) :
    afterBrace? (joinLines (line :: lines)) = afterBrace? (joinLines lines) := by
  cases lines with
  | nil =>
    rw [joinLines_singleton, ← afterBrace?_append_left h (joinLines []), joinLines_nil,
      List.append_nil]
  | cons k ks =>
    have hline : '{' ∉ line ++ ['\n'] := by
      rw [List.mem_append, not_or]
      exact ⟨h, by decide⟩
    rw [joinLines_cons_cons, List.append_cons, afterBrace?_append_left hline]

/-- Lines without an opening brace, above those of a member, are no part of its body. -/
lemma bodyOfLines_append_left {above : List Line} (h : ∀ l ∈ above, '{' ∉ l) (lines : List Line)
    (scopes : Nat) : bodyOfLines (above ++ lines) scopes = bodyOfLines lines scopes := by
  induction above with
  | nil => rfl
  | cons line above ih =>
    rw [List.forall_mem_cons] at h
    rw [← ih h.2, List.cons_append, bodyOfLines, afterBrace?_joinLines_cons h.1, bodyOfLines]

lemma not_mem_of_noBraceBetween {line : Nat} (h : NoBraceBetween d first line) :
    ∀ l ∈ (d.between first line).map String.toList, '{' ∉ l := by
  intro l hl
  obtain ⟨k, hk, rfl⟩ := List.mem_map.mp hl
  exact h k hk

/-- Where no line above has an opening brace, a body may be read from there on. -/
lemma recoverBody_start_iff {x : Extent} (hle : first ≤ x.start)
    (hb : NoBraceBetween d first x.start) {member : String} {body : Body} :
    recoverBody d { x with start := first } member = .ok body ↔
      recoverBody d x member = .ok body := by
  simp only [recoverBody_ok_iff]
  show bodyOfLines ((d.between first x.stop).map String.toList) x.trailingScopes = _ ↔ _
  rcases Nat.le_total x.start x.stop with hs | hs
  · rw [← d.between_append hle hs, List.map_append,
      bodyOfLines_append_left (not_mem_of_noBraceBetween hb)]
  · -- all the lines are above
    have habove : NoBraceBetween d first x.stop := by
      intro l hl
      exact hb l (Document.mem_between_of_le hs hl)
    have hlines := bodyOfLines_append_left (not_mem_of_noBraceBetween habove) [] x.trailingScopes
    rw [List.append_nil] at hlines
    rw [d.between_of_le hs, List.map_nil, hlines]

/-! ### Contents -/

/-- Two extents with the same comments above and the same body have the same content. -/
lemma RecoversContent.congr {x y : Extent} {h k : MemberHead} {c r : Content}
    (hc : commentsAbove d x.start = commentsAbove d y.start)
    (hb : ∀ body, recoverBody d x h.name = .ok body → recoverBody d y h.name = .ok body)
    (hr : RecoversContent d x h c k r) : RecoversContent d y h c k r := by
  cases hr with
  | field typeName comments =>
    rw [hc]
    exact .field typeName comments
  | cleared hf ha => exact .cleared hf ha
  | filled hf ha hbody hs =>
    refine .filled hf ha (hb _ hbody) fun hp => ?_
    rw [recoverAccessors, accessorsOf_of_recoverAccessors (hs hp)]
    rfl

lemma recoverContent_start_iff {x : Extent} (ha : AttributesBefore d first x.start)
    (hb : NoBraceBetween d first x.start) (h : MemberHead) (c : Content)
    (r : MemberHead × Content) :
    recoverContent d { x with start := first } h c = .ok r ↔ recoverContent d x h c = .ok r := by
  obtain ⟨k, r⟩ := r
  have hc : commentsAbove d first = commentsAbove d x.start := commentsAbove_attributes ha
  rw [recoverContent_ok_iff, recoverContent_ok_iff]
  constructor
  · exact RecoversContent.congr hc fun body => (recoverBody_start_iff ha.le hb).mp
  · exact RecoversContent.congr hc.symm fun body => (recoverBody_start_iff ha.le hb).mpr

/-! ### Opening braces in attributes -/

section Blocks

variable {lines above tail : List Line} {header header' text rest inner : List Char} {scopes : Nat}

/-- With an opening brace in the lines above, the block starts there. -/
lemma Block.of_above (hb : Block lines header text rest tail)
    (ha : joinLines above = header' ++ '{' :: inner) (hh : '{' ∉ header') :
    Block (above ++ lines) header' (inner ++ '\n' :: (header ++ '{' :: text)) rest tail := by
  have hne : above ≠ [] := by
    rintro rfl
    simp at ha
  refine ⟨?_, hh, hb.rest, hb.tail⟩
  rw [joinLines_append hne hb.ne_nil, ha, hb.joinLines_eq]
  simp

/-- The line of the closing brace is code, also together with the header in front of it. -/
lemma Block.isNoise_header (hb : Block lines header text rest tail) (hl : ∀ l ∈ lines, '\n' ∉ l)
    (hc : isNoise (lastLine text ++ '}' :: rest) = false) (ho : OpensOnCode lines) :
    isNoise (lastLine (header ++ '{' :: text) ++ '}' :: rest) = false := by
  by_cases hn : '\n' ∈ text
  · obtain ⟨s, t, rfl⟩ := List.append_of_mem hn
    rw [lastLine_append_newline] at hc
    rwa [← List.cons_append, ← List.append_assoc, lastLine_append_newline]
  · -- the closing brace is on the line of the opening one
    have hbrace : '\n' ∉ '{' :: text := by
      rw [List.mem_cons, not_or]
      exact ⟨by decide, hn⟩
    have hskip : (pieces header).dropLast.find? ('{' ∈ ·) = none := by
      rw [List.find?_eq_none]
      intro l hl
      rw [decide_eq_true_eq]
      intro hm
      apply hb.header
      rw [← joinLines_pieces header, mem_joinLines_iff (by decide)]
      exact ⟨l, List.dropLast_subset _ hl, hm⟩
    have hline : '{' ∈ lastLine (header ++ '{' :: text) ++ '}' :: rest := by
      rw [lastLine_append_of_not_mem hbrace]
      simp
    apply ho
    rw [hb.lines_eq hl, pieces_append_of_not_mem hbrace, List.dropLast_concat, List.find?_append,
      hskip, Option.none_or, List.find?_cons_of_pos (by simpa using hline)]
    rfl

/-- A brace above makes the body another one. -/
lemma bodyOfLines_append_ne (hl : ∀ l ∈ lines, '\n' ∉ l) (ha : ∃ l ∈ above, '{' ∈ l)
    (ho : OpensOnCode lines) {body : Body} (h : bodyOfLines lines scopes = .ok body) :
    bodyOfLines (above ++ lines) scopes ≠ .ok body := by
  obtain ⟨header, text, rest, tail, hb, hc⟩ := exists_block h
  rw [← mem_joinLines_iff (by decide)] at ha
  obtain ⟨header', inner, habove, hheader'⟩ := List.eq_append_cons_of_mem ha
  have hb' := hb.of_above habove hheader'
  have hc' : ClosesBlock scopes (inner ++ '\n' :: (header ++ '{' :: text)) rest tail := by
    refine ⟨?_, hc.closing, hc.scopes_eq⟩
    rw [lastLine_append_newline]
    exact hb.isNoise_header hl hc.code ho
  rw [hb.bodyOfLines_eq hc] at h
  rw [hb'.bodyOfLines_eq hc', ← h]
  intro he
  have htext := congrArg Body.text (Except.ok.inj he)
  -- the other text holds the member's own opening brace as well
  have hcount := count_eq_of_blockText_eq (c := '{') (by decide) htext
  rw [List.count_append, List.count_cons_of_ne (by decide), List.count_append,
    List.count_cons_self] at hcount
  omega

end Blocks

lemma noBraceBetween_of_recoverBody {x : Extent} (hle : first ≤ x.start) {member : String}
    {body : Body} (ho : OpensOnCode ((d.between x.start x.stop).map String.toList))
    (h : recoverBody d x member = .ok body)
    (h' : recoverBody d { x with start := first } member = .ok body) :
    NoBraceBetween d first x.start := by
  intro l hl hbrace
  rw [recoverBody_ok_iff] at h h'
  have hle' := Nat.le_of_lt (start_lt_of_bodyOfLines h)
  have habove : ∃ l ∈ (d.between first x.start).map String.toList, '{' ∈ l :=
    ⟨l.toList, List.mem_map_of_mem hl, hbrace⟩
  apply bodyOfLines_append_ne (fun _ => not_mem_of_mem_map_between) habove ho h
  rw [← List.map_append, d.between_append hle hle']
  exact h'

/-- A member may be read from its first attribute on. The comments of a field are the same from
there as from its declaration, and so is whatever is recovered of a member if its attributes have no
opening brace. If there is one, the recovery from the first attribute does not give the body that it
gives from the declaration, provided that this opens on a line of code. -/
theorem start_at_attributes_iff {x : Extent} (ha : AttributesBefore d first x.start) :
    commentsAbove d first = commentsAbove d x.start ∧
      (NoBraceBetween d first x.start → ∀ h c r,
        recoverContent d { x with start := first } h c = .ok r ↔
          recoverContent d x h c = .ok r) ∧
      ∀ member body, recoverBody d x member = .ok body →
        OpensOnCode ((d.between x.start x.stop).map String.toList) →
          (recoverBody d { x with start := first } member = .ok body ↔
            NoBraceBetween d first x.start) := by
  refine ⟨commentsAbove_attributes ha, recoverContent_start_iff ha, ?_⟩
  intro member body h ho
  constructor
  · exact noBraceBetween_of_recoverBody ha.le ho h
  · intro hb
    exact (recoverBody_start_iff ha.le hb).mpr h

/-! ### Attributes with and without braces -/

/-- A class with a property that has two attributes. -/
def stockSource : Document :=
  .ofLines [
    "class Stock \x7b",
    "    // How many there are.",
    "    [Generate]",
    "    [Column(\"count\")]",
    "    int Count \x7b",
    "        get \x7b return count; \x7d",
    "    \x7d",
    "\x7d"]

/-- The extent of the property, from its declaration on. -/
def stockExtent : Extent where
  start := 5
  stop := 8
  isLast := true

/-- From the first attribute on, the property is recovered as from its declaration. -/
theorem count_from_attributes :
    AttributesBefore stockSource 3 stockExtent.start ∧
      commentsAbove stockSource 3 = ["// How many there are."] ∧
      recoverContent stockSource { stockExtent with start := 3 } { name := "Count" }
          (.property "int" {}) =
        .ok ({ name := "Count" }, .property "int" { get := some "return count;" }) ∧
      recoverBody stockSource { stockExtent with start := 3 } "Count" =
        .ok { text := "        get \x7b return count; \x7d" } := by
  have ha : AttributesBefore stockSource 3 stockExtent.start := by
    refine ⟨by decide, fun n hn hlt => ?_⟩
    have hlines : ∀ n ∈ List.range' 3 2,
        (stockSource.line? n).any (fun l => lineKind l.toList = .attribute) = true := by
      decide +kernel
    have hline := hlines n (List.mem_range'_1.mpr ⟨hn, hlt⟩)
    obtain ⟨l, hl, hkind⟩ := (Option.any_eq_true _ _).mp hline
    exact ⟨l, hl, of_decide_eq_true hkind⟩
  have hb : NoBraceBetween stockSource 3 stockExtent.start := by
    unfold NoBraceBetween
    decide +kernel
  have hbody : recoverBody stockSource stockExtent "Count" =
      .ok { text := "        get \x7b return count; \x7d" } := by
    decide +kernel
  have ho : OpensOnCode ((stockSource.between 5 8).map String.toList) := by
    unfold OpensOnCode
    decide +kernel
  obtain ⟨hcomments, hcontent, hiff⟩ := start_at_attributes_iff ha
  refine ⟨ha, hcomments.trans (by decide +kernel), (hcontent hb _ _ _).mpr (by decide +kernel), ?_⟩
  exact (hiff _ _ hbody ho).mpr hb

/-- A class with a property whose attribute has braces in its argument. -/
def priceSource : Document :=
  .ofLines [
    "class Price \x7b",
    "    [Format(\"\x7b0\x7d\")]",
    "    int Value \x7b",
    "        get \x7b return value; \x7d",
    "    \x7d",
    "\x7d"]

/-- The extent of the property, from its declaration on. -/
def priceExtent : Extent where
  start := 3
  stop := 6
  isLast := true

/-- From the attribute on, the brace in its argument is taken for the one that opens the property,
and the getter is lost. -/
theorem value_lost_behind_attribute :
    ¬ ∀ (d : Document) (x : Extent) (first : Nat) (h : MemberHead) (c : Content)
        (r : MemberHead × Content),
      AttributesBefore d first x.start → first < x.start → (d.line? x.start).isSome = true →
        (recoverContent d { x with start := first } h c = .ok r ↔
          recoverContent d x h c = .ok r) := by
  intro hall
  have ha : AttributesBefore priceSource 2 priceExtent.start := by
    refine ⟨by decide, fun n hn hlt => ?_⟩
    obtain rfl : n = 2 := Nat.le_antisymm (Nat.le_of_lt_succ hlt) hn
    exact ⟨_, rfl, by decide +kernel⟩
  have hvalue : recoverContent priceSource priceExtent { name := "Value" } (.property "int" {}) =
      .ok ({ name := "Value" }, .property "int" { get := some "return value;" }) := by
    decide +kernel
  have hlost := (hall _ _ _ _ _ _ ha (by decide) (by decide) ).mpr hvalue
  exact absurd hlost (by decide +kernel)

end Graft.Recovery
