import Graft.Proofs.Recovery.Accessors
import Graft.Proofs.Recovery.Runs

/-!
# Extents with the same start

Two extents that start on the same line differ in where they stop and in how many scopes end there.
What is recovered from both is the same, except for the text of a callable: `text_eq_iff` says when
it is the same, too.
-/

namespace Graft.Recovery

open Source Text

variable {d : Document} {x y : Extent}

/-! ### Lines -/

/-- The second extent stops behind the first one, and the lines it has more hold the closing braces
of the scopes that it counts more, and nothing else but what belongs to no body. -/
def EndsBehind (d : Document) (x y : Extent) : Prop :=
  x.stop ≤ y.stop ∧ ∃ n, y.trailingScopes = x.trailingScopes + n ∧
    ClosingLines n ((d.between x.stop y.stop).map String.toList)

/-- One of the extents ends behind the other one. -/
def SameEnd (d : Document) (x y : Extent) : Prop :=
  EndsBehind d x y ∨ EndsBehind d y x

lemma not_mem_of_mem_map_between {start stop : Nat} {l : Line}
    (h : l ∈ (d.between start stop).map String.toList) : '\n' ∉ l := by
  obtain ⟨k, hk, rfl⟩ := List.mem_map.mp h
  exact Document.not_mem_of_mem_lines (Document.mem_lines_of_mem_between hk)

/-- An extent from which a body is recovered has a line. -/
lemma start_lt_of_bodyOfLines {scopes : Nat} {body : Body}
    (h : bodyOfLines ((d.between x.start x.stop).map String.toList) scopes = .ok body) :
    x.start < x.stop := by
  by_contra hle
  rw [d.between_of_le (Nat.le_of_not_lt hle)] at h
  cases h

/-- A block in the lines of an extent is one in those of an extent that stops later. -/
lemma Block.later {scopes : Nat} {body : Body} {header text rest : List Char} {tail : List Line}
    (hb : Block ((d.between x.start x.stop).map String.toList) header text rest tail)
    (hs : x.start = y.start) (hl : x.stop ≤ y.stop)
    (h : bodyOfLines ((d.between x.start x.stop).map String.toList) scopes = .ok body) :
    Block ((d.between y.start y.stop).map String.toList) header text rest
      (tail ++ (d.between x.stop y.stop).map String.toList) := by
  rw [← hs, ← d.between_append (Nat.le_of_lt (start_lt_of_bodyOfLines h)) hl, List.map_append]
  apply hb.append
  exact fun l hm => not_mem_of_mem_map_between hm

/-! ### Texts -/

/-- What stands behind a block makes no difference if it closes the scopes that are counted. -/
lemma closesBlock_append_iff {m n : Nat} {text rest : List Char} {tail more : List Line}
    (h : ClosesBlock m text rest tail) :
    ClosesBlock n text rest (tail ++ more) ↔ ∃ k, n = m + k ∧ ClosingLines k more := by
  constructor
  · intro h'
    have hsum := h'.scopes_eq
    rw [bracesOf_append, ← Nat.add_assoc, h.scopes_eq] at hsum
    exact ⟨_, hsum.symm, fun l hl => h'.closing l (List.mem_append_right _ hl), rfl⟩
  · rintro ⟨k, rfl, hk⟩
    refine ⟨h.code, List.forall_mem_append.mpr ⟨h.closing, hk.closing⟩, ?_⟩
    rw [bracesOf_append, ← Nat.add_assoc, h.scopes_eq, hk.bracesOf_eq]

lemma text_eq_iff_of_le (hs : x.start = y.start) (hl : x.stop ≤ y.stop) {member member' : String}
    {body body' : Body} (hx : recoverBody d x member = .ok body)
    (hy : recoverBody d y member' = .ok body') : body'.text = body.text ↔ EndsBehind d x y := by
  rw [recoverBody_ok_iff] at hx hy
  obtain ⟨header, text, rest, tail, hb, hc⟩ := exists_block hx
  have hiff := (hb.later hs hl hx).text_recovered_iff y.trailingScopes
  rw [hy, closesBlock_append_iff hc] at hiff
  rw [hb.bodyOfLines_eq hc] at hx
  obtain rfl := Except.ok.inj hx
  simp only [Except.ok.injEq, exists_eq_left'] at hiff
  rw [EndsBehind, and_iff_right hl, ← hiff]

/-- From two extents with the same start the same text is recovered exactly if one of them ends
behind the other. -/
theorem text_eq_iff (hs : x.start = y.start) {member member' : String} {body body' : Body}
    (hx : recoverBody d x member = .ok body) (hy : recoverBody d y member' = .ok body') :
    body'.text = body.text ↔ SameEnd d x y := by
  constructor
  · intro h
    rcases Nat.le_total x.stop y.stop with hl | hl
    · exact .inl ((text_eq_iff_of_le hs hl hx hy).mp h)
    · exact .inr ((text_eq_iff_of_le hs.symm hl hy hx).mp h.symm)
  · rintro (h | h)
    · exact (text_eq_iff_of_le hs h.1 hx hy).mpr h
    · exact ((text_eq_iff_of_le hs.symm h.1 hy hx).mpr h).symm

/-! ### Accessors -/

/-- Of two blocks in the same lines, one's text goes on where the other's stops. -/
lemma Block.accessors_eq {lines tail tail' : List Line}
    {header header' text text' rest rest' : List Char}
    (hb : Block lines header text rest tail) (hb' : Block lines header' text' rest' tail')
    {accessors accessors' : Accessors}
    (ha : accessorsOf (blockText text).toList = .ok accessors)
    (ha' : accessorsOf (blockText text').toList = .ok accessors') : accessors' = accessors := by
  have hopen := hb.joinLines_eq.symm.trans hb'.joinLines_eq
  obtain ⟨rfl, hclose⟩ := eq_of_count_eq hopen (by
    rw [List.count_eq_zero.mpr hb.header, List.count_eq_zero.mpr hb'.header])
  rcases List.append_eq_append_iff.mp hclose with ⟨u, rfl, hu⟩ | ⟨u, rfl, hu⟩
  · cases u with
    | nil =>
      rw [List.append_nil, ha] at ha'
      exact (Except.ok.inj ha').symm
    | cons c u =>
      obtain ⟨rfl, -⟩ := List.cons.inj hu
      rw [accessorsOf_blockText_append ha] at ha'
      exact (Except.ok.inj ha').symm
  · cases u with
    | nil =>
      rw [List.append_nil, ha'] at ha
      exact Except.ok.inj ha
    | cons c u =>
      obtain ⟨rfl, -⟩ := List.cons.inj hu
      rw [accessorsOf_blockText_append ha'] at ha
      exact Except.ok.inj ha

lemma accessors_eq_of_le (hs : x.start = y.start) (hl : x.stop ≤ y.stop)
    {member member' : String} {body body' : Body} {accessors accessors' : Accessors}
    (hx : recoverBody d x member = .ok body) (hy : recoverBody d y member' = .ok body')
    (ha : accessorsOf body.text.toList = .ok accessors)
    (ha' : accessorsOf body'.text.toList = .ok accessors') : accessors' = accessors := by
  rw [recoverBody_ok_iff] at hx hy
  obtain ⟨header, text, rest, tail, hb, hc⟩ := exists_block hx
  obtain ⟨header', text', rest', tail', hb', hc'⟩ := exists_block hy
  have hlater := hb.later hs hl hx
  rw [hb.bodyOfLines_eq hc] at hx
  rw [hb'.bodyOfLines_eq hc'] at hy
  obtain rfl := Except.ok.inj hx
  obtain rfl := Except.ok.inj hy
  exact hlater.accessors_eq hb' ha ha'

/-- The accessors of a property do not depend on where its extent ends. -/
theorem accessors_eq (hs : x.start = y.start) {member member' : String} {body body' : Body}
    {accessors accessors' : Accessors} (hx : recoverBody d x member = .ok body)
    (hy : recoverBody d y member' = .ok body')
    (ha : accessorsOf body.text.toList = .ok accessors)
    (ha' : accessorsOf body'.text.toList = .ok accessors') : accessors' = accessors := by
  rcases Nat.le_total x.stop y.stop with hl | hl
  · exact accessors_eq_of_le hs hl hx hy ha ha'
  · exact (accessors_eq_of_le hs.symm hl hy hx ha' ha).symm

/-! ### Contents -/

lemma accessorsOf_of_recoverAccessors {text member : String} {line : Nat} {accessors : Accessors}
    (h : recoverAccessors text member line = .ok accessors) :
    accessorsOf text.toList = .ok accessors := by
  rw [recoverAccessors] at h
  cases ha : accessorsOf text.toList with
  | error e =>
    rw [ha] at h
    cases h
  | ok a =>
    rw [ha] at h
    cases h
    rfl

/-- From two extents with the same start the same content is recovered, unless it is a callable
whose extents end differently. -/
theorem recoversContent_eq_iff (hs : x.start = y.start) {h k k' : MemberHead} {c r r' : Content}
    (hr : RecoversContent d x h c k r) (hr' : RecoversContent d y h c k' r') :
    r' = r ↔ (h.isAbstract = false → c.isField = false → c.isProperty = false → SameEnd d x y) := by
  cases hr with
  | field typeName comments =>
    cases hr' with
    | field _ _ => simp [hs, Content.isField]
    | cleared hf _ => cases hf
    | filled hf _ _ _ => cases hf
  | cleared hf ha =>
    cases hr' with
    | field _ _ => cases hf
    | cleared _ _ => simp [ha]
    | filled _ ha' _ _ =>
      rw [ha] at ha'
      cases ha'
  | @filled _ body accessors hf ha hb hacc =>
    cases hr' with
    | field _ _ => cases hf
    | cleared _ ha' =>
      rw [ha] at ha'
      cases ha'
    | @filled _ body' accessors' _ _ hb' hacc' =>
      have htext := text_eq_iff hs hb hb'
      cases c with
      | field typeName comments => cases hf
      | property typeName old =>
        have heq := accessors_eq hs hb hb' (accessorsOf_of_recoverAccessors (hacc rfl))
          (accessorsOf_of_recoverAccessors (hacc' rfl))
        simp [Content.withText, Content.isProperty, heq]
      | method returnType signature old =>
        simp [Content.withText, Content.isField, Content.isProperty, ha, htext]
      | constructor signature old =>
        simp [Content.withText, Content.isField, Content.isProperty, ha, htext]

end Graft.Recovery
