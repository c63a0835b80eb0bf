import Graft.Proofs.Recovery.Recovered

/-!
# The comments of a field

The comments of a field are searched from its first line upwards, past blank lines and attributes.
Only a line of another kind stops the search, not the first line of the member before: where that
line starts with an attribute, the search goes on to the comments above it.
`field_comments_iff` says which comment lines a field gets, and when they are its own.
-/

namespace Graft.Recovery

open Source Text

/-! ### Comment lines -/

/-- From line `start` on and before line `stop` come only lines that may stand between a declaration
and its comments. -/
def ClearBetween (d : Document) (start stop : Nat) : Prop :=
  ∀ l ∈ d.between start stop, mayPrecede l.toList = true

instance (d : Document) (start stop : Nat) : Decidable (ClearBetween d start stop) :=
  inferInstanceAs (Decidable (∀ l ∈ d.between start stop, _))

/-- Whether the line with this number is a comment. -/
def isCommentAt (d : Document) (n : Nat) : Bool :=
  (d.line? n).any fun l => isComment l.toList

/-- The numbers of the comment lines above a line, if nothing stands between. -/
def commentLines (d : Document) (line : Nat) : List Nat :=
  (List.range' 1 (line - 1)).filter fun n => isCommentAt d n && decide (ClearBetween d n line)

/-- The text of a line without the white space around it. -/
def lineText? (d : Document) (n : Nat) : Option String :=
  (d.line? n).map fun l => String.ofList (trim l.toList)

lemma clearBetween_append {d : Document} {start middle stop : Nat} (h₁ : start ≤ middle)
    (h₂ : middle ≤ stop) :
    ClearBetween d start stop ↔ ClearBetween d start middle ∧ ClearBetween d middle stop := by
  rw [ClearBetween, ← d.between_append h₁ h₂, List.forall_mem_append]
  rfl

lemma clearBetween_succ {d : Document} {n : Nat} {l : String} (hl : d.line? n = some l) :
    ClearBetween d n (n + 1) ↔ mayPrecede l.toList = true := by
  rw [ClearBetween, Document.between_succ hl, List.forall_mem_singleton]

lemma mem_commentLines_iff {d : Document} {line n : Nat} :
    n ∈ commentLines d line ↔
      n < line ∧ isCommentAt d n = true ∧ ClearBetween d n line := by
  rw [commentLines, List.mem_filter, List.mem_range'_1, Bool.and_eq_true, decide_eq_true_eq]
  refine ⟨fun ⟨hn, hc⟩ => ⟨by omega, hc⟩, fun ⟨hn, hc⟩ => ⟨?_, hc⟩⟩
  cases n with
  | zero => cases hc.1
  | succ n => omega

/-- Comment lines further up belong to a line as well if nothing stands between. -/
lemma mem_commentLines_of_le {d : Document} {line later n : Nat} (hn : n < line)
    (hl : line ≤ later) :
    n ∈ commentLines d later ↔ n ∈ commentLines d line ∧ ClearBetween d line later := by
  rw [mem_commentLines_iff, mem_commentLines_iff, clearBetween_append (Nat.le_of_lt hn) hl]
  constructor
  · rintro ⟨-, hc, hnl, hll⟩
    exact ⟨⟨hn, hc, hnl⟩, hll⟩
  · rintro ⟨⟨-, hc, hnl⟩, hll⟩
    exact ⟨Nat.lt_of_lt_of_le hn hl, hc, hnl, hll⟩

/-- No comment above the earlier line is one of the later line's, exactly if something stands
between the two lines or there is no such comment. -/
theorem commentLines_ge_iff {d : Document} {line later : Nat} (hl : line ≤ later) :
    (∀ n ∈ commentLines d later, line ≤ n) ↔
      ¬ ClearBetween d line later ∨ commentLines d line = [] := by
  constructor
  · intro h
    by_contra hno
    rw [not_or, not_not] at hno
    obtain ⟨n, hn⟩ := List.exists_mem_of_ne_nil _ hno.2
    have hlt := (mem_commentLines_iff.mp hn).1
    have hle := h n ((mem_commentLines_of_le hlt hl).mpr ⟨hn, hno.1⟩)
    exact Nat.not_lt.mpr hle hlt
  · intro h n hn
    by_contra hlt
    obtain ⟨hmem, hclear⟩ := (mem_commentLines_of_le (Nat.not_le.mp hlt) hl).mp hn
    rcases h with h | h
    · exact h hclear
    · rw [h] at hmem
      cases hmem

lemma commentLines_disjoint_iff {d : Document} {line later : Nat} (hl : line ≤ later) :
    (∀ n ∈ commentLines d later, n ∉ commentLines d line) ↔
      ¬ ClearBetween d line later ∨ commentLines d line = [] := by
  rw [← commentLines_ge_iff hl]
  constructor
  · intro h n hn
    by_contra hlt
    exact h n hn ((mem_commentLines_of_le (Nat.not_le.mp hlt) hl).mp hn).1
  · intro h n hn hmem
    exact Nat.not_lt.mpr (h n hn) (mem_commentLines_iff.mp hmem).1

/-! ### These are the lines that the recovery takes -/

lemma commentLines_succ {d : Document} {n : Nat} {l : String} (hl : d.line? n = some l) :
    commentLines d (n + 1) =
      if mayPrecede l.toList then
        commentLines d n ++ if isComment l.toList then [n] else []
      else
        [] := by
  cases n with
  | zero => cases hl
  | succ n =>
    have hfilter : ∀ k ∈ List.range' 1 n,
        (isCommentAt d k && decide (ClearBetween d k (n + 1 + 1))) =
          (mayPrecede l.toList && (isCommentAt d k && decide (ClearBetween d k (n + 1)))) := by
      intro k hk
      rw [List.mem_range'_1] at hk
      rw [Bool.eq_iff_iff]
      simp only [Bool.and_eq_true, decide_eq_true_eq]
      rw [clearBetween_append (by omega) (Nat.le_succ (n + 1)), clearBetween_succ hl]
      tauto
    have hlast : (isCommentAt d (n + 1) && decide (ClearBetween d (n + 1) (n + 1 + 1))) =
        (isComment l.toList && mayPrecede l.toList) := by
      rw [Bool.eq_iff_iff, isCommentAt, hl]
      simp only [Bool.and_eq_true, decide_eq_true_eq, clearBetween_succ hl, Option.any_some]
    rw [commentLines, commentLines, Nat.add_sub_cancel, Nat.add_sub_cancel, List.range'_1_concat,
      List.filter_append, List.filter_congr hfilter, Nat.add_comm 1 n]
    by_cases hp : mayPrecede l.toList = true
    · by_cases hc : isComment l.toList = true <;> simp [hp, hc, hlast]
    · simp [hp, hlast]

lemma commentsAbove_succ {d : Document} {n : Nat} {l : String} (hl : d.line? n = some l) :
    commentsAbove d (n + 1) =
      if mayPrecede l.toList then
        commentsAbove d n ++ if isComment l.toList then [String.ofList (trim l.toList)] else []
      else
        [] := by
  cases n with
  | zero => cases hl
  | succ n =>
    rw [Document.line?_succ] at hl
    have hsize : n < d.size := (List.getElem?_eq_some_iff.mp hl).1
    have htake : d.lines.take (n + 1) = d.lines.take n ++ [l] := by
      rw [List.take_add_one, hl, Option.toList_some]
    simp only [commentsAbove, Nat.add_sub_cancel, Nat.succ_le_of_lt hsize, Nat.le_of_lt hsize,
      if_true, htake, List.reverse_append, List.reverse_singleton, List.singleton_append,
      List.takeWhile_cons]
    by_cases hp : mayPrecede l.toList = true
    · by_cases hc : isComment l.toList = true <;> simp [hp, hc]
    · simp [hp]

/-- The comments above a line are the texts of its comment lines. -/
theorem commentsAbove_eq {d : Document} {line : Nat} (h : line ≤ d.size + 1) :
    commentsAbove d line = (commentLines d line).filterMap (lineText? d) := by
  induction line with
  | zero => simp [commentsAbove, commentLines]
  | succ n ih =>
    by_cases hn : n = 0
    · subst hn
      simp [commentsAbove, commentLines]
    · have hsome := (d.isSome_line?_iff n).mpr ⟨by omega, by omega⟩
      obtain ⟨l, hl⟩ := Option.isSome_iff_exists.mp hsome
      have htext : lineText? d n = some (String.ofList (trim l.toList)) := by
        rw [lineText?, hl, Option.map_some]
      rw [commentsAbove_succ hl, commentLines_succ hl, ih (by omega)]
      by_cases hp : mayPrecede l.toList = true
      · by_cases hc : isComment l.toList = true <;> simp [hp, hc, htext]
      · simp [hp]

/-! ### Members of one type -/

/-- Of two members of one type, the later one starts behind the earlier one's first line. -/
lemma start_lt_start {bound : TypeEnd} {ms : List Member} (hs : (startsOf ms).Pairwise (· < ·))
    {i j : Nat} (hij : i < j) {m k : Member} {x y : Extent}
    (hx : located? bound ms i = some (m, x)) (hy : located? bound ms j = some (k, y)) :
    x.start < y.start := by
  induction ms generalizing i j with
  | nil => simp [located?] at hx
  | cons o ms ih =>
    obtain ⟨j, rfl⟩ := Nat.exists_eq_add_one_of_ne_zero (Nat.ne_zero_of_lt hij)
    rw [located?_succ] at hy
    cases i with
    | zero =>
      obtain ⟨rfl, n, hn, rfl⟩ := eq_located_of_zero hx
      rw [startsOf_cons_of_eq_some hn] at hs
      rw [start_extentAt]
      exact (List.pairwise_cons.mp hs).1 _ (start_mem_startsOf hy)
    | succ i =>
      rw [located?_succ] at hx
      have hsublist : (startsOf ms).Sublist (startsOf (o :: ms)) :=
        (List.sublist_cons_self o ms).filterMap _
      exact ih (hs.sublist hsublist) (Nat.lt_of_succ_lt_succ hij) hx hy

/-- Of two members of one type the second of which is a field, the field gets the texts of its
comment lines. All of them stand behind the first member's first line exactly if something else than
blank lines, comments and attributes stands between the two first lines, or there is no comment
above; and none of them is a comment line of the first member exactly if, from that member's first
line on, something else stands there, or it has no comment lines. -/
theorem field_comments_iff {d : Document} {parsed : ParsedSource}
    {tree recovered : DeclarationTree} (hv : (parsed.validate d).outcome = .ok tree)
    (hr : (recoverTree d tree).outcome = .ok recovered) {k l i j : Nat} {path : List Nat}
    (hij : i < j) {m : Member} {h : MemberHead} {typeName : String} {old : List String}
    {x y : Extent} (hi : ReadAt d tree ⟨k, l, path ++ [i]⟩ m x)
    (hj : ReadAt d tree ⟨k, l, path ++ [j]⟩ (.plain h (.field typeName old)) y) :
    ∃ f, ReadAt d recovered ⟨k, l, path ++ [j]⟩ f y ∧
      f.comments? = some ((commentLines d y.start).filterMap (lineText? d)) ∧
      ((∀ n ∈ commentLines d y.start, x.start < n) ↔
        ¬ ClearBetween d (x.start + 1) y.start ∨ commentLines d (x.start + 1) = []) ∧
      ((∀ n ∈ commentLines d y.start, n ∉ commentLines d x.start) ↔
        ¬ ClearBetween d x.start y.start ∨ commentLines d x.start = []) := by
  obtain ⟨ha, rfl⟩ := ParsedSource.validate_ok_iff.mp hv
  obtain ⟨f, hf, hrec⟩ := hj.exists_recovered hr
  have hline := (hj.start_exists ha).2
  have hlt : x.start < y.start := by
    obtain ⟨bound, ms, htype, hi⟩ := hi
    obtain ⟨bound', ms', htype', hj⟩ := hj
    rw [htype] at htype'
    cases htype'
    obtain ⟨_, _, ha', hi', hj'⟩ := hi.exists_siblings (accepted_typeAt ha htype) hj
    exact start_lt_start (sorted_of_accepted ha') hij hi' hj'
  refine ⟨f, hf, ?_, commentLines_ge_iff hlt, commentLines_disjoint_iff (Nat.le_of_lt hlt)⟩
  obtain ⟨hc⟩ | _ := hrec
  cases hc with
  | field _ _ =>
    rw [← commentsAbove_eq (Nat.le_succ_of_le hline)]
    rfl
  | cleared hfield _ => cases hfield
  | filled hfield _ _ _ => cases hfield

/-! ### Attributes on the lines of fields -/

/-- A class with three fields, of which the first and the last have an attribute on their line. -/
def itemSource : Document :=
  .ofLines [
    "class Item \x7b",
    "    // The number.",
    "    [Column] private int number;",
    "    // The name.",
    "    private string name;",
    "    // The price.",
    "    [Column] private int price;",
    "\x7d"]

/-- The tree of the source, with these comments of the fields. -/
def itemTree (number name price : List String) : DeclarationTree where
  namespaces := [{
    types := [{
      header := { name := "Item", firstLine := some 1, closingLine := some 8 }
      members := [
        .plain { name := "number", firstLine := some 3 } (.field "int" number),
        .plain { name := "name", firstLine := some 5 } (.field "string" name),
        .plain { name := "price", firstLine := some 7 } (.field "int" price)] }] }]

lemma validate_itemTree :
    (ParsedSource.validate { tree := itemTree [] [] [] } itemSource).outcome =
      .ok (itemTree [] [] []) := by
  decide +kernel

lemma recoverTree_itemTree :
    (recoverTree itemSource (itemTree [] [] [])).outcome =
      .ok (itemTree ["// The number."] ["// The number.", "// The name."] ["// The price."]) := by
  decide +kernel

/-- The line of the second field is code, so the third one gets its own comment only. -/
theorem price_commented :
    (ParsedSource.validate { tree := itemTree [] [] [] } itemSource).outcome =
        .ok (itemTree [] [] []) ∧
      ∃ recovered f y, (recoverTree itemSource (itemTree [] [] [])).outcome = .ok recovered ∧
        ReadAt itemSource recovered ⟨0, 0, [] ++ [2]⟩ f y ∧
        f.comments? = some ((commentLines itemSource y.start).filterMap (lineText? itemSource)) ∧
        ∀ n ∈ commentLines itemSource y.start, 5 < n := by
  have hname : ReadAt itemSource (itemTree [] [] []) ⟨0, 0, [] ++ [1]⟩
      (.plain { name := "name", firstLine := some 5 } (.field "string" []))
      { start := 5, stop := 7 } :=
    ⟨_, _, rfl, .here rfl⟩
  have hprice : ReadAt itemSource (itemTree [] [] []) ⟨0, 0, [] ++ [2]⟩
      (.plain { name := "price", firstLine := some 7 } (.field "int" []))
      { start := 7, stop := 8, isLast := true } :=
    ⟨_, _, rfl, .here rfl⟩
  obtain ⟨f, hf, hcomments, hown, -⟩ :=
    field_comments_iff validate_itemTree recoverTree_itemTree (by decide) hname hprice
  exact ⟨validate_itemTree, _, f, _, recoverTree_itemTree, hf, hcomments,
    hown.mpr (.inr (by decide +kernel))⟩

/-- The line of the first field starts with an attribute, so the second one gets the comment above
that line as well. -/
theorem name_commented_twice :
    ¬ ∀ (d : Document) (parsed : ParsedSource) (tree recovered : DeclarationTree)
        (k l i : Nat) (path : List Nat) (m f : Member) (h : MemberHead) (typeName : String)
        (old comments : List String) (x y : Extent),
      (parsed.validate d).outcome = .ok tree → (recoverTree d tree).outcome = .ok recovered →
        ReadAt d tree ⟨k, l, path ++ [i]⟩ m x →
        ReadAt d tree ⟨k, l, path ++ [i + 1]⟩ (.plain h (.field typeName old)) y →
        ReadAt d recovered ⟨k, l, path ++ [i + 1]⟩ f y → f.comments? = some comments →
        ∀ s ∈ comments, ∃ n, x.start < n ∧ lineText? d n = some s := by
  intro h
  have hnumber : ReadAt itemSource (itemTree [] [] []) ⟨0, 0, [] ++ [0]⟩
      (.plain { name := "number", firstLine := some 3 } (.field "int" []))
      { start := 3, stop := 5 } :=
    ⟨_, _, rfl, .here rfl⟩
  have hname : ∀ number name price, ReadAt itemSource (itemTree number name price)
      ⟨0, 0, [] ++ [0 + 1]⟩ (.plain { name := "name", firstLine := some 5 } (.field "string" name))
      { start := 5, stop := 7 } :=
    fun number name price => ⟨_, _, rfl, .here rfl⟩
  obtain ⟨n, hn, htext⟩ := h _ _ _ _ _ _ _ _ _ _ _ _ _ _ _ _ validate_itemTree
    recoverTree_itemTree hnumber (hname _ _ _) (hname _ _ _) rfl "// The number." (by simp)
  have hafter : ∀ n ∈ List.range' 4 5, lineText? itemSource n ≠ some "// The number." := by
    decide +kernel
  have hexists : (itemSource.line? n).isSome = true := by
    rw [lineText?, Option.map_eq_some_iff] at htext
    obtain ⟨l, hl, -⟩ := htext
    rw [hl, Option.isSome_some]
  have hsize : n ≤ 8 := ((itemSource.isSome_line?_iff n).mp hexists).2
  exact hafter n (List.mem_range'_1.mpr ⟨hn, by omega⟩) htext

end Graft.Recovery
