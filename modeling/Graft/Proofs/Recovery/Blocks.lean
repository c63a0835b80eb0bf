import Graft.Proofs.Recovery.Closing

/-!
# Blocks

A member's text is a block when it is a header, then a text in braces, and then what follows the
closing brace. Several closing braces of a text may be taken for that of the block. The recovery
decides by the lines behind the brace: it is the one behind which the lines hold as many closing
braces as scopes end there, and nothing else but lines that belong to no body. The text of a block
is recovered exactly in that case, `Block.text_recovered_iff`; with lone braces behind the block it
always is, `body_of_layout`. Whatever is recovered stands in the lines as it is, `body_verbatim`.
-/

namespace Graft.Recovery

open Source Text

/-! ### Blocks -/

/-- The lines are a header without an opening brace, then a text in braces, the rest of the closing
brace's line, and further lines. -/
structure Block (lines : List Line) (header text rest : List Char) (tail : List Line) : Prop where
  joinLines_eq : joinLines lines =
    header ++ '{' :: (text ++ '}' :: (rest ++ tail.flatMap ('\n' :: ·)))
  header : '{' ∉ header
  rest : '\n' ∉ rest
  tail : ∀ l ∈ tail, '\n' ∉ l

/-- Behind the closing brace of a block, and on its line, the lines hold that many closing braces
more, and nothing else but what belongs to no body. -/
structure ClosesBlock (scopes : Nat) (text rest : List Char) (tail : List Line) : Prop where
  code : isNoise (lastLine text ++ '}' :: rest) = false
  closing : ∀ l ∈ tail, Closing l
  scopes_eq : rest.count '}' + bracesOf tail = scopes

/-- The text of a block as a member's body: without the blank lines at its start and the white space
at its end. -/
def blockText (text : List Char) : String :=
  String.ofList (bodyText (pieces text))

/-- The fold marks that the lines behind a block leave. -/
def foldMarks (tail : List Line) : FoldMarks :=
  tail.foldr (fun line fold => noteFold fold line) {}

lemma afterBrace?_append_left {s : List Char} (h : '{' ∉ s) (t : List Char) :
    afterBrace? (s ++ t) = afterBrace? t := by
  have hskip : ∀ c ∈ s, (c != '{') = true := by
    intro c hc
    rw [bne_iff_ne]
    rintro rfl
    exact h hc
  rw [afterBrace?, List.dropWhile_append_of_pos hskip, afterBrace?]

lemma afterBrace?_append_cons {header : List Char} (h : '{' ∉ header) (text : List Char) :
    afterBrace? (header ++ '{' :: text) = some text :=
  afterBrace?_append_left h ('{' :: text)

lemma exists_of_afterBrace? {s text : List Char} (h : afterBrace? s = some text) :
    ∃ header, s = header ++ '{' :: text ∧ '{' ∉ header := by
  have hm : '{' ∈ s := by
    by_contra hm
    rw [← s.append_nil, afterBrace?_append_left hm] at h
    cases h
  obtain ⟨header, text', rfl, hh⟩ := List.eq_append_cons_of_mem hm
  rw [afterBrace?_append_cons hh] at h
  cases h
  exact ⟨header, rfl, hh⟩

/-- The lines of what follows an opening brace. -/
lemma pieces_block {rest : List Char} {tail : List Line} (hr : '\n' ∉ rest)
    (ht : ∀ l ∈ tail, '\n' ∉ l) (text : List Char) :
    pieces (text ++ '}' :: (rest ++ tail.flatMap ('\n' :: ·))) =
      (pieces text).dropLast ++ (lastLine text ++ '}' :: rest) :: tail := by
  have hbrace : '\n' ∉ '}' :: rest := by simpa using hr
  rw [← List.cons_append, ← List.append_assoc, pieces_append_lines ht,
    pieces_append_of_not_mem hbrace]
  simp

/-- A last line of white space makes no difference. -/
lemma bodyText_append_of_isSpace {last : Line} (h : ∀ c ∈ last, isSpace c = true)
    (lines : List Line) : bodyText (lines ++ [last]) = bodyText lines := by
  rw [bodyText, bodyText, List.dropWhile_append]
  cases hd : lines.dropWhile isBlank with
  | nil =>
    rw [List.isEmpty_nil, if_pos rfl, joinLines_nil, trimEnd_nil]
    apply trimEnd_eq_nil
    by_cases hb : isBlank last = true
    · rw [List.dropWhile_cons_of_pos hb]
      simp
    · rw [List.dropWhile_cons_of_neg hb]
      simpa using h
  | cons line rest =>
    have hspace : ∀ c ∈ '\n' :: last, isSpace c = true :=
      List.forall_mem_cons.mpr ⟨by decide, h⟩
    rw [List.isEmpty_cons, if_neg (by simp),
      joinLines_append (List.cons_ne_nil _ _) (List.cons_ne_nil _ []), joinLines_singleton,
      trimEnd_append_of_isSpace hspace]

/-- The recovery takes a block whose brace it finds. -/
theorem Block.bodyOfLines_eq {lines tail : List Line} {header text rest : List Char}
    {scopes : Nat} (hb : Block lines header text rest tail)
    (hc : ClosesBlock scopes text rest tail) :
    bodyOfLines lines scopes = .ok { text := blockText text, fold := foldMarks tail } := by
  have htail : ClosingLines (bracesOf tail) tail.reverse :=
    ClosingLines.reverse ⟨hc.closing, rfl⟩
  have hscopes : scopes + 1 = rest.count '}' + 1 + bracesOf tail := by
    rw [← hc.scopes_eq]
    omega
  have hfold : tail.reverse.foldl noteFold {} = foldMarks tail := List.foldl_reverse
  obtain ⟨kept, hkept, hlines⟩ :=
    dropScopes?_brace hc.code (foldMarks tail) (pieces text).dropLast.reverse
  rw [bodyOfLines_ok_iff]
  refine ⟨_, kept, foldMarks tail, hb.joinLines_eq ▸ afterBrace?_append_cons hb.header _, ?_, ?_⟩
  · rw [pieces_block hb.rest hb.tail, List.reverse_append, List.reverse_cons, List.append_assoc,
      hscopes, htail.dropScopes?, hfold]
    exact hkept
  · rw [blockText, pieces_eq_dropLast_append]
    rcases hlines with rfl | ⟨rfl, hspace⟩
    · simp
    · rw [List.reverse_reverse, bodyText_append_of_isSpace hspace]

/-- Whatever the recovery takes is a block whose brace it finds. -/
theorem exists_block {lines : List Line} {scopes : Nat} {body : Body}
    (h : bodyOfLines lines scopes = .ok body) :
    ∃ header text rest tail, Block lines header text rest tail ∧
      ClosesBlock scopes text rest tail := by
  obtain ⟨s, kept, fold, hs, hd, -⟩ := bodyOfLines_ok_iff.mp h
  obtain ⟨header, hjoin, hheader⟩ := exists_of_afterBrace? hs
  obtain ⟨tail, before, after, rest, m, hlines, hc, htail, hsum⟩ := exists_of_dropScopes? hd
  have hpieces : pieces s = rest.reverse ++ (before ++ '}' :: after) :: tail.reverse := by
    rw [← List.reverse_reverse (pieces s), hlines]
    simp
  have hfeed : ∀ l ∈ rest.reverse ++ (before ++ '}' :: after) :: tail.reverse, '\n' ∉ l := by
    rw [← hpieces]
    exact fun l hl => not_mem_of_mem_pieces hl
  have hline := hfeed _ (List.mem_append_right _ List.mem_cons_self)
  rw [List.mem_append, not_or] at hline
  have hbefore : ∀ l ∈ rest.reverse ++ [before], '\n' ∉ l := by
    intro l hl
    rcases List.mem_append.mp hl with hl | hl
    · exact hfeed l (List.mem_append_left _ hl)
    · rw [List.mem_singleton.mp hl]
      exact hline.1
  have htext : pieces (joinLines (rest.reverse ++ [before])) = rest.reverse ++ [before] :=
    pieces_joinLines (by simp) hbefore
  have hlast : lastLine (joinLines (rest.reverse ++ [before])) = before := by
    simp only [lastLine, htext]
    exact List.getLast_concat
  refine ⟨header, joinLines (rest.reverse ++ [before]), after, tail.reverse,
    ⟨?_, hheader, ?_, ?_⟩, ⟨?_, ?_, ?_⟩⟩
  · rw [hjoin, ← joinLines_pieces s, hpieces, List.append_cons rest.reverse,
      joinLines_append_lines (by simp), joinLines_append_singleton]
    simp
  · exact fun hm => hline.2 (List.mem_cons_of_mem _ hm)
  · exact fun l hl => hfeed l (List.mem_append_right _ (List.mem_cons_of_mem _ hl))
  · rw [hlast, hc]
  · exact htail.reverse.closing
  · rw [htail.reverse.bracesOf_eq, hsum]

/-! ### A block's own text -/

lemma count_bodyText {c : Char} (hc : isSpace c = false) (s : List Char) :
    (bodyText (pieces s)).count c = s.count c := by
  have hne : c ≠ '\n' := by
    rintro rfl
    exact absurd hc (by decide)
  have hskip : ∀ lines : List Line,
      (lines.dropWhile isBlank).flatten.count c = lines.flatten.count c := by
    intro lines
    induction lines with
    | nil => rfl
    | cons line lines ih =>
      by_cases hb : isBlank line = true
      · have hzero : line.count c = 0 := by
          refine List.count_eq_zero.mpr fun hm => ?_
          rw [isSpace_of_isIndent (isBlank_iff.mp hb c hm)] at hc
          cases hc
        rw [List.dropWhile_cons_of_pos hb, ih, List.flatten_cons, List.count_append, hzero,
          Nat.zero_add]
      · rw [List.dropWhile_cons_of_neg hb]
  conv_rhs => rw [← joinLines_pieces s]
  rw [bodyText, count_trimEnd hc, count_joinLines hne, count_joinLines hne, hskip]

/-- Two texts that make the same body hold a character equally often, if it is not white space. -/
lemma count_eq_of_blockText_eq {c : Char} (hc : isSpace c = false) {text text' : List Char}
    (h : blockText text = blockText text') : text.count c = text'.count c := by
  have hchars := congrArg String.toList h
  rw [blockText, blockText, String.toList_ofList, String.toList_ofList] at hchars
  rw [← count_bodyText hc text, ← count_bodyText hc text', hchars]

/-- Lines that are a block in two ways are so by different closing braces. -/
lemma Block.unique {lines tail tail' : List Line} {header header' text text' rest rest' : List Char}
    (hb : Block lines header text rest tail) (hb' : Block lines header' text' rest' tail')
    (hc : text.count '}' = text'.count '}') :
    header = header' ∧ text = text' ∧ rest = rest' ∧ tail = tail' := by
  have hopen := hb.joinLines_eq.symm.trans hb'.joinLines_eq
  obtain ⟨rfl, hclose⟩ := eq_of_count_eq hopen (by
    rw [List.count_eq_zero.mpr hb.header, List.count_eq_zero.mpr hb'.header])
  obtain ⟨rfl, hrest⟩ := eq_of_count_eq hclose hc
  have hlines := congrArg pieces hrest
  rw [pieces_append_lines hb.tail, pieces_append_lines hb'.tail, pieces_of_not_mem hb.rest,
    pieces_of_not_mem hb'.rest] at hlines
  obtain ⟨rfl, rfl⟩ := List.cons.inj hlines
  exact ⟨rfl, rfl, rfl, rfl⟩

/-- The text of a block is recovered exactly if its closing brace is the one that is found. -/
theorem Block.text_recovered_iff {lines tail : List Line} {header text rest : List Char}
    (hb : Block lines header text rest tail) (scopes : Nat) :
    (∃ body, bodyOfLines lines scopes = .ok body ∧ body.text = blockText text) ↔
      ClosesBlock scopes text rest tail := by
  constructor
  · rintro ⟨body, h, htext⟩
    obtain ⟨header', text', rest', tail', hb', hc'⟩ := exists_block h
    rw [hb'.bodyOfLines_eq hc'] at h
    obtain rfl := Except.ok.inj h
    obtain ⟨-, rfl, rfl, rfl⟩ := hb.unique hb' (count_eq_of_blockText_eq (by decide) htext.symm)
    exact hc'
  · intro hc
    exact ⟨_, hb.bodyOfLines_eq hc, rfl⟩

/-! ### More and fewer lines -/

lemma Block.ne_nil {lines tail : List Line} {header text rest : List Char}
    (hb : Block lines header text rest tail) : lines ≠ [] := by
  rintro rfl
  have hlength := congrArg List.length hb.joinLines_eq
  simp at hlength

/-- The line of the closing brace, among the other lines. -/
lemma Block.lines_eq {lines tail : List Line} {header text rest : List Char}
    (hb : Block lines header text rest tail) (hl : ∀ l ∈ lines, '\n' ∉ l) :
    lines = (pieces (header ++ '{' :: text)).dropLast ++
      (lastLine (header ++ '{' :: text) ++ '}' :: rest) :: tail := by
  rw [← pieces_joinLines hb.ne_nil hl, hb.joinLines_eq, ← pieces_block hb.rest hb.tail]
  simp

/-- On which of the lines the closing brace stands. -/
lemma length_dropLast_pieces (header text : List Char) :
    (pieces (header ++ '{' :: text)).dropLast.length = (header ++ text).count '\n' := by
  rw [List.length_dropLast, length_pieces, Nat.add_sub_cancel, List.count_append,
    List.count_cons_of_ne (by decide), List.count_append]

lemma Block.length_eq {lines tail : List Line} {header text rest : List Char}
    (hb : Block lines header text rest tail) (hl : ∀ l ∈ lines, '\n' ∉ l) :
    lines.length = (header ++ text).count '\n' + 1 + tail.length := by
  rw [hb.lines_eq hl, List.length_append, length_dropLast_pieces, List.length_cons]
  omega

/-- With more lines behind it, a block stays one. -/
lemma Block.append {lines tail : List Line} {header text rest : List Char}
    (hb : Block lines header text rest tail) {more : List Line} (hm : ∀ l ∈ more, '\n' ∉ l) :
    Block (lines ++ more) header text rest (tail ++ more) := by
  refine ⟨?_, hb.header, hb.rest, List.forall_mem_append.mpr ⟨hb.tail, hm⟩⟩
  rw [joinLines_append_lines hb.ne_nil, hb.joinLines_eq]
  simp

/-- Without some of the lines behind it, a block stays one. -/
lemma Block.take {lines tail : List Line} {header text rest : List Char}
    (hb : Block lines header text rest tail) (hl : ∀ l ∈ lines, '\n' ∉ l) {n : Nat}
    (hn : (header ++ text).count '\n' < n) :
    Block (lines.take n) header text rest (tail.take (n - 1 - (header ++ text).count '\n')) := by
  have hlength := length_dropLast_pieces header text
  have hlines : lines.take n = ((pieces (header ++ '{' :: text)).dropLast ++
      [lastLine (header ++ '{' :: text) ++ '}' :: rest]) ++
        tail.take (n - 1 - (header ++ text).count '\n') := by
    rw [hb.lines_eq hl, List.append_cons, List.take_append, List.take_of_length_le]
    · congr 2
      rw [List.length_append, hlength]
      simp
      omega
    · rw [List.length_append, hlength]
      exact hn
  refine ⟨?_, hb.header, hb.rest, fun l hl => hb.tail l (List.mem_of_mem_take hl)⟩
  rw [hlines, joinLines_append_lines (by simp), joinLines_append_singleton,
    ← pieces_eq_dropLast_append, joinLines_pieces]
  simp

/-- A block of which only the first lines are known is recovered exactly if its closing brace is on
one of them, and is the one that is found there. -/
theorem Block.take_recovered_iff {lines tail : List Line} {header text rest : List Char}
    (hb : Block lines header text rest tail) (hl : ∀ l ∈ lines, '\n' ∉ l) (n scopes : Nat) :
    (∃ body, bodyOfLines (lines.take n) scopes = .ok body ∧ body.text = blockText text) ↔
      (header ++ text).count '\n' < n ∧
        ClosesBlock scopes text rest (tail.take (n - 1 - (header ++ text).count '\n')) := by
  by_cases hn : (header ++ text).count '\n' < n
  · rw [(hb.take hl hn).text_recovered_iff, and_iff_right hn]
  · refine iff_of_false ?_ fun h => hn h.1
    rintro ⟨body, h, htext⟩
    -- the block that is found is one of all the lines, and then it has to be this one
    obtain ⟨header', text', rest', tail', hb', hc'⟩ := exists_block h
    rw [hb'.bodyOfLines_eq hc'] at h
    obtain rfl := Except.ok.inj h
    have hdrop : ∀ l ∈ lines.drop n, '\n' ∉ l := fun l hm => hl l (List.mem_of_mem_drop hm)
    have happend := hb'.append hdrop
    rw [List.take_append_drop] at happend
    obtain ⟨rfl, rfl, -, -⟩ := hb.unique happend (count_eq_of_blockText_eq (by decide) htext.symm)
    have hlength := hb'.length_eq fun l hm => hl l (List.mem_of_mem_take hm)
    have hle := List.length_take_le n lines
    omega

/-! ### Lone braces behind a block -/

/-- The recovery inverts the layout of a member: of lines that are a block, followed by lines that
belong to no body and by as many lone braces as scopes end there, it gives back the block's text,
whatever that text is. -/
theorem body_of_layout {d : Document} {x : Extent} {header text rest : List Char}
    {tail : List Line} (hb : Block ((d.between x.start x.stop).map String.toList) header text rest
      tail) (hr : '}' ∉ rest) (hc : isNoise (lastLine text ++ '}' :: rest) = false)
    (ht : Closes x.trailingScopes tail) (member : String) :
    recoverBody d x member = .ok { text := blockText text, fold := foldMarks tail } := by
  have hlines := ht.closingLines
  rw [recoverBody_ok_iff]
  apply hb.bodyOfLines_eq
  refine ⟨hc, hlines.closing, ?_⟩
  rw [List.count_eq_zero.mpr hr, Nat.zero_add, hlines.bracesOf_eq]

/-- A class in a namespace, with one method. -/
def parcelSource : Document :=
  .ofLines [
    "namespace Shop \x7b",
    "    class Parcel \x7b",
    "        void Ship(int count) \x7b",
    "",
    "            // no \x7d is closed here",
    "            if (count > 0) \x7b Send(); \x7d",
    "",
    "            #region Later",
    "            [Later] void Log() \x7b \x7d",
    "        \x7d // of Ship",
    "        #endregion",
    "    \x7d",
    "",
    "\x7d"]

/-- The text between the braces of the method. -/
def parcelText : List Char :=
  joinLines [
    [],
    [],
    "            // no \x7d is closed here".toList,
    "            if (count > 0) \x7b Send(); \x7d".toList,
    [],
    "            #region Later".toList,
    "            [Later] void Log() \x7b \x7d".toList,
    "        ".toList]

/-- The extent of the method, if no closing line is known. -/
def parcelExtent : Extent where
  start := 3
  stop := 15
  isLast := true
  scopes := 2

/-- Its text is recovered without the blank line at its start, and the two scopes that end behind
it do not matter. -/
theorem parcel_recovered :
    Block ((parcelSource.between parcelExtent.start parcelExtent.stop).map String.toList)
        "        void Ship(int count) ".toList parcelText " // of Ship".toList
        ["        #endregion".toList, "    \x7d".toList, [], ['}']] ∧
      recoverBody parcelSource parcelExtent "Ship" = .ok {
        text := "            // no \x7d is closed here\n" ++
          "            if (count > 0) \x7b Send(); \x7d\n" ++
          "\n" ++
          "            #region Later\n" ++
          "            [Later] void Log() \x7b \x7d"
        fold := { closed := true } } := by
  have hb : Block ((parcelSource.between parcelExtent.start parcelExtent.stop).map String.toList)
      "        void Ship(int count) ".toList parcelText " // of Ship".toList
      ["        #endregion".toList, "    \x7d".toList, [], ['}']] :=
    ⟨by decide +kernel, by decide +kernel, by decide +kernel, by decide +kernel⟩
  have ht : Closes parcelExtent.trailingScopes
      ["        #endregion".toList, "    \x7d".toList, [], ['}']] :=
    ⟨by decide +kernel, by decide +kernel⟩
  refine ⟨hb, (body_of_layout hb (by decide) (by decide +kernel) ht "Ship").trans ?_⟩
  decide +kernel

/-! ### Bodies are pieces of their lines -/

/-- The text of a body stands in the lines as it is, behind some of the blank lines at their start
and before white space. -/
lemma exists_joinLines_eq (lines : List Line) :
    ∃ blank space, joinLines lines = endLines blank ++ (bodyText lines ++ space) ∧
      (∀ l ∈ blank, isBlank l = true) ∧ ∀ c ∈ space, isSpace c = true := by
  induction lines with
  | nil => exact ⟨[], [], rfl, by simp, by simp⟩
  | cons line lines ih =>
    by_cases hb : isBlank line = true
    · have htext : bodyText (line :: lines) = bodyText lines := by
        rw [bodyText, List.dropWhile_cons_of_pos hb, bodyText]
      rw [htext]
      cases lines with
      | nil =>
        have hspace : ∀ c ∈ line, isSpace c = true := by
          intro c hc
          exact isSpace_of_isIndent (isBlank_iff.mp hb c hc)
        exact ⟨[], line, by rw [joinLines_singleton]; rfl, by simp, hspace⟩
      | cons k ks =>
        obtain ⟨blank, space, hjoin, hblank, hspace⟩ := ih
        refine ⟨line :: blank, space, ?_, List.forall_mem_cons.mpr ⟨hb, hblank⟩, hspace⟩
        rw [joinLines_cons_cons, hjoin]
        simp [endLines]
    · obtain ⟨space, hjoin, hspace⟩ := exists_trimEnd_append (joinLines (line :: lines))
      refine ⟨[], space, ?_, by simp, hspace⟩
      rw [bodyText, List.dropWhile_cons_of_neg hb]
      exact hjoin

lemma bracesOf_le_count (tail : List Line) :
    bracesOf tail ≤ (tail.flatMap ('\n' :: ·)).count '}' := by
  induction tail with
  | nil => exact Nat.le_refl 0
  | cons line tail ih =>
    have hline : braces line ≤ line.count '}' := by
      unfold braces
      split
      · exact Nat.zero_le _
      · exact Nat.le_refl _
    rw [bracesOf, List.flatMap_cons, List.count_append, List.count_cons_of_ne (by decide)]
    omega

/-- A body is one piece of its lines, as it stands there: behind the first opening brace and blank
lines, and before white space and a closing brace, behind which the closing braces of all scopes
follow that end there. -/
theorem body_verbatim {d : Document} {x : Extent} {member : String} {body : Body}
    (h : recoverBody d x member = .ok body) :
    ∃ before blank space after,
      joinLines ((d.between x.start x.stop).map String.toList) =
        before ++ '{' :: (endLines blank ++ (body.text.toList ++ (space ++ '}' :: after))) ∧
      '{' ∉ before ∧ (∀ l ∈ blank, isBlank l = true) ∧ (∀ c ∈ space, isSpace c = true) ∧
      x.trailingScopes ≤ after.count '}' := by
  rw [recoverBody_ok_iff] at h
  obtain ⟨header, text, rest, tail, hb, hc⟩ := exists_block h
  rw [hb.bodyOfLines_eq hc] at h
  obtain rfl := Except.ok.inj h
  obtain ⟨blank, space, hjoin, hblank, hspace⟩ := exists_joinLines_eq (pieces text)
  rw [joinLines_pieces] at hjoin
  refine ⟨header, blank, space, rest ++ tail.flatMap ('\n' :: ·), ?_, hb.header, hblank, hspace, ?_⟩
  · rw [hb.joinLines_eq, blockText, String.toList_ofList]
    conv_lhs => rw [hjoin]
    simp
  · have hle := bracesOf_le_count tail
    rw [List.count_append, ← hc.scopes_eq]
    omega

/-- Lines whose braces do not match, with noise behind them. -/
def tangledSource : Document :=
  .ofLines [
    "    int Count(] \x7b",
    "",
    "      \x7d \x7d x \x7b\x7b",
    "      // done \x7d",
    "      y \x7d\x7d z",
    "    // \x7d",
    "    #endregion"]

/-- All these lines, with one scope that ends in them. -/
def tangledExtent : Extent where
  start := 1
  stop := 8
  isLast := true
  scopes := 1

/-- The two last braces on a line of code are taken off, and what stands before them is the body. -/
theorem tangled_verbatim :
    recoverBody tangledSource tangledExtent "Count" = .ok {
        text := "      \x7d \x7d x \x7b\x7b\n      // done \x7d\n      y"
        fold := { closed := true } } ∧
      ∃ before blank space after,
        joinLines ((tangledSource.between 1 8).map String.toList) =
          before ++ '{' :: (endLines blank ++
            ("      \x7d \x7d x \x7b\x7b\n      // done \x7d\n      y".toList ++
              (space ++ '}' :: after))) ∧
        '{' ∉ before ∧ (∀ l ∈ blank, isBlank l = true) ∧ (∀ c ∈ space, isSpace c = true) ∧
        1 ≤ after.count '}' := by
  have h : recoverBody tangledSource tangledExtent "Count" = .ok {
      text := "      \x7d \x7d x \x7b\x7b\n      // done \x7d\n      y"
      fold := { closed := true } } := by
    decide +kernel
  exact ⟨h, body_verbatim h⟩

end Graft.Recovery
