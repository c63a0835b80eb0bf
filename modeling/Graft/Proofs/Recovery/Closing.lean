import Mathlib.Data.List.TakeWhile
import Graft.Proofs.Recovery.Tails
import Graft.Proofs.Text.Lines

/-!
# Closing braces at the end of lines

The recovery takes closing braces off the end of the lines, one for each scope that ends there, and
what follows a brace goes with it. What it can take off a line altogether is described by `Closing`,
and off several lines by `ClosingLines`. The brace that it takes off last is the one that closes the
block: `dropScopes?_brace` finds it, and `exists_of_dropScopes?` says that whatever the recovery
finds has this form.
-/

namespace Graft.Recovery

open Source Text

/-! ### Code before a closing brace -/

lemma afterWord?_append_brace {word text rest : List Char} (h : afterWord? word text = some rest)
    (s : List Char) : ∃ rest', afterWord? word (text ++ '}' :: s) = some rest' := by
  unfold afterWord? at h ⊢
  split at h
  · next hp =>
    obtain ⟨t, rfl⟩ := List.isPrefixOf_iff_prefix.mp hp
    have hp' : word.isPrefixOf (word ++ t ++ '}' :: s) = true := by
      rw [List.isPrefixOf_iff_prefix, List.append_assoc]
      exact List.prefix_append word _
    rw [if_pos hp', List.append_assoc, List.drop_left]
    rw [List.drop_left] at h
    cases t with
    | nil =>
      have hbrace : isWordChar '}' = false := by decide +kernel
      exact ⟨'}' :: s, by simp [hbrace]⟩
    | cons c cs =>
      by_cases hc : isWordChar c = true
      · simp [hc] at h
      · exact ⟨c :: (cs ++ '}' :: s), by simp [hc]⟩
  · cases h

/-- A line of code is one that none of the tests for noise knows. -/
lemma lineKind_eq_code_iff {line : Line} :
    lineKind line = .code ↔
      dropIndent line ≠ [] ∧ (∀ cs, dropIndent line ≠ '/' :: '/' :: cs) ∧
        (∀ cs, dropIndent line ≠ '[' :: cs) ∧
        afterWord? "#region".toList (dropIndent line) = none ∧
        afterWord? "#endregion".toList (dropIndent line) = none := by
  unfold lineKind
  split
  · simp [*]
  · simp [*]
  · simp [*]
  · split <;> simp_all

/-- A line that belongs to no body, and is not blank, still belongs to none with a closing brace
behind it. -/
lemma isNoise_append_brace {line : Line} (h : isNoise line = true) (hb : isBlank line = false)
    (s : List Char) : isNoise (line ++ '}' :: s) = true := by
  have hdrop : dropIndent (line ++ '}' :: s) = dropIndent line ++ '}' :: s := by
    rw [dropIndent, List.dropWhile_append]
    split
    · next he =>
      rw [List.isEmpty_iff, List.dropWhile_eq_nil_iff] at he
      rw [isBlank_iff.mpr he] at hb
      cases hb
    · rfl
  rw [isNoise, decide_eq_true_eq, Ne, lineKind_eq_code_iff] at h ⊢
  rw [hdrop]
  rintro ⟨-, hcomment, hattribute, hopening, hclosing⟩
  have hkeep : ∀ {word}, afterWord? word (dropIndent line ++ '}' :: s) = none →
      afterWord? word (dropIndent line) = none := by
    intro word hnone
    by_contra hsome
    obtain ⟨rest, hrest⟩ := Option.ne_none_iff_exists'.mp hsome
    obtain ⟨rest', hrest'⟩ := afterWord?_append_brace hrest s
    rw [hrest'] at hnone
    cases hnone
  refine h ⟨fun he => ?_, fun cs hc => ?_, fun cs hc => ?_, hkeep hopening, hkeep hclosing⟩
  · rw [dropIndent, List.dropWhile_eq_nil_iff] at he
    rw [isBlank_iff.mpr he] at hb
    cases hb
  · exact hcomment _ (by rw [hc]; rfl)
  · exact hattribute _ (by rw [hc]; rfl)

/-- What stands before a closing brace on a line of code is code, or blank. -/
lemma isBlank_of_isNoise_before {line rest : Line} (h : isNoise line = true)
    (hc : isNoise (line ++ '}' :: rest) = false) : isBlank line = true := by
  by_contra hb
  rw [isNoise_append_brace h (by simpa using hb)] at hc
  cases hc

/-- Only a line that marks a fold changes the fold marks. -/
lemma noteFold_eq_self {line : Line} (h : isNoise line = false ∨ isBlank line = true)
    (fold : FoldMarks) : noteFold fold line = fold := by
  unfold noteFold
  rcases h with h | h
  · simp only [isNoise, decide_eq_false_iff_not, not_not] at h
    rw [h]
  · simp only [isBlank, decide_eq_true_eq] at h
    rw [h]

/-! ### Taking off one brace -/

/-- A line with a closing brace splits at the last one. -/
lemma exists_last_brace {line : Line} (h : '}' ∈ line) :
    ∃ before after, line = before ++ '}' :: after ∧ '}' ∉ after := by
  obtain ⟨after, before, heq, ha⟩ := List.eq_append_cons_of_mem (List.mem_reverse.mpr h)
  refine ⟨before.reverse, after.reverse, ?_, by simpa using ha⟩
  rw [← List.reverse_reverse line, heq]
  simp

/-- What stands before the last brace is found there. -/
lemma beforeLastBrace?_append {after : Line} (ha : '}' ∉ after) (before : Line) :
    beforeLastBrace? (before ++ '}' :: after) = some before := by
  have hskip : ∀ c ∈ after.reverse, (c != '}') = true := by
    intro c hc
    rw [bne_iff_ne]
    rintro rfl
    exact ha (List.mem_reverse.mp hc)
  rw [beforeLastBrace?, List.reverse_append, List.reverse_cons, List.append_assoc,
    List.dropWhile_append_of_pos hskip]
  simp

lemma beforeLastBrace?_of_not_mem {line : Line} (h : '}' ∉ line) :
    beforeLastBrace? line = none := by
  have hdrop : line.reverse.dropWhile (· != '}') = [] := by
    rw [List.dropWhile_eq_nil_iff]
    intro c hc
    rw [bne_iff_ne]
    rintro rfl
    exact h (List.mem_reverse.mp hc)
  rw [beforeLastBrace?, hdrop]

/-- A line with nothing but a brace has one. -/
lemma count_of_isLoneBrace {line : Line} (h : isLoneBrace line = true) : line.count '}' = 1 := by
  have ht := congrArg (List.count '}') (of_decide_eq_true h)
  have hspace : isSpace '}' = false := by decide
  rw [trim, count_trimEnd hspace, count_trimStart hspace] at ht
  simpa using ht

/-- A lone brace has white space before it, and no closing brace behind it. -/
lemma exists_of_isLoneBrace {line : Line} (h : isLoneBrace line = true) :
    ∃ before after, line = before ++ '}' :: after ∧ '}' ∉ after ∧
      ∀ c ∈ before, isSpace c = true := by
  obtain ⟨before, after, rfl, hb⟩ := exists_append_of_trim_eq (of_decide_eq_true h)
  have hcount := count_of_isLoneBrace h
  rw [List.count_append, List.count_cons_self] at hcount
  exact ⟨before, after, rfl, List.count_eq_zero.mp (by omega), hb⟩

/-- Dropping the lines at the end that belong to no body. -/
lemma exists_of_dropNoise (fold : FoldMarks) (lines : List Line) :
    ∃ noise, lines = noise ++ (dropNoise fold lines).1 ∧ (∀ l ∈ noise, isNoise l = true) ∧
      ∀ l ∈ (dropNoise fold lines).1.head?, isNoise l = false := by
  induction lines generalizing fold with
  | nil => exact ⟨[], rfl, by simp, by simp [dropNoise]⟩
  | cons line rest ih =>
    by_cases h : isNoise line = true
    · obtain ⟨noise, hn, hnoise, hhead⟩ := ih (noteFold fold line)
      rw [dropNoise, if_pos h]
      refine ⟨line :: noise, by rw [List.cons_append, ← hn], ?_, hhead⟩
      exact List.forall_mem_cons.mpr ⟨h, hnoise⟩
    · rw [dropNoise, if_neg h]
      exact ⟨[], rfl, by simp, by simpa using h⟩

/-- Taking the last closing brace off the last line. -/
lemma dropBrace?_cases {lines kept : List Line} (h : dropBrace? lines = some kept) :
    ∃ before after rest, lines = (before ++ '}' :: after) :: rest ∧ '}' ∉ after ∧
      (kept = rest ∧ isLoneBrace (before ++ '}' :: after) = true ∨ kept = before :: rest) := by
  cases lines with
  | nil => cases h
  | cons line rest =>
    rw [dropBrace?] at h
    split at h
    · next ht =>
      cases h
      have hlone : isLoneBrace line = true := decide_eq_true ht
      obtain ⟨before, after, rfl, ha, -⟩ := exists_of_isLoneBrace hlone
      exact ⟨before, after, _, rfl, ha, .inl ⟨rfl, hlone⟩⟩
    · by_cases hm : '}' ∈ line
      · obtain ⟨before, after, rfl, ha⟩ := exists_last_brace hm
        rw [beforeLastBrace?_append ha] at h
        cases h
        exact ⟨before, after, rest, rfl, ha, .inr rfl⟩
      · rw [beforeLastBrace?_of_not_mem hm] at h
        cases h

/-- On a line of code that holds more than a brace, what follows the last brace goes with it. -/
lemma dropScopes?_cons_of_code {before after : Line} (ha : '}' ∉ after)
    (hc : isNoise (before ++ '}' :: after) = false)
    (hl : isLoneBrace (before ++ '}' :: after) = false) (fold : FoldMarks) (scopes : Nat)
    (rest : List Line) :
    dropScopes? fold (scopes + 1) ((before ++ '}' :: after) :: rest) =
      dropScopes? fold scopes (before :: rest) := by
  have ht : trim (before ++ '}' :: after) ≠ ['}'] := of_decide_eq_false hl
  simp only [dropScopes?, dropNoise, hc, Bool.false_eq_true, if_false, dropBrace?, ht,
    beforeLastBrace?_append ha, Option.map_some]

/-! ### Lines that hold closing braces -/

/-- How many closing braces can be taken off a line. -/
def braces (line : Line) : Nat :=
  if isNoise line then 0 else line.count '}'

/-- How many closing braces can be taken off the lines. -/
def bracesOf : List Line → Nat
  | [] => 0
  | line :: lines => braces line + bracesOf lines

/-- A line of which nothing is left when its closing braces are taken off, the last one first, each
with what follows it: what remains then belongs to no body, or is a lone brace. -/
inductive Closing : Line → Prop where
  | noise {line : Line} (h : isNoise line = true) : Closing line
  | lone {line : Line} (h : isLoneBrace line = true) : Closing line
  | brace {before after : Line} (h : Closing before) (ha : '}' ∉ after)
      (hc : isNoise (before ++ '}' :: after) = false) : Closing (before ++ '}' :: after)

/-- That many closing braces can be taken off the lines, and then nothing is left of them. -/
structure ClosingLines (n : Nat) (lines : List Line) : Prop where
  closing : ∀ l ∈ lines, Closing l
  bracesOf_eq : bracesOf lines = n

lemma bracesOf_append (lines more : List Line) :
    bracesOf (lines ++ more) = bracesOf lines + bracesOf more := by
  induction lines with
  | nil => exact (Nat.zero_add _).symm
  | cons line lines ih => rw [List.cons_append, bracesOf, bracesOf, ih, Nat.add_assoc]

lemma bracesOf_reverse (lines : List Line) : bracesOf lines.reverse = bracesOf lines := by
  induction lines with
  | nil => rfl
  | cons line lines ih =>
    rw [List.reverse_cons, bracesOf_append, ih, Nat.add_comm]
    rfl

lemma braces_of_isNoise {line : Line} (h : isNoise line = true) : braces line = 0 :=
  if_pos h

lemma braces_of_isLoneBrace {line : Line} (h : isLoneBrace line = true) : braces line = 1 := by
  rw [braces, isNoise_of_isLoneBrace h, if_neg (by simp), count_of_isLoneBrace h]

/-- Before a closing brace on a line of code, every closing brace counts. -/
lemma braces_eq_count {before after : Line} (hc : isNoise (before ++ '}' :: after) = false) :
    braces before = before.count '}' := by
  by_cases h : isNoise before = true
  · have hb := isBlank_iff.mp (isBlank_of_isNoise_before h hc)
    rw [braces_of_isNoise h, eq_comm, List.count_eq_zero]
    exact fun hm => absurd (hb _ hm) (by decide)
  · exact if_neg h

/-- A line of code has one brace more than what stands before its last one. -/
lemma braces_append_brace {before after : Line} (ha : '}' ∉ after)
    (hc : isNoise (before ++ '}' :: after) = false) :
    braces (before ++ '}' :: after) = braces before + 1 := by
  rw [braces_eq_count hc, braces, hc, if_neg (by simp), List.count_append, List.count_cons_self,
    List.count_eq_zero.mpr ha]

lemma noteFold_append_brace {before after : Line}
    (hc : isNoise (before ++ '}' :: after) = false) (fold : FoldMarks) :
    noteFold fold (before ++ '}' :: after) = noteFold fold before := by
  rw [noteFold_eq_self (.inl hc)]
  by_cases h : isNoise before = true
  · rw [noteFold_eq_self (.inr (isBlank_of_isNoise_before h hc))]
  · rw [noteFold_eq_self (.inl (by simpa using h))]

/-- The braces of such a line go with as many scopes. -/
lemma Closing.dropScopes? {line : Line} (h : Closing line) (fold : FoldMarks) (scopes : Nat)
    (rest : List Line) :
    dropScopes? fold (scopes + 1 + braces line) (line :: rest) =
      dropScopes? (noteFold fold line) (scopes + 1) rest := by
  induction h with
  | noise h => rw [braces_of_isNoise h, Nat.add_zero, dropScopes?_cons_of_isNoise h]
  | lone h =>
    rw [braces_of_isLoneBrace h, dropScopes?_cons_of_isLoneBrace h,
      noteFold_eq_self (.inl (isNoise_of_isLoneBrace h))]
  | @brace before after _ ha hc ih =>
    by_cases hl : isLoneBrace (before ++ '}' :: after) = true
    · rw [braces_of_isLoneBrace hl, dropScopes?_cons_of_isLoneBrace hl,
        noteFold_eq_self (.inl hc)]
    · rw [braces_append_brace ha hc, ← Nat.add_assoc,
        dropScopes?_cons_of_code ha hc (by simpa using hl), ih, noteFold_append_brace hc]

lemma ClosingLines.nil : ClosingLines 0 [] :=
  ⟨by simp, rfl⟩

lemma ClosingLines.cons {n : Nat} {line : Line} {lines : List Line} (h : Closing line)
    (h' : ClosingLines n lines) : ClosingLines (braces line + n) (line :: lines) :=
  ⟨List.forall_mem_cons.mpr ⟨h, h'.closing⟩, by rw [bracesOf, h'.bracesOf_eq]⟩

/-- Closing lines may be put together, and their braces are added. -/
lemma ClosingLines.append {m n : Nat} {lines more : List Line} (h : ClosingLines m lines)
    (h' : ClosingLines n more) : ClosingLines (m + n) (lines ++ more) :=
  ⟨List.forall_mem_append.mpr ⟨h.closing, h'.closing⟩, by
    rw [bracesOf_append, h.bracesOf_eq, h'.bracesOf_eq]⟩

lemma ClosingLines.reverse {n : Nat} {lines : List Line} (h : ClosingLines n lines) :
    ClosingLines n lines.reverse :=
  ⟨fun l hl => h.closing l (List.mem_reverse.mp hl), by
    rw [bracesOf_reverse, h.bracesOf_eq]⟩

/-- Noise closes nothing. -/
lemma ClosingLines.of_noise {lines : List Line} (h : ∀ l ∈ lines, isNoise l = true) :
    ClosingLines 0 lines := by
  induction lines with
  | nil => exact .nil
  | cons line lines ih =>
    rw [List.forall_mem_cons] at h
    have hc := (ih h.2).cons (.noise h.1)
    rwa [braces_of_isNoise h.1] at hc

/-- Scopes are dropped as closing lines come, whatever is to come behind them. -/
lemma ClosingLines.dropScopes? {n : Nat} {lines : List Line} (h : ClosingLines n lines)
    (fold : FoldMarks) (scopes : Nat) (rest : List Line) :
    dropScopes? fold (scopes + 1 + n) (lines ++ rest) =
      dropScopes? (lines.foldl noteFold fold) (scopes + 1) rest := by
  obtain ⟨hl, rfl⟩ := h
  induction lines generalizing fold with
  | nil => rfl
  | cons line lines ih =>
    have ih := fun fold => ih fold fun l hm => hl l (List.mem_cons_of_mem line hm)
    have hsum : scopes + 1 + bracesOf (line :: lines) =
        scopes + bracesOf lines + 1 + braces line := by
      rw [bracesOf]
      omega
    rw [hsum, List.cons_append, (hl line List.mem_cons_self).dropScopes?, Nat.add_right_comm, ih]
    rfl

/-- Lines that close a number of scopes are closing lines with so many braces. -/
lemma Closes.closingLines {n : Nat} {lines : List Line} (h : Closes n lines) :
    ClosingLines n lines := by
  obtain ⟨hl, rfl⟩ := h
  induction lines with
  | nil => exact .nil
  | cons line lines ih =>
    rw [List.forall_mem_cons] at hl
    rcases hl.1 with hn | hb
    · have hc := (ih hl.2).cons (.noise hn)
      rw [List.countP_cons_of_neg (by simp [isLoneBrace_of_isNoise hn])]
      rwa [braces_of_isNoise hn, Nat.zero_add] at hc
    · have hc := (ih hl.2).cons (.lone hb)
      rw [List.countP_cons_of_pos hb]
      rwa [braces_of_isLoneBrace hb, Nat.add_comm] at hc

/-! ### The brace that closes the block -/

/-- On the line of the closing brace, the braces behind it go first. -/
lemma dropScopes?_brace {before after : Line} (hc : isNoise (before ++ '}' :: after) = false)
    (fold : FoldMarks) (rest : List Line) :
    ∃ kept, dropScopes? fold (after.count '}' + 1) ((before ++ '}' :: after) :: rest) =
        some (kept, fold) ∧
      (kept = before :: rest ∨ kept = rest ∧ ∀ c ∈ before, isSpace c = true) := by
  induction hn : after.count '}' generalizing after with
  | zero =>
    have ha : '}' ∉ after := List.count_eq_zero.mp hn
    by_cases hl : isLoneBrace (before ++ '}' :: after) = true
    · refine ⟨rest, dropScopes?_cons_of_isLoneBrace hl fold 0 rest, .inr ⟨rfl, ?_⟩⟩
      obtain ⟨before', after', heq, ha', hspace⟩ := exists_of_isLoneBrace hl
      have hcount := congrArg (List.count '}') heq
      simp only [List.count_append, List.count_cons_self, hn, List.count_eq_zero.mpr ha'] at hcount
      obtain ⟨rfl, -⟩ := eq_of_count_eq heq (by omega)
      exact hspace
    · refine ⟨before :: rest, ?_, .inl rfl⟩
      rw [Nat.zero_add, dropScopes?_cons_of_code ha hc (by simpa using hl)]
      rfl
  | succ n ih =>
    -- the last brace of the line stands behind the one that closes the block
    have hmem : '}' ∈ after := by
      rw [← List.count_pos_iff, hn]
      exact Nat.succ_pos n
    obtain ⟨inner, last, rfl, hlast⟩ := exists_last_brace hmem
    have hcount : inner.count '}' = n := by
      rw [List.count_append, List.count_cons_self, List.count_eq_zero.mpr hlast] at hn
      omega
    rw [← List.cons_append, ← List.append_assoc] at hc ⊢
    have hinner : isNoise (before ++ '}' :: inner) = false := by
      by_contra h
      have hb := isBlank_iff.mp (isBlank_of_isNoise_before (by simpa using h) hc)
      exact absurd (hb '}' (by simp)) (by decide)
    have hl : isLoneBrace (before ++ '}' :: inner ++ '}' :: last) = false := by
      by_contra h
      have hone := count_of_isLoneBrace (by simpa using h)
      simp only [List.count_append, List.count_cons_self] at hone
      omega
    rw [dropScopes?_cons_of_code hlast hc hl]
    exact ih hinner hcount

/-- One brace is taken off the first line of code, from the end. -/
lemma exists_of_dropScopes?_succ {n : Nat} {fold : FoldMarks} {lines : List Line}
    {p : List Line × FoldMarks} (h : Recovery.dropScopes? fold (n + 1) lines = some p) :
    ∃ noise before after rest left fold', lines = noise ++ (before ++ '}' :: after) :: rest ∧
      (∀ l ∈ noise, isNoise l = true) ∧ isNoise (before ++ '}' :: after) = false ∧ '}' ∉ after ∧
      (left = rest ∧ isLoneBrace (before ++ '}' :: after) = true ∨ left = before :: rest) ∧
      Recovery.dropScopes? fold' n left = some p := by
  obtain ⟨noise, hlines, hnoise, hhead⟩ := exists_of_dropNoise fold lines
  rw [Recovery.dropScopes?] at h
  cases hd : dropBrace? (dropNoise fold lines).1 with
  | none => simp [hd] at h
  | some left =>
    obtain ⟨before, after, rest, hcode, ha, hleft⟩ := dropBrace?_cases hd
    rw [hcode] at hlines hhead
    exact ⟨noise, before, after, rest, left, _, hlines, hnoise, hhead _ rfl, ha, hleft,
      by simpa [hd] using h⟩

/-- Where that many braces are taken off, and one more, that one closes a block: all others stand
behind it, in lines of which nothing else is left. -/
lemma exists_of_dropScopes? {n : Nat} {fold : FoldMarks} {lines : List Line}
    {p : List Line × FoldMarks} (h : Recovery.dropScopes? fold (n + 1) lines = some p) :
    ∃ tail before after rest m, lines = tail ++ (before ++ '}' :: after) :: rest ∧
      isNoise (before ++ '}' :: after) = false ∧ ClosingLines m tail ∧
      after.count '}' + m = n := by
  induction n generalizing fold lines with
  | zero =>
    obtain ⟨noise, before, after, rest, _, _, rfl, hnoise, hc, ha, -, -⟩ :=
      exists_of_dropScopes?_succ h
    exact ⟨noise, before, after, rest, 0, rfl, hc, .of_noise hnoise, List.count_eq_zero.mpr ha⟩
  | succ n ih =>
    obtain ⟨noise, before, after, rest, left, fold', rfl, hnoise, hc, ha, hleft, h⟩ :=
      exists_of_dropScopes?_succ h
    obtain ⟨tail, before', after', rest', m, hlines, hc', htail, hsum⟩ := ih h
    have hn := ClosingLines.of_noise hnoise
    rcases hleft with ⟨rfl, hlone⟩ | rfl
    · -- the whole line went
      subst hlines
      refine ⟨noise ++ (before ++ '}' :: after) :: tail, before', after', rest', _, ?_, hc',
        hn.append (htail.cons (.lone hlone)), ?_⟩
      · simp
      · rw [braces_of_isLoneBrace hlone]
        omega
    · cases tail with
      | nil =>
        -- the block's brace stands on the same line
        obtain ⟨rfl, rfl⟩ := List.cons.inj hlines
        obtain rfl : m = 0 := htail.bracesOf_eq.symm
        refine ⟨noise, before', after' ++ '}' :: after, rest, 0, by simp, ?_, hn, ?_⟩
        · rwa [List.append_assoc] at hc
        · rw [List.count_append, List.count_cons_self, List.count_eq_zero.mpr ha]
          omega
      | cons line tail =>
        obtain ⟨rfl, rfl⟩ := List.cons.inj hlines
        obtain ⟨hclosing, rfl⟩ := htail
        rw [List.forall_mem_cons] at hclosing
        rw [bracesOf] at hsum
        have hline : Closing (before ++ '}' :: after) := .brace hclosing.1 ha hc
        refine ⟨noise ++ (before ++ '}' :: after) :: tail, before', after', rest', _, by simp, hc',
          hn.append (.cons hline ⟨hclosing.2, rfl⟩), ?_⟩
        rw [braces_append_brace ha hc]
        omega

end Graft.Recovery
