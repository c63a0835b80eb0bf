import Mathlib.Data.List.Basic
import Graft.Recovery.Body

/-!
# The lines after a body

Behind the closing brace of the last member of a type may stand the closing braces of the scopes
that end with it, each alone on its line, and lines that belong to no body. `Closes n lines` says
that of `lines`, with `n` braces. Such a tail makes no difference to the text that is recovered when
as many scopes are known to end there: `bodyOfLines_append`.
-/

namespace Graft.Recovery

open Source Text

/-! ### Lone closing braces -/

/-- A line that holds a closing brace and nothing else. -/
def isLoneBrace (line : Line) : Bool :=
  trim line = ['}']

lemma exists_append_of_trim_eq {line : Line} {c : Char} (h : trim line = [c]) :
    ∃ before after, line = before ++ c :: after ∧ ∀ x ∈ before, isSpace x = true := by
  obtain ⟨w, hw, -⟩ := exists_trimEnd_append (trimStart line)
  rw [show trimEnd (trimStart line) = [c] from h] at hw
  refine ⟨line.takeWhile isSpace, w, ?_, fun x hx => ?_⟩
  · rw [← List.singleton_append, ← hw]
    exact List.takeWhile_append_dropWhile.symm
  · exact List.all_eq_true.mp List.all_takeWhile x hx

/-- A line is code if what follows the indentation starts no other kind of line. -/
lemma lineKind_eq_code {line cs : Line} {c : Char} (h : dropIndent line = c :: cs)
    (hc : c ≠ '/' ∧ c ≠ '[' ∧ c ≠ '#') : lineKind line = .code := by
  obtain ⟨h₁, h₂, h₃⟩ := hc
  have hw : ∀ word, afterWord? ('#' :: word) (c :: cs) = none := by
    intro word
    simp [afterWord?, List.isPrefixOf, Ne.symm h₃]
  unfold lineKind
  rw [h]
  split
  · next heq => cases heq
  · next heq => exact absurd (List.cons.inj heq).1 h₁
  · next heq => exact absurd (List.cons.inj heq).1 h₂
  · simp [hw]

lemma dropIndent_append_brace {before : Line} (h : ∀ x ∈ before, isSpace x = true)
    (after : Line) :
    ∃ c cs, dropIndent (before ++ '}' :: after) = c :: cs ∧ c ≠ '/' ∧ c ≠ '[' ∧ c ≠ '#' := by
  induction before with
  | nil => exact ⟨'}', after, rfl, by decide⟩
  | cons x xs ih =>
    by_cases hx : isIndent x = true
    · obtain ⟨c, cs, hd, hc⟩ := ih fun y hy => h y (List.mem_cons_of_mem x hy)
      exact ⟨c, cs, by rw [List.cons_append, dropIndent, List.dropWhile_cons_of_pos hx]; exact hd,
        hc⟩
    · have hs := h x List.mem_cons_self
      refine ⟨x, xs ++ '}' :: after, List.dropWhile_cons_of_neg hx, ?_, ?_, ?_⟩ <;>
        · rintro rfl
          exact absurd hs (by decide)

/-- A lone brace is code. -/
lemma isNoise_of_isLoneBrace {line : Line} (h : isLoneBrace line = true) :
    isNoise line = false := by
  obtain ⟨before, after, rfl, hb⟩ := exists_append_of_trim_eq (of_decide_eq_true h)
  obtain ⟨c, cs, hd, hc⟩ := dropIndent_append_brace hb after
  rw [isNoise, lineKind_eq_code hd hc]
  rfl

lemma isLoneBrace_of_isNoise {line : Line} (h : isNoise line = true) :
    isLoneBrace line = false := by
  by_contra hb
  rw [isNoise_of_isLoneBrace (by simpa using hb)] at h
  cases h

/-! ### Dropping lines at the end -/

lemma dropScopes?_cons_of_isNoise {line : Line} (h : isNoise line = true) (fold : FoldMarks)
    (scopes : Nat) (rest : List Line) :
    dropScopes? fold (scopes + 1) (line :: rest) =
      dropScopes? (noteFold fold line) (scopes + 1) rest := by
  simp [dropScopes?, dropNoise, h]

lemma dropScopes?_cons_of_isLoneBrace {line : Line} (h : isLoneBrace line = true)
    (fold : FoldMarks) (scopes : Nat) (rest : List Line) :
    dropScopes? fold (scopes + 1) (line :: rest) = dropScopes? fold scopes rest := by
  simp only [dropScopes?, dropNoise, isNoise_of_isLoneBrace h, Bool.false_eq_true, if_false,
    dropBrace?, of_decide_eq_true h, if_true]

/-- Which lines are dropped does not depend on the fold marks noted before. -/
lemma fst_dropNoise (fold fold' : FoldMarks) (lines : List Line) :
    (dropNoise fold lines).1 = (dropNoise fold' lines).1 := by
  induction lines generalizing fold fold' with
  | nil => rfl
  | cons line rest ih =>
    unfold dropNoise
    split
    · exact ih _ _
    · rfl

lemma map_fst_dropScopes? (fold fold' : FoldMarks) (scopes : Nat) (lines : List Line) :
    (dropScopes? fold scopes lines).map Prod.fst =
      (dropScopes? fold' scopes lines).map Prod.fst := by
  induction scopes generalizing fold fold' lines with
  | zero => rfl
  | succ scopes ih =>
    simp only [dropScopes?, fst_dropNoise fold fold' lines]
    cases dropBrace? (dropNoise fold' lines).1 with
    | none => rfl
    | some rest => exact ih _ _ rest

/-! ### Tails -/

/-- The lines hold that many closing braces, each alone on its line, and besides only lines that
belong to no body. -/
structure Closes (n : Nat) (lines : List Line) : Prop where
  noise_or_brace : ∀ l ∈ lines, isNoise l = true ∨ isLoneBrace l = true
  countP_eq : lines.countP isLoneBrace = n

lemma Closes.nil : Closes 0 [] :=
  ⟨by simp, rfl⟩

lemma Closes.of_noise {lines : List Line} (h : ∀ l ∈ lines, isNoise l = true) :
    Closes 0 lines := by
  refine ⟨fun l hl => .inl (h l hl), List.countP_eq_zero.mpr fun l hl => ?_⟩
  simp [isLoneBrace_of_isNoise (h l hl)]

lemma Closes.brace {line : Line} (h : isLoneBrace line = true) : Closes 1 [line] :=
  ⟨by simp [h], by simp [h]⟩

lemma Closes.append {m n : Nat} {lines more : List Line} (h : Closes m lines)
    (h' : Closes n more) : Closes (m + n) (lines ++ more) where
  noise_or_brace l hl := (List.mem_append.mp hl).elim (h.noise_or_brace l) (h'.noise_or_brace l)
  countP_eq := by rw [List.countP_append, h.countP_eq, h'.countP_eq]

lemma Closes.reverse {n : Nat} {lines : List Line} (h : Closes n lines) :
    Closes n lines.reverse where
  noise_or_brace l hl := h.noise_or_brace l (List.mem_reverse.mp hl)
  countP_eq := by rw [List.countP_reverse, h.countP_eq]

/-- The braces of a tail go with the scopes they close; what is left finds its own brace behind the
same lines. -/
lemma Closes.dropScopes? {n : Nat} {tail : List Line} (h : Closes n tail) (fold : FoldMarks)
    (scopes : Nat) (rest : List Line) :
    ∃ fold', dropScopes? fold (scopes + 1 + n) (tail ++ rest) =
      dropScopes? fold' (scopes + 1) rest := by
  obtain ⟨hl, rfl⟩ := h
  induction tail generalizing fold with
  | nil => exact ⟨fold, rfl⟩
  | cons line tail ih =>
    have ih := fun fold => ih fold fun l hm => hl l (List.mem_cons_of_mem line hm)
    rcases hl line List.mem_cons_self with hn | hb
    · obtain ⟨fold', hd⟩ := ih (noteFold fold line)
      refine ⟨fold', ?_⟩
      rw [List.countP_cons_of_neg (by simp [isLoneBrace_of_isNoise hn]), ← hd, Nat.add_right_comm,
        List.cons_append, dropScopes?_cons_of_isNoise hn]
    · obtain ⟨fold', hd⟩ := ih fold
      refine ⟨fold', ?_⟩
      rw [List.countP_cons_of_pos hb, ← hd, ← Nat.add_assoc, List.cons_append,
        dropScopes?_cons_of_isLoneBrace hb]

/-! ### Bodies -/

lemma afterBrace?_append {s rest : List Char} (h : afterBrace? s = some rest) (t : List Char) :
    afterBrace? (s ++ t) = some (rest ++ t) := by
  induction s with
  | nil => cases h
  | cons c cs ih =>
    by_cases hc : c = '{'
    · subst hc
      simp only [afterBrace?, List.dropWhile_cons, bne_self_eq_false, Bool.false_eq_true, if_false,
        Option.some.injEq, List.cons_append] at h ⊢
      rw [h]
    · have hd : ∀ u, afterBrace? (c :: u) = afterBrace? u := by
        intro u
        simp [afterBrace?, hc]
      rw [hd] at h
      rw [List.cons_append, hd, ih h]

/-- What a body consists of when it is recovered. -/
lemma bodyOfLines_ok_iff {lines : List Line} {scopes : Nat} {body : Body} :
    bodyOfLines lines scopes = .ok body ↔
      ∃ rest kept fold, afterBrace? (joinLines lines) = some rest ∧
        Recovery.dropScopes? {} (scopes + 1) (pieces rest).reverse = some (kept, fold) ∧
        body = { text := String.ofList (bodyText kept.reverse), fold } := by
  unfold bodyOfLines
  cases afterBrace? (joinLines lines) with
  | none => simp
  | some rest =>
    cases hd : Recovery.dropScopes? {} (scopes + 1) (pieces rest).reverse with
    | none => simp [hd]
    | some p =>
      obtain ⟨kept, fold⟩ := p
      simp [hd, eq_comm]

/-- A tail leaves the text of a body as it is. -/
theorem bodyOfLines_append {lines tail : List Line} {n : Nat} {body : Body} (ht : Closes n tail)
    (hf : ∀ l ∈ tail, '\n' ∉ l) (h : bodyOfLines lines 0 = .ok body) :
    ∃ fold, bodyOfLines (lines ++ tail) n = .ok { body with fold } := by
  obtain ⟨rest, kept, fold, hr, hd, rfl⟩ := bodyOfLines_ok_iff.mp h
  by_cases hn : tail = []
  · subst hn
    obtain rfl : 0 = n := ht.countP_eq
    exact ⟨fold, by rw [List.append_nil, h]⟩
  have hl : lines ≠ [] := by
    rintro rfl
    cases hr
  have hrest : afterBrace? (joinLines (lines ++ tail)) = some (rest ++ '\n' :: joinLines tail) := by
    rw [joinLines_append hl hn, afterBrace?_append hr]
  have hpieces : (pieces (rest ++ '\n' :: joinLines tail)).reverse =
      tail.reverse ++ (pieces rest).reverse := by
    rw [pieces_append_newline, pieces_joinLines hn hf, List.reverse_append]
  obtain ⟨fold', hfold⟩ := ht.reverse.dropScopes? {} 0 (pieces rest).reverse
  have hkept := map_fst_dropScopes? fold' {} 1 (pieces rest).reverse
  rw [hd, Option.map_some, Option.map_eq_some_iff] at hkept
  obtain ⟨⟨kept', fold''⟩, hk, rfl⟩ := hkept
  refine ⟨fold'', bodyOfLines_ok_iff.mpr ⟨_, kept', fold'', hrest, ?_, rfl⟩⟩
  rw [hpieces, Nat.add_comm, ← hk]
  exact hfold

/-- A body is recovered exactly when the lines of the extent make one. -/
lemma recoverBody_ok_iff {d : Document} {x : Extent} {member : String} {body : Body} :
    recoverBody d x member = .ok body ↔
      bodyOfLines ((d.between x.start x.stop).map String.toList) x.trailingScopes = .ok body := by
  unfold recoverBody
  split <;> simp_all

end Graft.Recovery
