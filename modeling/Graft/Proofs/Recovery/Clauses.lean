import Graft.Proofs.Recovery.Balance
import Graft.Proofs.Text.Lines

/-!
# The clauses of accessors

`Clause` is the grammar of one accessor: its keyword, then a semicolon or a balanced text in braces.
A text holds the accessors that stand at its start, at most one getter and then at most one setter,
`Accessing`; it cannot be read if a keyword has no such clause, `Misread`. The recovery reads
accessors by this grammar: `recoverAccessors_iff`.
-/

namespace Graft.Recovery

open Text

/-! ### The grammar -/

/-- A word before this text stands alone: no letter, number or underscore goes on with it. -/
def EndsWord (after : List Char) : Prop :=
  ∀ c ∈ after.head?, isAlphanumeric c = false ∧ c ≠ '_'

/-- The text starts with the keyword, standing alone, after white space. -/
def StartsWith (keyword : String) (text : List Char) : Prop :=
  ∃ after, trimStart text = keyword.toList ++ after ∧ EndsWord after

/-- The text starts with the clause of an accessor, which has this body, and goes on with `rest`.
White space may stand before the keyword and behind it. -/
inductive Clause (keyword : String) : (text body rest : List Char) → Prop where
  | semicolon {w w' : List Char} (hw : ∀ c ∈ w, isSpace c = true)
      (hw' : ∀ c ∈ w', isSpace c = true) (rest : List Char) :
      Clause keyword (w ++ (keyword.toList ++ (w' ++ ';' :: rest))) [] rest
  | block {w w' block : List Char} (hw : ∀ c ∈ w, isSpace c = true)
      (hw' : ∀ c ∈ w', isSpace c = true) (hb : Balanced block) (rest : List Char) :
      Clause keyword (w ++ (keyword.toList ++ (w' ++ '{' :: (block ++ '}' :: rest)))) (trim block)
        rest

/-- The text starts with the keyword, but not with a clause. -/
inductive BrokenClause (keyword : String) : (text : List Char) → BodyFault → Prop where
  /-- Neither a semicolon nor an opening brace follows. -/
  | noBody {w after : List Char} (hw : ∀ c ∈ w, isSpace c = true) (ha : EndsWord after)
      (h : ∀ c ∈ (trimStart after).head?, c ≠ ';' ∧ c ≠ '{') :
      BrokenClause keyword (w ++ (keyword.toList ++ after)) (.noAccessorBody keyword)
  /-- The brace that follows is never closed. -/
  | unended {w w' inner : List Char} (hw : ∀ c ∈ w, isSpace c = true)
      (hw' : ∀ c ∈ w', isSpace c = true)
      (h : ∀ block rest, inner = block ++ '}' :: rest → ¬ Balanced block) :
      BrokenClause keyword (w ++ (keyword.toList ++ (w' ++ '{' :: inner)))
        (.unendedAccessor keyword)

/-- The accessors at the start of a text. -/
inductive Accessing (text : List Char) : Accessors → Prop where
  | none (hg : ¬ StartsWith "get" text) (hs : ¬ StartsWith "set" text) : Accessing text {}
  | getter {get rest : List Char} (hg : Clause "get" text get rest)
      (hs : ¬ StartsWith "set" rest) : Accessing text { get := some (String.ofList get) }
  | both {get set rest rest' : List Char} (hg : Clause "get" text get rest)
      (hs : Clause "set" rest set rest') :
      Accessing text { get := some (String.ofList get), set := some (String.ofList set) }
  | setter {set rest : List Char} (hs : Clause "set" text set rest) :
      Accessing text { set := some (String.ofList set) }

/-- Why the accessors at the start of a text cannot be read. -/
inductive Misread (text : List Char) : BodyFault → Prop where
  | getter {fault : BodyFault} (hg : BrokenClause "get" text fault) : Misread text fault
  | setter {fault : BodyFault} (hs : BrokenClause "set" text fault) : Misread text fault
  | second {fault : BodyFault} {get rest : List Char} (hg : Clause "get" text get rest)
      (hs : BrokenClause "set" rest fault) : Misread text fault

/-! ### Keywords -/

/-- White space does not go on with a word. -/
lemma isAlphanumeric_of_isSpace {c : Char} (h : isSpace c = true) : isAlphanumeric c = false := by
  have hranges : ∀ n ∈ List.range' 0x9 5 ++ List.range' 0x2000 11,
      isAlphanumeric (Char.ofNat n) = false := by
    decide +kernel
  have hrange : c.toNat ∈ List.range' 0x9 5 ++ List.range' 0x2000 11 →
      isAlphanumeric c = false := by
    intro hc
    rw [← Char.ofNat_toNat c]
    exact hranges _ hc
  simp only [isSpace, Bool.or_eq_true, Bool.and_eq_true, decide_eq_true_eq, beq_iff_eq] at h
  rcases h with
    (((((((((⟨h, h'⟩ | rfl) | rfl) | rfl) | rfl) | ⟨h, h'⟩) | rfl) | rfl) | rfl) | rfl) | rfl
  · have hle : 0x9 ≤ c.toNat := h
    have hle' : c.toNat ≤ 0xD := h'
    apply hrange
    rw [List.mem_append, List.mem_range'_1]
    omega
  rotate_left 4
  · have hle : 0x2000 ≤ c.toNat := h
    have hle' : c.toNat ≤ 0x200A := h'
    apply hrange
    rw [List.mem_append, List.mem_range'_1, List.mem_range'_1]
    omega
  all_goals decide +kernel

/-- White space ends a word as what comes behind it does. -/
lemma endsWord_append {w : List Char} (hw : ∀ c ∈ w, isSpace c = true) {after : List Char}
    (ha : EndsWord after) : EndsWord (w ++ after) := by
  cases w with
  | nil => exact ha
  | cons c w =>
    intro e he
    obtain rfl := Option.some.inj he
    have hspace := hw c List.mem_cons_self
    refine ⟨isAlphanumeric_of_isSpace hspace, ?_⟩
    rintro rfl
    exact absurd hspace (by decide)

lemma endsWord_semicolon (rest : List Char) : EndsWord (';' :: rest) := by
  intro c hc
  obtain rfl := Option.some.inj hc
  decide +kernel

lemma endsWord_brace (rest : List Char) : EndsWord ('{' :: rest) := by
  intro c hc
  obtain rfl := Option.some.inj hc
  decide +kernel

/-- What follows a keyword is what the keyword stands alone before. -/
theorem afterKeyword?_eq_some_iff {keyword text after : List Char} :
    afterKeyword? keyword text = some after ↔ text = keyword ++ after ∧ EndsWord after := by
  unfold afterKeyword?
  split
  · next hp =>
    obtain ⟨u, rfl⟩ := List.isPrefixOf_iff_prefix.mp hp
    rw [List.drop_left, List.append_cancel_left_eq]
    cases u with
    | nil =>
      constructor
      · intro h
        cases h
        exact ⟨rfl, nofun⟩
      · rintro ⟨rfl, -⟩
        rfl
    | cons c cs =>
      have hc : EndsWord (c :: cs) ↔ (isAlphanumeric c || c == '_') = false := by
        simp [EndsWord]
      dsimp only
      constructor
      · intro h
        split at h
        · cases h
        · next hword =>
          cases h
          exact ⟨rfl, hc.mpr (by simpa using hword)⟩
      · rintro ⟨rfl, hword⟩
        rw [hc] at hword
        rw [hword]
        rfl
  · next hp =>
    refine iff_of_false nofun ?_
    rintro ⟨rfl, -⟩
    exact hp (List.isPrefixOf_iff_prefix.mpr (List.prefix_append keyword after))

/-- No text is left behind a keyword that the text does not start with. -/
lemma afterKeyword?_eq_none_iff {keyword : String} {text : List Char} :
    afterKeyword? keyword.toList (trimStart text) = none ↔ ¬ StartsWith keyword text := by
  simp only [Option.eq_none_iff_forall_ne_some, ne_eq, afterKeyword?_eq_some_iff, StartsWith,
    not_exists]

/-! ### Reading one clause -/

/-- The text starts with the keyword, and this is read behind it. -/
def Reads (keyword : String) (text : List Char)
    (result : Except BodyFault (List Char × List Char)) : Prop :=
  ∃ after, afterKeyword? keyword.toList (trimStart text) = some after ∧
    accessorBody keyword after = result

variable {keyword : String} {text : List Char}

lemma reads_append (hk : ∀ s, trimStart (keyword.toList ++ s) = keyword.toList ++ s)
    {w after : List Char} (hw : ∀ c ∈ w, isSpace c = true) (ha : EndsWord after) :
    Reads keyword (w ++ (keyword.toList ++ after)) (accessorBody keyword after) := by
  refine ⟨after, ?_, rfl⟩
  rw [trimStart_append_of_isSpace hw, hk, afterKeyword?_eq_some_iff]
  exact ⟨rfl, ha⟩

lemma accessorBody_semicolon {w : List Char} (hw : ∀ c ∈ w, isSpace c = true) (rest : List Char) :
    accessorBody keyword (w ++ ';' :: rest) = .ok ([], rest) := by
  rw [accessorBody, trimStart_append_of_isSpace hw]
  rfl

lemma accessorBody_brace {w : List Char} (hw : ∀ c ∈ w, isSpace c = true) (inner : List Char) :
    accessorBody keyword (w ++ '{' :: inner) =
      match splitBlock? 0 [] inner with
      | some (block, rest) => .ok (trim block, rest)
      | none => .error (.unendedAccessor keyword) := by
  rw [accessorBody, trimStart_append_of_isSpace hw]
  rfl

/-- Anything but a semicolon or a brace is no accessor body. -/
lemma accessorBody_of_neither {after : List Char}
    (h : ∀ c ∈ (trimStart after).head?, c ≠ ';' ∧ c ≠ '{') :
    accessorBody keyword after = .error (.noAccessorBody keyword) := by
  unfold accessorBody
  split
  · next hs => exact absurd rfl (h ';' (by rw [hs]; rfl)).1
  · next hs => exact absurd rfl (h '{' (by rw [hs]; rfl)).2
  · rfl

/-- A clause of the grammar is read as its body and the rest. -/
theorem Clause.reads (hk : ∀ s, trimStart (keyword.toList ++ s) = keyword.toList ++ s)
    {body rest : List Char} (h : Clause keyword text body rest) :
    Reads keyword text (.ok (body, rest)) := by
  cases h with
  | semicolon hw hw' rest =>
    rw [← accessorBody_semicolon hw' rest]
    exact reads_append hk hw (endsWord_append hw' (endsWord_semicolon rest))
  | @block w w' block hw hw' hb rest =>
    have hsplit : splitBlock? 0 [] (block ++ '}' :: rest) = some (block, rest) :=
      splitBlock?_eq_some_iff.mpr ⟨rfl, hb⟩
    have hread := reads_append hk hw (endsWord_append hw' (endsWord_brace (block ++ '}' :: rest)))
    rwa [accessorBody_brace hw', hsplit] at hread

/-- A broken clause is read as its fault. -/
theorem BrokenClause.reads (hk : ∀ s, trimStart (keyword.toList ++ s) = keyword.toList ++ s)
    {fault : BodyFault} (h : BrokenClause keyword text fault) :
    Reads keyword text (.error fault) := by
  cases h with
  | noBody hw ha h =>
    rw [← accessorBody_of_neither h]
    exact reads_append hk hw ha
  | @unended w w' inner hw hw' h =>
    have hread := reads_append hk hw (endsWord_append hw' (endsWord_brace inner))
    rwa [accessorBody_brace hw', splitBlock?_eq_none_iff.mpr h] at hread

/-- Where the keyword stands, there is a clause or a broken one. -/
theorem clause_or_broken (h : StartsWith keyword text) :
    (∃ body rest, Clause keyword text body rest) ∨ ∃ fault, BrokenClause keyword text fault := by
  obtain ⟨after, htrim, ha⟩ := h
  obtain ⟨w, htext, hw⟩ := exists_append_trimStart text
  obtain ⟨w', hafter, hw'⟩ := exists_append_trimStart after
  rw [htrim] at htext
  subst htext
  by_cases hsemicolon : ∃ rest, trimStart after = ';' :: rest
  · obtain ⟨rest, hrest⟩ := hsemicolon
    rw [hafter, hrest]
    exact .inl ⟨_, _, .semicolon hw hw' rest⟩
  by_cases hopen : ∃ inner, trimStart after = '{' :: inner
  · obtain ⟨inner, hinner⟩ := hopen
    rw [hafter, hinner]
    cases hsplit : splitBlock? 0 [] inner with
    | none => exact .inr ⟨_, .unended hw hw' (splitBlock?_eq_none_iff.mp hsplit)⟩
    | some p =>
      obtain ⟨block, rest⟩ := p
      obtain ⟨rfl, hb⟩ := splitBlock?_eq_some_iff.mp hsplit
      exact .inl ⟨_, _, .block hw hw' hb rest⟩
  · refine .inr ⟨_, .noBody hw ha fun c hc => ?_⟩
    obtain ⟨cs, hcs⟩ := List.head?_eq_some_iff.mp hc
    constructor
    · rintro rfl
      exact hsemicolon ⟨cs, hcs⟩
    · rintro rfl
      exact hopen ⟨cs, hcs⟩

/-! ### Reading accessors -/

lemma trimStart_get (s : List Char) : trimStart ("get".toList ++ s) = "get".toList ++ s := rfl

lemma trimStart_set (s : List Char) : trimStart ("set".toList ++ s) = "set".toList ++ s := rfl

/-- A text does not start with both keywords. -/
lemma StartsWith.not_get (h : StartsWith "set" text) : ¬ StartsWith "get" text := by
  rintro ⟨after, hafter, -⟩
  obtain ⟨after', hafter', -⟩ := h
  rw [hafter] at hafter'
  exact absurd (List.cons.inj hafter').1 (by decide)

/-- A clause is read only where its keyword stands. -/
lemma Reads.startsWith {result : Except BodyFault (List Char × List Char)}
    (h : Reads keyword text result) : StartsWith keyword text := by
  obtain ⟨after, hkey, -⟩ := h
  exact ⟨after, afterKeyword?_eq_some_iff.mp hkey⟩

/-- The two clauses are read in the order in which they come. -/
lemma Accessing.accessorsOf_eq {accessors : Accessors} (h : Accessing text accessors) :
    accessorsOf text = .ok accessors := by
  cases h with
  | none hg hs =>
    simp only [accessorsOf, afterKeyword?_eq_none_iff.mpr hg, afterKeyword?_eq_none_iff.mpr hs]
    rfl
  | getter hg hs =>
    obtain ⟨after, hkey, hbody⟩ := hg.reads trimStart_get
    simp only [accessorsOf, hkey, hbody, bind, Except.bind, afterKeyword?_eq_none_iff.mpr hs]
    rfl
  | both hg hs =>
    obtain ⟨after, hkey, hbody⟩ := hg.reads trimStart_get
    obtain ⟨after', hkey', hbody'⟩ := hs.reads trimStart_set
    simp only [accessorsOf, hkey, hbody, bind, Except.bind, hkey', hbody']
    rfl
  | setter hs =>
    have hread := hs.reads trimStart_set
    have hg := afterKeyword?_eq_none_iff.mpr hread.startsWith.not_get
    obtain ⟨after, hkey, hbody⟩ := hread
    simp only [accessorsOf, hg, hkey, hbody, bind, Except.bind]
    rfl

/-- A broken clause makes the whole fail, be it the first one or the second. -/
lemma Misread.accessorsOf_eq {fault : BodyFault} (h : Misread text fault) :
    accessorsOf text = .error fault := by
  cases h with
  | getter hg =>
    obtain ⟨after, hkey, hbody⟩ := hg.reads trimStart_get
    simp only [accessorsOf, hkey, hbody, bind, Except.bind]
  | setter hs =>
    have hread := hs.reads trimStart_set
    have hg := afterKeyword?_eq_none_iff.mpr hread.startsWith.not_get
    obtain ⟨after, hkey, hbody⟩ := hread
    simp only [accessorsOf, hg, hkey, hbody, bind, Except.bind]
  | second hg hs =>
    obtain ⟨after, hkey, hbody⟩ := hg.reads trimStart_get
    obtain ⟨after', hkey', hbody'⟩ := hs.reads trimStart_set
    simp only [accessorsOf, hkey, hbody, bind, Except.bind, hkey', hbody']

/-- Every text holds accessors, or cannot be read. -/
lemma accessing_or_misread (text : List Char) :
    (∃ accessors, Accessing text accessors) ∨ ∃ fault, Misread text fault := by
  by_cases hg : StartsWith "get" text
  · obtain ⟨get, rest, hg⟩ | ⟨fault, hg⟩ := clause_or_broken hg
    · by_cases hs : StartsWith "set" rest
      · obtain ⟨set, rest', hs⟩ | ⟨fault, hs⟩ := clause_or_broken hs
        · exact .inl ⟨_, .both hg hs⟩
        · exact .inr ⟨fault, .second hg hs⟩
      · exact .inl ⟨_, .getter hg hs⟩
    · exact .inr ⟨fault, .getter hg⟩
  by_cases hs : StartsWith "set" text
  · obtain ⟨set, rest, hs⟩ | ⟨fault, hs⟩ := clause_or_broken hs
    · exact .inl ⟨_, .setter hs⟩
    · exact .inr ⟨fault, .setter hs⟩
  · exact .inl ⟨_, .none hg hs⟩

/-- The two grammars exclude each other and leave nothing out, so each is exactly one outcome. -/
theorem accessorsOf_ok_iff {accessors : Accessors} :
    accessorsOf text = .ok accessors ↔ Accessing text accessors := by
  refine ⟨fun h => ?_, Accessing.accessorsOf_eq⟩
  obtain ⟨accessors', ha⟩ | ⟨fault, hf⟩ := accessing_or_misread text
  · rw [ha.accessorsOf_eq] at h
    cases h
    exact ha
  · rw [hf.accessorsOf_eq] at h
    cases h

theorem accessorsOf_error_iff {fault : BodyFault} :
    accessorsOf text = .error fault ↔ Misread text fault := by
  refine ⟨fun h => ?_, Misread.accessorsOf_eq⟩
  obtain ⟨accessors, ha⟩ | ⟨fault', hf⟩ := accessing_or_misread text
  · rw [ha.accessorsOf_eq] at h
    cases h
  · rw [hf.accessorsOf_eq] at h
    cases h
    exact hf

/-- There are no accessors exactly if neither keyword comes first. -/
lemma accessing_empty_iff :
    Accessing text {} ↔ ¬ StartsWith "get" text ∧ ¬ StartsWith "set" text := by
  constructor
  · intro h
    cases h with
    | none hg hs => exact ⟨hg, hs⟩
  · rintro ⟨hg, hs⟩
    exact .none hg hs

/-- The accessors of a property are the clauses at the start of its text. Reading them fails exactly
if one of the keywords there has no clause, and then the fault says which and why; it finds none
exactly if the text starts with neither keyword. -/
theorem recoverAccessors_iff (text member : String) (line : Nat) :
    (∀ accessors, recoverAccessors text member line = .ok accessors ↔
        Accessing text.toList accessors) ∧
      (∀ failure, recoverAccessors text member line = .error failure ↔
        ∃ fault, Misread text.toList fault ∧ failure = .body member line fault) ∧
      (recoverAccessors text member line = .ok {} ↔
        ¬ StartsWith "get" text.toList ∧ ¬ StartsWith "set" text.toList) := by
  have hok : ∀ accessors, recoverAccessors text member line = .ok accessors ↔
      Accessing text.toList accessors := by
    intro accessors
    rw [← accessorsOf_ok_iff, recoverAccessors]
    cases accessorsOf text.toList <;> simp [Except.mapError]
  refine ⟨hok, fun failure => ?_, (hok {}).trans accessing_empty_iff⟩
  simp only [← accessorsOf_error_iff]
  rw [recoverAccessors]
  cases accessorsOf text.toList <;> simp [Except.mapError, eq_comm]

/-- The braces inside a getter are part of it. -/
example :
    recoverAccessors "get \x7b if (a) \x7b b(); \x7d return c; \x7d set; // \x7d" "Count" 1 =
      .ok { get := some "if (a) \x7b b(); \x7d return c;", set := some "" } := by
  decide +kernel

end Graft.Recovery
