import Graft.Proofs.Recovery.Accessors

/-!
# The order of the clauses

A property has two accessors if its text holds a getter and a setter, in either order, with white
space and comments between them. The recovery returns both of them only for a getter, white space
and a setter: `recoverAccessors_two_clauses`. It gives up at a comment, and does not look for a
getter behind a setter.
-/

namespace Graft.Recovery

open Text

/-! ### What stands between clauses -/

/-- The line holds nothing but a comment. -/
def IsLineComment (line : List Char) : Prop :=
  ∃ note, trimStart line = '/' :: '/' :: note

/-- White space and comments, each comment on a line of its own. -/
structure IsSeparator (gap : List Char) : Prop where
  first : ∀ line ∈ (pieces gap).head?, ∀ c ∈ line, isSpace c = true
  lines : ∀ line ∈ pieces gap, (∀ c ∈ line, isSpace c = true) ∨ IsLineComment line
  last : ∀ c ∈ lastLine gap, isSpace c = true

/-- White space and comments are all white space, or start with a slash. -/
lemma joinLines_space_or_slash {lines : List (List Char)}
    (h : ∀ line ∈ lines, (∀ c ∈ line, isSpace c = true) ∨ IsLineComment line) :
    (∀ c ∈ joinLines lines, isSpace c = true) ∨ ∃ cs, trimStart (joinLines lines) = '/' :: cs := by
  induction lines with
  | nil => exact .inl (by simp)
  | cons line lines ih =>
    obtain ⟨hline, hlines⟩ := List.forall_mem_cons.mp h
    cases lines with
    | nil =>
      rw [joinLines_singleton]
      exact hline.imp_right fun ⟨note, hnote⟩ => ⟨_, hnote⟩
    | cons line' lines =>
      rw [joinLines_cons_cons]
      obtain hspace | ⟨note, hnote⟩ := hline
      · have hstart : ∀ c ∈ line ++ ['\n'], isSpace c = true := by
          rw [List.forall_mem_append, List.forall_mem_singleton]
          exact ⟨hspace, by decide⟩
        rw [← List.singleton_append, ← List.append_assoc, trimStart_append_of_isSpace hstart]
        refine (ih hlines).imp_left fun hrest => ?_
        rw [List.forall_mem_append]
        exact ⟨hstart, hrest⟩
      · exact .inr ⟨_, trimStart_append_of_eq_cons hnote _⟩

/-- A separator without comments is white space; one with comments begins with a slash. -/
lemma IsSeparator.space_or_slash {gap : List Char} (h : IsSeparator gap) :
    (∀ c ∈ gap, isSpace c = true) ∨ ∃ cs, trimStart gap = '/' :: cs := by
  have hlines := joinLines_space_or_slash h.lines
  rwa [joinLines_pieces] at hlines

/-- No keyword starts with a slash. -/
lemma not_startsWith_of_slash {keyword : String} {gap cs : List Char}
    (h : trimStart gap = '/' :: cs) (t : List Char)
    (hk : ∃ c ∈ keyword.toList.head?, c ≠ '/') : ¬ StartsWith keyword (gap ++ t) := by
  rintro ⟨after, hafter, -⟩
  obtain ⟨c, hc, hne⟩ := hk
  obtain ⟨cs', hcs'⟩ := List.head?_eq_some_iff.mp hc
  rw [trimStart_append_of_eq_cons h, hcs'] at hafter
  exact hne (List.cons.inj hafter).1.symm

/-! ### Two clauses -/

/-- White space may stand before a clause. -/
lemma Clause.space_append {keyword : String} {text body rest w : List Char}
    (hw : ∀ c ∈ w, isSpace c = true) (h : Clause keyword text body rest) :
    Clause keyword (w ++ text) body rest := by
  cases h with
  | semicolon hv hv' rest =>
    rw [← List.append_assoc]
    exact .semicolon (List.forall_mem_append.mpr ⟨hw, hv⟩) hv' rest
  | block hv hv' hb rest =>
    rw [← List.append_assoc]
    exact .block (List.forall_mem_append.mpr ⟨hw, hv⟩) hv' hb rest

lemma recoverAccessors_of_accessing {text : List Char} {accessors : Accessors}
    (h : Accessing text accessors) (member : String) (line : Nat) :
    recoverAccessors (String.ofList text) member line = .ok accessors := by
  rw [recoverAccessors, String.toList_ofList, h.accessorsOf_eq]
  rfl

/-- A setter is returned behind a getter if nothing but white space stands between them; a getter is
never returned behind a setter. -/
theorem recoverAccessors_two_clauses {getter setter get set gap : List Char}
    (hg : Clause "get" getter get []) (hs : Clause "set" setter set []) (hgap : IsSeparator gap)
    (after : List Char) (member : String) (line : Nat) :
    recoverAccessors (String.ofList (getter ++ (gap ++ (setter ++ after)))) member line =
        .ok { get := some (String.ofList get),
              set := if gap.all isSpace then some (String.ofList set) else none } ∧
      recoverAccessors (String.ofList (setter ++ (gap ++ (getter ++ after)))) member line =
        .ok { set := some (String.ofList set) } := by
  refine ⟨recoverAccessors_of_accessing ?_ member line,
    recoverAccessors_of_accessing (.setter (hs.append _)) member line⟩
  obtain hspace | ⟨cs, hslash⟩ := hgap.space_or_slash
  · rw [if_pos (List.all_eq_true.mpr hspace)]
    have hset : Clause "set" (gap ++ (setter ++ after)) set after :=
      (hs.append after).space_append hspace
    exact .both (hg.append _) hset
  · have hall : ¬ gap.all isSpace = true := by
      intro hall
      have hnil : trimStart gap = [] := List.dropWhile_eq_nil_iff.mpr (List.all_eq_true.mp hall)
      rw [hnil] at hslash
      cases hslash
    rw [if_neg hall]
    exact .getter (hg.append _) (not_startsWith_of_slash hslash _ ⟨'s', rfl, by decide⟩)

/-- A block that splits off whole is the body of a clause. -/
lemma clause_of_splitBlock? (keyword : String) {inner block : List Char}
    (h : splitBlock? 0 [] inner = some (block, [])) :
    Clause keyword (keyword.toList ++ ' ' :: '{' :: inner) (trim block) [] := by
  obtain ⟨rfl, hb⟩ := splitBlock?_eq_some_iff.mp h
  have hspace : ∀ c ∈ [' '], isSpace c = true := List.forall_mem_singleton.mpr (by decide)
  exact @Clause.block keyword [] [' '] block nofun hspace hb []

lemma nameGetter_clause :
    Clause "get" "get \x7b return name; \x7d".toList "return name;".toList [] :=
  @clause_of_splitBlock? "get" " return name; \x7d".toList " return name; ".toList
    (by decide +kernel)

lemma nameSetter_clause :
    Clause "set" "set \x7b name = value; \x7d".toList "name = value;".toList [] :=
  @clause_of_splitBlock? "set" " name = value; \x7d".toList " name = value; ".toList
    (by decide +kernel)

lemma isSeparator_newline : IsSeparator ['\n'] := by
  have hpieces : pieces ['\n'] = [[], []] := rfl
  exact ⟨by simp [hpieces], by simp [hpieces], by simp [lastLine, hpieces]⟩

theorem name_recovered :
    Clause "get" "get \x7b return name; \x7d".toList "return name;".toList [] ∧
      Clause "set" "set \x7b name = value; \x7d".toList "name = value;".toList [] ∧
      IsSeparator ['\n'] ∧
      recoverAccessors "get \x7b return name; \x7d\nset \x7b name = value; \x7d" "Name" 1 =
        .ok { get := some "return name;", set := some "name = value;" } := by
  refine ⟨nameGetter_clause, nameSetter_clause, isSeparator_newline, ?_⟩
  have htext : String.ofList ("get \x7b return name; \x7d".toList ++
      (['\n'] ++ ("set \x7b name = value; \x7d".toList ++ []))) =
        "get \x7b return name; \x7d\nset \x7b name = value; \x7d" := by
    decide +kernel
  have hname := (recoverAccessors_two_clauses nameGetter_clause nameSetter_clause
    isSeparator_newline [] "Name" 1).1
  rw [htext] at hname
  exact hname.trans (by decide +kernel)

/-- The setter is lost behind a comment. -/
example :
    recoverAccessors "get;\n// Not empty.\nset;" "Name" 1 = .ok { get := some "" } := by
  decide +kernel

/-- With the setter in front, the getter is lost. -/
theorem getter_lost_behind_setter :
    ¬ ∀ (getter setter get set gap : List Char) (member : String) (line : Nat),
      Clause "get" getter get [] → Clause "set" setter set [] → IsSeparator gap →
        (∀ c ∈ gap, c ≠ '{' ∧ c ≠ '}') →
        recoverAccessors (String.ofList (getter ++ (gap ++ setter))) member line =
            .ok { get := some (String.ofList get), set := some (String.ofList set) } ∧
          recoverAccessors (String.ofList (setter ++ (gap ++ getter))) member line =
            .ok { get := some (String.ofList get), set := some (String.ofList set) } := by
  intro hall
  have hboth := (hall _ _ _ _ _ "Name" 1 nameGetter_clause nameSetter_clause
    isSeparator_newline (List.forall_mem_singleton.mpr (by decide))).2
  have hlost : recoverAccessors (String.ofList ("set \x7b name = value; \x7d".toList ++
      (['\n'] ++ "get \x7b return name; \x7d".toList))) "Name" 1 =
        .ok { set := some "name = value;" } := by
    decide +kernel
  rw [hlost] at hboth
  exact absurd hboth (by decide +kernel)

end Graft.Recovery
