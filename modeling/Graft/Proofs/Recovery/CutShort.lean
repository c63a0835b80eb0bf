import Graft.Proofs.Recovery.Balance
import Graft.Proofs.Recovery.Blocks
import Graft.Proofs.Recovery.Recovered

/-!
# Bodies cut short

An extent is made of whole lines, but a closing brace may share its line with others. If the brace
that closes a block stands on a line that is no longer the member's, or has a brace behind it that
the extent does not count, then another brace may be taken for it without an error, and the body is
cut short or goes on too far. `block_recovered_iff` says when a block's own text is recovered.
-/

namespace Graft.Recovery

open Source Text

/-! ### Blocks of a document -/

/-- From this line on, the document is a block and what follows it. -/
def BlockAt (d : Document) (line : Nat) (header text rest : List Char) (tail : List Line) : Prop :=
  Block ((d.lines.drop (line - 1)).map String.toList) header text rest tail

/-- The line of the brace that closes a block which starts on the given line. -/
def closingLineOf (line : Nat) (header text : List Char) : Nat :=
  line + (header ++ text).count '\n'

lemma map_between_eq_take (d : Document) {start : Nat} (h : 0 < start) (stop : Nat) :
    (d.between start stop).map String.toList =
      ((d.lines.drop (start - 1)).map String.toList).take (stop - start) := by
  rw [Document.between, List.drop_take, List.map_take]
  congr 1
  omega

lemma BlockAt.text_recovered_iff {d : Document} {x : Extent} {header text rest : List Char}
    {tail : List Line} (hb : BlockAt d x.start header text rest tail) (hx : 0 < x.start)
    (member : String) :
    (∃ body, recoverBody d x member = .ok body ∧ body.text = blockText text) ↔
      closingLineOf x.start header text < x.stop ∧
        ClosesBlock x.trailingScopes text rest
          (tail.take (x.stop - 1 - closingLineOf x.start header text)) := by
  have hl : ∀ l ∈ (d.lines.drop (x.start - 1)).map String.toList, '\n' ∉ l := by
    intro l hl
    obtain ⟨k, hk, rfl⟩ := List.mem_map.mp hl
    exact Document.not_mem_of_mem_lines (List.mem_of_mem_drop hk)
  have hline : x.stop - x.start - 1 - (header ++ text).count '\n' =
      x.stop - 1 - closingLineOf x.start header text := by
    rw [closingLineOf]
    omega
  simp only [recoverBody_ok_iff, map_between_eq_take d hx]
  rw [hb.take_recovered_iff hl, hline, Nat.lt_sub_iff_add_lt, Nat.add_comm, closingLineOf]

/-! ### Recovered texts -/

/-- A callable with a body gets the text of its lines. -/
lemma RecoversMember.exists_body {d : Document} {x : Extent} {h : MemberHead} {c : Content}
    {m : Member} (hm : RecoversMember d x (.plain h c) m) (ha : h.isAbstract = false)
    (hf : c.isField = false) (hp : c.isProperty = false) :
    ∃ body, recoverBody d x h.name = .ok body ∧ m.body? = some body.text := by
  obtain ⟨body, accessors, hb, rfl⟩ := hm.exists_filled ha hf
  refine ⟨body, hb, ?_⟩
  cases c with
  | field typeName comments => cases hf
  | property typeName old => cases hp
  | _ => rfl

/-- In an accepted tree, a callable whose lines are a block gets the block's text exactly if the
closing brace is on one of the member's own lines, and behind it, up to the end of the extent, stand
as many closing braces as scopes end there and nothing else but what belongs to no body. If not, it
gets another text, or the recovery fails. -/
theorem block_recovered_iff {d : Document} {parsed : ParsedSource}
    {tree recovered : DeclarationTree} (hv : (parsed.validate d).outcome = .ok tree)
    (hr : (recoverTree d tree).outcome = .ok recovered) {p : Place} {h : MemberHead} {c : Content}
    {x : Extent} (hx : ReadAt d tree p (.plain h c) x) (ha : h.isAbstract = false)
    (hf : c.isField = false) (hp : c.isProperty = false) {header text rest : List Char}
    {tail : List Line} (hb : BlockAt d x.start header text rest tail) :
    ∃ m, ReadAt d recovered p m x ∧
      (m.body? = some (blockText text) ↔
        closingLineOf x.start header text < x.stop ∧
          ClosesBlock x.trailingScopes text rest
            (tail.take (x.stop - 1 - closingLineOf x.start header text))) := by
  obtain ⟨hacc, rfl⟩ := ParsedSource.validate_ok_iff.mp hv
  obtain ⟨m, hm, hrec⟩ := hx.exists_recovered hr
  obtain ⟨body, hbody, htext⟩ := hrec.exists_body ha hf hp
  refine ⟨m, hm, ?_⟩
  rw [← hb.text_recovered_iff (hx.start_exists hacc).1 h.name, htext, Option.some.injEq]
  constructor
  · intro he
    exact ⟨body, hbody, he⟩
  · rintro ⟨body', hbody', he⟩
    rw [hbody] at hbody'
    cases hbody'
    exact he

/-! ### Braces on one line -/

/-- A class whose method closes on the line on which the class does. -/
def jobSource : Document :=
  .ofLines [
    "class Job \x7b",
    "    void Run() \x7b",
    "        if (ready) \x7b",
    "            go();",
    "        \x7d",
    "        done(); \x7d \x7d"]

/-- The text between the braces of the method. -/
def jobText : List Char :=
  joinLines [
    [],
    "        if (ready) \x7b".toList,
    "            go();".toList,
    "        \x7d".toList,
    "        done(); ".toList]

/-- The tree of the source, with this closing line of the class and this body of the method. -/
def jobTree (closing : Option UInt64) (run : String) : DeclarationTree where
  namespaces := [{
    types := [{
      header := { name := "Job", firstLine := some 1, closingLine := closing }
      members := [.plain { name := "Run", firstLine := some 2 } (.method "void" [] run)] }] }]

lemma blockAt_jobSource :
    BlockAt jobSource 2 "    void Run() ".toList jobText " \x7d".toList [] :=
  ⟨by decide +kernel, by decide, by decide, by decide⟩

/-- Without the closing line of the class, the brace behind the method's own is counted, and the
whole text is recovered. -/
theorem run_recovered :
    (ParsedSource.validate { tree := jobTree none "" } jobSource).outcome = .ok (jobTree none "") ∧
      BlockAt jobSource 2 "    void Run() ".toList jobText " \x7d".toList [] ∧
      ∃ recovered m x, (recoverTree jobSource (jobTree none "")).outcome = .ok recovered ∧
        ReadAt jobSource recovered ⟨0, 0, [0]⟩ m x ∧ m.body? = some (blockText jobText) := by
  have hv : (ParsedSource.validate { tree := jobTree none "" } jobSource).outcome =
      .ok (jobTree none "") := by
    decide +kernel
  have hr : (recoverTree jobSource (jobTree none "")).outcome =
      .ok (jobTree none (blockText jobText)) := by
    decide +kernel
  have hx : ReadAt jobSource (jobTree none "") ⟨0, 0, [0]⟩
      (.plain { name := "Run", firstLine := some 2 } (.method "void" [] ""))
      { start := 2, stop := 7, isLast := true, scopes := 1 } :=
    ⟨_, _, rfl, .here rfl⟩
  obtain ⟨m, hm, hbody⟩ := block_recovered_iff hv hr hx rfl rfl rfl blockAt_jobSource
  refine ⟨hv, blockAt_jobSource, _, m, _, hr, hm, hbody.mpr ⟨by decide +kernel, ?_⟩⟩
  exact ⟨by decide +kernel, by simp, by decide +kernel⟩

/-- With it, the lines of the method end before that line, and the brace that closes its inner block
is taken for its own: the recovery succeeds, and the rest of the body is lost. -/
theorem run_cut_short :
    ¬ ∀ (d : Document) (parsed : ParsedSource) (tree recovered : DeclarationTree) (p : Place)
        (h : MemberHead) (c : Content) (x : Extent) (header text rest : List Char)
        (tail : List Line) (m : Member),
      (parsed.validate d).outcome = .ok tree →
      (∀ n ∈ tree.namespaces, ∀ t ∈ n.types, ∀ line ∈ t.header.closingLine,
        ∃ l, d.line? line.toNat = some l ∧ '}' ∈ l.toList) →
      ReadAt d tree p (.plain h c) x → h.isAbstract = false → c.isField = false →
      c.isProperty = false → BlockAt d x.start header text rest tail → Balanced text →
      (∀ l ∈ rest :: tail, l.all (fun c => isSpace c || c == '}') = true) →
      (recoverTree d tree).outcome = .ok recovered → ReadAt d recovered p m x →
      m.body? = some (blockText text) := by
  intro h
  have hv : (ParsedSource.validate { tree := jobTree (some 6) "" } jobSource).outcome =
      .ok (jobTree (some 6) "") := by
    decide +kernel
  have hclosing : ∀ n ∈ (jobTree (some 6) "").namespaces, ∀ t ∈ n.types,
      ∀ line ∈ t.header.closingLine, ∃ l, jobSource.line? line.toNat = some l ∧ '}' ∈ l.toList := by
    simp only [jobTree, List.mem_singleton, forall_eq, Option.mem_def, Option.some.injEq,
      forall_eq']
    exact ⟨_, rfl, by decide +kernel⟩
  have hr : (recoverTree jobSource (jobTree (some 6) "")).outcome =
      .ok (jobTree (some 6) "        if (ready) \x7b\n            go();") := by
    decide +kernel
  have hx : ∀ run, ReadAt jobSource (jobTree (some 6) run) ⟨0, 0, [0]⟩
      (.plain { name := "Run", firstLine := some 2 } (.method "void" [] run))
      { start := 2, stop := 6, isLast := true } :=
    fun run => ⟨_, _, rfl, .here rfl⟩
  have hbalanced : Balanced jobText := ⟨by decide +kernel, by decide +kernel⟩
  have hbody := h _ _ _ _ _ _ _ _ _ _ _ _ _ hv hclosing (hx "") rfl rfl rfl blockAt_jobSource
    hbalanced (by decide) hr (hx _)
  exact absurd hbody (by decide +kernel)

end Graft.Recovery
