import Graft.Proofs.Recovery.CutShort
import Graft.Proofs.Recovery.Ends
import Graft.Proofs.Recovery.KnownEnds

/-!
# Fold marks without closing lines

The fold marks of a member tell which regions open and close behind its body. Where the closing line
of a type is left out, the last extents in it go on behind the type's closing brace, and the lines
there leave their marks as well. These come on top of the marks that the member's own lines leave,
and they are seen unless those hide them: `fold_before_closing_iff`.
-/

namespace Graft

/-! ### Marks of successive lines -/

namespace FoldMarks

/-- The marks of some lines together with those of the lines behind them: of the regions that open,
the first one stays. -/
def before (f g : FoldMarks) : FoldMarks where
  opened := f.opened.or g.opened
  closed := f.closed || g.closed

/-- Where lines have left the first marks, the second ones are not seen behind them. -/
structure Hides (f g : FoldMarks) : Prop where
  opened : g.opened.isSome = true → f.opened.isSome = true
  closed : g.closed = true → f.closed = true

lemma empty_before (g : FoldMarks) : before {} g = g := rfl

lemma opening_before (f g : FoldMarks) (name : String) :
    (f.before g).opening name = (f.opening name).before g := rfl

lemma closing_before (f g : FoldMarks) : (f.before g).closing = f.closing.before g := rfl

lemma before_eq_left_iff {f g : FoldMarks} : f.before g = f ↔ f.Hides g := by
  have hopened : f.opened.or g.opened = f.opened ↔
      (g.opened.isSome = true → f.opened.isSome = true) := by
    cases f.opened <;> cases g.opened <;> simp
  have hclosed : (f.closed || g.closed) = f.closed ↔ (g.closed = true → f.closed = true) := by
    cases f.closed <;> cases g.closed <;> simp
  constructor
  · intro h
    exact ⟨hopened.mp (congrArg opened h), hclosed.mp (congrArg closed h)⟩
  · rintro ⟨ho, hc⟩
    rw [before, hopened.mpr ho, hclosed.mpr hc]

end FoldMarks

namespace Recovery

open Source Text

lemma noteFold_before (f g : FoldMarks) (line : Line) :
    noteFold (f.before g) line = (noteFold f line).before g := by
  unfold noteFold
  split
  · exact f.closing_before g
  · exact f.opening_before g _
  · rfl

lemma foldMarks_append (lines more : List Line) :
    foldMarks (lines ++ more) = (foldMarks lines).before (foldMarks more) := by
  induction lines with
  | nil => exact (FoldMarks.empty_before _).symm
  | cons line lines ih =>
    have hcons : ∀ tail, foldMarks (line :: tail) = noteFold (foldMarks tail) line :=
      fun tail => List.foldr_cons ..
    rw [List.cons_append, hcons, hcons, ih, noteFold_before]

/-- The fold marks that the lines from `start` on and before `stop` leave. -/
def marksBetween (d : Document) (start stop : Nat) : FoldMarks :=
  foldMarks ((d.between start stop).map String.toList)

lemma marksBetween_of_le (d : Document) {start stop : Nat} (h : stop ≤ start) :
    marksBetween d start stop = {} := by
  rw [marksBetween, d.between_of_le h]
  rfl

lemma marksBetween_before (d : Document) {start middle stop : Nat} (h : middle ≤ stop) :
    marksBetween d start stop =
      (marksBetween d start middle).before (marksBetween d (max start middle) stop) := by
  rcases Nat.le_total start middle with hs | hs
  · rw [Nat.max_eq_right hs, marksBetween, ← d.between_append hs h, List.map_append,
      foldMarks_append]
    rfl
  · rw [Nat.max_eq_left hs, marksBetween_of_le d hs, FoldMarks.empty_before]

/-! ### The marks of a recovered body -/

/-- The body that is recovered from the extent closes on this line. The extent may start before the
first line, but its first line is that one then. -/
def ClosesOn (d : Document) (x : Extent) (line : Nat) : Prop :=
  ∃ header text rest tail,
    Block ((d.between x.start x.stop).map String.toList) header text rest tail ∧
      ClosesBlock x.trailingScopes text rest tail ∧
      line = closingLineOf (max x.start 1) header text

/-- The first lines of an extent may be left out. -/
lemma drop_between (d : Document) (start stop n : Nat) :
    (d.between start stop).drop n = d.between (max start 1 + n) stop := by
  rw [Document.between, List.drop_drop, Document.between]
  congr 1
  omega

/-- What a block has behind its closing brace are the lines behind it. -/
lemma Block.tail_eq {d : Document} {x : Extent} {header text rest : List Char} {tail : List Line}
    (hb : Block ((d.between x.start x.stop).map String.toList) header text rest tail) :
    tail = (d.between (closingLineOf (max x.start 1) header text + 1) x.stop).map
      String.toList := by
  have hlines := hb.lines_eq fun l hl => not_mem_of_mem_map_between hl
  have hdrop : ((d.between x.start x.stop).map String.toList).drop
      ((header ++ text).count '\n' + 1) = tail := by
    rw [hlines, ← length_dropLast_pieces, List.drop_length_add_append, List.drop_succ_cons,
      List.drop_zero]
  rw [← hdrop, ← List.map_drop, drop_between, closingLineOf, Nat.add_assoc]

lemma exists_closesOn {d : Document} {x : Extent} {member : String} {body : Body}
    (h : recoverBody d x member = .ok body) : ∃ line, ClosesOn d x line := by
  rw [recoverBody_ok_iff] at h
  obtain ⟨header, text, rest, tail, hb, hc⟩ := exists_block h
  exact ⟨_, header, text, rest, tail, hb, hc, rfl⟩

/-- A body has the marks of the lines behind it, up to the end of its extent. -/
theorem ClosesOn.fold_eq {d : Document} {x : Extent} {line : Nat} (h : ClosesOn d x line)
    {member : String} {body : Body} (hbody : recoverBody d x member = .ok body) :
    body.fold = marksBetween d (line + 1) x.stop := by
  obtain ⟨header, text, rest, tail, hb, hc, rfl⟩ := h
  rw [recoverBody_ok_iff, hb.bodyOfLines_eq hc] at hbody
  obtain rfl := Except.ok.inj hbody
  rw [marksBetween, ← hb.tail_eq]

/-! ### Places without closing lines -/

/-- A member of a type that closes on a known line, and the same one in a type that goes on. -/
lemma MembersOmit.exists_located {d : Document} {line : Nat} {bound : TypeEnd}
    {ms ms' : List Member} (ho : MembersOmit ms ms') (he : EndsAt d line bound)
    (hlast : ∀ n ∈ (startsOf ms).getLast?, n < line) (hc : MembersClosed d line ms) {i : Nat}
    {m : Member} {x : Extent} (hi : located? (.onLine line) ms i = some (m, x)) :
    ∃ m' y, located? bound ms' i = some (m', y) ∧ MemberOmits m m' ∧ Covers d x y ∧
      MemberClosed d x.stop m := by
  induction ms generalizing ms' i with
  | nil => simp [located?] at hi
  | cons k ms ih =>
    cases ho with
    | @cons _ k' _ ms' hk hs =>
      cases i with
      | succ i =>
        rw [located?_succ] at hi ⊢
        exact ih hs (lt_of_getLast?_cons hlast) hc.2 hi
      | zero =>
        obtain ⟨rfl, n, hn, rfl⟩ := eq_located_of_zero hi
        have hn' : k'.firstLine? = some n := by
          rw [← hn, Member.firstLine?, hk.head_eq, Member.firstLine?]
        have hclosed := hc.1 (by rw [hn]; rfl)
        rw [← stop_extentAt_onLine line n] at hclosed
        rw [located?_zero hn', startsOf_congr hs.map_head]
        exact ⟨k', _, rfl, hk, he.covers (lt_of_head?_eq_none hlast hn), hclosed⟩

lemma MemberAt.without_closings {d : Document} {line : Nat} {bound : TypeEnd}
    {ms ms' : List Member} (ho : MembersOmit ms ms') (he : EndsAt d line bound)
    (hlast : ∀ n ∈ (startsOf ms).getLast?, n < line) (hc : MembersClosed d line ms)
    {path : List Nat} {m : Member} {x : Extent} (hp : MemberAt (.onLine line) ms path m x) :
    ∃ m' y, MemberAt bound ms' path m' y ∧ MemberOmits m m' ∧ Covers d x y := by
  generalize hend : TypeEnd.onLine line = known at hp
  induction hp generalizing line bound ms' with
  | here hi =>
    subst hend
    obtain ⟨m', y, hi', hm, hx, -⟩ := ho.exists_located he hlast hc hi
    exact ⟨m', y, .here hi', hm, hx⟩
  | inside hi _ ih =>
    subst hend
    obtain ⟨k, y, hi', hk, hx, hclosed⟩ := ho.exists_located he hlast hc hi
    obtain ⟨inner, htc, hinner⟩ := hclosed
    cases hk with
    | nested hl hm =>
      -- without its own closing line, the inner type goes on as far as the member that declares it
      rw [htc.known] at hl ih
      obtain ⟨m', z, hp', hm', hz⟩ :=
        ih hm (hx.endsAt_innerEnd htc.closes hl) htc.last hinner rfl
      exact ⟨m', z, .inside hi' hp', hm', hz⟩

/-- A type that closes on a known line, and the same one with its closing line left out or not. -/
lemma exists_typeOmits {d : Document} {bound stop scopes : Nat} {ts ts' : List TypeDecl}
    (hc : TypesClosed d bound ts) (ho : List.Forall₂ TypeOmits ts ts') (hb : bound ≤ stop)
    (hs : Closes scopes ((d.between bound stop).map String.toList)) {l : Nat} {t : TypeDecl}
    (ht : ts[l]? = some t) :
    ∃ line t', ts'[l]? = some t' ∧ t.header.closingLine = some line ∧
      (∀ n ∈ (startsOf t.members).getLast?, n < line.toNat) ∧
      MembersClosed d line.toNat t.members ∧ MembersOmit t.members t'.members ∧
      EndsAt d line.toNat (typeEnd t' ts'[l + 1]? stop scopes) := by
  induction ho generalizing l with
  | nil => cases ht
  | @cons u u' ts ts' hu hts ih =>
    cases l with
    | succ l => exact ih hc.2 ht
    | zero =>
      cases ht
      obtain ⟨⟨line, htc, hms⟩, -⟩ := hc
      have hnext := bind_head?_of_forall₂ hts fun _ _ => TypeOmits.firstLine_eq
      rw [← hnext, List.head?_eq_getElem?] at htc
      cases hu with
      | intro hl hm =>
        rw [htc.known] at hl
        exact ⟨line, _, rfl, htc.known, htc.last, hms, hm, endsAt_typeEnd hl htc.closes hb hs⟩

/-- A namespace with known closing lines, and the same one without some of them. -/
lemma exists_namespaceOmits {d : Document} {ns ns' : List Namespace} (hc : NamespacesClosed d ns)
    (ho : List.Forall₂ NamespaceOmits ns ns') {k : Nat} {n : Namespace} (hn : ns[k]? = some n) :
    ∃ n' bound, ns'[k]? = some n' ∧ List.Forall₂ TypeOmits n.types n'.types ∧
      TypesClosed d bound n.types ∧ bound ≤ (namespaceEnd d n' ns'[k + 1]?).1 ∧
      Closes (namespaceEnd d n' ns'[k + 1]?).2
        ((d.between bound (namespaceEnd d n' ns'[k + 1]?).1).map String.toList) := by
  induction ho generalizing k with
  | nil => cases hn
  | @cons u u' ns ns' hu hns ih =>
    cases k with
    | succ k => exact ih hc.2 hn
    | zero =>
      cases hn
      have hnext := bind_head?_of_forall₂ hns fun _ _ => NamespaceOmits.firstLine_eq
      rw [List.head?_eq_getElem?] at hnext
      obtain ⟨bound, hts, hb, hs⟩ := exists_typesClosed hc hu hnext
      refine ⟨u', bound, rfl, ?_, hts, hb, hs⟩
      cases hu with
      | intro _ ht => exact ht

/-- What is read at a place, when all closing lines are known, is read there as well when some of
them are left out, and its extent goes on from where it stopped. -/
theorem ReadAt.without_closings {d : Document} {tree tree' : DeclarationTree} {p : Place}
    {m : Member} {x : Extent} (hk : ClosingsKnown d tree) (ho : OmitsClosings tree tree')
    (hx : ReadAt d tree p m x) :
    ∃ m' y, ReadAt d tree' p m' y ∧ MemberOmits m m' ∧ Covers d x y := by
  obtain ⟨n, hn, t, ht, hp⟩ := readAt_iff.mp hx
  obtain ⟨n', bound, hn', hto, hts, hb, hs⟩ := exists_namespaceOmits hk ho hn
  obtain ⟨line, t', ht', hline, hlast, hms, hmo, he⟩ := exists_typeOmits hts hto hb hs ht
  rw [typeEnd, hline] at hp
  obtain ⟨m', y, hp', hm, hy⟩ := hp.without_closings hmo he hlast hms
  exact ⟨m', y, readAt_iff.mpr ⟨n', hn', t', ht', hp'⟩, hm, hy⟩

/-! ### Region lines behind a type -/

lemma Covers.stop_le {d : Document} {x y : Extent} (h : Covers d x y) : x.stop ≤ y.stop := by
  cases h with
  | same _ => exact Nat.le_refl _
  | last _ hl _ => exact hl

/-- Let all closing lines be known, and let some of them be left out. A member with a body then gets
the marks of the region lines from its closing brace on to the end of its extent, also of those
behind the closing brace of its type. They are the marks of the lines before that brace exactly if
these hide the ones behind it. -/
theorem fold_before_closing_iff {d : Document} {tree tree' recovered : DeclarationTree}
    (hk : ClosingsKnown d tree) (ho : OmitsClosings tree tree')
    (hr : (recoverTree d tree').outcome = .ok recovered) {p : Place} {h : MemberHead} {c : Content}
    {x : Extent} (hx : ReadAt d tree p (.plain h c) x) (ha : h.isAbstract = false)
    (hf : c.isField = false) :
    ∃ m y, ReadAt d recovered p m y ∧ Covers d x y ∧ (∃ line, ClosesOn d y line) ∧
      ∀ line, ClosesOn d y line →
        m.head.fold = marksBetween d (line + 1) y.stop ∧
        (m.head.fold = marksBetween d (line + 1) x.stop ↔
          (marksBetween d (line + 1) x.stop).Hides
            (marksBetween d (max (line + 1) x.stop) y.stop)) := by
  obtain ⟨m', y, hy, hm, hcov⟩ := hx.without_closings hk ho
  cases hm
  obtain ⟨m, hread, hrec⟩ := hy.exists_recovered hr
  obtain ⟨body, accessors, hbody, rfl⟩ := hrec.exists_filled ha hf
  refine ⟨_, y, hread, hcov, exists_closesOn hbody, fun line hline => ?_⟩
  have hfold := hline.fold_eq hbody
  refine ⟨hfold, ?_⟩
  show body.fold = _ ↔ _
  rw [hfold, marksBetween_before d hcov.stop_le, FoldMarks.before_eq_left_iff]

/-! ### A class in a region -/

/-- A class in a region, whose method is in a region of its own. -/
def workerSource : Document :=
  .ofLines [
    "#region Jobs",
    "class Worker \x7b",
    "    #region Running",
    "    void Run() \x7b",
    "        go();",
    "    \x7d",
    "    #endregion",
    "\x7d",
    "#endregion"]

/-- A class in a region. -/
def clerkSource : Document :=
  .ofLines [
    "#region Jobs",
    "class Clerk \x7b",
    "    void File() \x7b",
    "        sort();",
    "    \x7d",
    "\x7d",
    "#endregion"]

/-- A class on line 2 with this closing line and one method, which starts on this line and has these
marks and this body. -/
def methodTree (type : String) (closing : Option UInt64) (method : String) (line : UInt64)
    (fold : FoldMarks) (body : String) : DeclarationTree where
  namespaces := [{
    types := [{
      header := { name := type, firstLine := some 2, closingLine := closing }
      members := [
        .plain { name := method, firstLine := some line, fold } (.method "void" [] body)] }] }]

lemma omitsClosings_methodTree (type : String) (closing : Option UInt64) (method : String)
    (line : UInt64) (fold : FoldMarks) (body : String) :
    OmitsClosings (methodTree type closing method line fold body)
      (methodTree type none method line fold body) :=
  .cons (.intro (.inl rfl) (.cons (.intro (.inr rfl) (.cons (.plain _ _) .nil)) .nil)) .nil

/-- The region of the method closes before the class does, and hides that another one closes behind
the class. -/
theorem run_fold_without_closing :
    ClosingsKnown workerSource (methodTree "Worker" (some 8) "Run" 4 {} "") ∧
      OmitsClosings (methodTree "Worker" (some 8) "Run" 4 {} "")
        (methodTree "Worker" none "Run" 4 {} "") ∧
      ∃ recovered m y,
        (recoverTree workerSource (methodTree "Worker" none "Run" 4 {} "")).outcome =
          .ok recovered ∧
        ReadAt workerSource recovered ⟨0, 0, [0]⟩ m y ∧
        m.head.fold = marksBetween workerSource 7 8 := by
  have hclass : ClosesBefore workerSource 8 10 :=
    ⟨⟨"\x7d", by decide +kernel, by decide +kernel⟩, by decide, by decide +kernel⟩
  have hk : ClosingsKnown workerSource (methodTree "Worker" (some 8) "Run" 4 {} "") :=
    ⟨⟨rfl, ⟨8, ⟨rfl, hclass, by decide⟩, ⟨fun _ => trivial, trivial⟩⟩, trivial⟩, trivial⟩
  have ho := omitsClosings_methodTree "Worker" (some 8) "Run" 4 {} ""
  have hr : (recoverTree workerSource (methodTree "Worker" none "Run" 4 {} "")).outcome =
      .ok (methodTree "Worker" none "Run" 4 { closed := true } "        go();") := by
    decide +kernel
  have hx : ReadAt workerSource (methodTree "Worker" (some 8) "Run" 4 {} "") ⟨0, 0, [0]⟩
      (.plain { name := "Run", firstLine := some 4 } (.method "void" [] ""))
      { start := 4, stop := 8, isLast := true } :=
    ⟨_, _, rfl, .here rfl⟩
  obtain ⟨m, y, hread, -, -, hmarks⟩ := fold_before_closing_iff hk ho hr hx rfl rfl
  have hy : y = { start := 4, stop := 10, isLast := true, scopes := 1 } := by
    obtain ⟨bound, ms, htype, hp⟩ := hread
    cases htype
    rcases hp with hi | ⟨_, hp⟩
    · cases hi
      rfl
    · cases hp
  have hline : ClosesOn workerSource y 6 := by
    have htail : Closes 1 ["    #endregion".toList, ['}'], "#endregion".toList] :=
      ⟨by decide +kernel, by decide +kernel⟩
    subst hy
    refine ⟨"    void Run() ".toList, joinLines [[], "        go();".toList, "    ".toList], [],
      ["    #endregion".toList, ['}'], "#endregion".toList], ?_, ?_, by decide +kernel⟩
    · exact ⟨by decide +kernel, by decide +kernel, by decide, by decide +kernel⟩
    · exact ⟨by decide +kernel, htail.closingLines.closing, by decide +kernel⟩
  refine ⟨hk, ho, _, m, y, hr, hread, (hmarks 6 hline).2.mpr ?_⟩
  subst hy
  exact ⟨by decide +kernel, by decide +kernel⟩

/-- The marks come from region lines before line `stop`. -/
structure MarkedBefore (d : Document) (stop : Nat) (fold : FoldMarks) : Prop where
  opened : ∀ name ∈ fold.opened,
    ∃ l ∈ d.between 1 stop, lineKind l.toList = .foldOpening name.toList
  closed : fold.closed = true → ∃ l ∈ d.between 1 stop, lineKind l.toList = .foldClosing

/-- Without the closing line of the class, its last member gets the mark of a region that closes
behind the class. -/
theorem fold_behind_class :
    ¬ ∀ (d : Document) (tree tree' recovered : DeclarationTree) (p : Place) (m m' : Member)
        (x y : Extent),
      ClosingsKnown d tree → OmitsClosings tree tree' →
      (recoverTree d tree').outcome = .ok recovered → ReadAt d tree p m x → x.isLast = true →
      ReadAt d recovered p m' y → MarkedBefore d x.stop m'.head.fold := by
  intro h
  have hclass : ClosesBefore clerkSource 6 8 :=
    ⟨⟨"\x7d", by decide +kernel, by decide +kernel⟩, by decide, by decide +kernel⟩
  have hk : ClosingsKnown clerkSource (methodTree "Clerk" (some 6) "File" 3 {} "") :=
    ⟨⟨rfl, ⟨6, ⟨rfl, hclass, by decide⟩, ⟨fun _ => trivial, trivial⟩⟩, trivial⟩, trivial⟩
  have ho := omitsClosings_methodTree "Clerk" (some 6) "File" 3 {} ""
  have hr : (recoverTree clerkSource (methodTree "Clerk" none "File" 3 {} "")).outcome =
      .ok (methodTree "Clerk" none "File" 3 { closed := true } "        sort();") := by
    decide +kernel
  have hx : ReadAt clerkSource (methodTree "Clerk" (some 6) "File" 3 {} "") ⟨0, 0, [0]⟩
      (.plain { name := "File", firstLine := some 3 } (.method "void" [] ""))
      { start := 3, stop := 6, isLast := true } :=
    ⟨_, _, rfl, .here rfl⟩
  have hmarked := h _ _ _ _ _ _ _ _ { start := 3, stop := 8, isLast := true, scopes := 1 } hk ho hr
    hx rfl ⟨_, _, rfl, .here rfl⟩
  have hnone : ∀ l ∈ clerkSource.between 1 6, lineKind l.toList ≠ .foldClosing := by
    decide +kernel
  obtain ⟨l, hl, hkind⟩ := hmarked.closed rfl
  exact hnone l hl hkind

end Recovery

end Graft
