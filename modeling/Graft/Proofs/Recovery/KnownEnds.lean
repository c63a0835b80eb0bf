import Graft.Proofs.Recovery.Extents
import Graft.Proofs.Recovery.Runs
import Graft.Proofs.Recovery.Tails

/-!
# Known and unknown closing lines

The line of a closing brace may be annotated or not. Where it is not, the last extents of the scope
reach further, and as many closing braces more are taken off their ends. `ClosingsKnown` says of a
tree with all closing lines that they are true: each holds the closing brace and nothing else, and
from there to the next thing that is known come only lines that belong to no body. Then any of them
may be left out, and the same texts are recovered: `recovers_without_closings`.
-/

namespace Graft.Recovery

open Source Text

/-! ### Trees with true closing lines -/

/-- The line holds a closing brace and nothing else, and between it and line `stop` come only lines
that belong to no body. -/
structure ClosesBefore (d : Document) (line stop : Nat) : Prop where
  brace : ∃ l, d.line? line = some l ∧ isLoneBrace l.toList = true
  lt : line < stop
  noise : ∀ l ∈ d.between (line + 1) stop, isNoise l.toList = true

/-- The closing line of a type is known to be `line`, after its last member and before `stop`. -/
structure TypeCloses (d : Document) (stop : Nat) (t : TypeHeader) (ms : List Member)
    (line : UInt64) : Prop where
  known : t.closingLine = some line
  closes : ClosesBefore d line.toNat stop
  last : ∀ n ∈ (startsOf ms).getLast?, n < line.toNat

mutual

/-- In a member whose text ends before line `stop`, all closing lines are known. -/
def MemberClosed (d : Document) (stop : Nat) : Member → Prop
  | .plain .. => True
  | .nested _ t ms => ∃ line, TypeCloses d stop t ms line ∧ MembersClosed d line.toNat ms

/-- In the members of a type that closes on line `stop`, all closing lines are known. The text of a
member ends before the next one that has a line, and a member without a line has no text. -/
def MembersClosed (d : Document) (stop : Nat) : List Member → Prop
  | [] => True
  | m :: ms =>
    (m.firstLine?.isSome = true → MemberClosed d ((startsOf ms).head?.getD stop) m) ∧
      MembersClosed d stop ms

end

/-- In the types of a namespace whose text ends before line `stop`, all closing lines are known. -/
def TypesClosed (d : Document) (stop : Nat) : List TypeDecl → Prop
  | [] => True
  | t :: ts =>
    let next := ts.head?.bind (·.header.firstLine)
    (∃ line, TypeCloses d ((next.map UInt64.toNat).getD stop) t.header t.members line ∧
        MembersClosed d line.toNat t.members) ∧
      TypesClosed d stop ts

/-- All closing lines are known; the unnamed namespace has none. -/
def NamespacesClosed (d : Document) : List Namespace → Prop
  | [] => True
  | n :: ns =>
    let next := ns.head?.bind (·.firstLine)
    let stop := (next.map UInt64.toNat).getD (d.size + 1)
    (if n.isBraced then
        ∃ line, n.closingLine = some line ∧ ClosesBefore d line.toNat stop ∧
          TypesClosed d line.toNat n.types
      else
        n.closingLine = none ∧ TypesClosed d stop n.types) ∧
      NamespacesClosed d ns

/-- All closing lines of the tree are known, and true of the document. -/
def ClosingsKnown (d : Document) (tree : DeclarationTree) : Prop :=
  NamespacesClosed d tree.namespaces

/-! ### Leaving out closing lines -/

mutual

/-- The second member is the first one, with some closing lines left out. -/
inductive MemberOmits : Member → Member → Prop where
  | plain (h : MemberHead) (c : Content) : MemberOmits (.plain h c) (.plain h c)
  | nested {h : MemberHead} {t : TypeHeader} {line : Option UInt64} {ms ms' : List Member}
      (hl : line = t.closingLine ∨ line = none) (hm : MembersOmit ms ms') :
      MemberOmits (.nested h t ms) (.nested h { t with closingLine := line } ms')

/-- The second list is the first one, with some closing lines left out. -/
inductive MembersOmit : List Member → List Member → Prop where
  | nil : MembersOmit [] []
  | cons {m m' : Member} {ms ms' : List Member} (hm : MemberOmits m m')
      (hs : MembersOmit ms ms') : MembersOmit (m :: ms) (m' :: ms')

end

/-- The second type is the first one, with some closing lines left out. -/
inductive TypeOmits : TypeDecl → TypeDecl → Prop where
  | intro {t : TypeHeader} {line : Option UInt64} {ms ms' : List Member}
      (hl : line = t.closingLine ∨ line = none) (hm : MembersOmit ms ms') :
      TypeOmits ⟨t, ms⟩ ⟨{ t with closingLine := line }, ms'⟩

/-- The second namespace is the first one, with some closing lines left out. -/
inductive NamespaceOmits : Namespace → Namespace → Prop where
  | intro {n : Namespace} {line : Option UInt64} {types : List TypeDecl}
      (hl : line = n.closingLine ∨ line = none) (ht : List.Forall₂ TypeOmits n.types types) :
      NamespaceOmits n { n with types, closingLine := line }

/-- The second tree is the first one, with some closing lines left out. -/
def OmitsClosings (tree tree' : DeclarationTree) : Prop :=
  List.Forall₂ NamespaceOmits tree.namespaces tree'.namespaces

/-! ### What does not depend on closing lines -/

mutual

/-- The member without closing lines and fold marks. -/
def bare : Member → Member
  | .plain h c => .plain { h with fold := {} } c
  | .nested h t ms => .nested h { t with closingLine := none } (bareAll ms)

/-- The members without closing lines and fold marks. -/
def bareAll : List Member → List Member
  | [] => []
  | m :: ms => bare m :: bareAll ms

end

/-- The type without closing lines and fold marks. -/
def bareType (t : TypeDecl) : TypeDecl where
  header := { t.header with closingLine := none }
  members := bareAll t.members

/-- The namespace without closing lines and fold marks. -/
def bareNamespace (n : Namespace) : Namespace :=
  { n with types := n.types.map bareType, closingLine := none }

/-- The tree without closing lines and fold marks. -/
def bareTree (tree : DeclarationTree) : DeclarationTree where
  namespaces := tree.namespaces.map bareNamespace

/-! ### Extents -/

/-- A type whose closing brace stands on `line` ends as given: there, or behind it, after the
closing of that many scopes. -/
inductive EndsAt (d : Document) (line : Nat) : TypeEnd → Prop where
  | onLine : EndsAt d line (.onLine line)
  | before {stop scopes : Nat} (hl : line ≤ stop)
      (hc : Closes scopes ((d.between line stop).map String.toList)) :
      EndsAt d line (.before stop scopes)

/-- The second extent starts where the first one does and has the same lines, and behind them only
the closing of the scopes that end in it. -/
inductive Covers (d : Document) : Extent → Extent → Prop where
  | same {x : Extent} (hs : x.scopes = 0) : Covers d x x
  | last {start line stop scopes : Nat} (hs : start ≤ line) (hl : line ≤ stop)
      (hc : Closes scopes ((d.between line stop).map String.toList)) :
      Covers d { start, stop := line, isLast := true } { start, stop, isLast := true, scopes }

lemma ClosesBefore.closes {d : Document} {line stop : Nat} (h : ClosesBefore d line stop) :
    Closes 1 ((d.between line stop).map String.toList) := by
  obtain ⟨l, hl, hb⟩ := h.brace
  rw [← d.between_append (Nat.le_add_right line 1) h.lt, Document.between_succ hl, List.map_append]
  refine (Closes.brace hb).append (.of_noise fun l' hl' => ?_)
  obtain ⟨k, hk, rfl⟩ := List.mem_map.mp hl'
  exact h.noise k hk

/-- A tail that closes some scopes, and behind it one that closes others. -/
lemma closes_between {d : Document} {start middle stop m n : Nat} (h₁ : start ≤ middle)
    (h₂ : middle ≤ stop) (hm : Closes m ((d.between start middle).map String.toList))
    (hn : Closes n ((d.between middle stop).map String.toList)) :
    Closes (m + n) ((d.between start stop).map String.toList) := by
  rw [← d.between_append h₁ h₂, List.map_append]
  exact hm.append hn

lemma EndsAt.covers {d : Document} {line start : Nat} {bound : TypeEnd} {next : Option Nat}
    (he : EndsAt d line bound) (hl : next = none → start < line) :
    Covers d (extentAt (.onLine line) start next) (extentAt bound start next) := by
  cases next with
  | some n => exact .same rfl
  | none =>
    cases he with
    | onLine => exact .same rfl
    | before hle hc => exact .last (Nat.le_of_lt (hl rfl)) hle hc

/-- A nested type whose closing line is left out ends with the member that declares it. -/
lemma Covers.endsAt {d : Document} {x y : Extent} {line : Nat} (h : Covers d x y)
    (hc : ClosesBefore d line x.stop) : EndsAt d line (y.innerEnd none) := by
  cases h with
  | same hs =>
    rw [Extent.innerEnd, hs]
    exact .before (Nat.le_of_lt hc.lt) hc.closes
  | last _ hl hcl =>
    rw [Extent.innerEnd, Nat.add_comm]
    exact .before (Nat.le_trans (Nat.le_of_lt hc.lt) hl)
      (closes_between (Nat.le_of_lt hc.lt) hl hc.closes hcl)

/-- Behind the lines of the first extent, the second one has a tail. -/
lemma Covers.exists_tail {d : Document} {x y : Extent} (h : Covers d x y) :
    ∃ tail, d.between y.start y.stop = d.between x.start x.stop ++ tail ∧
      x.trailingScopes = 0 ∧ Closes y.trailingScopes (tail.map String.toList) := by
  cases h with
  | same hs =>
    have hx : x.trailingScopes = 0 := by
      unfold Extent.trailingScopes
      rw [hs, ite_self]
    exact ⟨[], (List.append_nil _).symm, hx, hx ▸ .nil⟩
  | last hs hl hc => exact ⟨_, (d.between_append hs hl).symm, rfl, hc⟩

/-! ### Texts -/

/-- From an extent that reaches further the same body is recovered. -/
lemma Covers.recoverBody {d : Document} {x y : Extent} (h : Covers d x y) {member : String}
    {body : Body} (hb : recoverBody d x member = .ok body) :
    ∃ fold, Recovery.recoverBody d y member = .ok { body with fold } := by
  obtain ⟨tail, hlines, hx, ht⟩ := h.exists_tail
  rw [recoverBody_ok_iff, hx] at hb
  simp only [recoverBody_ok_iff, hlines, List.map_append]
  refine bodyOfLines_append ht (fun l hl => ?_) hb
  obtain ⟨k, hk, rfl⟩ := List.mem_map.mp hl
  have hk : k ∈ d.between y.start y.stop := by
    rw [hlines]
    exact List.mem_append_right _ hk
  exact Document.not_mem_of_mem_lines (Document.mem_lines_of_mem_between hk)

lemma Covers.start_eq {d : Document} {x y : Extent} (h : Covers d x y) : y.start = x.start := by
  cases h <;> rfl

lemma Covers.recoversContent {d : Document} {x y : Extent} (hx : Covers d x y)
    {h h' : MemberHead} {c c' : Content} (hc : RecoversContent d x h c h' c') :
    ∃ fold, RecoversContent d y h c { h' with fold } c' := by
  cases hc with
  | field typeName comments =>
    refine ⟨h.fold, ?_⟩
    rw [← hx.start_eq]
    exact .field typeName comments
  | cleared hf ha => exact ⟨h.fold, .cleared hf ha⟩
  | filled hf ha hb hs =>
    obtain ⟨fold, hb⟩ := hx.recoverBody hb
    rw [← hx.start_eq] at hs
    exact ⟨fold, .filled hf ha hb hs⟩

/-! ### Members -/

lemma MemberOmits.head_eq {m m' : Member} (h : MemberOmits m m') : m'.head = m.head := by
  cases h <;> rfl

lemma MembersOmit.map_head {ms ms' : List Member} (h : MembersOmit ms ms') :
    ms'.map Member.head = ms.map Member.head := by
  induction ms generalizing ms' with
  | nil =>
    cases h
    rfl
  | cons m ms ih =>
    cases h with
    | cons hm hs => rw [List.map_cons, List.map_cons, ih hs, hm.head_eq]

mutual

lemma MemberOmits.bare_eq {m m' : Member} (h : MemberOmits m m') : bare m' = bare m := by
  match h with
  | .plain _ _ => rfl
  | .nested _ hm => simp only [bare, hm.bareAll_eq]

lemma MembersOmit.bareAll_eq {ms ms' : List Member} (h : MembersOmit ms ms') :
    bareAll ms' = bareAll ms := by
  match h with
  | .nil => rfl
  | .cons hm hs => simp only [bareAll, hm.bare_eq, hs.bareAll_eq]

end

/-- If the last member starts before a line, so does the last one of the others. -/
lemma lt_of_getLast?_cons {line : Nat} {m : Member} {ms : List Member}
    (h : ∀ n ∈ (startsOf (m :: ms)).getLast?, n < line) :
    ∀ n ∈ (startsOf ms).getLast?, n < line := by
  intro n hn
  apply h
  cases hm : m.firstLine? with
  | none => rwa [startsOf_cons_of_eq_none hm]
  | some first =>
    rw [startsOf_cons_of_eq_some hm, List.getLast?_cons, Option.mem_def.mp hn]
    exact rfl

/-- With no other member behind it, a member is the last one. -/
lemma lt_of_head?_eq_none {line n : Nat} {m : Member} {ms : List Member}
    (h : ∀ n ∈ (startsOf (m :: ms)).getLast?, n < line) (hm : m.firstLine? = some n)
    (hnone : (startsOf ms).head? = none) : n < line := by
  rw [startsOf_cons_of_eq_some hm, List.head?_eq_none_iff.mp hnone] at h
  exact h n rfl

/-- A closing line that may be left out: with it the type ends there, without it behind. -/
lemma Covers.endsAt_innerEnd {d : Document} {x y : Extent} {line : UInt64} {kept : Option UInt64}
    (hx : Covers d x y) (hc : ClosesBefore d line.toNat x.stop)
    (hk : kept = some line ∨ kept = none) :
    EndsAt d line.toNat (y.innerEnd (kept.map UInt64.toNat)) := by
  rcases hk with rfl | rfl
  · exact .onLine
  · exact hx.endsAt hc

lemma stop_extentAt_onLine (line start : Nat) (next : Option Nat) :
    (extentAt (.onLine line) start next).stop = next.getD line := by
  cases next <;> rfl

mutual

theorem RecoversMember.without_closings {d : Document} {x y : Extent} {m m' r : Member}
    (hr : RecoversMember d x m r) (hx : Covers d x y) (hc : MemberClosed d x.stop m)
    (ho : MemberOmits m m') : ∃ r', RecoversMember d y m' r' ∧ bare r' = bare r := by
  match m, hr, ho with
  | .plain h c, .plain hr, .plain _ _ =>
    obtain ⟨fold, hr⟩ := hx.recoversContent hr
    exact ⟨_, .plain hr, rfl⟩
  | .nested h t ms, .nested hm hl, .nested hk ho =>
    obtain ⟨line, htc, hms⟩ := hc
    rw [htc.known] at hk hl
    obtain ⟨r', hr', hb⟩ := hl.without_closings (hx.endsAt_innerEnd htc.closes hk) htc.last hms ho
    rw [← extentsOf_congr ho.map_head] at hr'
    refine ⟨.nested h _ r', .nested ((missingLine?_eq_none_congr ho.map_head).mpr hm) hr', ?_⟩
    simp only [bare, hb]

/-- The members of a type that closes on a known line, recovered up to a later end. -/
theorem RecoversLocated.without_closings {d : Document} {line : Nat} {bound : TypeEnd}
    {ms ms' r : List Member} (hr : RecoversLocated d (extentsOf (.onLine line) ms) ms r)
    (he : EndsAt d line bound) (hlast : ∀ n ∈ (startsOf ms).getLast?, n < line)
    (hc : MembersClosed d line ms) (ho : MembersOmit ms ms') :
    ∃ r', RecoversLocated d (extentsOf bound ms) ms' r' ∧ bareAll r' = bareAll r := by
  match ms, ho with
  | [], .nil =>
    cases hr
    exact ⟨[], .nil _, rfl⟩
  | m :: ms, @MembersOmit.cons _ m' _ _ hm ho =>
    have hn' : m'.firstLine? = m.firstLine? := by
      rw [Member.firstLine?, hm.head_eq, Member.firstLine?]
    cases hn : m.firstLine? with
    | none =>
      rw [extentsOf_cons_of_eq_none hn] at hr ⊢
      obtain ⟨r, hl, rfl⟩ := (recoversLocated_cons_of_passed (.inl hn)).mp hr
      obtain ⟨r', hr', hb⟩ := hl.without_closings he (lt_of_getLast?_cons hlast) hc.2 ho
      refine ⟨m' :: r', .passed (.inl (hn'.trans hn)) hr', ?_⟩
      simp only [bareAll, hm.bare_eq, hb]
    | some n =>
      have hs : m.firstLine?.isSome = true := by simp [hn]
      rw [extentsOf_cons_of_eq_some hn] at hr ⊢
      obtain ⟨r₁, hm₁, r₂, hl, rfl⟩ := (recoversLocated_cons_of_isSome hs).mp hr
      have hmc := hc.1 hs
      rw [← stop_extentAt_onLine line n] at hmc
      have hcovers := he.covers (lt_of_head?_eq_none hlast hn)
      obtain ⟨r₁', hr₁, hb₁⟩ := hm₁.without_closings hcovers hmc hm
      obtain ⟨r₂', hr₂, hb₂⟩ := hl.without_closings he (lt_of_getLast?_cons hlast) hc.2 ho
      refine ⟨r₁' :: r₂', .located (hn' ▸ hs) hr₁ hr₂, ?_⟩
      simp only [bareAll, hb₁, hb₂]

end

/-! ### Types, namespaces, trees -/

lemma TypeOmits.firstLine_eq {t t' : TypeDecl} (h : TypeOmits t t') :
    t'.header.firstLine = t.header.firstLine := by
  cases h
  rfl

lemma NamespaceOmits.firstLine_eq {n n' : Namespace} (h : NamespaceOmits n n') :
    n'.firstLine = n.firstLine := by
  cases h
  rfl

lemma bind_head?_of_forall₂ {α β : Type} {R : α → α → Prop} {f : α → Option β} {as bs : List α}
    (h : List.Forall₂ R as bs) (hf : ∀ a b, R a b → f b = f a) :
    bs.head?.bind f = as.head?.bind f := by
  cases h with
  | nil => rfl
  | cons hr _ => simpa using hf _ _ hr

/-- A type whose closing line may be left out ends there, before the next type, or where the
namespace does. -/
lemma endsAt_typeEnd {d : Document} {t : TypeDecl} {next : Option TypeDecl} {line : UInt64}
    {bound stop scopes : Nat} (hk : t.header.closingLine = some line ∨ t.header.closingLine = none)
    (hc : ClosesBefore d line.toNat
      (((next.bind (·.header.firstLine)).map UInt64.toNat).getD bound)) (hb : bound ≤ stop)
    (hs : Closes scopes ((d.between bound stop).map String.toList)) :
    EndsAt d line.toNat (typeEnd t next stop scopes) := by
  unfold typeEnd
  rcases hk with hk | hk
  · rw [hk]
    exact .onLine
  · rw [hk]
    cases hn : next.bind (·.header.firstLine) with
    | some first =>
      rw [hn] at hc
      exact .before (Nat.le_of_lt hc.lt) hc.closes
    | none =>
      rw [hn] at hc
      exact .before (Nat.le_trans (Nat.le_of_lt hc.lt) hb)
        (closes_between (Nat.le_of_lt hc.lt) hb hc.closes hs)

theorem RecoversTypes.without_closings {d : Document} {stop scopes bound stop' scopes' : Nat}
    {ts ts' r : List TypeDecl} (hr : RecoversTypes d stop scopes ts r)
    (hc : TypesClosed d bound ts) (ho : List.Forall₂ TypeOmits ts ts') (hb : bound ≤ stop')
    (hs : Closes scopes' ((d.between bound stop').map String.toList)) :
    ∃ r', RecoversTypes d stop' scopes' ts' r' ∧ r'.map bareType = r.map bareType := by
  induction ho generalizing r with
  | nil =>
    cases hr
    exact ⟨[], .nil, rfl⟩
  | @cons t t' ts ts' hto hts ih =>
    obtain ⟨⟨line, htc, hms⟩, hrest⟩ := hc
    have hnext := bind_head?_of_forall₂ hts fun _ _ => TypeOmits.firstLine_eq
    cases hr with
    | @cons _ _ r members hm ht =>
      obtain ⟨r', hr', hbr⟩ := ih ht hrest
      cases hto with
      | @intro t kept ms ms' hk hmo =>
        obtain ⟨hmiss, hl⟩ := hm
        rw [htc.known] at hk
        have hend : EndsAt d line.toNat (typeEnd ⟨{ t with closingLine := kept }, ms'⟩ ts'.head?
            stop' scopes') := endsAt_typeEnd hk (hnext ▸ htc.closes) hb hs
        have hline : typeEnd ⟨t, ms⟩ ts.head? stop scopes = .onLine line.toNat := by
          unfold typeEnd
          rw [htc.known]
        rw [hline] at hl
        obtain ⟨members', hm', hbm⟩ := hl.without_closings hend htc.last hms hmo
        rw [← extentsOf_congr hmo.map_head] at hm'
        refine ⟨_, .cons ⟨(missingLine?_eq_none_congr hmo.map_head).mpr hmiss, hm'⟩ hr', ?_⟩
        simp only [List.map_cons, bareType, hbm, hbr]

lemma namespaceEnd_of_eq_some {d : Document} {n : Namespace} {line : UInt64}
    (h : n.closingLine = some line) (next : Option Namespace) :
    namespaceEnd d n next = (line.toNat, 0) := by
  unfold namespaceEnd
  rw [h]

lemma namespaceEnd_of_eq_none {d : Document} {n : Namespace} (h : n.closingLine = none)
    (next : Option Namespace) :
    namespaceEnd d n next =
      (((next.bind (·.firstLine)).map UInt64.toNat).getD (d.size + 1),
        if n.isBraced then 1 else 0) := by
  unfold namespaceEnd
  rw [h]
  cases next.bind (·.firstLine) <;> rfl

/-- The last type of a namespace may end where the namespace does, whether its closing line is left
out or not. -/
lemma exists_typesClosed {d : Document} {n n' : Namespace} {ns : List Namespace}
    {next : Option Namespace} (hc : NamespacesClosed d (n :: ns)) (ho : NamespaceOmits n n')
    (hnext : next.bind (·.firstLine) = ns.head?.bind (·.firstLine)) :
    ∃ bound, TypesClosed d bound n.types ∧ bound ≤ (namespaceEnd d n' next).1 ∧
      Closes (namespaceEnd d n' next).2
        ((d.between bound (namespaceEnd d n' next).1).map String.toList) := by
  have hself : ∀ line, Closes 0 ((d.between line line).map String.toList) := by
    intro line
    rw [d.between_self]
    exact .nil
  have hn := hc.1
  have hbr : n'.isBraced = n.isBraced := by
    cases ho
    rfl
  have hk : n'.closingLine = n.closingLine ∨ n'.closingLine = none := by
    cases ho with
    | intro hk _ => exact hk
  by_cases hb : n.isBraced = true
  · rw [if_pos hb] at hn
    obtain ⟨closing, hknown, hcl, hts⟩ := hn
    refine ⟨closing.toNat, hts, ?_⟩
    rcases hk with hk | hk
    · rw [namespaceEnd_of_eq_some (hk.trans hknown)]
      exact ⟨Nat.le_refl _, hself _⟩
    · rw [namespaceEnd_of_eq_none hk, hnext, hbr, if_pos hb]
      exact ⟨Nat.le_of_lt hcl.lt, hcl.closes⟩
  · rw [if_neg hb] at hn
    obtain ⟨hnone, hts⟩ := hn
    refine ⟨_, hts, ?_⟩
    rw [namespaceEnd_of_eq_none (hk.elim (·.trans hnone) id), hnext, hbr, if_neg hb]
    exact ⟨Nat.le_refl _, hself _⟩

theorem RecoversNamespaces.without_closings {d : Document} {ns ns' r : List Namespace}
    (hr : RecoversNamespaces d ns r) (hc : NamespacesClosed d ns)
    (ho : List.Forall₂ NamespaceOmits ns ns') :
    ∃ r', RecoversNamespaces d ns' r' ∧ r'.map bareNamespace = r.map bareNamespace := by
  induction ho generalizing r with
  | nil =>
    cases hr
    exact ⟨[], .nil, rfl⟩
  | @cons n n' ns ns' hno hns ih =>
    have hnext := bind_head?_of_forall₂ hns fun _ _ => NamespaceOmits.firstLine_eq
    cases hr with
    | @cons _ _ r types ht hrs =>
      obtain ⟨r', hr', hbr⟩ := ih hrs hc.2
      obtain ⟨bound, hts, hb, hs⟩ := exists_typesClosed hc hno hnext
      cases hno with
      | intro hk hto =>
        obtain ⟨types', ht', hbt⟩ := ht.without_closings hts hto hb hs
        refine ⟨_, .cons ht' hr', ?_⟩
        simp only [List.map_cons, bareNamespace, hbt, hbr]

/-- When all closing lines are known, and true of the document, any of them may be left out: the
tree is recovered just as well, with the same bodies, accessors and comments. -/
theorem recovers_without_closings {d : Document} {tree tree' recovered : DeclarationTree}
    (hk : ClosingsKnown d tree) (ho : OmitsClosings tree tree')
    (h : (recoverTree d tree).outcome = .ok recovered) :
    ∃ recovered', (recoverTree d tree').outcome = .ok recovered' ∧
      bareTree recovered' = bareTree recovered := by
  rw [recoverTree_ok_iff] at h
  obtain ⟨ns, hn, hb⟩ := h.without_closings hk ho
  refine ⟨{ namespaces := ns }, recoverTree_ok_iff.mpr hn, ?_⟩
  rw [bareTree, hb, bareTree]

/-! ### A nested type at the end of a type -/

/-- A class with a nested one, in a namespace. -/
def orderSource : Document :=
  .ofLines [
    "namespace Shop \x7b",
    "    class Order \x7b",
    "        void Ship() \x7b",
    "            Send();",
    "        \x7d",
    "        class Line \x7b",
    "            void Print() \x7b",
    "                Show();",
    "            \x7d",
    "        \x7d",
    "        // end of Order",
    "    \x7d",
    "\x7d"]

/-- The tree of the source, with these closing lines and these bodies. -/
def orderTree (shop order line : Option UInt64) (ship print : String) : DeclarationTree where
  namespaces := [{
    name := "Shop"
    types := [{
      header := { name := "Order", firstLine := some 2, closingLine := order }
      members := [
        .plain { name := "Ship", firstLine := some 3 } (.method "void" [] ship),
        .nested { name := "Line", firstLine := some 6 } { name := "Line", closingLine := line }
          [.plain { name := "Print", firstLine := some 7 } (.method "void" [] print)]] }]
    closingLine := shop }]

lemma closingsKnown_orderTree :
    ClosingsKnown orderSource (orderTree (some 13) (some 12) (some 10) "" "") := by
  have hline : ClosesBefore orderSource 10 12 :=
    ⟨⟨"        \x7d", by decide +kernel, by decide +kernel⟩, by decide, by decide +kernel⟩
  have horder : ClosesBefore orderSource 12 13 :=
    ⟨⟨"    \x7d", by decide +kernel, by decide +kernel⟩, by decide, by decide +kernel⟩
  have hshop : ClosesBefore orderSource 13 14 :=
    ⟨⟨"\x7d", by decide +kernel, by decide +kernel⟩, by decide, by decide +kernel⟩
  have hmembers : MembersClosed orderSource 12
      [.plain { name := "Ship", firstLine := some 3 } (.method "void" [] ""),
        .nested { name := "Line", firstLine := some 6 } { name := "Line", closingLine := some 10 }
          [.plain { name := "Print", firstLine := some 7 } (.method "void" [] "")]] := by
    refine ⟨fun _ => trivial, fun _ => ⟨10, ⟨rfl, hline, by decide⟩, ?_⟩, trivial⟩
    exact ⟨fun _ => trivial, trivial⟩
  exact ⟨⟨13, rfl, hshop, ⟨12, ⟨rfl, horder, by decide⟩, hmembers⟩, trivial⟩, trivial⟩

/-- Without any closing line the bodies of the order and of its last, nested type are the same. -/
theorem order_without_closings :
    ClosingsKnown orderSource (orderTree (some 13) (some 12) (some 10) "" "") ∧
      OmitsClosings (orderTree (some 13) (some 12) (some 10) "" "")
        (orderTree none none none "" "") ∧
      ∃ recovered, (recoverTree orderSource (orderTree none none none "" "")).outcome =
          .ok recovered ∧
        bareTree recovered =
          bareTree (orderTree none none none "            Send();" "                Show();") := by
  have hk := closingsKnown_orderTree
  have ho : OmitsClosings (orderTree (some 13) (some 12) (some 10) "" "")
      (orderTree none none none "" "") :=
    .cons (.intro (.inr rfl) (.cons (.intro (.inr rfl)
      (.cons (.plain _ _) (.cons (.nested (.inr rfl) (.cons (.plain _ _) .nil)) .nil))) .nil)) .nil
  have hr : (recoverTree orderSource (orderTree (some 13) (some 12) (some 10) "" "")).outcome =
      .ok (orderTree (some 13) (some 12) (some 10) "            Send();"
        "                Show();") := by
    decide +kernel
  obtain ⟨recovered, h, hb⟩ := recovers_without_closings hk ho hr
  exact ⟨hk, ho, recovered, h, hb.trans rfl⟩

end Graft.Recovery
