import Graft.Proofs.Recovery.Recovered

/-!
# What a recovery leaves as it is

The recovery fills in the comments of fields, the texts of all other members, and the fold marks of
those that have a body. It does so for members that have a line, and looks into no nested type
without one. A tree without these parts is the same before and after, `DeclarationTree.unfilled`.
None of these parts has any influence on what is recovered, so that a second recovery finds what the
first one did: `recoverTree_framed_idempotent`.
-/

namespace Graft

/-! ### Trees without what a recovery fills in -/

/-- The content without its comments or its text. -/
def Content.unfilled : Content → Content
  | .field typeName _ => .field typeName []
  | .method returnType signature _ => .method returnType signature ""
  | .constructor signature _ => .constructor signature ""
  | .property typeName _ => .property typeName {}

/-- The head of a member with that content without the fold marks, which a recovery fills in unless
the member is abstract or a field. -/
def MemberHead.unfilled (h : MemberHead) (c : Content) : MemberHead :=
  if h.isAbstract || c.isField then h else { h with fold := {} }

namespace Member

mutual

/-- The member without what a recovery fills in, itself and inside it. -/
def unfilled : Member → Member
  | .plain h c => .plain (h.unfilled c) c.unfilled
  | .nested h t ms => .nested h t (unfilledAll ms)

/-- The members without what a recovery fills in. A member without a line is not changed, with
everything inside it. -/
def unfilledAll : List Member → List Member
  | [] => []
  | m :: ms => (if m.firstLine?.isSome then unfilled m else m) :: unfilledAll ms

end

end Member

/-- The type without what a recovery fills in. -/
def TypeDecl.unfilled (t : TypeDecl) : TypeDecl :=
  { t with members := Member.unfilledAll t.members }

/-- The namespace without what a recovery fills in. -/
def Namespace.unfilled (n : Namespace) : Namespace :=
  { n with types := n.types.map TypeDecl.unfilled }

/-- The tree without what a recovery fills in. -/
def DeclarationTree.unfilled (tree : DeclarationTree) : DeclarationTree where
  namespaces := tree.namespaces.map Namespace.unfilled

namespace Recovery

variable {d : Document}

/-! ### The frame -/

/-- The text of a content is what its unfilled form leaves out. -/
lemma unfilled_withText (body : String) (accessors : Accessors) (c : Content) :
    (c.withText body accessors).unfilled = c.unfilled := by
  cases c <;> rfl

lemma unfilled_withFold {h : MemberHead} {c c' : Content} (ha : h.isAbstract = false)
    (hc : c.isField = false) (hc' : c'.isField = c.isField) (fold : FoldMarks) :
    { h with fold }.unfilled c' = h.unfilled c := by
  simp [MemberHead.unfilled, ha, hc, hc']

/-- A recovery fills in what the unfilled forms leave out, and changes nothing else. -/
lemma RecoversContent.unfilled_eq {x : Extent} {h h' : MemberHead} {c c' : Content}
    (hr : RecoversContent d x h c h' c') :
    h'.unfilled c' = h.unfilled c ∧ c'.unfilled = c.unfilled := by
  cases hr with
  | field typeName comments => exact ⟨rfl, rfl⟩
  | cleared hc ha => exact ⟨by simp [MemberHead.unfilled, ha], unfilled_withText _ _ c⟩
  | filled hc ha _ _ =>
    exact ⟨unfilled_withFold ha hc (Content.isField_withText _ _ c) _, unfilled_withText _ _ c⟩

mutual

lemma RecoversMember.unfilled_eq {x : Extent} {m m' : Member} (h : RecoversMember d x m m') :
    m'.unfilled = m.unfilled := by
  match h with
  | .plain hc =>
    obtain ⟨hhead, hcontent⟩ := hc.unfilled_eq
    rw [Member.unfilled, hhead, hcontent, Member.unfilled]
  | .nested _ hl => rw [Member.unfilled, hl.unfilledAll_eq, Member.unfilled]

/-- The order and the number of the members stay, and a member without a line stays as it is. -/
lemma RecoversLocated.unfilledAll_eq {xs : List Extent} {ms ms' : List Member}
    (h : RecoversLocated d xs ms ms') : Member.unfilledAll ms' = Member.unfilledAll ms := by
  match h with
  | .nil _ => rfl
  | .located hn hm hl =>
    rw [Member.unfilledAll, hm.firstLine?_eq, if_pos hn, hm.unfilled_eq, hl.unfilledAll_eq,
      Member.unfilledAll, if_pos hn]
  | .passed _ hl => rw [Member.unfilledAll, hl.unfilledAll_eq, Member.unfilledAll]

end

lemma RecoversTypes.map_unfilled {stop scopes : Nat} {ts ts' : List TypeDecl}
    (h : RecoversTypes d stop scopes ts ts') :
    ts'.map TypeDecl.unfilled = ts.map TypeDecl.unfilled := by
  induction h with
  | nil => rfl
  | cons hm _ ih =>
    rw [List.map_cons, List.map_cons, ih, TypeDecl.unfilled, TypeDecl.unfilled, hm.2.unfilledAll_eq]

lemma RecoversNamespaces.map_unfilled {ns ns' : List Namespace}
    (h : RecoversNamespaces d ns ns') :
    ns'.map Namespace.unfilled = ns.map Namespace.unfilled := by
  induction h with
  | nil => rfl
  | cons ht _ ih =>
    rw [List.map_cons, List.map_cons, ih, Namespace.unfilled, Namespace.unfilled, ht.map_unfilled]

/-! ### The second recovery -/

/-- What is recovered is told by the name, the kind and whether the member is abstract, and these
are as before. -/
lemma RecoversContent.again {x : Extent} {h h' : MemberHead} {c c' : Content}
    (hr : RecoversContent d x h c h' c') : RecoversContent d x h' c' h' c' := by
  cases hr with
  | field typeName comments => exact .field typeName _
  | cleared hc ha =>
    have hagain : RecoversContent d x h (c.withText "" {}) h ((c.withText "" {}).withText "" {}) :=
      .cleared (by simp [hc]) ha
    rwa [Content.withText_withText] at hagain
  | @filled _ body accessors hc ha hb hs =>
    have hagain : RecoversContent d x { h with fold := body.fold } (c.withText body.text accessors)
        { h with fold := body.fold }
        ((c.withText body.text accessors).withText body.text accessors) :=
      .filled (h := { h with fold := body.fold }) (by simp [hc]) ha hb (by simpa using hs)
    rwa [Content.withText_withText] at hagain

lemma RecoversMember.isAbstract_eq {x : Extent} {m m' : Member} (h : RecoversMember d x m m') :
    m'.head.isAbstract = m.head.isAbstract := by
  cases h with
  | plain hc => cases hc <;> rfl
  | nested _ _ => rfl

/-- The recovered members have lines where the members have them. -/
lemma RecoversLocated.missingLine?_eq_none {xs : List Extent} {ms ms' : List Member}
    (h : RecoversLocated d xs ms ms') (hm : missingLine? ms = none) :
    missingLine? ms' = none := by
  induction ms generalizing xs ms' with
  | nil =>
    cases h
    exact hm
  | cons m ms ih =>
    simp only [missingLine?, List.find?_eq_none, List.forall_mem_cons] at hm ih ⊢
    cases h with
    | located _ hr hl =>
      rw [List.forall_mem_cons, hr.firstLine?_eq, hr.isAbstract_eq]
      exact ⟨hm.1, ih hl hm.2⟩
    | passed _ hl => exact List.forall_mem_cons.mpr ⟨hm.1, ih hl hm.2⟩

mutual

/-- What was recovered is recovered to itself. The text that was there before plays no part. -/
lemma RecoversMember.again {x : Extent} {m m' : Member} (h : RecoversMember d x m m') :
    RecoversMember d x m' m' := by
  match h with
  | .plain hc => exact .plain hc.again
  | .nested hm hl =>
    refine .nested (hl.missingLine?_eq_none hm) ?_
    rw [extentsOf_eq_tiling, hl.startsOf_eq]
    exact hl.again

/-- The members start where they did, so they are read from the same extents again. -/
lemma RecoversLocated.again {xs : List Extent} {ms ms' : List Member}
    (h : RecoversLocated d xs ms ms') : RecoversLocated d xs ms' ms' := by
  match h with
  | .nil xs => exact .nil xs
  | .located hn hm hl => exact .located (hm.firstLine?_eq ▸ hn) hm.again hl.again
  | .passed hn hl => exact .passed hn hl.again

end

lemma RecoversMembers.again {bound : TypeEnd} {ms ms' : List Member}
    (h : RecoversMembers d bound ms ms') : RecoversMembers d bound ms' ms' := by
  refine ⟨h.2.missingLine?_eq_none h.1, ?_⟩
  rw [extentsOf_eq_tiling, h.2.startsOf_eq]
  exact h.2.again

lemma RecoversTypes.again {stop scopes : Nat} {ts ts' : List TypeDecl}
    (h : RecoversTypes d stop scopes ts ts') : RecoversTypes d stop scopes ts' ts' := by
  induction h with
  | nil => exact .nil
  | @cons t ts ts' members hm hts ih =>
    have hnext : ts'.head?.map (·.header) = ts.head?.map (·.header) := by
      rw [← List.head?_map, hts.map_header, List.head?_map]
    have hend : typeEnd { t with members } ts'.head? stop scopes =
        typeEnd t ts.head? stop scopes := typeEnd_congr rfl hnext stop scopes
    exact .cons (t := { t with members }) (hend ▸ hm.again) ih

/-- The lines that bound namespaces and types are not changed by a recovery. -/
lemma RecoversNamespaces.again {ns ns' : List Namespace} (h : RecoversNamespaces d ns ns') :
    RecoversNamespaces d ns' ns' := by
  induction h with
  | nil => exact .nil
  | @cons n ns ns' types ht hns ih =>
    have hnext : ns'.head?.map (·.firstLine) = ns.head?.map (·.firstLine) := by
      rw [← List.head?_map, hns.map_lines, List.head?_map]
    refine .cons (n := { n with types }) ?_ ih
    rw [namespaceEnd_congr hnext]
    exact ht.again

/-- A recovery changes nothing but comments of fields, texts of other members and fold marks of
those with a body, and these only of members that have a line. A second recovery succeeds and
changes nothing at all. -/
theorem recoverTree_framed_idempotent {tree recovered : DeclarationTree}
    (h : (recoverTree d tree).outcome = .ok recovered) :
    recovered.unfilled = tree.unfilled ∧ (recoverTree d recovered).outcome = .ok recovered := by
  rw [recoverTree_ok_iff] at h
  refine ⟨?_, recoverTree_ok_iff.mpr h.again⟩
  rw [DeclarationTree.unfilled, h.map_unfilled, DeclarationTree.unfilled]

/-! ### A class recovered twice -/

/-- A class with a field, a property, and an inner class in a fold region. -/
def ledgerSource : Document :=
  .ofLines [
    "class Ledger \x7b",
    "    // The balance.",
    "    private int balance;",
    "    int Balance \x7b",
    "        get \x7b return balance; \x7d",
    "    \x7d",
    "    #region Printing",
    "    abstract class Page \x7b",
    "        void Print() \x7b",
    "            Show();",
    "        \x7d",
    "    \x7d",
    "    #endregion",
    "\x7d"]

/-- The tree of the source with these comments, accessors, texts and fold marks. It has no closing
lines, and no line for an abstract method, of which the parser made up a text. -/
def ledgerTree (comments : List String) (accessors : Accessors) (print : String)
    (opened closed : FoldMarks) : DeclarationTree where
  namespaces := [{
    types := [{
      header := { name := "Ledger" }
      members := [
        .plain { name := "balance", firstLine := some 3 } (.field "int" comments),
        .plain { name := "Balance", firstLine := some 4, fold := opened }
          (.property "int" accessors),
        .plain { name := "Total", isAbstract := true } (.method "int" [] "parsed();"),
        .nested { name := "Page", firstLine := some 8, isAbstract := true } { name := "Page" }
          [.plain { name := "Print", firstLine := some 9, fold := closed }
            (.method "void" [] print)]] }] }]

/-- What the parser made of comments, accessors and texts gives way to the source; the text of the
method without a line stays. -/
theorem ledger_recovered_twice :
    let parsed := ledgerTree ["// parsed"] {} "parsed();" {} { opened := some "Parsed" }
    let recovered := ledgerTree ["// The balance."] { get := some "return balance;" }
      "            Show();" { opened := some "Printing" } { closed := true }
    (recoverTree ledgerSource parsed).outcome = .ok recovered ∧
      recovered.unfilled = parsed.unfilled ∧
      (recoverTree ledgerSource recovered).outcome = .ok recovered := by
  intro parsed recovered
  have h : (recoverTree ledgerSource parsed).outcome = .ok recovered := by decide +kernel
  exact ⟨h, recoverTree_framed_idempotent h⟩

end Recovery

end Graft
