import Graft.Proofs.Interchange.RoundTrip
import Graft.Proofs.Merge.TreeSteps
import Graft.Proofs.ParsedSource.Accepted
import Graft.Proofs.Recovery.Runs
import Graft.Renewal

/-!
# Reading back renewed trees

Recovery keeps the height of a tree, and a merge makes it no higher than the higher of the two. What
was decoded is low enough to be encoded again, also with everything that was left out of the text it
was decoded from: `render_lossless`.
-/

namespace Graft

/-! ### Recovery -/

namespace Recovery

mutual

/-- Recovery changes no height. -/
theorem RecoversMember.height_eq {d : Document} {x : Extent} {m m' : Member}
    (h : RecoversMember d x m m') : m'.height = m.height := by
  match h with
  | .plain _ => rfl
  | .nested _ hl => rw [Member.height, Member.height, hl.heights_eq]

theorem RecoversLocated.heights_eq {d : Document} {xs : List Extent} {ms ms' : List Member}
    (h : RecoversLocated d xs ms ms') : Member.heights ms' = Member.heights ms := by
  match h with
  | .nil _ => rfl
  | .located _ hm hl => rw [Member.heights, Member.heights, hm.height_eq, hl.heights_eq]
  | .passed _ hl => rw [Member.heights, Member.heights, hl.heights_eq]

end

lemma RecoversTypes.heights_eq {d : Document} {stop scopes : Nat} {ts ts' : List TypeDecl}
    (h : RecoversTypes d stop scopes ts ts') :
    Member.heights (ts'.flatMap TypeDecl.members) =
      Member.heights (ts.flatMap TypeDecl.members) := by
  induction h with
  | nil => rfl
  | cons hm _ ih =>
    rw [List.flatMap_cons, List.flatMap_cons, Member.heights_append, Member.heights_append, ih,
      hm.2.heights_eq]

lemma RecoversNamespaces.heights_eq {d : Document} {ns ns' : List Namespace}
    (h : RecoversNamespaces d ns ns') :
    Member.heights (ns'.flatMap fun n => n.types.flatMap TypeDecl.members) =
      Member.heights (ns.flatMap fun n => n.types.flatMap TypeDecl.members) := by
  induction h with
  | nil => rfl
  | cons ht _ ih =>
    rw [List.flatMap_cons, List.flatMap_cons, Member.heights_append, Member.heights_append, ih,
      ht.heights_eq]

lemma height_recoverTree {d : Document} {tree recovered : DeclarationTree}
    (h : (recoverTree d tree).outcome = .ok recovered) : recovered.height = tree.height :=
  (recoverTree_ok_iff.mp h).heights_eq

end Recovery

/-! ### Merging -/

namespace Merge

lemma height_renewed_le (e g : Member) : (renewed e g).height ≤ max e.height g.height := by
  unfold renewed
  split
  · cases g <;> exact Nat.le_max_right _ _
  · exact Nat.le_max_left _ _

lemma heights_withoutStale_le (source target : List Member) :
    Member.heights (withoutStale source target) ≤ Member.heights target :=
  Member.heights_le_iff.mpr fun m hm =>
    Member.heights_le_iff.mp le_rfl m (List.mem_of_mem_filter hm)

mutual

/-- A merge puts no member higher than those it starts with. -/
theorem Step.heights_le {target target' : List Member} {g : Member} (h : Step target g target') :
    Member.heights target' ≤ max (Member.heights target) g.height := by
  match h with
  | .append _ _ =>
    rw [Member.heights_append, Member.heights, Member.heights]
    omega
  | @Step.renew _ _ e h c _ _ =>
    have := height_renewed_le e (.plain h c)
    simp only [Member.heights_append, Member.heights]
    omega
  | @Step.descend _ _ _ source grown _ _ _ _ _ _ hs =>
    have := heights_withoutStale_le source grown
    have := hs.heights_le
    simp only [Member.heights_append, Member.heights, Member.height]
    omega

theorem Steps.heights_le {target source grown : List Member} (h : Steps target source grown) :
    Member.heights grown ≤ max (Member.heights target) (Member.heights source) := by
  match h with
  | .nil _ => exact Nat.le_max_left _ _
  | .cons hg hs =>
    have := hg.heights_le
    have := hs.heights_le
    rw [Member.heights]
    omega

end

lemma JoinsType.heights_le {old g new : TypeDecl} (h : JoinsType old g new) :
    Member.heights new.members ≤ max (Member.heights old.members) (Member.heights g.members) := by
  obtain ⟨members, ⟨grown, hs, rfl⟩, rfl⟩ := h
  exact (heights_withoutStale_le _ _).trans hs.heights_le

lemma JoinsNamespace.heights_le {old g new : Namespace} {n : Nat} (h : JoinsNamespace old g new)
    (ho : ∀ t ∈ old.types, Member.heights t.members ≤ n)
    (hg : ∀ t ∈ g.types, Member.heights t.members ≤ n) :
    ∀ t ∈ new.types, Member.heights t.members ≤ n := by
  obtain ⟨types, hs, rfl⟩ := h
  exact hs.forall_mem (fun t u t' ht hu hj => hj.heights_le.trans (Nat.max_le.mpr ⟨ht, hu⟩)) ho hg

theorem height_mergeTrees_le {existing generated merged : DeclarationTree}
    (h : (mergeTrees existing generated).outcome = .ok merged) :
    merged.height ≤ max existing.height generated.height := by
  rw [mergeTrees_ok_iff] at h
  rw [DeclarationTree.height_le_iff]
  refine h.forall_mem (fun n g n' hn hg hj => hj.heights_le hn hg) ?_ ?_
  · exact DeclarationTree.height_le_iff.mp (Nat.le_max_left _ _)
  · exact DeclarationTree.height_le_iff.mp (Nat.le_max_right _ _)

end Merge

/-! ### Renewal -/

namespace Renewal

open Interchange

/-- The tree of a valid parsed source is the parsed one. -/
lemma eq_of_mapError_validate {parsed : ParsedSource} {d : Document} {tree : DeclarationTree}
    (h : (parsed.validate d).outcome.mapError Failure.parsedTree = .ok tree) :
    parsed.tree = tree := by
  cases hv : (parsed.validate d).outcome with
  | error e =>
    rw [hv] at h
    cases h
  | ok t =>
    rw [hv] at h
    cases h
    exact (ParsedSource.validate_ok_iff.mp hv).2

/-- A renewed tree is no higher than the trees it was made from. -/
theorem height_ofSource?_le {parsed : ParsedSource} {text : Option String}
    {generated : DeclarationTree} {r : Renewal}
    (h : (ofSource? parsed text generated).outcome = .ok r) :
    r.tree.height ≤ max parsed.tree.height generated.height := by
  cases text with
  | none =>
    cases h
    exact Nat.le_max_right _ _
  | some text =>
    simp only [ofSource?, ofSource, Traced.outcome_bind_eq_ok_iff] at h
    obtain ⟨tree, hvalid, recovered, hrecovered, merged, hmerged, -, -, h⟩ := h
    cases h
    rw [eq_of_mapError_validate hvalid, ← Recovery.height_recoverTree hrecovered]
    exact Merge.height_mergeTrees_le hmerged

/-- What is made of decoded trees is not too deep to be decoded. At most 40 members stand inside one
another in a decoded tree, so its encoding takes at most 126 levels, also where it writes an empty
list that the text left out. -/
theorem depth_encode_le {parsed : ParsedSource} {text : Option String}
    {generated : DeclarationTree} {r : Renewal} {sidecar source : String}
    (hs : ofText? parsedSource? sidecar = some parsed) (hg : ofText? tree? source = some generated)
    (h : (ofSource? parsed text generated).outcome = .ok r) :
    r.tree.encode.depth ≤ maxLevels := by
  obtain ⟨_, -, hs⟩ := Option.bind_eq_some_iff.mp hs
  obtain ⟨_, -, hg⟩ := Option.bind_eq_some_iff.mp hg
  have hparsed := height_of_parsedSource? hs
  have hgenerated := height_of_tree? hg
  have hheight := height_ofSource?_le h
  have hdepth := r.tree.plainWithin_encode.within
  unfold maxLevels at *
  omega

/-- The interchange form loses nothing: a rendered tree that is not too deep is read back as the
same tree, and every tree that a renewal makes of decoded ones is such a tree. -/
theorem render_lossless :
    (∀ tree : DeclarationTree, tree.encode.depth ≤ maxLevels →
      ofText? tree? (Format.json.render tree) = some tree) ∧
    ∀ (sidecar source : String) (parsed : ParsedSource) (generated : DeclarationTree)
      (text : Option String) (r : Renewal),
      ofText? parsedSource? sidecar = some parsed → ofText? tree? source = some generated →
        (ofSource? parsed text generated).outcome = .ok r →
          r.tree.encode.depth ≤ maxLevels ∧
            ofText? tree? (Format.json.render r.tree) = some r.tree := by
  refine ⟨fun tree => ofText?_render tree, ?_⟩
  intro sidecar source parsed generated text r hs hg h
  have hdepth := depth_encode_le hs hg h
  exact ⟨hdepth, ofText?_render r.tree hdepth⟩

/-! #### An example -/

/-- A tree with a type `Shape`, with no part that may be missing. -/
def sparseShape (member : Json) : Json :=
  .ofMembers [("namespaces", .array [.ofMembers [("types", .array [.ofMembers
    [("name", .text "Shape"), ("members", .array [member])]])]])]

/-- The tree of the same type, with these members. -/
def shapeWith (members : List Member) : DeclarationTree :=
  { namespaces := [{ types := [⟨{ name := "Shape" }, members⟩] }] }

/-- A parsed source with a method. -/
def drawSidecar : String :=
  (Json.ofMembers [("tree", sparseShape (.ofMembers [("name", .text "Draw"), ("first_line", .nat 2),
    ("body", .ofMembers [("kind", .text "method")])]))]).compact

/-- A generated tree with a field. -/
def sizeSource : String :=
  (sparseShape (.ofMembers [("name", .text "Size"),
    ("body", .ofMembers [("kind", .text "field")])])).compact

/-- The source of the method. -/
def drawText : String :=
  "class Shape \x7b\n    void Draw() \x7b\n        Paint(\"\\t\");\n    \x7d\n\x7d\n"

/-- The method with a body. -/
def draw (body : String) : Member :=
  .plain { name := "Draw", firstLine := some 2 } (.method "" [] body)

/-- The method as the source has it, and the field. -/
def drawAndSize : DeclarationTree :=
  shapeWith [draw "        Paint(\"\\t\");", .ofField "Size" ""]

/-- The renewed type has quotes, an escape, and empty lists that neither text has. -/
theorem drawAndSize_lossless :
    ofText? tree? (Format.json.render (shapeWith [])) = some (shapeWith []) ∧
      ofText? parsedSource? drawSidecar = some { tree := shapeWith [draw ""] } ∧
      ofText? tree? sizeSource = some (shapeWith [.ofField "Size" ""]) ∧
      (ofSource? { tree := shapeWith [draw ""] } (some drawText)
          (shapeWith [.ofField "Size" ""])).outcome =
        .ok ⟨drawAndSize, [.added .member "Shape.Size"], []⟩ ∧
      drawAndSize.encode.depth ≤ maxLevels ∧
        ofText? tree? (Format.json.render drawAndSize) = some drawAndSize := by
  have hs : ofText? parsedSource? drawSidecar = some { tree := shapeWith [draw ""] } := by
    decide +kernel
  have hg : ofText? tree? sizeSource = some (shapeWith [.ofField "Size" ""]) := by
    decide +kernel
  have h : (ofSource? { tree := shapeWith [draw ""] } (some drawText)
      (shapeWith [.ofField "Size" ""])).outcome =
        .ok ⟨drawAndSize, [.added .member "Shape.Size"], []⟩ := by
    decide +kernel
  exact ⟨render_lossless.1 _ (by decide), hs, hg, h, render_lossless.2 _ _ _ _ _ _ hs hg h⟩

end Renewal

end Graft
