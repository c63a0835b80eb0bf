import Graft.Proofs.Command.Outputs
import Graft.Proofs.Disk.Spellings

/-!
# Artifacts of respelled generated trees

What is written for a generated tree is told by the contents of three files, the generated tree, the
artifact and its parsed tree, and by the output file. All of them are the same however the path of
the generated tree is spelled, unless one spelling makes the path of the parsed tree too long for
the system, and another one does not.
-/

namespace Graft

variable {directory : Path} {format : Format} {g g' : Path}

/-! ### Paths of files -/

/-- A file may stand at the path: it is not too long, and ends in a name. -/
structure Path.NamesFile (p : Path) : Prop where
  fits : p.Fits
  endsInName : ∃ qs name, p.pieces = qs ++ [name] ∧ Disk.IsName name

lemma Disk.IsName.not_stays {name : String} (h : Disk.IsName name) :
    ¬ (name = "" ∨ name = ".") :=
  not_or.mpr ⟨h.1, h.2.1⟩

/-- The last piece of a path is a component of its own if it is a name. -/
lemma getLast?_components {p : Path} {qs : List String} {name : String}
    (hp : p.pieces = qs ++ [name]) (hname : Disk.IsName name) :
    p.components.getLast? = some (.normal name) := by
  have hpiece : Component.ofPiece? name = some (.normal name) := by
    rw [Component.ofPiece?, if_neg hname.not_stays, if_neg hname.2.2.1]
  rw [Path.components_eq hp]
  split
  · rw [Path.componentsOfName, if_neg hname.2.1, hpiece]
    rfl
  · rw [hpiece, Option.toList_some, List.getLast?_concat]

/-- The renewals that the contents of a generated tree, of its artifact and of the artifact's parsed
tree give. -/
inductive Renews : (generated existing parsed : Option Contents) → Renewal → Prop where
  | fresh {text : String} {tree : DeclarationTree} (parsed : Option Contents)
      (htree : Interchange.ofText? Interchange.tree? text = some tree) :
      Renews (some (.text text)) none parsed { tree }
  | merged {text source parsedText : String} {tree : DeclarationTree} {parsed : ParsedSource}
      {r : Renewal} (htree : Interchange.ofText? Interchange.tree? text = some tree)
      (hparsed : Interchange.ofText? Interchange.parsedSource? parsedText = some parsed)
      (hr : (Renewal.ofSource parsed source tree).outcome = .ok r) :
      Renews (some (.text text)) (some (.text source)) (some (.text parsedText)) r

section

variable {look : Path → Standing Contents}

lemma mapError_eq_ok_iff {ε φ α : Type} {x : Except ε α} {f : ε → φ} {a : α} :
    x.mapError f = .ok a ↔ x = .ok a := by
  cases x <;> simp [Except.mapError]

/-- The generated tree is read from a text that decodes. -/
lemma generatedTree_ok_iff {files : ArtifactFiles} {tree : DeclarationTree} :
    files.generatedTree look = .ok tree ↔
      ∃ text, (look files.generated).contents? = some (.text text) ∧
        Interchange.ofText? Interchange.tree? text = some tree := by
  simp only [ArtifactFiles.generatedTree, ← read_eq_ok_iff]
  cases (look files.generated).read with
  | error cause => simp
  | ok text =>
    dsimp only
    cases h : Interchange.ofText? Interchange.tree? text <;> simp [h]

/-- The parsed source of an artifact lies beside it. -/
lemma parsedSource_ok_iff {existing : Path} {parsed : ParsedSource} :
    (ArtifactFiles.ofGenerated g).parsedSource look existing = .ok parsed ↔
      ∃ text, (look (ArtifactFiles.besides existing)).contents? = some (.text text) ∧
        Interchange.ofText? Interchange.parsedSource? text = some parsed := by
  simp only [ArtifactFiles.parsedSource, ArtifactFiles.ofGenerated, Option.getD_none,
    ← read_eq_ok_iff]
  cases (look (ArtifactFiles.besides existing)).read with
  | error cause => simp
  | ok text =>
    dsimp only
    cases h : Interchange.ofText? Interchange.parsedSource? text <;> simp [h]

lemma renewExisting_ok_iff {existing : Path} {tree : DeclarationTree} {r : Renewal} :
    ((ArtifactFiles.ofGenerated g).renewExisting look existing tree).outcome = .ok r ↔
      ∃ source parsed, (look existing).contents? = some (.text source) ∧
        (ArtifactFiles.ofGenerated g).parsedSource look existing = .ok parsed ∧
        (Renewal.ofSource parsed source tree).outcome = .ok r := by
  have hlogged (parsed : ParsedSource) (source : String) :
      (((Renewal.ofSource parsed source tree).mapRecords LogEntry.step).mapError
          (CommandFault.unmergeable existing) >>= fun renewal => do
        Traced.recordAll (renewal.diagnostics.map (.diagnostic existing))
        Traced.record (.merged existing renewal.changes)
        pure renewal : Logged Renewal).outcome = .ok r ↔
      (Renewal.ofSource parsed source tree).outcome = .ok r := by
    rw [Traced.outcome_bind_eq_ok_iff]
    constructor
    · rintro ⟨renewal, hrenewal, hr⟩
      obtain rfl := Except.ok.inj hr
      exact mapError_eq_ok_iff.mp hrenewal
    · intro hr
      exact ⟨r, mapError_eq_ok_iff.mpr hr, rfl⟩
  rw [ArtifactFiles.renewExisting, Traced.outcome_bind_eq_ok_iff]
  constructor
  · rintro ⟨source, hsource, hr⟩
    obtain ⟨parsed, hparsed, hr⟩ := Traced.outcome_bind_eq_ok_iff.mp hr
    exact ⟨source, parsed, read_eq_ok_iff.mp (mapError_eq_ok_iff.mp hsource), hparsed,
      (hlogged parsed source).mp hr⟩
  · rintro ⟨source, parsed, hsource, hparsed, hr⟩
    refine ⟨source, mapError_eq_ok_iff.mpr (read_eq_ok_iff.mpr hsource), ?_⟩
    exact Traced.outcome_bind_eq_ok_iff.mpr ⟨parsed, hparsed, (hlogged parsed source).mpr hr⟩

/-- The renewal of an artifact is told by what stands at the three paths. -/
theorem renew_ok_iff {r : Renewal} :
    ((ArtifactFiles.ofGenerated g).renew look).outcome = .ok r ↔
      Renews (look g).contents? (look (artifactOf g)).contents?
        (look (ArtifactFiles.besides (artifactOf g))).contents? r := by
  have hexisting (tree : DeclarationTree) :
      (if (look (artifactOf g)).isFile then
          (ArtifactFiles.ofGenerated g).renewExisting look (artifactOf g) tree
        else do
          Traced.record (.noArtifactYet (artifactOf g))
          ArtifactFiles.renewFresh tree).outcome = .ok r ↔
        (look (artifactOf g)).contents? = none ∧ r = { tree } ∨
          ((ArtifactFiles.ofGenerated g).renewExisting look (artifactOf g) tree).outcome =
            .ok r := by
    rw [ArtifactFiles.isFile_eq]
    cases hc : (look (artifactOf g)).contents? with
    | none =>
      constructor
      · intro hr
        exact .inl ⟨rfl, (Except.ok.inj hr).symm⟩
      · rintro (⟨-, rfl⟩ | hr)
        · rfl
        · obtain ⟨source, parsed, hsource, -⟩ := renewExisting_ok_iff.mp hr
          rw [hc] at hsource
          cases hsource
    | some c => exact ⟨.inr, fun h => h.resolve_left (by simp)⟩
  rw [ArtifactFiles.renew, Traced.outcome_bind_eq_ok_iff]
  constructor
  · rintro ⟨tree, htree, hr⟩
    obtain ⟨text, htext, htree⟩ := generatedTree_ok_iff.mp htree
    replace htext : (look g).contents? = some (.text text) := htext
    rw [htext]
    obtain ⟨hnone, rfl⟩ | hr := (hexisting tree).mp hr
    · rw [hnone]
      exact .fresh _ htree
    · obtain ⟨source, parsed, hsource, hparsed, hr⟩ := renewExisting_ok_iff.mp hr
      obtain ⟨parsedText, hparsedText, hparsed⟩ := parsedSource_ok_iff.mp hparsed
      rw [hsource, hparsedText]
      exact .merged htree hparsed hr
  · generalize hg : (look g).contents? = generated
    generalize ha : (look (artifactOf g)).contents? = existing
    generalize hb : (look (ArtifactFiles.besides (artifactOf g))).contents? = beside
    intro h
    cases h with
    | fresh _ htree =>
      exact ⟨_, generatedTree_ok_iff.mpr ⟨_, hg, htree⟩, (hexisting _).mpr (.inl ⟨ha, rfl⟩)⟩
    | merged htree hparsed hr =>
      refine ⟨_, generatedTree_ok_iff.mpr ⟨_, hg, htree⟩, (hexisting _).mpr (.inr ?_)⟩
      exact renewExisting_ok_iff.mpr ⟨_, _, ha, parsedSource_ok_iff.mpr ⟨_, hb, hparsed⟩, hr⟩

end

/-- The paths are spellings of one path at which a file may stand. -/
structure Path.SpellSame (g g' : Path) : Prop where
  components_eq : g.components = g'.components
  left : g.NamesFile
  right : g'.NamesFile

namespace Path.SpellSame

/-- Two spellings of one path end in the same name. -/
lemma exists_name (h : g.SpellSame g') :
    ∃ qs rs name, g.pieces = qs ++ [name] ∧ g'.pieces = rs ++ [name] ∧ Disk.IsName name := by
  obtain ⟨qs, name, hp, hname⟩ := h.left.endsInName
  obtain ⟨rs, last, hq, hlast⟩ := h.right.endsInName
  have heq := getLast?_components hp hname
  rw [h.components_eq, getLast?_components hq hlast] at heq
  obtain rfl : last = name := by simpa using heq
  exact ⟨qs, rs, last, hp, hq, hname⟩

/-- To spell a path in another way changes neither its components nor its last piece. -/
lemma alike (h : g.SpellSame g') : g.Alike g' := by
  obtain ⟨qs, rs, name, hp, hq, -⟩ := h.exists_name
  exact ⟨h.components_eq, by rw [hp, hq, List.getLast?_concat, List.getLast?_concat]⟩

end Path.SpellSame

namespace Respells

end Respells

end Graft
