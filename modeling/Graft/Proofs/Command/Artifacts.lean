import Graft.Command.Run
import Graft.Proofs.Disk.Directories

/-!
# What merging one artifact does to a disk

The renewal of an artifact succeeds or fails, and with the same tree, by the files that stand at
the paths of the artifact. If it succeeds and the output path leads to a place, the tree is written
there; otherwise the disk stays as it is.
-/

namespace Graft

namespace ArtifactFiles

variable {files : ArtifactFiles} {look look' : Path → Standing Contents}

/-! ### What a renewal reads -/

/-- The same files stand at all paths that the renewal of an artifact may read. -/
def SameFiles (files : ArtifactFiles) (look look' : Path → Standing Contents) : Prop :=
  ∀ p ∈ files.paths, (look p).contents? = (look' p).contents?

lemma SameFiles.symm (h : files.SameFiles look look') : files.SameFiles look' look :=
  fun p hp => (h p hp).symm

lemma read_of_contents?_eq {s s' : Standing Contents} (h : s.contents? = s'.contents?)
    {text : String} (hs : s.read = .ok text) : s'.read = .ok text := by
  cases s with
  | file l c =>
    cases s' with
    | file l' c' =>
      cases h
      cases c <;> exact hs
    | _ => cases h
  | _ => cases hs

/-- A file is what has contents. -/
lemma isFile_eq {α : Type} (s : Standing α) : s.isFile = s.contents?.isSome := by
  cases s <;> rfl

lemma SameFiles.generatedTree_ok (h : files.SameFiles look look') {tree : DeclarationTree}
    (ht : files.generatedTree look = .ok tree) : files.generatedTree look' = .ok tree := by
  rw [generatedTree] at ht ⊢
  cases hr : (look files.generated).read with
  | error e =>
    rw [hr] at ht
    cases ht
  | ok text =>
    rw [read_of_contents?_eq (h _ (by simp [paths])) hr]
    rwa [hr] at ht

lemma SameFiles.parsedSource_ok (h : files.SameFiles look look') {existing : Path}
    (he : files.existing = some existing) {parsed : ParsedSource}
    (hp : files.parsedSource look existing = .ok parsed) :
    files.parsedSource look' existing = .ok parsed := by
  have hmem : files.parsed.getD (besides existing) ∈ files.paths := by
    cases hf : files.parsed <;> simp [paths, hf, he]
  rw [parsedSource] at hp ⊢
  cases hr : (look (files.parsed.getD (besides existing))).read with
  | error e =>
    rw [hr] at hp
    cases hp
  | ok text =>
    rw [read_of_contents?_eq (h _ hmem) hr]
    rwa [hr] at hp

lemma SameFiles.renewExisting_ok (h : files.SameFiles look look') {existing : Path}
    (he : files.existing = some existing) {generated : DeclarationTree} {r : Renewal}
    (hr : (files.renewExisting look existing generated).outcome = .ok r) :
    (files.renewExisting look' existing generated).outcome = .ok r := by
  rw [renewExisting, Traced.outcome_bind_eq_ok_iff] at hr ⊢
  obtain ⟨text, htext, hr⟩ := hr
  rw [Traced.outcome_bind_eq_ok_iff] at hr
  obtain ⟨parsed, hparsed, hr⟩ := hr
  refine ⟨text, ?_, Traced.outcome_bind_eq_ok_iff.2 ⟨parsed, ?_, hr⟩⟩
  · cases hread : (look existing).read with
    | error e =>
      rw [hread] at htext
      cases htext
    | ok t =>
      rw [read_of_contents?_eq (h existing (by simp [paths, he])) hread]
      rwa [hread] at htext
  · exact h.parsedSource_ok he hparsed

/-- A renewal that succeeds depends only on the files at the paths of the artifact. -/
theorem SameFiles.renew_ok (h : files.SameFiles look look') {r : Renewal}
    (hr : (files.renew look).outcome = .ok r) : (files.renew look').outcome = .ok r := by
  rw [renew, Traced.outcome_bind_eq_ok_iff] at hr ⊢
  obtain ⟨tree, htree, hr⟩ := hr
  refine ⟨tree, h.generatedTree_ok htree, ?_⟩
  cases he : files.existing with
  | none =>
    rw [he] at hr
    exact hr
  | some existing =>
    simp only [he] at hr ⊢
    rw [isFile_eq, ← h existing (by simp [paths, he]), ← isFile_eq]
    split at hr
    · next hfile =>
      rw [if_pos hfile]
      exact h.renewExisting_ok he hr
    · next hfile =>
      rw [if_neg hfile]
      exact hr

/-- A renewal succeeds alike on two disks with the same files. The faults may differ, since they
tell why a file is not there. -/
lemma SameFiles.renew_ok_iff (h : files.SameFiles look look') {r : Renewal} :
    (files.renew look).outcome = .ok r ↔ (files.renew look').outcome = .ok r :=
  ⟨h.renew_ok, h.symm.renew_ok⟩

end ArtifactFiles

/-! ### What merging an artifact writes -/

/-- The place that is written when an artifact is merged on a disk, and what is written there. -/
def written? (files : ArtifactFiles) (output : Path) (format : Format) (d : Disk Contents) :
    Option (Location × Contents) :=
  match (files.renew d.standing).outcome, d.place? output with
  | .ok r, some l => some (l, .text (format.render r.tree))
  | _, _ => none

variable {files : ArtifactFiles} {output : Path} {format : Format} {d : Disk Contents}

/-- An artifact is written if it is renewed and its output has a place. -/
lemma written?_eq_some_iff {w : Location × Contents} :
    written? files output format d = some w ↔
      ∃ r, (files.renew d.standing).outcome = .ok r ∧ d.place? output = some w.1 ∧
        w.2 = .text (format.render r.tree) := by
  obtain ⟨l, c⟩ := w
  rw [written?]
  cases (files.renew d.standing).outcome with
  | error fault => simp
  | ok r =>
    cases d.place? output with
    | none => simp
    | some k => simp [eq_comm]

/-- Files written elsewhere make no difference to what an artifact writes. -/
theorem written?_putAll {ws : List (Location × Contents)} (h : d.Writable ws)
    (hpaths : ∀ p ∈ files.paths, ∀ l ∈ ws.map (·.1), d.place? p ≠ some l) :
    written? files output format (d.putAll ws) = written? files output format d := by
  have hsame : files.SameFiles (d.putAll ws).standing d.standing :=
    fun p hp => h.contents?_putAll (hpaths p hp)
  refine Option.ext fun w => ?_
  rw [written?_eq_some_iff, written?_eq_some_iff, h.place?_putAll]
  simp only [hsame.renew_ok_iff]

/-- A renewal that fails leaves the disk alone. -/
lemma onDisk_writeArtifact_eq :
    onDisk (writeArtifact files output format) d =
      match (files.renew d.standing).outcome with
      | .error fault => (⟨(files.renew d.standing).records, .error fault⟩, d)
      | .ok r =>
        (⟨(files.renew d.standing).records,
          (onDisk (Host.write output (format.render r.tree)) d).1.mapError (.unwritable output)⟩,
          (onDisk (Host.write output (format.render r.tree)) d).2) := by
  rw [writeArtifact, onDisk_bind, onDisk_look]
  dsimp only
  generalize files.renew d.standing = result
  cases result.outcome <;> rfl

/-- Merging an artifact writes that and nothing else, and it succeeds exactly if it writes. -/
theorem onDisk_writeArtifact (files : ArtifactFiles) (output : Path) (format : Format)
    (d : Disk Contents) :
    (onDisk (writeArtifact files output format) d).2 =
        d.putAll (written? files output format d).toList ∧
      (onDisk (writeArtifact files output format) d).1.outcome.isOk =
        (written? files output format d).isSome := by
  rw [written?, onDisk_writeArtifact_eq]
  cases (files.renew d.standing).outcome with
  | error fault => exact ⟨rfl, rfl⟩
  | ok r =>
    dsimp only
    cases hplace : d.place? output with
    | none =>
      obtain ⟨e, he⟩ := Disk.write_of_place?_eq_none hplace (Contents.text (format.render r.tree))
      rw [onDisk_write_of_error he]
      exact ⟨rfl, rfl⟩
    | some l =>
      rw [onDisk_write_of_ok (Disk.write_of_place? hplace _)]
      exact ⟨rfl, rfl⟩

end Graft
