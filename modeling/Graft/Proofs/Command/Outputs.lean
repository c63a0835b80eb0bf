import Graft.Proofs.Command.Batch

/-!
# Which outputs of a batch are kept

An output file is named by the file name of its artifact alone, so that artifacts in different
directories may have the same one. Each of them overwrites what those before it wrote there, and the
batch reports success all the same. Nothing is lost exactly if artifacts with the same output file
have the same rendering.
-/

namespace Graft

variable {directory : Path} {format : Format} {d : Disk Contents}

/-- The artifact of a generated tree is renewed to a tree that is rendered as this text. -/
def RendersTo (format : Format) (d : Disk Contents) (g : Path) (text : String) : Prop :=
  ∃ r, ((ArtifactFiles.ofGenerated g).renew d.standing).outcome = .ok r ∧
    format.render r.tree = text

lemma RendersTo.unique {g : Path} {text text' : String} (h : RendersTo format d g text)
    (h' : RendersTo format d g text') : text = text' := by
  obtain ⟨r, hr, rfl⟩ := h
  obtain ⟨r', hr', rfl⟩ := h'
  rw [hr] at hr'
  cases hr'
  rfl

lemma read_eq_ok_iff {s : Standing Contents} {text : String} :
    s.read = .ok text ↔ s.contents? = some (.text text) := by
  cases s with
  | file l c => cases c <;> simp [Standing.read, Standing.contents?]
  | _ => simp [Standing.read, Standing.contents?]

/-! ### One output file -/

end Graft
