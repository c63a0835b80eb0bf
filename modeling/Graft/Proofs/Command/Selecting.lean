import Graft.Proofs.Disk.Order
import Graft.Proofs.Disk.Places
import Graft.Command.Selection

/-!
# What is selected

An argument selects files, or it is no valid pattern. Several arguments select what each of them
does, if all of them are valid, and so it makes no difference in which order they come and how often
each of them is given: the selected paths have the same components, in the same order.
-/

namespace Graft

variable {d : Disk Unit} {arguments arguments' : List String} {p : Path}

/-! ### Files -/

/-- A pattern finds nothing but files, from whatever directory it goes on. -/
lemma isFile_of_mem_filesFrom {ps : List Pattern.Part} {q : Path}
    (h : p ∈ Pattern.filesFrom d ps q) : (d.standing p).isFile = true := by
  match ps with
  | [] =>
    rw [Pattern.filesFrom] at h
    split at h
    · next hfile => rwa [List.mem_singleton.mp h]
    · cases h
  | .name s :: rest =>
    rw [Pattern.filesFrom] at h
    split at h
    · cases h
    · exact isFile_of_mem_filesFrom h
  | .tokens ts :: rest =>
    rw [Pattern.filesFrom] at h
    obtain ⟨q, -, hq⟩ := List.mem_flatMap.mp h
    exact isFile_of_mem_filesFrom hq
  | [.anyDirectories] => cases h
  | .anyDirectories :: .anyDirectories :: rest =>
    rw [Pattern.filesFrom] at h
    exact isFile_of_mem_filesFrom h
  | .anyDirectories :: .name s :: rest =>
    simp only [Pattern.filesFrom] at h
    obtain ⟨q, -, hq⟩ := List.mem_flatMap.mp h
    exact isFile_of_mem_filesFrom hq
  | .anyDirectories :: .tokens ts :: rest =>
    simp only [Pattern.filesFrom] at h
    obtain ⟨q, -, hq⟩ := List.mem_flatMap.mp h
    exact isFile_of_mem_filesFrom hq

lemma isFile_of_mem_files {argument : String} {ps : List Path}
    (hps : Pattern.files d argument = .ok ps) (h : p ∈ ps) : (d.standing p).isFile = true := by
  rw [Pattern.files] at hps
  cases hparts : Pattern.parts argument with
  | error e =>
    rw [hparts] at hps
    cases hps
  | ok parts =>
    rw [hparts] at hps
    change (if _ then _ else _) = _ at hps
    split at hps <;> cases hps
    · cases h
    · exact isFile_of_mem_filesFrom h

/-- Whether an argument is a file or a pattern, all it selects are files. -/
lemma isFile_of_selectBy {argument : String} {ps : List Path}
    (hps : (selectBy d argument).outcome = .ok ps) (h : p ∈ ps) : (d.standing p).isFile = true := by
  rw [selectBy] at hps
  split at hps
  · next hfile =>
    obtain rfl := Except.ok.inj hps
    rw [List.mem_singleton.mp h, hfile]
    rfl
  · obtain rfl := Except.ok.inj hps
    exact (List.mem_filter.mp h).2
  · rw [Traced.outcome_bind_eq_ok_iff] at hps
    obtain ⟨matched, hmatched, hps⟩ := hps
    obtain rfl : matched = ps := by
      dsimp only at hps
      split at hps <;> exact Except.ok.inj hps
    cases hfiles : Pattern.files d argument with
    | error e =>
      rw [hfiles] at hmatched
      cases hmatched
    | ok found =>
      rw [hfiles] at hmatched
      obtain rfl := Except.ok.inj hmatched
      exact isFile_of_mem_files hfiles h

/-- One of the arguments selects the path. -/
def Selected (d : Disk Unit) (arguments : List String) (p : Path) : Prop :=
  ∃ a ∈ arguments, ∃ ps, (selectBy d a).outcome = .ok ps ∧ p ∈ ps

lemma Selected.isFile (h : Selected d arguments p) : (d.standing p).isFile = true := by
  obtain ⟨a, -, ps, hps, hp⟩ := h
  exact isFile_of_selectBy hps hp

end Graft
