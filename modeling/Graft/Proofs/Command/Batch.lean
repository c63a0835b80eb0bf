import Graft.Proofs.Command.Artifacts

/-!
# Running a batch

A batch merges its artifacts one after the other, and succeeds exactly if all of them do.
-/

namespace Graft

variable {directory : Path} {format : Format} {generated : List Path} {d d' : Disk Contents}

/-! ### Selecting -/

/-- The place that is written when the artifact of a generated tree is merged, and what is written
there. -/
def batchWrite? (directory : Path) (format : Format) (d : Disk Contents) (g : Path) :
    Option (Location × Contents) :=
  written? (.ofGenerated g) (outputOf directory format g) format d

/-- A batch writes an artifact where its output is, and nowhere else. -/
lemma place?_of_batchWrite? {g : Path} {w : Location × Contents}
    (h : batchWrite? directory format d g = some w) :
    d.place? (outputOf directory format g) = some w.1 := by
  obtain ⟨r, -, hplace, -⟩ := written?_eq_some_iff.1 h
  exact hplace

/-- The disk after the artifacts of these generated trees were merged. -/
def diskAfter (directory : Path) (format : Format) (d : Disk Contents) (gs : List Path) :
    Disk Contents :=
  (onDisk (writeArtifacts directory format gs) d).2

/-- Which of the artifacts were merged with success. -/
def successes (directory : Path) (format : Format) (d : Disk Contents) (gs : List Path) :
    List Bool :=
  (onDisk (writeArtifacts directory format gs) d).1.map fun x => x.2.outcome.isOk

/-- The first artifact is written to the disk on which the others are renewed. -/
lemma onDisk_writeArtifacts_cons (g : Path) (gs : List Path) :
    onDisk (writeArtifacts directory format (g :: gs)) d =
      let first := onDisk
        (writeArtifact (.ofGenerated g) (outputOf directory format g) format) d
      let rest := onDisk (writeArtifacts directory format gs) first.2
      ((g, first.1) :: rest.1, rest.2) := rfl

@[simp]
lemma diskAfter_nil : diskAfter directory format d [] = d := rfl

/-- What is written for one artifact can be read for the next. -/
lemma diskAfter_cons (g : Path) (gs : List Path) :
    diskAfter directory format d (g :: gs) =
      diskAfter directory format (d.putAll (batchWrite? directory format d g).toList) gs := by
  show (onDisk (writeArtifacts directory format gs)
    (onDisk (writeArtifact (.ofGenerated g) (outputOf directory format g) format) d).2).2 = _
  rw [(onDisk_writeArtifact _ _ format d).1]
  rfl

@[simp]
lemma successes_nil : successes directory format d [] = [] := rfl

lemma successes_cons (g : Path) (gs : List Path) :
    successes directory format d (g :: gs) =
      (batchWrite? directory format d g).isSome ::
        successes directory format (d.putAll (batchWrite? directory format d g).toList) gs := by
  obtain ⟨hdisk, hok⟩ :=
    onDisk_writeArtifact (.ofGenerated g) (outputOf directory format g) format d
  rw [successes, onDisk_writeArtifacts_cons, List.map_cons, hdisk, hok]
  rfl

end Graft
