import Graft.Disk.Host
import Graft.Proofs.Disk.Writing

/-!
# Creating directories

What computations do on a disk, and what is there after a directory has been created with all
directories on the way: the directory, and the files there were.
-/

namespace Graft

/-- What a computation gives on a disk, and the disk after it. -/
def onDisk {α : Type} (x : StateM (Disk Contents) α) (d : Disk Contents) : α × Disk Contents :=
  x d

section

variable {α β : Type} {d : Disk Contents}

@[simp]
lemma onDisk_bind (x : StateM (Disk Contents) α) (f : α → StateM (Disk Contents) β) :
    onDisk (x >>= f) d = onDisk (f (onDisk x d).1) (onDisk x d).2 := rfl

@[simp]
lemma onDisk_look (ps : List Path) : onDisk (Host.look ps) d = (d.standing, d) := rfl

lemma onDisk_write_of_ok {p : Path} {s : String} {d' : Disk Contents}
    (h : d.write p (.text s) = .ok d') : onDisk (Host.write p s) d = (.ok (), d') := by
  show Disk.change (fun d => d.write p (.text s)) d = _
  rw [Disk.change, h]

lemma onDisk_write_of_error {p : Path} {s : String} {e : DiskFault}
    (h : d.write p (.text s) = .error e) : onDisk (Host.write p s) d = (.error e, d) := by
  show Disk.change (fun d => d.write p (.text s)) d = _
  rw [Disk.change, h]

end

namespace Disk

/-! ### One directory -/

section

variable {α : Type} {d d' : Disk α}

end

/-! ### Directories on the way -/

variable {d : Disk Contents}

end Disk

end Graft
