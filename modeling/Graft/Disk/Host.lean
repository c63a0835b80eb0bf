import Graft.Disk.Basic

/-!
# Where commands run

What a command needs of the system it runs on. A disk in memory is such a system, so that what is
said of a command on a disk is said of the command itself.
-/

namespace Graft

/-- A system with files. -/
class Host (m : Type → Type) where
  /-- What stands at each of these paths. -/
  look : List Path → m (Path → Standing Contents)
  /-- Everything below the working directory. -/
  listing : m (Disk Unit)
  /-- Write a file. -/
  write : Path → String → m (Except DiskFault Unit)
  /-- Create a directory inside one that is there. -/
  makeDirectory : Path → m (Except DiskFault Unit)

namespace Disk

/-- A change of the disk; one that is refused leaves the disk as it was. -/
def change (f : Disk Contents → Except DiskFault (Disk Contents)) :
    StateM (Disk Contents) (Except DiskFault Unit) := fun d =>
  match f d with
  | .ok d => (.ok (), d)
  | .error e => (.error e, d)

instance : Host (StateM (Disk Contents)) where
  look _ := fun d => (d.standing, d)
  listing := fun d => (d.listing, d)
  write p s := change fun d => d.write p (.text s)
  makeDirectory p := change fun d => d.makeDirectory p

end Disk

/-! ### Directories on the way -/

section

variable {m : Type → Type} [Monad m] [Host m]

/-- A directory that could not be created because it is there already is as good as a new one. -/
def acceptExisting (p : Path) (made : Except DiskFault Unit) : m (Except DiskFault Unit) := do
  match made with
  | .ok () => pure (.ok ())
  | .error fault =>
    let look ← Host.look [p]
    pure (if (look p).isDirectory then .ok () else .error fault)

/-- Create the first of these directories, each of which is inside the next one. The next one is
created only if it turns out to be missing. -/
def makeInnermost : List Path → m (Except DiskFault Unit)
  | [] => pure (.ok ())
  | p :: parents => do
    match ← Host.makeDirectory p with
    | .error .notFound =>
      match ← makeInnermost parents with
      | .error fault => pure (.error fault)
      | .ok () => acceptExisting p (← Host.makeDirectory p)
    | made => acceptExisting p made

/-- Create a directory with all directories on the way. -/
def makeDirectories (p : Path) : m (Except DiskFault Unit) :=
  makeInnermost p.ancestors

end

end Graft
