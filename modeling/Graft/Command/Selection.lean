import Graft.Command.Artifact

/-!
# Selecting generated trees

A batch is told what to merge by file names, directories and patterns, in any order and with any
overlap. What they select is put in order, each file once.
-/

namespace Graft

/-- The files of generated trees directly inside a directory. -/
def generatedInside (d : Disk Unit) (directory : Path) (location : Location) : List Path :=
  let names := Disk.namesIn location (d.files.map (·.1))
  ((names.filter (·.endsWith generatedSuffix)).map directory.join).filter fun p =>
    (d.standing p).isFile

/-- What one argument selects: a file itself, the generated trees in a directory, or the files that
match it as a pattern. -/
def selectBy (d : Disk Unit) (argument : String) : Logged (List Path) :=
  match d.standing ⟨argument⟩ with
  | .file .. => pure [⟨argument⟩]
  | .directory location => pure (generatedInside d ⟨argument⟩ location)
  | _ => do
    let matched ← Traced.ofExcept
      ((Pattern.files d argument).mapError (.invalidPattern argument))
    if matched = [] then
      Traced.record (.nothingMatched argument)
    else
      pure ()
    pure matched

/-- What the arguments select together, without order. -/
def selectAll (d : Disk Unit) : List String → Logged (List Path)
  | [] => pure []
  | argument :: rest => do
    let found ← selectBy d argument
    let more ← selectAll d rest
    pure (found ++ more)

/-- What the arguments select, in order and each file once. -/
def select (d : Disk Unit) (arguments : List String) : Logged (List Path) := do
  let found ← selectAll d arguments
  pure (Path.sortedOnce found)

end Graft
