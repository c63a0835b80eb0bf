import Graft.Command.Arguments

/-!
# The command line program

Runs a command on the files of the system. The result goes to the standard output, the log and the
causes of a failure to the standard error stream.
-/

namespace Graft

/-! ### The system's files -/

/-- Whether an error has this code, which some calls report negated. -/
def hasCode (reported code : UInt32) : Bool :=
  reported = code || reported = 0 - code

/-- The fault that the system reports. -/
def faultOf (e : IO.Error) : DiskFault :=
  match e with
  | .noFileOrDirectory .. => .notFound
  | .alreadyExists .. => .exists
  | .inappropriateType _ code _ => if hasCode code 21 then .isADirectory else .notADirectory
  | .invalidArgument _ code _ => if hasCode code 36 then .nameTooLong else .other (toString e)
  | e => .other (toString e)

/-- What the bytes of a file hold. -/
def Contents.ofBytes (bytes : ByteArray) : Contents :=
  match String.fromUTF8? bytes with
  | some s => .text s
  | none => .binary bytes.toList

/-- The entry of the system at a path from the working directory. -/
def entryAt (p : Path) : IO.FS.DirEntry :=
  ⟨".", p.text⟩

/-- What stands at a path of the system. -/
def lookAt (p : Path) : IO (Standing Contents) := do
  if p.text = "" then
    return .missing
  let path := (entryAt p).path
  let location : Location := { names := p.pieces }
  if ← path.isDir then
    return .directory location
  try
    return .file location (.ofBytes (← IO.FS.readBinFile path))
  catch e =>
    match faultOf e with
    | .notFound => return .missing
    | .nameTooLong => return .tooLong
    | _ => return .blocked

/-- Add everything below a directory to a listing. Links are not followed. -/
partial def listBelow (location : Location) (d : Disk Unit) : IO (Disk Unit) := do
  let mut d := d
  for entry in ← (entryAt ⟨"/".intercalate location.names⟩).path.readDir do
    let inner := location.inner entry.fileName
    if (← entry.path.symlinkMetadata).type == .dir then
      d ← listBelow inner { d with directories := d.directories ++ [inner] }
    else
      d := { d with files := d.files ++ [(inner, ())] }
  return d

/-- Do something, and turn an exception into a fault. -/
def attempt (act : IO Unit) : IO (Except DiskFault Unit) := do
  try
    act
    return .ok ()
  catch e =>
    return .error (faultOf e)

instance : Host IO where
  look ps := do
    let standings ← ps.mapM fun p => return (p, ← lookAt p)
    return fun p => (standings.lookup p).getD .missing
  listing := listBelow .working {}
  write p s := attempt (IO.FS.writeFile (entryAt p).path s)
  makeDirectory p := attempt (IO.FS.createDir (entryAt p).path)

/-! ### The program -/

/-- How the program is called. -/
def usage : String :=
  "Merge generated declarations into hand-edited source artifacts\n\n" ++
  "Usage: graft [-f FORMAT] COMMAND\n\n" ++
  "  merge --generated TREE [--existing ARTIFACT [--existing-tree TREE]] [-o FILE]\n" ++
  "      Merge one generated tree into one existing artifact\n" ++
  "  batch -o DIRECTORY PATTERN...\n" ++
  "      Merge every generated tree that the files, directories or patterns select\n\n" ++
  "  -f, --format FORMAT   json (default) or outline\n"

end Graft

open Graft in
/-- Run the command that the arguments ask for. -/
def main (arguments : List String) : IO UInt32 := do
  match CommandLine.ofArguments arguments with
  | .help =>
    IO.print usage
    return 0
  | .rejected =>
    IO.eprint usage
    return 2
  | .run invocation =>
    let shown := ((← IO.getEnv "GRAFT_LOG").bind LogLevel.ofName?).getD .info
    let result ← (invocation.run : IO CommandResult)
    for line in result.logLines shown do
      IO.eprintln line
    IO.print result.output
    match result.causes with
    | [] => pure ()
    | cause :: causes =>
      IO.eprintln ("Error: " ++ cause)
      for cause in causes do
        IO.eprintln ("  " ++ cause)
    return UInt32.ofNat result.exitCode
