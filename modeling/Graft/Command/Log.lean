import Graft.Disk.Path
import Graft.Renewal

/-!
# The log

What a command says while it works. Each entry has a level, and a log is shown up to a level: the
entries of that level and of the more serious ones.
-/

namespace Graft

/-- How important a log entry is, the most serious level first. -/
inductive LogLevel where
  | error
  | warn
  | info
  | debug
deriving DecidableEq, Repr, Inhabited

namespace LogLevel

/-- The level's place, counted from the most serious one. -/
def rank : LogLevel → Nat
  | .error => 0
  | .warn => 1
  | .info => 2
  | .debug => 3

/-- The name in front of an entry. -/
def text : LogLevel → String
  | .error => "ERROR"
  | .warn => "WARN"
  | .info => "INFO"
  | .debug => "DEBUG"

/-- The level of that name. -/
def ofName? (name : String) : Option LogLevel :=
  [("error", error), ("warn", .warn), ("info", .info), ("debug", .debug), ("trace", .debug)].lookup
    name

/-- Whether a log that is shown up to this level shows entries of another one. -/
def shows (shown level : LogLevel) : Bool :=
  level.rank ≤ shown.rank

end LogLevel

/-! ### Control characters -/

/-- Whether a terminal may take a character for the start of a command. -/
def isTerminalControl (c : Char) : Bool :=
  c == '\x07' || c == '\x08' || c == '\x0c' || c == '\x1b' || c == '\x7f' ||
    ('\u0080' ≤ c && c ≤ '\u009f')

/-- The code of a character with a backslash, in place of the character. -/
def controlCode (c : Char) : String :=
  let digits := String.ofList (Nat.toDigits 16 c.toNat)
  if c.toNat < 0x10 then "\\x0" ++ digits
  else if c.toNat < 0x80 then "\\x" ++ digits
  else "\\u\x7b" ++ digits ++ "\x7d"

/-- The text without characters that a terminal may take for commands. -/
def harmless (s : String) : String :=
  String.join <| s.toList.map fun c =>
    if isTerminalControl c then controlCode c else String.singleton c

/-! ### Entries -/

/-- A detail of an entry. It is shown as it is. -/
structure LogField where
  name : String
  value : String
deriving DecidableEq, Repr

/-- A detail behind its name. -/
def LogField.text (f : LogField) : String :=
  s!"{f.name}={f.value}"

/-- An entry of the log. -/
inductive LogEntry where
  /-- A step of a renewal. -/
  | step (step : Renewal.Step)
  /-- The artifact to be merged into is not there. -/
  | noArtifactYet (artifact : Path)
  /-- A diagnostic about an artifact. -/
  | diagnostic (artifact : Path) (diagnostic : Diagnostic)
  /-- An artifact was merged. -/
  | merged (artifact : Path) (changes : List Change)
  /-- A pattern selected nothing. -/
  | nothingMatched (pattern : String)
  /-- An artifact of a batch was skipped, for these causes, the outermost first. -/
  | skipped (artifact : Path) (causes : List String)
  /-- How many artifacts of a batch were merged. -/
  | tally (merged total : Nat)
deriving DecidableEq, Repr

/-- The level of a step. -/
def Renewal.Step.level : Renewal.Step → LogLevel
  | .recovering _ | .merging _ => .debug
  | .nothingExists | .merged .. => .info

/-- What a step says. -/
def Renewal.Step.message : Renewal.Step → String
  | .recovering _ => "extracting"
  | .merging _ => "merge"
  | .nothingExists => "no existing artifact, emitting generated tree"
  | .merged changes .. => s!"merged: {Change.tally changes}"

/-- The details of a step. -/
def Renewal.Step.fields : Renewal.Step → List LogField
  | .recovering s =>
    [⟨"member", s.member⟩, ⟨"kind", s.kind.text⟩, ⟨"start", toString s.start⟩,
      ⟨"end", toString s.stop⟩, ⟨"depth", toString s.depth⟩]
  | .merging change => [⟨"event", change.text⟩]
  | .nothingExists => []
  | .merged _ lines diagnostics problems =>
    [⟨"lines", toString lines⟩, ⟨"diagnostics", toString diagnostics⟩,
      ⟨"problems", toString problems⟩]

namespace LogEntry

/-- The level of an entry. A diagnostic that is no problem is of the lowest. -/
def level : LogEntry → LogLevel
  | .step s => s.level
  | .noArtifactYet _ | .merged .. | .tally .. => .info
  | .diagnostic _ d => if d.severity.isProblem then .warn else .debug
  | .nothingMatched _ => .warn
  | .skipped .. => .error

/-- What an entry says. -/
def message : LogEntry → String
  | .step s => s.message
  | .noArtifactYet _ => "no existing artifact yet"
  | .diagnostic _ d => d.text
  | .merged _ changes => Change.tally changes
  | .nothingMatched pattern => s!"no files matched: {pattern}"
  | .skipped _ causes => "skipped: " ++ ": ".intercalate causes
  | .tally done total => s!"{done} of {total} artifacts merged"

/-- The details of an entry. -/
def fields : LogEntry → List LogField
  | .step s => s.fields
  | .noArtifactYet artifact | .diagnostic artifact _ | .merged artifact _ | .skipped artifact _ =>
    [⟨"artifact", artifact.text⟩]
  | .nothingMatched _ | .tally .. => []

/-- The line of an entry: its level, what it says, and its details. -/
def text (e : LogEntry) : String :=
  " ".intercalate (e.level.text :: harmless e.message :: e.fields.map LogField.text)

end LogEntry

end Graft
