/-!
# Diagnostics

Warnings and notes about a source artifact, each with the line it is about where there is one.
-/

namespace Graft

/-- How serious a diagnostic is. -/
inductive Severity where
  | note
  | warning
  | error
deriving DecidableEq, Repr, Inhabited

/-- The name of a severity in messages. -/
def Severity.text : Severity → String
  | .note => "note"
  | .warning => "warning"
  | .error => "error"

/-- Whether something of this severity is a problem: a note is none. -/
def Severity.isProblem : Severity → Bool
  | .note => false
  | .warning | .error => true

/-- One remark about a source artifact. -/
structure Diagnostic where
  severity : Severity
  line : Option UInt64 := none
  message : String
deriving DecidableEq, Repr, Inhabited

namespace Diagnostic

/-- A warning. -/
def warning (line : Option UInt64) (message : String) : Diagnostic :=
  { severity := .warning, line, message }

/-- A note. -/
def note (line : Option UInt64) (message : String) : Diagnostic :=
  { severity := .note, line, message }

/-- The diagnostic as one line of text. -/
def text (d : Diagnostic) : String :=
  match d.line with
  | some n => s!"{d.severity.text}: line {n}: {d.message}"
  | none => s!"{d.severity.text}: {d.message}"

end Diagnostic

/-- Whether one of the diagnostics is a problem. -/
def anyProblem (ds : List Diagnostic) : Bool :=
  ds.any (·.severity.isProblem)

end Graft
