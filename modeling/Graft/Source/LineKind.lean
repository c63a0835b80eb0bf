import Graft.Text.Space
import Graft.Text.Word

/-!
# Kinds of source lines

Between two members stand blank lines, comments, attributes and the markers of fold regions. Such a
line is told by what it starts with after its indentation, which is made of spaces and tabs only.
Every other line is code.
-/

namespace Graft.Source

/-- What a line of the source is. -/
inductive LineKind where
  /-- Spaces and tabs. -/
  | blank
  /-- Nothing but a comment. -/
  | comment
  /-- It starts with an attribute. -/
  | attribute
  /-- A fold region of this name opens. -/
  | foldOpening (name : List Char)
  /-- A fold region closes. -/
  | foldClosing
  | code
deriving DecidableEq, Repr

/-! ### Indentation -/

/-- Spaces and tabs. -/
def isIndent (c : Char) : Bool :=
  c == ' ' || c == '\t'

/-- The text without the spaces and tabs at its start. -/
def dropIndent (s : List Char) : List Char :=
  s.dropWhile isIndent

/-- The text without the spaces and tabs at both ends. -/
def trimIndent (s : List Char) : List Char :=
  ((dropIndent s).reverse.dropWhile isIndent).reverse

/-- Indentation is white space. -/
theorem isSpace_of_isIndent {c : Char} (h : isIndent c = true) : Text.isSpace c = true := by
  simp only [isIndent, Bool.or_eq_true, beq_iff_eq] at h
  rcases h with rfl | rfl <;> decide

/-! ### Classification -/

/-- What follows a word at the start of a text, unless the text continues the word. -/
def afterWord? (word text : List Char) : Option (List Char) :=
  if word.isPrefixOf text then
    match text.drop word.length with
    | [] => some []
    | c :: cs => if Text.isWordChar c then none else some (c :: cs)
  else
    none

/-- The kind of a line. -/
def lineKind (line : List Char) : LineKind :=
  match dropIndent line with
  | [] => .blank
  | '/' :: '/' :: _ => .comment
  | '[' :: _ => .attribute
  | text =>
    match afterWord? "#region".toList text, afterWord? "#endregion".toList text with
    | some name, _ => .foldOpening (trimIndent name)
    | none, some _ => .foldClosing
    | none, none => .code

/-- A line of spaces and tabs. -/
def isBlank (line : List Char) : Bool :=
  lineKind line = .blank

/-- A line that holds a comment only. -/
def isComment (line : List Char) : Bool :=
  lineKind line = .comment

/-- A line that may stand between two members and belongs to the body of neither. -/
def isNoise (line : List Char) : Bool :=
  lineKind line ≠ .code

@[simp]
theorem isBlank_nil : isBlank [] = true := rfl

/-- A line is blank exactly when it is all indentation. -/
theorem isBlank_iff {line : List Char} : isBlank line = true ↔ ∀ c ∈ line, isIndent c = true := by
  have h : dropIndent line = [] ↔ ∀ c ∈ line, isIndent c = true := by
    induction line with
    | nil => simp [dropIndent]
    | cons c cs ih => by_cases hc : isIndent c <;> simp_all [dropIndent]
  rw [← h, isBlank, decide_eq_true_eq, lineKind]
  split
  · simp [*]
  · simp [*]
  · simp [*]
  · next ne _ _ =>
    constructor
    · split <;> simp
    · exact fun e => absurd e ne

/-- A blank line trims to the empty text. -/
theorem trim_of_isBlank {line : List Char} (h : isBlank line = true) : Text.trim line = [] := by
  rw [isBlank_iff] at h
  have : Text.trimStart line = [] := by
    induction line with
    | nil => rfl
    | cons c cs ih =>
      have hc := isSpace_of_isIndent (h c (List.mem_cons_self ..))
      simpa [Text.trimStart, hc] using ih fun d hd => h d (List.mem_cons_of_mem _ hd)
  simp [Text.trim, this]

end Graft.Source
