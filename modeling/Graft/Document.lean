import Graft.Text.Lines

/-!
# Documents

The text of one source artifact, cut into lines. Lines are counted from 1, and a range of lines
`[start, stop)` may reach past either end of the document: it then means the lines that exist.
-/

namespace Graft

/-- A text together with its lines. -/
structure Document where
  text : String
  lines : List String
  lines_eq : lines = (Text.lines text.toList).map String.ofList := by rfl
deriving DecidableEq

namespace Document

/-- Cut a text into lines. -/
def ofText (text : String) : Document where
  text := text
  lines := (Text.lines text.toList).map String.ofList

/-- The document with these lines, each ended by a line feed. -/
def ofLines (lines : List String) (h : ∀ l ∈ lines, '\n' ∉ l.toList := by decide)
    (hr : ∀ l ∈ lines, l.toList.getLast? ≠ some '\r' := by decide) : Document where
  text := String.ofList (Text.endLines (lines.map String.toList))
  lines := lines
  lines_eq := by
    rw [String.toList_ofList, Text.lines_endLines (by simpa using h) (by simpa using hr)]
    simp

/-- How many lines there are. -/
def size (d : Document) : Nat :=
  d.lines.length

/-- The line with number `n`, the first one being number 1. -/
def line? (d : Document) : Nat → Option String
  | 0 => none
  | n + 1 => d.lines[n]?

/-- The lines from number `start` on and before number `stop`, as far as they exist. -/
def between (d : Document) (start stop : Nat) : List String :=
  (d.lines.take (stop - 1)).drop (start - 1)

@[simp]
theorem text_ofText (text : String) : (ofText text).text = text := rfl

@[simp]
theorem line?_zero (d : Document) : d.line? 0 = none := rfl

@[simp]
theorem line?_succ (d : Document) (n : Nat) : d.line? (n + 1) = d.lines[n]? := rfl

/-- A line is there exactly when its number is between 1 and the number of lines. -/
theorem isSome_line?_iff (d : Document) (n : Nat) :
    (d.line? n).isSome ↔ 1 ≤ n ∧ n ≤ d.size := by
  cases n with
  | zero => simp
  | succ n =>
    rw [line?_succ, isSome_getElem?]
    simp only [size]
    omega

/-- A range of lines is cut in two at any line within it. -/
theorem between_append (d : Document) {start middle stop : Nat} (h₁ : start ≤ middle)
    (h₂ : middle ≤ stop) :
    d.between start middle ++ d.between middle stop = d.between start stop := by
  apply List.ext_getElem?
  intro i
  simp only [between, List.getElem?_append, List.getElem?_drop, List.getElem?_take,
    List.length_drop, List.length_take]
  grind

/-- A range of one line that exists. -/
theorem between_succ {d : Document} {n : Nat} {l : String} (h : d.line? n = some l) :
    d.between n (n + 1) = [l] := by
  cases n with
  | zero => cases h
  | succ n =>
    obtain ⟨hn, rfl⟩ := List.getElem?_eq_some_iff.1 h
    simp [between, List.take_add_one, Nat.min_eq_left (Nat.le_of_lt hn)]

/-- A range that ends before it starts has no lines. -/
theorem between_of_le (d : Document) {start stop : Nat} (h : stop ≤ start) :
    d.between start stop = [] := by
  rw [between, List.drop_eq_nil_iff, List.length_take]
  omega

theorem between_self (d : Document) (n : Nat) : d.between n n = [] :=
  d.between_of_le (Nat.le_refl n)

/-- No line of a document holds a line feed. -/
theorem not_mem_of_mem_lines {d : Document} {l : String} (h : l ∈ d.lines) : '\n' ∉ l.toList := by
  rw [d.lines_eq] at h
  obtain ⟨k, hk, rfl⟩ := List.mem_map.1 h
  rw [String.toList_ofList]
  exact Text.not_mem_of_mem_lines hk

theorem mem_between_of_le {d : Document} {start stop stop' : Nat} {l : String} (h : stop ≤ stop')
    (hl : l ∈ d.between start stop) : l ∈ d.between start stop' := by
  have htake : d.lines.take (stop - 1) = (d.lines.take (stop' - 1)).take (stop - 1) := by
    rw [List.take_take, Nat.min_eq_left (by omega)]
  rw [between, htake, List.drop_take] at hl
  exact List.mem_of_mem_take hl

theorem mem_lines_of_mem_between {d : Document} {start stop : Nat} {l : String}
    (h : l ∈ d.between start stop) : l ∈ d.lines :=
  List.mem_of_mem_take (List.mem_of_mem_drop h)

end Document

end Graft
