/-!
# Lines

A text cut at its line feeds, in two ways. `pieces` keeps everything between two line feeds, so
that joining the pieces gives the text back; `lines` follows the convention of text files, where a
line feed ends a line and a carriage return before it belongs to the line end.
-/

namespace Graft.Text

/-! ### Pieces between line feeds -/

/-- Put a character in front of the first piece; a line feed opens a new one. -/
def consPiece (c : Char) (ps : List (List Char)) : List (List Char) :=
  if c = '\n' then
    [] :: ps
  else
    match ps with
    | [] => [[c]]
    | p :: ps => (c :: p) :: ps

/-- The stretches of text before, between and after the line feeds. -/
def pieces (s : List Char) : List (List Char) :=
  s.foldr consPiece [[]]

@[simp]
theorem pieces_nil : pieces [] = [[]] := rfl

@[simp]
theorem pieces_cons (c : Char) (s : List Char) : pieces (c :: s) = consPiece c (pieces s) := rfl

/-- The lines put together with one line feed between any two. -/
def joinLines (ls : List (List Char)) : List Char :=
  ['\n'].intercalate ls

@[simp]
theorem joinLines_nil : joinLines [] = [] := rfl

@[simp]
theorem joinLines_singleton (l : List Char) : joinLines [l] = l := by
  simp [joinLines, List.intercalate]

@[simp]
theorem joinLines_cons_cons (l k : List Char) (ls : List (List Char)) :
    joinLines (l :: k :: ls) = l ++ '\n' :: joinLines (k :: ls) := by
  simp [joinLines, List.intercalate]

theorem pieces_ne_nil (s : List Char) : pieces s ≠ [] := by
  cases s with
  | nil => simp
  | cons c cs => simp only [pieces_cons, consPiece]; split <;> (try split) <;> simp

/-- Joining the pieces of a text gives the text. -/
theorem joinLines_pieces (s : List Char) : joinLines (pieces s) = s := by
  induction s with
  | nil => simp
  | cons c cs ih =>
    simp only [pieces_cons, consPiece]
    cases h : pieces cs with
    | nil => exact absurd h (pieces_ne_nil cs)
    | cons p ps =>
      rw [h] at ih
      split
      · next hc => simp [ih, hc]
      · cases ps with
        | nil => simp_all
        | cons q qs => simpa using ih

/-- No piece holds a line feed. -/
theorem not_mem_of_mem_pieces {s p : List Char} (h : p ∈ pieces s) : '\n' ∉ p := by
  induction s generalizing p with
  | nil => simp_all
  | cons c cs ih =>
    simp only [pieces_cons, consPiece] at h
    split at h
    · rcases List.mem_cons.1 h with rfl | h
      · simp
      · exact ih h
    · next hc =>
      cases hp : pieces cs with
      | nil => exact absurd hp (pieces_ne_nil cs)
      | cons q qs =>
        rw [hp] at ih h
        rcases List.mem_cons.1 h with rfl | h
        · have := @ih q (List.mem_cons_self ..)
          simp [this, Ne.symm hc]
        · exact ih (List.mem_cons_of_mem _ h)

/-- A line feed divides the pieces. -/
theorem pieces_append_newline (s t : List Char) :
    pieces (s ++ '\n' :: t) = pieces s ++ pieces t := by
  induction s with
  | nil => simp [consPiece]
  | cons c cs ih =>
    rw [List.cons_append, pieces_cons, pieces_cons, ih]
    cases hp : pieces cs with
    | nil => exact absurd hp (pieces_ne_nil cs)
    | cons p ps =>
      simp only [consPiece, List.cons_append]
      split <;> rfl

theorem pieces_of_not_mem {s : List Char} (h : '\n' ∉ s) : pieces s = [s] := by
  induction s with
  | nil => rfl
  | cons c cs ih =>
    rw [List.mem_cons, not_or] at h
    rw [pieces_cons, ih h.2, consPiece, if_neg (Ne.symm h.1)]

/-- The pieces of lines put together are the lines. -/
theorem pieces_joinLines {ls : List (List Char)} (hne : ls ≠ []) (h : ∀ l ∈ ls, '\n' ∉ l) :
    pieces (joinLines ls) = ls := by
  induction ls with
  | nil => exact absurd rfl hne
  | cons l ls ih =>
    have hl := pieces_of_not_mem (h l List.mem_cons_self)
    cases ls with
    | nil => rw [joinLines_singleton, hl]
    | cons k ks =>
      rw [joinLines_cons_cons, pieces_append_newline, hl,
        ih (by simp) fun m hm => h m (List.mem_cons_of_mem l hm)]
      rfl

theorem joinLines_append {ls ks : List (List Char)} (hl : ls ≠ []) (hk : ks ≠ []) :
    joinLines (ls ++ ks) = joinLines ls ++ '\n' :: joinLines ks := by
  induction ls with
  | nil => exact absurd rfl hl
  | cons l ls ih =>
    cases ls with
    | nil =>
      cases ks with
      | nil => exact absurd rfl hk
      | cons k ks => simp
    | cons m ms =>
      have := ih (by simp)
      simp only [List.cons_append, joinLines_cons_cons, List.append_assoc] at this ⊢
      rw [this]

/-! ### Lines of a text file -/

/-- A line without the carriage return that belongs to its line end. -/
def dropReturn (l : List Char) : List Char :=
  if l.getLast? = some '\r' then l.dropLast else l

/-- The lines of a text: each line feed ends one, and what follows the last line feed is a line of
its own unless it is empty. A carriage return is dropped only where a line feed follows it. -/
def lines (s : List Char) : List (List Char) :=
  let ps := pieces s
  let unended := ps.getLast?.getD []
  ps.dropLast.map dropReturn ++ if unended = [] then [] else [unended]

@[simp]
theorem lines_nil : lines [] = [] := rfl

/-- The lines, each with a line feed behind it. -/
def endLines (ls : List (List Char)) : List Char :=
  ls.flatMap (· ++ ['\n'])

theorem pieces_endLines {ls : List (List Char)} (h : ∀ l ∈ ls, '\n' ∉ l) :
    pieces (endLines ls) = ls ++ [[]] := by
  induction ls with
  | nil => rfl
  | cons l ls ih =>
    rw [endLines, List.flatMap_cons, List.append_assoc, List.singleton_append,
      pieces_append_newline, pieces_of_not_mem (h l List.mem_cons_self)]
    rw [← endLines, ih fun k hk => h k (List.mem_cons_of_mem l hk)]
    rfl

/-- A text that ends each of these lines has these lines. -/
theorem lines_endLines {ls : List (List Char)} (h : ∀ l ∈ ls, '\n' ∉ l)
    (hr : ∀ l ∈ ls, l.getLast? ≠ some '\r') : lines (endLines ls) = ls := by
  have hmap : ls.map dropReturn = ls.map id := by
    apply List.map_congr_left
    intro l hl
    rw [dropReturn, if_neg (hr l hl), id]
  simp [lines, pieces_endLines h, hmap]

/-- No line holds a line feed. -/
theorem not_mem_of_mem_lines {s l : List Char} (h : l ∈ lines s) : '\n' ∉ l := by
  have hlast : ∀ p ∈ (pieces s).getLast?, '\n' ∉ p := fun p hp =>
    not_mem_of_mem_pieces (List.mem_of_getLast? hp)
  rcases List.mem_append.1 h with h | h
  · obtain ⟨p, hp, rfl⟩ := List.mem_map.1 h
    have hp := not_mem_of_mem_pieces (List.dropLast_subset _ hp)
    unfold dropReturn
    split
    · exact fun hm => hp (List.dropLast_subset _ hm)
    · exact hp
  · cases hg : (pieces s).getLast? with
    | none => simp [hg] at h
    | some p =>
      have hp := hlast p hg
      rw [hg, Option.getD_some] at h
      split at h
      · cases h
      · rwa [List.mem_singleton.1 h]

end Graft.Text
