import Graft.Disk.Basic
import Graft.Proofs.Disk.Names
import Mathlib.Data.List.Induction

/-!
# Where paths lead

A path leads to a place if its last part is a name that is looked up in a directory, where a file
stands or nothing does. Which place that is depends only on the directories.
-/

namespace Graft

/-- The contents of the file that stands there, if it is a file. -/
def Standing.contents? {α : Type} : Standing α → Option α
  | .file _ c => some c
  | _ => none

namespace Disk

variable {α : Type} {d d' : Disk α}

/-! ### Locations -/

lemma standingAt_of_some {l : Location} {c : α} (h : d.files.lookup l = some c) :
    d.standingAt l = .file l c := by
  simp [standingAt, h]

/-- Where no file is, there is a directory or nothing. -/
lemma standingAt_of_none {l : Location} (h : d.files.lookup l = none) :
    d.standingAt l = if l.names = [] ∨ l ∈ d.directories then .directory l else .missing := by
  simp [standingAt, h]

/-- What stands at a location stands there under its own name. -/
lemma standingAt_eq_file_iff {l k : Location} {c : α} :
    d.standingAt l = .file k c ↔ l = k ∧ d.files.lookup l = some c := by
  cases h : d.files.lookup l with
  | some c' => simp [standingAt_of_some h]
  | none =>
    rw [standingAt_of_none h]
    split <;> simp

lemma standingAt_eq_directory_iff {l k : Location} :
    d.standingAt l = .directory k ↔
      l = k ∧ d.files.lookup l = none ∧ (l.names = [] ∨ l ∈ d.directories) := by
  cases h : d.files.lookup l with
  | some c => simp [standingAt_of_some h]
  | none =>
    rw [standingAt_of_none h]
    split <;> simp [*]

/-- Nothing is too long to be looked up once it has a location. -/
lemma standingAt_cases (d : Disk α) (l : Location) :
    d.standingAt l = .missing ∨ d.standingAt l = .directory l ∨
      ∃ c, d.standingAt l = .file l c := by
  cases h : d.files.lookup l with
  | some c => exact .inr (.inr ⟨c, standingAt_of_some h⟩)
  | none =>
    rw [standingAt_of_none h]
    split <;> simp

/-! ### Following a path -/

/-- A part of a path that is the name of something in a directory. -/
def IsName (piece : String) : Prop :=
  piece ≠ "" ∧ piece ≠ "." ∧ piece ≠ ".." ∧ piece.utf8ByteSize ≤ maxNameBytes

/-- From a directory a name leads to what stands inside it. -/
lemma enter_of_isName {here : Location} {piece : String} (h : IsName piece) :
    d.enter (.directory here) piece = d.standingAt (here.inner piece) := by
  obtain ⟨hempty, hdot, hdots, hsize⟩ := h
  simp [enter, hempty, hdot, hdots, Nat.not_lt.2 hsize]

/-- What is no name leads to a directory or is too long, whatever the disk. -/
theorem enter_of_not_isName (here : Location) {piece : String} (h : ¬ IsName piece) :
    (∃ l, ∀ d : Disk α, d.enter (.directory here) piece = .directory l) ∨
      ∀ d : Disk α, d.enter (.directory here) piece = .tooLong := by
  by_cases hstay : piece = "" ∨ piece = "."
  · exact .inl ⟨here, fun d => by simp [enter, hstay]⟩
  by_cases hup : piece = ".."
  · exact .inl ⟨here.parent, fun d => by simp [enter, hup]⟩
  have hsize : maxNameBytes < piece.utf8ByteSize := by
    rw [not_or] at hstay
    exact Nat.lt_of_not_le fun hle => h ⟨hstay.1, hstay.2, hup, hle⟩
  exact .inr fun d => by simp [enter, hstay, hup, hsize]

/-- Pieces that are no names lead to the same place on every disk. -/
lemma enter_congr_of_not_isName (here : Location) {piece : String} (h : ¬ IsName piece) :
    d'.enter (.directory here) piece = d.enter (.directory here) piece := by
  obtain ⟨l, hl⟩ | hlong := enter_of_not_isName (α := α) here h
  · rw [hl, hl]
  · rw [hlong, hlong]

/-- Only a name leads to a file or to nothing. -/
theorem isName_of_enter {here : Location} {piece : String} {s : Standing α}
    (h : d.enter (.directory here) piece = s) (hs : s = .missing ∨ s.isFile) : IsName piece := by
  by_contra hname
  obtain ⟨l, hl⟩ | hlong := enter_of_not_isName (α := α) here hname
  · rw [hl] at h
    subst h
    simp [Standing.isFile] at hs
  · rw [hlong] at h
    subst h
    simp [Standing.isFile] at hs

/-- Only directories can be entered. -/
lemma eq_directory_of_enter_eq {here : Standing α} {piece : String} {s : Standing α}
    (h : d.enter here piece = s) (hs : s.isThere) : ∃ k, here = .directory k := by
  subst h
  cases here with
  | directory k => exact ⟨k, rfl⟩
  | _ => cases hs

/-- Every directory of `d` is one of `d'` as well. -/
def KeepsDirectories (d d' : Disk α) : Prop :=
  ∀ l, d.standingAt l = .directory l → d'.standingAt l = .directory l

/-- A path through directories is still there if they are. -/
lemma KeepsDirectories.enter (h : d.KeepsDirectories d') {here : Standing α} {piece : String}
    {l : Location} (hl : d.enter here piece = .directory l) :
    d'.enter here piece = .directory l := by
  obtain ⟨k, rfl⟩ := eq_directory_of_enter_eq hl rfl
  by_cases hname : IsName piece
  · rw [enter_of_isName hname] at hl ⊢
    obtain ⟨rfl, -⟩ := standingAt_eq_directory_iff.1 hl
    exact h _ hl
  · rw [enter_congr_of_not_isName k hname]
    exact hl

/-- A walk that ends in a directory ends in the same one wherever the directories are kept. -/
theorem KeepsDirectories.walk (h : d.KeepsDirectories d') {here : Standing α} {ps : List String}
    {l : Location} (hl : ps.foldl d.enter here = .directory l) :
    ps.foldl d'.enter here = .directory l := by
  induction ps using List.reverseRecOn generalizing l with
  | nil => exact hl
  | append_singleton ps piece ih =>
    rw [List.foldl_append, List.foldl_cons, List.foldl_nil] at hl ⊢
    obtain ⟨k, hk⟩ := eq_directory_of_enter_eq hl rfl
    rw [ih hk]
    rw [hk] at hl
    exact h.enter hl

lemma exists_pieces (p : Path) : ∃ qs name, p.pieces = qs ++ [name] := by
  have hne : p.pieces ≠ [] := by simp [Path.pieces]
  exact ⟨_, _, (List.dropLast_concat_getLast hne).symm⟩

/-- Where the file at a path stands, or would stand if there were one. -/
def place? (d : Disk α) (p : Path) : Option Location :=
  match p.pieces.dropLast.foldl d.enter (startOf p), p.pieces.getLast? with
  | .directory here, some name =>
    match d.enter (.directory here) name with
    | .missing | .file .. => some (here.inner name)
    | _ => none
  | _, _ => none

/-- A path leads where its last piece does, from where the others lead. -/
lemma standing_of_pieces {p : Path} {qs : List String} {name : String}
    (hp : p.pieces = qs ++ [name]) :
    d.standing p = d.enter (qs.foldl d.enter (startOf p)) name := by
  rw [standing, hp, List.foldl_append, List.foldl_cons, List.foldl_nil]

/-- A place for a file is a name in a directory, where no directory stands. -/
lemma place?_eq_some_iff {p : Path} {qs : List String} {name : String}
    (hp : p.pieces = qs ++ [name]) {l : Location} :
    d.place? p = some l ↔ ∃ here, qs.foldl d.enter (startOf p) = .directory here ∧
      IsName name ∧ here.inner name = l ∧ d.standingAt l ≠ .directory l := by
  rw [place?, hp, List.dropLast_concat, List.getLast?_concat]
  constructor
  · intro h
    split at h
    · next here name' hwalk hlast =>
      cases hlast
      cases hs : d.enter (.directory here) name with
      | missing | file k c =>
        have hname := isName_of_enter hs (by simp [Standing.isFile])
        rw [hs] at h
        cases h
        rw [enter_of_isName hname] at hs
        exact ⟨here, hwalk, hname, rfl, by simp [hs]⟩
      | _ =>
        rw [hs] at h
        cases h
    · cases h
  · rintro ⟨here, hwalk, hname, rfl, hdir⟩
    simp only [hwalk, enter_of_isName hname]
    obtain hs | hs | ⟨c, hs⟩ := standingAt_cases d (here.inner name)
    · simp [hs]
    · exact absurd hs hdir
    · simp [hs]

/-- What stands at a path that leads to a place is what stands there. -/
theorem standing_of_place? {p : Path} {l : Location} (h : d.place? p = some l) :
    d.standing p = d.standingAt l := by
  obtain ⟨qs, name, hp⟩ := exists_pieces p
  obtain ⟨here, hwalk, hname, rfl, -⟩ := (place?_eq_some_iff hp).1 h
  rw [standing_of_pieces hp, hwalk, enter_of_isName hname]

/-- A path at which a file stands leads to the place of that file. -/
theorem place?_of_standing {p : Path} {l : Location} {c : α} (h : d.standing p = .file l c) :
    d.place? p = some l := by
  obtain ⟨qs, name, hp⟩ := exists_pieces p
  rw [standing_of_pieces hp] at h
  obtain ⟨here, hwalk⟩ := eq_directory_of_enter_eq h rfl
  rw [hwalk] at h
  have hname := isName_of_enter h (.inr rfl)
  rw [enter_of_isName hname] at h
  obtain ⟨rfl, -⟩ := standingAt_eq_file_iff.1 h
  exact (place?_eq_some_iff hp).2 ⟨here, hwalk, hname, rfl, by simp [h]⟩

lemma not_directory_of_place? {p : Path} {l : Location} (h : d.place? p = some l) :
    d.standingAt l ≠ .directory l := by
  obtain ⟨qs, name, hp⟩ := exists_pieces p
  obtain ⟨here, -, -, -, hdir⟩ := (place?_eq_some_iff hp).1 h
  exact hdir

/-- Where the directories are the same, every path leads to the same place. -/
theorem place?_congr (h : d.KeepsDirectories d') (h' : d'.KeepsDirectories d) (p : Path) :
    d'.place? p = d.place? p := by
  obtain ⟨qs, name, hp⟩ := exists_pieces p
  refine Option.ext fun l => ?_
  rw [place?_eq_some_iff hp, place?_eq_some_iff hp]
  constructor
  · rintro ⟨here, hwalk, hname, hl, hdir⟩
    exact ⟨here, h'.walk hwalk, hname, hl, mt (h l) hdir⟩
  · rintro ⟨here, hwalk, hname, hl, hdir⟩
    exact ⟨here, h.walk hwalk, hname, hl, mt (h' l) hdir⟩

/-- What is read at a path is what is in the file at its place. -/
lemma contents?_standing {p : Path} :
    (d.standing p).contents? = (d.place? p).bind fun l => (d.standingAt l).contents? := by
  cases hplace : d.place? p with
  | some l => rw [standing_of_place? hplace, Option.bind_some]
  | none =>
    cases hs : d.standing p with
    | file l c =>
      rw [place?_of_standing hs] at hplace
      cases hplace
    | _ => rfl

/-- The files at two paths are one file, or would be if there were any. -/
def SamePlace (d : Disk α) (p q : Path) : Prop :=
  d.place? p ≠ none ∧ d.place? p = d.place? q

instance (d : Disk α) (p q : Path) : Decidable (d.SamePlace p q) :=
  inferInstanceAs (Decidable (_ ∧ _))

end Disk

end Graft
