import Graft.Proofs.Disk.Places

/-!
# Writing files

Writing changes what stands at the place of the path and nothing else: it replaces no directory, so
that every path leads through the same directories afterwards, to the same place.
-/

namespace Graft

namespace Disk

variable {α : Type} {d : Disk α}

/-! ### Putting contents into files -/

/-- Overwriting one file leaves the others as they are. -/
lemma lookup_map_overwrite (files : List (Location × α)) (l k : Location) (c : α) :
    (files.map fun (n, old) => (n, if n = l then c else old)).lookup k =
      (files.lookup k).map fun old => if k = l then c else old := by
  induction files with
  | nil => rfl
  | cons f files ih =>
    obtain ⟨n, old⟩ := f
    by_cases hk : k = n
    · subst hk
      simp
    · simp [List.lookup_cons, beq_eq_false_iff_ne.2 hk, ih]

/-- After a write the file has its new contents, and every other file its old ones. -/
lemma lookup_put (d : Disk α) (l k : Location) (c : α) :
    (d.put l c).files.lookup k = if k = l then some c else d.files.lookup k := by
  unfold put
  cases h : d.files.lookup l with
  | some old =>
    rw [lookup_map_overwrite]
    split
    · next hk => simp [hk, h]
    · simp
  | none =>
    rw [List.lookup_append, List.lookup_cons]
    by_cases hk : k = l
    · simp [hk, h]
    · simp [hk, beq_eq_false_iff_ne.2 hk]

@[simp]
lemma directories_put (d : Disk α) (l : Location) (c : α) :
    (d.put l c).directories = d.directories := by
  unfold put
  split <;> rfl

/-- A write changes what stands at one location only. -/
lemma standingAt_put (d : Disk α) (l k : Location) (c : α) :
    (d.put l c).standingAt k = if k = l then .file k c else d.standingAt k := by
  have hlookup := lookup_put d l k c
  by_cases hk : k = l
  · rw [if_pos hk] at hlookup ⊢
    exact standingAt_of_some hlookup
  · rw [if_neg hk] at hlookup ⊢
    rw [standingAt, hlookup, directories_put]
    rfl

/-- The disk after these contents have been put into files, one after the other. -/
def putAll (d : Disk α) (writes : List (Location × α)) : Disk α :=
  writes.foldl (fun d w => d.put w.1 w.2) d

@[simp]
lemma putAll_nil (d : Disk α) : d.putAll [] = d := rfl

@[simp]
lemma putAll_cons (d : Disk α) (w : Location × α) (ws : List (Location × α)) :
    d.putAll (w :: ws) = (d.put w.1 w.2).putAll ws := rfl

/-- Writes may be split anywhere. -/
lemma putAll_append (d : Disk α) (ws vs : List (Location × α)) :
    d.putAll (ws ++ vs) = (d.putAll ws).putAll vs :=
  List.foldl_append

@[simp]
lemma directories_putAll (d : Disk α) (ws : List (Location × α)) :
    (d.putAll ws).directories = d.directories := by
  induction ws generalizing d with
  | nil => rfl
  | cons w ws ih => rw [putAll_cons, ih, directories_put]

/-- What no write touches stays as it is. -/
theorem lookup_putAll_of_notMem {ws : List (Location × α)} {l : Location}
    (h : l ∉ ws.map (·.1)) : (d.putAll ws).files.lookup l = d.files.lookup l := by
  induction ws generalizing d with
  | nil => rfl
  | cons w ws ih =>
    rw [List.map_cons, List.mem_cons, not_or] at h
    rw [putAll_cons, ih h.2, lookup_put, if_neg h.1]

lemma standingAt_putAll_of_notMem {ws : List (Location × α)} {l : Location}
    (h : l ∉ ws.map (·.1)) : (d.putAll ws).standingAt l = d.standingAt l := by
  rw [standingAt, standingAt, lookup_putAll_of_notMem h, directories_putAll]

/-- No directory stands where these contents are put. -/
def Writable (d : Disk α) (ws : List (Location × α)) : Prop :=
  ∀ w ∈ ws, d.standingAt w.1 ≠ .directory w.1

/-- What can be written can be written after a first write, which makes no directory. -/
lemma Writable.put {w : Location × α} {ws : List (Location × α)} (h : d.Writable ws) :
    (d.put w.1 w.2).Writable ws := by
  intro v hv
  rw [standingAt_put]
  split
  · simp
  · exact h v hv

lemma Writable.standingAt_eq_directory_iff {ws : List (Location × α)} (h : d.Writable ws)
    {l : Location} :
    (d.putAll ws).standingAt l = .directory l ↔ d.standingAt l = .directory l := by
  induction ws generalizing d with
  | nil => rfl
  | cons w ws ih =>
    obtain ⟨hw, hws⟩ := List.forall_mem_cons.1 h
    rw [putAll_cons, ih (Writable.put hws), standingAt_put]
    split
    · next hl => simp [hl, hw]
    · rfl

/-- Writes do not move the places of files. -/
lemma Writable.place?_putAll {ws : List (Location × α)} (h : d.Writable ws) (p : Path) :
    (d.putAll ws).place? p = d.place? p :=
  place?_congr (fun _ => h.standingAt_eq_directory_iff.2) (fun _ => h.standingAt_eq_directory_iff.1)
    p

/-- A path that leads to no place written holds what it held. -/
theorem Writable.contents?_putAll {ws : List (Location × α)} (h : d.Writable ws) {p : Path}
    (hplace : ∀ l ∈ ws.map (·.1), d.place? p ≠ some l) :
    ((d.putAll ws).standing p).contents? = (d.standing p).contents? := by
  rw [contents?_standing, contents?_standing, h.place?_putAll]
  cases hp : d.place? p with
  | none => rfl
  | some l =>
    rw [Option.bind_some, Option.bind_some,
      standingAt_putAll_of_notMem fun hl => hplace l hl hp]

/-! ### Writing -/

lemma lastStep_of_pieces {p : Path} {qs : List String} {name : String}
    (hp : p.pieces = qs ++ [name]) (hname : name ≠ "") :
    d.lastStep p = (qs.foldl d.enter (startOf p)).toDirectory.map fun here => (here, name) := by
  have hend : withoutEmptyEnd p.pieces = qs ++ [name] := by
    simp [withoutEmptyEnd, hp, hname]
  rw [lastStep, hend, List.dropLast_concat, List.getLast?_concat]
  rfl

/-- A write goes to where the last piece leads from its directory. -/
lemma write_of_walk {p : Path} {qs : List String} {name : String}
    (hp : p.pieces = qs ++ [name]) (hname : name ≠ "") {here : Location}
    (hwalk : qs.foldl d.enter (startOf p) = .directory here) (c : α) :
    d.write p c =
      match d.enter (.directory here) name with
      | .directory _ => .error .isADirectory
      | .tooLong => .error .nameTooLong
      | _ => .ok (d.put (here.inner name) c) := by
  have hstep : d.lastStep p = .ok (here, name) := by
    rw [lastStep_of_pieces hp hname, hwalk]
    rfl
  have hlast : p.pieces.getLast? ≠ some "" := by simpa [hp] using hname
  rw [write, hstep]
  exact if_neg hlast

/-- A file can be written at a path that leads to a place. -/
theorem write_of_place? {p : Path} {l : Location} (h : d.place? p = some l) (c : α) :
    d.write p c = .ok (d.put l c) := by
  obtain ⟨qs, name, hp⟩ := exists_pieces p
  obtain ⟨here, hwalk, hname, rfl, hdir⟩ := (place?_eq_some_iff hp).1 h
  rw [write_of_walk hp hname.1 hwalk, enter_of_isName hname]
  obtain hs | hs | ⟨old, hs⟩ := standingAt_cases d (here.inner name)
  · rw [hs]
  · exact absurd hs hdir
  · rw [hs]

/-- Nothing can be written at any other path. -/
theorem write_of_place?_eq_none {p : Path} (h : d.place? p = none) (c : α) :
    ∃ e, d.write p c = .error e := by
  obtain ⟨qs, name, hp⟩ := exists_pieces p
  by_cases hempty : name = ""
  · cases hstep : d.lastStep p with
    | error e => exact ⟨e, by simp [write, hstep, bind, Except.bind]⟩
    | ok step => exact ⟨.isADirectory, by simp [write, hstep, bind, Except.bind, hp, hempty]⟩
  cases hwalk : qs.foldl d.enter (startOf p) with
  | directory here =>
    rw [write_of_walk hp hempty hwalk]
    by_cases hname : IsName name
    · have hdir : d.standingAt (here.inner name) = .directory (here.inner name) := by
        by_contra hdir
        rw [(place?_eq_some_iff hp).2 ⟨here, hwalk, hname, rfl, hdir⟩] at h
        cases h
      exact ⟨.isADirectory, by rw [enter_of_isName hname, hdir]⟩
    · obtain ⟨k, hk⟩ | hlong := enter_of_not_isName (α := α) here hname
      · exact ⟨.isADirectory, by rw [hk]⟩
      · exact ⟨.nameTooLong, by rw [hlong]⟩
  | _ => exact ⟨_, by rw [write, lastStep_of_pieces hp hempty, hwalk]; rfl⟩

end Disk

end Graft
