import Graft.Interchange.Decode
import Graft.Interchange.Encode
import Graft.Proofs.Json.RoundTrip

/-!
# Records

A record is written as an object with the parts that are there, in the order of their names, and has
the same parts when it is read: `parts?_written`. How deep a record nests is a matter of its parts.
-/

namespace Graft

/-! ### Depth and contents of a value -/

namespace Json

lemma depthItems_le_iff {vs : List Json} {n : Nat} :
    depthItems vs ≤ n ↔ ∀ v ∈ vs, v.depth ≤ n := by
  induction vs with
  | nil => simp [depthItems]
  | cons v vs ih => simp [depthItems, ih]

lemma depthMembers_le_iff {ms : List (Spelled × Json)} {n : Nat} :
    depthMembers ms ≤ n ↔ ∀ m ∈ ms, m.2.depth ≤ n := by
  induction ms with
  | nil => simp [depthMembers]
  | cons m ms ih => simp [depthMembers, ih]

/-- An array takes one level, and its items the rest. -/
lemma depth_array_le_iff {vs : List Json} {n : Nat} :
    (array vs).depth ≤ n ↔ ∃ k, n = k + 1 ∧ ∀ v ∈ vs, v.depth ≤ k := by
  rw [depth]
  cases n with
  | zero => simp
  | succ k => simp [Nat.add_comm 1, depthItems_le_iff]

/-- An object takes one level, and the values of its members the rest. -/
lemma depth_ofMembers_le_iff {ms : List (String × Json)} {n : Nat} :
    (ofMembers ms).depth ≤ n ↔ ∃ k, n = k + 1 ∧ ∀ m ∈ ms, m.2.depth ≤ k := by
  rw [ofMembers, depth]
  cases n with
  | zero => simp
  | succ k =>
    simp only [Nat.add_comm 1, Nat.add_le_add_iff_right, depthMembers_le_iff, List.forall_mem_map,
      Nat.add_right_cancel_iff, exists_eq_left']

/-- Without its first member a record is no deeper. -/
lemma depth_tail_le {m : String × Json} {ms : List (String × Json)} {n : Nat}
    (h : (ofMembers (m :: ms)).depth ≤ n) : (ofMembers ms).depth ≤ n := by
  obtain ⟨k, rfl, hk⟩ := depth_ofMembers_le_iff.mp h
  exact depth_ofMembers_le_iff.mpr ⟨k, rfl, (List.forall_mem_cons.mp hk).2⟩

lemma arePlain_iff {vs : List Json} : ArePlain vs ↔ ∀ v ∈ vs, v.IsPlain := by
  induction vs with
  | nil => simp [ArePlain]
  | cons v vs ih => simp [ArePlain, ih]

lemma isPlain_array_iff {vs : List Json} : (array vs).IsPlain ↔ ∀ v ∈ vs, v.IsPlain := by
  rw [IsPlain, arePlain_iff]

lemma isPlain_ofMembers_iff {ms : List (String × Json)} :
    (ofMembers ms).IsPlain ↔ ∀ m ∈ ms, m.2.IsPlain := by
  rw [ofMembers, IsPlain]
  induction ms with
  | nil => simp [MembersPlain]
  | cons m ms ih => simp [MembersPlain, ih]

/-- A plain value with at most `n` arrays and objects open at once. -/
structure PlainWithin (n : Nat) (v : Json) : Prop where
  plain : v.IsPlain
  within : v.depth ≤ n

lemma PlainWithin.mono {n k : Nat} {v : Json} (h : v.PlainWithin n) (hk : n ≤ k) :
    v.PlainWithin k :=
  ⟨h.plain, h.within.trans hk⟩

lemma plainWithin_text (n : Nat) (s : String) : (text s).PlainWithin n :=
  ⟨⟨s, rfl⟩, Nat.zero_le n⟩

lemma plainWithin_line (n : Nat) (line : UInt64) : (nat line.toNat).PlainWithin n :=
  ⟨⟨line.toNat, line.toNat_lt, rfl⟩, Nat.zero_le n⟩

/-- A list is one level deeper than its items. -/
lemma plainWithin_array {n : Nat} {vs : List Json} (h : ∀ v ∈ vs, v.PlainWithin n) :
    (array vs).PlainWithin (n + 1) :=
  ⟨isPlain_array_iff.mpr fun v hv => (h v hv).plain,
    depth_array_le_iff.mpr ⟨n, rfl, fun v hv => (h v hv).within⟩⟩

/-- A record is one level deeper than its members. -/
lemma plainWithin_ofMembers {n : Nat} {ms : List (String × Json)}
    (h : ∀ m ∈ ms, m.2.PlainWithin n) : (ofMembers ms).PlainWithin (n + 1) :=
  ⟨isPlain_ofMembers_iff.mpr fun m hm => (h m hm).plain,
    depth_ofMembers_le_iff.mpr ⟨n, rfl, fun m hm => (h m hm).within⟩⟩

lemma plainWithin_texts (n : Nat) (ss : List String) : (texts ss).PlainWithin (n + 1) :=
  plainWithin_array (List.forall_mem_map.mpr fun s _ => plainWithin_text n s)

mutual

/-- A plain value can be held as data if it is not too deep. -/
theorem isHoldable_of_isPlain {v : Json} (hv : v.IsPlain) {levels : Nat} (hd : v.depth ≤ levels) :
    v.isHoldable levels = true := by
  match v with
  | .null => rfl
  | .bool _ => rfl
  | .number n =>
    obtain ⟨k, hk, rfl⟩ := hv
    exact Number.isFinite_ofNat hk
  | .string s =>
    obtain ⟨t, rfl⟩ := hv
    rfl
  | .array items =>
    rw [depth] at hd
    obtain ⟨k, rfl⟩ : ∃ k, levels = k + 1 := ⟨levels - 1, by omega⟩
    exact areHoldable_of_arePlain hv (by omega)
  | .object members =>
    rw [depth] at hd
    obtain ⟨k, rfl⟩ : ∃ k, levels = k + 1 := ⟨levels - 1, by omega⟩
    exact membersHoldable_of_membersPlain hv (by omega)

/-- Plain values of bounded depth can be held back. By induction on the value, its items and its
members. -/
lemma areHoldable_of_arePlain {vs : List Json} (hvs : ArePlain vs) {levels : Nat}
    (hd : depthItems vs ≤ levels) : areHoldable levels vs = true := by
  match vs with
  | [] => rfl
  | v :: vs =>
    rw [depthItems, Nat.max_le] at hd
    rw [areHoldable, isHoldable_of_isPlain hvs.1 hd.1, areHoldable_of_arePlain hvs.2 hd.2]
    rfl

lemma membersHoldable_of_membersPlain {ms : List (Spelled × Json)} (hms : MembersPlain ms)
    {levels : Nat} (hd : depthMembers ms ≤ levels) : membersHoldable levels ms = true := by
  match ms with
  | [] => rfl
  | (name, v) :: ms =>
    rw [depthMembers, Nat.max_le] at hd
    obtain ⟨⟨t, rfl⟩, hv, hms⟩ := hms
    rw [membersHoldable, isHoldable_of_isPlain hv hd.1, membersHoldable_of_membersPlain hms hd.2]
    rfl

end

end Json

/-! ### Written records -/

/-- The members of a record that has these parts. -/
def written (parts : List (String × Option Json)) : List (String × Json) :=
  parts.flatMap fun p => optionalMember p.1 p.2

@[simp] lemma written_nil : written [] = [] := rfl

/-- An absent part leaves nothing in the record. -/
lemma written_cons (p : String × Option Json) (parts : List (String × Option Json)) :
    written (p :: parts) = optionalMember p.1 p.2 ++ written parts := rfl

lemma written_append (parts parts' : List (String × Option Json)) :
    written (parts ++ parts') = written parts ++ written parts' :=
  List.flatMap_append

/-- What is written are the parts that are present. -/
lemma forall_mem_written_iff {parts : List (String × Option Json)} {P : Json → Prop} :
    (∀ m ∈ written parts, P m.2) ↔ ∀ p ∈ parts, ∀ v ∈ p.2, P v := by
  induction parts with
  | nil => simp
  | cons p parts ih =>
    obtain ⟨name, v⟩ := p
    rw [written_cons, List.forall_mem_append, ih]
    cases v <;> simp [optionalMember]

/-- The parts of a record have one level less. -/
lemma depth_part_le {parts : List (String × Option Json)} {levels : Nat}
    (hd : (Json.ofMembers (written parts)).depth ≤ levels + 1) :
    ∀ p ∈ parts, ∀ v ∈ p.2, v.depth ≤ levels := by
  obtain ⟨k, hk, h⟩ := Json.depth_ofMembers_le_iff.mp hd
  cases hk
  exact forall_mem_written_iff.mp h

/-- No member of the record has a name that is not one of a part. -/
lemma name_mem_of_mem_written {parts : List (String × Option Json)} {m : String × Json}
    (h : m ∈ written parts) : m.1 ∈ parts.map Prod.fst := by
  obtain ⟨p, hp, hm⟩ := List.mem_flatMap.mp h
  obtain ⟨name, v⟩ := p
  cases v with
  | none => cases hm
  | some v =>
    rw [List.mem_singleton.mp hm]
    exact List.mem_map_of_mem hp

/-- Members whose names are texts. -/
def spelled (ms : List (String × Json)) : List (Json.Spelled × Json) :=
  ms.map fun m => (some m.1, m.2)

lemma Json.ofMembers_eq (ms : List (String × Json)) : ofMembers ms = .object (spelled ms) := rfl

namespace Interchange

/-- A member is found if its name comes once. To come twice is a fault, not to come is none. -/
lemma member?_spelled (ms : List (String × Json)) (name : String) :
    member? (spelled ms) name =
      match ms.filter (·.1 = name) with
      | [] => some none
      | [(_, v)] => some (some v)
      | _ => none := by
  have hfilter : (spelled ms).filter (·.1 = some name) = spelled (ms.filter (·.1 = name)) := by
    rw [spelled, List.filter_map]
    simp [spelled, Function.comp_def]
  rw [member?, hfilter]
  generalize ms.filter (·.1 = name) = found
  match found with
  | [] => rfl
  | [_] => rfl
  | _ :: _ :: _ => rfl

/-- Each part is found under its name. -/
lemma member?_written {parts : List (String × Option Json)} (hn : (parts.map Prod.fst).Nodup)
    {p : String × Option Json} (hp : p ∈ parts) :
    member? (spelled (written parts)) p.1 = some p.2 := by
  rw [member?_spelled]
  induction parts with
  | nil => cases hp
  | cons q parts ih =>
    rw [List.map_cons, List.nodup_cons] at hn
    rw [written_cons, List.filter_append]
    rcases List.mem_cons.mp hp with rfl | hp
    · have hrest : (written parts).filter (·.1 = p.1) = [] := by
        rw [List.filter_eq_nil_iff]
        rintro m hm he
        rw [decide_eq_true_eq] at he
        exact hn.1 (he ▸ name_mem_of_mem_written hm)
      rw [hrest]
      obtain ⟨name, v⟩ := p
      cases v <;> simp [optionalMember]
    · have hne : q.1 ≠ p.1 := fun he => hn.1 (he ▸ List.mem_map_of_mem hp)
      have hq : (optionalMember q.1 q.2).filter (·.1 = p.1) = [] := by
        obtain ⟨name, v⟩ := q
        cases v with
        | none => rfl
        | some v => simpa [optionalMember] using hne
      rw [hq, List.nil_append]
      exact ih hn.2 hp

/-- Decoding what was encoded item by item gives the items back. -/
lemma mapM_eq_some_map {α β γ : Type} {f : α → Option β} {g : γ → α} {h : γ → β} {cs : List γ}
    (hf : ∀ c ∈ cs, f (g c) = some (h c)) : (cs.map g).mapM f = some (cs.map h) := by
  induction cs with
  | nil => rfl
  | cons c cs ih =>
    rw [List.map_cons, List.mapM_cons, hf c (by simp), ih fun c hc => hf c (by simp [hc])]
    rfl

/-- A record has the parts it is written with, if their names are distinct. -/
theorem parts?_written {names : List String} (hn : names.Nodup)
    {parts : List (String × Option Json)} (hp : parts.map Prod.fst = names) :
    parts? names (Json.ofMembers (written parts)) = some (parts.map Prod.snd) := by
  subst hp
  rw [Json.ofMembers_eq, parts?, if_pos (by simp [spelled])]
  exact mapM_eq_some_map fun p hp => member?_written hn hp

end Interchange

end Graft
