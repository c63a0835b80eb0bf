import Graft.Json.Printer
import Graft.Proofs.Json.Numbers

/-!
# Reading what was printed

A value whose strings spell texts and whose numbers are natural ones is read back from its printed
form, whatever white space the layout puts between its parts: `parse?_print`.
-/

namespace Graft

namespace Json

/-! ### Plain values -/

mutual

/-- Every string of the value spells a text, and every number is a natural one of 64 bits. -/
def IsPlain : Json → Prop
  | .null | .bool _ => True
  | .number n => ∃ k < UInt64.size, n = .ofNat k
  | .string s => ∃ t, s = some t
  | .array items => ArePlain items
  | .object members => MembersPlain members

/-- All items are plain. -/
def ArePlain : List Json → Prop
  | [] => True
  | v :: vs => v.IsPlain ∧ ArePlain vs

/-- All members are plain, and so are their names. -/
def MembersPlain : List (Spelled × Json) → Prop
  | [] => True
  | (name, v) :: ms => (∃ t, name = some t) ∧ v.IsPlain ∧ MembersPlain ms

end

/-! ### Strings -/

namespace StringSoFar

/-- The characters are read inside a string literal. -/
inductive Reads : StringSoFar → List Char → StringSoFar → Prop where
  | nil (s : StringSoFar) : Reads s [] s
  | cons {s s₂ : StringSoFar} (s₁ : StringSoFar) {c : Char} {cs : List Char}
      (hq : ¬ (s.part = .outside ∧ c = '"')) (hs : s.step? c = some s₁) (hr : Reads s₁ cs s₂) :
      Reads s (c :: cs) s₂

lemma Reads.append {s s₁ s₂ : StringSoFar} {cs cs' : List Char} (h : s.Reads cs s₁)
    (h' : s₁.Reads cs' s₂) : s.Reads (cs ++ cs') s₂ := by
  induction h with
  | nil _ => exact h'
  | cons s₁ hq hs _ ih => exact .cons s₁ hq hs (ih h')

/-- A literal that spells these characters so far, the last one first. -/
def spelling (chars : List Char) : StringSoFar :=
  { chars }

lemma hexValue?_hexDigit : ∀ d < 16, hexValue? (hexDigit d) = some d := by
  decide

lemma reads_letter (chars : List Char) {e c : Char} (hu : e ≠ 'u') (h : escapeOf? e = some c) :
    (spelling chars).Reads ['\\', e] (spelling (c :: chars)) := by
  refine .cons { spelling chars with part := .backslash } (by simp) rfl (.cons _ ?_ ?_ (.nil _))
  · simp
  · simp only [step?, if_neg hu, h, Option.map_some]
    rfl

/-- A control character is escaped by its number. -/
lemma reads_number (chars : List Char) {c : Char} (hc : c.toNat < 0x20) :
    (spelling chars).Reads
      ['\\', 'u', '0', '0', hexDigit (c.toNat / 16), hexDigit (c.toNat % 16)]
      (spelling (c :: chars)) := by
  have hhigh := hexValue?_hexDigit (c.toNat / 16) (by omega)
  have hlow := hexValue?_hexDigit (c.toNat % 16) (by omega)
  have hunit : (spelling chars).pushUnit (16 * (c.toNat / 16) + c.toNat % 16) =
      spelling (c :: chars) := by
    rw [Nat.div_add_mod, pushUnit, if_neg (by omega), if_neg (by omega), Char.ofNat_toNat]
    rfl
  refine .cons { spelling chars with part := .backslash } (by simp) rfl ?_
  refine .cons { spelling chars with part := .hex 3 0 } (by simp) rfl ?_
  refine .cons { spelling chars with part := .hex 2 0 } (by simp) rfl ?_
  refine .cons { spelling chars with part := .hex 1 0 } (by simp) rfl ?_
  refine .cons { spelling chars with part := .hex 0 (c.toNat / 16) } (by simp) ?_ ?_
  · simp [step?, hhigh]
  · refine .cons _ (by simp) ?_ (.nil _)
    simp only [step?, hlow]
    exact congrArg some hunit

/-- A character is read back from its escaped form. -/
lemma reads_escaped (chars : List Char) (c : Char) :
    (spelling chars).Reads (escaped c) (spelling (c :: chars)) := by
  unfold escaped
  split_ifs with hquote hslash hb hf hn hr ht hcontrol
  · subst hquote
    exact reads_letter chars (by decide) rfl
  · subst hslash
    exact reads_letter chars (by decide) rfl
  · subst hb
    exact reads_letter chars (by decide) rfl
  · subst hf
    exact reads_letter chars (by decide) rfl
  · subst hn
    exact reads_letter chars (by decide) rfl
  · subst hr
    exact reads_letter chars (by decide) rfl
  · subst ht
    exact reads_letter chars (by decide) rfl
  · exact reads_number chars hcontrol
  · refine .cons _ (by simp [hquote]) ?_ (.nil _)
    simp only [step?, spelling, if_neg hslash, if_neg hcontrol]
    rfl

lemma reads_flatMap_escaped (chars cs : List Char) :
    (spelling chars).Reads (cs.flatMap escaped) (spelling (cs.reverse ++ chars)) := by
  induction cs generalizing chars with
  | nil => exact .nil _
  | cons c cs ih =>
    rw [List.flatMap_cons, List.reverse_cons, List.append_assoc]
    exact (reads_escaped chars c).append (ih (c :: chars))

end StringSoFar

namespace Reader

open StringSoFar

lemma quoted_some (t : String) :
    quoted (some t) = '"' :: (t.toList.flatMap escaped ++ ['"']) := rfl

section Literal

-- what the reader is in the middle of, given the literal so far: a value or a name
variable {focus : StringSoFar → Focus} {frames : List Frame}
  (hstep : ∀ s c, ¬ (s.part = .outside ∧ c = '"') →
    step ⟨focus s, frames⟩ c = (s.step? c).map fun s => ⟨focus s, frames⟩)
include hstep

/-- The reader takes a string literal character by character, whatever the literal is for. -/
lemma run_of_reads {s s' : StringSoFar} {cs : List Char} (h : s.Reads cs s') :
    run ⟨focus s, frames⟩ cs = some ⟨focus s', frames⟩ := by
  induction h with
  | nil s => rfl
  | cons _ hq hs _ ih =>
    rw [run_cons, hstep _ _ hq, hs, Option.map_some, Option.bind_some]
    exact ih

/-- A string literal is read up to the closing quotation mark. -/
lemma run_quoted {r : Reader} (hopen : r.step '"' = some ⟨focus (spelling []), frames⟩)
    (t : String) :
    r.run (quoted (some t)) = step ⟨focus (spelling t.toList.reverse), frames⟩ '"' := by
  have hread := run_of_reads hstep (reads_flatMap_escaped [] t.toList)
  rw [List.append_nil] at hread
  rw [quoted_some, run_cons, hopen, Option.bind_some, run_append, hread, Option.bind_some, run_cons]
  simp

end Literal

/-- A string literal is read as a value. -/
lemma AwaitsValue.run_quoted {r : Reader} (h : r.AwaitsValue) (t : String) :
    r.run (quoted (some t)) = some ⟨.done (.string (some t)), r.frames⟩ := by
  have hopen : r.step '"' = some ⟨.string (spelling []), r.frames⟩ :=
    (h.step (by decide) (by decide)).trans rfl
  rw [Reader.run_quoted (fun s c hq => by simp [Reader.step, hq]) hopen t]
  simp [Reader.step, spelling, spelled]

/-- A name may begin. -/
def AwaitsName (r : Reader) : Prop :=
  r.focus = .name ∨ r.focus = .firstName

/-- A string literal is read as the name of a member. -/
lemma AwaitsName.run_quoted {r : Reader} (h : r.AwaitsName)
    {members : List (Spelled × Json)} {frames : List Frame}
    (hf : r.frames = .object members :: frames) (t : String) :
    r.run (quoted (some t)) = some ⟨.colon, .member members (some t) :: frames⟩ := by
  have hopen : r.step '"' = some ⟨.nameString (spelling []), r.frames⟩ := by
    rcases h with h | h
    · simp [Reader.step, h, isGap, spelling]
    · simp [Reader.step, h, isGap, spelling]
  rw [Reader.run_quoted (fun s c hq => by simp [Reader.step, hq]) hopen t]
  simp [Reader.step, spelling, spelled, hf]

/-! ### White space -/

/-- White space is skipped where something is to begin. -/
lemma run_gaps {r : Reader} (h : ∀ c, isGap c = true → r.step c = some r) {ws : List Char}
    (hw : ∀ c ∈ ws, isGap c = true) : r.run ws = some r := by
  induction ws with
  | nil => rfl
  | cons c cs ih =>
    rw [run_cons, h c (hw c (by simp)), Option.bind_some]
    exact ih fun c hc => hw c (by simp [hc])

lemma AwaitsValue.run_gaps {r : Reader} (h : r.AwaitsValue) {ws : List Char}
    (hw : ∀ c ∈ ws, isGap c = true) : r.run ws = some r := by
  refine Reader.run_gaps (fun c hc => ?_) hw
  rcases h with h | h
  · simp [Reader.step, h, hc]
  · simp [Reader.step, h, hc]

lemma AwaitsName.run_gaps {r : Reader} (h : r.AwaitsName) {ws : List Char}
    (hw : ∀ c ∈ ws, isGap c = true) : r.run ws = some r := by
  refine Reader.run_gaps (fun c hc => ?_) hw
  rcases h with h | h
  · simp [Reader.step, h, hc]
  · simp [Reader.step, h, hc]

/-! ### Complete values -/

/-- The value is complete. The reader may still be in the middle of a number, which goes on if a
digit comes next. -/
inductive Completes (v : Json) (frames : List Frame) : Reader → Prop where
  | done : Completes v frames ⟨.done v, frames⟩
  | number {n : NumberSoFar} (hp : n.part = .zero ∨ n.part = .whole)
      (hn : n.number?.map .number = some v) : Completes v frames ⟨.number n, frames⟩

/-- What may come after a complete value: white space, a comma or a closing bracket. -/
def EndsValue (c : Char) : Prop :=
  isGap c = true ∨ c = ',' ∨ c = ']' ∨ c = '}'

lemma EndsValue.step?_eq_none {c : Char} (hc : EndsValue c) {n : NumberSoFar}
    (hp : n.part = .zero ∨ n.part = .whole) : n.step? c = none := by
  have hnone : c ≠ '.' ∧ c ≠ 'e' ∧ c ≠ 'E' ∧ c.isDigit = false := by
    simp only [EndsValue, isGap, Bool.or_eq_true, beq_iff_eq, or_assoc] at hc
    rcases hc with rfl | rfl | rfl | rfl | rfl | rfl | rfl <;> decide
  obtain ⟨hpoint, he, hE, hdigit⟩ := hnone
  rcases hp with hp | hp
  · simp [NumberSoFar.step?, NumberSoFar.leaveWhole?, hp, hpoint, he, hE]
  · simp [NumberSoFar.step?, NumberSoFar.leaveWhole?, hp, hpoint, he, hE, hdigit]

/-- A complete value is resumed after. -/
lemma Completes.step {v : Json} {frames : List Frame} {r : Reader} (h : Completes v frames r)
    {c : Char} (hc : EndsValue c) : r.step c = resume? v frames c := by
  cases h with
  | done => rfl
  | number hp hn =>
    obtain ⟨literal, hl, rfl⟩ := Option.map_eq_some_iff.mp hn
    simp [Reader.step, hc.step?_eq_none hp, hl]

lemma resume?_gap (v : Json) (frames : List Frame) {c : Char} (hc : isGap c = true) :
    resume? v frames c = some ⟨.done v, frames⟩ := by
  simp [resume?, hc]

lemma Completes.run_gaps {v : Json} {frames : List Frame} {r : Reader} (h : Completes v frames r)
    {ws : List Char} (hw : ∀ c ∈ ws, isGap c = true) :
    ∃ r', r.run ws = some r' ∧ Completes v frames r' := by
  cases ws with
  | nil => exact ⟨r, rfl, h⟩
  | cons c cs =>
    have hc := hw c (by simp)
    refine ⟨⟨.done v, frames⟩, ?_, .done⟩
    rw [run_cons, h.step (.inl hc), resume?_gap v frames hc, Option.bind_some]
    have hdone : ∀ c, isGap c = true → Reader.step ⟨.done v, frames⟩ c = some ⟨.done v, frames⟩ :=
      fun c hc => resume?_gap v frames hc
    exact Reader.run_gaps hdone fun c hc => hw c (by simp [hc])

lemma Completes.value? {v : Json} {r : Reader} (h : Completes v [] r) : r.value? = some v := by
  cases h with
  | done => rfl
  | number _ hn => exact hn

/-! ### Printed values -/

lemma run_append_of_eq_some {r r' : Reader} {s : List Char} (h : r.run s = some r')
    (t : List Char) : r.run (s ++ t) = r'.run t := by
  rw [run_append, h, Option.bind_some]

lemma run_cons_of_eq_some {r r' : Reader} {c : Char} (h : r.step c = some r') (t : List Char) :
    r.run (c :: t) = r'.run t := by
  rw [run_cons, h, Option.bind_some]

lemma run_word {rest : List Char} (hr : rest ≠ []) (v : Json) (frames : List Frame) :
    run ⟨.word rest v, frames⟩ rest = some ⟨.done v, frames⟩ := by
  induction rest with
  | nil => exact absurd rfl hr
  | cons c rest ih =>
    cases rest with
    | nil => simp [run_cons, step]
    | cons d rest =>
      have hstep : step ⟨.word (c :: d :: rest) v, frames⟩ c =
          some ⟨.word (d :: rest) v, frames⟩ := by
        simp [step]
      rw [run_cons_of_eq_some hstep]
      exact ih (List.cons_ne_nil _ _)

/-- A word is read as the value it stands for. -/
lemma AwaitsValue.run_word {r : Reader} (h : r.AwaitsValue) {c : Char} {rest : List Char}
    {v : Json} (hg : isGap c = false) (hc : c ≠ ']') (hr : rest ≠ [])
    (hb : begin? r.frames c = some ⟨.word rest v, r.frames⟩) :
    r.run (c :: rest) = some ⟨.done v, r.frames⟩ := by
  rw [run_cons_of_eq_some ((h.step hg hc).trans hb)]
  exact Reader.run_word hr v r.frames

/-- A natural number is read as a value. -/
lemma AwaitsValue.run_ofNat {r : Reader} (h : r.AwaitsValue) (n : Nat) :
    ∃ r', r.run (Number.ofNat n).text = some r' ∧
      Completes (.number (.ofNat n)) r.frames r' := by
  have htext : (Number.ofNat n).text = Nat.toDigits 10 n := by
    simp [Number.text, Number.ofNat, Nat.repr_eq_ofList_toDigits]
  rw [htext]
  rcases Nat.eq_zero_or_pos n with rfl | hn
  · have hstep : r.step '0' = some ⟨.number { part := .zero }, r.frames⟩ :=
      (h.step (by decide) (by decide)).trans rfl
    exact ⟨_, by rw [Nat.toDigits_zero, run_cons_of_eq_some hstep, run_nil],
      .number (.inl rfl) rfl⟩
  · exact ⟨_, h.run_toDigits hn, .number (.inr rfl) rfl⟩

end Reader

/-! ### Layouts -/

/-- A layout puts nothing but white space between the parts. -/
structure Layout.IsBlank (layout : Layout) : Prop where
  lineBreak : ∀ depth, ∀ c ∈ layout.lineBreak depth, isGap c = true
  gap : ∀ c ∈ layout.gap, isGap c = true

lemma Layout.isBlank_indented : Layout.indented.IsBlank := by
  refine ⟨fun depth c hc => ?_, by simp [indented, isGap]⟩
  rcases List.mem_cons.mp hc with rfl | hc
  · rfl
  · rw [List.eq_of_mem_replicate hc]
    rfl

/-! ### Values -/

namespace Reader

section Printed

variable {layout : Layout} (hl : layout.IsBlank)
include hl

/-- After the last item the array is complete. -/
lemma Completes.run_close_array {v : Json} {items : List Json} {frames : List Frame} {r : Reader}
    (h : Completes v (.array items :: frames) r) (depth : Nat) :
    r.run (layout.lineBreak depth ++ [']']) =
      some ⟨.done (.array (v :: items).reverse), frames⟩ := by
  obtain ⟨r', hr', h'⟩ := h.run_gaps (hl.lineBreak depth)
  rw [run_append_of_eq_some hr', run_cons, h'.step (by simp [EndsValue])]
  simp [resume?, isGap]

lemma Completes.run_close_object {name : Spelled} {v : Json} {members : List (Spelled × Json)}
    {frames : List Frame} {r : Reader} (h : Completes v (.member members name :: frames) r)
    (depth : Nat) :
    r.run (layout.lineBreak depth ++ ['}']) =
      some ⟨.done (.object ((name, v) :: members).reverse), frames⟩ := by
  obtain ⟨r', hr', h'⟩ := h.run_gaps (hl.lineBreak depth)
  rw [run_append_of_eq_some hr', run_cons, h'.step (by simp [EndsValue])]
  simp [resume?, isGap]

/-- The name of a member, with the colon, and then its value. -/
lemma AwaitsName.run_member {r : Reader} (h : r.AwaitsName) {name : Spelled}
    (hn : ∃ t, name = some t) {members : List (Spelled × Json)} {frames : List Frame}
    (hf : r.frames = .object members :: frames) {v : Json} {s : List Char}
    (hv : ∃ r', run ⟨.value, .member members name :: frames⟩ s = some r' ∧
      Completes v (.member members name :: frames) r') :
    ∃ r', r.run (quoted name ++ ':' :: (layout.gap ++ s)) = some r' ∧
      Completes v (.member members name :: frames) r' := by
  obtain ⟨t, rfl⟩ := hn
  have hawaits : AwaitsValue ⟨.value, .member members (some t) :: frames⟩ := .inl rfl
  have hcolon : step ⟨.colon, .member members (some t) :: frames⟩ ':' =
      some ⟨.value, .member members (some t) :: frames⟩ := rfl
  obtain ⟨r', hr', h'⟩ := hv
  refine ⟨r', ?_, h'⟩
  rw [run_append_of_eq_some (h.run_quoted hf t), run_cons_of_eq_some hcolon,
    run_append_of_eq_some (hawaits.run_gaps hl.gap), hr']

mutual

theorem run_print (depth : Nat) {v : Json} (hv : v.IsPlain) {r : Reader} (h : r.AwaitsValue) :
    ∃ r', r.run (print layout depth v) = some r' ∧ Completes v r.frames r' := by
  match v with
  | .null =>
    have hprint : print layout depth .null = ['n', 'u', 'l', 'l'] := by simp [print]
    rw [hprint]
    exact ⟨_, h.run_word (by decide) (by decide) (by decide) (by simp [begin?]), .done⟩
  | .bool true =>
    have hprint : print layout depth (.bool true) = ['t', 'r', 'u', 'e'] := by simp [print]
    rw [hprint]
    exact ⟨_, h.run_word (by decide) (by decide) (by decide) (by simp [begin?]), .done⟩
  | .bool false =>
    have hprint : print layout depth (.bool false) = ['f', 'a', 'l', 's', 'e'] := by simp [print]
    rw [hprint]
    exact ⟨_, h.run_word (by decide) (by decide) (by decide) (by simp [begin?]), .done⟩
  | .number n =>
    obtain ⟨k, _, rfl⟩ := hv
    exact h.run_ofNat k
  | .string s =>
    obtain ⟨t, rfl⟩ := hv
    exact ⟨_, h.run_quoted t, .done⟩
  | .array [] =>
    have hopen : r.step '[' = some ⟨.firstItem, .array [] :: r.frames⟩ :=
      h.step (by decide) (by decide)
    refine ⟨⟨.done (.array []), r.frames⟩, ?_, .done⟩
    rw [print, run_cons_of_eq_some hopen]
    rfl
  | .array (v :: vs) =>
    have hopen : r.step '[' = some ⟨.firstItem, .array [] :: r.frames⟩ :=
      h.step (by decide) (by decide)
    have hawaits : AwaitsValue ⟨.firstItem, .array [] :: r.frames⟩ := .inr rfl
    obtain ⟨r₁, hr₁, h₁⟩ := run_print (depth + 1) hv.1 hawaits
    obtain ⟨w, items, r₂, hr₂, h₂, hitems⟩ := run_printItems (depth + 1) hv.2 h₁
    refine ⟨⟨.done (.array (v :: vs)), r.frames⟩, ?_, .done⟩
    simp only [print, List.append_assoc]
    rw [run_cons_of_eq_some hopen, run_append_of_eq_some (hawaits.run_gaps (hl.lineBreak _)),
      run_append_of_eq_some hr₁, run_append_of_eq_some hr₂, h₂.run_close_array hl depth, hitems]
    rfl
  | .object [] =>
    have hopen : r.step '{' = some ⟨.firstName, .object [] :: r.frames⟩ :=
      h.step (by decide) (by decide)
    refine ⟨⟨.done (.object []), r.frames⟩, ?_, .done⟩
    rw [print, run_cons_of_eq_some hopen]
    rfl
  | .object ((name, v) :: ms) =>
    have hopen : r.step '{' = some ⟨.firstName, .object [] :: r.frames⟩ :=
      h.step (by decide) (by decide)
    have hawaits : AwaitsName ⟨.firstName, .object [] :: r.frames⟩ := .inr rfl
    obtain ⟨r₁, hr₁, h₁⟩ := hawaits.run_member hl hv.1 rfl
      (run_print (depth + 1) hv.2.1 (r := ⟨.value, .member [] name :: r.frames⟩) (.inl rfl))
    obtain ⟨name', w, members, r₂, hr₂, h₂, hmembers⟩ := run_printMembers (depth + 1) hv.2.2 h₁
    refine ⟨⟨.done (.object ((name, v) :: ms)), r.frames⟩, ?_, .done⟩
    have hprint : print layout depth (.object ((name, v) :: ms)) =
        '{' :: (layout.lineBreak (depth + 1) ++
          ((quoted name ++ ':' :: (layout.gap ++ print layout (depth + 1) v)) ++
            (printMembers layout (depth + 1) ms ++ (layout.lineBreak depth ++ ['}'])))) := by
      simp [print]
    rw [hprint, run_cons_of_eq_some hopen,
      run_append_of_eq_some (hawaits.run_gaps (hl.lineBreak _)), run_append_of_eq_some hr₁,
      run_append_of_eq_some hr₂, h₂.run_close_object hl depth, hmembers]
    rfl

/-- The items after the first one. -/
theorem run_printItems (depth : Nat) {vs : List Json} (hvs : ArePlain vs) {v : Json}
    {items : List Json} {frames : List Frame} {r : Reader}
    (h : Completes v (.array items :: frames) r) :
    ∃ w items' r', r.run (printItems layout depth vs) = some r' ∧
      Completes w (.array items' :: frames) r' ∧
        (w :: items').reverse = (v :: items).reverse ++ vs := by
  match vs with
  | [] => exact ⟨v, items, r, rfl, h, by simp⟩
  | v' :: vs =>
    have hcomma : r.step ',' = some ⟨.value, .array (v :: items) :: frames⟩ := by
      rw [h.step (by simp [EndsValue])]
      simp [resume?, isGap]
    have hawaits : AwaitsValue ⟨.value, .array (v :: items) :: frames⟩ := .inl rfl
    obtain ⟨r₁, hr₁, h₁⟩ := run_print depth hvs.1 hawaits
    obtain ⟨w, items', r₂, hr₂, h₂, hitems⟩ := run_printItems depth hvs.2 h₁
    refine ⟨w, items', r₂, ?_, h₂, by simp [hitems]⟩
    simp only [printItems, List.append_assoc]
    rw [run_cons_of_eq_some hcomma, run_append_of_eq_some (hawaits.run_gaps (hl.lineBreak _)),
      run_append_of_eq_some hr₁, hr₂]

/-- The members after the first one. -/
theorem run_printMembers (depth : Nat) {ms : List (Spelled × Json)} (hms : MembersPlain ms)
    {name : Spelled} {v : Json} {members : List (Spelled × Json)} {frames : List Frame} {r : Reader}
    (h : Completes v (.member members name :: frames) r) :
    ∃ name' w members' r', r.run (printMembers layout depth ms) = some r' ∧
      Completes w (.member members' name' :: frames) r' ∧
        ((name', w) :: members').reverse = ((name, v) :: members).reverse ++ ms := by
  match ms with
  | [] => exact ⟨name, v, members, r, rfl, h, by simp⟩
  | (name', v') :: ms =>
    have hcomma : r.step ',' = some ⟨.name, .object ((name, v) :: members) :: frames⟩ := by
      rw [h.step (by simp [EndsValue])]
      simp [resume?, isGap]
    have hawaits : AwaitsName ⟨.name, .object ((name, v) :: members) :: frames⟩ := .inl rfl
    obtain ⟨r₁, hr₁, h₁⟩ := hawaits.run_member hl hms.1 rfl
      (run_print depth hms.2.1
        (r := ⟨.value, .member ((name, v) :: members) name' :: frames⟩) (.inl rfl))
    obtain ⟨name'', w, members', r₂, hr₂, h₂, hmembers⟩ := run_printMembers depth hms.2.2 h₁
    refine ⟨name'', w, members', r₂, ?_, h₂, by simp [hmembers]⟩
    have hprint : printMembers layout depth ((name', v') :: ms) =
        ',' :: (layout.lineBreak depth ++
          ((quoted name' ++ ':' :: (layout.gap ++ print layout depth v')) ++
            printMembers layout depth ms)) := by
      simp [printMembers]
    rw [hprint, run_cons_of_eq_some hcomma,
      run_append_of_eq_some (hawaits.run_gaps (hl.lineBreak _)), run_append_of_eq_some hr₁, hr₂]

end

end Printed

end Reader

/-- A plain value is read back from its printed form, and white space may follow. -/
theorem parse?_print {layout : Layout} (hl : layout.IsBlank) {v : Json} (hv : v.IsPlain)
    {ws : List Char} (hw : ∀ c ∈ ws, isGap c = true) :
    parse? (String.ofList (print layout 0 v ++ ws)) = some v := by
  have hawaits : Reader.AwaitsValue ⟨.value, []⟩ := .inl rfl
  obtain ⟨r, hr, h⟩ := Reader.run_print hl 0 hv hawaits
  obtain ⟨r', hr', h'⟩ := h.run_gaps hw
  rw [parse?, String.toList_ofList, Reader.run_append_of_eq_some hr, hr', Option.bind_some,
    h'.value?]

end Json

end Graft
