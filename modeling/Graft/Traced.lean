/-!
# Computations that leave a trace

A `Traced ρ ε α` is the outcome of a computation, a value or an error, together with the records it
left on the way. The records made before an error stay: a merge that fails in its third type still
shows what it did in the first two.
-/

namespace Graft

/-- The records a computation left, and how it ended. -/
structure Traced (ρ ε α : Type) where
  records : List ρ
  outcome : Except ε α
deriving Inhabited

namespace Traced

variable {ρ σ ε φ α β γ : Type}

/-- Leave one record. -/
def record (r : ρ) : Traced ρ ε Unit :=
  ⟨[r], .ok ()⟩

/-- Leave several records, in order. -/
def recordAll (rs : List ρ) : Traced ρ ε Unit :=
  ⟨rs, .ok ()⟩

/-- End with an error. -/
def fail (e : ε) : Traced ρ ε α :=
  ⟨[], .error e⟩

/-- Take over an outcome that left no records. -/
def ofExcept (x : Except ε α) : Traced ρ ε α :=
  ⟨[], x⟩

/-- Go on with the value of `x`; an error of `x` is final. -/
def andThen (x : Traced ρ ε α) (f : α → Traced ρ ε β) : Traced ρ ε β :=
  match x.outcome with
  | .error e => ⟨x.records, .error e⟩
  | .ok a => ⟨x.records ++ (f a).records, (f a).outcome⟩

instance : Monad (Traced ρ ε) where
  pure a := ⟨[], .ok a⟩
  bind := andThen

/-- The same computation with its records seen as records of another kind. -/
def mapRecords (f : ρ → σ) (x : Traced ρ ε α) : Traced σ ε α :=
  ⟨x.records.map f, x.outcome⟩

/-- The same computation with its error seen as an error of another kind. -/
def mapError (f : ε → φ) (x : Traced ρ ε α) : Traced ρ φ α :=
  ⟨x.records, x.outcome.mapError f⟩

/-! ### Equations -/

@[simp]
theorem records_pure (a : α) : (pure a : Traced ρ ε α).records = [] := rfl

@[simp]
theorem outcome_pure (a : α) : (pure a : Traced ρ ε α).outcome = .ok a := rfl

@[simp]
theorem records_fail (e : ε) : (fail e : Traced ρ ε α).records = [] := rfl

@[simp]
theorem outcome_fail (e : ε) : (fail e : Traced ρ ε α).outcome = .error e := rfl

@[simp]
theorem records_record (r : ρ) : (record r : Traced ρ ε Unit).records = [r] := rfl

@[simp]
theorem outcome_record (r : ρ) : (record r : Traced ρ ε Unit).outcome = .ok () := rfl

@[simp]
theorem outcome_record_bind (r : ρ) (f : Unit → Traced ρ ε α) :
    ((record r : Traced ρ ε Unit) >>= f).outcome = (f ()).outcome := rfl

@[simp]
theorem records_record_bind (r : ρ) (f : Unit → Traced ρ ε α) :
    ((record r : Traced ρ ε Unit) >>= f).records = r :: (f ()).records := rfl

@[simp]
theorem pure_andThen (a : α) (f : α → Traced ρ ε β) : (pure a >>= f) = f a := by
  simp [bind, andThen, pure]

@[simp]
theorem ofExcept_ok (a : α) : (ofExcept (.ok a) : Traced ρ ε α) = pure a := rfl

@[simp]
theorem mapError_pure (f : ε → φ) (a : α) :
    (pure a : Traced ρ ε α).mapError f = pure a := rfl

@[simp]
theorem mapError_record (f : ε → φ) (r : ρ) :
    (record r : Traced ρ ε Unit).mapError f = record r := rfl

@[simp]
theorem mapError_fail (f : ε → φ) (e : ε) :
    (fail e : Traced ρ ε α).mapError f = fail (f e) := rfl

@[simp]
theorem mapError_ofExcept (f : ε → φ) (x : Except ε α) :
    (ofExcept x : Traced ρ ε α).mapError f = ofExcept (x.mapError f) := rfl

/-- A computation that succeeds is followed by the next, and so are its records. -/
theorem bind_of_ok {x : Traced ρ ε α} {a : α} (h : x.outcome = .ok a) (f : α → Traced ρ ε β) :
    (x >>= f) = ⟨x.records ++ (f a).records, (f a).outcome⟩ := by
  simp [bind, andThen, h]

/-- Behind a failure nothing runs and nothing is recorded. -/
theorem bind_of_error {x : Traced ρ ε α} {e : ε} (h : x.outcome = .error e)
    (f : α → Traced ρ ε β) : (x >>= f) = ⟨x.records, .error e⟩ := by
  simp [bind, andThen, h]

/-- A change of the errors goes past what is recorded. -/
theorem mapError_bind (f : ε → φ) (x : Traced ρ ε α) (g : α → Traced ρ ε β) :
    (x >>= g).mapError f = x.mapError f >>= fun a => (g a).mapError f := by
  obtain ⟨records, outcome⟩ := x
  cases outcome <;> rfl

/-- What is done with a result at the end leaves the records alone. -/
theorem records_bind_pure (x : Traced ρ ε α) (f : α → β) :
    (x >>= fun a => pure (f a)).records = x.records := by
  cases h : x.outcome with
  | error e => rw [bind_of_error h]
  | ok a => rw [bind_of_ok h, records_pure, List.append_nil]

theorem bind_assoc (x : Traced ρ ε α) (f : α → Traced ρ ε β) (g : β → Traced ρ ε γ) :
    ((x >>= f) >>= g) = x >>= fun a => f a >>= g := by
  cases hx : x.outcome with
  | error e => rw [bind_of_error hx, bind_of_error hx, bind_of_error rfl]
  | ok a =>
    rw [bind_of_ok hx, bind_of_ok hx]
    cases hf : (f a).outcome with
    | error e => rw [bind_of_error rfl, bind_of_error hf]
    | ok b => rw [bind_of_ok rfl, bind_of_ok hf, List.append_assoc]

/-- A sequence succeeds exactly when both halves do. -/
theorem outcome_bind_eq_ok_iff {x : Traced ρ ε α} {f : α → Traced ρ ε β} {b : β} :
    (x >>= f).outcome = .ok b ↔ ∃ a, x.outcome = .ok a ∧ (f a).outcome = .ok b := by
  cases h : x.outcome with
  | error e => simp [bind_of_error h]
  | ok a => simp [bind_of_ok h]

/-- A sequence ends with an error exactly when one of its halves does. -/
theorem outcome_bind_eq_error_iff {x : Traced ρ ε α} {f : α → Traced ρ ε β} {e : ε} :
    (x >>= f).outcome = .error e ↔
      x.outcome = .error e ∨ ∃ a, x.outcome = .ok a ∧ (f a).outcome = .error e := by
  cases h : x.outcome with
  | error e' => simp [bind_of_error h]
  | ok a => simp [bind_of_ok h]

/-- The records of a sequence whose first half succeeds. -/
theorem mem_records_bind_iff {x : Traced ρ ε α} {a : α} (h : x.outcome = .ok a)
    {f : α → Traced ρ ε β} {r : ρ} :
    r ∈ (x >>= f).records ↔ r ∈ x.records ∨ r ∈ (f a).records := by
  rw [bind_of_ok h, List.mem_append]

/-- Whatever comes next, the records so far stay at the front. -/
theorem isPrefix_records_bind (x : Traced ρ ε α) (f : α → Traced ρ ε β) :
    x.records <+: (x >>= f).records := by
  cases h : x.outcome with
  | error e => exact ⟨[], by rw [bind_of_error h, List.append_nil]⟩
  | ok a => exact ⟨(f a).records, by rw [bind_of_ok h]⟩

/-! ### Computations that may break off -/

/-- The computation leaves these records if it ends well, and the first ones of them otherwise. -/
structure Leaves (x : Traced ρ ε α) (rs : List ρ) : Prop where
  records_eq : ∀ a, x.outcome = .ok a → x.records = rs
  isBeginning : x.records <+: rs

theorem leaves_pure (a : α) : (pure a : Traced ρ ε α).Leaves [] :=
  ⟨fun _ _ => rfl, List.prefix_refl []⟩

theorem leaves_recordAll (rs : List ρ) : (recordAll rs : Traced ρ ε Unit).Leaves rs :=
  ⟨fun _ _ => rfl, List.prefix_refl rs⟩

theorem leaves_record (r : ρ) : (record r : Traced ρ ε Unit).Leaves [r] :=
  leaves_recordAll [r]

/-- A failure leaves a beginning of anything. -/
theorem leaves_fail (e : ε) (rs : List ρ) : (fail e : Traced ρ ε α).Leaves rs :=
  ⟨nofun, List.nil_prefix⟩

/-- What the second leaves comes behind what the first leaves; if the first fails, its beginning is
a beginning of both. -/
theorem Leaves.bind {x : Traced ρ ε α} {f : α → Traced ρ ε β} {rs ss : List ρ} (hx : x.Leaves rs)
    (hf : ∀ a, (f a).Leaves ss) : (x >>= f).Leaves (rs ++ ss) := by
  cases h : x.outcome with
  | error e =>
    rw [bind_of_error h]
    exact ⟨nofun, hx.isBeginning.trans (List.prefix_append rs ss)⟩
  | ok a =>
    rw [bind_of_ok h, hx.records_eq a h]
    refine ⟨fun b hb => ?_, (List.prefix_append_right_inj rs).mpr (hf a).isBeginning⟩
    rw [(hf a).records_eq b hb]

/-! ### Computations that end well -/

/-- The computation ends with the value `a`, and every record it leaves satisfies `P`. -/
def Returns (P : ρ → Prop) (x : Traced ρ ε α) (a : α) : Prop :=
  x.outcome = .ok a ∧ ∀ r ∈ x.records, P r

theorem returns_pure {P : ρ → Prop} (a : α) : Returns P (pure a : Traced ρ ε α) a :=
  ⟨rfl, by simp⟩

theorem returns_record {P : ρ → Prop} {r : ρ} (h : P r) :
    Returns P (record r : Traced ρ ε Unit) () :=
  ⟨rfl, by simpa using h⟩

/-- Computations with such records only, one after the other. -/
theorem Returns.bind {P : ρ → Prop} {x : Traced ρ ε α} {f : α → Traced ρ ε β} {a : α} {b : β}
    (hx : x.Returns P a) (hf : (f a).Returns P b) : (x >>= f).Returns P b := by
  rw [bind_of_ok hx.1]
  refine ⟨hf.1, fun r hr => ?_⟩
  rcases List.mem_append.1 hr with hr | hr
  · exact hx.2 r hr
  · exact hf.2 r hr

/-- A loop over a list of which every round leaves the state as it is. -/
theorem returns_loop {P : ρ → Prop} {step : β → α → Traced ρ ε β}
    {loop : β → List α → Traced ρ ε β} (hnil : ∀ b, loop b [] = pure b)
    (hcons : ∀ b a as, loop b (a :: as) = step b a >>= fun b => loop b as) {as : List α} {b : β}
    (h : ∀ a ∈ as, (step b a).Returns P b) : (loop b as).Returns P b := by
  induction as with
  | nil =>
    rw [hnil]
    exact returns_pure b
  | cons a as ih =>
    rw [hcons]
    exact (h a (by simp)).bind (ih fun a' ha' => h a' (by simp [ha']))

/-- A loop over a list that is also the state it starts from: each round finds in the state what is
left of the list, behind what the rounds before made of the rest. -/
theorem returns_loop_self {P : ρ → Prop} (step : List α → α → Traced ρ ε (List α))
    {loop : List α → List α → Traced ρ ε (List α)} (hnil : ∀ b, loop b [] = pure b)
    (hcons : ∀ b a as, loop b (a :: as) = step b a >>= fun b => loop b as) (I : List α → Prop)
    {as : List α} (hI : I as)
    (h : ∀ done a part, a ∈ as → I (done ++ a :: part) →
      ∃ done', (step (done ++ a :: part) a).Returns P (done' ++ part) ∧ I (done' ++ part)) :
    ∃ as', (loop as as).Returns P as' := by
  have hrun : ∀ done part, part ⊆ as → I (done ++ part) →
      ∃ as', (loop (done ++ part) part).Returns P as' := by
    intro done part hp hI
    induction part generalizing done with
    | nil =>
      rw [hnil]
      exact ⟨_, returns_pure _⟩
    | cons a part ih =>
      obtain ⟨ha, hpart⟩ := List.cons_subset.mp hp
      obtain ⟨done', hstep, hI'⟩ := h done a part ha hI
      obtain ⟨as', hloop⟩ := ih done' hpart hI'
      rw [hcons]
      exact ⟨as', hstep.bind hloop⟩
  exact hrun [] as (List.Subset.refl as) hI

/-! ### Computations that change nothing -/

/-- If the computation ends well and each of its records satisfies `P`, its value is `a`. -/
def GivesBack (P : ρ → Prop) (x : Traced ρ ε α) (a : α) : Prop :=
  ∀ b, x.outcome = .ok b → (∀ r ∈ x.records, P r) → b = a

theorem givesBack_pure {P : ρ → Prop} (a : α) : GivesBack P (pure a : Traced ρ ε α) a := by
  intro b hb _
  exact (Except.ok.inj hb).symm

theorem givesBack_fail {P : ρ → Prop} (e : ε) (a : α) :
    GivesBack P (fail e : Traced ρ ε α) a :=
  nofun

/-- A record that does not satisfy `P` leaves nothing to show. -/
theorem givesBack_record_bind {P : ρ → Prop} {r : ρ} (h : ¬ P r) (f : Unit → Traced ρ ε α)
    (a : α) : GivesBack P (record r >>= f) a := by
  intro b _ hr
  exact absurd (hr r (by simp)) h

/-- If one computation gives back `a`, and the next gives back `b` after that, so do the two in a
row. -/
theorem GivesBack.bind {P : ρ → Prop} {x : Traced ρ ε α} {f : α → Traced ρ ε β} {a : α} {b : β}
    (hx : x.GivesBack P a) (hf : (f a).GivesBack P b) : (x >>= f).GivesBack P b := by
  intro c hc hr
  obtain ⟨a', ha, hc⟩ := outcome_bind_eq_ok_iff.mp hc
  simp only [mem_records_bind_iff ha] at hr
  obtain rfl := hx a' ha fun r h => hr r (.inl h)
  exact hf c hc fun r h => hr r (.inr h)

/-- A loop gives back where it starts if each of its rounds does. -/
theorem givesBack_loop {P : ρ → Prop} (step : β → α → Traced ρ ε β)
    {loop : β → List α → Traced ρ ε β} (hnil : ∀ b, loop b [] = pure b)
    (hcons : ∀ b a as, loop b (a :: as) = step b a >>= fun b => loop b as) {as : List α} {b : β}
    (h : ∀ a ∈ as, (step b a).GivesBack P b) : (loop b as).GivesBack P b := by
  induction as with
  | nil =>
    rw [hnil]
    exact givesBack_pure b
  | cons a as ih =>
    rw [hcons]
    exact (h a (by simp)).bind (ih fun a' ha' => h a' (by simp [ha']))

/-! ### Rounds of a loop -/

section Loop

variable (step : β → α → Traced ρ ε β) (loop : β → List α → Traced ρ ε β)

/-- What every round records, a loop records. -/
theorem records_loop {R : List ρ → Prop} (hR : R []) (happ : ∀ rs ss, R rs → R ss → R (rs ++ ss))
    (hnil : ∀ b, loop b [] = pure b)
    (hcons : ∀ b a as, loop b (a :: as) = step b a >>= fun b => loop b as) {as : List α} {b : β}
    (h : ∀ pre a post reached, as = pre ++ a :: post → (loop b pre).outcome = .ok reached →
      R (step reached a).records) : R (loop b as).records := by
  induction as generalizing b with
  | nil =>
    rw [hnil]
    exact hR
  | cons a as ih =>
    have hfirst : R (step b a).records := h [] a as b rfl (by rw [hnil]; rfl)
    rw [hcons]
    cases hs : (step b a).outcome with
    | error e =>
      rw [bind_of_error hs]
      exact hfirst
    | ok b' =>
      rw [bind_of_ok hs]
      refine happ _ _ hfirst (ih fun pre a' post reached has hl => ?_)
      refine h (a :: pre) a' post reached (by rw [has]; rfl) ?_
      rw [hcons, outcome_bind_eq_ok_iff]
      exact ⟨b', hs, hl⟩

/-- The records of a round are together among those of the loop. -/
theorem isInfix_records_loop (hnil : ∀ b, loop b [] = pure b)
    (hcons : ∀ b a as, loop b (a :: as) = step b a >>= fun b => loop b as) {pre : List α}
    {b reached : β} (h : (loop b pre).outcome = .ok reached) (a : α) (post : List α) :
    (step reached a).records <:+: (loop b (pre ++ a :: post)).records := by
  induction pre generalizing b with
  | nil =>
    rw [hnil] at h
    obtain rfl := Except.ok.inj h
    rw [List.nil_append, hcons]
    exact (isPrefix_records_bind _ _).isInfix
  | cons c pre ih =>
    rw [hcons, outcome_bind_eq_ok_iff] at h
    obtain ⟨b', hb', h⟩ := h
    rw [List.cons_append, hcons, bind_of_ok hb']
    exact (ih h).trans (List.suffix_append _ _).isInfix

end Loop

/-- A loop over a list ends with an error in one of its rounds, after others that ended well. -/
theorem exists_of_loop_error (step : β → α → Traced ρ ε β) (loop : β → List α → Traced ρ ε β)
    (hnil : ∀ b, loop b [] = pure b)
    (hcons : ∀ b a as, loop b (a :: as) = step b a >>= fun b => loop b as) {as : List α} {b : β}
    {e : ε} (h : (loop b as).outcome = .error e) :
    ∃ pre a post b', as = pre ++ a :: post ∧ (loop b pre).outcome = .ok b' ∧
      (step b' a).outcome = .error e := by
  induction as generalizing b with
  | nil =>
    rw [hnil] at h
    cases h
  | cons a as ih =>
    rw [hcons, outcome_bind_eq_error_iff] at h
    obtain h | ⟨b₁, h₁, h⟩ := h
    · exact ⟨[], a, as, b, rfl, by rw [hnil]; rfl, h⟩
    · obtain ⟨pre, a', post, b', rfl, hb', he⟩ := ih h
      refine ⟨a :: pre, a', post, b', rfl, ?_, he⟩
      rw [hcons, outcome_bind_eq_ok_iff]
      exact ⟨b₁, h₁, hb'⟩

end Traced

end Graft
