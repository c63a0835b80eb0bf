import Mathlib.Tactic.IntervalCases
import Graft.Json.Reader

/-!
# Natural numbers in JSON texts

What a number literal is read as, digit by digit, and that double precision holds the magnitude of
every number of 64 bits.
-/

namespace Graft.Json

/-! ### Digits -/

lemma isDigit_digitChar : ∀ d < 10, (Nat.digitChar d).isDigit = true := by
  decide

lemma digitValue_digitChar : ∀ d < 10, digitValue (Nat.digitChar d) = d := by
  decide

/-- The digits of a number are those of its tenth part and then its last digit. -/
lemma toDigits_of_ge {n : Nat} (h : 10 ≤ n) :
    Nat.toDigits 10 n = Nat.toDigits 10 (n / 10) ++ [Nat.digitChar (n % 10)] :=
  Nat.toDigits_of_base_le (by decide) h

/-! ### Reading -/

namespace Reader

/-- A value may begin. -/
def AwaitsValue (r : Reader) : Prop :=
  r.focus = .value ∨ r.focus = .firstItem

lemma AwaitsValue.step {r : Reader} (h : r.AwaitsValue) {c : Char} (hg : isGap c = false)
    (hc : c ≠ ']') : r.step c = begin? r.frames c := by
  rcases h with h | h
  · simp [Reader.step, h, hg]
  · simp [Reader.step, h, hg, hc]

/-- A digit other than zero begins a number that may have more digits. -/
lemma begin?_digitChar (frames : List Frame) {d : Nat} (hd : d < 10) (h0 : 0 < d) :
    begin? frames (Nat.digitChar d) = some ⟨.number { part := .whole, whole := d }, frames⟩ := by
  interval_cases d <;> rfl

/-- The next digit goes on with a number that has begun. -/
lemma step_number_digitChar (n : Nat) (frames : List Frame) {d : Nat} (hd : d < 10) :
    step ⟨.number { part := .whole, whole := n }, frames⟩ (Nat.digitChar d) =
      some ⟨.number { part := .whole, whole := 10 * n + d }, frames⟩ := by
  simp [step, NumberSoFar.step?, isDigit_digitChar d hd, digitValue_digitChar d hd]

/-- The digits of a number other than zero are read as the number. -/
theorem AwaitsValue.run_toDigits {r : Reader} (h : r.AwaitsValue) {n : Nat} (hn : 0 < n) :
    r.run (Nat.toDigits 10 n) = some ⟨.number { part := .whole, whole := n }, r.frames⟩ := by
  induction n using Nat.strongRecOn with
  | ind n ih =>
    by_cases h10 : n < 10
    · have hg : ∀ d < 10, isGap (Nat.digitChar d) = false ∧ Nat.digitChar d ≠ ']' := by decide
      rw [Nat.toDigits_of_lt_base h10, run_cons, h.step (hg n h10).1 (hg n h10).2,
        begin?_digitChar r.frames h10 hn]
      rfl
    · rw [toDigits_of_ge (by omega), run_append, ih (n / 10) (by omega) (by omega),
        Option.bind_some, run_cons, step_number_digitChar _ _ (Nat.mod_lt n (by decide)),
        Option.bind_some, run_nil, Nat.div_add_mod]

end Reader

/-! ### Magnitude -/

namespace Number

lemma leadingDigits_append {xs : List Char} {v w : Nat} (h : leadingDigits v xs = (w, []))
    (ys : List Char) : leadingDigits v (xs ++ ys) = leadingDigits w ys := by
  induction xs generalizing v with
  | nil =>
    cases h
    rfl
  | cons x xs ih =>
    rw [leadingDigits] at h
    rw [List.cons_append, leadingDigits]
    by_cases hx : 10 * v + (x.toNat - '0'.toNat) < UInt64.size
    · simp only [hx, if_true] at h ⊢
      exact ih h
    · simp only [hx, if_false] at h
      cases h

/-- A number of 64 bits has all its digits among the leading ones. -/
lemma leadingDigits_toDigits {n : Nat} (hn : n < UInt64.size) :
    leadingDigits 0 (Nat.toDigits 10 n) = (n, []) := by
  induction n using Nat.strongRecOn with
  | ind n ih =>
    by_cases h10 : n < 10
    · have hv : (Nat.digitChar n).toNat - '0'.toNat = n := digitValue_digitChar n h10
      rw [Nat.toDigits_of_lt_base h10, leadingDigits]
      simp only [Nat.mul_zero, Nat.zero_add, hv, hn, if_true, leadingDigits]
    · have hv : (Nat.digitChar (n % 10)).toNat - '0'.toNat = n % 10 :=
        digitValue_digitChar _ (Nat.mod_lt n (by decide))
      rw [toDigits_of_ge (by omega), leadingDigits_append (ih (n / 10) (by omega) (by omega)),
        leadingDigits]
      simp only [hv, Nat.div_add_mod, hn, if_true, leadingDigits]

/-- Rounding at most doubles a number, which is all that is needed to stay finite. -/
lemma roundToDouble_le (n : Nat) : roundToDouble n ≤ 2 * n := by
  unfold roundToDouble
  split
  · omega
  · next h =>
    have hn : n ≠ 0 := by
      rintro rfl
      exact h (Nat.two_pow_pos 53)
    have hunit : Nat.pow 2 (n.log2 - 52) ≤ n :=
      Nat.le_trans (Nat.pow_le_pow_right (by decide) (Nat.sub_le _ _)) (Nat.log2_self_le hn)
    have hbelow : n / Nat.pow 2 (n.log2 - 52) * Nat.pow 2 (n.log2 - 52) ≤ n :=
      Nat.div_mul_le_self _ _
    simp only
    split
    · omega
    · rw [Nat.add_mul]
      omega

/-- Double precision holds the magnitude of a natural number of 64 bits. -/
theorem isFinite_ofNat {n : Nat} (hn : n < UInt64.size) : (ofNat n).isFinite = true := by
  have hs : (ofNat n).significand = (n, 0) := by
    rw [significand, ofNat, Nat.repr_eq_ofList_toDigits, String.toList_ofList,
      leadingDigits_toDigits hn]
    rfl
  unfold isFinite
  rw [hs]
  by_cases h0 : n = 0
  · simp only [h0, if_true]
  · have hwritten : ¬ (0 : Int) ≥ (Nat.pow 2 31 : Nat) := by decide +kernel
    have hone : roundToDouble (Nat.pow 10 0) = 1 := by decide +kernel
    have hbound : 2 * UInt64.size < overflowBound := by decide +kernel
    have hle := roundToDouble_le n
    simp only [h0, if_false, ofNat, Option.getD_none, hwritten, Int.add_zero, gt_iff_lt,
      Int.lt_irrefl, Int.toNat_zero, hone, Nat.mul_one]
    rw [if_neg (by decide), decide_eq_true_eq]
    exact Nat.lt_trans (Nat.lt_of_le_of_lt hle (Nat.mul_lt_mul_of_pos_left hn (by decide))) hbound

end Number

end Graft.Json
