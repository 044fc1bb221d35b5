import Mathlib.Data.Int.ModEq
import Mathlib.Tactic.LinearCombination

/-!
# The order of serial numbers

Serial numbers stand on a circle of `2 * h` points. One comes before another when
the second is reached going up in fewer than `h` steps, as RFC 1982 has it. The
relation is not an order: it is irreflexive and asymmetric, two numbers that lie
exactly `h` apart are not related at all, and it is not transitive. What it has is
that it only depends on the difference, so that moving both numbers keeps it.
-/

namespace SerialOrder

variable {h : ℕ} {a b a' b' : ℤ}

/-- The steps from `a` up to `b` on the circle of `2 * h` points. -/
def ahead (h : ℕ) (a b : ℤ) : ℤ := (b - a) % (2 * h : ℕ)

/-- `a` comes before `b`. -/
def Before (h : ℕ) (a b : ℤ) : Prop := 0 < ahead h a b ∧ ahead h a b < h

instance : Decidable (Before h a b) := inferInstanceAs (Decidable (_ ∧ _))

/-- Two numbers that name one point of the circle. -/
abbrev Same (h : ℕ) (a b : ℤ) : Prop := a ≡ b [ZMOD (2 * h : ℕ)]

theorem ahead_congr (ha : Same h a a') (hb : Same h b b') : ahead h a b = ahead h a' b' :=
  hb.sub ha

theorem before_congr (ha : Same h a a') (hb : Same h b b') : Before h a b ↔ Before h a' b' := by
  rw [Before, Before, ahead_congr ha hb]

/-- Moving both numbers by the same amount keeps their order. -/
theorem before_add_right (n : ℤ) : Before h (a + n) (b + n) ↔ Before h a b := by
  rw [Before, Before, ahead, ahead, add_sub_add_right_eq_sub]

/-- Between two numbers of the first round the steps are their difference, or what
is missing from it to a full round. -/
theorem ahead_of_round (ha : 0 ≤ a) (ha' : a < (2 * h : ℕ)) (hb : 0 ≤ b) (hb' : b < (2 * h : ℕ)) :
    ahead h a b = if a ≤ b then b - a else b - a + (2 * h : ℕ) := by
  rw [ahead]
  split
  · exact Int.emod_eq_of_lt (by omega) (by omega)
  · rw [← Int.add_emod_right]
    exact Int.emod_eq_of_lt (by omega) (by omega)

/-- No steps lead from `a` to `b` exactly when they are one point. -/
theorem ahead_eq_zero_iff : ahead h a b = 0 ↔ Same h a b := by
  rw [ahead, ← Int.dvd_iff_emod_eq_zero]
  exact Int.modEq_iff_dvd.symm

theorem not_before_same (hsame : Same h a b) : ¬ Before h a b := by
  intro hbefore
  have hzero := ahead_eq_zero_iff.mpr hsame
  have hsome := hbefore.1
  omega

section Round

variable (hpos : 0 < h)
include hpos

theorem ahead_nonneg : 0 ≤ ahead h a b := by
  rw [ahead]
  exact Int.emod_nonneg _ (by omega)

theorem ahead_lt : ahead h a b < (2 * h : ℕ) := by
  rw [ahead]
  exact Int.emod_lt_of_pos _ (by omega)

/-- The way back is what is missing to a full round. -/
theorem ahead_swap (hne : ¬ Same h a b) : ahead h b a = (2 * h : ℕ) - ahead h a b := by
  have hzero : ahead h a b ≠ 0 := mt ahead_eq_zero_iff.mp hne
  have hlow : 0 ≤ ahead h a b := ahead_nonneg hpos
  have hhigh : ahead h a b < (2 * h : ℕ) := ahead_lt hpos
  have hback : a - b = (2 * h : ℕ) - ahead h a b + (2 * h : ℕ) * (-((b - a) / (2 * h : ℕ)) - 1) := by
    have hdiv : ahead h a b + (2 * h : ℕ) * ((b - a) / (2 * h : ℕ)) = b - a :=
      Int.emod_add_mul_ediv (b - a) (2 * h : ℕ)
    linear_combination hdiv
  rw [ahead, hback, Int.add_mul_emod_self_left]
  exact Int.emod_eq_of_lt (by omega) (by omega)

theorem before_asymm (hab : Before h a b) : ¬ Before h b a := by
  intro hba
  have hne : ¬ Same h a b := fun hsame => not_before_same hsame hab
  have hswap := ahead_swap hpos hne
  obtain ⟨-, hab⟩ := hab
  obtain ⟨-, hba⟩ := hba
  omega

/-- Two points are one, or one comes before the other, unless they lie exactly
opposite. -/
theorem same_or_before_iff :
    Same h a b ∨ Before h a b ∨ Before h b a ↔ ahead h a b ≠ h := by
  have hlow : 0 ≤ ahead h a b := ahead_nonneg hpos
  have hhigh : ahead h a b < (2 * h : ℕ) := ahead_lt hpos
  by_cases hsame : Same h a b
  · have hzero := ahead_eq_zero_iff.mpr hsame
    exact ⟨fun _ => by omega, fun _ => .inl hsame⟩
  · have hzero : ahead h a b ≠ 0 := mt ahead_eq_zero_iff.mp hsame
    have hswap := ahead_swap hpos hsame
    simp only [Before, hsame, hswap, false_or]
    omega

end Round

end SerialOrder
