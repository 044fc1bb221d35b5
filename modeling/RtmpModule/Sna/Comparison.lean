import RtmpModule.Library.SerialOrder
import RtmpModule.Sna

/-!
# Comparing serial numbers

The two comparisons of `serialnumber` are the order of RFC 1982 on a circle of
`2 ^ serialbits` points, and one is the other read backwards. The order only
depends on the difference, so adding to both sides keeps it, by the constructor as
well as by the member `add`.
-/

namespace Rtmp

namespace Sna

namespace SerialNumber

/-- What the member `add` throws. -/
inductive AddError where
  | invalidArgument
  | overflowError
  deriving DecidableEq, Repr

/-- The member `add`; the number it returns is the one it leaves in the object. -/
def add (s o : SerialNumber) : Except AddError SerialNumber :=
  if s.serialbits ≠ o.serialbits then .error .invalidArgument
  else if o.number ≤ s.maxAddNumber then .ok { s with number := (s.number + o.number) % s.divisor }
  else .error .overflowError

end SerialNumber

open SerialOrder

section Sized

variable {bits : ℕ} (x y n : ℕ)

theorem number_serialnumber_lt : (serialnumber x bits).number < 2 ^ bits :=
  Nat.mod_lt _ (Nat.two_pow_pos bits)

/-- The member `add` makes the serial number of the sum, or throws when the number
added is beyond half of the circle. -/
theorem SerialNumber.add_serialnumber :
    (serialnumber x bits).add (serialnumber n bits) =
      if n % 2 ^ bits ≤ 2 ^ (bits - 1) - 1 then .ok (serialnumber (x + n) bits)
      else .error .overflowError := by
  simp [SerialNumber.add, serialnumber]

variable (hbits : 0 < bits)
include hbits

theorem two_mul_half : 2 * 2 ^ (bits - 1) = 2 ^ bits := by
  rw [mul_comm, ← Nat.pow_succ, Nat.succ_eq_add_one, Nat.sub_add_cancel hbits]

theorem same_number : Same (2 ^ (bits - 1)) (serialnumber x bits).number x := by
  rw [Same, two_mul_half hbits]
  exact (Int.natCast_modEq_iff.mpr (Nat.mod_modEq x (2 ^ bits)))

theorem eq_iff_same :
    (serialnumber x bits).eq (serialnumber y bits) = true ↔ Same (2 ^ (bits - 1)) x y := by
  rw [SerialNumber.eq, decide_eq_true_iff, Same, two_mul_half hbits, Int.natCast_modEq_iff]
  rfl

theorem lt_iff_before :
    (serialnumber x bits).lt (serialnumber y bits) = true ↔ Before (2 ^ (bits - 1)) x y := by
  have hround := two_mul_half hbits
  have hx : (serialnumber x bits).number < 2 ^ bits := number_serialnumber_lt x
  have hy : (serialnumber y bits).number < 2 ^ bits := number_serialnumber_lt y
  rw [← before_congr (same_number x hbits) (same_number y hbits), Before,
    ahead_of_round (by omega) (by omega) (by omega) (by omega), SerialNumber.lt,
    Bool.or_eq_true, decide_eq_true_iff, decide_eq_true_iff]
  have hhalf : (serialnumber x bits).halfDivisor = 2 ^ (bits - 1) := rfl
  rw [hhalf]
  split <;> omega

omit hbits in
theorem gt_eq_lt :
    (serialnumber x bits).gt (serialnumber y bits) =
      (serialnumber y bits).lt (serialnumber x bits) := by
  rw [SerialNumber.gt, SerialNumber.lt, Bool.or_comm]
  rfl

theorem gt_iff_before :
    (serialnumber x bits).gt (serialnumber y bits) = true ↔ Before (2 ^ (bits - 1)) y x := by
  rw [gt_eq_lt]
  exact lt_iff_before y x hbits

/-- Adding one number to both sides keeps their order. -/
theorem lt_add :
    (serialnumber (x + n) bits).lt (serialnumber (y + n) bits) =
      (serialnumber x bits).lt (serialnumber y bits) := by
  rw [Bool.eq_iff_iff, lt_iff_before _ _ hbits, lt_iff_before _ _ hbits, Nat.cast_add,
    Nat.cast_add]
  exact before_add_right n

end Sized

/-- The sum of two `uint64_t` wraps around on a multiple of the circle. -/
theorem serialnumber_add_uint64 {bits : ℕ} (hbits : bits ≤ 63) (x n : UInt64) :
    serialnumber (x + n).toNat bits = serialnumber (x.toNat + n.toNat) bits := by
  have hdvd : 2 ^ bits ∣ 2 ^ 64 := Nat.pow_dvd_pow 2 (by omega)
  rw [UInt64.toNat_add]
  simp only [serialnumber, Nat.mod_mod_of_dvd _ hdvd]

/-- Two numbers of one size both take an addition, and keep their order, or both throw. -/
theorem add_alike {bits : ℕ} (hbits : 0 < bits) (x y n : ℕ) :
    (∃ a b, (serialnumber x bits).add (serialnumber n bits) = .ok a ∧
      (serialnumber y bits).add (serialnumber n bits) = .ok b ∧
      a.lt b = (serialnumber x bits).lt (serialnumber y bits)) ∨
    ((serialnumber x bits).add (serialnumber n bits) = .error .overflowError ∧
      (serialnumber y bits).add (serialnumber n bits) = .error .overflowError) := by
  rw [SerialNumber.add_serialnumber, SerialNumber.add_serialnumber]
  split
  · exact .inl ⟨_, _, rfl, rfl, lt_add x y n hbits⟩
  · exact .inr ⟨rfl, rfl⟩

/-- Serial numbers of any size are compared as RFC 1982 has it. -/
theorem comparison {bits : ℕ} (hlow : 1 ≤ bits) (hhigh : bits ≤ 63) (x y : UInt64) :
    let a := serialnumber x.toNat bits
    let b := serialnumber y.toNat bits
    let steps := ((b.number : ℤ) - a.number) % 2 ^ bits
    (a.lt b = true ↔ 0 < steps ∧ steps < 2 ^ (bits - 1)) ∧
    (a.gt b = true ↔ b.lt a = true) ∧
    ¬ (a.lt b = true ∧ a.eq b = true) ∧ ¬ (a.eq b = true ∧ a.gt b = true) ∧
    ¬ (a.lt b = true ∧ a.gt b = true) ∧
    (a.lt b = true ∨ a.eq b = true ∨ a.gt b = true ↔ steps ≠ 2 ^ (bits - 1)) ∧
    ∀ n : UInt64,
      (serialnumber (x + n).toNat bits).lt (serialnumber (y + n).toNat bits) = a.lt b ∧
      ((∃ a' b', a.add (serialnumber n.toNat bits) = .ok a' ∧
          b.add (serialnumber n.toNat bits) = .ok b' ∧ a'.lt b' = a.lt b) ∨
        (a.add (serialnumber n.toNat bits) = .error .overflowError ∧
          b.add (serialnumber n.toNat bits) = .error .overflowError)) := by
  intro a b steps
  have hpos : 0 < 2 ^ (bits - 1) := Nat.two_pow_pos _
  have hsteps : ahead (2 ^ (bits - 1)) x.toNat y.toNat = steps := by
    rw [← ahead_congr (same_number x.toNat hlow) (same_number y.toNat hlow), ahead,
      two_mul_half hlow]
    push_cast
    rfl
  have hlt : a.lt b = true ↔ Before (2 ^ (bits - 1)) x.toNat y.toNat :=
    lt_iff_before x.toNat y.toNat hlow
  have hgt : a.gt b = true ↔ Before (2 ^ (bits - 1)) y.toNat x.toNat :=
    gt_iff_before x.toNat y.toNat hlow
  have heq : a.eq b = true ↔ Same (2 ^ (bits - 1)) x.toNat y.toNat :=
    eq_iff_same x.toNat y.toNat hlow
  refine ⟨?_, ?_, ?_, ?_, ?_, ?_, ?_⟩
  · rw [hlt, Before, hsteps]
    push_cast
    rfl
  · rw [gt_eq_lt]
  · rintro ⟨hab, hsame⟩
    exact not_before_same (heq.mp hsame) (hlt.mp hab)
  · rintro ⟨hsame, hba⟩
    exact not_before_same (heq.mp hsame).symm (hgt.mp hba)
  · rintro ⟨hab, hba⟩
    exact before_asymm hpos (hlt.mp hab) (hgt.mp hba)
  · have htri := same_or_before_iff hpos (a := x.toNat) (b := y.toNat)
    rw [hsteps] at htri
    rw [hlt, hgt, heq, or_left_comm, htri]
    push_cast
    rfl
  · intro n
    refine ⟨?_, add_alike hlow x.toNat y.toNat n.toNat⟩
    rw [serialnumber_add_uint64 hhigh, serialnumber_add_uint64 hhigh]
    exact lt_add x.toNat y.toNat n.toNat hlow

theorem comparison_wrap :
    1 ≤ 8 ∧ 8 ≤ 63 ∧
    ((serialnumber (250 : UInt64).toNat 8).lt (serialnumber (4 : UInt64).toNat 8) = true ↔
      0 < (((serialnumber (4 : UInt64).toNat 8).number : ℤ) -
          (serialnumber (250 : UInt64).toNat 8).number) % 2 ^ 8 ∧
        (((serialnumber (4 : UInt64).toNat 8).number : ℤ) -
          (serialnumber (250 : UInt64).toNat 8).number) % 2 ^ 8 < 2 ^ (8 - 1)) :=
  ⟨by decide, by decide, (comparison (by decide) (by decide) 250 4).1⟩

end Sna

end Rtmp
