import Mathlib.Data.Nat.Digits.Lemmas

/-!
# Fixed-width byte encodings of natural numbers

Little-endian and big-endian encodings over a chosen number of bytes. Encoding
keeps the low bytes only, so decoding an encoding is reduction modulo the range
of the width; on numbers that fit, the two are inverse to each other.
-/

namespace Bytes

/-- The low `n` bytes of `v`, least significant byte first. -/
def toLE : Nat → Nat → List UInt8
  | 0, _ => []
  | n + 1, v => UInt8.ofNat v :: toLE n (v / 256)

/-- The number denoted by bytes in little-endian order. -/
def ofLE (bs : List UInt8) : Nat := Nat.ofDigits 256 (bs.map UInt8.toNat)

/-- The low `n` bytes of `v`, most significant byte first. -/
def toBE (n v : Nat) : List UInt8 := (toLE n v).reverse

/-- The number denoted by bytes in big-endian order. -/
def ofBE (bs : List UInt8) : Nat := ofLE bs.reverse

@[simp] theorem length_toLE (n v : Nat) : (toLE n v).length = n := by
  induction n generalizing v with
  | zero => rfl
  | succ n ih => simp [toLE, ih]

@[simp] theorem length_toBE (n v : Nat) : (toBE n v).length = n := by
  simp [toBE]

@[simp] theorem ofLE_nil : ofLE [] = 0 := rfl

@[simp] theorem ofLE_cons (b : UInt8) (bs : List UInt8) :
    ofLE (b :: bs) = b.toNat + 256 * ofLE bs := by
  simp [ofLE, Nat.ofDigits_cons]

theorem ofLE_append (as bs : List UInt8) :
    ofLE (as ++ bs) = ofLE as + 256 ^ as.length * ofLE bs := by
  simp [ofLE, Nat.ofDigits_append]

@[simp] theorem ofBE_nil : ofBE [] = 0 := rfl

theorem ofBE_cons (b : UInt8) (bs : List UInt8) :
    ofBE (b :: bs) = b.toNat * 256 ^ bs.length + ofBE bs := by
  rw [ofBE, List.reverse_cons, ofLE_append, List.length_reverse, ← ofBE]
  simp only [ofLE_cons, ofLE_nil, Nat.mul_zero, Nat.add_zero]
  rw [Nat.add_comm, Nat.mul_comm]

theorem ofLE_lt (bs : List UInt8) : ofLE bs < 256 ^ bs.length := by
  have h := Nat.ofDigits_lt_base_pow_length (b := 256) (l := bs.map UInt8.toNat)
    (by decide) (by
      intro x hx
      obtain ⟨b, _, rfl⟩ := List.mem_map.mp hx
      exact UInt8.toNat_lt b)
  simpa only [ofLE, List.length_map] using h

theorem ofBE_lt (bs : List UInt8) : ofBE bs < 256 ^ bs.length := by
  simpa [ofBE] using ofLE_lt bs.reverse

/-- Decoding an encoding reduces modulo the range of the width. -/
theorem ofLE_toLE (n v : Nat) : ofLE (toLE n v) = v % 256 ^ n := by
  induction n generalizing v with
  | zero => simp [toLE, Nat.mod_one]
  | succ n ih =>
      rw [toLE, ofLE_cons, ih, Nat.pow_succ', Nat.mod_mul]
      simp

theorem ofBE_toBE (n v : Nat) : ofBE (toBE n v) = v % 256 ^ n := by
  simp [ofBE, toBE, ofLE_toLE]

/-- Encoding over as many bytes as were decoded gives the bytes back. -/
theorem toLE_ofLE (bs : List UInt8) : toLE bs.length (ofLE bs) = bs := by
  induction bs with
  | nil => rfl
  | cons b bs ih =>
      have hb : b.toNat < 256 := UInt8.toNat_lt b
      rw [List.length_cons, toLE, ofLE_cons]
      congr 1
      · apply UInt8.toNat_inj.mp
        simp only [UInt8.toNat_ofNat']
        omega
      · rw [Nat.add_mul_div_left _ _ (by decide : 0 < 256), Nat.div_eq_of_lt hb,
          Nat.zero_add, ih]

/-- The big-endian form of `toLE_ofLE`. -/
theorem toBE_ofBE (bs : List UInt8) : toBE bs.length (ofBE bs) = bs := by
  rw [toBE, ofBE, ← List.length_reverse, toLE_ofLE, List.reverse_reverse]

theorem toLE_ofLE_of_length {n : Nat} {bs : List UInt8} (h : bs.length = n) :
    toLE n (ofLE bs) = bs := by
  subst n
  exact toLE_ofLE bs

/-- Only the low bytes are encoded. -/
theorem toLE_mod (n v : Nat) : toLE n (v % 256 ^ n) = toLE n v := by
  rw [← ofLE_toLE, toLE_ofLE_of_length (length_toLE n v)]

theorem toBE_mod (n v : Nat) : toBE n (v % 256 ^ n) = toBE n v := by
  rw [toBE, toLE_mod, toBE]

theorem ofLE_toLE_of_lt {n v : Nat} (h : v < 256 ^ n) : ofLE (toLE n v) = v := by
  rw [ofLE_toLE, Nat.mod_eq_of_lt h]

theorem ofBE_toBE_of_lt {n v : Nat} (h : v < 256 ^ n) : ofBE (toBE n v) = v := by
  rw [ofBE_toBE, Nat.mod_eq_of_lt h]

end Bytes
