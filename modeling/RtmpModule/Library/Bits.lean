import RtmpModule.Library.Bytes

/-!
# Bit fields, most significant bit first

The bits of numbers and bytes as lists that start at the most significant bit, the
number a list of bits denotes, and a decoder that takes fields of chosen widths off
the front of such a list. On the bits of a number, a field is a quotient and a
remainder.
-/

namespace Bits

/-- The low `n` bits of `v`. -/
def toBits : Nat → Nat → List Bool
  | 0, _ => []
  | n + 1, v => v.testBit n :: toBits n v

/-- The number denoted by a list of bits. -/
def ofBits : List Bool → Nat
  | [] => 0
  | b :: bits => b.toNat * 2 ^ bits.length + ofBits bits

def ofBytes (bs : List UInt8) : List Bool := bs.flatMap fun b => toBits 8 b.toNat

@[simp] theorem length_toBits (n v : Nat) : (toBits n v).length = n := by
  induction n with
  | zero => rfl
  | succ n ih => simp [toBits, ih]

/-- Bits split where the number does. -/
theorem toBits_add (n m v : Nat) : toBits (n + m) v = toBits n (v / 2 ^ m) ++ toBits m v := by
  induction n with
  | zero => simp [toBits]
  | succ n ih =>
      rw [Nat.add_right_comm, toBits, toBits, ih, Nat.testBit_div_two_pow, List.cons_append]

theorem ofBits_toBits (n v : Nat) : ofBits (toBits n v) = v % 2 ^ n := by
  induction n with
  | zero => simp [toBits, ofBits, Nat.mod_one]
  | succ n ih =>
      rw [toBits, ofBits, length_toBits, ih, Nat.mod_pow_succ, Nat.toNat_testBit, Nat.add_comm,
        Nat.mul_comm]

theorem ofBits_append (as bs : List Bool) :
    ofBits (as ++ bs) = ofBits as * 2 ^ bs.length + ofBits bs := by
  induction as with
  | nil => simp [ofBits]
  | cons a as ih =>
      rw [List.cons_append, ofBits, ofBits, ih, List.length_append, pow_add]
      ring

theorem ofBits_lt (bits : List Bool) : ofBits bits < 2 ^ bits.length := by
  induction bits with
  | nil => simp [ofBits]
  | cons b bits ih =>
      rw [ofBits, List.length_cons, Nat.pow_succ]
      cases b <;> simp <;> omega

/-- Only the low bits are listed. -/
theorem toBits_mod (n v : Nat) : toBits n (v % 2 ^ n) = toBits n v := by
  suffices h : ∀ k, k ≤ n → toBits k (v % 2 ^ n) = toBits k v from h n (Nat.le_refl n)
  intro k hk
  induction k with
  | zero => rfl
  | succ k ih =>
      rw [toBits, toBits, ih (by omega), Nat.testBit_mod_two_pow]
      simp [show k < n by omega]

@[simp] theorem ofBytes_nil : ofBytes [] = [] := rfl

@[simp] theorem ofBytes_cons (b : UInt8) (bs : List UInt8) :
    ofBytes (b :: bs) = toBits 8 b.toNat ++ ofBytes bs := rfl

@[simp] theorem length_ofBytes (bs : List UInt8) : (ofBytes bs).length = 8 * bs.length := by
  induction bs with
  | nil => rfl
  | cons b bs ih =>
      rw [ofBytes_cons, List.length_append, length_toBits, ih, List.length_cons]
      omega

/-- Bytes and the big-endian number they denote have the same bits. -/
theorem ofBytes_eq (bs : List UInt8) : ofBytes bs = toBits (8 * bs.length) (Bytes.ofBE bs) := by
  induction bs with
  | nil => rfl
  | cons b bs ih =>
      have hpow : 256 ^ bs.length = 2 ^ (8 * bs.length) := by rw [Nat.pow_mul]
      have hlt : Bytes.ofBE bs < 2 ^ (8 * bs.length) := hpow ▸ Bytes.ofBE_lt bs
      have hlow : Bytes.ofBE (b :: bs) % 2 ^ (8 * bs.length) = Bytes.ofBE bs := by
        rw [Bytes.ofBE_cons, hpow, Nat.mul_comm, Nat.mul_add_mod, Nat.mod_eq_of_lt hlt]
      have hhigh : Bytes.ofBE (b :: bs) / 2 ^ (8 * bs.length) = b.toNat := by
        rw [Bytes.ofBE_cons, hpow, Nat.mul_comm, Nat.mul_add_div (by positivity),
          Nat.div_eq_of_lt hlt, Nat.add_zero]
      have hlength : 8 * (b :: bs).length = 8 + 8 * bs.length := by
        rw [List.length_cons]
        omega
      rw [ofBytes_cons, ih, hlength, toBits_add, hhigh, ← toBits_mod _ (Bytes.ofBE (b :: bs)), hlow]

/-- Leading bytes as the bits of one number. -/
theorem ofBytes_append (bs more : List UInt8) :
    ofBytes (bs ++ more) = toBits (8 * bs.length) (Bytes.ofBE bs) ++ ofBytes more := by
  rw [← ofBytes_eq, ofBytes, List.flatMap_append]
  rfl

theorem ofBytes_two (b0 b1 : UInt8) (more : List UInt8) :
    ofBytes (b0 :: b1 :: more) = toBits 16 (b0.toNat * 256 + b1.toNat) ++ ofBytes more := by
  have hvalue : Bytes.ofBE [b0, b1] = b0.toNat * 256 + b1.toNat := by simp [Bytes.ofBE_cons]
  exact hvalue ▸ ofBytes_append [b0, b1] more

/-- The numbers in consecutive fields of given widths. -/
def fields : List Nat → List Bool → List Nat
  | [], _ => []
  | n :: widths, bits => ofBits (bits.take n) :: fields widths (bits.drop n)

/-- A field is a field in front of another one. -/
theorem ofBits_take_add {n m : Nat} {bits : List Bool} (h : n + m ≤ bits.length) :
    ofBits (bits.take (n + m)) =
      ofBits (bits.take n) * 2 ^ m + ofBits ((bits.drop n).take m) := by
  have hlength : ((bits.drop n).take m).length = m := by
    rw [List.length_take, List.length_drop]
    omega
  rw [List.take_add, ofBits_append, hlength]

section Words

/-- Masking a field and shifting it down. -/
theorem and_shiftRight (x k j : Nat) :
    (x &&& ((2 ^ j - 1) <<< k)) >>> k = x / 2 ^ k % 2 ^ j := by
  rw [Nat.shiftRight_and_distrib, Nat.shiftLeft_shiftRight, Nat.and_two_pow_sub_one_eq_mod,
    Nat.shiftRight_eq_div_pow]

theorem uint8_and_shiftRight {b m k : UInt8} {j : Nat} (hk : k.toNat < 8)
    (hm : m.toNat = (2 ^ j - 1) <<< k.toNat) :
    ((b &&& m) >>> k).toNat = b.toNat / 2 ^ k.toNat % 2 ^ j := by
  rw [UInt8.toNat_shiftRight, UInt8.toNat_and, Nat.mod_eq_of_lt hk, hm, and_shiftRight]

theorem uint32_and_shiftRight {b m k : UInt32} {j : Nat} (hk : k.toNat < 32)
    (hm : m.toNat = (2 ^ j - 1) <<< k.toNat) :
    ((b &&& m) >>> k).toNat = b.toNat / 2 ^ k.toNat % 2 ^ j := by
  rw [UInt32.toNat_shiftRight, UInt32.toNat_and, Nat.mod_eq_of_lt hk, hm, and_shiftRight]

/-- Shifting a field down and masking it. -/
theorem uint8_shiftRight_and {b m k : UInt8} {j : Nat} (hk : k.toNat < 8)
    (hm : m.toNat = 2 ^ j - 1) : ((b >>> k) &&& m).toNat = b.toNat / 2 ^ k.toNat % 2 ^ j := by
  rw [UInt8.toNat_and, UInt8.toNat_shiftRight, Nat.mod_eq_of_lt hk, hm,
    Nat.and_two_pow_sub_one_eq_mod, Nat.shiftRight_eq_div_pow]

theorem uint32_shiftRight_and {b m k : UInt32} {j : Nat} (hk : k.toNat < 32)
    (hm : m.toNat = 2 ^ j - 1) : ((b >>> k) &&& m).toNat = b.toNat / 2 ^ k.toNat % 2 ^ j := by
  rw [UInt32.toNat_and, UInt32.toNat_shiftRight, Nat.mod_eq_of_lt hk, hm,
    Nat.and_two_pow_sub_one_eq_mod, Nat.shiftRight_eq_div_pow]

theorem shiftLeft_fits {a k w : Nat} (hk : k < w) (ha : a < 2 ^ (w - k)) : a <<< k < 2 ^ w := by
  rw [Nat.shiftLeft_eq]
  calc a * 2 ^ k < 2 ^ (w - k) * 2 ^ k := Nat.mul_lt_mul_of_pos_right ha (Nat.two_pow_pos k)
    _ = 2 ^ w := by rw [← Nat.pow_add, Nat.sub_add_cancel (Nat.le_of_lt hk)]

/-- Putting a field in front of another. -/
theorem uint8_shiftLeft_or {a b k : UInt8} (hk : k.toNat < 8) (ha : a.toNat < 2 ^ (8 - k.toNat))
    (hb : b.toNat < 2 ^ k.toNat) : ((a <<< k) ||| b).toNat = a.toNat * 2 ^ k.toNat + b.toNat := by
  rw [UInt8.toNat_or, UInt8.toNat_shiftLeft, Nat.mod_eq_of_lt hk,
    Nat.mod_eq_of_lt (shiftLeft_fits hk ha), ← Nat.shiftLeft_add_eq_or_of_lt hb, Nat.shiftLeft_eq]

theorem uint32_shiftLeft_or {a b k : UInt32} (hk : k.toNat < 32)
    (ha : a.toNat < 2 ^ (32 - k.toNat)) (hb : b.toNat < 2 ^ k.toNat) :
    ((a <<< k) ||| b).toNat = a.toNat * 2 ^ k.toNat + b.toNat := by
  rw [UInt32.toNat_or, UInt32.toNat_shiftLeft, Nat.mod_eq_of_lt hk,
    Nat.mod_eq_of_lt (shiftLeft_fits hk ha), ← Nat.shiftLeft_add_eq_or_of_lt hb, Nat.shiftLeft_eq]

end Words

/-- A decoder of bit fields. -/
abbrev Decoder := StateT (List Bool) Option

/-- The number in the next `n` bits, where there are as many. -/
def field (n : Nat) : Decoder Nat := fun bits =>
  if n ≤ bits.length then some (ofBits (bits.take n), bits.drop n) else none

/-- On the bits of a number, a field is a quotient and a remainder. -/
theorem field_toBits (n m v : Nat) (more : List Bool) :
    field n (toBits (n + m) v ++ more) = some (v / 2 ^ m % 2 ^ n, toBits m v ++ more) := by
  have hsplit : toBits (n + m) v ++ more = toBits n (v / 2 ^ m) ++ (toBits m v ++ more) := by
    rw [toBits_add, List.append_assoc]
  rw [field, hsplit, List.take_left' (length_toBits _ _), List.drop_left' (length_toBits _ _),
    ofBits_toBits, if_pos (by simp)]

theorem field_short {n : Nat} {bits : List Bool} (h : bits.length < n) : field n bits = none := by
  rw [field, if_neg (by omega)]

theorem field_some {n value : Nat} {bits rest : List Bool} (h : field n bits = some (value, rest)) :
    bits.length = n + rest.length ∧ value < 2 ^ n := by
  rw [field] at h
  split at h
  · next hle =>
    cases h
    have hlt := ofBits_lt (bits.take n)
    rw [List.length_take, Nat.min_eq_left hle] at hlt
    rw [List.length_drop]
    exact ⟨by omega, hlt⟩
  · cases h

/-- Two fields in a row need the bits of both. -/
theorem field_field_short {n k : Nat} {bits : List Bool} (h : bits.length < n + k) :
    (field n bits).bind (fun p => field k p.2) = none := by
  cases hn : field n bits with
  | none => rfl
  | some p =>
      obtain ⟨value, rest⟩ := p
      have hlength := (field_some hn).1
      exact field_short (show rest.length < k by omega)

end Bits
