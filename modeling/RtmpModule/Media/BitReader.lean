import RtmpModule.Library.Bits
import RtmpModule.Media.FlvUtil

/-!
# The bit reader

`flv_util::BitReader` reads fields of up to 32 bits that may straddle bytes. It does
not check that the bits are there: a read beyond the last byte is a fault. Against
the bits of its data, a reader is the decoder of bit fields, whose value it keeps in
32 bits, and it stays inside exactly the reads that `BitsLeft` allows.
-/

namespace Rtmp

namespace FlvUtil

/-- `BitReader`, whose position never passes the last bit. -/
structure BitReader where
  data : List UInt8
  pos : Nat
  inside : pos ≤ 8 * data.length

namespace BitReader

def ofData (data : List UInt8) : BitReader := ⟨data, 0, Nat.zero_le _⟩

/-- `BitsLeft`. -/
def bitsLeft (reader : BitReader) : Nat := 8 * reader.data.length - reader.pos

/-- The bits behind the position. -/
def bits (reader : BitReader) : List Bool := (Bits.ofBytes reader.data).drop reader.pos

/-- `chunk_size`: the part of the next `n` bits that lies in one byte. -/
def chunkSize (pos n : Nat) : Nat := min n (8 - pos % 8)

theorem chunkSize_le (pos n : Nat) : chunkSize pos n ≤ n := Nat.min_le_left _ _

theorem chunkSize_pos {pos n : Nat} (hn : n ≠ 0) : 0 < chunkSize pos n := by
  rw [chunkSize]
  omega

theorem chunkSize_inside {pos n length : Nat} (h : pos / 8 < length) :
    pos + chunkSize pos n ≤ 8 * length := by
  rw [chunkSize]
  omega

/-- The loop of `ReadBits`. -/
def readBitsLoop (reader : BitReader) (result : UInt32) (n : Nat) :
    Except MemoryFault (UInt32 × BitReader) :=
  if _hn : n = 0 then .ok (result, reader)
  else if h : reader.pos / 8 < reader.data.length then
    let bitsAvail := 8 - reader.pos % 8
    let size := chunkSize reader.pos n
    let chunkBits := (reader.data[reader.pos / 8].toUInt32 >>> UInt32.ofNat (bitsAvail - size)) &&&
      (((1 : UInt32) <<< UInt32.ofNat size) - 1)
    readBitsLoop ⟨reader.data, reader.pos + size, chunkSize_inside h⟩
      ((result <<< UInt32.ofNat size) ||| chunkBits) (n - size)
  else .error (.outOfBounds (reader.pos / 8))
termination_by n
decreasing_by
  have hpos := @chunkSize_pos reader.pos n _hn
  have hle := chunkSize_le reader.pos n
  omega

/-- `ReadBits`. -/
def readBits (n : Nat) : StateT BitReader (Except MemoryFault) UInt32 := fun reader =>
  readBitsLoop reader 0 n

variable {reader : BitReader} {n : Nat}

@[simp] theorem length_bits (reader : BitReader) : reader.bits.length = reader.bitsLeft := by
  rw [bits, List.length_drop, Bits.length_ofBytes, bitsLeft]

@[simp] theorem bits_ofData (data : List UInt8) : (ofData data).bits = Bits.ofBytes data := rfl

theorem advance_inside (h : n ≤ reader.bitsLeft) : reader.pos + n ≤ 8 * reader.data.length := by
  have := reader.inside
  rw [bitsLeft] at h
  omega

def advance (reader : BitReader) (n : Nat) (h : n ≤ reader.bitsLeft) : BitReader :=
  ⟨reader.data, reader.pos + n, advance_inside h⟩

@[simp] theorem bits_advance (h : n ≤ reader.bitsLeft) :
    (reader.advance n h).bits = reader.bits.drop n := by
  rw [bits, advance, bits, List.drop_drop]

@[simp] theorem bitsLeft_advance (h : n ≤ reader.bitsLeft) :
    (reader.advance n h).bitsLeft = reader.bitsLeft - n := by
  simp only [bitsLeft, advance]
  omega

/-- The bits inside one byte are a quotient and a remainder of it. -/
theorem take_bits {pos c : Nat} {bs : List UInt8} (h : pos / 8 < bs.length)
    (hc : c ≤ 8 - pos % 8) :
    ((Bits.ofBytes bs).drop pos).take c =
      Bits.toBits c (bs[pos / 8].toNat / 2 ^ (8 - pos % 8 - c)) := by
  induction bs generalizing pos with
  | nil => simp at h
  | cons b bs ih =>
      by_cases hpos : pos < 8
      · have hdiv : pos / 8 = 0 := Nat.div_eq_of_lt hpos
        have hmod : pos % 8 = pos := Nat.mod_eq_of_lt hpos
        rw [hmod] at hc
        have hsplit : Bits.toBits 8 b.toNat =
            Bits.toBits pos (b.toNat / 2 ^ (8 - pos)) ++
              (Bits.toBits c (b.toNat / 2 ^ (8 - pos - c)) ++
                Bits.toBits (8 - pos - c) b.toNat) := by
          rw [← Bits.toBits_add, show c + (8 - pos - c) = 8 - pos by omega, ← Bits.toBits_add,
            show pos + (8 - pos) = 8 by omega]
        simp only [hdiv, hmod, List.getElem_cons_zero]
        rw [Bits.ofBytes_cons, hsplit, List.append_assoc, List.drop_left' (Bits.length_toBits _ _),
          List.append_assoc, List.take_left' (Bits.length_toBits _ _)]
      · have hdiv : pos / 8 = (pos - 8) / 8 + 1 := by omega
        have hmod : pos % 8 = (pos - 8) % 8 := by omega
        have hlt : (pos - 8) / 8 < bs.length := by
          rw [hdiv, List.length_cons] at h
          omega
        have hdrop : (Bits.ofBytes (b :: bs)).drop pos = (Bits.ofBytes bs).drop (pos - 8) := by
          rw [Bits.ofBytes_cons, List.drop_append, List.drop_eq_nil_of_le (by simp; omega),
            Bits.length_toBits, List.nil_append]
        rw [hdrop, ih hlt (by omega), hmod]
        simp only [hdiv, List.getElem_cons_succ]

theorem toNat_ofNat_of_le {c : Nat} (hc : c ≤ 8) : (UInt32.ofNat c).toNat = c := by
  rw [UInt32.toNat_ofNat', Nat.mod_eq_of_lt (by omega)]

theorem chunkMask_toNat {c : Nat} (hc : c ≤ 8) :
    (((1 : UInt32) <<< UInt32.ofNat c) - 1).toNat = 2 ^ c - 1 := by
  interval_cases c <;> rfl

/-- The next bits of the reader that lie in one byte. -/
theorem take_chunk (h : reader.pos / 8 < reader.data.length) :
    ((reader.data[reader.pos / 8].toUInt32 >>>
        UInt32.ofNat (8 - reader.pos % 8 - chunkSize reader.pos n)) &&&
      (((1 : UInt32) <<< UInt32.ofNat (chunkSize reader.pos n)) - 1)).toNat =
      Bits.ofBits (reader.bits.take (chunkSize reader.pos n)) := by
  have hc : chunkSize reader.pos n ≤ 8 - reader.pos % 8 := Nat.min_le_right _ _
  generalize chunkSize reader.pos n = c at hc
  rw [bits, take_bits h hc, Bits.ofBits_toBits, UInt32.toNat_and, UInt32.toNat_shiftRight,
    UInt8.toNat_toUInt32, chunkMask_toNat (by omega), toNat_ofNat_of_le (by omega),
    Nat.mod_eq_of_lt (by omega), Nat.and_two_pow_sub_one_eq_mod, Nat.shiftRight_eq_div_pow]

/-- Shifting a number up and filling the low bits in, modulo 2^32. -/
theorem shiftLeft_or {m c k : Nat} (hc : c ≤ 8) {chunkBits : UInt32}
    (hk : chunkBits.toNat = k) (hlt : k < 2 ^ c) :
    (UInt32.ofNat m <<< UInt32.ofNat c) ||| chunkBits = UInt32.ofNat (m * 2 ^ c + k) := by
  have hpow : 2 ^ 32 = 2 ^ c * 2 ^ (32 - c) := by
    rw [← Nat.pow_add]
    congr 1
    omega
  have hpos : 0 < 2 ^ c := Nat.two_pow_pos c
  have hshift : (UInt32.ofNat m <<< UInt32.ofNat c).toNat = 2 ^ c * (m % 2 ^ (32 - c)) := by
    rw [UInt32.toNat_shiftLeft, toNat_ofNat_of_le hc, UInt32.toNat_ofNat',
      Nat.mod_eq_of_lt (by omega : c < 32), Nat.shiftLeft_eq, hpow, Nat.mod_mul,
      Nat.mul_mod_left, Nat.mul_div_cancel _ hpos, Nat.mod_mul_left_mod, Nat.zero_add]
  apply UInt32.toNat_inj.mp
  rw [UInt32.toNat_or, hshift, hk, ← Nat.two_pow_add_eq_or_of_lt hlt, UInt32.toNat_ofNat', hpow,
    Nat.mod_mul, Nat.mul_comm m, Nat.mul_add_mod, Nat.mod_eq_of_lt hlt, Nat.mul_add_div hpos,
    Nat.div_eq_of_lt hlt, Nat.add_zero, Nat.add_comm]

theorem pos_of_bitsLeft (h : reader.bitsLeft ≠ 0) : reader.pos / 8 < reader.data.length := by
  rw [bitsLeft] at h
  omega

theorem length_take_bits (h : n ≤ reader.bitsLeft) : (reader.bits.take n).length = n := by
  rw [List.length_take, length_bits]
  omega

/-- One turn of the loop takes the bits that lie in one byte. -/
theorem readBitsLoop_chunk {m c : Nat} (hn : n ≠ 0) (h : reader.pos / 8 < reader.data.length)
    (hc : chunkSize reader.pos n = c) (hleft : c ≤ reader.bitsLeft) :
    readBitsLoop reader (UInt32.ofNat m) n =
      readBitsLoop (reader.advance c hleft)
        (UInt32.ofNat (m * 2 ^ c + Bits.ofBits (reader.bits.take c))) (n - c) := by
  subst hc
  have hle : chunkSize reader.pos n ≤ 8 := by
    rw [chunkSize]
    omega
  have hlt : Bits.ofBits (reader.bits.take (chunkSize reader.pos n)) <
      2 ^ chunkSize reader.pos n := by
    simpa only [length_take_bits hleft] using
      Bits.ofBits_lt (reader.bits.take (chunkSize reader.pos n))
  rw [readBitsLoop, dif_neg hn, dif_pos h]
  simp only [shiftLeft_or hle (take_chunk h) hlt]
  rfl

/-- As many bits as are left can be read. -/
theorem readBitsLoop_of_le {m : Nat} (h : n ≤ reader.bitsLeft) :
    readBitsLoop reader (UInt32.ofNat m) n =
      .ok (UInt32.ofNat (m * 2 ^ n + Bits.ofBits (reader.bits.take n)), reader.advance n h) := by
  induction n using Nat.strongRecOn generalizing reader m with
  | ind n ih =>
      by_cases hn : n = 0
      · subst hn
        rw [readBitsLoop, dif_pos rfl]
        simp [Bits.ofBits, advance]
      · have hpos := @pos_of_bitsLeft reader (by omega)
        obtain ⟨c, hc⟩ : ∃ c, chunkSize reader.pos n = c := ⟨_, rfl⟩
        have hlt : 0 < c := hc ▸ chunkSize_pos hn
        have hle : c ≤ n := hc ▸ chunkSize_le reader.pos n
        have hleft : c ≤ reader.bitsLeft := by omega
        have hrest : n - c ≤ (reader.advance c hleft).bitsLeft := by
          rw [bitsLeft_advance]
          omega
        have htake : reader.bits.take n =
            reader.bits.take c ++ (reader.bits.drop c).take (n - c) := by
          rw [← List.take_add, Nat.add_sub_cancel' hle]
        have hlength : ((reader.bits.drop c).take (n - c)).length = n - c := by
          simpa using length_take_bits hrest
        have hpow : 2 ^ n = 2 ^ c * 2 ^ (n - c) := by
          rw [← Nat.pow_add, Nat.add_sub_cancel' hle]
        have hvalue : (m * 2 ^ c + Bits.ofBits (reader.bits.take c)) * 2 ^ (n - c) +
            Bits.ofBits ((reader.bits.drop c).take (n - c)) =
            m * 2 ^ n + Bits.ofBits (reader.bits.take n) := by
          rw [htake, Bits.ofBits_append, hlength, hpow]
          ring
        have hadvance : (reader.advance c hleft).advance (n - c) hrest = reader.advance n h := by
          simp only [advance, mk.injEq, true_and]
          omega
        rw [readBitsLoop_chunk hn hpos hc hleft, ih (n - c) (by omega) hrest, bits_advance, hvalue,
          hadvance]

/-- A read of more bits than are left runs off the end of the data. -/
theorem readBitsLoop_of_lt {result : UInt32} (h : reader.bitsLeft < n) :
    readBitsLoop reader result n = .error (.outOfBounds reader.data.length) := by
  induction n using Nat.strongRecOn generalizing reader result with
  | ind n ih =>
      have hn : n ≠ 0 := by omega
      rw [readBitsLoop, dif_neg hn]
      split
      · next hpos =>
        have hlt := @chunkSize_pos reader.pos n hn
        have hle := @chunkSize_inside reader.pos n _ hpos
        apply ih
        · omega
        · simp only [bitsLeft] at *
          omega
      · next hpos =>
        have := reader.inside
        congr 2
        omega

theorem readBits_of_le (h : n ≤ reader.bitsLeft) :
    readBits n reader =
      .ok (UInt32.ofNat (Bits.ofBits (reader.bits.take n)), reader.advance n h) := by
  have hread := @readBitsLoop_of_le reader n 0 h
  rw [Nat.zero_mul, Nat.zero_add] at hread
  exact hread

/-- A read stays inside the data exactly when it asks for no more than `BitsLeft`. -/
theorem readBits_ok_iff (reader : BitReader) (n : Nat) :
    (readBits n reader).isOk = true ↔ n ≤ reader.bitsLeft := by
  constructor
  · intro h
    by_contra hlt
    rw [readBits, readBitsLoop_of_lt (by omega)] at h
    cases h
  · intro h
    rw [readBits_of_le h]
    rfl

/-- A read takes the field the decoder of bit fields takes. -/
theorem readBits_some {value : UInt32} {reader' : BitReader}
    (h : readBits n reader = .ok (value, reader')) :
    ∃ v, Bits.field n reader.bits = some (v, reader'.bits) ∧ value = UInt32.ofNat v ∧
      v < 2 ^ n ∧ reader'.bitsLeft = reader.bitsLeft - n := by
  have hle : n ≤ reader.bitsLeft := (readBits_ok_iff reader n).mp (by rw [h]; rfl)
  rw [readBits_of_le hle] at h
  cases h
  have hlt := Bits.ofBits_lt (reader.bits.take n)
  rw [length_take_bits hle] at hlt
  refine ⟨_, ?_, rfl, hlt, bitsLeft_advance hle⟩
  rw [Bits.field, length_bits, if_pos hle, bits_advance]

theorem advance_advance {m : Nat} (hn : n ≤ reader.bitsLeft)
    (hm : m ≤ (reader.advance n hn).bitsLeft) (h : n + m ≤ reader.bitsLeft) :
    (reader.advance n hn).advance m hm = reader.advance (n + m) h := by
  simp only [advance, Nat.add_assoc]

/-- The number in a field that fits in 32 bits. -/
theorem field_toNat {bits : List Bool} (h : n ≤ 32) :
    (UInt32.ofNat (Bits.ofBits (bits.take n))).toNat = Bits.ofBits (bits.take n) := by
  have hlt := Bits.ofBits_lt (bits.take n)
  have hle : 2 ^ (bits.take n).length ≤ 2 ^ 32 := by
    apply Nat.pow_le_pow_right (by decide)
    rw [List.length_take]
    omega
  rw [UInt32.toNat_ofNat', Nat.mod_eq_of_lt (by omega)]

/-- Reads one after the other take the fields one after the other. -/
theorem mapM_readBits {widths : List Nat} (hwidths : ∀ n ∈ widths, n ≤ 32)
    (hsum : widths.sum ≤ reader.bitsLeft) :
    ∃ values, (widths.mapM readBits) reader = .ok (values, reader.advance widths.sum hsum) ∧
      values.map UInt32.toNat = Bits.fields widths reader.bits := by
  induction widths generalizing reader with
  | nil => exact ⟨[], rfl, rfl⟩
  | cons n widths ih =>
      obtain ⟨hn, hothers⟩ := List.forall_mem_cons.mp hwidths
      have hsplit : n + widths.sum ≤ reader.bitsLeft := by rwa [List.sum_cons] at hsum
      have hfirst : n ≤ reader.bitsLeft := by omega
      have hrest : widths.sum ≤ (reader.advance n hfirst).bitsLeft := by
        rw [bitsLeft_advance]
        omega
      obtain ⟨values, hread, hvalues⟩ := ih hothers hrest
      refine ⟨UInt32.ofNat (Bits.ofBits (reader.bits.take n)) :: values, ?_, ?_⟩
      · rw [List.mapM_cons]
        simp only [bind, StateT.bind, Except.bind, readBits_of_le hfirst, hread,
          advance_advance hfirst hrest hsplit]
        rfl
      · rw [List.map_cons, field_toNat hn, hvalues, bits_advance, Bits.fields]

/-- A read is a read of its high bits and one of its low bits. -/
theorem readBits_add {a b : Nat} (hab : a + b ≤ 32) (h : a + b ≤ reader.bitsLeft) :
    ∃ whole high low middle last, readBits (a + b) reader = .ok (whole, last) ∧
      readBits a reader = .ok (high, middle) ∧ readBits b middle = .ok (low, last) ∧
      whole.toNat = high.toNat * 2 ^ b + low.toNat := by
  have ha : a ≤ reader.bitsLeft := by omega
  have hb : b ≤ (reader.advance a ha).bitsLeft := by
    rw [bitsLeft_advance]
    omega
  have hlow := readBits_of_le hb
  rw [bits_advance, advance_advance ha hb h] at hlow
  refine ⟨_, _, _, _, _, readBits_of_le h, readBits_of_le ha, hlow, ?_⟩
  rw [field_toNat hab, field_toNat (by omega), field_toNat (by omega),
    Bits.ofBits_take_add (by rwa [length_bits])]

/-- Fields that lie in the data are read without leaving it, and the position moves on by
their widths; a field of up to 32 bits may be read in two parts. -/
theorem readBits_fields (reader : BitReader) (widths : List Nat) (hwidths : ∀ n ∈ widths, n ≤ 32)
    (hsum : widths.sum ≤ reader.bitsLeft) :
    (∃ values reader', (widths.mapM readBits) reader = .ok (values, reader') ∧
      values.map UInt32.toNat = Bits.fields widths reader.bits ∧
      reader'.data = reader.data ∧ reader'.pos = reader.pos + widths.sum) ∧
    ∀ a b, a + b ≤ 32 → a + b ≤ reader.bitsLeft →
      ∃ whole high low middle last, readBits (a + b) reader = .ok (whole, last) ∧
        readBits a reader = .ok (high, middle) ∧ readBits b middle = .ok (low, last) ∧
        whole.toNat = high.toNat * 2 ^ b + low.toNat := by
  obtain ⟨values, hread, hvalues⟩ := mapM_readBits hwidths hsum
  exact ⟨⟨values, _, hread, hvalues, rfl, rfl⟩, fun a b hab h => readBits_add hab h⟩

/-- Fields from the fourth bit on, the second over three bytes. -/
theorem readBits_fields_threeBytes :
    (∀ n ∈ [2, 13, 6], n ≤ 32) ∧ [2, 13, 6].sum ≤ (⟨[0xAC, 0x01, 0xF9], 3, by decide⟩ :
        BitReader).bitsLeft ∧
      (∃ values reader',
        ([2, 13, 6].mapM readBits) ⟨[0xAC, 0x01, 0xF9], 3, by decide⟩ = .ok (values, reader') ∧
        values.map UInt32.toNat = Bits.fields [2, 13, 6]
          (⟨[0xAC, 0x01, 0xF9], 3, by decide⟩ : BitReader).bits ∧
        reader'.data = [0xAC, 0x01, 0xF9] ∧ reader'.pos = 3 + [2, 13, 6].sum) :=
  ⟨by decide, by decide, (readBits_fields ⟨[0xAC, 0x01, 0xF9], 3, by decide⟩ [2, 13, 6]
    (by decide) (by decide)).1⟩

end BitReader

end FlvUtil

end Rtmp
