import RtmpModule.Library.Bytes
import Mathlib.Tactic.Common

/-!
# Reading and writing FLV buffers

The helpers of `flv_util.cpp`, which work on raw memory. A pointer into a buffer is
a position, kept together with the count of bytes the source believes are left
behind it. None of the helpers checks anything, so an access outside the buffer and
a count that would wrap below zero are faults: what the source does after one of
them is not defined by its text.
-/

namespace Rtmp

/-- What an unchecked access of the FLV code runs into. -/
inductive MemoryFault where
  | outOfBounds (index : Nat)
  | lengthUnderflow
  deriving DecidableEq, Repr

namespace FlvUtil

/-- The pair `buffer`, `len` the helpers advance together: a pointer into `data` and the
bytes left behind it. -/
structure Cursor where
  data : List UInt8
  pos : Nat := 0
  len : Nat
  deriving DecidableEq, Repr

namespace Cursor

/-- The cursor a parser is called with: the whole buffer and its size. -/
def ofData (data : List UInt8) : Cursor := { data, len := data.length }

/-- The bytes left behind the pointer are those the buffer holds there. -/
def Inside (c : Cursor) : Prop := c.pos + c.len = c.data.length

def advance (c : Cursor) (n : Nat) : Cursor := { c with pos := c.pos + n, len := c.len - n }

@[simp] theorem advance_data (c : Cursor) (n : Nat) : (c.advance n).data = c.data := rfl

@[simp] theorem advance_pos (c : Cursor) (n : Nat) : (c.advance n).pos = c.pos + n := rfl

@[simp] theorem advance_len (c : Cursor) (n : Nat) : (c.advance n).len = c.len - n := rfl

@[simp] theorem advance_zero (c : Cursor) : c.advance 0 = c := rfl

@[simp] theorem advance_advance (c : Cursor) (n m : Nat) :
    (c.advance n).advance m = c.advance (n + m) := by
  simp [advance, Nat.add_assoc, Nat.sub_sub]

theorem Inside.advance {c : Cursor} (h : c.Inside) {n : Nat} (hn : n ≤ c.len) :
    (c.advance n).Inside := by
  simp only [Inside, advance_pos, advance_len, advance_data] at *
  omega

end Cursor

/-- A helper that takes the pointer and the length by reference. -/
abbrev Read := StateT Cursor (Except MemoryFault)

/-- `buffer[i]`. -/
def at' (i : Nat) : Read UInt8 := fun c =>
  match c.data[c.pos + i]? with
  | some b => .ok (b, c)
  | none => .error (.outOfBounds (c.pos + i))

/-- `buffer += n` and `len -= n`. -/
def advance (n : Nat) : Read Unit := fun c =>
  if n ≤ c.len then .ok ((), c.advance n) else .error .lengthUnderflow

def read1byte : Read UInt8 := do
  let value ← at' 0
  advance 1
  return value

def get2byte : Read UInt16 := do
  let b0 ← at' 0
  let b1 ← at' 1
  return (b0.toUInt16 <<< 8) ||| b1.toUInt16

def read2byte : Read UInt16 := do
  let value ← get2byte
  advance 2
  return value

def read3byte : Read UInt32 := do
  let b0 ← at' 0
  let b1 ← at' 1
  let b2 ← at' 2
  advance 3
  return (b0.toUInt32 <<< 16) ||| (b1.toUInt32 <<< 8) ||| b2.toUInt32

/-- `read_nbyte` into a destination that is large enough; each turn of the loop copies one
byte and moves the pointer and the length by one. -/
def readNbyte : Nat → Read (List UInt8)
  | 0 => return []
  | n + 1 => do
      let b ← read1byte
      let rest ← readNbyte n
      return b :: rest

/-- The loop of `read_nbyte(buffer_t&, uint32_t&)`. -/
def readValueLoop (value : UInt32) : List UInt8 → UInt32
  | [] => value
  | b :: bs => readValueLoop (value ||| (b.toUInt32 <<< UInt32.ofNat (8 * bs.length))) bs

/-- `read_nbyte(buffer_t&, uint32_t&)`: the bytes as a big-endian number. -/
def readValue (src : List UInt8) : UInt32 := readValueLoop 0 src

/-- `write_nbyte(buffer_t&, unsigned char*&, size_t&)`, with `dst` a position in `data`. -/
def writeNbyte : List UInt8 → List UInt8 → Nat → Except MemoryFault (List UInt8 × Nat)
  | [], data, dst => .ok (data, dst)
  | b :: src, data, dst =>
      if dst < data.length then writeNbyte src (data.set dst b) (dst + 1)
      else .error (.outOfBounds dst)

theorem read1byte_eq (c : Cursor) :
    read1byte c =
      match c.data[c.pos]? with
      | none => .error (.outOfBounds c.pos)
      | some b => if 1 ≤ c.len then .ok (b, c.advance 1) else .error .lengthUnderflow := by
  simp only [read1byte, at', advance, bind, StateT.bind, Except.bind, Nat.add_zero]
  cases c.data[c.pos]? with
  | none => rfl
  | some b =>
      by_cases h : 1 ≤ c.len
      · simp only [h, if_true]
        rfl
      · simp only [h, if_false]

theorem readNbyte_succ (n : Nat) (c : Cursor) :
    readNbyte (n + 1) c =
      match read1byte c with
      | .error e => .error e
      | .ok (b, c') =>
          match readNbyte n c' with
          | .error e => .error e
          | .ok (rest, c'') => .ok (b :: rest, c'') := by
  simp only [readNbyte, bind, StateT.bind, Except.bind]
  cases read1byte c with
  | error e => rfl
  | ok p =>
      cases h : readNbyte n p.2 with
      | error e => simp only [h]
      | ok q =>
          simp only [h]
          rfl

/-- As many bytes as are left can be read. -/
theorem readNbyte_of_le {n : Nat} {c : Cursor} (hc : c.Inside) (hn : n ≤ c.len) :
    readNbyte n c = .ok ((c.data.drop c.pos).take n, c.advance n) := by
  induction n generalizing c with
  | zero => rfl
  | succ n ih =>
      have hpos : c.pos < c.data.length := by
        simp only [Cursor.Inside] at hc
        omega
      rw [readNbyte_succ, read1byte_eq, List.getElem?_eq_getElem hpos]
      simp only [show 1 ≤ c.len by omega, if_true]
      rw [ih (hc.advance (by omega)) (by rw [Cursor.advance_len]; omega)]
      simp only [Cursor.advance_data, Cursor.advance_pos, Cursor.advance_advance]
      rw [List.drop_eq_getElem_cons hpos, List.take_succ_cons, Nat.add_comm 1 n]

/-- Reading more bytes than are left runs off the end of the buffer. -/
theorem readNbyte_of_lt {n : Nat} {c : Cursor} (hc : c.Inside) (hn : c.len < n) :
    readNbyte n c = .error (.outOfBounds c.data.length) := by
  induction n generalizing c with
  | zero => omega
  | succ n ih =>
      rw [readNbyte_succ, read1byte_eq]
      by_cases hlen : c.len = 0
      · have hpos : c.pos = c.data.length := by
          simp only [Cursor.Inside] at hc
          omega
        rw [List.getElem?_eq_none (Nat.le_of_eq hpos.symm), hpos]
      · have hpos : c.pos < c.data.length := by
          simp only [Cursor.Inside] at hc
          omega
        rw [List.getElem?_eq_getElem hpos]
        simp only [show 1 ≤ c.len by omega, if_true]
        rw [ih (hc.advance (by omega)) (by rw [Cursor.advance_len]; omega)]
        rfl

theorem toNat_or_shiftLeft {value : UInt32} {b : UInt8} {k v : Nat} (hk : k < 4)
    (hv : value.toNat = v * 256 ^ (k + 1)) :
    (value ||| (b.toUInt32 <<< UInt32.ofNat (8 * k))).toNat =
      value.toNat + b.toNat * 256 ^ k := by
  have hb : b.toNat < 256 := UInt8.toNat_lt b
  have hpow : (2 : Nat) ^ (8 * k) = 256 ^ k := by rw [Nat.pow_mul]
  have hfit : b.toNat * 256 ^ k < 256 ^ (k + 1) := by
    rw [Nat.pow_succ, Nat.mul_comm]
    exact Nat.mul_lt_mul_of_pos_left hb (by positivity)
  have hle : 256 ^ (k + 1) ≤ 2 ^ 32 := by
    calc 256 ^ (k + 1) ≤ 256 ^ 4 := Nat.pow_le_pow_right (by decide) hk
      _ = 2 ^ 32 := by decide
  have hshift : (b.toUInt32 <<< UInt32.ofNat (8 * k)).toNat = b.toNat * 256 ^ k := by
    have h8 : (8 * k) % 2 ^ 32 % 32 = 8 * k := by omega
    rw [UInt32.toNat_shiftLeft, UInt8.toNat_toUInt32, UInt32.toNat_ofNat', h8,
      Nat.shiftLeft_eq, hpow, Nat.mod_eq_of_lt (by omega)]
  have hpow' : (2 : Nat) ^ (8 * (k + 1)) = 256 ^ (k + 1) := by rw [Nat.pow_mul]
  rw [UInt32.toNat_or, hshift, hv, Nat.mul_comm v, ← hpow',
    ← Nat.two_pow_add_eq_or_of_lt (by rwa [hpow'])]

theorem readValueLoop_toNat {value : UInt32} {bs : List UInt8} (hlen : bs.length ≤ 4)
    (hv : 256 ^ bs.length ∣ value.toNat) :
    (readValueLoop value bs).toNat = value.toNat + Bytes.ofBE bs := by
  induction bs generalizing value with
  | nil => simp [readValueLoop]
  | cons b bs ih =>
      rw [List.length_cons] at hlen hv
      obtain ⟨v, hv⟩ := hv
      have hor := @toNat_or_shiftLeft value b bs.length v (by omega) (by rw [hv, Nat.mul_comm])
      have hdvd : 256 ^ bs.length ∣
          (value ||| (b.toUInt32 <<< UInt32.ofNat (8 * bs.length))).toNat := by
        rw [hor, hv, Nat.pow_succ, Nat.mul_assoc]
        exact Nat.dvd_add (Nat.dvd_mul_right _ _) (Nat.dvd_mul_left _ _)
      rw [readValueLoop, ih (by omega) hdvd, hor, Bytes.ofBE_cons, Nat.add_assoc]

/-- Up to four bytes are read as the big-endian number they denote. -/
theorem readValue_toNat {bs : List UInt8} (hlen : bs.length ≤ 4) :
    (readValue bs).toNat = Bytes.ofBE bs := by
  rw [readValue, readValueLoop_toNat hlen (by simp)]
  simp

/-- Writing inside the buffer replaces the bytes there and moves the pointer behind them. -/
theorem writeNbyte_append {src old front back : List UInt8} (h : src.length = old.length) :
    writeNbyte src (front ++ old ++ back) front.length =
      .ok (front ++ src ++ back, front.length + src.length) := by
  induction src generalizing old front with
  | nil =>
      have hold : old = [] := List.length_eq_zero_iff.mp h.symm
      simp [writeNbyte, hold]
  | cons b src ih =>
      cases old with
      | nil => simp at h
      | cons o old =>
          have hlt : front.length < (front ++ o :: old ++ back).length := by simp
          rw [writeNbyte, if_pos hlt]
          have hset : (front ++ o :: old ++ back).set front.length b =
              (front ++ [b]) ++ old ++ back := by simp
          have hlen : front.length + 1 = (front ++ [b]).length := by simp
          rw [hset, hlen, ih (by simpa using h)]
          simp [Nat.add_assoc, Nat.add_comm 1]

end FlvUtil

end Rtmp
