import Mathlib.Tactic.IntervalCases
import RtmpModule.Library.Bytes

/-!
# Byte order and stream primitives

The server runs on a little-endian host: `istream::read` into an integer and
`ostream::write` from one move its bytes least significant first, and the
`hton`/`ntoh` functions of `NetworkUtil.cpp` reverse them. The 3-byte variants
shift the reversed word, so the top byte, which a 3-byte read leaves
uninitialised, never reaches the value.
-/

namespace Rtmp

open Bytes

/-- The three values of `boost::tribool`. -/
inductive Tribool where
  | true
  | false
  | indeterminate
  deriving DecidableEq, Repr

namespace NetworkUtil

/-- Reverse the four bytes of a 32-bit value. -/
def hton4 (value : Nat) : Nat := ofBE (toLE 4 value)

def hton3 (value : Nat) : Nat := hton4 value / 256

def hton2 (value : Nat) : Nat := ofBE (toLE 2 value)

def ntoh4 (value : Nat) : Nat := ofBE (toLE 4 value)

def ntoh3 (value : Nat) : Nat := ntoh4 value / 256

def ntoh2 (value : Nat) : Nat := ofBE (toLE 2 value)

/-- `ntoh_8` on a little-endian host, which is also what `write_double` swaps with. -/
def ntoh8 (value : UInt64) : UInt64 :=
  (value &&& 0xff00000000000000) >>> 56 ||| (value &&& 0x00ff000000000000) >>> 40 |||
    (value &&& 0x0000ff0000000000) >>> 24 ||| (value &&& 0x000000ff00000000) >>> 8 |||
    (value &&& 0x00000000ff000000) <<< 8 ||| (value &&& 0x0000000000ff0000) <<< 24 |||
    (value &&& 0x000000000000ff00) <<< 40 ||| (value &&& 0x00000000000000ff) <<< 56

theorem ntoh4_ofLE {bs : List UInt8} (h : bs.length = 4) : ntoh4 (ofLE bs) = ofBE bs := by
  rw [ntoh4, toLE_ofLE_of_length h]

theorem ntoh2_ofLE {bs : List UInt8} (h : bs.length = 2) : ntoh2 (ofLE bs) = ofBE bs := by
  rw [ntoh2, toLE_ofLE_of_length h]

/-- Whatever the uninitialised top byte holds, a 3-byte field is read as the
big-endian number its three bytes denote. -/
theorem ntoh3_ofLE {bs : List UInt8} (h : bs.length = 3) (top : UInt8) :
    ntoh3 (ofLE (bs ++ [top])) = ofBE bs := by
  have hlen : (bs ++ [top]).length = 4 := by simp [h]
  have htop : top.toNat < 256 := UInt8.toNat_lt top
  rw [ntoh3, ntoh4_ofLE hlen, ofBE, List.reverse_append, List.reverse_singleton,
    List.singleton_append, ofLE_cons, Nat.add_mul_div_left _ _ (by decide : 0 < 256),
    Nat.div_eq_of_lt htop, Nat.zero_add, ofBE]

theorem toLE_hton4 (v : Nat) : toLE 4 (hton4 v) = toBE 4 v := by
  have hlen : (toLE 4 v).reverse.length = 4 := by simp
  rw [hton4, ofBE, toLE_ofLE_of_length hlen, toBE]

theorem toLE_hton2 (v : Nat) : toLE 2 (hton2 v) = toBE 2 v := by
  have hlen : (toLE 2 v).reverse.length = 2 := by simp
  rw [hton2, ofBE, toLE_ofLE_of_length hlen, toBE]

/-- The low three bytes of the shifted reversal are the low three bytes of the
value, most significant first: larger values are truncated. -/
theorem toLE_hton3 (v : Nat) : toLE 3 (hton3 v) = toBE 3 v := by
  have hsplit : toLE 4 (hton4 v) = UInt8.ofNat (hton4 v) :: toLE 3 (hton3 v) := rfl
  have hbe : toBE 4 v = UInt8.ofNat (v / 256 / 256 / 256) :: toBE 3 v := by
    simp [toBE, toLE]
  rw [toLE_hton4, hbe] at hsplit
  exact (List.cons.inj hsplit).2.symm

section Long

/-- The byte of a 64-bit value that counts the powers of `256 ^ i`. -/
def octet (value : UInt64) (i : Nat) : UInt8 := (value >>> UInt64.ofNat (8 * i)).toUInt8

theorem octet_eq (value : UInt64) {i : Nat} (hi : i < 8) :
    octet value i = UInt8.ofNat (value.toNat / 256 ^ i) := by
  have hshift : (UInt64.ofNat (8 * i)).toNat = 8 * i := by
    rw [UInt64.toNat_ofNat', Nat.mod_eq_of_lt (by omega)]
  rw [octet, ← UInt8.toNat_inj, UInt64.toNat_toUInt8, UInt64.toNat_shiftRight, hshift,
    Nat.mod_eq_of_lt (by omega : 8 * i < 64), Nat.shiftRight_eq_div_pow, UInt8.toNat_ofNat',
    Nat.pow_mul]

theorem toLE_octet (value : UInt64) :
    toLE 8 value.toNat = (List.range 8).map (octet value) := by
  have hbytes : (List.range 8).map (octet value) =
      (List.range 8).map fun i => UInt8.ofNat (value.toNat / 256 ^ i) :=
    List.map_congr_left fun i hi => octet_eq value (List.mem_range.mp hi)
  rw [hbytes]
  simp [toLE, List.range, List.range.loop, Nat.div_div_eq_div_mul]

/-- The masks and shifts put every byte where its mirror image was. -/
theorem octet_ntoh8 (value : UInt64) {i : Nat} (hi : i < 8) :
    octet (ntoh8 value) i = octet value (7 - i) := by
  apply UInt8.eq_of_toBitVec_eq
  ext j hj
  simp only [octet, ntoh8, UInt64.toBitVec_toUInt8, UInt64.toBitVec_shiftRight,
    UInt64.toBitVec_or, UInt64.toBitVec_and, UInt64.toBitVec_shiftLeft]
  interval_cases i <;> interval_cases j <;> simp

theorem toLE_ntoh8 (value : UInt64) : toLE 8 (ntoh8 value).toNat = toBE 8 value.toNat := by
  have hbytes : (List.range 8).map (octet (ntoh8 value)) =
      (List.range 8).map fun i => octet value (7 - i) :=
    List.map_congr_left fun i hi => octet_ntoh8 value (List.mem_range.mp hi)
  rw [toBE, toLE_octet, toLE_octet, hbytes]
  simp [List.range, List.range.loop]

end Long

end NetworkUtil

/-- What a writer has put into an `ostream`, and the count it keeps beside it. -/
structure Written where
  bytes : List UInt8 := []
  writed : Nat := 0
  deriving DecidableEq, Repr

namespace StreamUtil

open NetworkUtil

def writeUchar (os : Written) (data : UInt8) : Written :=
  { bytes := os.bytes ++ [data], writed := os.writed + 1 }

def writeUshort (os : Written) (data : UInt16) (useHton : Bool) : Written :=
  let data := if useHton then hton2 data.toNat else data.toNat
  { bytes := os.bytes ++ toLE 2 data, writed := os.writed + 2 }

def writeUint (os : Written) (data : UInt32) (useHton : Bool) : Written :=
  let data := if useHton then hton4 data.toNat else data.toNat
  { bytes := os.bytes ++ toLE 4 data, writed := os.writed + 4 }

def writeUint3 (os : Written) (data : UInt32) (useHton : Bool) : Written :=
  let data := if useHton then hton3 data.toNat else data.toNat
  { bytes := os.bytes ++ toLE 3 data, writed := os.writed + 3 }

def writeShort (os : Written) (data : Int16) (useHton : Bool) : Written :=
  let data := if useHton then hton2 data.toUInt16.toNat else data.toUInt16.toNat
  { bytes := os.bytes ++ toLE 2 data, writed := os.writed + 2 }

/-- `write_double`, with the double as its 64-bit pattern. -/
def writeDouble (os : Written) (data : UInt64) (useHton : Bool) : Written :=
  let data := if useHton then ntoh8 data else data
  { bytes := os.bytes ++ toLE 8 data.toNat, writed := os.writed + 8 }

/-- `stream_util::check_redable_length`. -/
def checkRedableLength (stream : List UInt8) (size : Nat) : Bool :=
  decide (size ≤ stream.length)

def readUchar (stream : List UInt8) : UInt8 × List UInt8 :=
  (UInt8.ofNat (ofLE (stream.take 1)), stream.drop 1)

def readUshort (stream : List UInt8) : UInt16 × List UInt8 :=
  (UInt16.ofNat (ntoh2 (ofLE (stream.take 2))), stream.drop 2)

def readUint (stream : List UInt8) : UInt32 × List UInt8 :=
  (UInt32.ofNat (ntoh4 (ofLE (stream.take 4))), stream.drop 4)

section Append

variable {stream more : List UInt8}

/-- Bytes behind a field do not change what the field reads as. -/
theorem readUchar_append (h : 1 ≤ stream.length) :
    readUchar (stream ++ more) = ((readUchar stream).1, (readUchar stream).2 ++ more) := by
  simp only [readUchar, List.take_append_of_le_length h, List.drop_append_of_le_length h]

theorem readUshort_append (h : 2 ≤ stream.length) :
    readUshort (stream ++ more) = ((readUshort stream).1, (readUshort stream).2 ++ more) := by
  simp only [readUshort, List.take_append_of_le_length h, List.drop_append_of_le_length h]

theorem readUint_append (h : 4 ≤ stream.length) :
    readUint (stream ++ more) = ((readUint stream).1, (readUint stream).2 ++ more) := by
  simp only [readUint, List.take_append_of_le_length h, List.drop_append_of_le_length h]

end Append

@[simp] theorem readUchar_rest (stream : List UInt8) : (readUchar stream).2 = stream.drop 1 := rfl

@[simp] theorem readUshort_rest (stream : List UInt8) :
    (readUshort stream).2 = stream.drop 2 := rfl

@[simp] theorem readUint_rest (stream : List UInt8) : (readUint stream).2 = stream.drop 4 := rfl

section Written

variable (rest : List UInt8)

@[simp] theorem readUchar_cons (b : UInt8) : readUchar (b :: rest) = (b, rest) := by
  simp [readUchar]

/-- A 16-bit field written most significant byte first reads back. -/
theorem readUshort_toBE (v : UInt16) : readUshort (toBE 2 v.toNat ++ rest) = (v, rest) := by
  have hlen : (toBE 2 v.toNat).length = 2 := length_toBE 2 v.toNat
  rw [readUshort, List.take_left' hlen, List.drop_left' hlen, ntoh2_ofLE hlen,
    ofBE_toBE_of_lt v.toNat_lt, UInt16.ofNat_toNat]

theorem readUint_toBE (v : UInt32) : readUint (toBE 4 v.toNat ++ rest) = (v, rest) := by
  have hlen : (toBE 4 v.toNat).length = 4 := length_toBE 4 v.toNat
  rw [readUint, List.take_left' hlen, List.drop_left' hlen, ntoh4_ofLE hlen,
    ofBE_toBE_of_lt v.toNat_lt, UInt32.ofNat_toNat]

end Written

end StreamUtil

end Rtmp
