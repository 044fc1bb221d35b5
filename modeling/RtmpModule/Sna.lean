import RtmpModule.Common.StreamUtil

/-!
# Serial number arithmetic

The comparison and addition of `sna.h`, which follow RFC 1982. A 32-bit
timestamp is a serial number, and a rollover count beside it recovers the
64-bit time: the count goes up whenever a larger serial number is numerically
smaller than its predecessor. It never goes down.
-/

namespace Rtmp

/-- What leaves the parser other than by a return: `std::overflow_error` thrown by
`add`, or a null message pointer that is dereferenced. -/
inductive Fault where
  | overflowError
  | nullMessage
  deriving DecidableEq, Repr

namespace Sna

/-- `serialnumberarithmetic::serialnumber`; its fields are `uint64_t`. -/
structure SerialNumber where
  serialbits : Nat
  divisor : Nat
  halfDivisor : Nat
  number : Nat
  maxAddNumber : Nat
  deriving DecidableEq, Repr

def serialnumber (value : Nat) (sizeInBits : Nat := 32) : SerialNumber where
  serialbits := sizeInBits
  divisor := 2 ^ sizeInBits
  halfDivisor := 2 ^ (sizeInBits - 1)
  number := value % 2 ^ sizeInBits
  maxAddNumber := 2 ^ (sizeInBits - 1) - 1

namespace SerialNumber

def eq (s o : SerialNumber) : Bool := decide (s.number = o.number)

def lt (s o : SerialNumber) : Bool :=
  decide (s.number < o.number ∧ o.number - s.number < s.halfDivisor) ||
    decide (s.number > o.number ∧ s.number - o.number > s.halfDivisor)

def gt (s o : SerialNumber) : Bool :=
  decide (s.number < o.number ∧ o.number - s.number > s.halfDivisor) ||
    decide (s.number > o.number ∧ s.number - o.number < s.halfDivisor)

end SerialNumber

def isRolledOver (pre next : SerialNumber) : Bool :=
  decide (pre.serialbits = next.serialbits) && decide (next.number < pre.number) && next.gt pre

/-- `unroll` with a known rollover count, in `uint64_t`. -/
def unroll (sn : SerialNumber) (rolloverCount : UInt32) : UInt64 :=
  UInt64.ofNat (sn.divisor * rolloverCount.toNat + sn.number)

/-- `unroll` after a predecessor, with the rollover count it leaves behind. Both
numbers are 32 bits wide at every call, so the width check never throws. -/
def unrollAfter (sn pre : SerialNumber) (rolloverCount : UInt32) : UInt64 × UInt32 :=
  if isRolledOver pre sn then (unroll sn (rolloverCount + 1), rolloverCount + 1)
  else (unroll sn rolloverCount, rolloverCount)

/-- `add`: the sum and the rollover count it leaves behind. -/
def add (s1 : SerialNumber) (delta : Nat) (rolloverCount : UInt32) :
    Except Fault (SerialNumber × UInt32) :=
  if delta ≤ s1.maxAddNumber then
    let s2 := serialnumber (s1.number + delta) s1.serialbits
    if isRolledOver s1 s2 then .ok (s2, rolloverCount + 1) else .ok (s2, rolloverCount)
  else .error .overflowError

/-- The rollover count once `next` has followed `pre`. -/
def countAfter (pre next : SerialNumber) (rolloverCount : UInt32) : UInt32 :=
  if isRolledOver pre next then rolloverCount + 1 else rolloverCount

theorem countAfter_self (s : SerialNumber) (rolloverCount : UInt32) :
    countAfter s s rolloverCount = rolloverCount := by
  simp [countAfter, isRolledOver]

theorem unrollAfter_eq (sn pre : SerialNumber) (rolloverCount : UInt32) :
    unrollAfter sn pre rolloverCount =
      (unroll sn (countAfter pre sn rolloverCount), countAfter pre sn rolloverCount) := by
  unfold unrollAfter countAfter
  split <;> rfl

theorem add_of_le {s1 : SerialNumber} {delta : Nat} {rolloverCount : UInt32}
    (h : delta ≤ s1.maxAddNumber) :
    add s1 delta rolloverCount =
      .ok (serialnumber (s1.number + delta) s1.serialbits,
        countAfter s1 (serialnumber (s1.number + delta) s1.serialbits) rolloverCount) := by
  rw [add, if_pos h]
  dsimp only [countAfter]
  split <;> rfl

theorem add_of_lt {s1 : SerialNumber} {delta : Nat} {rolloverCount : UInt32}
    (h : s1.maxAddNumber < delta) : add s1 delta rolloverCount = .error .overflowError := by
  rw [add, if_neg (Nat.not_le_of_lt h)]

/-- A 32-bit value is its own serial number. -/
theorem number_serialnumber (v : UInt32) : (serialnumber v.toNat).number = v.toNat :=
  Nat.mod_eq_of_lt v.toNat_lt

@[simp] theorem maxAddNumber_serialnumber (v : Nat) :
    (serialnumber v).maxAddNumber = 2147483647 := rfl

@[simp] theorem serialbits_serialnumber (v : Nat) : (serialnumber v).serialbits = 32 := rfl


section Epoch

/-! A time counted without bound lies in the epoch `time / 2 ^ 32`. As long as two
times lie in one epoch or less than half an epoch apart, the serial numbers tell
whether the second lies in a later epoch, but not whether it lies in an earlier one. -/

variable {pre next : Nat}

theorem serialnumber_mod (value : Nat) : serialnumber (value % 2 ^ 32) = serialnumber value := by
  simp [serialnumber]

theorem isRolledOver_iff_epoch
    (hahead : next / 2 ^ 32 = pre / 2 ^ 32 ∨ next ≤ pre + 2147483647)
    (hbehind : pre ≤ next + 2147483647) :
    isRolledOver (serialnumber pre) (serialnumber next) = true ↔
      pre / 2 ^ 32 < next / 2 ^ 32 := by
  unfold isRolledOver SerialNumber.gt
  rw [Bool.and_eq_true, Bool.and_eq_true, Bool.or_eq_true, decide_eq_true_iff, decide_eq_true_iff,
    decide_eq_true_iff, decide_eq_true_iff]
  simp only [serialnumber, true_and, Nat.reduceSub, Nat.reducePow]
  omega

theorem countAfter_epoch (hepoch : pre / 2 ^ 32 ≤ next / 2 ^ 32)
    (hahead : next / 2 ^ 32 = pre / 2 ^ 32 ∨ next ≤ pre + 2147483647)
    (hbehind : pre ≤ next + 2147483647) :
    countAfter (serialnumber pre) (serialnumber next) (UInt32.ofNat (pre / 2 ^ 32)) =
      UInt32.ofNat (next / 2 ^ 32) := by
  have hrolled := isRolledOver_iff_epoch hahead hbehind
  unfold countAfter
  split
  · rename_i h
    have hnext : next / 2 ^ 32 = pre / 2 ^ 32 + 1 := by
      have hlt := hrolled.mp h
      omega
    rw [hnext, UInt32.ofNat_add]
    rfl
  · rename_i h
    have hsame : next / 2 ^ 32 = pre / 2 ^ 32 := by
      have hle := mt hrolled.mpr h
      omega
    rw [hsame]

/-- With the right rollover count a serial number is the time it was made of. -/
theorem toNat_unroll_epoch {time : Nat} (h : time < 2 ^ 64) :
    (unroll (serialnumber time) (UInt32.ofNat (time / 2 ^ 32))).toNat = time := by
  have hcount : (UInt32.ofNat (time / 2 ^ 32)).toNat = time / 2 ^ 32 := by
    rw [UInt32.toNat_ofNat']
    omega
  simp only [unroll, serialnumber, hcount, UInt64.toNat_ofNat']
  omega

end Epoch

end Sna

end Rtmp
