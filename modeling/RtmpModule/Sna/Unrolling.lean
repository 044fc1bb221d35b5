import Mathlib.Algebra.BigOperators.Group.List.Basic
import RtmpModule.Sna

/-!
# Rollover counts over a run

A serial number and the number of rollovers so far are together one time. Adding
deltas keeps the two exact, of any size in bits. A sequence of true times is
followed as long as no time steps back over a multiple of `2 ^ 32`: there the
count, which never goes down, is one too many for good.
-/

namespace Rtmp

namespace Sna

section Adding

variable {bits : ℕ}

/-- The serial number of a time and the rollovers it takes to get there. -/
def ofTime (bits time : ℕ) : SerialNumber × UInt32 :=
  (serialnumber time bits, UInt32.ofNat (time / 2 ^ bits))

/-- Adding `delta` below half of the circle passes its top at most once, and the
number is smaller than before exactly when it does. -/
theorem div_mod_add {m delta : ℕ} (time : ℕ) (hdelta : delta < m) :
    (time % m + delta < m ∧ (time + delta) / m = time / m ∧
      (time + delta) % m = time % m + delta) ∨
    (m ≤ time % m + delta ∧ (time + delta) / m = time / m + 1 ∧
      (time + delta) % m + m = time % m + delta) := by
  have hm : 0 < m := by omega
  have htime : time % m + m * (time / m) = time := Nat.mod_add_div time m
  have hmod : time % m < m := Nat.mod_lt _ hm
  rcases Nat.lt_or_ge (time % m + delta) m with hlt | hge
  · obtain ⟨hdiv, hmod'⟩ := (Nat.div_mod_unique hm (a := time + delta) (d := time / m)
      (c := time % m + delta)).mpr ⟨by omega, hlt⟩
    exact .inl ⟨hlt, hdiv, hmod'⟩
  · obtain ⟨hdiv, hmod'⟩ := (Nat.div_mod_unique hm (a := time + delta) (d := time / m + 1)
      (c := time % m + delta - m)).mpr ⟨by rw [Nat.mul_add]; omega, by omega⟩
    exact .inr ⟨hge, hdiv, by omega⟩

theorem isRolledOver_add (time : ℕ) {delta : ℕ} (hbits : 0 < bits)
    (hdelta : delta ≤ 2 ^ (bits - 1) - 1) :
    isRolledOver (serialnumber time bits) (serialnumber (time + delta) bits) = true ↔
      2 ^ bits ≤ time % 2 ^ bits + delta := by
  have hround : 2 * 2 ^ (bits - 1) = 2 ^ bits := by
    rw [mul_comm, ← Nat.pow_succ, Nat.succ_eq_add_one, Nat.sub_add_cancel hbits]
  have hhalf : 0 < 2 ^ (bits - 1) := Nat.two_pow_pos _
  have hlt : delta < 2 ^ bits := by omega
  have hcases := div_mod_add time hlt
  have htime : time % 2 ^ bits < 2 ^ bits := Nat.mod_lt _ (Nat.two_pow_pos bits)
  rw [isRolledOver, SerialNumber.gt, Bool.and_eq_true, Bool.and_eq_true, Bool.or_eq_true,
    decide_eq_true_iff, decide_eq_true_iff, decide_eq_true_iff, decide_eq_true_iff]
  simp only [serialnumber, true_and]
  generalize 2 ^ bits = m, 2 ^ (bits - 1) = h at *
  generalize time % m = r, (time + delta) % m = r' at *
  omega

@[simp] theorem serialbits_sized (value : ℕ) : (serialnumber value bits).serialbits = bits := rfl

/-- One addition keeps number and count together those of one time. -/
theorem add_ofTime (time : ℕ) {delta : ℕ} (hbits : 0 < bits)
    (hdelta : delta ≤ 2 ^ (bits - 1) - 1) :
    add (ofTime bits time).1 delta (ofTime bits time).2 = .ok (ofTime bits (time + delta)) := by
  have hround : delta < 2 ^ bits :=
    have hle : 2 ^ (bits - 1) ≤ 2 ^ bits := Nat.pow_le_pow_right (by decide) (by omega)
    have hhalf : 0 < 2 ^ (bits - 1) := Nat.two_pow_pos _
    by omega
  have hrolled := isRolledOver_add time hbits hdelta
  have hnumber : serialnumber ((serialnumber time bits).number + delta) bits =
      serialnumber (time + delta) bits := by
    simp [serialnumber]
  rw [ofTime, add_of_le hdelta, ofTime]
  simp only [serialbits_sized, hnumber, countAfter]
  rcases div_mod_add time hround with ⟨hlt, hdiv, -⟩ | ⟨hge, hdiv, -⟩
  · rw [if_neg (mt hrolled.mp (Nat.not_le_of_lt hlt)), hdiv]
  · rw [if_pos (hrolled.mpr hge), hdiv, UInt32.ofNat_add]
    rfl

/-- The deltas of a list are added one after another. -/
def addAll (start : SerialNumber × UInt32) (deltas : List ℕ) :
    Except Fault (SerialNumber × UInt32) :=
  deltas.foldlM (fun now delta => add now.1 delta now.2) start

theorem addAll_ofTime (hbits : 0 < bits) :
    ∀ {deltas : List ℕ} (time : ℕ), (∀ delta ∈ deltas, delta ≤ 2 ^ (bits - 1) - 1) →
      addAll (ofTime bits time) deltas = .ok (ofTime bits (time + deltas.sum)) := by
  intro deltas
  induction deltas with
  | nil =>
      intro time _
      rfl
  | cons delta deltas ih =>
      intro time hdeltas
      obtain ⟨hdelta, hrest⟩ := List.forall_mem_cons.mp hdeltas
      have hstep := add_ofTime time hbits hdelta
      have hrun := ih (time + delta) hrest
      rw [addAll, List.foldlM_cons, hstep, List.sum_cons, ← Nat.add_assoc]
      exact hrun

/-- A time within the reach of a 32-bit count is read back by `unroll`. -/
theorem unroll_ofTime {time : ℕ} (hbits : bits ≤ 32) (htime : time < 2 ^ bits * 2 ^ 32) :
    (unroll (ofTime bits time).1 (ofTime bits time).2).toNat = time := by
  have hcount : (UInt32.ofNat (time / 2 ^ bits)).toNat = time / 2 ^ bits := by
    rw [UInt32.toNat_ofNat', Nat.mod_eq_of_lt]
    exact Nat.div_lt_of_lt_mul htime
  have hsize : 2 ^ bits * 2 ^ 32 ≤ 2 ^ 64 := by
    rw [← Nat.pow_add]
    exact Nat.pow_le_pow_right (by decide) (by omega)
  have hsplit : 2 ^ bits * (time / 2 ^ bits) + time % 2 ^ bits = time := Nat.div_add_mod _ _
  simp only [ofTime, unroll, serialnumber, hcount, hsplit, UInt64.toNat_ofNat']
  exact Nat.mod_eq_of_lt (Nat.lt_of_lt_of_le htime hsize)

theorem toNat_unroll (value : ℕ) (count : UInt32) (hbits : bits ≤ 32) :
    (unroll (serialnumber value bits) count).toNat = 2 ^ bits * count.toNat + value % 2 ^ bits := by
  have hnumber : value % 2 ^ bits < 2 ^ bits := Nat.mod_lt _ (Nat.two_pow_pos bits)
  have hsize : 2 ^ bits ≤ 2 ^ 32 := Nat.pow_le_pow_right (by decide) hbits
  have hcount : count.toNat + 1 ≤ 2 ^ 32 := count.toNat_lt
  rw [unroll, UInt64.toNat_ofNat']
  refine Nat.mod_eq_of_lt ?_
  calc 2 ^ bits * count.toNat + value % 2 ^ bits
    _ < 2 ^ bits * (count.toNat + 1) := by rw [Nat.mul_add]; omega
    _ ≤ 2 ^ 32 * 2 ^ 32 := Nat.mul_le_mul hsize hcount
    _ = 2 ^ 64 := by rw [← Nat.pow_add]

/-- Every serial number and count are those of the time that `unroll` makes of them. -/
theorem ofTime_unroll (value : ℕ) (count : UInt32) (hbits : bits ≤ 32) :
    ofTime bits (unroll (serialnumber value bits) count).toNat =
      (serialnumber value bits, count) := by
  obtain ⟨hdiv, hmod⟩ := (Nat.div_mod_unique (Nat.two_pow_pos bits)
    (a := 2 ^ bits * count.toNat + value % 2 ^ bits) (d := count.toNat)
    (c := value % 2 ^ bits)).mpr ⟨Nat.add_comm _ _, Nat.mod_lt _ (Nat.two_pow_pos bits)⟩
  rw [toNat_unroll value count hbits, ofTime, hdiv, UInt32.ofNat_toNat]
  simp only [serialnumber, hmod]

/-- A count that is not at its top leaves room for one addition. -/
theorem toNat_unroll_add_lt (value : ℕ) {delta : ℕ} {count : UInt32} (hbits : bits ≤ 32)
    (hdelta : delta ≤ 2 ^ (bits - 1) - 1) (hcount : count.toNat < 2 ^ 32 - 1) :
    (unroll (serialnumber value bits) count).toNat + delta < 2 ^ bits * 2 ^ 32 := by
  have hnumber : value % 2 ^ bits < 2 ^ bits := Nat.mod_lt _ (Nat.two_pow_pos bits)
  have hhalf : 0 < 2 ^ (bits - 1) := Nat.two_pow_pos _
  have hround : 2 ^ (bits - 1) ≤ 2 ^ bits := Nat.pow_le_pow_right (by decide) (by omega)
  rw [toNat_unroll value count hbits]
  calc 2 ^ bits * count.toNat + value % 2 ^ bits + delta
    _ < 2 ^ bits * (count.toNat + 2) := by rw [Nat.mul_add]; omega
    _ ≤ 2 ^ bits * 2 ^ 32 := Nat.mul_le_mul_left _ (by omega)

/-- Additions to a serial number and its count add to the time `unroll` makes of them,
one alone as well as any number of them, as long as the count fits its 32 bits. -/
theorem add_exact (hlow : 2 ≤ bits) (hhigh : bits ≤ 32) (value : UInt64) :
    (∀ delta ≤ 2 ^ (bits - 1) - 1, ∀ count : UInt32, count.toNat < 2 ^ 32 - 1 →
      ∃ sum count', add (serialnumber value.toNat bits) delta count = .ok (sum, count') ∧
        (unroll sum count').toNat =
          (unroll (serialnumber value.toNat bits) count).toNat + delta) ∧
    (∀ (deltas : List ℕ) (count : UInt32), (∀ delta ∈ deltas, delta ≤ 2 ^ (bits - 1) - 1) →
      (unroll (serialnumber value.toNat bits) count).toNat + deltas.sum < 2 ^ bits * 2 ^ 32 →
      ∃ sum count', addAll (serialnumber value.toNat bits, count) deltas = .ok (sum, count') ∧
        (unroll sum count').toNat =
          (unroll (serialnumber value.toNat bits) count).toNat + deltas.sum) := by
  have hbits : 0 < bits := by omega
  constructor
  · intro delta hdelta count hcount
    have hfits := toNat_unroll_add_lt value.toNat hhigh hdelta hcount
    have hstep := add_ofTime (unroll (serialnumber value.toNat bits) count).toNat hbits hdelta
    rw [ofTime_unroll value.toNat count hhigh] at hstep
    exact ⟨_, _, hstep, unroll_ofTime hhigh hfits⟩
  · intro deltas count hdeltas hfits
    have hrun := addAll_ofTime hbits (unroll (serialnumber value.toNat bits) count).toNat hdeltas
    rw [ofTime_unroll value.toNat count hhigh] at hrun
    exact ⟨_, _, hrun, unroll_ofTime hhigh hfits⟩

theorem add_exact_wrap :
    2 ≤ 8 ∧ 8 ≤ 32 ∧ 127 ≤ 2 ^ (8 - 1) - 1 ∧ (0 : UInt32).toNat < 2 ^ 32 - 1 ∧
    ∃ sum count', add (serialnumber (250 : UInt64).toNat 8) 127 0 = .ok (sum, count') ∧
      (unroll sum count').toNat =
        (unroll (serialnumber (250 : UInt64).toNat 8) 0).toNat + 127 :=
  ⟨by decide, by decide, by decide, by decide,
    (add_exact (by decide) (by decide) 250).1 127 (by decide) 0 (by decide)⟩

end Adding

section Following

/-- What `unroll` returns for serial numbers that follow `pre`, with the rollover
count carried from call to call. -/
def unrollRun (pre : SerialNumber) (rolloverCount : UInt32) : List SerialNumber → List UInt64
  | [] => []
  | sn :: rest =>
      let (value, rolloverCount') := unrollAfter sn pre rolloverCount
      value :: unrollRun sn rolloverCount' rest

/-- Two adjacent times are less than half of the circle apart, in either direction. -/
def Near (pre next : ℕ) : Prop := pre < next + 2 ^ 31 ∧ next < pre + 2 ^ 31

/-- The second time is not in an earlier epoch. -/
def Ascends (pre next : ℕ) : Prop := pre / 2 ^ 32 ≤ next / 2 ^ 32

instance {pre next : ℕ} : Decidable (Near pre next) := inferInstanceAs (Decidable (_ ∧ _))

instance {pre next : ℕ} : Decidable (Ascends pre next) := inferInstanceAs (Decidable (_ ≤ _))

variable {pre next : ℕ}

theorem unrollAfter_ascends (hnear : Near pre next) (hup : Ascends pre next) :
    unrollAfter (serialnumber next) (serialnumber pre) (UInt32.ofNat (pre / 2 ^ 32)) =
      (unroll (serialnumber next) (UInt32.ofNat (next / 2 ^ 32)),
        UInt32.ofNat (next / 2 ^ 32)) := by
  obtain ⟨hbehind, hahead⟩ := hnear
  rw [unrollAfter_eq, countAfter_epoch hup (.inr (by omega)) (by omega)]

/-- A step back into an earlier epoch leaves the count, which is then too high. -/
theorem unrollAfter_descends (hpre : pre < 2 ^ 64) (hnear : Near pre next)
    (hdown : ¬ Ascends pre next) :
    (unrollAfter (serialnumber next) (serialnumber pre)
      (UInt32.ofNat (pre / 2 ^ 32))).1.toNat ≠ next := by
  obtain ⟨hbehind, -⟩ := hnear
  have hepoch : next / 2 ^ 32 < pre / 2 ^ 32 := Nat.lt_of_not_le hdown
  have hrolled : ¬ isRolledOver (serialnumber pre) (serialnumber next) = true :=
    mt (isRolledOver_iff_epoch (.inr (by omega)) (by omega)).mp (by omega)
  have hcount : (UInt32.ofNat (pre / 2 ^ 32)).toNat = pre / 2 ^ 32 := by
    rw [UInt32.toNat_ofNat']
    omega
  rw [unrollAfter, if_neg hrolled, toNat_unroll next _ (by decide), hcount]
  omega

/-- The times come back exactly as long as the epochs ascend and the count fits its
32 bits. The count carried along is that of the epoch reached. -/
theorem unrollRun_iff : ∀ {times : List ℕ} {pre : ℕ}, pre < 2 ^ 64 →
    List.IsChain Near (pre :: times) →
    ((unrollRun (serialnumber pre) (UInt32.ofNat (pre / 2 ^ 32)) (times.map serialnumber)).map
        UInt64.toNat = times ↔
      List.IsChain Ascends (pre :: times) ∧ ∀ time ∈ times, time < 2 ^ 64) := by
  intro times
  induction times with
  | nil =>
      intro pre _ _
      simp [unrollRun]
  | cons next times ih =>
      intro pre hpre hchain
      obtain ⟨hnear, hrest⟩ := List.isChain_cons_cons.mp hchain
      rw [List.isChain_cons_cons, List.forall_mem_cons]
      simp only [List.map_cons, unrollRun, List.cons.injEq]
      by_cases hup : Ascends pre next
      · rw [unrollAfter_ascends hnear hup]
        by_cases hnext : next < 2 ^ 64
        · have hvalue : (unroll (serialnumber next) (UInt32.ofNat (next / 2 ^ 32))).toNat = next :=
            toNat_unroll_epoch hnext
          simp only [hvalue, true_and, ih hnext hrest, hup, hnext]
        · have hvalue : (unroll (serialnumber next) (UInt32.ofNat (next / 2 ^ 32))).toNat ≠ next :=
            fun heq => hnext (heq ▸ UInt64.toNat_lt _)
          simp only [hvalue, hnext, false_and, and_false]
      · have hvalue := unrollAfter_descends hpre hnear hup
        simp only [hvalue, hup, false_and]

/-- True times that step by less than half of the circle, starting in the first epoch,
come back from `unroll` exactly when no step leads into an earlier epoch. -/
theorem unroll_follows_iff {start : ℕ} {times : List ℕ} (hstart : start < 2 ^ 32)
    (hnear : List.IsChain Near (start :: times)) :
    (unrollRun (serialnumber (start % 2 ^ 32)) 0
        (times.map fun time => serialnumber (time % 2 ^ 32))).map UInt64.toNat = times ↔
      List.IsChain Ascends (start :: times) ∧ ∀ time ∈ times, time < 2 ^ 64 := by
  have hrun := unrollRun_iff (Nat.lt_trans hstart (by decide)) hnear
  rw [Nat.div_eq_of_lt hstart] at hrun
  simp only [serialnumber_mod]
  exact hrun

theorem unroll_follows_wrap :
    4294967290 < 2 ^ 32 ∧ List.IsChain Near [4294967290, 4294967310, 4294967300] ∧
    ((unrollRun (serialnumber (4294967290 % 2 ^ 32)) 0
        ([4294967310, 4294967300].map fun time => serialnumber (time % 2 ^ 32))).map
          UInt64.toNat = [4294967310, 4294967300] ↔
      List.IsChain Ascends [4294967290, 4294967310, 4294967300] ∧
        ∀ time ∈ [4294967310, 4294967300], time < 2 ^ 64) :=
  ⟨by decide, by decide, unroll_follows_iff (by decide) (by decide)⟩

/-- Jitter over the wrap: the time before it comes back an epoch late. -/
theorem not_follows_jitter :
    ¬ ∀ (start : ℕ) (times : List ℕ), start < 2 ^ 32 → List.IsChain Near (start :: times) →
      (unrollRun (serialnumber (start % 2 ^ 32)) 0
        (times.map fun time => serialnumber (time % 2 ^ 32))).map UInt64.toNat = times := by
  intro hfollows
  have hback := hfollows 4294967290 [4294967300, 4294967295] (by decide) (by decide)
  revert hback
  decide

end Following

end Sna

end Rtmp
