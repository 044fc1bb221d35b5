import RtmpModule.Media.FlvUtil

/-!
# Reads behind a check

Most parsers of `parsingflv.cpp` test with `CHECK` that enough bytes are left before
each read, and return false when a test fails. A cursor inside its buffer splits the
buffer into the bytes in front of the pointer and those left behind it; a read that
was tested moves bytes from the one part to the other.
-/

namespace Rtmp

namespace FlvUtil

/-- A parser that returns a `bool`: `none` is false, and `guard x` is `CHECK(x)`. -/
abbrev Checked (σ : Type) := OptionT (StateT σ (Except MemoryFault))

/-- `CHECK(buffer_len >= n)`. -/
def checkLen (n : Nat) : Checked Cursor Unit := do
  guard (n ≤ (← get).len)

namespace Cursor

/-- The cursor behind `front` with `left` still to be read. -/
def between (front left : List UInt8) : Cursor := ⟨front ++ left, front.length, left.length⟩

variable {front left : List UInt8}

theorem ofData_eq (data : List UInt8) : ofData data = between [] data := rfl

@[simp] theorem between_len : (between front left).len = left.length := rfl

theorem between_not_lt_one {x : UInt8} : ¬ (between front (x :: left)).len < 1 := by simp

theorem between_not_lt_three {x y z : UInt8} :
    ¬ (between front (x :: y :: z :: left)).len < 3 := by simp

theorem between_not_lt_four {w x y z : UInt8} :
    ¬ (between front (w :: x :: y :: z :: left)).len < 4 := by simp

theorem between_inside : (between front left).Inside := by
  simp [Inside, between]

theorem between_drop : (between front left).data.drop (between front left).pos = left := by
  simp [between]

theorem advance_between {bs rest : List UInt8} :
    (between front (bs ++ rest)).advance bs.length = between (front ++ bs) rest := by
  simp [between, advance]

end Cursor

open Cursor

variable {α β : Type} {front left rest bs : List UInt8} {c c' : Cursor}

@[simp] theorem read_bind (x : Read α) (f : α → Read β) (c : Cursor) :
    (x >>= f) c =
      match x c with
      | .error fault => .error fault
      | .ok (a, c') => f a c' := by
  simp only [bind, StateT.bind, Except.bind]
  cases x c <;> rfl

@[simp] theorem read_pure (a : α) (c : Cursor) : (pure a : Read α) c = .ok (a, c) := rfl

@[simp] theorem read_get (c : Cursor) : (get : Read Cursor) c = .ok (c, c) := rfl

/-- A parser whose cursor is not used behind it. -/
theorem run'_ok {σ : Type} {x : StateT σ (Except MemoryFault) α} {s : σ} {a : α} :
    x.run' s = .ok a ↔ ∃ s', x s = .ok (a, s') := by
  change (fun p : α × σ => p.1) <$> x s = .ok a ↔ _
  cases x s with
  | error fault => simp
  | ok p => simp [Prod.ext_iff]

theorem run'_isOk {σ : Type} {x : StateT σ (Except MemoryFault) α} {s : σ}
    (h : (x s).isOk = true) : (x.run' s).isOk = true := by
  match hx : x s with
  | .error fault =>
      rw [hx] at h
      cases h
  | .ok (a, s') =>
      rw [run'_ok.mpr ⟨s', hx⟩]
      rfl

theorem readNbyte_between :
    readNbyte bs.length (between front (bs ++ rest)) = .ok (bs, between (front ++ bs) rest) := by
  have hle : bs.length ≤ (between front (bs ++ rest)).len := by simp
  rw [readNbyte_of_le between_inside hle, between_drop, List.take_left, advance_between]

/-- All that is left. -/
theorem readNbyte_len_between :
    readNbyte (between front left).len (between front left) =
      .ok (left, between (front ++ left) []) := by
  simpa using @readNbyte_between front [] left

theorem readNbyte_four {b0 b1 b2 b3 : UInt8} :
    readNbyte 4 (between front (b0 :: b1 :: b2 :: b3 :: rest)) =
      .ok ([b0, b1, b2, b3], between (front ++ [b0, b1, b2, b3]) rest) :=
  @readNbyte_between front rest [b0, b1, b2, b3]

@[simp] theorem read1byte_between {b : UInt8} :
    read1byte (between front (b :: rest)) = .ok (b, between (front ++ [b]) rest) := by
  have hpos : (between front (b :: rest)).data[(between front (b :: rest)).pos]? = some b := by
    simp [between]
  rw [read1byte_eq, hpos]
  simp only [between_len, List.length_cons, Nat.le_add_left, if_true]
  exact congrArg _ (congrArg _ (@advance_between front [b] rest))

/-- Two bytes as the number `read_2byte` makes of them. -/
def toUInt16 (b0 b1 : UInt8) : UInt16 := (b0.toUInt16 <<< 8) ||| b1.toUInt16

/-- Three bytes as the number `read_3byte` makes of them. -/
def toUInt24 (b0 b1 b2 : UInt8) : UInt32 :=
  (b0.toUInt32 <<< 16) ||| (b1.toUInt32 <<< 8) ||| b2.toUInt32

theorem toUInt16_toNat (b0 b1 : UInt8) : (toUInt16 b0 b1).toNat = b0.toNat * 256 + b1.toNat := by
  have h0 := UInt8.toNat_lt b0
  have h1 := UInt8.toNat_lt b1
  rw [toUInt16, UInt16.toNat_or, UInt16.toNat_shiftLeft, UInt8.toNat_toUInt16,
    UInt8.toNat_toUInt16]
  change b0.toNat <<< 8 % 65536 ||| b1.toNat = _
  rw [Nat.mod_eq_of_lt (by rw [Nat.shiftLeft_eq]; omega), ← Nat.shiftLeft_add_eq_or_of_lt h1,
    Nat.shiftLeft_eq]

@[simp] theorem toUInt16_high (b0 b1 : UInt8) : (toUInt16 b0 b1 >>> 8).toUInt8 = b0 := by
  have h0 := UInt8.toNat_lt b0
  have h1 := UInt8.toNat_lt b1
  apply UInt8.toNat_inj.mp
  rw [UInt16.toNat_toUInt8, UInt16.toNat_shiftRight, toUInt16_toNat]
  change (b0.toNat * 256 + b1.toNat) >>> 8 % 256 = _
  rw [Nat.shiftRight_eq_div_pow]
  omega

@[simp] theorem toUInt16_low (b0 b1 : UInt8) : (toUInt16 b0 b1).toUInt8 = b1 := by
  have h1 := UInt8.toNat_lt b1
  apply UInt8.toNat_inj.mp
  rw [UInt16.toNat_toUInt8, toUInt16_toNat]
  omega

theorem toUInt24_toNat (b0 b1 b2 : UInt8) :
    (toUInt24 b0 b1 b2).toNat = b0.toNat * 65536 + b1.toNat * 256 + b2.toNat := by
  have h0 := UInt8.toNat_lt b0
  have h1 := UInt8.toNat_lt b1
  have h2 := UInt8.toNat_lt b2
  rw [toUInt24, UInt32.toNat_or, UInt32.toNat_or, UInt32.toNat_shiftLeft,
    UInt32.toNat_shiftLeft, UInt8.toNat_toUInt32, UInt8.toNat_toUInt32, UInt8.toNat_toUInt32]
  change b0.toNat <<< 16 % 4294967296 ||| b1.toNat <<< 8 % 4294967296 ||| b2.toNat = _
  have h01 : b1.toNat <<< 8 < 2 ^ 16 := by
    rw [Nat.shiftLeft_eq]
    omega
  have hlow : b0.toNat <<< 16 ||| b1.toNat <<< 8 = (b0.toNat * 256 + b1.toNat) <<< 8 := by
    rw [← Nat.shiftLeft_add_eq_or_of_lt h01]
    simp only [Nat.shiftLeft_eq]
    omega
  rw [Nat.mod_eq_of_lt (by rw [Nat.shiftLeft_eq]; omega),
    Nat.mod_eq_of_lt (by rw [Nat.shiftLeft_eq]; omega), hlow, ← Nat.shiftLeft_add_eq_or_of_lt h2,
    Nat.shiftLeft_eq]
  omega

theorem two_le_length {left : List UInt8} (h : 2 ≤ left.length) :
    ∃ b0 b1 rest, left = b0 :: b1 :: rest := by
  match left, h with
  | b0 :: b1 :: rest, _ => exact ⟨b0, b1, rest, rfl⟩

theorem three_le_length {left : List UInt8} (h : 3 ≤ left.length) :
    ∃ b0 b1 b2 rest, left = b0 :: b1 :: b2 :: rest := by
  match left, h with
  | b0 :: b1 :: b2 :: rest, _ => exact ⟨b0, b1, b2, rest, rfl⟩

theorem four_le_length {left : List UInt8} (h : 4 ≤ left.length) :
    ∃ b0 b1 b2 b3 rest, left = b0 :: b1 :: b2 :: b3 :: rest := by
  match left, h with
  | b0 :: b1 :: b2 :: b3 :: rest, _ => exact ⟨b0, b1, b2, b3, rest, rfl⟩

theorem at'_between {i : Nat} (h : i < left.length) :
    at' i (between front left) = .ok (left[i], between front left) := by
  rw [at']
  have hget : (between front left).data[(between front left).pos + i]? = some left[i] := by
    simp [between, h]
  rw [hget]

theorem advance_of_le {n : Nat} (h : n ≤ c.len) : advance n c = .ok ((), c.advance n) := by
  rw [advance, if_pos h]

@[simp] theorem get2byte_between {b0 b1 : UInt8} :
    get2byte (between front (b0 :: b1 :: rest)) =
      .ok (toUInt16 b0 b1, between front (b0 :: b1 :: rest)) := by
  have h0 := @at'_between front (b0 :: b1 :: rest) 0 (by simp)
  have h1 := @at'_between front (b0 :: b1 :: rest) 1 (by simp)
  simp only [get2byte, read_bind, h0, h1, read_pure]
  rfl

@[simp] theorem read2byte_between {b0 b1 : UInt8} :
    read2byte (between front (b0 :: b1 :: rest)) =
      .ok (toUInt16 b0 b1, between (front ++ [b0, b1]) rest) := by
  have hadvance := @advance_of_le (between front (b0 :: b1 :: rest)) 2 (by simp)
  simp only [read2byte, read_bind, get2byte_between, hadvance, read_pure]
  exact congrArg _ (congrArg _ (@advance_between front [b0, b1] rest))

@[simp] theorem read3byte_between {b0 b1 b2 : UInt8} :
    read3byte (between front (b0 :: b1 :: b2 :: rest)) =
      .ok (toUInt24 b0 b1 b2, between (front ++ [b0, b1, b2]) rest) := by
  have h0 := @at'_between front (b0 :: b1 :: b2 :: rest) 0 (by simp)
  have h1 := @at'_between front (b0 :: b1 :: b2 :: rest) 1 (by simp)
  have h2 := @at'_between front (b0 :: b1 :: b2 :: rest) 2 (by simp)
  have hadvance := @advance_of_le (between front (b0 :: b1 :: b2 :: rest)) 3 (by simp)
  simp only [read3byte, read_bind, h0, h1, h2, hadvance, read_pure]
  exact congrArg _ (congrArg _ (@advance_between front [b0, b1, b2] rest))

namespace Checked

variable {σ : Type} {s s' : σ} {x : Checked σ α} {f : α → Checked σ β} {a : α} {b : β}

@[simp] theorem run_bind (x : Checked σ α) (f : α → Checked σ β) (s : σ) :
    (x >>= f).run s =
      match x.run s with
      | .error fault => .error fault
      | .ok (none, s') => .ok (none, s')
      | .ok (some a, s') => (f a).run s' := by
  rw [OptionT.run_bind]
  simp only [Option.elimM, bind, StateT.bind, Except.bind]
  cases x.run s with
  | error fault => rfl
  | ok p =>
      obtain ⟨a, s'⟩ := p
      cases a <;> rfl

@[simp] theorem run_pure (a : α) (s : σ) : (pure a : Checked σ α).run s = .ok (some a, s) := rfl

@[simp] theorem run_get (s : σ) : (get : Checked σ σ).run s = .ok (some s, s) := rfl

@[simp] theorem run_lift (x : StateT σ (Except MemoryFault) α) (s : σ) :
    (liftM x : Checked σ α).run s =
      match x s with
      | .error fault => .error fault
      | .ok (a, s') => .ok (some a, s') := by
  change (x >>= fun a => pure (some a)) s = _
  simp only [bind, StateT.bind, Except.bind]
  cases x s <;> rfl

theorem run_guard (p : Prop) [Decidable p] (s : σ) :
    (guard p : Checked σ Unit).run s = .ok (if p then some () else none, s) := by
  by_cases h : p <;> simp only [guard, h, if_true, if_false] <;> rfl

/-- A parser that returns true has gone through all its parts. -/
theorem bind_some :
    (x >>= f).run s = .ok (some b, s') ↔
      ∃ a s₁, x.run s = .ok (some a, s₁) ∧ (f a).run s₁ = .ok (some b, s') := by
  rw [run_bind]
  cases x.run s with
  | error fault => simp
  | ok p =>
      obtain ⟨a, s₁⟩ := p
      cases a <;> simp

theorem guard_bind_some {p : Prop} [Decidable p] {f : Unit → Checked σ β} :
    (guard p >>= f).run s = .ok (some b, s') ↔ p ∧ (f ()).run s = .ok (some b, s') := by
  rw [run_bind, run_guard]
  by_cases h : p <;> simp [h]

theorem lift_some {x : StateT σ (Except MemoryFault) α} :
    (liftM x : Checked σ α).run s = .ok (some a, s') ↔ x s = .ok (a, s') := by
  rw [run_lift]
  cases x s <;> simp [Prod.ext_iff]

theorem lift_bind_some {x : StateT σ (Except MemoryFault) α} {s₁ : σ} (hx : x s = .ok (a, s₁)) :
    (liftM x >>= f).run s = .ok (some b, s') ↔ (f a).run s₁ = .ok (some b, s') := by
  rw [run_bind, run_lift, hx]

theorem get_bind_some {f : σ → Checked σ β} :
    (get >>= f).run s = .ok (some b, s') ↔ (f s).run s = .ok (some b, s') := Iff.rfl

/-- A parser stays inside its data when all its parts do. -/
theorem bind_isOk (hx : (x.run s).isOk = true)
    (hf : ∀ a s', x.run s = .ok (some a, s') → ((f a).run s').isOk = true) :
    ((x >>= f).run s).isOk = true := by
  rw [run_bind]
  match h : x.run s with
  | .error fault =>
      rw [h] at hx
      cases hx
  | .ok (none, s') => rfl
  | .ok (some a, s') => exact hf a s' h

theorem guard_bind_isOk {p : Prop} [Decidable p] {f : Unit → Checked σ β}
    (hf : p → ((f ()).run s).isOk = true) : ((guard p >>= f).run s).isOk = true := by
  rw [run_bind, run_guard]
  by_cases h : p
  · simp only [h, if_true]
    exact hf h
  · simp only [h, if_false]
    rfl

theorem lift_bind_isOk {x : StateT σ (Except MemoryFault) α} {s₁ : σ} (hx : x s = .ok (a, s₁))
    (hf : ((f a).run s₁).isOk = true) : ((liftM x >>= f).run s).isOk = true := by
  rw [run_bind, run_lift, hx]
  exact hf

theorem liftExcept_isOk {x : Except MemoryFault α} (h : x.isOk = true) :
    ((liftM x : Checked σ α).run s).isOk = true := by
  cases x with
  | error fault => cases h
  | ok a => rfl

theorem liftExcept_some {x : Except MemoryFault α} :
    (liftM x : Checked σ α).run s = .ok (some a, s') ↔ x = .ok a ∧ s = s' := by
  change ((monadLift x : StateT σ (Except MemoryFault) α) >>= fun a => pure (some a)) s = _ ↔ _
  cases x with
  | error fault =>
      change Except.error fault = Except.ok (some a, s') ↔ _
      simp
  | ok b =>
      change Except.ok (some b, s) = Except.ok (some a, s') ↔ _
      simp

theorem failure_some : ¬ (failure : Checked σ α).run s = .ok (some a, s') := by
  rintro ⟨⟩

end Checked

/-- `CHECK(buffer_len >= n)` on a cursor inside its buffer. -/
theorem run_checkLen (n : Nat) :
    (checkLen n).run (between front left) =
      .ok (if n ≤ left.length then some () else none, between front left) := by
  simp only [checkLen, Checked.run_bind, Checked.run_get, Checked.run_guard]
  rfl

theorem checkLen_bind_some {n : Nat} {f : Unit → Checked Cursor β} {b : β} :
    (checkLen n >>= f).run (between front left) = .ok (some b, c') ↔
      n ≤ left.length ∧ (f ()).run (between front left) = .ok (some b, c') := by
  rw [Checked.run_bind, run_checkLen]
  by_cases h : n ≤ left.length <;> simp [h]

/-- A byte read behind its check. -/
theorem read1byte_bind_some {f : UInt8 → Checked Cursor β} {b : β} :
    (checkLen 1 >>= fun _ => liftM read1byte >>= f).run (between front left) =
        .ok (some b, c') ↔
      ∃ x rest, left = x :: rest ∧
        (f x).run (between (front ++ [x]) rest) = .ok (some b, c') := by
  rw [checkLen_bind_some]
  cases left with
  | nil => simp
  | cons x rest => simp [read1byte_between]

/-- Three bytes read behind their check. -/
theorem read3byte_bind_some {f : UInt32 → Checked Cursor β} {b : β} :
    (checkLen 3 >>= fun _ => liftM read3byte >>= f).run (between front left) =
        .ok (some b, c') ↔
      ∃ x y z rest, left = x :: y :: z :: rest ∧
        (f (toUInt24 x y z)).run (between (front ++ [x, y, z]) rest) = .ok (some b, c') := by
  rw [checkLen_bind_some]
  match left with
  | [] => simp
  | [_] => simp
  | [_, _] => simp
  | x :: y :: z :: rest => simp [read3byte_between]

theorem checkLen_bind_isOk {n : Nat} {f : Unit → Checked Cursor β}
    (hf : n ≤ left.length → ((f ()).run (between front left)).isOk = true) :
    ((checkLen n >>= f).run (between front left)).isOk = true := by
  rw [Checked.run_bind, run_checkLen]
  by_cases h : n ≤ left.length
  · simp only [h, if_true]
    exact hf h
  · simp only [h, if_false]
    rfl

end FlvUtil

end Rtmp
