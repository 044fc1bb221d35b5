import RtmpModule.Media.CheckedRead

/-!
# Parsers that stay inside

A parser is safe between two bounds on the bytes left when, started anywhere in a
buffer with as many bytes left, it ends without a fault and has moved the pointer and
the length by the same amount. A read of so many bytes is safe when as many are left,
a check raises the lower bound for what comes behind it, and a parser is safe when
its parts are.
-/

namespace Rtmp

namespace FlvUtil

/-- The bytes left are in the buffer, which may go on behind them. -/
def Cursor.Fits (c : Cursor) : Prop := c.pos + c.len ≤ c.data.length

/-- The pointer has moved forward by what the length has lost. -/
structure Cursor.Follows (c c' : Cursor) : Prop where
  data : c'.data = c.data
  sum : c'.pos + c'.len = c.pos + c.len
  len : c'.len ≤ c.len

namespace Cursor.Follows

variable {c c₁ c₂ : Cursor}

theorem refl (c : Cursor) : c.Follows c := ⟨rfl, rfl, Nat.le_refl _⟩

theorem trans (h₁ : c.Follows c₁) (h₂ : c₁.Follows c₂) : c.Follows c₂ :=
  ⟨h₂.data.trans h₁.data, h₂.sum.trans h₁.sum, Nat.le_trans h₂.len h₁.len⟩

theorem fits (h : c.Follows c₁) (hc : c.Fits) : c₁.Fits := by
  simp only [Cursor.Fits, h.data, h.sum] at *
  exact hc

theorem advance {n : Nat} (h : n ≤ c.len) : c.Follows (c.advance n) := by
  refine ⟨rfl, ?_, ?_⟩ <;> simp only [Cursor.advance_pos, Cursor.advance_len] <;> omega

end Cursor.Follows

/-- A parser that, with between `lo` and `hi` bytes left, ends inside its buffer. -/
def Safe {α : Type} (lo hi : Nat) (x : Read α) : Prop :=
  ∀ c : Cursor, c.Fits → lo ≤ c.len → c.len ≤ hi → ∃ a c', x c = .ok (a, c') ∧ c.Follows c'

/-- A parser called with a part of a buffer ends, with or without success, and stays inside:
the bytes it has moved over and those left are those it was given. -/
def EndsInside {α : Type} (buffer : List UInt8) (bufferLen : Nat) (x : Read α) : Prop :=
  ∃ a c, x ⟨buffer, 0, bufferLen⟩ = .ok (a, c) ∧ c.data = buffer ∧ c.pos + c.len = bufferLen

/-- A read that, where `n` bytes are left, moves the cursor over them. -/
def Takes {α : Type} (n : Nat) (x : Read α) : Prop :=
  ∀ c : Cursor, c.Fits → n ≤ c.len → ∃ a, x c = .ok (a, c.advance n)

variable {α β : Type} {lo hi n : Nat}

section Takes

variable {c : Cursor}

theorem at'_ok {i : Nat} (hc : c.Fits) (hi : i < c.len) : ∃ b, at' i c = .ok (b, c) := by
  have hpos : c.pos + i < c.data.length := by
    simp only [Cursor.Fits] at hc
    omega
  rw [at', List.getElem?_eq_getElem hpos]
  exact ⟨_, rfl⟩

theorem takes_read1byte : Takes 1 read1byte := by
  intro c hc hlen
  obtain ⟨b0, h0⟩ := at'_ok hc (Nat.lt_of_lt_of_le Nat.zero_lt_one hlen)
  refine ⟨b0, ?_⟩
  simp only [read1byte, read_bind, h0, advance_of_le hlen, read_pure]

theorem takes_read2byte : Takes 2 read2byte := by
  intro c hc hlen
  obtain ⟨b0, h0⟩ := @at'_ok c 0 hc (by omega)
  obtain ⟨b1, h1⟩ := @at'_ok c 1 hc (by omega)
  refine ⟨toUInt16 b0 b1, ?_⟩
  simp only [read2byte, get2byte, read_bind, h0, h1, advance_of_le hlen, read_pure, toUInt16]

theorem takes_read3byte : Takes 3 read3byte := by
  intro c hc hlen
  obtain ⟨b0, h0⟩ := @at'_ok c 0 hc (by omega)
  obtain ⟨b1, h1⟩ := @at'_ok c 1 hc (by omega)
  obtain ⟨b2, h2⟩ := @at'_ok c 2 hc (by omega)
  refine ⟨toUInt24 b0 b1 b2, ?_⟩
  simp only [read3byte, read_bind, h0, h1, h2, advance_of_le hlen, read_pure, toUInt24]

theorem Takes.bind {m : Nat} {x : Read α} {f : α → Read β} (hx : Takes n x)
    (hf : ∀ a, Takes m (f a)) : Takes (n + m) (x >>= f) := by
  intro c hc hlen
  obtain ⟨a, ha⟩ := hx c hc (by omega)
  have hleft : m ≤ (c.advance n).len := by
    rw [Cursor.advance_len]
    omega
  obtain ⟨b, hb⟩ := hf a _ ((Cursor.Follows.advance (by omega)).fits hc) hleft
  refine ⟨b, ?_⟩
  rw [read_bind, ha]
  simp only [hb, Cursor.advance_advance]

theorem takes_pure (a : α) : Takes 0 (pure a : Read α) := fun _ _ _ => ⟨a, rfl⟩

theorem takes_readNbyte (n : Nat) : Takes n (readNbyte n) := by
  induction n with
  | zero => exact takes_pure []
  | succ n ih =>
      have h := takes_read1byte.bind fun b => ih.bind fun rest => takes_pure (b :: rest)
      rw [Nat.add_zero, Nat.add_comm] at h
      exact h

/-- As many bytes come out as were asked for. -/
theorem readNbyte_length {c c' : Cursor} {bs : List UInt8} (h : readNbyte n c = .ok (bs, c')) :
    bs.length = n := by
  induction n generalizing c bs with
  | zero =>
      cases h
      rfl
  | succ n ih =>
      rw [readNbyte_succ] at h
      split at h
      · cases h
      · split at h
        · cases h
        · next hrest =>
          cases h
          rw [List.length_cons, ih hrest]

end Takes

namespace Safe

theorem pure (a : α) : Safe lo hi (Pure.pure a : Read α) :=
  fun c _ _ _ => ⟨a, c, rfl, .refl c⟩

theorem mono {x : Read α} {lo' : Nat} (h : Safe lo hi x) (hlo : lo ≤ lo') : Safe lo' hi x :=
  fun c hc hlen hhi => h c hc (Nat.le_trans hlo hlen) hhi

/-- Behind a part of a parser nothing is known of the bytes left but their upper bound. -/
theorem bind {x : Read α} {f : α → Read β} (hx : Safe lo hi x) (hf : ∀ a, Safe 0 hi (f a)) :
    Safe lo hi (x >>= f) := by
  intro c hc hlo hhi
  obtain ⟨a, c₁, hok, hfollows⟩ := hx c hc hlo hhi
  obtain ⟨b, c₂, hok₂, hfollows₂⟩ :=
    hf a c₁ (hfollows.fits hc) (Nat.zero_le _) (Nat.le_trans hfollows.len hhi)
  exact ⟨b, c₂, by rw [read_bind, hok]; exact hok₂, hfollows.trans hfollows₂⟩

theorem takes {x : Read α} {f : α → Read β} (hx : Takes n x) (hn : n ≤ lo)
    (hf : ∀ a, Safe (lo - n) hi (f a)) : Safe lo hi (x >>= f) := by
  intro c hc hlo hhi
  obtain ⟨a, ha⟩ := hx c hc (Nat.le_trans hn hlo)
  have hfollows : c.Follows (c.advance n) := .advance (Nat.le_trans hn hlo)
  have hleft : lo - n ≤ (c.advance n).len := Nat.sub_le_sub_right hlo n
  obtain ⟨b, c', hok, hfollows'⟩ :=
    hf a _ (hfollows.fits hc) hleft (Nat.le_trans hfollows.len hhi)
  exact ⟨b, c', by rw [read_bind, ha]; exact hok, hfollows.trans hfollows'⟩

/-- What looks at the length is safe when it is for every length it can see. -/
theorem get {f : Cursor → Read β}
    (hf : ∀ c : Cursor, lo ≤ c.len → c.len ≤ hi → Safe c.len c.len (f c)) :
    Safe lo hi (MonadState.get >>= f) := by
  intro c hc hlo hhi
  exact hf c hlo hhi c hc (Nat.le_refl _) (Nat.le_refl _)

/-- A check in front of the rest of a parser. -/
theorem check {x y : Read α} (hx : Safe lo hi x) (hy : Safe n hi y) :
    Safe lo hi (MonadState.get >>= fun c : Cursor => if c.len < n then x else y) := by
  intro c hc hlo hhi
  rw [read_bind, read_get]
  by_cases h : c.len < n
  · simp only [h, if_true]
    exact hx c hc hlo hhi
  · simp only [h, if_false]
    exact hy c hc (Nat.le_of_not_lt h) hhi

theorem ite {p : Prop} [Decidable p] {x y : Read α} (hx : Safe lo hi x) (hy : Safe lo hi y) :
    Safe lo hi (if p then x else y) := by
  by_cases h : p
  · rw [if_pos h]
    exact hx
  · rw [if_neg h]
    exact hy

/-- A safe parser needs as many bytes as its lower bound says. -/
theorem endsInside {x : Read α} (h : Safe lo n x) (hlo : lo ≤ n) {buffer : List UInt8}
    (hn : n ≤ buffer.length) : EndsInside buffer n x := by
  have hfits : Cursor.Fits ⟨buffer, 0, n⟩ := by
    simp only [Cursor.Fits]
    omega
  obtain ⟨a, c, hok, hfollows⟩ := h _ hfits hlo (Nat.le_refl _)
  exact ⟨a, c, hok, hfollows.data, hfollows.sum.trans (Nat.zero_add n)⟩

section Checked

variable {x : Checked Cursor α} {f : α → Checked Cursor β}

theorem run_pure (a : α) : Safe lo hi (Pure.pure a : Checked Cursor α).run := Safe.pure (some a)

theorem run_bind (hx : Safe lo hi x.run) (hf : ∀ a, Safe 0 hi (f a).run) :
    Safe lo hi (x >>= f).run := by
  intro c hc hlo hhi
  obtain ⟨a, c₁, hok, hfollows⟩ := hx c hc hlo hhi
  rw [Checked.run_bind, hok]
  cases a with
  | none => exact ⟨none, c₁, rfl, hfollows⟩
  | some a =>
      obtain ⟨b, c₂, hok₂, hfollows₂⟩ :=
        hf a c₁ (hfollows.fits hc) (Nat.zero_le _) (Nat.le_trans hfollows.len hhi)
      exact ⟨b, c₂, hok₂, hfollows.trans hfollows₂⟩

theorem run_guard {p : Prop} [Decidable p] {f : Unit → Checked Cursor β}
    (hf : p → Safe lo hi (f ()).run) : Safe lo hi (guard p >>= f).run := by
  intro c hc hlo hhi
  rw [Checked.run_bind, Checked.run_guard]
  by_cases h : p
  · simp only [h, if_true]
    exact hf h c hc hlo hhi
  · simp only [h, if_false]
    exact ⟨none, c, rfl, .refl c⟩

theorem run_checkLen {f : Unit → Checked Cursor β} (hf : Safe n hi (f ()).run) :
    Safe lo hi (checkLen n >>= f).run := by
  intro c hc hlo hhi
  simp only [checkLen, Checked.run_bind, Checked.run_get, Checked.run_guard]
  by_cases h : n ≤ c.len
  · simp only [h, if_true]
    exact hf c hc h hhi
  · simp only [h, if_false]
    exact ⟨none, c, rfl, .refl c⟩

theorem run_takes {x : Read α} (hx : Takes n x) (hn : n ≤ lo)
    (hf : ∀ a, Safe (lo - n) hi (f a).run) : Safe lo hi (liftM x >>= f).run := by
  intro c hc hlo hhi
  obtain ⟨b, c', hok, hfollows⟩ := takes hx hn hf c hc hlo hhi
  refine ⟨b, c', ?_, hfollows⟩
  rw [Checked.run_bind, Checked.run_lift]
  rw [read_bind] at hok
  cases hxc : x c with
  | error fault =>
      rw [hxc] at hok
      cases hok
  | ok p =>
      rw [hxc] at hok
      exact hok

/-- What looks at the length behind a check. -/
theorem run_get {f : Cursor → Checked Cursor β}
    (hf : ∀ c : Cursor, lo ≤ c.len → c.len ≤ hi → Safe c.len c.len (f c).run) :
    Safe lo hi (MonadState.get >>= f).run := by
  intro c hc hlo hhi
  exact hf c hlo hhi c hc (Nat.le_refl _) (Nat.le_refl _)

end Checked

end Safe

/-- Where the first parser ends without a fault, the second one ends in the same way. -/
def Agrees {α : Type} (x y : Read α) : Prop := ∀ c r, x c = .ok r → y c = .ok r

namespace Agrees

variable {x y : Read α}

theorem refl (x : Read α) : Agrees x x := fun _ _ h => h

theorem bind {f g : α → Read β} (hx : Agrees x y) (hf : ∀ a, Agrees (f a) (g a)) :
    Agrees (x >>= f) (y >>= g) := by
  intro c r h
  rw [read_bind] at h ⊢
  split at h
  · cases h
  · next hok =>
    rw [hx _ _ hok]
    exact hf _ _ _ h

theorem ite {p : Prop} [Decidable p] {z : Read α} (h : Agrees x y) :
    Agrees (if p then z else x) (if p then z else y) := by
  by_cases hp : p
  · rw [if_pos hp, if_pos hp]
    exact refl z
  · rw [if_neg hp, if_neg hp]
    exact h

theorem run_bind {x y : Checked Cursor α} {f g : α → Checked Cursor β}
    (hx : Agrees x.run y.run) (hf : ∀ a, Agrees (f a).run (g a).run) :
    Agrees (x >>= f).run (y >>= g).run := by
  intro c r h
  rw [Checked.run_bind] at h ⊢
  split at h
  · cases h
  · next hok =>
    rw [hx _ _ hok]
    exact h
  · next hok =>
    rw [hx _ _ hok]
    exact hf _ _ _ h

theorem run_lift {x y : Read α} (h : Agrees x y) :
    Agrees (liftM x : Checked Cursor α).run (liftM y : Checked Cursor α).run := by
  intro c r hx
  rw [Checked.run_lift] at hx ⊢
  split at hx
  · cases hx
  · next hok =>
    rw [h _ _ hok]
    exact hx

end Agrees

end FlvUtil

end Rtmp
