import Mathlib.Data.List.Basic

/-!
# Blocks of memory

A block has a fixed number of cells. Reading and writing name a place and fail when they
would leave the block; a write changes the cells it names and no other. A seal is a digest
of a block and written into it, at a place that is found in the block itself. When
writing the seal does not move the place, whoever gets the block finds the seal again, and
the sealed blocks are those whose seal is right.
-/

/-- `n` cells in a row. -/
@[ext] structure Block (α : Type*) (n : ℕ) where
  cells : List α
  length_cells : cells.length = n

namespace Block

variable {α : Type*} {n m k : ℕ} {b : Block α n} {pos len : ℕ} {data : List α}

/-- A block with these cells. -/
def ofFn (n : ℕ) (f : ℕ → α) : Block α n := ⟨(List.range n).map f, by simp⟩

/-- The cells from `pos` on. -/
def slice (b : Block α n) (pos len : ℕ) (h : pos + len ≤ n) : Block α len :=
  ⟨(b.cells.drop pos).take len, by
    rw [List.length_take, List.length_drop, b.length_cells]
    omega⟩

/-- The cells from `pos` on replaced. -/
def put (b : Block α n) (pos : ℕ) (data : List α) (h : pos + data.length ≤ n) : Block α n :=
  ⟨b.cells.take pos ++ (data ++ b.cells.drop (pos + data.length)), by
    rw [List.length_append, List.length_append, List.length_take, List.length_drop,
      b.length_cells]
    omega⟩

/-- What is left when cells are cut out. -/
def without (b : Block α n) (pos len : ℕ) : List α :=
  b.cells.take pos ++ b.cells.drop (pos + len)

section Access

def get (b : Block α n) (i : ℕ) : Option α := b.cells[i]?

def read (b : Block α n) (pos len : ℕ) : Option (List α) :=
  if h : pos + len ≤ n then some (b.slice pos len h).cells else none

def write (b : Block α n) (pos : ℕ) (data : List α) : Option (Block α n) :=
  if h : pos + data.length ≤ n then some (b.put pos data h) else none

/-- Cells of one block written over those of another. -/
def copy (b : Block α n) (pos : ℕ) (src : Block α m) (srcPos len : ℕ) : Option (Block α n) := do
  b.write pos (← src.read srcPos len)

theorem get_eq {i : ℕ} (h : i < n) (default : α) :
    b.get i = some (b.cells.getD i default) := by
  rw [get, List.getD_eq_getElem?_getD, List.getElem?_eq_getElem (by rwa [b.length_cells])]
  rfl

theorem read_eq (h : pos + len ≤ n) : b.read pos len = some (b.slice pos len h).cells :=
  dif_pos h

theorem write_eq (h : pos + data.length ≤ n) : b.write pos data = some (b.put pos data h) :=
  dif_pos h

theorem copy_eq {src : Block α m} {srcPos : ℕ} (hsrc : srcPos + len ≤ m) (h : pos + len ≤ n) :
    b.copy pos src srcPos len = some (b.put pos (src.slice srcPos len hsrc).cells
      (by rw [(src.slice srcPos len hsrc).length_cells]; exact h)) := by
  rw [copy, read_eq hsrc]
  exact write_eq _

end Access

section Cells

/-- Blocks are equal when their cells are. -/
theorem ext_getElem? {a b : Block α n} (h : ∀ i : ℕ, a.cells[i]? = b.cells[i]?) : a = b :=
  Block.ext (List.ext_getElem? h)

@[simp] theorem getElem?_ofFn {f : ℕ → α} {i : ℕ} (h : i < n) :
    (ofFn n f).cells[i]? = some (f i) := by
  simp [ofFn, h]

@[simp] theorem getElem?_slice {h : pos + len ≤ n} (i : ℕ) :
    (b.slice pos len h).cells[i]? = if i < len then b.cells[pos + i]? else none := by
  simp [slice, List.getElem?_take]

@[simp] theorem getElem?_put {h : pos + data.length ≤ n} (i : ℕ) :
    (b.put pos data h).cells[i]? =
      if i < pos then b.cells[i]?
      else if i < pos + data.length then data[i - pos]? else b.cells[i]? := by
  have hlength := b.length_cells
  rw [put, List.getElem?_append, List.length_take, List.getElem?_append]
  split
  · rw [List.getElem?_take]
    grind
  · grind

theorem getElem?_without (i : ℕ) (h : pos ≤ n) :
    (b.without pos len)[i]? = if i < pos then b.cells[i]? else b.cells[i + len]? := by
  have hlength := b.length_cells
  rw [without, List.getElem?_append, List.length_take]
  grind

theorem slice_all (h : 0 + n ≤ n) : b.slice 0 n h = b := by
  refine ext_getElem? fun i => ?_
  have hlength := b.length_cells
  rw [getElem?_slice]
  grind

/-- A slice without its end is a shorter slice. -/
theorem without_end {whole : ℕ} (hlen : len + k = whole) (h : pos + whole ≤ n)
    (h' : pos + len ≤ n) :
    (b.slice pos whole h).without len k = (b.slice pos len h').cells := by
  refine List.ext_getElem? fun i => ?_
  rw [getElem?_without i (by omega), getElem?_slice, getElem?_slice, getElem?_slice]
  grind

/-- Two slices are equal when they are cell by cell. -/
theorem slice_eq_slice_iff {c : Block α m} {pos' : ℕ} {h : pos + len ≤ n} {h' : pos' + len ≤ m} :
    (b.slice pos len h).cells = (c.slice pos' len h').cells ↔
      ∀ i < len, b.cells[pos + i]? = c.cells[pos' + i]? := by
  constructor
  · intro heq i hi
    have hcell := congrArg (fun cells => cells[i]?) heq
    simpa [hi] using hcell
  · intro hcells
    refine List.ext_getElem? fun i => ?_
    rw [getElem?_slice, getElem?_slice]
    split
    · exact hcells i ‹_›
    · rfl

end Cells

section Frame

variable {pos' len' : ℕ} {data' : List α} {h : pos + data.length ≤ n}

theorem put_congr {h' : pos' + data'.length ≤ n} (hpos : pos = pos') (hdata : data = data') :
    b.put pos data h = b.put pos' data' h' := by
  subst hpos hdata
  rfl

/-- What has been put is found there. -/
theorem slice_put (hlen : data.length = len) (h' : pos + len ≤ n) :
    ((b.put pos data h).slice pos len h').cells = data := by
  refine List.ext_getElem? fun i => ?_
  rw [getElem?_slice, getElem?_put]
  grind

/-- Other cells are as before. -/
theorem slice_put_of_disjoint {h' : pos' + len' ≤ n}
    (hdisjoint : pos' + len' ≤ pos ∨ pos + data.length ≤ pos') :
    (b.put pos data h).slice pos' len' h' = b.slice pos' len' h' := by
  refine ext_getElem? fun i => ?_
  simp only [getElem?_slice, getElem?_put]
  grind

/-- A write inside of a slice is a write to the slice. -/
theorem slice_put_of_inside {h' : pos' + len' ≤ n} (hle : pos' ≤ pos)
    (hle' : pos - pos' + data.length ≤ len') :
    (b.put pos data h).slice pos' len' h' = (b.slice pos' len' h').put (pos - pos') data hle' := by
  refine ext_getElem? fun i => ?_
  simp only [getElem?_slice, getElem?_put]
  grind

theorem getElem?_put_of_lt {i : ℕ} (hi : i < pos) :
    (b.put pos data h).cells[i]? = b.cells[i]? := by
  rw [getElem?_put, if_pos hi]

/-- What has been put does not show in the rest. -/
theorem without_put (hlen : data.length = len) :
    (b.put pos data h).without pos len = b.without pos len := by
  refine List.ext_getElem? fun i => ?_
  rw [getElem?_without i (by omega), getElem?_without i (by omega), getElem?_put, getElem?_put]
  grind

/-- Putting back what is there changes nothing. -/
theorem put_slice (h' : pos + len ≤ n) :
    b.put pos (b.slice pos len h').cells (by rw [(b.slice pos len h').length_cells]; exact h') =
      b := by
  refine ext_getElem? fun i => ?_
  have hlength := (b.slice pos len h').length_cells
  rw [getElem?_put, getElem?_slice]
  grind

end Frame

section Layout

variable {c : Block α n} {more : List α} {pos' : ℕ}

/-- The cells from `pos` on begin with `data`. -/
def HoldsAt (b : Block α n) (pos : ℕ) (data : List α) : Prop :=
  ∀ i < data.length, b.cells[pos + i]? = data[i]?

/-- Data that is held side by side is held as one. -/
theorem HoldsAt.append (h : b.HoldsAt pos data) (h' : b.HoldsAt pos' more)
    (hpos : pos + data.length = pos') : b.HoldsAt pos (data ++ more) := by
  intro i hi
  rw [List.length_append] at hi
  by_cases hlt : i < data.length
  · rw [List.getElem?_append_left hlt]
    exact h i hlt
  · rw [List.getElem?_append_right (by omega), ← h' (i - data.length) (by omega)]
    congr 1
    omega

/-- A block that holds as much as it has cells has no other cells. -/
theorem HoldsAt.cells (h : b.HoldsAt 0 data) (hlen : data.length = n) : b.cells = data := by
  refine List.ext_getElem? fun i => ?_
  have hlength := b.length_cells
  by_cases hi : i < n
  · simpa using h i (by omega)
  · rw [List.getElem?_eq_none (by omega), List.getElem?_eq_none (by omega)]

theorem holdsAt_put (h : pos + data.length ≤ n) : (b.put pos data h).HoldsAt pos data := by
  intro i hi
  rw [getElem?_put, if_neg (by omega), if_pos (by omega), Nat.add_sub_cancel_left]

/-- Blocks that agree on its cells hold the same data. -/
theorem HoldsAt.congr (h : b.HoldsAt pos data)
    (hcells : ∀ i, pos ≤ i → i < pos + data.length → c.cells[i]? = b.cells[i]?) :
    c.HoldsAt pos data := by
  intro i hi
  rw [hcells (pos + i) (by omega) (by omega)]
  exact h i hi

/-- Writing beside it leaves the data. -/
theorem HoldsAt.put (h : b.HoldsAt pos data) {h' : pos' + more.length ≤ n}
    (hdisjoint : pos + data.length ≤ pos' ∨ pos' + more.length ≤ pos) :
    (b.put pos' more h').HoldsAt pos data := by
  refine h.congr fun i hle hlt => ?_
  rw [getElem?_put]
  grind

end Layout

section Loop

variable {value : ℕ → Option α} {f : ℕ → α} {base stop : ℕ}

/-- The loop that stores `value i` at `base + i`, from `i` up to `stop`. -/
def storeEach (value : ℕ → Option α) (base stop : ℕ) (b : Block α n) (i : ℕ) :
    Option (Block α n) := do
  if i < stop then
    let b ← b.write (base + i) [← value i]
    storeEach value base stop b (i + 1)
  else return b
termination_by stop - i

/-- The cells the loop has gone over hold their values, all others what they held. -/
theorem storeEach_eq (hstop : base + stop ≤ n) (i : ℕ)
    (hvalue : ∀ j, i ≤ j → j < stop → value j = some (f j)) (b : Block α n) :
    ∃ filled, storeEach value base stop b i = some filled ∧ ∀ j, filled.cells[j]? =
      if base + i ≤ j ∧ j < base + stop then some (f (j - base)) else b.cells[j]? := by
  induction hi : stop - i using Nat.strongRecOn generalizing i b with
  | ind k ih =>
      rw [storeEach]
      by_cases hlt : i < stop
      · have hwrite : base + i + [f i].length ≤ n := by
          rw [List.length_singleton]
          omega
        obtain ⟨filled, hfilled, hcells⟩ := ih (stop - (i + 1)) (by omega) (i + 1)
          (fun j hij hj => hvalue j (by omega) hj) (b.put (base + i) [f i] hwrite) rfl
        refine ⟨filled, ?_, fun j => ?_⟩
        · rw [if_pos hlt, hvalue i (Nat.le_refl _) hlt]
          exact Option.bind_eq_some_iff.mpr ⟨_, rfl,
            Option.bind_eq_some_iff.mpr ⟨_, write_eq hwrite, hfilled⟩⟩
        · rw [hcells j, getElem?_put]
          grind
      · rw [if_neg hlt]
        refine ⟨b, rfl, fun j => ?_⟩
        rw [if_neg (by omega)]

/-- The loop lays its values out one behind the other, and leaves what lies beside them. -/
theorem storeEach_holdsAt (hstop : base + stop ≤ n) (i : ℕ)
    (hvalue : ∀ j, i ≤ j → j < stop → value j = some (f j)) (b : Block α n) :
    ∃ filled, storeEach value base stop b i = some filled ∧
      filled.HoldsAt (base + i) ((List.range' i (stop - i)).map f) ∧
      ∀ pos data, b.HoldsAt pos data →
        (pos + data.length ≤ base + i ∨ base + stop ≤ pos) → filled.HoldsAt pos data := by
  obtain ⟨filled, hfilled, hcells⟩ := storeEach_eq hstop i hvalue b
  refine ⟨filled, hfilled, ?_, ?_⟩
  · intro k hk
    rw [List.length_map, List.length_range'] at hk
    rw [hcells, if_pos (by omega), List.getElem?_map, List.getElem?_range' hk]
    have hindex : base + i + k - base = i + 1 * k := by omega
    rw [hindex]
    rfl
  · intro pos data hdata hbeside
    refine hdata.congr fun j hle hlt => ?_
    rw [hcells, if_neg (by omega)]

end Loop

end Block

/-- Seals of `k` cells in blocks of `n`. -/
structure Seal (α : Type*) (n k : ℕ) where
  /-- Where the seal of a block goes. -/
  place : Block α n → ℕ
  /-- The seal, made from what is left of the block. -/
  digest : List α → List α
  place_le : ∀ b, place b + k ≤ n
  length_digest : ∀ text, (digest text).length = k
  place_put : ∀ (b : Block α n) (data : List α) (h : data.length = k),
    place (b.put (place b) data (by rw [h]; exact place_le b)) = place b

namespace Seal

variable {α : Type*} {n k : ℕ} (s : Seal α n k) {b : Block α n}

/-- The block with its seal in place. -/
def sealed (b : Block α n) : Block α n :=
  b.put (s.place b) (s.digest (b.without (s.place b) k))
    (by rw [s.length_digest]; exact s.place_le b)

/-- The seal found in the block is that of the rest. -/
def Holds (b : Block α n) : Prop :=
  (b.slice (s.place b) k (s.place_le b)).cells = s.digest (b.without (s.place b) k)

instance [DecidableEq α] (b : Block α n) : Decidable (s.Holds b) :=
  inferInstanceAs (Decidable (_ = _))

theorem place_sealed (b : Block α n) : s.place (s.sealed b) = s.place b :=
  s.place_put b _ (s.length_digest _)

/-- The seal is not part of what it is computed from. -/
theorem without_sealed (b : Block α n) :
    (s.sealed b).without (s.place b) k = b.without (s.place b) k :=
  Block.without_put (s.length_digest _)

theorem slice_sealed (b : Block α n) (h : s.place b + k ≤ n) :
    ((s.sealed b).slice (s.place b) k h).cells = s.digest (b.without (s.place b) k) :=
  Block.slice_put (s.length_digest _) h

theorem holds_sealed (b : Block α n) : s.Holds (s.sealed b) := by
  rw [Holds]
  simp only [s.place_sealed b]
  rw [s.slice_sealed b, s.without_sealed b]

/-- Sealing a block whose seal is right changes nothing. -/
theorem sealed_of_holds (h : s.Holds b) : s.sealed b = b := by
  have hput := @Block.put_slice α n b (s.place b) k (s.place_le b)
  have hcells : (b.slice (s.place b) k (s.place_le b)).cells = _ := h
  simp only [hcells] at hput
  exact hput

/-- The seal is right in the blocks that were sealed, and in no other. -/
theorem holds_iff : s.Holds b ↔ ∃ a, b = s.sealed a := by
  constructor
  · intro h
    exact ⟨b, (s.sealed_of_holds h).symm⟩
  · rintro ⟨a, rfl⟩
    exact s.holds_sealed a

end Seal
