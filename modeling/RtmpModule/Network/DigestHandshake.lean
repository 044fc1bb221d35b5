import RtmpModule.Network.HandshakeManager

/-!
# Signer and verifier of the digest handshake

S1 is a block with the digest of the rest of it in it, and C1 is expected to be one. The
place of the digest lies behind the four bytes that name it, so that putting the digest in
does not move it. S2 is sealed the same way at its end, with a key made from the digest of
C1. Every copy stays inside of its buffers.
-/

namespace Rtmp

open Bytes NetworkUtil

namespace HandshakeManager

variable {n : ℕ} {b b' : Block UInt8 n} {scheme : UInt8}

/-- The sum of four bytes. -/
def sumAt (b : Block UInt8 n) (i : ℕ) : ℕ :=
  (b.cells.getD i 0).toNat + (b.cells.getD (i + 1) 0).toNat + (b.cells.getD (i + 2) 0).toNat +
    (b.cells.getD (i + 3) 0).toNat

/-- The place of the digest in a block of 1536 bytes. -/
def digestPlace (scheme : UInt8) (b : Block UInt8 n) : ℕ :=
  if scheme = 1 then sumAt b 772 % 728 + 776 else sumAt b 8 % 728 + 12

section Place

theorem digestPlace_le (scheme : UInt8) (b : Block UInt8 n) : digestPlace scheme b + 32 ≤ 1536 := by
  rw [digestPlace]
  split <;> omega

/-- The place depends on bytes in front of it. -/
theorem digestPlace_congr {m : ℕ} {c : Block UInt8 m}
    (h : ∀ i < digestPlace scheme b, c.cells[i]? = b.cells[i]?) :
    digestPlace scheme c = digestPlace scheme b := by
  have hsum : ∀ i, i + 4 ≤ digestPlace scheme b → sumAt c i = sumAt b i := by
    intro i hi
    simp only [sumAt, List.getD_eq_getElem?_getD]
    rw [h i (by omega), h (i + 1) (by omega), h (i + 2) (by omega), h (i + 3) (by omega)]
  by_cases hscheme : scheme = 1
  · have hplace : digestPlace scheme b = sumAt b 772 % 728 + 776 := if_pos hscheme
    rw [hplace, digestPlace, if_pos hscheme, hsum 772 (by omega)]
  · have hplace : digestPlace scheme b = sumAt b 8 % 728 + 12 := if_neg hscheme
    rw [hplace, digestPlace, if_neg hscheme, hsum 8 (by omega)]

/-- S1 has its place where the buffer has it. -/
theorem digestPlace_slice (scheme : UInt8) (b : Block UInt8 n) {h : 0 + 1536 ≤ n} :
    digestPlace scheme (b.slice 0 1536 h) = digestPlace scheme b := by
  have hle := digestPlace_le scheme b
  refine digestPlace_congr fun i hi => ?_
  rw [Block.getElem?_slice, if_pos (by omega), Nat.zero_add]

theorem sumBytes_eq {i : ℕ} (h : i + 4 ≤ n) :
    ∃ sum, sumBytes b i = some sum ∧ sum.toNat = sumAt b i := by
  have hget : ∀ j < n, b.get j = some (b.cells.getD j 0) := by
    intro j hj
    rw [Block.get, List.getD_eq_getElem?_getD, List.getElem?_eq_getElem (by rwa [b.length_cells])]
    rfl
  refine ⟨_, by rw [sumBytes, hget i (by omega), hget (i + 1) (by omega),
    hget (i + 2) (by omega), hget (i + 3) (by omega)]; rfl, ?_⟩
  have hbyte : ∀ j, (b.cells.getD j 0).toNat < 256 := fun j => UInt8.toNat_lt _
  have h0 := hbyte i
  have h1 := hbyte (i + 1)
  have h2 := hbyte (i + 2)
  have h3 := hbyte (i + 3)
  simp only [UInt32.toNat_add, UInt8.toNat_toUInt32, sumAt]
  omega

/-- The offset is computed without leaving the block, for every scheme. -/
theorem getDigestOffset_eq (b : Block UInt8 n) (scheme : UInt8) (h : 1536 ≤ n) :
    ∃ offset, getDigestOffset b scheme = some offset ∧ offset.toNat = digestPlace scheme b := by
  have hplace : ∀ i base : ℕ, i + 4 ≤ n → base < 1000 → ∃ sum : UInt32, sumBytes b i = some sum ∧
      (sum % 728 + UInt32.ofNat base).toNat = sumAt b i % 728 + base := by
    intro i base hi hbase
    obtain ⟨sum, hsum, htoNat⟩ := @sumBytes_eq n b i hi
    refine ⟨sum, hsum, ?_⟩
    rw [UInt32.toNat_add, UInt32.toNat_mod, htoNat, UInt32.toNat_ofNat']
    simp
    omega
  obtain ⟨first, hfirst, hfirstPlace⟩ := hplace 8 12 (by omega) (by omega)
  obtain ⟨second, hsecond, hsecondPlace⟩ := hplace 772 776 (by omega) (by omega)
  have hoffset0 : getDigestOffset0 b = some (first % 728 + 12) := by
    rw [getDigestOffset0, hfirst]
    rfl
  have hoffset1 : getDigestOffset1 b = some (second % 728 + 776) := by
    rw [getDigestOffset1, hsecond]
    rfl
  rw [getDigestOffset, digestPlace]
  by_cases hzero : scheme = 0
  · subst hzero
    exact ⟨_, hoffset0, hfirstPlace⟩
  · by_cases hone : scheme = 1
    · rw [if_neg hzero, if_pos hone, if_pos hone]
      exact ⟨_, hoffset1, hsecondPlace⟩
    · rw [if_neg hzero, if_neg hone, if_neg hone]
      exact ⟨_, hoffset0, hfirstPlace⟩

end Place

section Cut

/-- What is left of the first 1536 bytes without the digest. -/
theorem cutDigest_eq {pTempBuffer : Block UInt8 1504} {offset : UInt32} (h : 1536 ≤ n)
    (hoffset : offset.toNat + 32 ≤ 1536) :
    ∃ cut, cutDigest pTempBuffer b offset = some cut ∧
      cut.cells = (b.slice 0 1536 (by omega)).without offset.toNat 32 := by
  have hrest : (handshakeMsgLength - offset - 32).toNat = 1504 - offset.toNat := by
    have hle : offset ≤ handshakeMsgLength := UInt32.le_iff_toNat_le.mpr (by
      change _ ≤ 1536
      omega)
    have hsub : (handshakeMsgLength - offset).toNat = 1536 - offset.toNat :=
      UInt32.toNat_sub_of_le _ _ hle
    rw [UInt32.toNat_sub_of_le _ _ (UInt32.le_iff_toNat_le.mpr (by
      rw [hsub]
      change 32 ≤ _
      omega)), hsub]
    change _ - 32 = _
    omega
  rw [cutDigest, Block.copy_eq (by omega) (by omega)]
  simp only [Option.bind_eq_bind, Option.bind_some, hrest]
  rw [Block.copy_eq (by omega) (by omega)]
  refine ⟨_, rfl, List.ext_getElem? fun i => ?_⟩
  have hlength := pTempBuffer.length_cells
  rw [Block.getElem?_without i (by omega)]
  simp only [Block.getElem?_put, Block.getElem?_slice, Block.length_cells]
  grind

end Cut

section Verify

/-- The digest under a key, at the place a scheme finds for it. -/
def digestSeal (sha256Util : HMACSha256Util) (key : List UInt8) (scheme : UInt8) :
    Seal UInt8 1536 32 where
  place := digestPlace scheme
  digest := sha256Util.hmac key
  place_le := digestPlace_le scheme
  length_digest := sha256Util.length_hmac key
  place_put := by
    intro b data hdata
    exact digestPlace_congr fun i hi => Block.getElem?_put_of_lt hi

theorem holds_digestSeal {sha256Util : HMACSha256Util} {key : List UInt8}
    {buf : Block UInt8 1536} :
    (digestSeal sha256Util key scheme).Holds buf ↔
      (buf.slice (digestPlace scheme buf) 32 (digestPlace_le scheme buf)).cells =
        sha256Util.hmac key (buf.without (digestPlace scheme buf) 32) := Iff.rfl

/-- `encrypt` leaves the hash in front. -/
theorem encrypt_eq (sha256Util : HMACSha256Util) (text key : List UInt8)
    (digest : Block UInt8 512) :
    ∃ hash, sha256Util.encrypt text key digest = some hash ∧
      (hash.slice 0 32 (by decide)).cells = sha256Util.hmac key text := by
  have hlength := sha256Util.length_hmac key text
  exact ⟨_, Block.write_eq (by omega), Block.slice_put hlength (by decide)⟩

/-- The comparison looks at every byte until one differs. -/
theorem sameDigest_eq {offset : UInt32} {hash : Block UInt8 512} (hn : offset.toNat + 32 ≤ n)
    (hoffset : offset.toNat + 32 < 2 ^ 32) (i : ℕ) :
    ∃ same, sameDigest b offset hash i = some same ∧
      (same = true ↔ ∀ j, i ≤ j → j < 32 → b.cells[offset.toNat + j]? = hash.cells[j]?) := by
  induction hi : 32 - i using Nat.strongRecOn generalizing i with
  | ind k ih =>
      rw [sameDigest]
      by_cases hlt : i < 32
      · have hindex : (offset + UInt32.ofNat i).toNat = offset.toNat + i := by
          rw [UInt32.toNat_add, UInt32.toNat_ofNat']
          omega
        obtain ⟨x, hx⟩ : ∃ x, b.cells[offset.toNat + i]? = some x :=
          ⟨_, List.getElem?_eq_getElem (by rw [b.length_cells]; omega)⟩
        obtain ⟨y, hy⟩ : ∃ y, hash.cells[i]? = some y :=
          ⟨_, List.getElem?_eq_getElem (by rw [hash.length_cells]; omega)⟩
        obtain ⟨same, hsame, hiff⟩ := ih (32 - (i + 1)) (by omega) (i + 1) rfl
        simp only [if_pos hlt, Block.get, hindex, hx, hy, Option.bind_eq_bind, Option.bind_some]
        by_cases hne : x = y
        · refine ⟨same, by simpa [hne] using hsame, hiff.trans ⟨fun h j hj hj' => ?_,
            fun h j hj hj' => h j (by omega) hj'⟩⟩
          rcases Nat.eq_or_lt_of_le hj with rfl | hj
          · rw [hx, hy, hne]
          · exact h j hj hj'
        · refine ⟨false, by simp [hne], ⟨fun h => absurd h (by decide), fun h => ?_⟩⟩
          have heq := h i (le_refl i) hlt
          rw [hx, hy] at heq
          exact absurd (Option.some.inj heq) hne
      · rw [if_neg hlt]
        exact ⟨true, rfl, fun _ j hj hj' => absurd hj' (by omega), fun _ => rfl⟩

/-- The verifier never leaves its buffers, and accepts the blocks whose digest is right. -/
theorem validateClientScheme_eq (sha256Util : HMACSha256Util) (heap : ℕ → ℕ → UInt8)
    (buf : Block UInt8 1536) (scheme : UInt8) :
    ∃ accepted, validateClientScheme sha256Util heap buf scheme = some accepted ∧
      (accepted = true ↔
        (digestSeal sha256Util (FPKeyInSha256.cells.take 30) scheme).Holds buf) := by
  obtain ⟨offset, hoffset, hplace⟩ := getDigestOffset_eq buf scheme (le_refl _)
  have hle : offset.toNat + 32 ≤ 1536 := hplace ▸ digestPlace_le scheme buf
  obtain ⟨cut, hcut, hcells⟩ := @cutDigest_eq _ buf (.ofFn 1504 (heap 0)) offset (le_refl _) hle
  obtain ⟨hash, hhash, hdigest⟩ := encrypt_eq sha256Util (cut.slice 0 1504 (by decide)).cells
    (FPKeyInSha256.slice 0 30 (by decide)).cells (.ofFn 512 (heap 1))
  obtain ⟨accepted, haccepted, hiff⟩ := @sameDigest_eq _ buf offset hash hle (by omega) 0
  refine ⟨accepted, ?_, hiff.trans ?_⟩
  · simp only [validateClientScheme, hoffset, hcut, Block.read_eq (by decide : 0 + 1504 ≤ 1504),
      Block.read_eq (by decide : 0 + 30 ≤ 62), hhash, Option.bind_eq_bind, Option.bind_some,
      haccepted]
  · have hkey : (FPKeyInSha256.slice 0 30 (by decide)).cells = FPKeyInSha256.cells.take 30 := rfl
    rw [Block.slice_all, hcells, Block.slice_all, hkey, hplace] at hdigest
    rw [holds_digestSeal, ← hdigest, Block.slice_eq_slice_iff, hplace]
    simp

end Verify

section Sign

/-- The buffer of S1 and S2 as it is filled: a time, zero and random bytes. -/
def filling (time : UInt32) (rand : ℕ → ℕ) : Block UInt8 3072 :=
  (Block.ofFn 3072 fun i => UInt8.ofNat (rand i % 256)).put 0 (toBE 4 time.toNat ++ toBE 4 0)
    (by simp)

theorem fillRandom_eq (rand : ℕ → ℕ) (buf : Block UInt8 3072) (i : ℕ) :
    ∃ filled, fillRandom rand buf i = some filled ∧ ∀ j < 3072, filled.cells[j]? =
      if j < i then buf.cells[j]? else some (UInt8.ofNat (rand j % 256)) := by
  induction hi : 3072 - i using Nat.strongRecOn generalizing i buf with
  | ind k ih =>
      rw [fillRandom]
      by_cases hlt : i < 3072
      · have hwrite : i + [UInt8.ofNat (rand i % 256)].length ≤ 3072 := hlt
        rw [if_pos hlt, Block.write_eq hwrite]
        obtain ⟨filled, hfilled, hcells⟩ :=
          ih (3072 - (i + 1)) (by omega) (buf.put i [UInt8.ofNat (rand i % 256)] hlt) (i + 1) rfl
        refine ⟨filled, hfilled, fun j hj => ?_⟩
        rw [hcells j hj, Block.getElem?_put]
        grind
      · rw [if_neg hlt]
        refine ⟨buf, rfl, fun j hj => ?_⟩
        rw [if_pos (by omega)]

/-- What the buffer held before is gone. -/
theorem fillS1S2_eq (time : UInt32) (rand : ℕ → ℕ) (buf : Block UInt8 3072) :
    fillS1S2 time rand buf = some (filling time rand) := by
  have htime : 0 + (toLE 4 (hton4 time.toNat)).length ≤ 3072 := by
    rw [length_toLE]
    decide
  have hzero : 4 + (toLE 4 0).length ≤ 3072 := by
    rw [length_toLE]
    decide
  obtain ⟨filled, hfilled, hcells⟩ := fillRandom_eq rand
    ((buf.put 0 (toLE 4 (hton4 time.toNat)) htime).put 4 (toLE 4 0) hzero) 8
  have hfill : fillS1S2 time rand buf = some filled := by
    rw [fillS1S2]
    exact Option.bind_eq_some_iff.mpr ⟨_, Block.write_eq htime,
      Option.bind_eq_some_iff.mpr ⟨_, Block.write_eq hzero, hfilled⟩⟩
  have hbytes : toLE 4 0 = toBE 4 0 := by decide
  rw [hfill]
  refine congrArg some (Block.ext_getElem? fun j => ?_)
  by_cases hj : j < 3072
  · rw [hcells j hj, Block.getElem?_put, Block.getElem?_put, filling, Block.getElem?_put,
      Block.getElem?_ofFn hj]
    simp only [toLE_hton4, hbytes, List.length_append, length_toBE, List.getElem?_append]
    grind
  · rw [List.getElem?_eq_none (by rw [filled.length_cells]; omega),
      List.getElem?_eq_none (by rw [(filling time rand).length_cells]; omega)]

/-- The hash at the end of S2. -/
def tailSeal (sha256Util : HMACSha256Util) (key : List UInt8) : Seal UInt8 1536 32 where
  place := fun _ => 1504
  digest := sha256Util.hmac key
  place_le := fun _ => by decide
  length_digest := sha256Util.length_hmac key
  place_put := fun _ _ _ => rfl

theorem holds_tailSeal {sha256Util : HMACSha256Util} {key : List UInt8}
    {buf : Block UInt8 1536} :
    (tailSeal sha256Util key).Holds buf ↔
      (buf.cells.drop 1504).take 32 = sha256Util.hmac key (buf.without 1504 32) := Iff.rfl

/-- The half of the buffer that S1 is. -/
def s1 (buf : Block UInt8 3072) : Block UInt8 1536 := buf.slice 0 1536 (by decide)

/-- The half of the buffer that S2 is. -/
def s2 (buf : Block UInt8 3072) : Block UInt8 1536 := buf.slice 1536 1536 (by decide)

/-- The key of the hash of S2, made from the digest in C1. -/
def challengeKey (sha256Util : HMACSha256Util) (m : HandshakeManager) : List UInt8 :=
  sha256Util.hmac FMSKeyInSha256.cells
    (m.handshakeC1.slice (digestPlace m.digestScheme m.handshakeC1) 32 (digestPlace_le _ _)).cells

/-- S1 is sealed with the server key, S2 with the key from the digest of C1, and all other
bytes are as they were filled. -/
structure Signed (sha256Util : HMACSha256Util) (m : HandshakeManager)
    (filled finished : Block UInt8 3072) : Prop where
  s1 : s1 finished =
    (digestSeal sha256Util (FMSKeyInSha256.cells.take 36) m.digestScheme).sealed (s1 filled)
  s2 : s2 finished = (tailSeal sha256Util (challengeKey sha256Util m)).sealed (s2 filled)
  elsewhere : ∀ i < 3040, (i < digestPlace m.digestScheme filled ∨
    digestPlace m.digestScheme filled + 32 ≤ i) → finished.cells[i]? = filled.cells[i]?

section Halves

variable {sha256Util : HMACSha256Util} {m : HandshakeManager}
  {filled signed finished : Block UInt8 3072} {hash lastHash : List UInt8}
  {hhash : digestPlace m.digestScheme filled + hash.length ≤ 3072}
  {hlastHash : 3040 + lastHash.length ≤ 3072}

/-- The digest goes into S1, the hash of S2 behind it. -/
theorem signed_of_put
    (hdigest : hash = sha256Util.hmac (FMSKeyInSha256.cells.take 36)
      ((HandshakeManager.s1 filled).without (digestPlace m.digestScheme filled) 32))
    (hsigned : signed = filled.put (digestPlace m.digestScheme filled) hash hhash)
    (hlast : lastHash = sha256Util.hmac (challengeKey sha256Util m)
      (signed.slice 1536 1504 (by decide)).cells)
    (hfinished : finished = signed.put 3040 lastHash hlastHash) :
    Signed sha256Util m filled finished := by
  have hlength : hash.length = 32 := by rw [hdigest, sha256Util.length_hmac]
  have hlastLength : lastHash.length = 32 := by rw [hlast, sha256Util.length_hmac]
  have hle := digestPlace_le m.digestScheme filled
  constructor
  · have hs1 : HandshakeManager.s1 finished = (HandshakeManager.s1 filled).put
        (digestPlace m.digestScheme filled - 0) hash (by omega) := by
      rw [HandshakeManager.s1, hfinished, Block.slice_put_of_disjoint (Or.inl (by decide)), hsigned]
      exact Block.slice_put_of_inside (Nat.zero_le _) _
    have hplace : digestPlace m.digestScheme (HandshakeManager.s1 filled) =
        digestPlace m.digestScheme filled := digestPlace_slice _ _
    refine hs1.trans (Block.put_congr ?_ ?_)
    · rw [Nat.sub_zero]
      exact hplace.symm
    · rw [hdigest, ← hplace]
      rfl
  · have hs2 : HandshakeManager.s2 finished =
        (HandshakeManager.s2 filled).put (3040 - 1536) lastHash (by omega) := by
      rw [HandshakeManager.s2, hfinished, Block.slice_put_of_inside (by decide) (by omega), hsigned,
        Block.slice_put_of_disjoint (Or.inr (by omega))]
      rfl
    have htext : (signed.slice 1536 1504 (by decide)).cells =
        (HandshakeManager.s2 filled).without 1504 32 := by
      rw [HandshakeManager.s2, Block.without_end (by decide : 1504 + 32 = 1536) (by decide)
        (by decide), hsigned, Block.slice_put_of_disjoint (Or.inr (by omega))]
    refine hs2.trans (Block.put_congr rfl ?_)
    rw [hlast, htext]
    rfl
  · intro i hi houtside
    rw [hfinished, Block.getElem?_put_of_lt hi, hsigned, Block.getElem?_put]
    rcases houtside with hlt | hge
    · rw [if_pos hlt]
    · rw [if_neg (by omega), if_neg (by omega)]

end Halves

/-- The signer never leaves its buffers, and seals what it has filled. -/
theorem getS0S1S2_eq (m : HandshakeManager) (sha256Util : HMACSha256Util) (heap : ℕ → ℕ → UInt8)
    (time : UInt32) (rand : ℕ → ℕ) :
    ∃ finished, m.getS0S1S2 sha256Util heap time rand =
        some ({ m with handshakeS1S2 := finished }, 3 :: finished.cells) ∧
      Signed sha256Util m (filling time rand) finished := by
  obtain ⟨offset, hoffset, hplace⟩ :=
    getDigestOffset_eq (filling time rand) m.digestScheme (by decide)
  have hle : offset.toNat + 32 ≤ 1536 := hplace ▸ digestPlace_le m.digestScheme _
  obtain ⟨cut, hcut, hcells⟩ :=
    @cutDigest_eq _ (filling time rand) (.ofFn 1504 (heap 0)) offset (by decide) hle
  obtain ⟨hash, hhash, hdigest⟩ := encrypt_eq sha256Util (cut.slice 0 1504 (by decide)).cells
    (FMSKeyInSha256.slice 0 36 (by decide)).cells (.ofFn 512 (heap 1))
  obtain ⟨signed, hcopy, hsigned⟩ : ∃ signed,
      (filling time rand).copy offset.toNat hash 0 32 = some signed ∧
        signed = (filling time rand).put offset.toNat (hash.slice 0 32 (by decide)).cells
          (by rw [Block.length_cells]; omega) :=
    ⟨_, Block.copy_eq (by decide) (by omega), rfl⟩
  obtain ⟨index, hindex, hindexPlace⟩ :=
    getDigestOffset_eq m.handshakeC1 m.digestScheme (le_refl _)
  have hindexLe : index.toNat + 32 ≤ 1536 := hindexPlace ▸ digestPlace_le m.digestScheme _
  obtain ⟨keyHash, hkeyHash, hkey⟩ := encrypt_eq sha256Util
    (m.handshakeC1.slice index.toNat 32 hindexLe).cells
    (FMSKeyInSha256.slice 0 68 (by decide)).cells (.ofFn 512 (heap 2))
  obtain ⟨lastHash, hlastHash, hlast⟩ := encrypt_eq sha256Util
    (signed.slice 1536 1504 (by decide)).cells (keyHash.slice 0 32 (by decide)).cells
    (.ofFn 512 (heap 3))
  obtain ⟨finished, hlastCopy, hfinished⟩ : ∃ finished,
      signed.copy (1536 * 2 - 32) lastHash 0 32 = some finished ∧
        finished = signed.put 3040 (lastHash.slice 0 32 (by decide)).cells
          (by rw [Block.length_cells]) :=
    ⟨_, Block.copy_eq (by decide) (by decide), rfl⟩
  refine ⟨finished, ?_, ?_⟩
  · simp only [getS0S1S2, fillS1S2_eq, hoffset, hcut, Block.read_eq (by decide : 0 + 1504 ≤ 1504),
      Block.read_eq (by decide : 0 + 36 ≤ 68), hhash, hcopy, hindex, Block.read_eq hindexLe,
      Block.read_eq (by decide : 0 + 68 ≤ 68), hkeyHash,
      Block.read_eq (by decide : 1536 + 1504 ≤ 3072), Block.read_eq (by decide : 0 + 32 ≤ 512),
      hlastHash, hlastCopy, Option.bind_eq_bind, Option.bind_some, Option.pure_def]
  · rw [Block.slice_all, hcells] at hdigest
    rw [hkey, Block.slice_all] at hlast
    simp only [hplace] at hdigest hsigned
    simp only [hindexPlace] at hlast
    exact signed_of_put hdigest hsigned hlast hfinished

/-- What the receiver of S1 and S2 can check: the digest of S1 stands where S1 says, is the
hash of the rest of S1, and S2 ends in the hash of what is in front of it. -/
structure Consistent (sha256Util : HMACSha256Util) (m : HandshakeManager)
    (filled finished : Block UInt8 3072) (offset index : UInt32) : Prop where
  put_at : getDigestOffset filled m.digestScheme = some offset
  found_at : getDigestOffset (s1 finished) m.digestScheme = some offset
  inside : offset.toNat + 32 ≤ 1536
  digest : ((s1 finished).cells.drop offset.toNat).take 32 =
    sha256Util.hmac (FMSKeyInSha256.cells.take 36) ((s1 finished).without offset.toNat 32)
  elsewhere : ∀ i < 3040, (i < offset.toNat ∨ offset.toNat + 32 ≤ i) →
    finished.cells[i]? = filled.cells[i]?
  challenge_at : getDigestOffset m.handshakeC1 m.digestScheme = some index
  challenge_inside : index.toNat + 32 ≤ 1536
  lastHash : (s2 finished).cells.drop 1504 =
    sha256Util.hmac
      (sha256Util.hmac FMSKeyInSha256.cells ((m.handshakeC1.cells.drop index.toNat).take 32))
      ((s2 finished).cells.take 1504)

theorem Signed.consistent {sha256Util : HMACSha256Util} {m : HandshakeManager}
    {filled finished : Block UInt8 3072} (h : Signed sha256Util m filled finished) :
    ∃ offset index, Consistent sha256Util m filled finished offset index := by
  obtain ⟨offset, hoffset, hplace⟩ := getDigestOffset_eq filled m.digestScheme (by decide)
  obtain ⟨found, hfound, hfoundPlace⟩ :=
    getDigestOffset_eq (HandshakeManager.s1 finished) m.digestScheme (le_refl _)
  obtain ⟨index, hindex, hindexPlace⟩ :=
    getDigestOffset_eq m.handshakeC1 m.digestScheme (le_refl _)
  have hsame : digestPlace m.digestScheme (HandshakeManager.s1 finished) =
      digestPlace m.digestScheme filled := by
    have hsealed := Seal.place_sealed
      (digestSeal sha256Util (FMSKeyInSha256.cells.take 36) m.digestScheme)
      (HandshakeManager.s1 filled)
    change digestPlace m.digestScheme _ = digestPlace m.digestScheme _ at hsealed
    rw [h.s1, hsealed]
    exact digestPlace_slice _ _
  have heq : found = offset := UInt32.toNat_inj.mp (by rw [hfoundPlace, hsame, hplace])
  have hholds : (digestSeal sha256Util (FMSKeyInSha256.cells.take 36) m.digestScheme).Holds
      (HandshakeManager.s1 finished) := by
    rw [h.s1]
    exact Seal.holds_sealed _ _
  have htail : (tailSeal sha256Util (challengeKey sha256Util m)).Holds
      (HandshakeManager.s2 finished) := by
    rw [h.s2]
    exact Seal.holds_sealed _ _
  refine ⟨offset, index, hoffset, heq ▸ hfound, hplace ▸ digestPlace_le _ _, ?_, ?_, hindex,
    hindexPlace ▸ digestPlace_le _ _, ?_⟩
  · rw [hplace, ← hsame]
    exact holds_digestSeal.mp hholds
  · rw [hplace]
    exact h.elsewhere
  · have hlength := (HandshakeManager.s2 finished).length_cells
    have hend : (HandshakeManager.s2 finished).without 1504 32 =
        (HandshakeManager.s2 finished).cells.take 1504 := by
      rw [Block.without, List.drop_eq_nil_of_le (by omega), List.append_nil]
    have hhash := holds_tailSeal.mp htail
    rw [hend, List.take_of_length_le (by rw [List.length_drop]; omega)] at hhash
    rw [hhash, challengeKey, Block.slice, hindexPlace]

end Sign

/-- The digest handshake is consistent with itself. Whatever C1 is, whatever the buffer is
filled with and under either scheme, the signer stays inside of its buffers and what it
sends can be checked by its receiver; and the verifier, which stays inside of them as well,
accepts the blocks that are signed that way with the key of the client, and no other. -/
theorem digest_handshake (sha256Util : HMACSha256Util) (heap : ℕ → ℕ → UInt8) :
    (∀ (m : HandshakeManager) (time : UInt32) (rand : ℕ → ℕ), ∃ finished offset index,
      m.getS0S1S2 sha256Util heap time rand =
          some ({ m with handshakeS1S2 := finished }, 3 :: finished.cells) ∧
        Consistent sha256Util m (filling time rand) finished offset index) ∧
    ∀ (buf : Block UInt8 1536) (scheme : UInt8), ∃ accepted,
      validateClientScheme sha256Util heap buf scheme = some accepted ∧
        (accepted = true ↔
          ∃ c1, buf = (digestSeal sha256Util (FPKeyInSha256.cells.take 30) scheme).sealed c1) ∧
        (accepted = true ↔
          (buf.cells.drop (digestPlace scheme buf)).take 32 =
            sha256Util.hmac (FPKeyInSha256.cells.take 30)
              (buf.without (digestPlace scheme buf) 32)) := by
  constructor
  · intro m time rand
    obtain ⟨finished, hrun, hsigned⟩ := getS0S1S2_eq m sha256Util heap time rand
    obtain ⟨offset, index, hconsistent⟩ := hsigned.consistent
    exact ⟨finished, offset, index, hrun, hconsistent⟩
  · intro buf scheme
    obtain ⟨accepted, hrun, hiff⟩ := validateClientScheme_eq sha256Util heap buf scheme
    exact ⟨accepted, hrun, hiff.trans (Seal.holds_iff _), hiff.trans holds_digestSeal⟩

end HandshakeManager

end Rtmp
