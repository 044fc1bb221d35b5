import RtmpModule.Network.DigestHandshake

/-!
# The handshake of a connection

C0 decides whether there is a handshake, C1 which one. A client that leaves its version
zero, or whose C1 is not signed, gets its own time and its own random bytes back; a client
that has signed C1 gets signed blocks. No other client is told anything.
-/

namespace Rtmp

open Bytes NetworkUtil StreamUtil

/-- What the host gives to a handshake: the hash, the contents of `new` arrays, by the call
they are made in, what `time` returns for C1 and for the reply, and the values of `rand`. -/
structure HandshakeHost where
  sha256Util : HMACSha256Util
  heap : ℕ → ℕ → ℕ → UInt8
  readTime : UInt32
  replyTime : UInt32
  rand : ℕ → ℕ

/-- `HandshakeManager` with the members that C1 and the plain reply are about. -/
structure ConnectionHandshake extends HandshakeManager where
  clientRtmpVersion : UInt8 := 0
  clientEpochTimestamp : UInt32 := 0
  clientHandshakeVersion : Block UInt8 4
  serverRtmpVersion : UInt8 := 3
  serverEpochTimestamp : UInt32 := 0
  serverClientEpochReadTimestamp : UInt32 := 0
  serverHandshakeVersion : UInt32 := 0

namespace ConnectionHandshake

/-- A new manager; what its arrays hold is whatever is there. -/
def initial (c1 : Block UInt8 1536) (s1s2 : Block UInt8 3072) (version : Block UInt8 4) :
    ConnectionHandshake where
  handshakeC1 := c1
  handshakeS1S2 := s1s2
  clientHandshakeVersion := version

variable (h : ConnectionHandshake) (host : HandshakeHost)

/-- `validate_C1_ver3`: without a version there is nothing to validate. -/
def validateC1Ver3 (buf : Block UInt8 1536) : Option (Bool × ConnectionHandshake) := do
  let h := { h with
    clientEpochTimestamp := UInt32.ofNat (ntoh4 (ofLE (← buf.read 0 4)))
    clientHandshakeVersion := ← h.clientHandshakeVersion.copy 0 buf 4 4
    serverClientEpochReadTimestamp := host.readTime }
  if (← h.clientHandshakeVersion.get 0) = 0 ∧ (← h.clientHandshakeVersion.get 1) = 0 ∧
      (← h.clientHandshakeVersion.get 2) = 0 ∧ (← h.clientHandshakeVersion.get 3) = 0 then
    return (true, h)
  else if ← HandshakeManager.validateClientScheme host.sha256Util (host.heap 0) buf 0 then
    return (true, { h with digestScheme := 0 })
  else if ← HandshakeManager.validateClientScheme host.sha256Util (host.heap 1) buf 1 then
    return (true, { h with digestScheme := 1 })
  else return (true, { h with digestScheme := 99 })

/-- `validate_C0_C1`, and what it leaves of the stream. -/
def validateC0C1 (stream : List UInt8) :
    Option (Bool × ConnectionHandshake × List UInt8) := do
  let (clientRtmpVersion, stream) := readUchar stream
  let h := { h with clientRtmpVersion }
  if clientRtmpVersion = 3 then
    let handshakeC1 ← h.handshakeC1.write 0 (stream.take 1536)
    let (valid, h) ← validateC1Ver3 { h with handshakeC1 } host handshakeC1
    return (valid, h, stream.drop 1536)
  else return (false, h, stream)

/-- `write_S0_S1_S2`, and what it writes to the stream. -/
def writeS0S1S2 : Option (ConnectionHandshake × List UInt8) := do
  let h := { h with serverEpochTimestamp := host.replyTime }
  -- S1
  let buf ← h.handshakeS1S2.write 0 (toLE 4 (hton4 h.clientEpochTimestamp.toNat))
  let buf ← buf.write 4 (toLE 4 h.serverHandshakeVersion.toNat)
  let buf ← buf.storeEach (fun i => some (UInt8.ofNat (host.rand i % 256))) 0 1536 8
  -- S2
  let s2Time2 := h.clientEpochTimestamp +
    (h.serverEpochTimestamp - h.serverClientEpochReadTimestamp)
  let buf ← buf.write 1536 (toLE 4 (hton4 h.clientEpochTimestamp.toNat))
  let buf ← buf.write (1536 + 4) (toLE 4 (hton4 s2Time2.toNat))
  let buf ← buf.storeEach h.handshakeC1.get 1536 1536 8
  return ({ h with handshakeS1S2 := buf }, h.serverRtmpVersion :: buf.cells)

/-- `get_S0_S1_S2` of the whole manager. -/
def getS0S1S2 : Option (ConnectionHandshake × List UInt8) := do
  let (m, reply) ←
    h.toHandshakeManager.getS0S1S2 host.sha256Util (host.heap 2) host.replyTime host.rand
  return ({ h with toHandshakeManager := m }, reply)

/-- The reply that `handle_read_handshake_C0_C1` chooses. It also compares the array
`client_handshake_version_` with 0, which no array is equal to. -/
def reply : Option (ConnectionHandshake × List UInt8) :=
  if h.digestScheme = 99 then h.writeS0S1S2 host else h.getS0S1S2 host

section Answers

variable {h : ConnectionHandshake} {host : HandshakeHost} {c1 : Block UInt8 1536}

/-- The time of C1. -/
def epochOf (c1 : List UInt8) : UInt32 := UInt32.ofNat (ofBE (c1.take 4))

/-- C1 names the version of its client. -/
def Versioned (c1 : Block UInt8 1536) : Prop := (c1.slice 4 4 (by decide)).cells ≠ [0, 0, 0, 0]

instance : Decidable (Versioned c1) := inferInstanceAs (Decidable (_ ≠ _))

/-- C1 was signed with the key of the client. -/
def SignedUnder (sha256Util : HMACSha256Util) (scheme : UInt8) (c1 : Block UInt8 1536) : Prop :=
  ∃ c, c1 = (HandshakeManager.digestSeal sha256Util
    (HandshakeManager.FPKeyInSha256.cells.take 30) scheme).sealed c

theorem signedUnder_iff {sha256Util : HMACSha256Util} {scheme : UInt8} :
    SignedUnder sha256Util scheme c1 ↔ (HandshakeManager.digestSeal sha256Util
      (HandshakeManager.FPKeyInSha256.cells.take 30) scheme).Holds c1 :=
  (Seal.holds_iff _).symm

instance {sha256Util : HMACSha256Util} {scheme : UInt8} :
    Decidable (SignedUnder sha256Util scheme c1) :=
  decidable_of_iff' _ signedUnder_iff

/-- The scheme of a client: no digest without a version or a signature. -/
def schemeOf (sha256Util : HMACSha256Util) (c1 : Block UInt8 1536) : UInt8 :=
  if ¬ Versioned c1 then 99
  else if SignedUnder sha256Util 0 c1 then 0
  else if SignedUnder sha256Util 1 c1 then 1
  else 99

theorem validateClientScheme_decide (sha256Util : HMACSha256Util) (heap : ℕ → ℕ → UInt8)
    (c1 : Block UInt8 1536) (scheme : UInt8) :
    HandshakeManager.validateClientScheme sha256Util heap c1 scheme =
      some (decide (SignedUnder sha256Util scheme c1)) := by
  obtain ⟨accepted, hrun, hiff⟩ :=
    HandshakeManager.validateClientScheme_eq sha256Util heap c1 scheme
  rw [hrun, Option.some_inj, Bool.eq_iff_iff, decide_eq_true_iff, signedUnder_iff]
  exact hiff

theorem cells_four (v : Block UInt8 4) :
    v.cells = [v.cells.getD 0 0, v.cells.getD 1 0, v.cells.getD 2 0, v.cells.getD 3 0] := by
  obtain ⟨cells, hlength⟩ := v
  obtain ⟨a, b, c, d, rfl⟩ : ∃ a b c d, cells = [a, b, c, d] := by
    match cells, hlength with
    | [a, b, c, d], _ => exact ⟨a, b, c, d, rfl⟩
  rfl

/-- What is known about a client behind its C1. -/
def readC1 (h : ConnectionHandshake) (host : HandshakeHost) (c1 : Block UInt8 1536) :
    ConnectionHandshake :=
  { h with
    clientRtmpVersion := 3
    handshakeC1 := c1
    clientEpochTimestamp := epochOf c1.cells
    clientHandshakeVersion := c1.slice 4 4 (by decide)
    serverClientEpochReadTimestamp := host.readTime
    digestScheme := schemeOf host.sha256Util c1 }

/-- The time and the version of C1 are read, and its digest is checked when there is a
version. -/
theorem validateC1Ver3_eq (hscheme : h.digestScheme = 99) :
    h.validateC1Ver3 host c1 = some (true,
      { h with
        clientEpochTimestamp := epochOf c1.cells
        clientHandshakeVersion := c1.slice 4 4 (by decide)
        serverClientEpochReadTimestamp := host.readTime
        digestScheme := schemeOf host.sha256Util c1 }) := by
  have hversion : h.clientHandshakeVersion.copy 0 c1 4 4 = some (c1.slice 4 4 (by decide)) := by
    rw [Block.copy_eq (by decide) (by decide)]
    refine congrArg some (Block.ext_getElem? fun i => ?_)
    have hlength := h.clientHandshakeVersion.length_cells
    have hslice := (c1.slice 4 4 (by decide)).length_cells
    rw [Block.getElem?_put]
    grind
  have hepoch : UInt32.ofNat (ntoh4 (ofLE (c1.slice 0 4 (by decide)).cells)) =
      epochOf c1.cells := by
    rw [ntoh4_ofLE (Block.length_cells _)]
    rfl
  have hzero : (∀ i < 4, (c1.slice 4 4 (by decide)).cells.getD i 0 = 0) ↔ ¬ Versioned c1 := by
    rw [Versioned, not_not]
    constructor
    · intro hall
      rw [cells_four (c1.slice 4 4 (by decide)), hall 0 (by decide), hall 1 (by decide),
        hall 2 (by decide), hall 3 (by decide)]
    · intro heq i hi
      rw [heq]
      interval_cases i <;> rfl
  have hcond : ((c1.slice 4 4 (by decide)).cells.getD 0 0 = 0 ∧
      (c1.slice 4 4 (by decide)).cells.getD 1 0 = 0 ∧
      (c1.slice 4 4 (by decide)).cells.getD 2 0 = 0 ∧
      (c1.slice 4 4 (by decide)).cells.getD 3 0 = 0) ↔ ¬ Versioned c1 := by
    rw [← hzero]
    constructor
    · rintro ⟨h0, h1, h2, h3⟩ i hi
      interval_cases i <;> assumption
    · intro hall
      exact ⟨hall 0 (by decide), hall 1 (by decide), hall 2 (by decide), hall 3 (by decide)⟩
  have hbyte : ∀ i, i < 4 → (c1.slice 4 4 (by decide)).get i =
      some ((c1.slice 4 4 (by decide)).cells.getD i 0) := fun i hi => Block.get_eq hi 0
  simp only [validateC1Ver3, Block.read_eq (by decide : 0 + 4 ≤ 1536), hversion,
    hbyte 0 (by decide), hbyte 1 (by decide), hbyte 2 (by decide), hbyte 3 (by decide),
    validateClientScheme_decide, hepoch, hcond,
    Option.bind_eq_bind, Option.bind_some, Option.pure_def, schemeOf, decide_eq_true_eq]
  split
  · rw [← hscheme]
  · split
    · rfl
    · split <;> rfl

/-- What `validate_C0_C1` makes of C0 and C1. -/
theorem validateC0C1_eq (hscheme : h.digestScheme = 99) (c0 : UInt8) :
    h.validateC0C1 host (c0 :: c1.cells) =
      if c0 = 3 then some (true, h.readC1 host c1, [])
      else some (false, { h with clientRtmpVersion := c0 }, c1.cells) := by
  have hlength := c1.length_cells
  have hwrite : h.handshakeC1.write 0 (c1.cells.take 1536) = some c1 := by
    rw [List.take_of_length_le (by omega), Block.write_eq (by omega)]
    refine congrArg some (Block.ext_getElem? fun i => ?_)
    have hold := h.handshakeC1.length_cells
    rw [Block.getElem?_put]
    grind
  rw [validateC0C1, readUchar_cons]
  dsimp only
  split
  · rename_i hc0
    subst hc0
    have hvalid := @validateC1Ver3_eq { h with clientRtmpVersion := 3, handshakeC1 := c1 }
      host c1 hscheme
    rw [List.drop_of_length_le (by omega)]
    exact Option.bind_eq_some_iff.mpr ⟨_, hwrite,
      Option.bind_eq_some_iff.mpr ⟨_, hvalid, rfl⟩⟩
  · rfl

section Plain

/-- The reply without digests: the time and the random bytes of C1 come back in S2. -/
def plainReply (host : HandshakeHost) (c1 : List UInt8) : List UInt8 :=
  3 :: (c1.take 4 ++ toBE 4 0 ++
    (List.range' 8 1528).map (fun i => UInt8.ofNat (host.rand i % 256)) ++
    (c1.take 4 ++ toBE 4 (epochOf c1 + (host.replyTime - host.readTime)).toNat ++ c1.drop 8))

theorem toBE_epochOf {c1 : List UInt8} (h : 4 ≤ c1.length) :
    toBE 4 (epochOf c1).toNat = c1.take 4 := by
  have hlength : (c1.take 4).length = 4 := by simp [h]
  have hlt := ofBE_lt (c1.take 4)
  rw [hlength] at hlt
  change _ < 2 ^ 32 at hlt
  rw [epochOf, UInt32.toNat_ofNat', Nat.mod_eq_of_lt hlt]
  have hbytes := toBE_ofBE (c1.take 4)
  rwa [hlength] at hbytes

theorem writeS0S1S2_eq (hc1 : h.handshakeC1 = c1)
    (hepoch : h.clientEpochTimestamp = epochOf c1.cells)
    (hread : h.serverClientEpochReadTimestamp = host.readTime)
    (hversion : h.serverHandshakeVersion = 0) (hrtmp : h.serverRtmpVersion = 3) :
    ∃ h', h.writeS0S1S2 host = some (h', plainReply host c1.cells) := by
  have hlength := c1.length_cells
  have hepochBytes : toBE 4 (epochOf c1.cells).toNat = c1.cells.take 4 :=
    toBE_epochOf (by omega)
  have hfour : (c1.cells.take 4).length = 4 := by simp [hlength]
  obtain ⟨s1, hs1, hrandom, hbeside⟩ := @Block.storeEach_holdsAt _ 3072
    (fun i => some (UInt8.ofNat (host.rand i % 256))) _ 0 1536 (by decide) 8 (fun _ _ _ => rfl)
    ((h.handshakeS1S2.put 0 (c1.cells.take 4) (by omega)).put 4 (toBE 4 0) (by simp))
  have htime := hbeside 0 (c1.cells.take 4)
    ((Block.holdsAt_put _).put (Or.inl (by omega))) (Or.inl (by omega))
  have hzero := hbeside 4 (toBE 4 0) (Block.holdsAt_put _) (Or.inl (by simp))
  obtain ⟨s2, hs2, hecho, hbeside'⟩ := @Block.storeEach_holdsAt _ 3072 c1.get _ 1536 1536
    (by decide) 8 (fun j _ hj => Block.get_eq hj 0)
    ((s1.put 1536 (c1.cells.take 4) (by omega)).put 1540
      (toBE 4 (epochOf c1.cells + (host.replyTime - host.readTime)).toNat) (by simp))
  have hs1Kept : ∀ pos data, s1.HoldsAt pos data → pos + data.length ≤ 1536 →
      s2.HoldsAt pos data := by
    intro pos data hdata hle
    exact hbeside' pos data ((hdata.put (Or.inl hle)).put (Or.inl (by omega))) (Or.inl (by omega))
  have htime2 := hbeside' 1536 (c1.cells.take 4)
    ((Block.holdsAt_put _).put (Or.inl (by omega))) (Or.inl (by omega))
  have helapsed := hbeside' 1540
    (toBE 4 (epochOf c1.cells + (host.replyTime - host.readTime)).toNat)
    (Block.holdsAt_put _) (Or.inl (by simp))
  have hrest : (List.range' 8 (1536 - 8)).map (fun j => c1.cells.getD j 0) = c1.cells.drop 8 := by
    refine List.ext_getElem? fun i => ?_
    rw [List.getElem?_map, List.getElem?_drop]
    by_cases hi : i < 1528
    · have hcell : c1.cells[8 + i]? = some (c1.cells.getD (8 + i) 0) := Block.get_eq (by omega) 0
      rw [List.getElem?_range' hi, Nat.one_mul, hcell]
      rfl
    · rw [List.getElem?_eq_none (by simp; omega), List.getElem?_eq_none (by omega)]
      rfl
  rw [hrest] at hecho
  have hcells : s2.cells = c1.cells.take 4 ++ toBE 4 0 ++
      (List.range' 8 1528).map (fun i => UInt8.ofNat (host.rand i % 256)) ++
      (c1.cells.take 4 ++ toBE 4 (epochOf c1.cells + (host.replyTime - host.readTime)).toNat ++
        c1.cells.drop 8) := by
    have hs1Layout := ((hs1Kept _ _ htime (by omega)).append
      (hs1Kept _ _ hzero (by simp)) (by omega)).append (hs1Kept _ _ hrandom (by simp))
      (by simp [hlength])
    have hs2Layout := (htime2.append helapsed (by omega)).append hecho (by simp [hlength])
    exact (hs1Layout.append hs2Layout (by simp [hlength])).cells (by simp [hlength])
  have hversion' : toLE 4 h.serverHandshakeVersion.toNat = toBE 4 0 := by
    rw [hversion]
    decide
  refine ⟨{ h with serverEpochTimestamp := host.replyTime, handshakeS1S2 := s2 }, ?_⟩
  rw [plainReply, ← hcells, ← hrtmp, writeS0S1S2]
  simp only [toLE_hton4, hepoch, hversion', hread, hc1, hepochBytes]
  exact Option.bind_eq_some_iff.mpr ⟨_, Block.write_eq (by omega),
    Option.bind_eq_some_iff.mpr ⟨_, Block.write_eq (by simp),
    Option.bind_eq_some_iff.mpr ⟨_, hs1,
    Option.bind_eq_some_iff.mpr ⟨_, Block.write_eq (by omega),
    Option.bind_eq_some_iff.mpr ⟨_, Block.write_eq (by simp),
    Option.bind_eq_some_iff.mpr ⟨_, hs2, rfl⟩⟩⟩⟩⟩⟩
end Plain

/-- The answer to a client: its own bytes without a scheme, signed blocks with one. -/
def Answers (host : HandshakeHost) (c1 : Block UInt8 1536) (answer : List UInt8) : Prop :=
  if schemeOf host.sha256Util c1 = 99 then answer = plainReply host c1.cells
  else ∃ (m : HandshakeManager) (finished : Block UInt8 3072) (offset index : UInt32),
    m.handshakeC1 = c1 ∧ m.digestScheme = schemeOf host.sha256Util c1 ∧
    answer = 3 :: finished.cells ∧
    HandshakeManager.Consistent host.sha256Util m
      (HandshakeManager.filling host.replyTime host.rand) finished offset index

theorem Answers.length {answer : List UInt8} (h : Answers host c1 answer) :
    answer.length = 3073 := by
  have hlength := c1.length_cells
  rw [Answers] at h
  split at h
  · rw [h, plainReply]
    simp [hlength]
  · obtain ⟨_, finished, _, _, -, -, rfl, -⟩ := h
    rw [List.length_cons, finished.length_cells]

/-- A client that is accepted is answered. -/
theorem reply_readC1 (hversion : h.serverHandshakeVersion = 0) (hrtmp : h.serverRtmpVersion = 3) :
    ∃ h' answer, (h.readC1 host c1).reply host = some (h', answer) ∧ Answers host c1 answer := by
  by_cases hscheme : schemeOf host.sha256Util c1 = 99
  · obtain ⟨h', hreply⟩ := @writeS0S1S2_eq (h.readC1 host c1) host c1 rfl rfl rfl hversion hrtmp
    refine ⟨h', plainReply host c1.cells, ?_, ?_⟩
    · rw [reply, if_pos (by exact hscheme)]
      exact hreply
    · rw [Answers, if_pos hscheme]
  · obtain ⟨finished, hrun, hsigned⟩ := HandshakeManager.getS0S1S2_eq
      (h.readC1 host c1).toHandshakeManager host.sha256Util (host.heap 2) host.replyTime host.rand
    obtain ⟨offset, index, hconsistent⟩ := hsigned.consistent
    refine ⟨{ h.readC1 host c1 with handshakeS1S2 := finished }, 3 :: finished.cells, ?_, ?_⟩
    · rw [reply, if_neg (by exact hscheme)]
      exact Option.bind_eq_some_iff.mpr ⟨_, hrun, rfl⟩
    · rw [Answers, if_neg hscheme]
      exact ⟨_, finished, offset, index, rfl, rfl, rfl, hconsistent⟩

/-- The handshake stays inside of its arrays, whatever they hold at first. C0 other than 3
is refused and C1 left where it is. With 3 the client is answered, whatever C1 holds: with
signed blocks that it can check if it sent its version and a C1 signed with its key, and
else with what it sent. -/
theorem handshake_answers (host : HandshakeHost) (old : Block UInt8 1536)
    (s1s2 : Block UInt8 3072) (version : Block UInt8 4) (c0 : UInt8) (c1 : Block UInt8 1536) :
    if c0 = 3 then
      ∃ h h' answer,
        (initial old s1s2 version).validateC0C1 host (c0 :: c1.cells) = some (true, h, []) ∧
        h.clientEpochTimestamp = epochOf c1.cells ∧
        h.reply host = some (h', answer) ∧ Answers host c1 answer
    else
      ∃ h, (initial old s1s2 version).validateC0C1 host (c0 :: c1.cells) =
        some (false, h, c1.cells) := by
  have hvalidate := @validateC0C1_eq (initial old s1s2 version) host c1 rfl c0
  rw [hvalidate]
  split
  · obtain ⟨h', answer, hreply, hanswers⟩ :=
      @reply_readC1 (initial old s1s2 version) host c1 rfl rfl
    exact ⟨_, h', answer, rfl, rfl, hreply, hanswers⟩
  · exact ⟨_, rfl⟩

end Answers

end ConnectionHandshake

end Rtmp
