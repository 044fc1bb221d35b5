import RtmpModule.Protocol.ChunkStream

/-!
# The bounds of the receive buffers

`recv_buf` is allocated with the length of the message when its entry is made, and
`need_size` is computed by a subtraction of unsigned numbers. Both are sound as long
as every entry of `incomplete_infos_` still lacks bytes, which every round of the
parser keeps, whatever the input.
-/

namespace Rtmp

open AMF0Serializer

namespace RtmpPayloadParser

/-- Every message that has an entry has not been received whole. -/
def Bounded (p : RtmpPayloadParser) : Prop :=
  ∀ csId recvInfo, p.incompleteInfos csId = some recvInfo →
    recvInfo.recvBuf.length < recvInfo.firstChunkHeader.msgLength.toNat

/-- The bytes a chunk adds to an entry end inside its buffer, and what is needed is
what is missing. -/
structure Inside (p : RtmpPayloadParser) (recvInfo : ReceivedPayloadInfo) : Prop where
  received : recvInfo.recvBuf.length ≤ recvInfo.firstChunkHeader.msgLength.toNat
  need : (needSize recvInfo).toNat =
    recvInfo.firstChunkHeader.msgLength.toNat - recvInfo.recvBuf.length
  write : recvInfo.recvBuf.length + (p.thisMsgSize recvInfo).toNat ≤
    recvInfo.firstChunkHeader.msgLength.toNat

variable {p p' : RtmpPayloadParser} {uninit : Uninit} {header : RtmpHeader}
  {recvInfo : ReceivedPayloadInfo} {stream : List UInt8} {bufSize : Nat}

theorem toNat_needSize
    (h : recvInfo.recvBuf.length ≤ recvInfo.firstChunkHeader.msgLength.toNat) :
    (needSize recvInfo).toNat =
      recvInfo.firstChunkHeader.msgLength.toNat - recvInfo.recvBuf.length := by
  have hlt : recvInfo.firstChunkHeader.msgLength.toNat < 2 ^ 32 :=
    recvInfo.firstChunkHeader.msgLength.toNat_lt
  have hrecv : recvInfo.recvLength.toNat = recvInfo.recvBuf.length := by
    rw [ReceivedPayloadInfo.recvLength, UInt32.toNat_ofNat', Nat.mod_eq_of_lt (by omega)]
  rw [needSize, UInt32.toNat_sub_of_le _ _ (UInt32.le_iff_toNat_le.mpr (by omega)), hrecv]

theorem toNat_thisMsgSize (p : RtmpPayloadParser) (recvInfo : ReceivedPayloadInfo) :
    (p.thisMsgSize recvInfo).toNat = min p.recvChunkSize.toNat (needSize recvInfo).toNat := by
  unfold thisMsgSize
  split
  · rename_i h
    have hlt := UInt32.lt_iff_toNat_lt.mp h
    omega
  · rename_i h
    have hle := UInt32.le_iff_toNat_le.mp (UInt32.not_lt.mp h)
    omega

theorem inside_of_le (p : RtmpPayloadParser)
    (h : recvInfo.recvBuf.length ≤ recvInfo.firstChunkHeader.msgLength.toNat) :
    p.Inside recvInfo where
  received := h
  need := toNat_needSize h
  write := by
    have hneed := toNat_needSize h
    have hsize := p.toNat_thisMsgSize recvInfo
    omega

/-- The entry a chunk is added to, found or new. -/
theorem Bounded.inside (hp : p.Bounded) (h : p.findOrStart header = (.ok recvInfo, p')) :
    p'.Inside recvInfo := by
  apply inside_of_le
  unfold findOrStart at h
  split at h
  · rename_i info hinfo
    cases h
    exact Nat.le_of_lt (hp _ _ hinfo)
  · split at h
    · cases h
      exact Nat.zero_le _
    · cases h

theorem findOrStart_incompleteInfos (h : p.findOrStart header = (.ok recvInfo, p')) :
    p'.incompleteInfos = p.incompleteInfos := by
  rw [(findOrStart_frame h).1]

theorem Bounded.setInfo (hp : p.Bounded) {csId : UInt32} {entry : Option ReceivedPayloadInfo}
    (hentry : ∀ info, entry = some info →
      info.recvBuf.length < info.firstChunkHeader.msgLength.toNat) :
    (p.setInfo csId entry).Bounded := by
  intro id info hinfo
  by_cases hid : id = csId
  · subst hid
    simp only [RtmpPayloadParser.setInfo, Function.update_self] at hinfo
    exact hentry info hinfo
  · simp only [RtmpPayloadParser.setInfo, Function.update_of_ne hid] at hinfo
    exact hp id info hinfo

/-- A chunk that is read keeps the bounds: the entry it leaves still lacks bytes. -/
theorem Bounded.parsePayload (hp : p.Bounded)
    (h : (p.parsePayload uninit header stream bufSize).result = .ok .complete ∨
      (p.parsePayload uninit header stream bufSize).result = .ok .waitingNextChunk) :
    (p.parsePayload uninit header stream bufSize).parser.Bounded := by
  obtain ⟨recvInfo, p', hf, hle⟩ := parsePayload_read h
  have hinside := hp.inside hf
  have hp' : p'.Bounded := by
    intro id info hinfo
    rw [findOrStart_incompleteInfos hf] at hinfo
    exact hp id info hinfo
  rw [parsePayload_of_le hf hle] at h ⊢
  dsimp only at h ⊢
  by_cases hlast : p'.thisMsgSize recvInfo = needSize recvInfo
  · rw [decide_eq_true hlast] at h ⊢
    have hfinish := @finishChunk_last p' uninit header.chunkStreamId
      { recvInfo with
        recvBuf := recvInfo.recvBuf ++ stream.take (p'.thisMsgSize recvInfo).toNat }
    rcases hfinish with ⟨-, hinfos⟩ | hfail | ⟨fault, hfault⟩
    · intro id info hinfo
      rw [hinfos] at hinfo
      by_cases hid : id = header.chunkStreamId
      · simp [hid] at hinfo
      · rw [Function.update_of_ne hid] at hinfo
        exact hp' id info hinfo
    · simp [hfail] at h
    · simp [hfault] at h
  · rw [decide_eq_false hlast] at h ⊢
    refine hp'.setInfo fun info hinfo => ?_
    cases hinfo
    have hne : (p'.thisMsgSize recvInfo).toNat ≠ (needSize recvInfo).toNat :=
      fun heq => hlast (UInt32.toNat_inj.mp heq)
    have htake := List.length_take_le (p'.thisMsgSize recvInfo).toNat stream
    have hneed := hinside.need
    have hwrite := hinside.write
    simp only [List.length_append]
    omega

end RtmpPayloadParser

namespace ParserCore

variable {uninit : Uninit} {c c' : ParserCore} {stream stream' : List UInt8}
  {out : List RtmpMessage}

/-- The payload that is about to be read goes inside the buffer of its message. -/
def WritesInside (c : ParserCore) : Prop :=
  c.parsingState = .payloadParsing → ∀ recvInfo p',
    c.payloadParser.findOrStart c.parsedHeader = (.ok recvInfo, p') → p'.Inside recvInfo

theorem round_bounded (hc : c.payloadParser.Bounded)
    (h : (c.round uninit stream stream.length).returns = none) :
    (c.round uninit stream stream.length).core.payloadParser.Bounded := by
  unfold round at h ⊢
  cases hs : c.parsingState with
  | headerParsing =>
      simp only [hs] at h ⊢
      unfold headerRound at h ⊢
      split
      · exact hc
      · dsimp only
        split <;> exact hc
  | payloadParsing =>
      simp only [hs] at h ⊢
      unfold payloadRound at h ⊢
      split
      · exact hc
      · rename_i hne
        rw [if_neg hne] at h
        dsimp only at h ⊢
        split
        · rename_i hr
          have hbounded := hc.parsePayload (Or.inl hr)
          split
          · unfold applyMessage
            split <;> exact hbounded
          · exact hbounded
        · rename_i hr
          exact hc.parsePayload (Or.inr hr)
        all_goals
          rename_i hr
          simp [hr] at h
  | complete => exact hc

theorem Visits.bounded (h : Visits uninit c stream c' stream')
    (hc : c.payloadParser.Bounded) : c'.payloadParser.Bounded := by
  induction h with
  | here => exact hc
  | next hround _ ih => exact ih (round_bounded hc hround)

/-- Wherever the loop gets on a buffer, every entry still lacks bytes and the next
payload fits into its buffer. -/
theorem Reaches.bounded (h : Reaches uninit c stream out c' stream')
    (hc : c.payloadParser.Bounded) : c'.payloadParser.Bounded ∧ c'.WritesInside := by
  induction h with
  | rounds hvisits =>
      have hbounded := hvisits.bounded hc
      exact ⟨hbounded, fun _ _ _ hfind => hbounded.inside hfind⟩
  | deliver hvisits _ _ ih => exact ih (hvisits.bounded hc)

end ParserCore

end Rtmp
