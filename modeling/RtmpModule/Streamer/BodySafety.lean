import RtmpModule.Media.CheckedParsers
import RtmpModule.Streamer.EsMessages

/-!
# Bodies of every size

`process_flv_es_message` decides by a chain of tests which packet a body holds, and
calls the parsers of that packet. All of the tests but the last look at the length of
the body first; the last one reads the two bytes of a video tag, whether they are
there or not.
-/

namespace Rtmp

open FlvUtil FlvUtil.Cursor ParsingFlv

/-- The packets `process_flv_es_message` tells apart. -/
inductive FlvPacket where
  | aacSequenceHeader
  | aacRaw
  | avcSequenceHeader
  | avcNalu
  | avcEndOfSequence
  deriving DecidableEq, Repr

namespace FlvPacket

/-- The tests of `process_flv_es_message`, in their order. -/
def classify (messageType : UInt8) (buffer : List UInt8) :
    Except MemoryFault (Option FlvPacket) := do
  let bf := ofData buffer
  if messageType = 8 then
    if ← isAACSequenceHeader.run' bf then return some aacSequenceHeader
    else if ← isAACRaw.run' bf then return some aacRaw
    else return none
  else if messageType = 9 then
    if ← isAVCSequenceHeader.run' bf then return some avcSequenceHeader
    else if ← isAVCNALU.run' bf then return some avcNalu
    else if ← isAvcEndOfSequence.run' bf then return some avcEndOfSequence
    else return none
  else return none

/-- The parsers that are called with a packet, in buffers of their own as large as the body,
stay inside the body. -/
def ParsedInside (buffer : List UInt8) : FlvPacket → Prop
  | aacSequenceHeader =>
      EndsInside buffer buffer.length parseAACSequenceHeader.run ∧
        EndsInside buffer buffer.length getAacHeader
  | aacRaw =>
      EndsInside buffer buffer.length (parseAACRawInto buffer.length).run ∧
        EndsInside buffer buffer.length getAudio
  | avcSequenceHeader =>
      EndsInside buffer buffer.length (getFirstSpsAndFirstPpsFromAvcSequenceHeader 0xFFFF 0xFFFF)
  | avcNalu => EndsInside buffer buffer.length getVideo
  | avcEndOfSequence => EndsInside buffer buffer.length getAvcEndOfSequence

end FlvPacket

open FlvPacket

/-- The tests stay inside the body, and so do the parsers of the packet they find. -/
def ClassifiedSafely (messageType : UInt8) (buffer : List UInt8) : Prop :=
  ∃ packet, classify messageType buffer = .ok packet ∧ ∀ p ∈ packet, p.ParsedInside buffer

section Dispatch

variable (context : MediaPublishEsContext) (timestamp : UInt64) (buffer : List UInt8)

/-- What `process_flv_es_message` does with each packet. -/
def FlvPacket.process : Option FlvPacket → Except MemoryFault Processed
  | none => return FlvMessage.refused context
  | some aacSequenceHeader => do
      match ← getAacHeader.run' (ofData buffer) with
      | none => return FlvMessage.refused context
      | some header =>
          let sv := Bytes.toBE 4 header.sampleRate.toNat
          let cv := Bytes.toBE 4 header.channelCount.toNat
          return FlvMessage.accepted { context with
            audioInitEs := { codecInfo := sv ++ cv, sampleRate := header.sampleRate,
                             channelCount := header.channelCount } }
  | some aacRaw => do
      match ← getAudio.run' (ofData buffer) with
      | none => return FlvMessage.refused context
      | some audioEs =>
          let dts := timestamp * 90
          let context := FlvMessage.pushFrame context .audio audioEs 1 dts dts
          return FlvMessage.accepted
            { context with audioFrameNumber := context.audioFrameNumber + 1 }
  | some avcSequenceHeader => do
      match ← (getFirstSpsAndFirstPpsFromAvcSequenceHeader 0xFFFF 0xFFFF).run' (ofData buffer) with
      | none => return FlvMessage.refused context
      | some header =>
          return FlvMessage.accepted { context with
            videoInitEs := { codecInfo := delimiter ++ header.sps ++ delimiter ++ header.pps,
                             sps := header.sps, pps := header.pps }
            nalStartcodeLen := header.nalStartcodeLen }
  | some avcNalu => do
      match ← getVideo.run' (ofData buffer) with
      | none => return FlvMessage.refused context
      | some frame => FlvMessage.processNalu context timestamp frame
  | some avcEndOfSequence => do
      let eos ← getAvcEndOfSequence.run' (ofData buffer)
      return FlvMessage.accepted { context with videoEos := eos }

theorem test_bind {x : Except MemoryFault Bool} {p : FlvPacket}
    {rest : Except MemoryFault (Option FlvPacket)}
    {f : Option FlvPacket → Except MemoryFault Processed} :
    (do if ← x then return some p else rest) >>= f =
      (do if ← x then f (some p) else rest >>= f) := by
  cases x with
  | error fault => rfl
  | ok answer => cases answer <;> rfl

/-- A message is classified first and then processed as the packet that was found. -/
theorem processFlvEsMessage_classify (messageType : UInt8) :
    processFlvEsMessage context messageType timestamp buffer =
      classify messageType buffer >>= FlvPacket.process context timestamp buffer := by
  rw [processFlvEsMessage, classify]
  by_cases haudio : messageType = 8
  · rw [if_pos haudio, if_pos haudio, test_bind, test_bind]
    rfl
  · rw [if_neg haudio, if_neg haudio]
    by_cases hvideo : messageType = 9
    · rw [if_pos hvideo, if_pos hvideo, test_bind, test_bind, test_bind]
      rfl
    · rw [if_neg hvideo, if_neg hvideo]
      rfl

end Dispatch

section Tests

variable {messageType : UInt8} {buffer : List UInt8}

theorem isTag_short {codec : UInt16 → UInt8} {codecValue packetValue : UInt8}
    (h : buffer.length < 2) :
    (isTag codec codecValue packetValue).run' (ofData buffer) = .ok false := by
  have hlen : (ofData buffer).len < 2 := h
  apply run'_ok.mpr
  refine ⟨ofData buffer, ?_⟩
  rw [isTag]
  simp only [read_bind, read_get, hlen, if_true, read_pure]

theorem isAvcEndOfSequence_eq (b0 b1 : UInt8) (rest : List UInt8) :
    isAvcEndOfSequence.run' (ofData (b0 :: b1 :: rest)) =
      .ok (decide (codecId (toUInt16 b0 b1) = flvAvc ∧ b1 = flvAvcEos)) := by
  apply run'_ok.mpr
  refine ⟨between [] (b0 :: b1 :: rest), ?_⟩
  rw [isAvcEndOfSequence, ofData_eq]
  simp only [read_bind, get2byte_between, read_pure, packetType, toUInt16_low]

/-- The last test reads the two bytes of a tag also where they are missing. -/
theorem isAvcEndOfSequence_short (h : buffer.length < 2) :
    isAvcEndOfSequence.run' (ofData buffer) = .error (.outOfBounds buffer.length) := by
  match buffer, h with
  | [], _ => rfl
  | [_], _ => rfl

end Tests

section Safety

variable {messageType : UInt8} {buffer : List UInt8} {hi : Nat}

theorem safe_getAudio : Safe 2 hi getAudio := by
  apply Safe.takes takes_read2byte (Nat.le_refl 2)
  intro tag
  apply Safe.ite (Safe.pure none)
  apply Safe.get
  intro c hlo hhi
  exact Safe.takes (takes_readNbyte c.len) (Nat.le_refl _) fun audioEs => Safe.pure _

theorem safe_getAvcEndOfSequence : Safe 0 hi getAvcEndOfSequence := by
  apply Safe.get
  intro c hlo hhi c' hc' hlo' hhi'
  obtain ⟨eos, heos⟩ := takes_readNbyte c.len c' hc' hlo'
  exact ⟨eos, _, heos, .advance hlo'⟩

/-- The parsers stay inside any body that has the two bytes of a tag. -/
theorem FlvPacket.parsedInside (h : 2 ≤ buffer.length) (p : FlvPacket) :
    p.ParsedInside buffer := by
  have hnone : 0 ≤ buffer.length := Nat.zero_le _
  have hall : buffer.length ≤ buffer.length := Nat.le_refl _
  cases p with
  | aacSequenceHeader =>
      exact ⟨safe_parseAACSequenceHeader.endsInside hnone hall,
        safe_getAacHeader.endsInside hnone hall⟩
  | aacRaw =>
      exact ⟨(safe_parseAACRawInto hall).endsInside hnone hall, safe_getAudio.endsInside h hall⟩
  | avcSequenceHeader =>
      rw [FlvPacket.ParsedInside, ← getFirstSpsAndFirstPpsInto_eq]
      exact (safe_getFirstSpsAndFirstPpsInto _ _).endsInside hnone hall
  | avcNalu =>
      obtain ⟨frame, c, hok, hinside⟩ := (safe_getVideoInto hall).endsInside hnone hall
      exact ⟨frame, c, agrees_getVideoInto _ _ _ hok, hinside⟩
  | avcEndOfSequence => exact safe_getAvcEndOfSequence.endsInside hnone hall

end Safety

section Classification

variable {messageType : UInt8} {buffer : List UInt8}

/-- A body that is shorter than a tag is no packet, unless it is one of a video message. -/
theorem classify_short (h : buffer.length < 2) :
    classify messageType buffer =
      if messageType = 9 then .error (.outOfBounds buffer.length) else .ok none := by
  rw [classify]
  simp only [isAACSequenceHeader, isAACRaw, isAVCSequenceHeader, isAVCNALU, isTag_short h,
    isAvcEndOfSequence_short h]
  by_cases haudio : messageType = 8
  · rw [if_pos haudio, haudio]
    rfl
  · rw [if_neg haudio]
    rfl

/-- The packets of an audio message are told apart by the two bytes of the tag. -/
theorem classify_audio (b0 b1 : UInt8) (rest : List UInt8) :
    classify 8 (b0 :: b1 :: rest) =
      .ok (if (b0 &&& 0xf0) >>> 4 = flvAac ∧ b1 = flvAacSequenceHeader then some aacSequenceHeader
        else if (b0 &&& 0xf0) >>> 4 = flvAac ∧ b1 = flvAacRaw then some aacRaw else none) := by
  rw [classify, if_pos rfl]
  simp only [isAACSequenceHeader, isAACRaw, isTag_eq, soundFormat, toUInt16_high]
  split
  · next h =>
    rw [decide_eq_true h]
    rfl
  · next h =>
    rw [decide_eq_false h]
    split
    · next hraw =>
      rw [decide_eq_true hraw]
      rfl
    · next hraw =>
      rw [decide_eq_false hraw]
      rfl

theorem classify_video (b0 b1 : UInt8) (rest : List UInt8) :
    classify 9 (b0 :: b1 :: rest) =
      .ok (if b0 &&& 0x0f = flvAvc ∧ b1 = flvAvcSequenceHeader then some avcSequenceHeader
        else if b0 &&& 0x0f = flvAvc ∧ b1 = flvAvcNalu then some avcNalu
        else if b0 &&& 0x0f = flvAvc ∧ b1 = flvAvcEos then some avcEndOfSequence
        else none) := by
  rw [classify, if_neg (by decide), if_pos rfl]
  simp only [isAVCSequenceHeader, isAVCNALU, isTag_eq, isAvcEndOfSequence_eq, codecId,
    toUInt16_high]
  split
  · next h =>
    rw [decide_eq_true h]
    rfl
  · next h =>
    rw [decide_eq_false h]
    split
    · next hnalu =>
      rw [decide_eq_true hnalu]
      rfl
    · next hnalu =>
      rw [decide_eq_false hnalu]
      split
      · next heos =>
        rw [decide_eq_true heos]
        rfl
      · next heos =>
        rw [decide_eq_false heos]
        rfl

theorem classify_long (h : 2 ≤ buffer.length) :
    ∃ packet, classify messageType buffer = .ok packet := by
  obtain ⟨b0, b1, rest, rfl⟩ := two_le_length h
  by_cases haudio : messageType = 8
  · rw [haudio]
    exact ⟨_, classify_audio b0 b1 rest⟩
  · by_cases hvideo : messageType = 9
    · rw [hvideo]
      exact ⟨_, classify_video b0 b1 rest⟩
    · rw [classify, if_neg haudio, if_neg hvideo]
      exact ⟨none, rfl⟩

/-- The body of a video message has to have the two bytes of a tag. -/
theorem classifiedSafely_iff (messageType : UInt8) (buffer : List UInt8) :
    ClassifiedSafely messageType buffer ↔ messageType ≠ 9 ∨ 2 ≤ buffer.length := by
  by_cases h : 2 ≤ buffer.length
  · obtain ⟨packet, hpacket⟩ := @classify_long messageType buffer h
    exact iff_of_true ⟨packet, hpacket, fun p _ => p.parsedInside h⟩ (.inr h)
  · have hclassify := @classify_short messageType buffer (Nat.lt_of_not_le h)
    constructor
    · rintro ⟨packet, hpacket, -⟩
      refine .inl ?_
      rintro rfl
      rw [hclassify, if_pos rfl] at hpacket
      cases hpacket
    · intro htype
      rw [if_neg (htype.resolve_right h)] at hclassify
      exact ⟨none, hclassify, by simp⟩

/-- The empty body of a video message. -/
theorem not_classifiedSafely_empty :
    ¬ ∀ (messageType : UInt8) (buffer : List UInt8), ClassifiedSafely messageType buffer := by
  intro h
  obtain ⟨packet, hpacket, -⟩ := h 9 []
  rw [@classify_short 9 [] (by decide), if_pos rfl] at hpacket
  cases hpacket

end Classification

end Rtmp
