import RtmpModule.Library.History
import RtmpModule.Protocol.Header
import RtmpModule.Streamer.BodySafety

/-!
# Replaying dumped messages

`write_flv_media_message_dump` keeps every media message in a file of its own, and
`process_flv_es_dump_message` is a copy of `process_flv_es_message` that takes such a
record. The copy computes the time in 32 bits and does not wait for a key frame; the
tests it makes do not look at the length of the body.
-/

namespace Rtmp

open FlvUtil FlvUtil.Cursor ParsingFlv

namespace FlvUtil

def read4byte : Read UInt32 := do
  let b0 ← at' 0
  let b1 ← at' 1
  let b2 ← at' 2
  let b3 ← at' 3
  advance 4
  return (b0.toUInt32 <<< 24) ||| (b1.toUInt32 <<< 16) ||| (b2.toUInt32 <<< 8) ||| b3.toUInt32

end FlvUtil

namespace ParsingFlv

/-- The tests that are not given the length of the body. -/
def isTagUnchecked (codec : UInt16 → UInt8) (codecValue packetValue : UInt8) : Read Bool := do
  let tag ← get2byte
  return decide (codec tag = codecValue ∧ packetType tag = packetValue)

/-- `is_aac_sequence_header`. -/
def isAacSequenceHeader : Read Bool := isTagUnchecked soundFormat flvAac flvAacSequenceHeader

/-- `is_aac_audio`. -/
def isAacAudio : Read Bool := isTagUnchecked soundFormat flvAac flvAacRaw

/-- `is_avc_sequence_header`. -/
def isAvcSequenceHeader : Read Bool := isTagUnchecked codecId flvAvc flvAvcSequenceHeader

/-- `is_avc_video`. -/
def isAvcVideo : Read Bool := isTagUnchecked codecId flvAvc flvAvcNalu

end ParsingFlv

/-- The record `write_flv_media_message_dump` writes for a message. -/
def mediaMessageDump (header : RtmpHeader) (data : List UInt8) : List UInt8 :=
  [header.msgTypeId.code] ++ Bytes.toBE 4 header.timestamp.toNat ++
    Bytes.toBE 4 header.msgLength.toNat ++ data

namespace FlvDump

variable (context : MediaPublishEsContext)

/-- A message that `process_flv_es_dump_message` cannot use; it returns true all the same. -/
def failed : Processed := { ret := true, ec := 1, context }

/-- The three fields in front of the body. -/
def readHeader : Read (UInt8 × UInt32 × UInt32) := do
  let messageType ← read1byte
  let timestamp ← read4byte
  let messageLength ← read4byte
  return (messageType, timestamp, messageLength)

section Branches

variable (timestamp : UInt32) (buffer : List UInt8)

/-- The branch of `FLV_AUDIO_ES`; `timestamp * 90` is a product of 32 bits. -/
def processAudio : Except MemoryFault Processed := do
  let bf := ofData buffer
  if ← isAacSequenceHeader.run' bf then
    match ← getAacHeader.run' bf with
    | none => return failed context
    | some header =>
        let sv := Bytes.toBE 4 header.sampleRate.toNat
        let cv := Bytes.toBE 4 header.channelCount.toNat
        return FlvMessage.accepted { context with
          audioInitEs := { codecInfo := sv ++ cv, sampleRate := header.sampleRate,
                           channelCount := header.channelCount } }
  else if ← isAacAudio.run' bf then
    match ← getAudio.run' bf with
    | none => return failed context
    | some audioEs =>
        let dts := (timestamp * 90).toUInt64
        let context := FlvMessage.pushFrame context .audio audioEs 1 dts dts
        return FlvMessage.accepted { context with audioFrameNumber := context.audioFrameNumber + 1 }
  else return failed context

/-- An AVC NALU packet; the flag of the first key frame is neither asked nor set. -/
def processNalu (frame : VideoFrame) : Except MemoryFault Processed := do
  let dts := (timestamp * 90).toUInt64
  let pts := dts + frame.cts * 90
  let key := frame.keyframe
  let videoEs ← replaceNaluStartCodeFromMp4ToTs 4 frame.videoEs
  let context := FlvMessage.pushFrame context .video videoEs key pts dts
  return FlvMessage.accepted { context with videoFrameNumber := context.videoFrameNumber + 1 }

/-- The branch of `FLV_VIDEO_ES`. -/
def processVideo : Except MemoryFault Processed := do
  let bf := ofData buffer
  if ← isAvcSequenceHeader.run' bf then
    match ← (getFirstSpsAndFirstPpsFromAvcSequenceHeader 0xFFFF 0xFFFF).run' bf with
    | none => return failed context
    | some header =>
        return FlvMessage.accepted { context with
          videoInitEs := { codecInfo := delimiter ++ header.sps ++ delimiter ++ header.pps,
                           sps := header.sps, pps := header.pps }
          nalStartcodeLen := header.nalStartcodeLen }
  else if ← isAvcVideo.run' bf then
    match ← getVideo.run' bf with
    | none => return failed context
    | some frame => processNalu context timestamp frame
  else if ← isAvcEndOfSequence.run' bf then
    let eos ← getAvcEndOfSequence.run' bf
    return FlvMessage.accepted { context with videoEos := eos }
  else return failed context

end Branches

/-- What follows the fields of a record, by its type. -/
def processBody (messageType : UInt8) (timestamp : UInt32) (buffer : List UInt8) :
    Except MemoryFault Processed :=
  if messageType = 8 then processAudio context timestamp buffer
  else if messageType = 9 then processVideo context timestamp buffer
  else .ok (failed context)

end FlvDump

/-- `process_flv_es_dump_message`. Behind the fields, the rest of the record is a buffer; the
length among them is only printed. -/
def processFlvEsDumpMessage (context : MediaPublishEsContext) (buffer : List UInt8) :
    Except MemoryFault Processed := do
  let ((messageType, timestamp, _), bf) ← FlvDump.readHeader (ofData buffer)
  FlvDump.processBody context messageType timestamp (bf.data.drop bf.pos)

section Records

variable {front rest : List UInt8}

theorem FlvUtil.read4byte_between {b0 b1 b2 b3 : UInt8} :
    read4byte (between front (b0 :: b1 :: b2 :: b3 :: rest)) =
      .ok (readValue [b0, b1, b2, b3], between (front ++ [b0, b1, b2, b3]) rest) := by
  have h0 := @at'_between front (b0 :: b1 :: b2 :: b3 :: rest) 0 (by simp)
  have h1 := @at'_between front (b0 :: b1 :: b2 :: b3 :: rest) 1 (by simp)
  have h2 := @at'_between front (b0 :: b1 :: b2 :: b3 :: rest) 2 (by simp)
  have h3 := @at'_between front (b0 :: b1 :: b2 :: b3 :: rest) 3 (by simp)
  have hadvance := @advance_of_le (between front (b0 :: b1 :: b2 :: b3 :: rest)) 4 (by simp)
  have hvalue : readValue [b0, b1, b2, b3] =
      (b0.toUInt32 <<< 24) ||| (b1.toUInt32 <<< 16) ||| (b2.toUInt32 <<< 8) ||| b3.toUInt32 := by
    simp [readValue, readValueLoop]
  rw [hvalue]
  simp only [read4byte, read_bind, h0, h1, h2, h3, hadvance, read_pure]
  exact congrArg _ (congrArg _ (@advance_between front [b0, b1, b2, b3] rest))

/-- A number of 32 bits is read as it was written. -/
theorem FlvUtil.read4byte_toBE (value : UInt32) :
    read4byte (between front (Bytes.toBE 4 value.toNat ++ rest)) =
      .ok (value, between (front ++ Bytes.toBE 4 value.toNat) rest) := by
  have hbytes : Bytes.toBE 4 value.toNat = [UInt8.ofNat (value.toNat / 256 / 256 / 256),
      UInt8.ofNat (value.toNat / 256 / 256), UInt8.ofNat (value.toNat / 256),
      UInt8.ofNat value.toNat] := rfl
  have hvalue : readValue (Bytes.toBE 4 value.toNat) = value := by
    apply UInt32.toNat_inj.mp
    rw [readValue_toNat (by simp), Bytes.ofBE_toBE_of_lt (UInt32.toNat_lt value)]
  rw [hbytes] at hvalue ⊢
  simp only [List.cons_append, List.nil_append]
  rw [read4byte_between, hvalue]

theorem FlvDump.readHeader_dump (header : RtmpHeader) (data : List UInt8) :
    ∃ front, FlvDump.readHeader (ofData (mediaMessageDump header data)) =
      .ok ((header.msgTypeId.code, header.timestamp, header.msgLength), between front data) := by
  refine ⟨[] ++ [header.msgTypeId.code] ++ Bytes.toBE 4 header.timestamp.toNat ++
    Bytes.toBE 4 header.msgLength.toNat, ?_⟩
  rw [FlvDump.readHeader, ofData_eq, mediaMessageDump]
  simp only [List.append_assoc, List.cons_append, List.nil_append, read_bind, read1byte_between,
    read4byte_toBE, read_pure]

/-- The body of a record is processed by its type and its time. -/
theorem processFlvEsDumpMessage_dump (context : MediaPublishEsContext) (header : RtmpHeader)
    (data : List UInt8) :
    processFlvEsDumpMessage context (mediaMessageDump header data) =
      FlvDump.processBody context header.msgTypeId.code header.timestamp data := by
  obtain ⟨front, hread⟩ := FlvDump.readHeader_dump header data
  have hdrop := @between_drop front data
  rw [processFlvEsDumpMessage, hread]
  simp only [bind, Except.bind, hdrop]

end Records

section Tests

variable {buffer : List UInt8} {codec : UInt16 → UInt8} {codecValue packetValue : UInt8}

theorem isTagUnchecked_eq (h : 2 ≤ buffer.length) :
    (isTagUnchecked codec codecValue packetValue).run' (ofData buffer) =
      (isTag codec codecValue packetValue).run' (ofData buffer) := by
  obtain ⟨b0, b1, rest, rfl⟩ := two_le_length h
  rw [isTag_eq]
  apply run'_ok.mpr
  refine ⟨between [] (b0 :: b1 :: rest), ?_⟩
  rw [isTagUnchecked, ofData_eq]
  simp only [read_bind, get2byte_between, read_pure, packetType, toUInt16_low]

theorem isTagUnchecked_short (h : buffer.length < 2) :
    (isTagUnchecked codec codecValue packetValue).run' (ofData buffer) =
      .error (.outOfBounds buffer.length) := by
  match buffer, h with
  | [], _ => rfl
  | [_], _ => rfl

end Tests

namespace FlvDump

variable (context : MediaPublishEsContext) (timestamp : UInt32) (buffer : List UInt8)

/-- What `process_flv_es_dump_message` does with each packet: the time is used for the two
kinds of frames only, and else the packets are processed as live ones. -/
def process : Option FlvPacket → Except MemoryFault Processed
  | some .aacRaw => do
      match ← getAudio.run' (ofData buffer) with
      | none => return failed context
      | some audioEs =>
          let dts := (timestamp * 90).toUInt64
          let context := FlvMessage.pushFrame context .audio audioEs 1 dts dts
          return FlvMessage.accepted
            { context with audioFrameNumber := context.audioFrameNumber + 1 }
  | some .avcNalu => do
      match ← getVideo.run' (ofData buffer) with
      | none => return failed context
      | some frame => processNalu context timestamp frame
  | packet =>
      (FlvPacket.process context timestamp.toUInt64 buffer packet).map fun r =>
        { r with ret := true }

theorem test_congr {x : Except MemoryFault Bool} {yes yes' no no' : Except MemoryFault Processed}
    (hyes : yes = yes') (hno : no = no') :
    (do if ← x then yes else no) = (do if ← x then yes' else no') := by
  rw [hyes, hno]

theorem bind_map {α : Type} {x : Except MemoryFault α} {f g : α → Except MemoryFault Processed}
    {h : Processed → Processed} (hfg : ∀ a, f a = (g a).map h) :
    x >>= f = (x >>= g).map h := by
  cases x with
  | error fault => rfl
  | ok a => exact hfg a

/-- Where the tag is there, the tests find what those of `process_flv_es_message` find. -/
theorem processBody_classify (h : 2 ≤ buffer.length) (messageType : UInt8) :
    processBody context messageType timestamp buffer =
      FlvPacket.classify messageType buffer >>= process context timestamp buffer := by
  rw [processBody, FlvPacket.classify]
  by_cases haudio : messageType = 8
  · rw [if_pos haudio, if_pos haudio, test_bind, test_bind, processAudio]
    simp only [isAacSequenceHeader, isAacAudio, isTagUnchecked_eq h]
    refine test_congr ?_ (test_congr rfl rfl)
    apply bind_map
    intro header
    cases header <;> rfl
  · rw [if_neg haudio, if_neg haudio]
    by_cases hvideo : messageType = 9
    · rw [if_pos hvideo, if_pos hvideo, test_bind, test_bind, test_bind, processVideo]
      simp only [isAvcSequenceHeader, isAvcVideo, isTagUnchecked_eq h]
      refine test_congr ?_ (test_congr rfl (test_congr ?_ rfl))
      · apply bind_map
        intro header
        cases header <;> rfl
      · apply bind_map
        intro eos
        rfl
    · rw [if_neg hvideo, if_neg hvideo]
      rfl

end FlvDump

section Packets

variable (header : RtmpHeader) (data : List UInt8)

/-- An audio message with an AAC raw packet. -/
def HoldsAacRaw : Prop :=
  header.msgTypeId = .audioData ∧
    ∃ fmt payload, data = fmt :: flvAacRaw :: payload ∧ (fmt &&& 0xf0) >>> 4 = flvAac

/-- A video message with an AVC NALU packet that has its composition time. -/
def HoldsAvcFrame : Prop :=
  header.msgTypeId = .videoData ∧
    ∃ fmt c0 c1 c2 es, data = fmt :: flvAvcNalu :: c0 :: c1 :: c2 :: es ∧
      fmt &&& 0x0f = flvAvc

/-- The time of a frame fits 32 bits in units of 1/90000 s, and a video frame comes behind the
first key frame of the context. -/
structure ReplaysAlike (context : MediaPublishEsContext) : Prop where
  time : HoldsAacRaw header data ∨ HoldsAvcFrame header data → header.timestamp.toNat * 90 < 2 ^ 32
  keyFrame : HoldsAvcFrame header data → context.firstVideoKeyFrameSent = true

variable {header : RtmpHeader} {data : List UInt8}

theorem not_holdsAvcFrame_of_audio (htype : header.msgTypeId = .audioData) :
    ¬ HoldsAvcFrame header data := by
  rintro ⟨hvideo, -⟩
  rw [htype] at hvideo
  cases hvideo

theorem not_holdsAacRaw_of_video (htype : header.msgTypeId = .videoData) :
    ¬ HoldsAacRaw header data := by
  rintro ⟨haudio, -⟩
  rw [htype] at haudio
  cases haudio

theorem replaysAlike_of_neither {context : MediaPublishEsContext}
    (haudio : ¬ HoldsAacRaw header data) (hvideo : ¬ HoldsAvcFrame header data) :
    ReplaysAlike header data context where
  time hholds := (hholds.elim haudio hvideo).elim
  keyFrame hholds := (hvideo hholds).elim

end Packets

section Times

variable {timestamp : UInt32}

/-- The product of 32 bits is the one of 64 bits as long as it fits. -/
theorem toUInt64_mul_ninety :
    (timestamp * 90).toUInt64 = timestamp.toUInt64 * 90 ↔ timestamp.toNat * 90 < 2 ^ 32 := by
  have hlt := UInt32.toNat_lt timestamp
  have h90 : (90 : UInt32).toNat = 90 := rfl
  have h90' : (90 : UInt64).toNat = 90 := rfl
  have hsmall : timestamp.toNat * 90 < 2 ^ 64 := by omega
  rw [← UInt64.toNat_inj, UInt32.toNat_toUInt64, UInt32.toNat_mul, UInt64.toNat_mul,
    UInt32.toNat_toUInt64, h90, h90', Nat.mod_eq_of_lt hsmall]
  constructor
  · intro hwrap
    rw [← hwrap]
    exact Nat.mod_lt _ (by decide)
  · exact Nat.mod_eq_of_lt

end Times

/-- The context and the `ec` of two calls are the same; what they return may differ. -/
def SameEffect (replayed live : Processed) : Prop :=
  replayed.context = live.context ∧ replayed.ec = live.ec

section Frames

variable {context : MediaPublishEsContext} {timestamp : UInt32} {es : List UInt8}

/-- The times of the last frame in the queue. -/
def lastTimes (context : MediaPublishEsContext) : Option (UInt64 × UInt64) :=
  context.mediaEs.getLast?.map fun es => (es.pts, es.dts)

theorem lastTimes_pushFrame {type : MediaEsType} {key : UInt8} {pts dts : UInt64} :
    lastTimes (FlvMessage.pushFrame context type es key pts dts) = some (pts, dts) := by
  simp [lastTimes, FlvMessage.pushFrame, makeMediaEs]

/-- An audio frame is replayed with its time if this fits 32 bits. -/
theorem sameEffect_audio :
    SameEffect
        (FlvMessage.accepted
          { FlvMessage.pushFrame context .audio es 1 (timestamp * 90).toUInt64
              (timestamp * 90).toUInt64 with
            audioFrameNumber := context.audioFrameNumber + 1 })
        (FlvMessage.accepted
          { FlvMessage.pushFrame context .audio es 1 (timestamp.toUInt64 * 90)
              (timestamp.toUInt64 * 90) with
            audioFrameNumber := context.audioFrameNumber + 1 }) ↔
      timestamp.toNat * 90 < 2 ^ 32 := by
  rw [← toUInt64_mul_ninety]
  constructor
  · rintro ⟨hcontext, -⟩
    have htimes := congrArg lastTimes hcontext
    change lastTimes (FlvMessage.pushFrame _ _ _ _ _ _) =
      lastTimes (FlvMessage.pushFrame _ _ _ _ _ _) at htimes
    rw [lastTimes_pushFrame, lastTimes_pushFrame, Option.some.injEq, Prod.mk.injEq] at htimes
    exact htimes.1
  · intro htime
    rw [htime]
    exact ⟨rfl, rfl⟩

/-- A video frame is replayed alike behind the first key frame, if its time fits. -/
theorem sameEffect_video {frame : VideoFrame} {live replayed : Processed}
    (hlive : FlvMessage.processNalu context timestamp.toUInt64 frame = .ok live)
    (hreplay : FlvDump.processNalu context timestamp frame = .ok replayed) :
    SameEffect replayed live ↔
      timestamp.toNat * 90 < 2 ^ 32 ∧ context.firstVideoKeyFrameSent = true := by
  obtain ⟨videoEs, hes, hqueued⟩ := except_bind_ok.mp hreplay
  cases hqueued
  by_cases hgate : frame.keyframe = 1 ∨ context.firstVideoKeyFrameSent = true
  · rw [processNalu_queued hes hgate] at hlive
    cases hlive
    rw [← toUInt64_mul_ninety]
    constructor
    · rintro ⟨hcontext, -⟩
      have htimes := congrArg lastTimes hcontext
      change lastTimes (FlvMessage.pushFrame _ _ _ _ _ _) =
        lastTimes (FlvMessage.pushFrame _ _ _ _ _ _) at htimes
      rw [lastTimes_pushFrame, lastTimes_pushFrame, Option.some.injEq, Prod.mk.injEq] at htimes
      exact ⟨htimes.2, congrArg MediaPublishEsContext.firstVideoKeyFrameSent hcontext⟩
    · rintro ⟨htime, hsent⟩
      rw [htime]
      refine ⟨?_, rfl⟩
      change _ = { FlvMessage.pushFrame context _ _ _ _ _ with
        firstVideoKeyFrameSent := true, videoFrameNumber := context.videoFrameNumber + 1 }
      rw [← hsent]
      rfl
  · -- the live message is refused, and the frame is replayed
    rw [processNalu_refused hes hgate] at hlive
    cases hlive
    refine iff_of_false ?_ (fun h => hgate (.inr h.2))
    rintro ⟨-, hec⟩
    cases hec

end Frames

section Agreement

variable {context : MediaPublishEsContext} {header : RtmpHeader} {data : List UInt8}
variable {live replayed : Processed}

/-- A packet that is not queued is replayed alike. -/
theorem sameEffect_map {x : Except MemoryFault Processed} (hlive : x = .ok live)
    (hreplay : (x.map fun r => { r with ret := true }) = .ok replayed) :
    SameEffect replayed live := by
  rw [hlive] at hreplay
  cases hreplay
  exact ⟨rfl, rfl⟩

theorem sameEffect_other {packet : Option FlvPacket} (haudio : packet ≠ some .aacRaw)
    (hvideo : packet ≠ some .avcNalu)
    (hlive : FlvPacket.process context header.timestamp.toUInt64 data packet = .ok live)
    (hreplay : FlvDump.process context header.timestamp data packet = .ok replayed) :
    SameEffect replayed live := by
  match packet with
  | none | some .aacSequenceHeader | some .avcSequenceHeader | some .avcEndOfSequence =>
      exact sameEffect_map hlive hreplay
  | some .aacRaw => exact absurd rfl haudio
  | some .avcNalu => exact absurd rfl hvideo

/-- The first test of a record reads the two bytes of the tag. -/
theorem two_le_of_replay (htype : header.msgTypeId = .audioData ∨ header.msgTypeId = .videoData)
    (hreplay : processFlvEsDumpMessage context (mediaMessageDump header data) = .ok replayed) :
    2 ≤ data.length := by
  by_contra hshort
  have hlt : data.length < 2 := Nat.lt_of_not_le hshort
  rw [processFlvEsDumpMessage_dump] at hreplay
  rcases htype with htype | htype
  · rw [htype] at hreplay
    change FlvDump.processAudio context header.timestamp data = _ at hreplay
    simp only [FlvDump.processAudio, isAacSequenceHeader, isTagUnchecked_short hlt] at hreplay
    cases hreplay
  · rw [htype] at hreplay
    change FlvDump.processVideo context header.timestamp data = _ at hreplay
    simp only [FlvDump.processVideo, isAvcSequenceHeader, isTagUnchecked_short hlt] at hreplay
    cases hreplay

/-- Both calls process the packet the tests find. -/
theorem both_process (h : 2 ≤ data.length)
    (hlive : processFlvEsMessage context header.msgTypeId.code header.timestamp.toUInt64 data =
      .ok live)
    (hreplay : processFlvEsDumpMessage context (mediaMessageDump header data) = .ok replayed)
    {packet : Option FlvPacket}
    (hpacket : FlvPacket.classify header.msgTypeId.code data = .ok packet) :
    FlvPacket.process context header.timestamp.toUInt64 data packet = .ok live ∧
      FlvDump.process context header.timestamp data packet = .ok replayed := by
  rw [processFlvEsMessage_classify, hpacket] at hlive
  rw [processFlvEsDumpMessage_dump, FlvDump.processBody_classify _ _ _ h, hpacket] at hreplay
  exact ⟨hlive, hreplay⟩

theorem sameEffect_audioMessage (htype : header.msgTypeId = .audioData) (h : 2 ≤ data.length)
    (hlive : processFlvEsMessage context header.msgTypeId.code header.timestamp.toUInt64 data =
      .ok live)
    (hreplay : processFlvEsDumpMessage context (mediaMessageDump header data) = .ok replayed) :
    SameEffect replayed live ↔ ReplaysAlike header data context := by
  obtain ⟨b0, b1, rest, rfl⟩ := two_le_length h
  have hvideo : ¬ HoldsAvcFrame header (b0 :: b1 :: rest) := not_holdsAvcFrame_of_audio htype
  have hcode : header.msgTypeId.code = 8 := by rw [htype]; rfl
  have hpacket := classify_audio b0 b1 rest
  rw [← hcode] at hpacket
  obtain ⟨hlive, hreplay⟩ := both_process h hlive hreplay hpacket
  by_cases hraw : (b0 &&& 0xf0) >>> 4 = flvAac ∧ b1 = flvAacRaw
  · obtain ⟨hformat, rfl⟩ := hraw
    have hholds : HoldsAacRaw header (b0 :: flvAacRaw :: rest) :=
      ⟨htype, b0, rest, rfl, hformat⟩
    rw [if_neg (by rintro ⟨-, ⟨⟩⟩), if_pos ⟨hformat, rfl⟩] at hlive hreplay
    rw [FlvPacket.process, getAudio_eq hformat] at hlive
    rw [FlvDump.process, getAudio_eq hformat] at hreplay
    cases hlive
    cases hreplay
    refine sameEffect_audio.trans ⟨fun htime => ⟨fun _ => htime, fun hframe => ?_⟩, fun h => ?_⟩
    · exact (hvideo hframe).elim
    · exact h.time (.inl hholds)
  · have hnot : ¬ HoldsAacRaw header (b0 :: b1 :: rest) := by
      rintro ⟨-, fmt, payload, hdata, hformat⟩
      cases hdata
      exact hraw ⟨hformat, rfl⟩
    refine iff_of_true (sameEffect_other ?_ ?_ hlive hreplay) (replaysAlike_of_neither hnot hvideo)
    · rw [if_neg hraw]
      split
      · nofun
      · nofun
    · rw [if_neg hraw]
      split
      · nofun
      · nofun

/-- An AVC NALU packet, which is a frame when its composition time is there. -/
theorem sameEffect_nalu {fmt : UInt8} {rest : List UInt8} (hcodec : fmt &&& 0x0f = flvAvc)
    (htype : header.msgTypeId = .videoData)
    (hlive : FlvPacket.process context header.timestamp.toUInt64 (fmt :: flvAvcNalu :: rest)
      (some .avcNalu) = .ok live)
    (hreplay : FlvDump.process context header.timestamp (fmt :: flvAvcNalu :: rest)
      (some .avcNalu) = .ok replayed) :
    SameEffect replayed live ↔ ReplaysAlike header (fmt :: flvAvcNalu :: rest) context := by
  obtain ⟨frame, hframe, hlive⟩ := except_bind_ok.mp hlive
  obtain ⟨frame', hframe', hreplay⟩ := except_bind_ok.mp hreplay
  rw [hframe] at hframe'
  cases hframe'
  cases frame with
  | none =>
      cases hlive
      cases hreplay
      have hnot : ¬ HoldsAvcFrame header (fmt :: flvAvcNalu :: rest) := by
        rintro ⟨-, fmt', c0, c1, c2, es, hdata, -⟩
        rw [hdata, getVideo_eq] at hframe
        cases hframe
      exact iff_of_true ⟨rfl, rfl⟩ (replaysAlike_of_neither (not_holdsAacRaw_of_video htype) hnot)
  | some frame =>
      obtain ⟨fmt', c0, c1, c2, es, hdata⟩ := getVideo_some hframe
      have hholds : HoldsAvcFrame header (fmt :: flvAvcNalu :: rest) := by
        refine ⟨htype, fmt', c0, c1, c2, es, hdata, ?_⟩
        cases hdata
        exact hcodec
      refine (sameEffect_video hlive hreplay).trans ⟨?_, ?_⟩
      · rintro ⟨htime, hsent⟩
        exact ⟨fun _ => htime, fun _ => hsent⟩
      · intro h
        exact ⟨h.time (.inr hholds), h.keyFrame hholds⟩

theorem sameEffect_videoMessage (htype : header.msgTypeId = .videoData) (h : 2 ≤ data.length)
    (hlive : processFlvEsMessage context header.msgTypeId.code header.timestamp.toUInt64 data =
      .ok live)
    (hreplay : processFlvEsDumpMessage context (mediaMessageDump header data) = .ok replayed) :
    SameEffect replayed live ↔ ReplaysAlike header data context := by
  obtain ⟨b0, b1, rest, rfl⟩ := two_le_length h
  have hcode : header.msgTypeId.code = 9 := by rw [htype]; rfl
  have hpacket := classify_video b0 b1 rest
  rw [← hcode] at hpacket
  obtain ⟨hlive, hreplay⟩ := both_process h hlive hreplay hpacket
  by_cases hnalu : b0 &&& 0x0f = flvAvc ∧ b1 = flvAvcNalu
  · obtain ⟨hcodec, rfl⟩ := hnalu
    rw [if_neg (by rintro ⟨-, ⟨⟩⟩), if_pos ⟨hcodec, rfl⟩] at hlive hreplay
    exact sameEffect_nalu hcodec htype hlive hreplay
  · have hnot : ¬ HoldsAvcFrame header (b0 :: b1 :: rest) := by
      rintro ⟨-, fmt, c0, c1, c2, es, hdata, hcodec⟩
      cases hdata
      exact hnalu ⟨hcodec, rfl⟩
    refine iff_of_true (sameEffect_other ?_ ?_ hlive hreplay)
      (replaysAlike_of_neither (not_holdsAacRaw_of_video htype) hnot)
    · rw [if_neg hnalu]
      split
      · nofun
      · split
        · nofun
        · nofun
    · rw [if_neg hnalu]
      split
      · nofun
      · split
        · nofun
        · nofun

end Agreement

/-- On a message on which neither call reads outside its buffer, the replay of the record does
what the message did exactly when no time is cut off and the first key frame is past. -/
theorem replay_iff (context : MediaPublishEsContext) (header : RtmpHeader) (data : List UInt8)
    (live replayed : Processed)
    (htype : header.msgTypeId = .audioData ∨ header.msgTypeId = .videoData)
    (habs : header.absTimestamp = header.timestamp.toUInt64)
    (hlive : processFlvEsMessage context header.msgTypeId.code header.absTimestamp data = .ok live)
    (hreplay : processFlvEsDumpMessage context (mediaMessageDump header data) = .ok replayed) :
    SameEffect replayed live ↔ ReplaysAlike header data context := by
  have htwo := two_le_of_replay htype hreplay
  rw [habs] at hlive
  rcases htype with htype | htype
  · exact sameEffect_audioMessage htype htwo hlive hreplay
  · exact sameEffect_videoMessage htype htwo hlive hreplay

/-- The header of a message at the time given. -/
def mediaHeader (msgTypeId : MsgTypeId) (timestamp : UInt32) (length : UInt32) : RtmpHeader :=
  { msgTypeId, timestamp, msgLength := length, absTimestamp := timestamp.toUInt64 }

/-- A key frame without data. -/
def keyFrameBody : List UInt8 := [0x17, 0x01, 0x00, 0x00, 0x00]

/-- The key frame as the first message of a context. -/
theorem replay_iff_keyFrame :
    ∃ live replayed,
      processFlvEsMessage {} 9 0 keyFrameBody = .ok live ∧
      processFlvEsDumpMessage {} (mediaMessageDump (mediaHeader .videoData 0 5) keyFrameBody) =
        .ok replayed ∧
      (SameEffect replayed live ↔
        ReplaysAlike (mediaHeader .videoData 0 5) keyFrameBody {}) := by
  obtain ⟨live, hlive⟩ : ∃ live, processFlvEsMessage {} 9 0 keyFrameBody = .ok live :=
    History.exists_ok (by decide +kernel)
  obtain ⟨replayed, hreplay⟩ : ∃ replayed, processFlvEsDumpMessage {}
      (mediaMessageDump (mediaHeader .videoData 0 5) keyFrameBody) = .ok replayed :=
    History.exists_ok (by decide +kernel)
  exact ⟨live, replayed, hlive, hreplay,
    replay_iff {} (mediaHeader .videoData 0 5) _ live replayed (.inr rfl) rfl hlive hreplay⟩

/-- That a key frame was seen is not remembered by its replay. -/
theorem not_replay_keyFrame :
    ¬ ∀ (context : MediaPublishEsContext) (header : RtmpHeader) (data : List UInt8)
      (live replayed : Processed),
      header.msgTypeId = .audioData ∨ header.msgTypeId = .videoData →
      header.absTimestamp = header.timestamp.toUInt64 →
      processFlvEsMessage context header.msgTypeId.code header.absTimestamp data = .ok live →
      processFlvEsDumpMessage context (mediaMessageDump header data) = .ok replayed →
      SameEffect replayed live := by
  intro h
  obtain ⟨live, hlive⟩ : ∃ live, processFlvEsMessage {} 9 0 keyFrameBody = .ok live :=
    History.exists_ok (by decide +kernel)
  obtain ⟨replayed, hreplay⟩ : ∃ replayed, processFlvEsDumpMessage {}
      (mediaMessageDump (mediaHeader .videoData 0 5) keyFrameBody) = .ok replayed :=
    History.exists_ok (by decide +kernel)
  have hsame := h {} (mediaHeader .videoData 0 5) keyFrameBody live replayed (.inr rfl) rfl hlive
    hreplay
  have halike := (sameEffect_videoMessage rfl (by decide) hlive hreplay).mp hsame
  have hsent := halike.keyFrame ⟨rfl, 0x17, 0x00, 0x00, 0x00, [], rfl, by decide⟩
  cases hsent

end Rtmp
