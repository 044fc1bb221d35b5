import RtmpModule.Media.AudioSpecificConfig
import RtmpModule.Media.AvcHeaders
import RtmpModule.Streamer.EsEffects

/-!
# The packets a publisher sends

For the packets of AAC and AVC, what `process_flv_es_message` does is computed: the
raw packets and the NAL units are queued as frames, and a sequence header is kept for
its first sets.
-/

namespace Rtmp

open FlvUtil FlvUtil.Cursor ParsingFlv

section Packets

variable (context : MediaPublishEsContext) (timestamp : UInt64)

theorem isTag_eq (codec : UInt16 → UInt8) (codecValue packetValue b0 b1 : UInt8)
    (rest : List UInt8) :
    (isTag codec codecValue packetValue).run' (ofData (b0 :: b1 :: rest)) =
      .ok (decide (codec (toUInt16 b0 b1) = codecValue ∧ b1 = packetValue)) := by
  have htwo : ¬ (between [] (b0 :: b1 :: rest)).len < 2 := by simp
  apply run'_ok.mpr
  refine ⟨between [] (b0 :: b1 :: rest), ?_⟩
  rw [isTag, ofData_eq]
  simp only [read_bind, read_get, htwo, if_false, get2byte_between, read_pure, packetType,
    toUInt16_low]

theorem getAudio_eq {fmt : UInt8} (hfmt : (fmt &&& 0xf0) >>> 4 = flvAac) (payload : List UInt8) :
    getAudio.run' (ofData (fmt :: flvAacRaw :: payload)) = .ok (some payload) := by
  have htag : ¬ (soundFormat (toUInt16 fmt flvAacRaw) ≠ flvAac ∨
      packetType (toUInt16 fmt flvAacRaw) ≠ flvAacRaw) := by
    simp [soundFormat, packetType, hfmt]
  apply run'_ok.mpr
  refine ⟨between ([] ++ [fmt, flvAacRaw] ++ payload) [], ?_⟩
  rw [getAudio, ofData_eq]
  simp only [read_bind, read_get, read2byte_between, htag, if_false, readNbyte_len_between,
    read_pure]

/-- An AAC raw packet is always queued. -/
theorem process_raw {fmt : UInt8} (hfmt : (fmt &&& 0xf0) >>> 4 = flvAac) (payload : List UInt8) :
    processFlvEsMessage context 8 timestamp (fmt :: flvAacRaw :: payload) =
      .ok (FlvMessage.accepted
        { FlvMessage.pushFrame context .audio payload 1 (timestamp * 90) (timestamp * 90) with
          audioFrameNumber := context.audioFrameNumber + 1 }) := by
  have hheader : isAACSequenceHeader.run' (ofData (fmt :: flvAacRaw :: payload)) = .ok false := by
    rw [isAACSequenceHeader, isTag_eq]
    simp [flvAacRaw, flvAacSequenceHeader]
  have hraw : isAACRaw.run' (ofData (fmt :: flvAacRaw :: payload)) = .ok true := by
    rw [isAACRaw, isTag_eq]
    simp [soundFormat, hfmt]
  rw [processFlvEsMessage, if_pos rfl, FlvMessage.processAudio]
  simp only [hheader, hraw, getAudio_eq hfmt]
  rfl

/-- What comes of an AVC NALU packet is decided behind `get_video`. -/
theorem process_nalu {fmt : UInt8} (hfmt : fmt &&& 0x0f = flvAvc) (c0 c1 c2 : UInt8)
    (es : List UInt8) :
    processFlvEsMessage context 9 timestamp (fmt :: flvAvcNalu :: c0 :: c1 :: c2 :: es) =
      FlvMessage.processNalu context timestamp
        ⟨(toUInt24 c0 c1 c2).toUInt64, (fmt &&& 0xf0) >>> 4, fmt &&& 0x0f, es⟩ := by
  have hheader : isAVCSequenceHeader.run'
      (ofData (fmt :: flvAvcNalu :: c0 :: c1 :: c2 :: es)) = .ok false := by
    rw [isAVCSequenceHeader, isTag_eq]
    simp [flvAvcNalu, flvAvcSequenceHeader]
  have hnalu : isAVCNALU.run' (ofData (fmt :: flvAvcNalu :: c0 :: c1 :: c2 :: es)) = .ok true := by
    rw [isAVCNALU, isTag_eq]
    simp [codecId, hfmt]
  rw [processFlvEsMessage, if_neg (by decide), if_pos rfl, FlvMessage.processVideo]
  simp only [hheader, hnalu, getVideo_eq]
  rfl

/-- What comes of an AVC sequence header is decided by its first sets. -/
theorem process_avcHeader {m : EsMessage} (hm : m.IsAvcHeader) :
    processFlvEsMessage context m.messageType timestamp m.body =
      ((getFirstSpsAndFirstPpsFromAvcSequenceHeader 0xFFFF 0xFFFF).run' (ofData m.body)).map
        fun header =>
          match header with
          | none => FlvMessage.refused context
          | some header => FlvMessage.accepted { context with
              videoInitEs := { codecInfo := delimiter ++ header.sps ++ delimiter ++ header.pps,
                               sps := header.sps, pps := header.pps }
              nalStartcodeLen := header.nalStartcodeLen } := by
  obtain ⟨htype, hheader⟩ := hm
  rw [htype, processFlvEsMessage, if_neg (by decide), if_pos rfl, FlvMessage.processVideo]
  simp only [hheader]
  cases (getFirstSpsAndFirstPpsFromAvcSequenceHeader 0xFFFF 0xFFFF).run' (ofData m.body) with
  | error fault => rfl
  | ok header => cases header <;> rfl

theorem isAvcHeader_encode (record : AvcRecord) (rest : List UInt8) :
    EsMessage.IsAvcHeader ⟨9, timestamp, record.encode ++ rest⟩ := by
  refine ⟨rfl, ?_⟩
  rw [isAVCSequenceHeader, AvcRecord.encode, AvcRecord.fixedPart]
  simp only [List.cons_append, List.nil_append]
  rw [isTag_eq]
  simp [codecId, record.fmt_and.2]

end Packets

/-- The frame a message puts behind those in the queue; the codec information stays. -/
structure Appends (context : MediaPublishEsContext) (r : Processed) (type : MediaEsType)
    (trackId : UInt8) (data : List UInt8) (pts dts : UInt64) (size : Nat) : Prop where
  ret : r.ret = true
  mediaEs : ∃ es, r.context.mediaEs = context.mediaEs ++ [es] ∧ es.type = type ∧
    es.trackId = trackId ∧ es.data = data ∧ es.pts = pts ∧ es.dts = dts ∧ es.size.toNat = size
  audioInitEs : r.context.audioInitEs = context.audioInitEs
  videoInitEs : r.context.videoInitEs = context.videoInitEs

/-- The body of an AVC NALU message. -/
def naluMessage (frameType : Fin 16) (cts : Fin (2 ^ 24)) (es : List UInt8) : List UInt8 :=
  UInt8.ofNat (frameType * 16 + 7) :: flvAvcNalu :: (Bytes.toBE 3 cts ++ es)

/-- Frames other than key frames wait for the first key frame. -/
def PassesGate (context : MediaPublishEsContext) (frameType : Fin 16) : Prop :=
  frameType.val = 1 ∨ context.firstVideoKeyFrameSent = true

section Frames

variable {context : MediaPublishEsContext} {timestamp : UInt64} {frameType : Fin 16}
variable {cts : Fin (2 ^ 24)} {es videoEs : List UInt8}

/-- The size of what was appended is one number. -/
theorem Appends.size_unique {r : Processed} {type : MediaEsType} {trackId : UInt8}
    {data : List UInt8} {pts dts : UInt64} {size size' : Nat}
    (h : Appends context r type trackId data pts dts size)
    (h' : Appends context r type trackId data pts dts size') : size = size' := by
  obtain ⟨es, hes, -, -, -, -, -, hsize⟩ := h.mediaEs
  obtain ⟨es', hes', -, -, -, -, -, hsize'⟩ := h'.mediaEs
  rw [hes] at hes'
  obtain rfl := List.singleton_inj.mp (List.append_cancel_left hes')
  exact hsize.symm.trans hsize'

/-- A raw packet is queued without its tag. -/
theorem process_raw_appends (context : MediaPublishEsContext) (timestamp : UInt64)
    (rate : Fin 4) (size type : Fin 2) (payload : List UInt8) :
    ∃ r, processFlvEsMessage context 8 timestamp (aacTag rate size type :: flvAacRaw :: payload) =
        .ok r ∧
      Appends context r .audio 2 payload (timestamp * 90) (timestamp * 90)
        (payload.length % 2 ^ 32) := by
  rw [process_raw context timestamp (aacTag_soundFormat rate size type)]
  exact ⟨_, rfl, rfl, ⟨_, rfl, rfl, rfl, rfl, rfl, rfl, UInt32.toNat_ofNat'⟩, rfl, rfl⟩

theorem toUInt24_toBE (cts : Fin (2 ^ 24)) :
    ∃ c0 c1 c2, Bytes.toBE 3 cts = [c0, c1, c2] ∧
      (toUInt24 c0 c1 c2).toUInt64 = UInt64.ofNat cts := by
  refine ⟨UInt8.ofNat (cts / 256 / 256), UInt8.ofNat (cts / 256), UInt8.ofNat cts, rfl, ?_⟩
  have hlt := cts.isLt
  apply UInt64.toNat_inj.mp
  rw [UInt32.toNat_toUInt64, toUInt24_toNat, UInt8.toNat_ofNat', UInt8.toNat_ofNat',
    UInt8.toNat_ofNat', UInt64.toNat_ofNat']
  omega

theorem frameType_eq_one :
    ∀ frameType : Fin 16, UInt8.ofNat frameType = 1 ↔ frameType.val = 1 := by
  decide

/-- A NALU message is handed on with its frame type and composition time. -/
theorem process_naluMessage (context : MediaPublishEsContext) (timestamp : UInt64)
    (frameType : Fin 16) (cts : Fin (2 ^ 24)) (es : List UInt8) :
    processFlvEsMessage context 9 timestamp (naluMessage frameType cts es) =
      FlvMessage.processNalu context timestamp
        ⟨UInt64.ofNat cts, UInt8.ofNat frameType, flvAvc, es⟩ := by
  obtain ⟨c0, c1, c2, hbytes, hcts⟩ := toUInt24_toBE cts
  obtain ⟨hframe, hcodec⟩ := AvcRecord.fmt_fields frameType
  rw [naluMessage, hbytes]
  simp only [List.cons_append, List.nil_append]
  rw [process_nalu context timestamp hcodec, hframe, hcodec, hcts]

/-- Behind the gate a frame is queued with what the conversion makes of its data. -/
theorem process_gate (hgate : PassesGate context frameType)
    (hes : replaceNaluStartCodeFromMp4ToTs 4 es = .ok videoEs) :
    ∃ r, processFlvEsMessage context 9 timestamp (naluMessage frameType cts es) = .ok r ∧
      Appends context r .video 1 videoEs (timestamp * 90 + UInt64.ofNat cts * 90)
        (timestamp * 90) (videoEs.length % 2 ^ 32) := by
  rw [process_naluMessage,
    processNalu_queued hes (hgate.imp_left (frameType_eq_one frameType).mpr)]
  exact ⟨_, rfl, rfl, ⟨_, rfl, rfl, rfl, rfl, rfl, rfl, UInt32.toNat_ofNat'⟩, rfl, rfl⟩

theorem process_no_gate (hgate : ¬ PassesGate context frameType)
    (hes : replaceNaluStartCodeFromMp4ToTs 4 es = .ok videoEs) :
    processFlvEsMessage context 9 timestamp (naluMessage frameType cts es) =
      .ok (FlvMessage.refused context) := by
  rw [process_naluMessage]
  apply processNalu_refused hes
  exact fun h => hgate (h.imp_left (frameType_eq_one frameType).mp)

/-- NAL units behind lengths of four bytes come behind start codes. -/
theorem replaceNalu_four {nals : List (List UInt8)} (hnals : ∀ nal ∈ nals, nal.length < 2 ^ 32) :
    replaceNaluStartCodeFromMp4ToTs 4 (mp4Nals 4 nals) = .ok (tsNals 4 nals) := by
  rw [@replaceNalu_succ 3 4 rfl, replaceFrom_nals (by decide) hnals, List.nil_append]

end Frames

/-- The frames of raw AAC packets and of NAL units behind their lengths, with the size taken
from the number of bytes by `sizeOf`. -/
structure FrameContent (sizeOf : Nat → Nat) : Prop where
  audio : ∀ (context : MediaPublishEsContext) (timestamp : UInt64) (rate : Fin 4)
    (size type : Fin 2) (payload : List UInt8),
    ∃ r, processFlvEsMessage context 8 timestamp (aacTag rate size type :: flvAacRaw :: payload) =
        .ok r ∧
      Appends context r .audio 2 payload (timestamp * 90) (timestamp * 90) (sizeOf payload.length)
  video : ∀ (context : MediaPublishEsContext) (timestamp : UInt64) (frameType : Fin 16)
    (cts : Fin (2 ^ 24)) (nals : List (List UInt8)), (∀ nal ∈ nals, nal.length < 2 ^ 32) →
    ∃ r, processFlvEsMessage context 9 timestamp
        (naluMessage frameType cts (mp4Nals 4 nals)) = .ok r ∧
      (PassesGate context frameType →
        Appends context r .video 1 (tsNals 4 nals) (timestamp * 90 + UInt64.ofNat cts * 90)
          (timestamp * 90) (sizeOf (tsNals 4 nals).length)) ∧
      (¬ PassesGate context frameType → r = FlvMessage.refused context)

/-- The size of a frame is kept in 32 bits. -/
theorem frameContent : FrameContent fun length => length % 2 ^ 32 where
  audio := process_raw_appends
  video := by
    intro context timestamp frameType cts nals hnals
    have hes := replaceNalu_four hnals
    by_cases hgate : PassesGate context frameType
    · obtain ⟨r, hr, happends⟩ := @process_gate context timestamp frameType cts _ _ hgate hes
      exact ⟨r, hr, fun _ => happends, fun h => absurd hgate h⟩
    · exact ⟨_, process_no_gate hgate hes, fun h => absurd h hgate, fun _ => rfl⟩

/-- A packet of 2^32 bytes is queued with a size of 0. -/
theorem not_frameContent_length : ¬ FrameContent fun length => length := by
  intro h
  obtain ⟨r, hr, hfull⟩ := h.audio {} 0 3 1 1 (List.replicate (2 ^ 32) 0)
  obtain ⟨r', hr', hcut⟩ := process_raw_appends {} 0 3 1 1 (List.replicate (2 ^ 32) 0)
  rw [hr] at hr'
  cases hr'
  have hsize := hfull.size_unique hcut
  rw [List.length_replicate] at hsize
  exact absurd hsize (by decide)

end Rtmp
