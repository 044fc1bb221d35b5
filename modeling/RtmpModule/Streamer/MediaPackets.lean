import RtmpModule.Streamer.BodySafety
import RtmpModule.Streamer.CodecInfo

/-!
# The packets of a client

What an encoder hands to its client, as FLV bodies, and what `process_flv_es_message`
is to make of each: an access unit for a raw packet of AAC or the NAL units of AVC,
codec information for a header, and the end of the video. Every packet is processed
inside its body, in any context.
-/

namespace Rtmp

open FlvUtil FlvUtil.Cursor ParsingFlv

/-- A piece of media with its times in 90000ths of a second. -/
structure AccessUnit where
  type : MediaEsType
  pts : UInt64
  dts : UInt64
  data : List UInt8
  deriving DecidableEq, Repr

/-- What an encoder hands to its client. -/
inductive MediaPacket where
  | aacHeader (rate : Fin 4) (size type : Fin 2) (config : List UInt8)
  | aacRaw (rate : Fin 4) (size type : Fin 2) (payload : List UInt8)
  | avcHeader (record : AvcRecord)
  | avcNalus (frameType : Fin 16) (cts : Fin (2 ^ 24)) (nals : List (List UInt8))
  | avcEnd (frameType : Fin 16) (cts : Fin (2 ^ 24))

namespace MediaPacket

/-- The FLV body of a packet. -/
def body : MediaPacket → List UInt8
  | aacHeader rate size type config => aacTag rate size type :: flvAacSequenceHeader :: config
  | aacRaw rate size type payload => aacTag rate size type :: flvAacRaw :: payload
  | avcHeader record => record.encode
  | avcNalus frameType cts nals => naluMessage frameType cts (mp4Nals 4 nals)
  | avcEnd frameType cts => UInt8.ofNat (frameType * 16 + 7) :: flvAvcEos :: Bytes.toBE 3 cts

/-- The message type a packet is sent with. -/
def messageType : MediaPacket → UInt8
  | aacHeader .. => 8
  | aacRaw .. => 8
  | _ => 9

end MediaPacket

/-- A packet with its time in milliseconds, small enough for one message. -/
structure TimedPacket where
  time : UInt64
  packet : MediaPacket
  fits : packet.body.length < 2 ^ 24

namespace TimedPacket

variable (t : TimedPacket)

/-- The access unit a packet holds, unless it is a header or an end. -/
def unit : Option AccessUnit :=
  match t.packet with
  | .aacRaw _ _ _ payload => some ⟨.audio, t.time * 90, t.time * 90, payload⟩
  | .avcNalus _ cts nals =>
      some ⟨.video, (t.time + UInt64.ofNat cts) * 90, t.time * 90, tsNals 4 nals⟩
  | _ => none

def isKeyFrame : Bool :=
  match t.packet with
  | .avcNalus frameType _ _ => frameType.val = 1
  | _ => false

def isEnd : Bool :=
  match t.packet with
  | .avcEnd .. => true
  | _ => false

/-- An AAC sequence header whose configuration is decoded. -/
def HasAudioConfig : Prop :=
  ∃ rate size type config, t.packet = .aacHeader rate size type config ∧
    ¬ ExplicitInFiveBytes config ∧ (configFields.run' (Bits.ofBytes config)).isSome

/-- An AVC sequence header with one SPS, and a PPS behind it. -/
def HasVideoConfig : Prop :=
  ∃ record sps pps more, t.packet = .avcHeader record ∧ record.sps = [sps] ∧
    record.pps = pps :: more

/-- Video is of use from its first key frame on, which `seen` says to be in front. -/
def usableUnit (seen : Bool) : Option AccessUnit :=
  t.unit.filter fun unit => unit.type = .audio || t.isKeyFrame || seen

variable {t}

theorem unit_length {unit : AccessUnit} (h : t.unit = some unit) :
    unit.data.length < 2 ^ 24 := by
  obtain ⟨time, packet, fits⟩ := t
  cases packet with
  | aacRaw rate size type payload =>
      cases h
      simp only [MediaPacket.body, List.length_cons] at fits
      change payload.length < 2 ^ 24
      omega
  | avcNalus frameType cts nals =>
      cases h
      simp only [MediaPacket.body, naluMessage, List.length_cons, List.length_append] at fits
      have hlength : (tsNals 4 nals).length = (mp4Nals 4 nals).length := length_tsNals 3 nals
      change (tsNals 4 nals).length < 2 ^ 24
      omega
  | _ => cases h

theorem length_le_mp4Nals {nals : List (List UInt8)} {nal : List UInt8} (h : nal ∈ nals) :
    nal.length ≤ (mp4Nals 4 nals).length := by
  obtain ⟨before, after, rfl⟩ := List.append_of_mem h
  rw [mp4Nals, List.flatMap_append, List.flatMap_cons]
  simp only [List.length_append]
  omega

/-- No NAL unit of a message is as long as its length field allows. -/
theorem nals_length {frameType : Fin 16} {cts : Fin (2 ^ 24)} {nals : List (List UInt8)}
    (h : t.packet = .avcNalus frameType cts nals) : ∀ nal ∈ nals, nal.length < 2 ^ 32 := by
  intro nal hnal
  have hle := length_le_mp4Nals hnal
  have hfits := t.fits
  rw [h, MediaPacket.body, naluMessage] at hfits
  simp only [List.length_cons, List.length_append] at hfits
  omega

/-- A key frame is of use. -/
theorem isKeyFrame_of_usableUnit {seen : Bool} (h : t.usableUnit seen = none) :
    t.isKeyFrame = false := by
  obtain ⟨time, packet, fits⟩ := t
  cases packet with
  | avcNalus frameType cts nals =>
      by_contra hkey
      rw [Bool.not_eq_false] at hkey
      rw [usableUnit, hkey] at h
      simp [unit] at h
  | _ => rfl

end TimedPacket

/-- What a packet does to a context. -/
inductive PacketEffect (context : MediaPublishEsContext) (t : TimedPacket) : Processed → Prop
  | refused (haudio : ¬ t.HasAudioConfig) (hvideo : ¬ t.HasVideoConfig)
      (hunit : t.usableUnit context.firstVideoKeyFrameSent = none) :
      PacketEffect context t (FlvMessage.refused context)
  | audioInit (init : AudioPublishEsInit) (hinfo : init.codecInfo ≠ [])
      (hvideo : ¬ t.HasVideoConfig)
      (hunit : t.usableUnit context.firstVideoKeyFrameSent = none) :
      PacketEffect context t (FlvMessage.accepted { context with audioInitEs := init })
  | videoInit (init : VideoPublishEsInit) (size : UInt8) (hinfo : init.codecInfo ≠ [])
      (haudio : ¬ t.HasAudioConfig)
      (hunit : t.usableUnit context.firstVideoKeyFrameSent = none) :
      PacketEffect context t
        (FlvMessage.accepted { context with videoInitEs := init, nalStartcodeLen := size })
  | audioFrame (unit : AccessUnit) (haudio : ¬ t.HasAudioConfig) (hvideo : ¬ t.HasVideoConfig)
      (htype : unit.type = .audio) (hkey : t.isKeyFrame = false)
      (hunit : t.usableUnit context.firstVideoKeyFrameSent = some unit) :
      PacketEffect context t (FlvMessage.accepted
        { FlvMessage.pushFrame context .audio unit.data 1 unit.pts unit.dts with
          audioFrameNumber := context.audioFrameNumber + 1 })
  | videoFrame (unit : AccessUnit) (haudio : ¬ t.HasAudioConfig) (hvideo : ¬ t.HasVideoConfig)
      (htype : unit.type = .video)
      (hgate : t.isKeyFrame = true ∨ context.firstVideoKeyFrameSent = true)
      (hunit : t.usableUnit context.firstVideoKeyFrameSent = some unit) :
      PacketEffect context t (FlvMessage.accepted
        { FlvMessage.pushFrame context .video unit.data 1 unit.pts unit.dts with
          firstVideoKeyFrameSent := true
          videoFrameNumber := context.videoFrameNumber + 1 })
  | eos (eos : List UInt8) (haudio : ¬ t.HasAudioConfig) (hvideo : ¬ t.HasVideoConfig)
      (hend : t.isEnd = true) (hunit : t.usableUnit context.firstVideoKeyFrameSent = none) :
      PacketEffect context t (FlvMessage.accepted { context with videoEos := eos })

section Packets

variable (context : MediaPublishEsContext) {t : TimedPacket}

/-- A header is kept when its configuration is decoded. -/
theorem process_aacHeader (time : UInt64) (rate : Fin 4) (size type : Fin 2)
    (config : List UInt8)
    (fits : (MediaPacket.aacHeader rate size type config).body.length < 2 ^ 24) :
    ∃ r, processFlvEsMessage context 8 time
        (aacTag rate size type :: flvAacSequenceHeader :: config) = .ok r ∧
      PacketEffect context ⟨time, .aacHeader rate size type config, fits⟩ r := by
  have htag := aacTag_soundFormat rate size type
  have hprocess : processFlvEsMessage context 8 time
      (aacTag rate size type :: flvAacSequenceHeader :: config) =
        FlvPacket.process context time (aacTag rate size type :: flvAacSequenceHeader :: config)
          (some .aacSequenceHeader) := by
    rw [processFlvEsMessage_classify, classify_audio, if_pos ⟨htag, rfl⟩]
    rfl
  rw [hprocess, FlvPacket.process, getAacHeader_eq htag]
  by_cases hfive : ExplicitInFiveBytes config
  · rw [if_pos hfive]
    refine ⟨_, rfl, .refused ?_ (by rintro ⟨_, _, _, _, ⟨⟩, _⟩) rfl⟩
    rintro ⟨_, _, _, config', ⟨⟩, hnot, -⟩
    exact hnot hfive
  · rw [if_neg hfive]
    cases hfields : configFields.run' (Bits.ofBytes config) with
    | none =>
        refine ⟨_, rfl, .refused ?_ (by rintro ⟨_, _, _, _, ⟨⟩, _⟩) rfl⟩
        rintro ⟨_, _, _, config', ⟨⟩, -, hsome⟩
        rw [hfields] at hsome
        cases hsome
    | some fields =>
        exact ⟨_, rfl, .audioInit _ (by simp [Bytes.toBE, Bytes.toLE])
          (by rintro ⟨_, _, _, _, ⟨⟩, _⟩) rfl⟩

/-- So is one of AVC, when its first sets are found where they are looked for. -/
theorem process_avcRecord (time : UInt64) (record : AvcRecord)
    (fits : (MediaPacket.avcHeader record).body.length < 2 ^ 24) :
    ∃ r, processFlvEsMessage context 9 time record.encode = .ok r ∧
      PacketEffect context ⟨time, .avcHeader record, fits⟩ r := by
  have haudio : ¬ TimedPacket.HasAudioConfig ⟨time, .avcHeader record, fits⟩ := by
    rintro ⟨_, _, _, _, ⟨⟩, _⟩
  have hlong : 2 ≤ record.encode.length := by
    simp [AvcRecord.encode, AvcRecord.fixedPart]
  have hheader := isAvcHeader_encode time record []
  rw [List.append_nil] at hheader
  have hprocess := process_avcHeader context time hheader
  obtain ⟨header, c, hrun, -⟩ := FlvPacket.parsedInside hlong .avcSequenceHeader
  have hok : (getFirstSpsAndFirstPpsFromAvcSequenceHeader 0xFFFF 0xFFFF).run'
      (ofData record.encode) = .ok header := run'_ok.mpr ⟨c, hrun⟩
  rw [hok] at hprocess
  refine ⟨_, hprocess, ?_⟩
  cases header with
  | some header =>
      exact .videoInit _ _ (by simp [delimiter]) haudio rfl
  | none =>
      refine .refused haudio ?_ rfl
      rintro ⟨_, sps, pps, more, ⟨⟩, hsps, hpps⟩
      have htaken : FirstSetsTaken record [] sps pps := by
        refine (firstSetsTaken_iff record [] sps pps [] more hsps hpps).mpr ?_
        rw [FirstPpsInPlace, hsps]
        trivial
      obtain ⟨size, hfound⟩ := htaken.found
      rw [List.append_nil, hok] at hfound
      cases hfound

/-- The end of a sequence is kept whole, with its tag. -/
theorem process_avcEnd (time : UInt64) (frameType : Fin 16) (cts : Fin (2 ^ 24)) :
    processFlvEsMessage context 9 time (MediaPacket.avcEnd frameType cts).body =
      .ok (FlvMessage.accepted
        { context with videoEos := (MediaPacket.avcEnd frameType cts).body }) := by
  obtain ⟨-, hcodec⟩ := AvcRecord.fmt_fields frameType
  have hheader : ¬ (flvAvcEos = flvAvcSequenceHeader) := by decide
  have hnalu : ¬ (flvAvcEos = flvAvcNalu) := by decide
  have heos : getAvcEndOfSequence.run' (ofData (MediaPacket.avcEnd frameType cts).body) =
      .ok (MediaPacket.avcEnd frameType cts).body := by
    apply run'_ok.mpr
    refine ⟨between ([] ++ (MediaPacket.avcEnd frameType cts).body) [], ?_⟩
    rw [getAvcEndOfSequence, ofData_eq]
    simp only [read_bind, read_get]
    exact readNbyte_len_between
  have hprocess : FlvPacket.process context time (MediaPacket.avcEnd frameType cts).body
      (some .avcEndOfSequence) = .ok (FlvMessage.accepted
        { context with videoEos := (MediaPacket.avcEnd frameType cts).body }) := by
    rw [FlvPacket.process, heos]
    rfl
  rw [processFlvEsMessage_classify, MediaPacket.body, classify_video]
  simp only [hcodec, hheader, hnalu, and_false, if_false, true_and, if_true]
  exact hprocess

/-- NAL units are converted in place, and wait for a key frame. -/
theorem process_avcNalus (time : UInt64) (frameType : Fin 16) (cts : Fin (2 ^ 24))
    (nals : List (List UInt8))
    (fits : (MediaPacket.avcNalus frameType cts nals).body.length < 2 ^ 24) :
    ∃ r, processFlvEsMessage context 9 time (naluMessage frameType cts (mp4Nals 4 nals)) = .ok r ∧
      PacketEffect context ⟨time, .avcNalus frameType cts nals, fits⟩ r := by
  have hes := replaceNalu_four (@TimedPacket.nals_length ⟨time, _, fits⟩ _ _ _ rfl)
  have haudio : ¬ TimedPacket.HasAudioConfig ⟨time, .avcNalus frameType cts nals, fits⟩ := by
    rintro ⟨_, _, _, _, ⟨⟩, _⟩
  have hvideo : ¬ TimedPacket.HasVideoConfig ⟨time, .avcNalus frameType cts nals, fits⟩ := by
    rintro ⟨_, _, _, _, ⟨⟩, _⟩
  rw [process_naluMessage]
  by_cases hgate : frameType.val = 1 ∨ context.firstVideoKeyFrameSent = true
  · rw [processNalu_queued hes (hgate.imp_left (frameType_eq_one frameType).mpr)]
    refine ⟨_, rfl, ?_⟩
    have hunit : TimedPacket.usableUnit ⟨time, .avcNalus frameType cts nals, fits⟩
        context.firstVideoKeyFrameSent =
          some ⟨.video, time * 90 + UInt64.ofNat cts * 90, time * 90, tsNals 4 nals⟩ := by
      rw [TimedPacket.usableUnit, ← UInt64.add_mul]
      refine Option.filter_eq_some_iff.mpr ⟨rfl, ?_⟩
      simpa [TimedPacket.isKeyFrame] using hgate
    refine .videoFrame _ haudio hvideo rfl (hgate.imp_left ?_) hunit
    intro hkey
    exact decide_eq_true hkey
  · rw [processNalu_refused hes fun h => hgate (h.imp_left (frameType_eq_one frameType).mp)]
    refine ⟨_, rfl, .refused haudio hvideo ?_⟩
    obtain ⟨hother, hunseen⟩ := not_or.mp hgate
    simp [TimedPacket.usableUnit, TimedPacket.unit, TimedPacket.isKeyFrame, hother, hunseen]

/-- Every packet is processed, in any context. -/
theorem process_packet (t : TimedPacket) :
    ∃ r, processFlvEsMessage context t.packet.messageType t.time t.packet.body = .ok r ∧
      PacketEffect context t r := by
  obtain ⟨time, packet, fits⟩ := t
  cases packet with
  | aacHeader rate size type config =>
      exact process_aacHeader context time rate size type config fits
  | aacRaw rate size type payload =>
      have hprocess := process_raw context time (aacTag_soundFormat rate size type) payload
      refine ⟨_, hprocess, .audioFrame ⟨.audio, time * 90, time * 90, payload⟩ ?_ ?_ rfl rfl rfl⟩
      · rintro ⟨_, _, _, _, ⟨⟩, _⟩
      · rintro ⟨_, _, _, _, ⟨⟩, _⟩
  | avcHeader record => exact process_avcRecord context time record fits
  | avcNalus frameType cts nals => exact process_avcNalus context time frameType cts nals fits
  | avcEnd frameType cts =>
      refine ⟨_, process_avcEnd context time frameType cts, .eos _ ?_ ?_ rfl rfl⟩
      · rintro ⟨_, _, _, _, ⟨⟩, _⟩
      · rintro ⟨_, _, _, _, ⟨⟩, _⟩

end Packets

end Rtmp
