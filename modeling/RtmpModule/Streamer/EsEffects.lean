import RtmpModule.Media.CheckedRead
import RtmpModule.Streamer.FlvMessage

/-!
# The effect of one media message

`process_flv_es_message` leaves the context in one of six ways: it refuses the
message, keeps codec information of one of the two kinds, queues a frame of one of
the two types, or remembers an end of sequence. Everything that holds of each way
holds of every message: a message only adds to the context, frames go behind those
already queued, and the state of the publish stays.
-/

namespace Rtmp

open FlvUtil FlvUtil.Cursor ParsingFlv

/-- The arguments of `process_flv_es_message` besides the context. -/
structure EsMessage where
  messageType : UInt8
  timestamp : UInt64
  body : List UInt8

namespace EsMessage

variable (m : EsMessage)

/-- The FLV frame type in the first byte of a video body. -/
def frameType : UInt8 := ((m.body.headD 0) &&& 0xf0) >>> 4

/-- A message that `process_flv_es_message` takes for an AVC sequence header. -/
def IsAvcHeader : Prop :=
  m.messageType = 9 ∧ isAVCSequenceHeader.run' (ofData m.body) = .ok true

/-- The size of the NAL lengths that an AVC sequence header announces, at its tenth byte. -/
def lengthSize : UInt8 := (m.body.getD 9 0 &&& 0x03) + 1

end EsMessage

/-- What a message can do to a context. -/
inductive EsEffect (context : MediaPublishEsContext) (m : EsMessage) : Processed → Prop
  | refused : EsEffect context m (FlvMessage.refused context)
  | audioInit (init : AudioPublishEsInit) :
      EsEffect context m (FlvMessage.accepted { context with audioInitEs := init })
  | videoInit (init : VideoPublishEsInit) (size : UInt8) (hheader : m.IsAvcHeader) :
      EsEffect context m
        (FlvMessage.accepted { context with videoInitEs := init, nalStartcodeLen := size })
  | audioFrame (es : List UInt8) (dts : UInt64) :
      EsEffect context m (FlvMessage.accepted
        { FlvMessage.pushFrame context .audio es 1 dts dts with
          audioFrameNumber := context.audioFrameNumber + 1 })
  | videoFrame (es : List UInt8) (pts dts : UInt64)
      (hgate : m.frameType = 1 ∨ context.firstVideoKeyFrameSent = true) :
      EsEffect context m (FlvMessage.accepted
        { FlvMessage.pushFrame context .video es m.frameType pts dts with
          firstVideoKeyFrameSent := true
          videoFrameNumber := context.videoFrameNumber + 1 })
  | eos (eos : List UInt8) :
      EsEffect context m (FlvMessage.accepted { context with videoEos := eos })

/-- What happens to a context outside of `publish_to_streamer`: at most one frame is added,
and the state of the publish stays. -/
structure Prepares (context context' : MediaPublishEsContext) : Prop where
  publishState : context'.publishState = context.publishState
  client : context'.client = context.client
  frames : (context'.mediaEs = context.mediaEs ∧ context'.frameNumber = context.frameNumber) ∨
    ∃ es, context'.mediaEs = context.mediaEs ++ [es] ∧
      es.frameNumber = context.frameNumber + 1 ∧ context'.frameNumber = context.frameNumber + 1

/-- What a media message does to a context; it does not touch the end flag either. -/
structure Extends (context context' : MediaPublishEsContext) : Prop extends
    Prepares context context' where
  readyToEndOfStream : context'.readyToEndOfStream = context.readyToEndOfStream

theorem Extends.refl (context : MediaPublishEsContext) : Extends context context :=
  ⟨⟨rfl, rfl, .inl ⟨rfl, rfl⟩⟩, rfl⟩

/-- Only codec information, an end of sequence or counters change. -/
theorem Extends.of_no_frame {context context' : MediaPublishEsContext}
    (hstate : context'.publishState = context.publishState)
    (hclient : context'.client = context.client)
    (hready : context'.readyToEndOfStream = context.readyToEndOfStream)
    (hes : context'.mediaEs = context.mediaEs)
    (hnumber : context'.frameNumber = context.frameNumber) : Extends context context' :=
  ⟨⟨hstate, hclient, .inl ⟨hes, hnumber⟩⟩, hready⟩

theorem except_bind_ok {ε : Type*} {α β : Type} {x : Except ε α} {f : α → Except ε β} {b : β} :
    x >>= f = .ok b ↔ ∃ a, x = .ok a ∧ f a = .ok b := by
  cases x with
  | error e => simp [bind, Except.bind]
  | ok a => simp [bind, Except.bind]

section Effects

variable {context : MediaPublishEsContext} {m : EsMessage} {r : Processed}

theorem processAudio_effect
    (h : FlvMessage.processAudio context m.timestamp m.body = .ok r) : EsEffect context m r := by
  simp only [FlvMessage.processAudio, except_bind_ok] at h
  obtain ⟨isHeader, -, h⟩ := h
  split at h
  · obtain ⟨header, -, h⟩ := except_bind_ok.mp h
    split at h
    · cases h
      exact .refused
    · cases h
      exact .audioInit _
  · obtain ⟨isRaw, -, h⟩ := except_bind_ok.mp h
    split at h
    · obtain ⟨audioEs, -, h⟩ := except_bind_ok.mp h
      split at h
      · cases h
        exact .refused
      · cases h
        exact .audioFrame _ _
    · cases h
      exact .refused

/-- The gate lets a key frame through and sets the flag, which any other frame needs. -/
theorem processNalu_queued {timestamp : UInt64} {frame : VideoFrame} {videoEs : List UInt8}
    (hes : replaceNaluStartCodeFromMp4ToTs 4 frame.videoEs = .ok videoEs)
    (hgate : frame.keyframe = 1 ∨ context.firstVideoKeyFrameSent = true) :
    FlvMessage.processNalu context timestamp frame =
      .ok (FlvMessage.accepted
        { FlvMessage.pushFrame context .video videoEs frame.keyframe
            (timestamp * 90 + frame.cts * 90) (timestamp * 90) with
          firstVideoKeyFrameSent := true
          videoFrameNumber := context.videoFrameNumber + 1 }) := by
  have hpass : ¬ (frame.keyframe ≠ 1 ∧ context.firstVideoKeyFrameSent = false) := by
    rintro ⟨hne, hflag⟩
    rw [hgate.resolve_left hne] at hflag
    cases hflag
  have hcontext : (if frame.keyframe ≠ 1 then context
      else { context with firstVideoKeyFrameSent := true }) =
        { context with firstVideoKeyFrameSent := true } := by
    by_cases hone : frame.keyframe = 1
    · rw [if_neg (not_not_intro hone)]
    · rw [if_pos hone, ← hgate.resolve_left hone]
  rw [FlvMessage.processNalu, hes]
  refine (if_neg hpass).trans ?_
  rw [hcontext]
  rfl

theorem processNalu_refused {timestamp : UInt64} {frame : VideoFrame} {videoEs : List UInt8}
    (hes : replaceNaluStartCodeFromMp4ToTs 4 frame.videoEs = .ok videoEs)
    (hgate : ¬ (frame.keyframe = 1 ∨ context.firstVideoKeyFrameSent = true)) :
    FlvMessage.processNalu context timestamp frame = .ok (FlvMessage.refused context) := by
  obtain ⟨hne, hflag⟩ := not_or.mp hgate
  have hrefuse : frame.keyframe ≠ 1 ∧ context.firstVideoKeyFrameSent = false :=
    ⟨hne, Bool.eq_false_iff.mpr hflag⟩
  rw [FlvMessage.processNalu, hes]
  exact if_pos hrefuse

theorem processNalu_effect {frame : VideoFrame} (hkey : frame.keyframe = m.frameType)
    (h : FlvMessage.processNalu context m.timestamp frame = .ok r) : EsEffect context m r := by
  obtain ⟨videoEs, hes, -⟩ := except_bind_ok.mp h
  by_cases hgate : frame.keyframe = 1 ∨ context.firstVideoKeyFrameSent = true
  · rw [processNalu_queued hes hgate] at h
    cases h
    rw [hkey] at hgate ⊢
    exact .videoFrame _ _ _ hgate
  · rw [processNalu_refused hes hgate] at h
    cases h
    exact .refused

/-- `get_video` splits the tag and the composition time off. -/
theorem getVideo_eq (fmt c0 c1 c2 : UInt8) (es : List UInt8) :
    getVideo.run' (ofData (fmt :: flvAvcNalu :: c0 :: c1 :: c2 :: es)) =
      .ok (some ⟨(toUInt24 c0 c1 c2).toUInt64, (fmt &&& 0xf0) >>> 4, fmt &&& 0x0f, es⟩) := by
  have hnalu : ¬ (flvAvcNalu ≠ 1) := fun h => h rfl
  apply run'_ok.mpr
  refine ⟨between (fmt :: flvAvcNalu :: c0 :: c1 :: c2 :: es) [], ?_⟩
  rw [getVideo, ofData_eq]
  simp only [read_bind, read_get, between_not_lt_one, between_not_lt_three, if_false,
    read1byte_between, read3byte_between, hnalu, readNbyte_len_between, read_pure]
  rfl

theorem getVideo_some {body : List UInt8} {frame : VideoFrame}
    (h : getVideo.run' (ofData body) = .ok (some frame)) :
    ∃ fmt c0 c1 c2 es, body = fmt :: flvAvcNalu :: c0 :: c1 :: c2 :: es := by
  obtain ⟨c, h⟩ := run'_ok.mp h
  rw [ofData_eq] at h
  match body with
  | [] => cases h
  | [_] => cases h
  | fmt :: avcType :: rest =>
      simp only [getVideo, read_bind, read_get, between_not_lt_one, if_false,
        read1byte_between] at h
      split at h
      · cases h
      · next hnalu =>
        simp only [read_bind, read_get] at h
        split at h
        · cases h
        · next hlen =>
          obtain ⟨c0, c1, c2, es, rfl⟩ := three_le_length (Nat.le_of_not_lt hlen)
          exact ⟨fmt, c0, c1, c2, es, by rw [Decidable.not_not.mp hnalu]; rfl⟩

/-- A video body starts with the frame type `get_video` reports. -/
theorem getVideo_keyframe {body : List UInt8} {frame : VideoFrame}
    (h : getVideo.run' (ofData body) = .ok (some frame)) :
    frame.keyframe = ((body.headD 0) &&& 0xf0) >>> 4 := by
  obtain ⟨fmt, c0, c1, c2, es, rfl⟩ := getVideo_some h
  rw [getVideo_eq] at h
  cases h
  rfl

theorem processVideo_effect (htype : m.messageType = 9)
    (h : FlvMessage.processVideo context m.timestamp m.body = .ok r) : EsEffect context m r := by
  simp only [FlvMessage.processVideo, except_bind_ok] at h
  obtain ⟨isHeader, hheader, h⟩ := h
  split at h
  · next htrue =>
    obtain ⟨header, -, h⟩ := except_bind_ok.mp h
    split at h
    · cases h
      exact .refused
    · cases h
      exact .videoInit _ _ ⟨htype, by rw [hheader, htrue]⟩
  · obtain ⟨isNalu, -, h⟩ := except_bind_ok.mp h
    split at h
    · obtain ⟨frame, hframe, h⟩ := except_bind_ok.mp h
      split at h
      · cases h
        exact .refused
      · exact processNalu_effect (getVideo_keyframe hframe) h
    · obtain ⟨isEos, -, h⟩ := except_bind_ok.mp h
      split at h
      · obtain ⟨eos, -, h⟩ := except_bind_ok.mp h
        cases h
        exact .eos _
      · cases h
        exact .refused

/-- Whatever a message holds, its effect is one of the six. -/
theorem processFlvEsMessage_effect
    (h : processFlvEsMessage context m.messageType m.timestamp m.body = .ok r) :
    EsEffect context m r := by
  rw [processFlvEsMessage] at h
  split at h
  · exact processAudio_effect h
  · split at h
    · next htype => exact processVideo_effect htype h
    · cases h
      exact .refused

/-- Whatever a media message holds, it only extends the context. -/
theorem EsEffect.extends (h : EsEffect context m r) : Extends context r.context := by
  cases h with
  | refused => exact .refl context
  | audioFrame es dts => exact ⟨⟨rfl, rfl, .inr ⟨_, rfl, rfl, rfl⟩⟩, rfl⟩
  | videoFrame es pts dts hgate => exact ⟨⟨rfl, rfl, .inr ⟨_, rfl, rfl, rfl⟩⟩, rfl⟩
  | _ => exact .of_no_frame rfl rfl rfl rfl rfl

theorem processFlvEsMessage_extends
    (h : processFlvEsMessage context m.messageType m.timestamp m.body = .ok r) :
    Extends context r.context :=
  (processFlvEsMessage_effect h).extends

end Effects

/-- A call that returns has refused the message and left the context as it was, or accepted
it. -/
theorem processFlvEsMessage_atomic (context : MediaPublishEsContext) (messageType : UInt8)
    (timestamp : UInt64) (buffer : List UInt8) (r : Processed)
    (h : processFlvEsMessage context messageType timestamp buffer = .ok r) :
    (r.ret = false ∧ r.ec = 1 ∧ r.context = context) ∨ (r.ret = true ∧ r.ec = 0) := by
  have heffect : EsEffect context ⟨messageType, timestamp, buffer⟩ r :=
    processFlvEsMessage_effect h
  cases heffect with
  | refused => exact .inl ⟨rfl, rfl, rfl⟩
  | _ => exact .inr ⟨rfl, rfl⟩

/-- A sequence header that is cut off behind its tag. -/
theorem processFlvEsMessage_atomic_short :
    ((FlvMessage.refused {}).ret = false ∧ (FlvMessage.refused {}).ec = 1 ∧
        (FlvMessage.refused {}).context = {}) ∨
      ((FlvMessage.refused {}).ret = true ∧ (FlvMessage.refused {}).ec = 0) :=
  processFlvEsMessage_atomic {} 8 0 [0xAF, 0x00] (FlvMessage.refused {}) rfl

end Rtmp
