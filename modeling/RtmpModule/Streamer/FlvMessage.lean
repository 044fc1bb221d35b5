import RtmpModule.Protocol.AMF0Serializer
import RtmpModule.Media.ParsingFlv
import RtmpModule.Media.NalStartCodes

/-!
# From media messages to elementary-stream frames

`process_flv_es_message` takes the body of one audio or video message apart. A
sequence header is kept as codec information in the context of the connection, a
packet becomes a numbered frame behind those still waiting to be published, and an
AVC end-of-sequence packet is remembered. Whatever else arrives is refused. The
bodies come from the network: the accesses that are not checked can leave the
buffer, and the run ends there.
-/

namespace Rtmp

open FlvUtil ParsingFlv

/-- `media_es_type_t`. -/
inductive MediaEsType where
  | video
  | audio
  deriving DecidableEq, Repr

/-- `MediaPublishEs`; `data` is what the buffer holds. -/
structure MediaPublishEs where
  type : MediaEsType := .video
  frameNumber : UInt64 := 0
  trackId : UInt8 := 2
  isKeyFrame : UInt8 := 1
  pts : UInt64 := 0
  dts : UInt64 := 0
  size : UInt32 := 0
  data : List UInt8
  deriving DecidableEq, Repr

structure AudioPublishEsInit where
  codecInfo : List UInt8 := []
  sampleRate : Option UInt32 := none
  channelCount : Option UInt32 := none
  deriving DecidableEq, Repr

structure VideoPublishEsInit where
  codecInfo : List UInt8 := []
  sps : List UInt8 := []
  pps : List UInt8 := []
  deriving DecidableEq, Repr

/-- `publish_state_t`; its last value is called `end` in the source. -/
inductive PublishState where
  | begin
  | init
  | publishing
  | ended
  deriving DecidableEq, Repr

/-- The numbers behind the names of `publish_state_t`. -/
def PublishState.rank : PublishState → Nat
  | begin => 0
  | init => 1
  | publishing => 2
  | ended => 3

/-- The part of `MediaPublishEsContext` that publishing works on; `client` says whether
`client_` points to an HTTP client. -/
structure MediaPublishEsContext where
  publishState : PublishState := .begin
  publishId : List UInt8 := []
  publishEsAddrPort : List UInt8 := []
  audioInitEs : AudioPublishEsInit := {}
  videoInitEs : VideoPublishEsInit := {}
  videoEos : List UInt8 := []
  nalStartcodeLen : UInt8 := 4
  provider : List UInt8 := ascii ['b', 'r', 'o', 'k', 'e', 'r', 'i', 'n', 'g']
  streamName : List UInt8 := []
  recording : UInt8 := 1
  streamType : List UInt8 := []
  clientId : List UInt8 := []
  streamId : UInt32 := 0
  readyToEndOfStream : Bool := false
  mediaEs : List MediaPublishEs := []
  frameNumber : UInt64 := 0
  audioFrameNumber : UInt64 := 0
  videoFrameNumber : UInt64 := 0
  firstVideoKeyFrameSent : Bool := false
  client : Bool := false
  deriving DecidableEq

namespace MediaPublishEsContext

/-- `ready_to_send`. -/
def readyToSend (context : MediaPublishEsContext) : Bool :=
  !context.audioInitEs.codecInfo.isEmpty && !context.videoInitEs.codecInfo.isEmpty &&
    decide (1 ≤ context.videoFrameNumber) && decide (1 ≤ context.audioFrameNumber)

theorem readyToSend_iff (context : MediaPublishEsContext) :
    context.readyToSend = true ↔
      context.audioInitEs.codecInfo ≠ [] ∧ context.videoInitEs.codecInfo ≠ [] ∧
        1 ≤ context.videoFrameNumber ∧ 1 ≤ context.audioFrameNumber := by
  simp [readyToSend, and_assoc]

/-- `end_of_video_es`. -/
def endOfVideoEs (context : MediaPublishEsContext) : Bool := !context.videoEos.isEmpty

end MediaPublishEsContext

/-- `make_media_es`, which is given the key frame flag and leaves its default in place. -/
def makeMediaEs (type : MediaEsType) (data : List UInt8) (frameNumber : UInt64)
    (_isKeyFrame : UInt8) (pts dts : UInt64) (size : UInt32) : MediaPublishEs where
  type := type
  frameNumber := frameNumber
  trackId :=
    match type with
    | .video => 1
    | .audio => 2
  pts := pts
  dts := dts
  size := size
  data := data

/-- The return value, `ec` and the context `process_flv_es_message` leaves behind. -/
structure Processed where
  ret : Bool
  ec : Int
  context : MediaPublishEsContext

namespace FlvMessage

variable (context : MediaPublishEsContext) (timestamp : UInt64) (buffer : List UInt8)

def refused : Processed := { ret := false, ec := 1, context }

def accepted (context : MediaPublishEsContext) : Processed := { ret := true, ec := 0, context }

/-- `media_es_.push_back` and the counter of all frames. -/
def pushFrame (type : MediaEsType) (es : List UInt8) (key : UInt8) (pts dts : UInt64) :
    MediaPublishEsContext :=
  { context with
    mediaEs := context.mediaEs ++
      [makeMediaEs type es (context.frameNumber + 1) key pts dts (UInt32.ofNat es.length)]
    frameNumber := context.frameNumber + 1 }

/-- The branch of `FLV_AUDIO_ES`. -/
def processAudio : Except MemoryFault Processed := do
  let bf := Cursor.ofData buffer
  if ← isAACSequenceHeader.run' bf then
    match ← getAacHeader.run' bf with
    | none => return refused context
    | some header =>
        let sv := Bytes.toBE 4 header.sampleRate.toNat
        let cv := Bytes.toBE 4 header.channelCount.toNat
        return accepted { context with
          audioInitEs := { codecInfo := sv ++ cv, sampleRate := header.sampleRate,
                           channelCount := header.channelCount } }
  else if ← isAACRaw.run' bf then
    match ← getAudio.run' bf with
    | none => return refused context
    | some audioEs =>
        let dts := timestamp * 90
        let context := pushFrame context .audio audioEs 1 dts dts
        return accepted { context with audioFrameNumber := context.audioFrameNumber + 1 }
  else return refused context

/-- An AVC NALU packet; the size of the NAL lengths is taken to be 4. -/
def processNalu (frame : VideoFrame) : Except MemoryFault Processed := do
  let videoEs ← replaceNaluStartCodeFromMp4ToTs 4 frame.videoEs
  let dts := timestamp * 90
  let pts := dts + frame.cts * 90
  let key := frame.keyframe
  if key ≠ 1 ∧ context.firstVideoKeyFrameSent = false then return refused context
  let context :=
    if key ≠ 1 then context else { context with firstVideoKeyFrameSent := true }
  let context := pushFrame context .video videoEs key pts dts
  return accepted { context with videoFrameNumber := context.videoFrameNumber + 1 }

/-- The branch of `FLV_VIDEO_ES`. The last test is not given the length of the body. -/
def processVideo : Except MemoryFault Processed := do
  let bf := Cursor.ofData buffer
  if ← isAVCSequenceHeader.run' bf then
    match ← (getFirstSpsAndFirstPpsFromAvcSequenceHeader 0xFFFF 0xFFFF).run' bf with
    | none => return refused context
    | some header =>
        let d := [0x00, 0x00, 0x00, 0x01]
        return accepted { context with
          videoInitEs := { codecInfo := d ++ header.sps ++ d ++ header.pps, sps := header.sps,
                           pps := header.pps }
          nalStartcodeLen := header.nalStartcodeLen }
  else if ← isAVCNALU.run' bf then
    match ← getVideo.run' bf with
    | none => return refused context
    | some frame => processNalu context timestamp frame
  else if ← isAvcEndOfSequence.run' bf then
    let eos ← getAvcEndOfSequence.run' bf
    return accepted { context with videoEos := eos }
  else return refused context

end FlvMessage

open FlvMessage in
/-- `process_flv_es_message`; the message length is only logged. -/
def processFlvEsMessage (context : MediaPublishEsContext) (messageType : UInt8)
    (timestamp : UInt64) (buffer : List UInt8) : Except MemoryFault Processed :=
  if messageType = 8 then processAudio context timestamp buffer
  else if messageType = 9 then processVideo context timestamp buffer
  else .ok (refused context)

end Rtmp
