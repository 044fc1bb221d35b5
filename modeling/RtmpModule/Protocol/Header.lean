import RtmpModule.Common.StreamUtil

/-!
# Chunk headers and their encoder

`RtmpHeader` carries every field the header parser, the payload parser and the
writers exchange; the message id, which only labels log lines, is left out.
The encoder is `RtmpHeader::write_payload`: a basic header chosen by three id
ranges, then the fields of the format. It knows neither the ids above 6559 nor
the extended timestamp.
-/

namespace Rtmp

/-- `RtmpHeaderFormat::format_type`. -/
inductive FormatType where
  | full
  | sameStream
  | sameLengthAndStream
  | continuation
  | unknown
  deriving DecidableEq, Repr

namespace FormatType

def code : FormatType → UInt8
  | full => 0
  | sameStream => 1
  | sameLengthAndStream => 2
  | continuation => 3
  | unknown => 0xFF

def getType (value : UInt8) : FormatType :=
  if value = 0 then full
  else if value = 1 then sameStream
  else if value = 2 then sameLengthAndStream
  else if value = 3 then continuation
  else unknown

theorem getType_code (f : FormatType) : getType f.code = f := by
  cases f <;> decide

end FormatType

/-- `RtmpHeaderMsgTypeId::type`. -/
inductive MsgTypeId where
  | chunkSize
  | abortMessage
  | ack
  | usrCtrl
  | winAckSize
  | peerBandwidth
  | audioData
  | videoData
  | dataAmf3
  | commandAmf3
  | dataAmf0
  | commandAmf0
  | unknown
  deriving DecidableEq, Repr

namespace MsgTypeId

def code : MsgTypeId → UInt8
  | chunkSize => 1
  | abortMessage => 2
  | ack => 3
  | usrCtrl => 4
  | winAckSize => 5
  | peerBandwidth => 6
  | audioData => 8
  | videoData => 9
  | dataAmf3 => 15
  | commandAmf3 => 17
  | dataAmf0 => 18
  | commandAmf0 => 20
  | unknown => 0xFF

def getId (value : UInt8) : MsgTypeId :=
  if value = 1 then chunkSize
  else if value = 2 then abortMessage
  else if value = 3 then ack
  else if value = 4 then usrCtrl
  else if value = 5 then winAckSize
  else if value = 6 then peerBandwidth
  else if value = 8 then audioData
  else if value = 9 then videoData
  else if value = 15 then dataAmf3
  else if value = 17 then commandAmf3
  else if value = 18 then dataAmf0
  else if value = 20 then commandAmf0
  else unknown

@[simp] theorem getId_code (t : MsgTypeId) : getId t.code = t := by
  cases t <;> decide

end MsgTypeId

/-- One chunk header, also the header of the message it starts. The default
values are those of `RtmpHeader::reset`. -/
structure RtmpHeader where
  formatType : FormatType := .full
  chunkStreamId : UInt32 := 0
  timestamp : UInt32 := 0
  msgLength : UInt32 := 0
  msgTypeId : MsgTypeId := .unknown
  msgStreamId : UInt32 := 0
  timestampDelta : UInt32 := 0
  absTimestamp : UInt64 := 0
  deriving DecidableEq, Repr

namespace RtmpHeader

def is1byteBasicHeader (h : RtmpHeader) : Bool :=
  decide (2 ≤ h.chunkStreamId ∧ h.chunkStreamId ≤ 63)

def is2byteBasicHeader (h : RtmpHeader) : Bool :=
  decide (64 ≤ h.chunkStreamId ∧ h.chunkStreamId ≤ 319)

def is3byteBasicHeader (h : RtmpHeader) : Bool :=
  decide (319 < h.chunkStreamId ∧ h.chunkStreamId ≤ 6559)

def hasMsgLenAndType (h : RtmpHeader) : Bool :=
  h.formatType = .full || h.formatType = .sameStream

def isControlMsg (h : RtmpHeader) : Bool :=
  decide (1 ≤ h.msgTypeId.code ∧ h.msgTypeId.code ≤ 7)

def isCommandMsg (h : RtmpHeader) : Bool :=
  h.msgTypeId = .commandAmf0 || h.msgTypeId = .commandAmf3

def isDataMsg (h : RtmpHeader) : Bool :=
  h.msgTypeId = .dataAmf0 || h.msgTypeId = .dataAmf3

def isVideoMsg (h : RtmpHeader) : Bool := h.msgTypeId = .videoData

def isAudioMsg (h : RtmpHeader) : Bool := h.msgTypeId = .audioData

open StreamUtil

/-- The basic header `write_payload` emits first; outside 2..6559 it emits none. -/
def writeBasicHeader (h : RtmpHeader) (os : Written) : Written :=
  if h.is1byteBasicHeader then
    writeUchar os ((h.formatType.code <<< 6) + h.chunkStreamId.toUInt8)
  else if h.is2byteBasicHeader then
    let os := writeUchar os (h.formatType.code <<< 6)
    writeUchar os (h.chunkStreamId - 64).toUInt8
  else if h.is3byteBasicHeader then
    let os := writeUchar os ((h.formatType.code <<< 6) + 1)
    let idTemp := h.chunkStreamId - 64
    let os := writeUchar os (idTemp / 256).toUInt8
    writeUchar os (idTemp % 256).toUInt8
  else os

/-- The message header of each format. -/
def writeMessageHeader (h : RtmpHeader) (os : Written) : Written :=
  match h.formatType with
  | .full =>
      let os := writeUint3 os h.timestamp true
      let os := writeUint3 os h.msgLength true
      let os := writeUchar os h.msgTypeId.code
      writeUint os h.msgStreamId false
  | .sameStream =>
      let os := writeUint3 os h.timestampDelta true
      let os := writeUint3 os h.msgLength true
      writeUchar os h.msgTypeId.code
  | .sameLengthAndStream => writeUint3 os h.timestampDelta true
  | .continuation => os
  | .unknown => os

/-- `RtmpHeader::write_payload`. -/
def writePayload (h : RtmpHeader) : Written :=
  h.writeMessageHeader (h.writeBasicHeader {})

end RtmpHeader

end Rtmp
