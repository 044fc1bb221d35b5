import RtmpModule.Protocol.Header

/-!
# Messages

The message classes the parsers build. A control message comes with the header
its constructor makes and is never given that of the chunk it arrived in; data,
command and media messages carry the header of their first chunk. Doubles are
kept as their bit patterns and strings as bytes; a member the constructor leaves
uninitialised is an `Option`.
-/

namespace Rtmp

/-- `SetPeerBandwidth::limit_type`. -/
inductive LimitType where
  | hard
  | soft
  | dynamic
  | unknown
  deriving DecidableEq, Repr

def LimitType.getLimitType (type : UInt8) : LimitType :=
  if type = 0 then hard
  else if type = 1 then soft
  else if type = 2 then dynamic
  else unknown

/-- `UserControlMessage::event_type`. -/
inductive EventType where
  | streamBegin
  | streamEof
  | streamDry
  | setBufferLength
  | streamIsRecorded
  | pingRequest
  | pingResponse
  | unknown
  deriving DecidableEq, Repr

def EventType.getEventType (type : UInt16) : EventType :=
  if type = 0 then streamBegin
  else if type = 1 then streamEof
  else if type = 2 then streamDry
  else if type = 3 then setBufferLength
  else if type = 4 then streamIsRecorded
  else if type = 6 then pingRequest
  else if type = 7 then pingResponse
  else unknown

/-- What `parse_connect_msg` keeps; the numbers are truncated to `int` only on use. -/
structure ConnectMessage where
  app : List UInt8 := []
  flashver : List UInt8 := []
  tcUrl : List UInt8 := []
  fpad : Option Bool := none
  capabilities : Option UInt64 := none
  audioCodecs : Option UInt64 := none
  videoCodecs : Option UInt64 := none
  videoFunction : Option UInt64 := none
  objectEncoding : Option UInt64 := none
  deriving DecidableEq, Repr

/-- The class of a message with the fields of that class. -/
inductive MessageBody where
  | setChunkSize (chunkSize : UInt32)
  | abortMessage (chunkStreamId : UInt32)
  | acknowledgement (seqNum : UInt32)
  | windowAcknowledgementSize (windowSize : UInt32)
  | setPeerBandwidth (windowSize : UInt32) (limitType : LimitType)
  | streamBegin (streamId : UInt32)
  | streamEof (streamId : UInt32)
  | streamDry (streamId : UInt32)
  | setBufferLength (streamId bufferLength : UInt32)
  | streamIsRecorded (streamId : UInt32)
  | pingRequest (timestamp : UInt32)
  | pingResponse (timestamp : UInt32)
  | connectMessage (transactionId : UInt64) (fields : ConnectMessage)
  | releaseStream (transactionId : UInt64) (streamName : List UInt8)
  | fcPublish (transactionId : UInt64) (streamName : List UInt8)
  | fcUnPublish (transactionId : UInt64) (streamName : List UInt8)
  | createStream (transactionId : UInt64)
  | deleteStream (transactionId streamId : UInt64)
  | publish (transactionId : UInt64) (streamName streamType : List UInt8)
  | play (transactionId : UInt64) (streamName : List UInt8)
  | unknownCommand (transactionId : UInt64) (commandName : List UInt8)
  | audioMessage (data : List UInt8)
  | videoMessage (data : List UInt8)
  | unknownMessage (buf : List UInt8)
  deriving DecidableEq, Repr

structure RtmpMessage where
  header : RtmpHeader := {}
  body : MessageBody
  writeChunkSize : UInt32 := 128
  deriving DecidableEq, Repr

namespace RtmpMessage

def setHeader (msg : RtmpMessage) (header : RtmpHeader) : RtmpMessage := { msg with header }

/-- The header the `ControlMessage` constructor and its subclass leave behind. -/
def control (msgTypeId : MsgTypeId) (msgLength : UInt32) (body : MessageBody) : RtmpMessage :=
  { header := { chunkStreamId := 2, msgTypeId, msgLength }, body }

def setChunkSize (field : UInt32) : RtmpMessage := control .chunkSize 4 (.setChunkSize field)

def abortMessage (field : UInt32) : RtmpMessage := control .abortMessage 4 (.abortMessage field)

def acknowledgement (field : UInt32) : RtmpMessage := control .ack 4 (.acknowledgement field)

def windowAcknowledgementSize (field : UInt32) : RtmpMessage :=
  control .winAckSize 4 (.windowAcknowledgementSize field)

def setPeerBandwidth (field : UInt32) (limitType : LimitType) : RtmpMessage :=
  control .peerBandwidth 5 (.setPeerBandwidth field limitType)

def streamBegin (field : UInt32) : RtmpMessage := control .usrCtrl 6 (.streamBegin field)

def streamEof (field : UInt32) : RtmpMessage := control .usrCtrl 6 (.streamEof field)

def streamDry (field : UInt32) : RtmpMessage := control .usrCtrl 6 (.streamDry field)

def setBufferLength (field1 field2 : UInt32) : RtmpMessage :=
  control .usrCtrl 10 (.setBufferLength field1 field2)

def streamIsRecorded (field : UInt32) : RtmpMessage :=
  control .usrCtrl 6 (.streamIsRecorded field)

def pingRequest (field : UInt32) : RtmpMessage := control .usrCtrl 6 (.pingRequest field)

def pingResponse (field : UInt32) : RtmpMessage := control .usrCtrl 6 (.pingResponse field)

end RtmpMessage

end Rtmp
