import RtmpModule.Protocol.Commands
import RtmpModule.Protocol.Wire
import RtmpModule.Streamer.MediaPackets

/-!
# What a client sends

A client sends its packets, commands under either encoding, metadata and control
messages. The parser takes each of them, whatever it has parsed before, and so it reads
everything a client sends in chunks.
-/

namespace Rtmp

open AMF0Serializer Amf0

/-- A message of a client, in a form the parser takes. -/
inductive ClientMessage where
  | media (packet : MediaPacket) (fits : packet.body.length < 2 ^ 24)
  | command (amf3 : Bool) (lead : UInt8) (c : ClientCommand) (transactionId : UInt64)
      (more : List Value) (sendable : c.Sendable)
  | otherCommand (amf3 : Bool) (lead : UInt8) (name : Text) (transactionId : UInt64)
      (arguments : List Value) (short : name.bytes.length < 32768)
      (other : CommandMsgType.getType name.bytes = .unknown)
      (supported : ∀ v ∈ arguments, v.Supported)
  | metadata (amf3 : Bool) (values : List Value) (supported : ∀ v ∈ values, v.Supported)
  | control (m : ControlMessage) (known : m.KnownLimit)

namespace ClientMessage

def commandType (amf3 : Bool) : MsgTypeId := if amf3 then .commandAmf3 else .commandAmf0

def setDataFrame : Text := ⟨DataMsgParser.setDataFrame, by decide⟩

def msgTypeId : ClientMessage → MsgTypeId
  | media packet _ => if packet.messageType = 8 then .audioData else .videoData
  | command amf3 .. => commandType amf3
  | otherCommand amf3 .. => commandType amf3
  | metadata amf3 .. => if amf3 then .dataAmf3 else .dataAmf0
  | control m _ => m.message.header.msgTypeId

def payload : ClientMessage → List UInt8
  | media packet _ => packet.body
  | command amf3 lead c transactionId more _ =>
      c.encode (commandType amf3) lead transactionId more
  | otherCommand amf3 lead name transactionId arguments .. =>
      CommandMsgReader.commandStream (commandType amf3) lead name transactionId arguments
  | metadata _ values _ => (Value.string setDataFrame).encode ++ values.flatMap Value.encode
  | control m _ => m.payload

/-- What the parser makes of it under a header. Control messages get the header of their
class, and of metadata nothing is kept. -/
def message (header : RtmpHeader) : ClientMessage → RtmpMessage
  | media packet _ => RtmpPayloadParser.mediaMessage header packet.body
  | command _ _ c transactionId .. => { header, body := c.body transactionId }
  | otherCommand _ _ name transactionId .. =>
      { header, body := .unknownCommand transactionId name.bytes }
  | metadata .. => { header, body := .unknownMessage [] }
  | control m _ => m.message

/-- The chunk size a message announces. -/
def announced : ClientMessage → Option UInt32
  | control m _ => m.chunkSize?
  | _ => none

theorem isCommandMsg_of_type {header : RtmpHeader} {amf3 : Bool}
    (h : header.msgTypeId = commandType amf3) : header.isCommandMsg = true := by
  rw [RtmpHeader.isCommandMsg, h]
  cases amf3 <;> rfl

section Accepted

variable (p : RtmpPayloadParser) (uninit : Uninit) {header : RtmpHeader}

theorem media_accepted {packet : MediaPacket}
    (h : header.msgTypeId = if packet.messageType = 8 then .audioData else .videoData) :
    ∃ p' : RtmpPayloadParser,
      p.parseMessage uninit header packet.body = (.ok .complete, p') ∧
        p'.parsedMsg = some (RtmpPayloadParser.mediaMessage header packet.body) := by
  have hmedia : (header.isVideoMsg || header.isAudioMsg) = true := by
    rw [RtmpHeader.isVideoMsg, RtmpHeader.isAudioMsg, h]
    split <;> rfl
  exact ⟨_, RtmpPayloadParser.parseMessage_media p uninit _ hmedia, rfl⟩

theorem command_accepted {amf3 : Bool} {body : MessageBody} {stream rest : List UInt8}
    (h : header.msgTypeId = commandType amf3)
    (hbody : CommandMsgReader.parseBody uninit header stream = some (body, rest)) :
    ∃ p' : RtmpPayloadParser, p.parseMessage uninit header stream = (.ok .complete, p') ∧
      p'.parsedMsg = some { header, body } := by
  have hparsed : CommandMsgParser.parseBody uninit header stream = some body := by
    rw [← CommandMsgReader.parseBody_fst, hbody]
    rfl
  exact ⟨_, RtmpPayloadParser.parseMessage_command_ok p uninit stream (isCommandMsg_of_type h)
    hparsed, rfl⟩

theorem metadata_accepted {amf3 : Bool} {values : List Value}
    (h : header.msgTypeId = if amf3 then .dataAmf3 else .dataAmf0)
    (supported : ∀ v ∈ values, v.Supported) :
    ∃ p' : RtmpPayloadParser,
      p.parseMessage uninit header
          ((Value.string setDataFrame).encode ++ values.flatMap Value.encode) =
        (.ok .complete, p') ∧
      p'.parsedMsg = some { header, body := .unknownMessage [] } := by
  have hdata : header.isDataMsg = true := by
    rw [RtmpHeader.isDataMsg, h]
    cases amf3 <;> rfl
  have hname : readShortString
      ((Value.string setDataFrame).encode ++ values.flatMap Value.encode) true =
        (some DataMsgParser.setDataFrame, values.flatMap Value.encode) :=
    ClientCommand.readShortString_string (by decide)
  have hreads : Reads uninit .values (values.flatMap Value.encode) [] false :=
    reads_values values fun v hv => (supported v hv).skippable
  have hok : (consumeFull uninit (values.flatMap Value.encode)).ok = true :=
    (Prod.mk.inj hreads.skips).1
  have hparse : p.dataMsgParser.parseDataMsg uninit header
      ((Value.string setDataFrame).encode ++ values.flatMap Value.encode) =
        (.ok true, { parsedMsg := some { header, body := .unknownMessage [] } }) := by
    rw [DataMsgParser.parseDataMsg, hname]
    simp [hok, RtmpMessage.setHeader]
  rw [RtmpPayloadParser.parseMessage_data p uninit _ hdata, hparse]
  exact ⟨_, rfl, rfl⟩

theorem control_accepted {m : ControlMessage} (known : m.KnownLimit)
    (h : header.msgTypeId = m.message.header.msgTypeId) :
    ∃ p' : RtmpPayloadParser, p.parseMessage uninit header m.payload = (.ok .complete, p') ∧
      p'.parsedMsg = some m.message := by
  have hcontrol : header.isControlMsg = true := by
    rw [RtmpHeader.isControlMsg, h]
    exact m.isControlMsg_message
  have hbody : ControlMsgParser.parseBody header.msgTypeId m.payload = some m.message := by
    rw [h]
    exact ControlMessage.parseBody_payload known
  rw [RtmpPayloadParser.parseMessage_control p uninit _ hcontrol]
  simp only [ControlMsgParser.parseControlMsg, hbody, Option.isSome_some, ↓reduceIte]
  exact ⟨_, rfl, rfl⟩

end Accepted

/-- A message of a client on the wire. -/
def wire (m : ClientMessage) : WireMessage where
  msgTypeId := m.msgTypeId
  payload := m.payload
  message header := m.message header
  accepted := by
    intro p uninit header htype
    cases m with
    | media packet fits => exact media_accepted p uninit htype
    | command amf3 lead c transactionId more sendable =>
        have hbody := @ClientCommand.parseBody_encode uninit c transactionId more header lead
          sendable
        rw [show header.msgTypeId = commandType amf3 from htype] at hbody
        exact command_accepted p uninit htype hbody
    | otherCommand amf3 lead name transactionId arguments short other supported =>
        have hbody := (@CommandMsgReader.parseBody_commandStream uninit name transactionId
          arguments header lead short).trans
            (CommandMsgReader.parseCommand_unknown supported other)
        rw [show header.msgTypeId = commandType amf3 from htype] at hbody
        exact command_accepted p uninit htype hbody
    | metadata amf3 values supported => exact metadata_accepted p uninit htype supported
    | control m known => exact control_accepted p uninit known htype
  announced := m.announced
  announces := by
    intro header size _
    cases m with
    | media packet fits =>
        rw [message, RtmpPayloadParser.mediaMessage]
        split <;> rfl
    | command amf3 lead c transactionId more sendable => cases c <;> rfl
    | control m known => cases m <;> rfl
    | _ => rfl

end ClientMessage

section ShortRun

open ClientMessage

/-- A chunk of a message, or the first of them. -/
def WireStep.cut (m : ClientMessage) (chunkStreamId : UInt32) (header : MessageHeader)
    (time offset : Nat) : WireStep :=
  { chunk := { chunkStreamId, header, payload := (m.payload.drop offset).take 16 }
    time
    message := m.wire }

/-- A packet as a message. -/
def TimedPacket.sent (t : TimedPacket) : ClientMessage := .media t.packet t.fits

end ShortRun

end Rtmp
