import RtmpModule.Protocol.ConnectFields

/-!
# The commands of a client

Each of the eight commands the server implements is written by its name, the
transaction id and its arguments. The parser of commands takes it from these bytes,
with the arguments as they were sent, and leaves whatever arguments follow.
-/

namespace Rtmp

open AMF0Serializer StreamUtil Amf0

/-- The commands with a case of their own, and the arguments that are read. -/
inductive ClientCommand where
  | connect (properties : List (Text × Value))
  | releaseStream (streamName : Text)
  | fcPublish (streamName : Text)
  | fcUnpublish (streamName : Text)
  | createStream
  | publish (streamName streamType : Text)
  | play (streamName : Text)
  | deleteStream (streamId : UInt64)

namespace ClientCommand

def name : ClientCommand → Text
  | connect _ => ⟨ascii ['c', 'o', 'n', 'n', 'e', 'c', 't'], by decide⟩
  | releaseStream _ =>
      ⟨ascii ['r', 'e', 'l', 'e', 'a', 's', 'e', 'S', 't', 'r', 'e', 'a', 'm'], by decide⟩
  | fcPublish _ => ⟨ascii ['F', 'C', 'P', 'u', 'b', 'l', 'i', 's', 'h'], by decide⟩
  | fcUnpublish _ => ⟨ascii ['F', 'C', 'U', 'n', 'p', 'u', 'b', 'l', 'i', 's', 'h'], by decide⟩
  | createStream =>
      ⟨ascii ['c', 'r', 'e', 'a', 't', 'e', 'S', 't', 'r', 'e', 'a', 'm'], by decide⟩
  | publish _ _ => ⟨ascii ['p', 'u', 'b', 'l', 'i', 's', 'h'], by decide⟩
  | play _ => ⟨ascii ['p', 'l', 'a', 'y'], by decide⟩
  | deleteStream _ =>
      ⟨ascii ['d', 'e', 'l', 'e', 't', 'e', 'S', 't', 'r', 'e', 'a', 'm'], by decide⟩

/-- The command object and the arguments behind it. -/
def arguments : ClientCommand → List Value
  | connect properties => [.object (.ofList properties)]
  | releaseStream streamName | fcPublish streamName | fcUnpublish streamName | play streamName =>
      [.null, .string streamName]
  | createStream => [.null]
  | publish streamName streamType => [.null, .string streamName, .string streamType]
  | deleteStream streamId => [.null, .number streamId]

/-- Texts whose length is not negative as a `short`, and properties of the types of their
fields. -/
def Sendable : ClientCommand → Prop
  | connect properties => ∀ p ∈ properties, CommandMsgReader.Readable p
  | releaseStream streamName | fcPublish streamName | fcUnpublish streamName | play streamName =>
      streamName.bytes.length < 32768
  | createStream | deleteStream _ => True
  | publish streamName streamType =>
      streamName.bytes.length < 32768 ∧ streamType.bytes.length < 32768

/-- The message the parser is to make of it. -/
def body (transactionId : UInt64) : ClientCommand → MessageBody
  | connect properties =>
      .connectMessage transactionId (CommandMsgReader.connectOf properties {})
  | releaseStream streamName => .releaseStream transactionId streamName.bytes
  | fcPublish streamName => .fcPublish transactionId streamName.bytes
  | fcUnpublish streamName => .fcUnPublish transactionId streamName.bytes
  | createStream => .createStream transactionId
  | publish streamName streamType => .publish transactionId streamName.bytes streamType.bytes
  | play streamName => .play transactionId streamName.bytes
  | deleteStream streamId => .deleteStream transactionId streamId

/-- What a client sends: under AMF3 there is one more byte in front, and there may be more
arguments than are read. -/
def encode (c : ClientCommand) (msgTypeId : MsgTypeId) (lead : UInt8) (transactionId : UInt64)
    (more : List Value) : List UInt8 :=
  CommandMsgReader.commandStream msgTypeId lead c.name transactionId (c.arguments ++ more)

theorem name_length (c : ClientCommand) : c.name.bytes.length < 32768 := by
  cases c <;> simp only [name] <;> decide

section Arguments

variable {rest : List UInt8}

theorem readNull_null : readNull (Value.null.encode ++ rest) = (some (), rest) := by
  rw [Value.encode, readNull]
  exact @expectType_typeBytes rest .null rfl true

theorem readShortString_string {text : Text} (h : text.bytes.length < 32768) :
    readShortString ((Value.string text).encode ++ rest) true = (some text.bytes, rest) :=
  (readShortString_typed _ true).trans (readShortString_text h)

theorem readNumber_number (bits : UInt64) :
    readNumber ((Value.number bits).encode ++ rest) true = (some bits, rest) :=
  (readNumber_typed _ true).trans (readNumber_toBE rest bits)

/-- The two arguments of most commands. -/
theorem parseStreamName_arguments {text : Text} (h : text.bytes.length < 32768) :
    CommandMsgParser.parseStreamName
        (Value.null.encode ++ ((Value.string text).encode ++ rest)) = some (text.bytes, rest) := by
  rw [CommandMsgParser.parseStreamName, readNull_null]
  dsimp only
  rw [readShortString_string h]

end Arguments

variable {uninit : Uninit} {c : ClientCommand} {transactionId : UInt64} {more : List Value}

/-- A command that is read as the name of a stream. -/
theorem parseNamed_arguments {text : Text} (h : text.bytes.length < 32768)
    (make : List UInt8 → MessageBody) :
    CommandMsgReader.parseNamed make
        (([Value.null, .string text] ++ more).flatMap Value.encode) =
      some (make text.bytes, more.flatMap Value.encode) := by
  rw [List.flatMap_append, CommandMsgReader.parseNamed]
  simp only [List.flatMap_cons, List.flatMap_nil, List.append_assoc, List.nil_append]
  rw [parseStreamName_arguments h]
  rfl

theorem parsePublish_arguments {streamName streamType : Text}
    (hname : streamName.bytes.length < 32768) (htype : streamType.bytes.length < 32768) :
    CommandMsgReader.parsePublish
        (([Value.null, .string streamName, .string streamType] ++ more).flatMap Value.encode)
        transactionId =
      some (.publish transactionId streamName.bytes streamType.bytes,
        more.flatMap Value.encode) := by
  rw [List.flatMap_append, CommandMsgReader.parsePublish]
  simp only [List.flatMap_cons, List.flatMap_nil, List.append_assoc, List.nil_append]
  rw [parseStreamName_arguments hname]
  dsimp only
  rw [readShortString_string htype]
  rfl

theorem parseDeleteStream_arguments (streamId : UInt64) :
    CommandMsgReader.parseDeleteStream
        (([Value.null, .number streamId] ++ more).flatMap Value.encode) transactionId =
      some (.deleteStream transactionId streamId, more.flatMap Value.encode) := by
  rw [List.flatMap_append, CommandMsgReader.parseDeleteStream]
  simp only [List.flatMap_cons, List.flatMap_nil, List.append_assoc, List.nil_append]
  rw [readNull_null]
  dsimp only
  rw [readNumber_number]
  rfl

/-- Behind the name and the transaction id, by the case of the command. -/
theorem parseCommand_arguments (hc : c.Sendable) :
    CommandMsgReader.parseCommand uninit c.name.bytes
        ((c.arguments ++ more).flatMap Value.encode) transactionId =
      some (c.body transactionId, more.flatMap Value.encode) := by
  cases c with
  | connect properties =>
      have hread := CommandMsgReader.parseConnectMsg_object uninit (more.flatMap Value.encode)
        transactionId hc
      rwa [← List.flatMap_cons] at hread
  | releaseStream streamName => exact parseNamed_arguments hc _
  | fcPublish streamName => exact parseNamed_arguments hc _
  | fcUnpublish streamName => exact parseNamed_arguments hc _
  | createStream =>
      change CommandMsgReader.parseCreateStream
        (Value.null.encode ++ more.flatMap Value.encode) transactionId = _
      rw [CommandMsgReader.parseCreateStream, readNull_null]
      rfl
  | publish streamName streamType => exact parsePublish_arguments hc.1 hc.2
  | play streamName => exact parseNamed_arguments hc _
  | deleteStream streamId =>
      have htype : CommandMsgType.getType (deleteStream streamId).name.bytes = .deleteStream := by
        rw [name]
        decide
      rw [CommandMsgReader.parseCommand, htype]
      exact parseDeleteStream_arguments streamId

/-- The parser of commands reads every command, under either encoding. -/
theorem parseBody_encode (header : RtmpHeader) (lead : UInt8) (hc : c.Sendable) :
    CommandMsgReader.parseBody uninit header (c.encode header.msgTypeId lead transactionId more) =
      some (c.body transactionId, more.flatMap Value.encode) := by
  rw [encode, CommandMsgReader.parseBody_commandStream header lead c.name_length]
  exact parseCommand_arguments hc

theorem encode_append (c : ClientCommand) (msgTypeId : MsgTypeId) (lead : UInt8) :
    c.encode msgTypeId lead transactionId more =
      c.encode msgTypeId lead transactionId [] ++ more.flatMap Value.encode := by
  simp only [encode, CommandMsgReader.commandStream, List.append_nil, List.flatMap_append,
    List.append_assoc]

/-- Every command is read as the message it was written for, whatever was parsed before and
whatever arguments follow, and exactly its own bytes are taken. -/
theorem parseCommandMsg_encode (uninit : Uninit) (p : CommandMsgParser) (header : RtmpHeader)
    (lead : UInt8) (transactionId : UInt64) (more : List Value) (hc : c.Sendable) :
    let stream := c.encode header.msgTypeId lead transactionId more
    let msg := { header, body := c.body transactionId : RtmpMessage }
    p.parseCommandMsg uninit header stream = (true, { parsedMsg := some msg }) ∧
      CommandMsgReader.parseCommandMsg uninit header stream =
        some (msg, (c.encode header.msgTypeId lead transactionId []).length) := by
  intro stream msg
  have hbody : CommandMsgReader.parseBody uninit header stream = _ :=
    parseBody_encode header lead hc
  have htaken : stream.length - (more.flatMap Value.encode).length =
      (c.encode header.msgTypeId lead transactionId []).length := by
    rw [show stream = _ from encode_append c header.msgTypeId lead, List.length_append,
      Nat.add_sub_cancel]
  have hread : CommandMsgReader.parseCommandMsg uninit header stream =
      some (msg, (c.encode header.msgTypeId lead transactionId []).length) := by
    rw [CommandMsgReader.parseCommandMsg, hbody, ← htaken]
    rfl
  refine ⟨?_, hread⟩
  rw [CommandMsgReader.parseCommandMsg_fst, hread]
  rfl

theorem parseCommandMsg_encode_publish :
    let c := publish ⟨ascii ['c', 'a', 'm'], by decide⟩ ⟨ascii ['l', 'i', 'v', 'e'], by decide⟩
    let header : RtmpHeader := { msgTypeId := .commandAmf3 }
    let stream := c.encode .commandAmf3 0 4 [.boolean true]
    let msg := { header, body := c.body 4 : RtmpMessage }
    c.Sendable ∧
      ({} : CommandMsgParser).parseCommandMsg (fun _ => 0) header stream =
          (true, { parsedMsg := some msg }) ∧
      CommandMsgReader.parseCommandMsg (fun _ => 0) header stream =
        some (msg, (c.encode .commandAmf3 0 4 []).length) := by
  intro c header stream msg
  have hc : c.Sendable := ⟨by decide, by decide⟩
  exact ⟨hc, parseCommandMsg_encode (fun _ => 0) {} header 0 4 [.boolean true] hc⟩

end ClientCommand

end Rtmp
