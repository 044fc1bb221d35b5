import RtmpModule.Protocol.AMF0Values
import RtmpModule.Protocol.AMF0Writer
import RtmpModule.Protocol.MessageParsers

/-!
# What the command parsers leave unread

The functions of `CommandMsgParser` again, with the stream as they leave it: what
`parse_command_msg` reports as read is the difference. The messages are those of the
functions that drop the stream.
-/

namespace Rtmp

open AMF0Serializer StreamUtil

namespace CommandMsgReader

open CommandMsgParser (parseConnectField parseStreamName)

variable (uninit : Uninit)

/-- The loop of `parse_connect_msg`, which ends behind the end marker. -/
def parseConnectFields (msg : ConnectMessage) (stream : List UInt8) :
    Option (ConnectMessage × List UInt8) :=
  if _hlen : checkRedableLength stream 3 then
    if stream.take 3 = [0, 0, 9] then some (msg, stream.drop 3)
    else
      match (readShortString stream false).1 with
      | none => none
      | some key =>
          match parseConnectField uninit msg key (readShortString stream false).2 with
          | none => none
          | some ⟨(msg, rest), _hrest⟩ => parseConnectFields msg rest
  else none
termination_by stream.length
decreasing_by
  have h3 : 3 ≤ stream.length := by simpa [checkRedableLength] using _hlen
  exact lt_of_le_of_lt _hrest.length_le (readShortString_lt (by omega))

def parseConnectMsg (stream : List UInt8) (transactionId : UInt64) :
    Option (MessageBody × List UInt8) :=
  match expectType .object true stream with
  | (some (), stream) =>
      (parseConnectFields uninit {} stream).map fun r =>
        (.connectMessage transactionId r.1, r.2)
  | (none, _) => none

/-- `parse_release_stream`, `parse_fc_publish`, `parse_fc_unpublish` and `parse_play`. -/
def parseNamed (make : List UInt8 → MessageBody) (stream : List UInt8) :
    Option (MessageBody × List UInt8) :=
  (parseStreamName stream).map fun r => (make r.1, r.2)

def parseCreateStream (stream : List UInt8) (transactionId : UInt64) :
    Option (MessageBody × List UInt8) :=
  (readNull stream).1.map fun _ => (.createStream transactionId, (readNull stream).2)

def parseDeleteStream (stream : List UInt8) (transactionId : UInt64) :
    Option (MessageBody × List UInt8) :=
  match readNull stream with
  | (none, _) => none
  | (some (), stream) =>
      (readNumber stream true).1.map fun streamId =>
        (.deleteStream transactionId streamId, (readNumber stream true).2)

def parsePublish (stream : List UInt8) (transactionId : UInt64) :
    Option (MessageBody × List UInt8) :=
  match parseStreamName stream with
  | none => none
  | some (streamName, stream) =>
      (readShortString stream true).1.map fun streamType =>
        (.publish transactionId streamName streamType, (readShortString stream true).2)

def parseUnknownCommand (stream : List UInt8) (transactionId : UInt64) (command : List UInt8) :
    Option (MessageBody × List UInt8) :=
  if (consumeFull uninit stream).ok then
    some (.unknownCommand transactionId command, (consumeFull uninit stream).rest)
  else none

def parseCommand (command stream : List UInt8) (transactionId : UInt64) :
    Option (MessageBody × List UInt8) :=
  match CommandMsgType.getType command with
  | .connect => parseConnectMsg uninit stream transactionId
  | .releaseStream => parseNamed (.releaseStream transactionId) stream
  | .fcPublish => parseNamed (.fcPublish transactionId) stream
  | .fcUnpublish => parseNamed (.fcUnPublish transactionId) stream
  | .createStream => parseCreateStream stream transactionId
  | .publish => parsePublish stream transactionId
  | .play => parseNamed (.play transactionId) stream
  | .deleteStream => parseDeleteStream stream transactionId
  | .unknown => parseUnknownCommand uninit stream transactionId command
  | _ => none

def parseBody (header : RtmpHeader) (stream : List UInt8) : Option (MessageBody × List UInt8) :=
  if header.msgTypeId = .commandAmf3 ∧ checkRedableLength stream 1 = false then none
  else
    let stream := if header.msgTypeId = .commandAmf3 then stream.drop 1 else stream
    match readShortString stream true with
    | (none, _) => none
    | (some command, stream) =>
        match readNumber stream true with
        | (none, _) => none
        | (some transactionId, stream) => parseCommand uninit command stream transactionId

/-- `parse_command_msg` with `readed_size`, which is only set with a message. -/
def parseCommandMsg (header : RtmpHeader) (stream : List UInt8) : Option (RtmpMessage × Nat) :=
  (parseBody uninit header stream).map fun r =>
    ({ header, body := r.1 }, stream.length - r.2.length)

section Messages

variable {uninit : Uninit} {stream : List UInt8} {transactionId : UInt64}

theorem parseConnectFields_fst (msg : ConnectMessage) :
    (parseConnectFields uninit msg stream).map Prod.fst =
      CommandMsgParser.parseConnectFields uninit msg stream := by
  fun_induction parseConnectFields uninit msg stream with
  | case1 msg stream hlen hend =>
      rw [CommandMsgParser.parseConnectFields, dif_pos hlen, if_pos hend]
      rfl
  | case2 msg stream hlen hend hkey =>
      rw [CommandMsgParser.parseConnectFields, dif_pos hlen, if_neg hend]
      simp only [hkey, Option.map_none]
  | case3 msg stream hlen hend key hkey hfield =>
      rw [CommandMsgParser.parseConnectFields, dif_pos hlen, if_neg hend]
      simp only [hkey, hfield, Option.map_none]
  | case4 msg stream hlen hend key hkey msg' rest hrest hfield ih =>
      rw [CommandMsgParser.parseConnectFields, dif_pos hlen, if_neg hend]
      simp only [hkey, hfield, ih]
  | case5 msg stream hlen =>
      rw [CommandMsgParser.parseConnectFields, dif_neg hlen]
      rfl

theorem parseConnectMsg_fst :
    (parseConnectMsg uninit stream transactionId).map Prod.fst =
      CommandMsgParser.parseConnectMsg uninit stream transactionId := by
  rw [parseConnectMsg, CommandMsgParser.parseConnectMsg]
  rcases expectType .object true stream with ⟨_ | _, rest⟩
  · rfl
  · dsimp only
    rw [Option.map_map, ← parseConnectFields_fst, Option.map_map]
    rfl

theorem parseNamed_fst (make : List UInt8 → MessageBody) :
    (parseNamed make stream).map Prod.fst = (parseStreamName stream).map fun r => make r.1 := by
  rw [parseNamed, Option.map_map]
  rfl

theorem parseDeleteStream_fst :
    (parseDeleteStream stream transactionId).map Prod.fst =
      CommandMsgParser.parseDeleteStream stream transactionId := by
  rw [parseDeleteStream, CommandMsgParser.parseDeleteStream]
  rcases readNull stream with ⟨_ | _, rest⟩
  · rfl
  · exact Option.map_map ..

theorem parsePublish_fst :
    (parsePublish stream transactionId).map Prod.fst =
      CommandMsgParser.parsePublish stream transactionId := by
  rw [parsePublish, CommandMsgParser.parsePublish]
  cases parseStreamName stream with
  | none => rfl
  | some r => exact Option.map_map ..

theorem parseCreateStream_fst :
    (parseCreateStream stream transactionId).map Prod.fst =
      CommandMsgParser.parseCreateStream stream transactionId := by
  rw [parseCreateStream, Option.map_map]
  rfl

theorem parseUnknownCommand_fst (command : List UInt8) :
    (parseUnknownCommand uninit stream transactionId command).map Prod.fst =
      CommandMsgParser.parseUnknownCommand uninit stream transactionId command := by
  rw [parseUnknownCommand, CommandMsgParser.parseUnknownCommand]
  split <;> rfl

theorem parseCommand_fst (command : List UInt8) :
    (parseCommand uninit command stream transactionId).map Prod.fst =
      CommandMsgParser.parseCommand uninit command stream transactionId := by
  rw [parseCommand, CommandMsgParser.parseCommand]
  cases CommandMsgType.getType command with
  | connect => exact parseConnectMsg_fst
  | releaseStream | fcPublish | fcUnpublish | play => exact parseNamed_fst _
  | createStream => exact parseCreateStream_fst
  | publish => exact parsePublish_fst
  | deleteStream => exact parseDeleteStream_fst
  | unknown => exact parseUnknownCommand_fst command
  | _ => rfl

theorem parseBody_fst (header : RtmpHeader) :
    (parseBody uninit header stream).map Prod.fst =
      CommandMsgParser.parseBody uninit header stream := by
  rw [parseBody, CommandMsgParser.parseBody]
  split
  · rfl
  dsimp only
  generalize (if header.msgTypeId = .commandAmf3 then stream.drop 1 else stream) = stream
  rcases readShortString stream true with ⟨_ | command, stream⟩
  · rfl
  dsimp only
  rcases readNumber stream true with ⟨_ | transactionId, stream⟩
  · rfl
  exact parseCommand_fst command

/-- The message is the one the parser keeps. -/
theorem parseCommandMsg_fst (p : CommandMsgParser) (header : RtmpHeader) :
    p.parseCommandMsg uninit header stream =
      ((parseCommandMsg uninit header stream).isSome,
        { parsedMsg := ((parseCommandMsg uninit header stream).map Prod.fst).or p.parsedMsg }) := by
  rw [CommandMsgParser.parseCommandMsg, ← parseBody_fst, parseCommandMsg]
  cases parseBody uninit header stream with
  | none => rfl
  | some r => rfl

end Messages

section Commands

open Amf0

/-- A command as a client sends it: under AMF3 there is one more byte in front. -/
def commandStream (msgTypeId : MsgTypeId) (lead : UInt8) (command : Text) (transactionId : UInt64)
    (arguments : List Value) : List UInt8 :=
  (if msgTypeId = .commandAmf3 then [lead] else []) ++ ((Value.string command).encode ++
    ((Value.number transactionId).encode ++ arguments.flatMap Value.encode))

variable {uninit : Uninit} {command : Text} {transactionId : UInt64} {arguments : List Value}

/-- The name and the transaction id are read, and the arguments are left to the command. -/
theorem parseBody_commandStream (header : RtmpHeader) (lead : UInt8)
    (hcommand : command.bytes.length < 32768) :
    parseBody uninit header
        (commandStream header.msgTypeId lead command transactionId arguments) =
      parseCommand uninit command.bytes (arguments.flatMap Value.encode) transactionId := by
  have hname : ∀ rest, readShortString ((Value.string command).encode ++ rest) true =
      (some command.bytes, rest) := by
    intro rest
    exact (readShortString_typed _ true).trans (readShortString_text hcommand)
  have hnumber : ∀ rest, readNumber ((Value.number transactionId).encode ++ rest) true =
      (some transactionId, rest) := by
    intro rest
    exact (readNumber_typed _ true).trans (readNumber_toBE rest transactionId)
  by_cases hamf3 : header.msgTypeId = .commandAmf3
  · have hlong : ∀ rest, checkRedableLength (lead :: rest) 1 = true := by
      simp [checkRedableLength]
    simp only [parseBody, commandStream, hamf3, ↓reduceIte, List.singleton_append, hlong,
      Bool.true_eq_false, and_false, List.drop_succ_cons, List.drop_zero, hname, hnumber]
  · simp only [parseBody, commandStream, hamf3, ↓reduceIte, List.nil_append, false_and, hname,
      hnumber]

/-- A command without a name in the list has its arguments skipped. -/
theorem parseCommand_unknown (harguments : ∀ v ∈ arguments, v.Supported)
    (h : CommandMsgType.getType command.bytes = .unknown) :
    parseCommand uninit command.bytes (arguments.flatMap Value.encode) transactionId =
      some (.unknownCommand transactionId command.bytes, []) := by
  have hreads : Reads uninit .values (arguments.flatMap Value.encode) [] false :=
    reads_values arguments fun v hv => (harguments v hv).skippable
  obtain ⟨hok, hrest⟩ := Prod.mk.inj hreads.skips
  change (consumeFull uninit (arguments.flatMap Value.encode)).ok = true at hok
  change (consumeFull uninit (arguments.flatMap Value.encode)).rest = [] at hrest
  simp only [parseCommand, h, parseUnknownCommand, hok, ↓reduceIte, hrest]

end Commands

end CommandMsgReader

end Rtmp
