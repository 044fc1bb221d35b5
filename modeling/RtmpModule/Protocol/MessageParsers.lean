import RtmpModule.Protocol.AMF0Serializer
import RtmpModule.Protocol.Message
import RtmpModule.Sna

/-!
# The parsers of message bodies

Each parser keeps the last message it built in `parsed_msg_`. A body that is
rejected leaves it alone, so whoever ignores the result, or asks a parser that
has not built anything yet, sees an older message or none.
-/

namespace Rtmp

open StreamUtil

structure ControlMsgParser where
  parsedMsg : Option RtmpMessage := none
  deriving DecidableEq, Repr

namespace ControlMsgParser

/-- A body that is one 32-bit field; bytes after it are ignored. -/
def parseField (make : UInt32 → RtmpMessage) (stream : List UInt8) : Option RtmpMessage :=
  if checkRedableLength stream 4 then some (make (readUint stream).1) else none

def parseChunkSize : List UInt8 → Option RtmpMessage := parseField .setChunkSize

def parseAbortMessage : List UInt8 → Option RtmpMessage := parseField .abortMessage

def parseAck : List UInt8 → Option RtmpMessage := parseField .acknowledgement

def parseWinAckSize : List UInt8 → Option RtmpMessage := parseField .windowAcknowledgementSize

def parseUsrctrlStreamBegin : List UInt8 → Option RtmpMessage := parseField .streamBegin

def parseUsrctrlStreamEof : List UInt8 → Option RtmpMessage := parseField .streamEof

def parseUsrctrlStreamDry : List UInt8 → Option RtmpMessage := parseField .streamDry

def parseUsrctrlStreamIsRecorded : List UInt8 → Option RtmpMessage :=
  parseField .streamIsRecorded

def parseUsrctrlPingRequest : List UInt8 → Option RtmpMessage := parseField .pingRequest

def parseUsrctrlPingResponse : List UInt8 → Option RtmpMessage := parseField .pingResponse

def parseUsrctrlSetBufferLength (stream : List UInt8) : Option RtmpMessage :=
  if checkRedableLength stream 8 then
    let (field1, stream) := readUint stream
    let (field2, _) := readUint stream
    some (.setBufferLength field1 field2)
  else none

def parseUserCtrl (stream : List UInt8) : Option RtmpMessage :=
  if checkRedableLength stream 2 then
    let (field, stream) := readUshort stream
    match EventType.getEventType field with
    | .streamBegin => parseUsrctrlStreamBegin stream
    | .streamEof => parseUsrctrlStreamEof stream
    | .streamDry => parseUsrctrlStreamDry stream
    | .setBufferLength => parseUsrctrlSetBufferLength stream
    | .streamIsRecorded => parseUsrctrlStreamIsRecorded stream
    | .pingRequest => parseUsrctrlPingRequest stream
    | .pingResponse => parseUsrctrlPingResponse stream
    | .unknown => none
  else none

def parsePeerBandwidth (stream : List UInt8) : Option RtmpMessage :=
  if checkRedableLength stream 5 then
    let (field, stream) := readUint stream
    let (field2, _) := readUchar stream
    let limitType := LimitType.getLimitType field2
    if limitType = .unknown then none else some (.setPeerBandwidth field limitType)
  else none

/-- The message a control body of the given type denotes, if it is accepted. -/
def parseBody (msgTypeId : MsgTypeId) (stream : List UInt8) : Option RtmpMessage :=
  match msgTypeId with
  | .chunkSize => parseChunkSize stream
  | .abortMessage => parseAbortMessage stream
  | .ack => parseAck stream
  | .usrCtrl => parseUserCtrl stream
  | .winAckSize => parseWinAckSize stream
  | .peerBandwidth => parsePeerBandwidth stream
  | _ => none

/-- `parse_control_msg`: its result and the parser after it. -/
def parseControlMsg (p : ControlMsgParser) (header : RtmpHeader) (stream : List UInt8) :
    Bool × ControlMsgParser :=
  match parseBody header.msgTypeId stream with
  | some msg => (true, { parsedMsg := some msg })
  | none => (false, p)

/-- A control message is built without a time. -/
theorem parseBody_absTimestamp {msgTypeId : MsgTypeId} {stream : List UInt8}
    {msg : RtmpMessage} (h : parseBody msgTypeId stream = some msg) :
    msg.header.absTimestamp = 0 := by
  have hfield : ∀ (make : UInt32 → RtmpMessage) (stream : List UInt8),
      (∀ v, (make v).header.absTimestamp = 0) → parseField make stream = some msg →
        msg.header.absTimestamp = 0 := by
    intro make stream hmake hfield
    unfold parseField at hfield
    split at hfield
    · cases hfield
      exact hmake _
    · cases hfield
  cases msgTypeId with
  | chunkSize => exact hfield _ _ (fun _ => rfl) h
  | abortMessage => exact hfield _ _ (fun _ => rfl) h
  | ack => exact hfield _ _ (fun _ => rfl) h
  | winAckSize => exact hfield _ _ (fun _ => rfl) h
  | usrCtrl =>
      simp only [parseBody, parseUserCtrl] at h
      split at h
      · split at h
        all_goals first | exact hfield _ _ (fun _ => rfl) h | skip
        · unfold parseUsrctrlSetBufferLength at h
          split at h
          · cases h
            rfl
          · cases h
        · cases h
      · cases h
  | peerBandwidth =>
      simp only [parseBody, parsePeerBandwidth] at h
      split at h
      · split at h
        · cases h
        · cases h
          rfl
      · cases h
  | _ => cases h

end ControlMsgParser

structure DataMsgParser where
  parsedMsg : Option RtmpMessage := none
  deriving DecidableEq, Repr

namespace DataMsgParser

open AMF0Serializer

def setDataFrame : List UInt8 :=
  ascii ['@', 's', 'e', 't', 'D', 'a', 't', 'a', 'F', 'r', 'a', 'm', 'e']

/-- `parse_data_msg`. Any first string other than `@setDataFrame` leads past the
`if` to `parsed_msg_->set_header`, on whatever message is there. -/
def parseDataMsg (p : DataMsgParser) (uninit : Uninit) (header : RtmpHeader)
    (stream : List UInt8) : Except Fault Bool × DataMsgParser :=
  match readShortString stream true with
  | (none, _) => (.ok false, p)
  | (some command, stream) =>
      if command = setDataFrame ∧ (consumeFull uninit stream).ok = false then (.ok false, p)
      else
        let parsedMsg :=
          if command = setDataFrame then some { body := .unknownMessage [] } else p.parsedMsg
        match parsedMsg with
        | some msg => (.ok true, { parsedMsg := some (msg.setHeader header) })
        | none => (.error .nullMessage, p)

/-- An accepted data message is a new unknown message or the one before it, under
the header of the data message. -/
theorem parseDataMsg_true {p : DataMsgParser} {uninit : Uninit} {header : RtmpHeader}
    {stream : List UInt8} (h : (p.parseDataMsg uninit header stream).1 = .ok true) :
    ∃ msg, (p.parseDataMsg uninit header stream).2.parsedMsg = some (msg.setHeader header) ∧
      (msg = { body := .unknownMessage [] } ∨ p.parsedMsg = some msg) := by
  unfold parseDataMsg at h ⊢
  rcases hread : readShortString stream true with ⟨command, rest⟩
  rw [hread] at h
  cases command with
  | none => simp at h
  | some command =>
      dsimp only at h ⊢
      by_cases hfail : command = setDataFrame ∧ (consumeFull uninit rest).ok = false
      · simp [if_pos hfail] at h
      · rw [if_neg hfail] at h ⊢
        by_cases hcommand : command = setDataFrame
        · exact ⟨{ body := .unknownMessage [] }, by simp [hcommand], Or.inl rfl⟩
        · cases hmsg : p.parsedMsg with
          | none => simp [hcommand, hmsg] at h
          | some msg => exact ⟨msg, by simp [hcommand], Or.inr rfl⟩

end DataMsgParser

structure MediaMsgParser where
  parsedMsg : Option RtmpMessage := none
  deriving DecidableEq, Repr

/-- `parse_media_msg`, which accepts every body. -/
def MediaMsgParser.parseMediaMsg (_ : MediaMsgParser) (header : RtmpHeader)
    (stream : List UInt8) : Bool × MediaMsgParser :=
  if header.msgTypeId = .videoData then
    (true, { parsedMsg := some { header, body := .videoMessage stream } })
  else (true, { parsedMsg := some { header, body := .audioMessage stream } })

/-- `CommandMsgType::type`. -/
inductive CommandMsgType where
  | checkBandwidth
  | close
  | closeStream
  | connect
  | createStream
  | deleteStream
  | error
  | fcPublish
  | fcUnpublish
  | fcSubscribe
  | getStreamLength
  | onBWCheck
  | onBWDone
  | onStatus
  | pause
  | pauseRaw
  | play
  | publish
  | releaseStream
  | result
  | seek
  | onMetaData
  | unknown
  deriving DecidableEq, Repr

namespace CommandMsgType

/-- The names `get_type` compares with, in its order. -/
def names : List (List UInt8 × CommandMsgType) :=
  [(ascii ['c', 'h', 'e', 'c', 'k', 'B', 'a', 'n', 'd', 'w', 'i', 'd', 't', 'h'],
      checkBandwidth),
    (ascii ['c', 'l', 'o', 's', 'e'], close),
    (ascii ['c', 'l', 'o', 's', 'e', 'S', 't', 'r', 'e', 'a', 'm'], closeStream),
    (ascii ['c', 'o', 'n', 'n', 'e', 'c', 't'], connect),
    (ascii ['c', 'r', 'e', 'a', 't', 'e', 'S', 't', 'r', 'e', 'a', 'm'], createStream),
    (ascii ['d', 'e', 'l', 'e', 't', 'e', 'S', 't', 'r', 'e', 'a', 'm'], deleteStream),
    (ascii ['_', 'e', 'r', 'r', 'o', 'r'], error),
    (ascii ['F', 'C', 'P', 'u', 'b', 'l', 'i', 's', 'h'], fcPublish),
    (ascii ['F', 'C', 'U', 'n', 'p', 'u', 'b', 'l', 'i', 's', 'h'], fcUnpublish),
    (ascii ['F', 'C', 'S', 'u', 'b', 's', 'c', 'r', 'i', 'b', 'e'], fcSubscribe),
    (ascii ['g', 'e', 't', 'S', 't', 'r', 'e', 'a', 'm', 'L', 'e', 'n', 'g', 't', 'h'],
      getStreamLength),
    (ascii ['o', 'n', 'B', 'W', 'c', 'h', 'e', 'c', 'k'], onBWCheck),
    (ascii ['o', 'n', 'B', 'W', 'D', 'o', 'n', 'e'], onBWDone),
    (ascii ['o', 'n', 'S', 't', 'a', 't', 'u', 's'], onStatus),
    (ascii ['p', 'a', 'u', 's', 'e'], pause),
    (ascii ['p', 'a', 'u', 's', 'e', 'R', 'a', 'w'], pauseRaw),
    (ascii ['p', 'l', 'a', 'y'], play),
    (ascii ['p', 'u', 'b', 'l', 'i', 's', 'h'], publish),
    (ascii ['r', 'e', 'l', 'e', 'a', 's', 'e', 'S', 't', 'r', 'e', 'a', 'm'], releaseStream),
    (ascii ['_', 'r', 'e', 's', 'u', 'l', 't'], result),
    (ascii ['s', 'e', 'e', 'k'], seek),
    (ascii ['O', 'n', 'M', 'e', 't', 'a', 'D', 'a', 't', 'a'], onMetaData)]

def getType (str : List UInt8) : CommandMsgType :=
  match names.find? fun entry => entry.1 = str with
  | some entry => entry.2
  | none => unknown

end CommandMsgType

structure CommandMsgParser where
  parsedMsg : Option RtmpMessage := none
  deriving DecidableEq, Repr

namespace CommandMsgParser

open AMF0Serializer

theorem consumeAny_suffix (uninit : Uninit) (stream : List UInt8) :
    (consumeAny uninit stream).rest <:+ stream :=
  (consumeAny uninit stream).suffix

/-- One property value of the connect object: what `r` read goes into the message. -/
def connectField {stream : List UInt8} {α : Type} (set : α → ConnectMessage) (r : Read α)
    (h : r.2 <:+ stream) : Option { x : ConnectMessage × List UInt8 // x.2 <:+ stream } :=
  r.1.map fun value => ⟨(set value, r.2), h⟩

/-- The `switch` over `ConnectMsgFieldType`: a key that is not known is skipped. -/
def parseConnectField (uninit : Uninit) (msg : ConnectMessage) (key stream : List UInt8) :
    Option { x : ConnectMessage × List UInt8 // x.2 <:+ stream } :=
  let string (set : List UInt8 → ConnectMessage) :=
    connectField set (readShortString stream true) (readShortString_suffix stream true)
  let number (set : UInt64 → ConnectMessage) :=
    connectField set (readNumber stream true) (readNumber_suffix stream true)
  if key = ascii ['a', 'p', 'p'] then string fun app => { msg with app }
  else if key = ascii ['f', 'l', 'a', 's', 'h', 'V', 'e', 'r'] then
    string fun flashver => { msg with flashver }
  else if key = ascii ['t', 'c', 'U', 'r', 'l'] then string fun tcUrl => { msg with tcUrl }
  else if key = ascii ['f', 'p', 'a', 'd'] then
    connectField (fun fpad => { msg with fpad := some fpad }) (readBoolean stream true)
      (readBoolean_suffix stream true)
  else if key = ascii ['c', 'a', 'p', 'a', 'b', 'i', 'l', 'i', 't', 'i', 'e', 's'] then
    number fun value => { msg with capabilities := some value }
  else if key = ascii ['a', 'u', 'd', 'i', 'o', 'C', 'o', 'd', 'e', 'c', 's'] then
    number fun value => { msg with audioCodecs := some value }
  else if key = ascii ['v', 'i', 'd', 'e', 'o', 'C', 'o', 'd', 'e', 'c', 's'] then
    number fun value => { msg with videoCodecs := some value }
  else if key = ascii ['v', 'i', 'd', 'e', 'o', 'F', 'u', 'n', 'c', 't', 'i', 'o', 'n'] then
    number fun value => { msg with videoFunction := some value }
  else if key = ascii ['o', 'b', 'j', 'e', 'c', 't', 'E', 'n', 'c', 'o', 'd', 'i', 'n', 'g'] then
    number fun value => { msg with objectEncoding := some value }
  else
    -- swfUrl, pageUrl and every other key: the value is not needed
    let value := consumeAny uninit stream
    connectField (fun _ : Unit => msg) (if value.ok then some () else none, value.rest)
      (consumeAny_suffix uninit stream)

/-- The loop of `parse_connect_msg` over the properties of the command object. -/
def parseConnectFields (uninit : Uninit) (msg : ConnectMessage) (stream : List UInt8) :
    Option ConnectMessage :=
  if _hlen : checkRedableLength stream 3 then
    if stream.take 3 = [0, 0, 9] then some msg
    else
      match (readShortString stream false).1 with
      | none => none
      | some key =>
          match parseConnectField uninit msg key (readShortString stream false).2 with
          | none => none
          | some ⟨(msg, rest), _hrest⟩ => parseConnectFields uninit msg rest
  else none
termination_by stream.length
decreasing_by
  have h3 : 3 ≤ stream.length := by simpa [checkRedableLength] using _hlen
  exact lt_of_le_of_lt _hrest.length_le (readShortString_lt (by omega))

def parseConnectMsg (uninit : Uninit) (stream : List UInt8) (transactionId : UInt64) :
    Option MessageBody :=
  match expectType .object true stream with
  | (some (), stream) =>
      (parseConnectFields uninit {} stream).map (.connectMessage transactionId ·)
  | (none, _) => none

/-- A null followed by one string, the argument list of three commands. -/
def parseStreamName (stream : List UInt8) : Option (List UInt8 × List UInt8) :=
  match readNull stream with
  | (none, _) => none
  | (some (), stream) =>
      match readShortString stream true with
      | (none, _) => none
      | (some streamName, stream) => some (streamName, stream)

def parseReleaseStream (stream : List UInt8) (transactionId : UInt64) : Option MessageBody :=
  (parseStreamName stream).map fun r => .releaseStream transactionId r.1

def parseFcPublish (stream : List UInt8) (transactionId : UInt64) : Option MessageBody :=
  (parseStreamName stream).map fun r => .fcPublish transactionId r.1

def parseFcUnpublish (stream : List UInt8) (transactionId : UInt64) : Option MessageBody :=
  (parseStreamName stream).map fun r => .fcUnPublish transactionId r.1

def parseCreateStream (stream : List UInt8) (transactionId : UInt64) : Option MessageBody :=
  (readNull stream).1.map fun _ => .createStream transactionId

def parseDeleteStream (stream : List UInt8) (transactionId : UInt64) : Option MessageBody :=
  match readNull stream with
  | (none, _) => none
  | (some (), stream) =>
      (readNumber stream true).1.map fun streamId => .deleteStream transactionId streamId

def parsePublish (stream : List UInt8) (transactionId : UInt64) : Option MessageBody :=
  match parseStreamName stream with
  | none => none
  | some (streamName, stream) =>
      (readShortString stream true).1.map fun streamType =>
        .publish transactionId streamName streamType

def parsePlay (stream : List UInt8) (transactionId : UInt64) : Option MessageBody :=
  (parseStreamName stream).map fun r => .play transactionId r.1

def parseUnknownCommand (uninit : Uninit) (stream : List UInt8) (transactionId : UInt64)
    (command : List UInt8) : Option MessageBody :=
  if (consumeFull uninit stream).ok then some (.unknownCommand transactionId command) else none

/-- The `switch` over the command; a name `get_type` knows but the `switch` does
not list leaves the result false. -/
def parseCommand (uninit : Uninit) (command stream : List UInt8) (transactionId : UInt64) :
    Option MessageBody :=
  match CommandMsgType.getType command with
  | .connect => parseConnectMsg uninit stream transactionId
  | .releaseStream => parseReleaseStream stream transactionId
  | .fcPublish => parseFcPublish stream transactionId
  | .fcUnpublish => parseFcUnpublish stream transactionId
  | .createStream => parseCreateStream stream transactionId
  | .publish => parsePublish stream transactionId
  | .play => parsePlay stream transactionId
  | .deleteStream => parseDeleteStream stream transactionId
  | .unknown => parseUnknownCommand uninit stream transactionId command
  | _ => none

/-- The body of `parse_command_msg` up to the message it builds. -/
def parseBody (uninit : Uninit) (header : RtmpHeader) (stream : List UInt8) :
    Option MessageBody :=
  if header.msgTypeId = .commandAmf3 ∧ checkRedableLength stream 1 = false then none
  else
    -- an AMF3 command has one more byte in front
    let stream := if header.msgTypeId = .commandAmf3 then stream.drop 1 else stream
    match readShortString stream true with
    | (none, _) => none
    | (some command, stream) =>
        match readNumber stream true with
        | (none, _) => none
        | (some transactionId, stream) => parseCommand uninit command stream transactionId

/-- `parse_command_msg`. -/
def parseCommandMsg (p : CommandMsgParser) (uninit : Uninit) (header : RtmpHeader)
    (stream : List UInt8) : Bool × CommandMsgParser :=
  match parseBody uninit header stream with
  | some body => (true, { parsedMsg := some { header, body } })
  | none => (false, p)

end CommandMsgParser

end Rtmp
