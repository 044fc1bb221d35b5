import Mathlib.Logic.Function.Basic
import RtmpModule.Protocol.MessageParsers

/-!
# Reassembling messages from chunks

`parse_payload` is called with a parsed chunk header once at least one byte
follows it. The first chunk of a message resolves the length, type and timestamp
of the message against the tables of its chunk stream and against the rollover
state of the connection, and it does so before it is known whether the payload
of the chunk has arrived. The entry of the message in `incomplete_infos_` is
made only when the chunk has been read and is not the last.
-/

namespace Rtmp

/-- The part of `MediaPublishEsContext` the payload parser shares with the rest of
the connection; nothing else writes it once the handshake is over. -/
structure RolloverContext where
  lastMessageTimestamp : UInt32 := 0
  rolloverCount : UInt32 := 0
  deriving DecidableEq, Repr

/-- `RtmpPayloadParser::channel_info`, zero for a chunk stream not seen before. -/
structure ChannelInfo where
  lastMsgLen : UInt32 := 0
  lastMsgTypeId : MsgTypeId := .unknown
  lastMsgTimestamp : UInt32 := 0
  lastMsgTimestampDelta : UInt32 := 0
  lastMsgAbsTimestamp : UInt64 := 0
  deriving DecidableEq, Repr

/-- `RtmpPayloadParser::received_payload_info`: the first `recv_length` bytes of
`recv_buf` are the bytes received so far. -/
structure ReceivedPayloadInfo where
  firstChunkHeader : RtmpHeader
  recvBuf : List UInt8 := []
  deriving DecidableEq, Repr

def ReceivedPayloadInfo.recvLength (info : ReceivedPayloadInfo) : UInt32 :=
  UInt32.ofNat info.recvBuf.length

/-- `RtmpPayloadParseResult::type`. -/
inductive RtmpPayloadParseResult where
  | complete
  | fail
  | waitingMorePayloadData
  | waitingNextChunk
  deriving DecidableEq, Repr

structure RtmpPayloadParser where
  context : RolloverContext := {}
  incompleteInfos : UInt32 → Option ReceivedPayloadInfo := fun _ => none
  channels : UInt32 → ChannelInfo := fun _ => {}
  controlMsgParser : ControlMsgParser := {}
  commandMsgParser : CommandMsgParser := {}
  mediaMsgParser : MediaMsgParser := {}
  dataMsgParser : DataMsgParser := {}
  parsedMsg : Option RtmpMessage := none
  recvChunkSize : UInt32 := 128

namespace RtmpPayloadParser

open Sna

/-- Replace the entry of one chunk stream. -/
def setChannel (p : RtmpPayloadParser) (csId : UInt32) (channel : ChannelInfo) :
    RtmpPayloadParser :=
  { p with channels := Function.update p.channels csId channel }

/-- What the start of a message computes: its header with every field resolved,
and the entry of its chunk stream and the rollover state after it. -/
structure Started where
  header : RtmpHeader
  channel : ChannelInfo
  context : RolloverContext
  deriving DecidableEq, Repr

/-- Length and type: taken over from the header if it has them, else given to it. -/
def resolveLength (header : RtmpHeader) (channel : ChannelInfo) : RtmpHeader × ChannelInfo :=
  if header.hasMsgLenAndType then
    (header, { channel with
      lastMsgLen := header.msgLength, lastMsgTypeId := header.msgTypeId })
  else
    ({ header with msgLength := channel.lastMsgLen, msgTypeId := channel.lastMsgTypeId },
      channel)

/-- The branch of a type 0 header. -/
def startFull (header : RtmpHeader) (channel : ChannelInfo) (context : RolloverContext) :
    Started :=
  let (absTimestamp, rolloverCount) :=
    unrollAfter (serialnumber header.timestamp.toNat)
      (serialnumber context.lastMessageTimestamp.toNat) context.rolloverCount
  { header := { header with absTimestamp },
    channel := { channel with
      lastMsgAbsTimestamp := absTimestamp,
      lastMsgTimestampDelta := header.timestampDelta,
      lastMsgTimestamp := header.timestamp },
    context := { lastMessageTimestamp := header.timestamp, rolloverCount } }

/-- The branches of types 1, 2 and 3, which differ only in where the delta is from. -/
def startDelta (delta : UInt32) (header : RtmpHeader) (channel : ChannelInfo)
    (context : RolloverContext) : Except Fault Started := do
  let (s, rolloverCount) ←
    add (serialnumber channel.lastMsgTimestamp.toNat) delta.toNat context.rolloverCount
  let absTimestamp := unroll s rolloverCount
  let timestamp := channel.lastMsgTimestamp + delta
  return {
    header := { header with absTimestamp, timestampDelta := delta, timestamp },
    channel := { channel with
      lastMsgAbsTimestamp := absTimestamp,
      lastMsgTimestampDelta := delta,
      lastMsgTimestamp := timestamp },
    context := { lastMessageTimestamp := UInt32.ofNat s.number, rolloverCount } }

/-- The timestamp computation, by the format of the first chunk. -/
def startTimestamp (header : RtmpHeader) (channel : ChannelInfo) (context : RolloverContext) :
    Except Fault Started :=
  match header.formatType with
  | .full => .ok (startFull header channel context)
  | .sameStream => startDelta header.timestampDelta header channel context
  | .sameLengthAndStream => startDelta header.timestampDelta header channel context
  | .continuation => startDelta channel.lastMsgTimestampDelta header channel context
  | .unknown => .ok { header, channel, context }

/-- The branch for a chunk stream with no entry in `incomplete_infos_`. The tables
are written as the computation goes, so an exception leaves the length and type. -/
def startMessage (p : RtmpPayloadParser) (header : RtmpHeader) :
    Except Fault RtmpHeader × RtmpPayloadParser :=
  let csId := header.chunkStreamId
  let (header, channel) := resolveLength header (p.channels csId)
  match startTimestamp header channel p.context with
  | .ok started =>
      (.ok started.header, { p.setChannel csId started.channel with context := started.context })
  | .error fault => (.error fault, p.setChannel csId channel)

/-- The entry of the message the chunk belongs to, old or new. -/
def findOrStart (p : RtmpPayloadParser) (header : RtmpHeader) :
    Except Fault ReceivedPayloadInfo × RtmpPayloadParser :=
  match p.incompleteInfos header.chunkStreamId with
  | some recvInfo => (.ok recvInfo, p)
  | none =>
      match p.startMessage header with
      | (.ok firstChunkHeader, p) => (.ok { firstChunkHeader }, p)
      | (.error fault, p) => (.error fault, p)

def needSize (recvInfo : ReceivedPayloadInfo) : UInt32 :=
  recvInfo.firstChunkHeader.msgLength - recvInfo.recvLength

def thisMsgSize (p : RtmpPayloadParser) (recvInfo : ReceivedPayloadInfo) : UInt32 :=
  if needSize recvInfo > p.recvChunkSize then p.recvChunkSize else needSize recvInfo

/-- The message the payload of a finished message is turned into. `parsed_msg_` is
dereferenced at the end, so a control parser without a message is a fault. -/
def parseMessage (p : RtmpPayloadParser) (uninit : AMF0Serializer.Uninit)
    (firstHeader : RtmpHeader) (payload : List UInt8) :
    Except Fault RtmpPayloadParseResult × RtmpPayloadParser :=
  if firstHeader.isControlMsg then
    -- the result of parse_control_msg is not looked at
    let (_, controlMsgParser) := p.controlMsgParser.parseControlMsg firstHeader payload
    let p := { p with controlMsgParser, parsedMsg := controlMsgParser.parsedMsg }
    (if p.parsedMsg.isSome then .ok .complete else .error .nullMessage, p)
  else if firstHeader.isCommandMsg then
    let (result, commandMsgParser) :=
      p.commandMsgParser.parseCommandMsg uninit firstHeader payload
    let p := { p with commandMsgParser }
    if result then (.ok .complete, { p with parsedMsg := commandMsgParser.parsedMsg })
    else (.ok .fail, p)
  else if firstHeader.isDataMsg then
    let (result, dataMsgParser) := p.dataMsgParser.parseDataMsg uninit firstHeader payload
    let p := { p with dataMsgParser }
    match result with
    | .ok true => (.ok .complete, { p with parsedMsg := dataMsgParser.parsedMsg })
    | .ok false => (.ok .fail, p)
    | .error fault => (.error fault, p)
  else if firstHeader.isVideoMsg || firstHeader.isAudioMsg then
    let (result, mediaMsgParser) := p.mediaMsgParser.parseMediaMsg firstHeader payload
    let p := { p with mediaMsgParser }
    if result then (.ok .complete, { p with parsedMsg := mediaMsgParser.parsedMsg })
    else (.ok .fail, p)
  else
    -- parse_unknown_message does not hand the header over
    (.ok .complete, { p with parsedMsg := some { body := .unknownMessage payload } })

/-- What a call of `parse_payload` does: its result, or the fault that ends it,
with the parser, the unread bytes and the `readed_size` it leaves. -/
structure PayloadCall where
  result : Except Fault RtmpPayloadParseResult
  parser : RtmpPayloadParser
  stream : List UInt8
  readedSize : Nat

/-- Replace or remove the entry of one chunk stream in `incomplete_infos_`. -/
def setInfo (p : RtmpPayloadParser) (csId : UInt32) (recvInfo : Option ReceivedPayloadInfo) :
    RtmpPayloadParser :=
  { p with incompleteInfos := Function.update p.incompleteInfos csId recvInfo }

/-- The end of `parse_payload`, once the payload of the chunk is in `recv_buf`.
An entry found in the map is the object that has been extended, so it stays
extended even if the message is rejected. -/
def finishChunk (p : RtmpPayloadParser) (uninit : AMF0Serializer.Uninit) (csId : UInt32)
    (recvInfo : ReceivedPayloadInfo) (isLast : Bool) :
    Except Fault RtmpPayloadParseResult × RtmpPayloadParser :=
  if isLast then
    let p := if (p.incompleteInfos csId).isSome then p.setInfo csId (some recvInfo) else p
    match p.parseMessage uninit recvInfo.firstChunkHeader recvInfo.recvBuf with
    | (.ok .complete, p) => (.ok .complete, p.setInfo csId none)
    | (result, p) => (result, p)
  else (.ok .waitingNextChunk, p.setInfo csId (some recvInfo))

/-- `parse_payload`. -/
def parsePayload (p : RtmpPayloadParser) (uninit : AMF0Serializer.Uninit) (header : RtmpHeader)
    (stream : List UInt8) (bufSize : Nat) : PayloadCall :=
  match p.findOrStart header with
  | (.error fault, p) => { result := .error fault, parser := p, stream, readedSize := 0 }
  | (.ok recvInfo, p) =>
      let size := (p.thisMsgSize recvInfo).toNat
      if size ≤ bufSize then
        let isLast := decide (p.thisMsgSize recvInfo = needSize recvInfo)
        let recvInfo :=
          { recvInfo with recvBuf := recvInfo.recvBuf ++ stream.take size }
        let (result, p) := p.finishChunk uninit header.chunkStreamId recvInfo isLast
        { result, parser := p, stream := stream.drop size, readedSize := size }
      else
        { result := .ok .waitingMorePayloadData, parser := p, stream, readedSize := 0 }

/-- What is known of the message a chunk belongs to before its timestamp is resolved:
length and type, and the payload received so far. -/
def messageOf (p : RtmpPayloadParser) (header : RtmpHeader) : ReceivedPayloadInfo :=
  (p.incompleteInfos header.chunkStreamId).getD
    { firstChunkHeader := (resolveLength header (p.channels header.chunkStreamId)).1 }

/-- The delta the first chunk of a message adds to the timestamp of its chunk stream. -/
def messageDelta (header : RtmpHeader) (channel : ChannelInfo) : UInt32 :=
  match header.formatType with
  | .full => 0
  | .sameStream => header.timestampDelta
  | .sameLengthAndStream => header.timestampDelta
  | .continuation => channel.lastMsgTimestampDelta
  | .unknown => 0

section ParseMessage

variable (p : RtmpPayloadParser) (uninit : AMF0Serializer.Uninit) {firstHeader : RtmpHeader}
  (payload : List UInt8)

theorem parseMessage_control (h : firstHeader.isControlMsg = true) :
    p.parseMessage uninit firstHeader payload =
      (if (p.controlMsgParser.parseControlMsg firstHeader payload).2.parsedMsg.isSome then
          .ok .complete else .error .nullMessage,
        { p with
          controlMsgParser := (p.controlMsgParser.parseControlMsg firstHeader payload).2
          parsedMsg := (p.controlMsgParser.parseControlMsg firstHeader payload).2.parsedMsg }) := by
  rw [parseMessage, if_pos h]

/-- The four kinds of message a type can belong to exclude one another. -/
theorem isCommandMsg_not_control (h : firstHeader.isCommandMsg = true) :
    firstHeader.isControlMsg = false := by
  simp only [RtmpHeader.isCommandMsg, Bool.or_eq_true, decide_eq_true_eq] at h
  rcases h with h | h <;> simp [RtmpHeader.isControlMsg, h] <;> decide

theorem isDataMsg_not_command (h : firstHeader.isDataMsg = true) :
    firstHeader.isControlMsg = false ∧ firstHeader.isCommandMsg = false := by
  simp only [RtmpHeader.isDataMsg, Bool.or_eq_true, decide_eq_true_eq] at h
  rcases h with h | h <;> simp [RtmpHeader.isControlMsg, RtmpHeader.isCommandMsg, h] <;> decide

theorem isMediaMsg_not_data (h : (firstHeader.isVideoMsg || firstHeader.isAudioMsg) = true) :
    firstHeader.isControlMsg = false ∧ firstHeader.isCommandMsg = false ∧
      firstHeader.isDataMsg = false := by
  simp only [RtmpHeader.isVideoMsg, RtmpHeader.isAudioMsg, Bool.or_eq_true,
    decide_eq_true_eq] at h
  rcases h with h | h <;>
    simp [RtmpHeader.isControlMsg, RtmpHeader.isCommandMsg, RtmpHeader.isDataMsg, h] <;> decide

theorem parseMessage_command_ok {body : MessageBody} (h : firstHeader.isCommandMsg = true)
    (hbody : CommandMsgParser.parseBody uninit firstHeader payload = some body) :
    p.parseMessage uninit firstHeader payload =
      (.ok .complete, { p with
        commandMsgParser := { parsedMsg := some { header := firstHeader, body } }
        parsedMsg := some { header := firstHeader, body } }) := by
  simp [parseMessage, isCommandMsg_not_control h, h, CommandMsgParser.parseCommandMsg, hbody]

theorem parseMessage_command_fail (h : firstHeader.isCommandMsg = true)
    (hbody : CommandMsgParser.parseBody uninit firstHeader payload = none) :
    p.parseMessage uninit firstHeader payload = (.ok .fail, p) := by
  simp [parseMessage, isCommandMsg_not_control h, h, CommandMsgParser.parseCommandMsg, hbody]

theorem parseMessage_data (h : firstHeader.isDataMsg = true) :
    p.parseMessage uninit firstHeader payload =
      match (p.dataMsgParser.parseDataMsg uninit firstHeader payload).1 with
      | .ok true =>
          (.ok .complete, { p with
            dataMsgParser := (p.dataMsgParser.parseDataMsg uninit firstHeader payload).2
            parsedMsg :=
              (p.dataMsgParser.parseDataMsg uninit firstHeader payload).2.parsedMsg })
      | .ok false =>
          (.ok .fail, { p with
            dataMsgParser := (p.dataMsgParser.parseDataMsg uninit firstHeader payload).2 })
      | .error fault =>
          (.error fault, { p with
            dataMsgParser := (p.dataMsgParser.parseDataMsg uninit firstHeader payload).2 }) := by
  obtain ⟨hcontrol, hcommand⟩ := isDataMsg_not_command h
  simp [parseMessage, hcontrol, hcommand, h]

/-- The message a media payload is delivered as. -/
def mediaMessage (firstHeader : RtmpHeader) (payload : List UInt8) : RtmpMessage :=
  { header := firstHeader
    body := if firstHeader.msgTypeId = .videoData then .videoMessage payload
      else .audioMessage payload }

theorem parseMessage_media (h : (firstHeader.isVideoMsg || firstHeader.isAudioMsg) = true) :
    p.parseMessage uninit firstHeader payload =
      (.ok .complete, { p with
        mediaMsgParser := { parsedMsg := some (mediaMessage firstHeader payload) }
        parsedMsg := some (mediaMessage firstHeader payload) }) := by
  obtain ⟨hcontrol, hcommand, hdata⟩ := isMediaMsg_not_data h
  simp only [parseMessage, hcontrol, hcommand, hdata, h, Bool.false_eq_true, ↓reduceIte,
    MediaMsgParser.parseMediaMsg, mediaMessage]
  split <;> rfl

theorem parseMessage_unknown (hcontrol : firstHeader.isControlMsg = false)
    (hcommand : firstHeader.isCommandMsg = false) (hdata : firstHeader.isDataMsg = false)
    (hmedia : (firstHeader.isVideoMsg || firstHeader.isAudioMsg) = false) :
    p.parseMessage uninit firstHeader payload =
      (.ok .complete, { p with parsedMsg := some { body := .unknownMessage payload } }) := by
  simp [parseMessage, hcontrol, hcommand, hdata, hmedia]

/-- A message that is complete is there to be looked at. -/
theorem parseMessage_complete
    (h : (p.parseMessage uninit firstHeader payload).1 = .ok .complete) :
    (p.parseMessage uninit firstHeader payload).2.parsedMsg.isSome := by
  by_cases hcontrol : firstHeader.isControlMsg = true
  · rw [parseMessage_control p uninit payload hcontrol] at h ⊢
    dsimp only at h ⊢
    by_contra hnone
    rw [if_neg hnone] at h
    cases h
  by_cases hcommand : firstHeader.isCommandMsg = true
  · cases hbody : CommandMsgParser.parseBody uninit firstHeader payload with
    | none =>
        rw [parseMessage_command_fail p uninit payload hcommand hbody] at h
        cases h
    | some body =>
        rw [parseMessage_command_ok p uninit payload hcommand hbody]
        rfl
  by_cases hdata : firstHeader.isDataMsg = true
  · rw [parseMessage_data p uninit payload hdata] at h ⊢
    cases hr : (p.dataMsgParser.parseDataMsg uninit firstHeader payload).1 with
    | error fault =>
        rw [hr] at h
        cases h
    | ok accepted =>
        cases accepted with
        | false =>
            rw [hr] at h
            cases h
        | true =>
            obtain ⟨msg, hmsg, -⟩ := DataMsgParser.parseDataMsg_true hr
            simp [hmsg]
  by_cases hmedia : (firstHeader.isVideoMsg || firstHeader.isAudioMsg) = true
  · rw [parseMessage_media p uninit payload hmedia]
    rfl
  · simp only [Bool.not_eq_true] at hcontrol hcommand hdata hmedia
    rw [parseMessage_unknown p uninit payload hcontrol hcommand hdata hmedia]
    rfl

end ParseMessage

section Frame

variable {p p' : RtmpPayloadParser} {header : RtmpHeader} {channel : ChannelInfo}
  {context : RolloverContext} {started : Started}

/-- Resolving the timestamp leaves the rest of the header alone. -/
theorem startTimestamp_header (h : startTimestamp header channel context = .ok started) :
    started.header = { header with
      timestamp := started.header.timestamp
      timestampDelta := started.header.timestampDelta
      absTimestamp := started.header.absTimestamp } := by
  unfold startTimestamp at h
  split at h
  · cases h
    rfl
  all_goals
    try
      simp only [startDelta, bind, Except.bind] at h
      split at h
      · cases h
      · cases h
        rfl
  · cases h
    rfl

/-- The timestamp a delta leads to, as the serial number `add` returns. -/
def deltaNumber (delta : UInt32) (channel : ChannelInfo) : SerialNumber :=
  serialnumber (channel.lastMsgTimestamp.toNat + delta.toNat)

/-- The rollover count `add` leaves behind. -/
def deltaCount (delta : UInt32) (channel : ChannelInfo) (context : RolloverContext) : UInt32 :=
  countAfter (serialnumber channel.lastMsgTimestamp.toNat) (deltaNumber delta channel)
    context.rolloverCount

theorem startDelta_of_le {delta : UInt32} (h : delta.toNat ≤ 2147483647) :
    startDelta delta header channel context = .ok {
      header := { header with
        absTimestamp := unroll (deltaNumber delta channel) (deltaCount delta channel context)
        timestampDelta := delta
        timestamp := channel.lastMsgTimestamp + delta }
      channel := { channel with
        lastMsgAbsTimestamp :=
          unroll (deltaNumber delta channel) (deltaCount delta channel context)
        lastMsgTimestampDelta := delta
        lastMsgTimestamp := channel.lastMsgTimestamp + delta }
      context := {
        lastMessageTimestamp := UInt32.ofNat (deltaNumber delta channel).number
        rolloverCount := deltaCount delta channel context } } := by
  rw [startDelta, add_of_le (by simpa using h), number_serialnumber]
  rfl

theorem startDelta_of_lt {delta : UInt32} (h : 2147483647 < delta.toNat) :
    startDelta delta header channel context = .error .overflowError := by
  rw [startDelta, add_of_lt (by simpa using h)]
  rfl

/-- Only a delta above the largest addend stops the start of a message. -/
theorem startTimestamp_error_iff :
    (∃ fault, startTimestamp header channel context = .error fault) ↔
      2147483647 < (messageDelta header channel).toNat := by
  have hdelta : ∀ delta : UInt32, (∃ fault, startDelta delta header channel context =
      .error fault) ↔ 2147483647 < delta.toNat := by
    intro delta
    by_cases hle : delta.toNat ≤ 2147483647
    · rw [startDelta_of_le hle]
      simp only [reduceCtorEq, exists_false, false_iff]
      omega
    · rw [startDelta_of_lt (Nat.lt_of_not_le hle)]
      simp only [Except.error.injEq, exists_eq', true_iff]
      omega
  cases hf : header.formatType with
  | full => simp [startTimestamp, messageDelta, hf]
  | sameStream => simpa only [startTimestamp, messageDelta, hf] using hdelta _
  | sameLengthAndStream => simpa only [startTimestamp, messageDelta, hf] using hdelta _
  | continuation => simpa only [startTimestamp, messageDelta, hf] using hdelta _
  | unknown => simp [startTimestamp, messageDelta, hf]

end Frame

section Restart

variable {p p' : RtmpPayloadParser} {header : RtmpHeader} {channel : ChannelInfo}
  {context : RolloverContext} {started : Started}

/-- The timestamp computation keeps the length and type of the chunk stream and the
delta the format goes by. -/
theorem startTimestamp_channel (h : startTimestamp header channel context = .ok started) :
    started.channel.lastMsgLen = channel.lastMsgLen ∧
    started.channel.lastMsgTypeId = channel.lastMsgTypeId ∧
    messageDelta header started.channel = messageDelta header channel := by
  unfold startTimestamp at h
  unfold messageDelta
  split at h
  · cases h
    exact ⟨rfl, rfl, rfl⟩
  all_goals
    try
      simp only [startDelta, bind, Except.bind] at h
      split at h
      · cases h
      · cases h
        exact ⟨rfl, rfl, rfl⟩
  · cases h
    exact ⟨rfl, rfl, rfl⟩

/-- A type 0 header computes the same a second time: its own timestamp is then the
last one, and no rollover lies between the two. -/
theorem startFull_restart :
    startFull header (startFull header channel context).channel
      (startFull header channel context).context = startFull header channel context := by
  simp only [startFull, unrollAfter_eq, countAfter_self]

/-- A zero delta adds nothing, however often. -/
theorem startDelta_restart (h : startDelta 0 header channel context = .ok started) :
    startDelta 0 header started.channel started.context = .ok started := by
  have hnumber : ∀ channel : ChannelInfo,
      deltaNumber 0 channel = serialnumber channel.lastMsgTimestamp.toNat := fun _ => rfl
  rw [startDelta_of_le (by decide)] at h
  cases h
  rw [startDelta_of_le (by decide)]
  simp only [deltaCount, hnumber, countAfter_self, UInt32.add_zero]

/-- Starting a message again without a delta finds everything as it left it. -/
theorem startTimestamp_restart (hdelta : messageDelta header channel = 0)
    (h : startTimestamp header channel context = .ok started) :
    startTimestamp header started.channel started.context = .ok started := by
  have hkeep := (startTimestamp_channel h).2.2
  cases hf : header.formatType with
  | full =>
      simp only [startTimestamp, hf] at h ⊢
      cases h
      rw [startFull_restart]
  | sameStream =>
      simp only [startTimestamp, messageDelta, hf] at h hdelta ⊢
      rw [hdelta] at h ⊢
      exact startDelta_restart h
  | sameLengthAndStream =>
      simp only [startTimestamp, messageDelta, hf] at h hdelta ⊢
      rw [hdelta] at h ⊢
      exact startDelta_restart h
  | continuation =>
      simp only [startTimestamp, messageDelta, hf] at h hdelta hkeep ⊢
      rw [hdelta] at h hkeep
      rw [hkeep]
      exact startDelta_restart h
  | unknown =>
      simp only [startTimestamp, hf] at h ⊢
      cases h
      rfl

theorem messageDelta_resolveLength (channel' : ChannelInfo) :
    messageDelta (resolveLength header channel).1 channel' = messageDelta header channel' := by
  unfold resolveLength
  split <;> rfl

theorem resolveLength_delta :
    messageDelta header (resolveLength header channel).2 = messageDelta header channel := by
  unfold resolveLength
  split <;> rfl

/-- Once the entry holds the length and type of the message, resolving them again
changes nothing. -/
theorem resolveLength_restart {channel' : ChannelInfo}
    (hlen : channel'.lastMsgLen = (resolveLength header channel).2.lastMsgLen)
    (htype : channel'.lastMsgTypeId = (resolveLength header channel).2.lastMsgTypeId) :
    resolveLength header channel' = ((resolveLength header channel).1, channel') := by
  unfold resolveLength at hlen htype ⊢
  split
  · rename_i hhas
    rw [if_pos hhas] at hlen htype
    dsimp only at hlen htype ⊢
    rw [← hlen, ← htype]
  · rename_i hhas
    rw [if_neg hhas] at hlen htype
    rw [hlen, htype]

/-- What a successful start of a message leaves behind. -/
theorem startMessage_ok {firstChunkHeader : RtmpHeader}
    (h : p.startMessage header = (.ok firstChunkHeader, p')) :
    ∃ started, startTimestamp (resolveLength header (p.channels header.chunkStreamId)).1
        (resolveLength header (p.channels header.chunkStreamId)).2 p.context = .ok started ∧
      firstChunkHeader = started.header ∧
      p' = { p.setChannel header.chunkStreamId started.channel with
        context := started.context } := by
  unfold startMessage at h
  dsimp only at h
  split at h
  · rename_i started hstarted
    cases h
    exact ⟨started, hstarted, rfl, rfl⟩
  · cases h

/-- Starting a message leaves the delta its format goes by where it was. -/
theorem startMessage_delta {firstChunkHeader : RtmpHeader}
    (h : p.startMessage header = (.ok firstChunkHeader, p')) :
    messageDelta header (p'.channels header.chunkStreamId) =
      messageDelta header (p.channels header.chunkStreamId) := by
  obtain ⟨started, hstarted, rfl, rfl⟩ := startMessage_ok h
  have hkeep := (startTimestamp_channel hstarted).2.2
  rw [messageDelta_resolveLength, messageDelta_resolveLength, resolveLength_delta] at hkeep
  simpa [setChannel] using hkeep

/-- The start of a message without a delta can be repeated. -/
theorem startMessage_restart (hdelta : messageDelta header (p.channels header.chunkStreamId) = 0)
    {firstChunkHeader : RtmpHeader} (h : p.startMessage header = (.ok firstChunkHeader, p')) :
    p'.startMessage header = (.ok firstChunkHeader, p') := by
  obtain ⟨started, hstarted, rfl, rfl⟩ := startMessage_ok h
  obtain ⟨hlen, htype, -⟩ := startTimestamp_channel hstarted
  have hzero : messageDelta (resolveLength header (p.channels header.chunkStreamId)).1
      (resolveLength header (p.channels header.chunkStreamId)).2 = 0 := by
    rw [messageDelta_resolveLength, resolveLength_delta, hdelta]
  have hagain := startTimestamp_restart hzero hstarted
  simp only [startMessage, setChannel, Function.update_self, resolveLength_restart hlen htype,
    hagain, Function.update_idem]

/-- Looking at a chunk writes the tables of its chunk stream and the rollover state,
nothing else, and the entry it finds or makes has the length, the type and the
payload that were known before. -/
theorem findOrStart_frame {recvInfo : ReceivedPayloadInfo}
    (h : p.findOrStart header = (.ok recvInfo, p')) :
    p' = { p with channels := p'.channels, context := p'.context } ∧
      recvInfo = { p.messageOf header with
        firstChunkHeader := { (p.messageOf header).firstChunkHeader with
          timestamp := recvInfo.firstChunkHeader.timestamp
          timestampDelta := recvInfo.firstChunkHeader.timestampDelta
          absTimestamp := recvInfo.firstChunkHeader.absTimestamp } } := by
  unfold findOrStart at h
  split at h
  · rename_i info hinfo
    cases h
    simp [messageOf, hinfo]
  · rename_i hinfo
    split at h
    · rename_i firstChunkHeader q hstart
      cases h
      obtain ⟨started, hstarted, rfl, rfl⟩ := startMessage_ok hstart
      refine ⟨rfl, ?_⟩
      have hheader := startTimestamp_header hstarted
      simp only [messageOf, hinfo, Option.getD_none]
      rw [← hheader]
    · cases h

/-- A type 0 chunk of a new message is always taken up, under its own header. -/
theorem findOrStart_full (hnone : p.incompleteInfos header.chunkStreamId = none)
    (hfull : header.formatType = .full) :
    ∃ firstChunkHeader p', p.findOrStart header = (.ok { firstChunkHeader }, p') ∧
      firstChunkHeader = { header with absTimestamp := firstChunkHeader.absTimestamp } := by
  have hhas : header.hasMsgLenAndType = true := by simp [RtmpHeader.hasMsgLenAndType, hfull]
  have hstart : ∀ channel, startTimestamp header channel p.context =
      .ok (startFull header channel p.context) := by
    intro channel
    simp only [startTimestamp, hfull]
  simp only [findOrStart, hnone, startMessage, resolveLength, hhas, ↓reduceIte, hstart]
  exact ⟨_, _, rfl, rfl⟩

/-- A chunk can be looked at unless it starts a message with too large a delta. -/
theorem findOrStart_error_iff :
    (∃ fault, (p.findOrStart header).1 = .error fault) ↔
      p.incompleteInfos header.chunkStreamId = none ∧
        2147483647 < (messageDelta header (p.channels header.chunkStreamId)).toNat := by
  unfold findOrStart
  split
  · rename_i info hinfo
    simp [hinfo]
  · rename_i hinfo
    rw [← resolveLength_delta, ← messageDelta_resolveLength, ← startTimestamp_error_iff]
    simp only [hinfo, true_and, startMessage]
    cases startTimestamp (resolveLength header (p.channels header.chunkStreamId)).1
      (resolveLength header (p.channels header.chunkStreamId)).2 p.context with
    | ok started => simp
    | error fault => simp

/-- A chunk that has been looked at without being read can be looked at again, if
it continues a message or its message has no delta. -/
theorem findOrStart_restart {recvInfo : ReceivedPayloadInfo}
    (h : p.findOrStart header = (.ok recvInfo, p'))
    (hdelta : p'.incompleteInfos header.chunkStreamId = none →
      messageDelta header (p'.channels header.chunkStreamId) = 0) :
    p'.findOrStart header = (.ok recvInfo, p') := by
  unfold findOrStart at h
  split at h
  · rename_i info hinfo
    cases h
    simp only [findOrStart, hinfo]
  · rename_i hinfo
    split at h
    · rename_i firstChunkHeader q hstart
      cases h
      obtain ⟨started, -, -, hq⟩ := startMessage_ok hstart
      have hinfo' : p'.incompleteInfos header.chunkStreamId = none := by
        rw [hq]
        exact hinfo
      have hdelta' := hdelta hinfo'
      rw [startMessage_delta hstart] at hdelta'
      simp only [findOrStart, hinfo', startMessage_restart hdelta' hstart]
    · cases h

/-- Reading a chunk after having looked at it is reading it at once. -/
theorem parsePayload_restart (uninit : AMF0Serializer.Uninit) (stream : List UInt8)
    (bufSize : Nat) {recvInfo : ReceivedPayloadInfo}
    (h : p.findOrStart header = (.ok recvInfo, p'))
    (hdelta : p'.incompleteInfos header.chunkStreamId = none →
      messageDelta header (p'.channels header.chunkStreamId) = 0) :
    p'.parsePayload uninit header stream bufSize = p.parsePayload uninit header stream bufSize := by
  simp only [parsePayload, h, findOrStart_restart h hdelta]

end Restart

section ParsePayload

variable {p : RtmpPayloadParser} {uninit : AMF0Serializer.Uninit} {header : RtmpHeader}
  {stream : List UInt8} {bufSize : Nat}

theorem parsePayload_of_error {fault : Fault} {p' : RtmpPayloadParser}
    (h : p.findOrStart header = (.error fault, p')) :
    p.parsePayload uninit header stream bufSize =
      { result := .error fault, parser := p', stream, readedSize := 0 } := by
  simp only [parsePayload, h]

theorem parsePayload_of_short {recvInfo : ReceivedPayloadInfo} {p' : RtmpPayloadParser}
    (h : p.findOrStart header = (.ok recvInfo, p'))
    (hshort : bufSize < (p'.thisMsgSize recvInfo).toNat) :
    p.parsePayload uninit header stream bufSize =
      { result := .ok .waitingMorePayloadData, parser := p', stream, readedSize := 0 } := by
  simp only [parsePayload, h, if_neg (Nat.not_le_of_lt hshort)]

theorem parsePayload_of_le {recvInfo : ReceivedPayloadInfo} {p' : RtmpPayloadParser}
    (h : p.findOrStart header = (.ok recvInfo, p'))
    (hle : (p'.thisMsgSize recvInfo).toNat ≤ bufSize) :
    p.parsePayload uninit header stream bufSize =
      { result := (p'.finishChunk uninit header.chunkStreamId
          { recvInfo with
            recvBuf := recvInfo.recvBuf ++ stream.take (p'.thisMsgSize recvInfo).toNat }
          (decide (p'.thisMsgSize recvInfo = needSize recvInfo))).1
        parser := (p'.finishChunk uninit header.chunkStreamId
          { recvInfo with
            recvBuf := recvInfo.recvBuf ++ stream.take (p'.thisMsgSize recvInfo).toNat }
          (decide (p'.thisMsgSize recvInfo = needSize recvInfo))).2
        stream := stream.drop (p'.thisMsgSize recvInfo).toNat
        readedSize := (p'.thisMsgSize recvInfo).toNat } := by
  simp only [parsePayload, h, if_pos hle]

/-- A finished message is delivered, refused or a fault. -/
theorem parseMessage_result (firstHeader : RtmpHeader) (payload : List UInt8) :
    (p.parseMessage uninit firstHeader payload).1 = .ok .complete ∨
      (p.parseMessage uninit firstHeader payload).1 = .ok .fail ∨
      ∃ fault, (p.parseMessage uninit firstHeader payload).1 = .error fault := by
  unfold parseMessage
  split
  · dsimp only
    split <;> simp
  split
  · dsimp only
    split <;> simp
  split
  · dsimp only
    split <;> simp
  split
  · dsimp only
    split <;> simp
  · simp

theorem parseMessage_incompleteInfos (firstHeader : RtmpHeader) (payload : List UInt8) :
    (p.parseMessage uninit firstHeader payload).2.incompleteInfos = p.incompleteInfos := by
  unfold parseMessage
  split
  · rfl
  split
  · dsimp only
    split <;> rfl
  split
  · dsimp only
    split <;> rfl
  split
  · dsimp only
    split <;> rfl
  · rfl

/-- What the last chunk of a message does to the entries. -/
theorem finishChunk_last (csId : UInt32) (recvInfo : ReceivedPayloadInfo) :
    ((p.finishChunk uninit csId recvInfo true).1 = .ok .complete ∧
      (p.finishChunk uninit csId recvInfo true).2.incompleteInfos =
        Function.update p.incompleteInfos csId none) ∨
    (p.finishChunk uninit csId recvInfo true).1 = .ok .fail ∨
      ∃ fault, (p.finishChunk uninit csId recvInfo true).1 = .error fault := by
  simp only [finishChunk, ↓reduceIte]
  generalize hq : (if (p.incompleteInfos csId).isSome then p.setInfo csId (some recvInfo) else p)
    = q
  have hinfos : Function.update q.incompleteInfos csId none =
      Function.update p.incompleteInfos csId none := by
    subst hq
    split <;> simp [setInfo]
  have hkeep := @parseMessage_incompleteInfos q uninit recvInfo.firstChunkHeader recvInfo.recvBuf
  rcases @parseMessage_result q uninit recvInfo.firstChunkHeader recvInfo.recvBuf with
    h | h | ⟨fault, h⟩ <;>
    rcases hr : q.parseMessage uninit recvInfo.firstChunkHeader recvInfo.recvBuf
      with ⟨result, q'⟩ <;>
    rw [hr] at h hkeep <;> dsimp only at h hkeep <;> subst h
  · left
    exact ⟨rfl, by rw [← hinfos, ← hkeep]; rfl⟩
  · right; left
    rfl
  · right; right
    exact ⟨fault, rfl⟩

/-- A chunk that has been read never asks for more of its own payload. -/
theorem finishChunk_ne_waitingMore (csId : UInt32) (recvInfo : ReceivedPayloadInfo)
    (isLast : Bool) :
    (p.finishChunk uninit csId recvInfo isLast).1 ≠ .ok .waitingMorePayloadData := by
  cases isLast with
  | true =>
      rcases @finishChunk_last p uninit csId recvInfo with ⟨h, -⟩ | h | ⟨fault, h⟩ <;> simp [h]
  | false => simp [finishChunk]

/-- The chunk was waited for exactly when its payload is not all there. -/
theorem parsePayload_waiting
    (h : (p.parsePayload uninit header stream bufSize).result = .ok .waitingMorePayloadData) :
    ∃ recvInfo p', p.findOrStart header = (.ok recvInfo, p') ∧
      bufSize < (p'.thisMsgSize recvInfo).toNat := by
  rcases hf : p.findOrStart header with ⟨result, p'⟩
  cases result with
  | error fault =>
      rw [parsePayload_of_error hf] at h
      simp at h
  | ok recvInfo =>
      refine ⟨recvInfo, p', rfl, ?_⟩
      by_contra hle
      rw [parsePayload_of_le hf (Nat.le_of_not_lt hle)] at h
      exact finishChunk_ne_waitingMore _ _ _ h

/-- What a chunk does when it is all there does not depend on what follows it. -/
theorem parsePayload_append (more : List UInt8)
    (h : (p.parsePayload uninit header stream stream.length).result ≠
      .ok .waitingMorePayloadData) :
    p.parsePayload uninit header (stream ++ more) (stream ++ more).length =
      { p.parsePayload uninit header stream stream.length with
        stream := (p.parsePayload uninit header stream stream.length).stream ++ more } := by
  rcases hf : p.findOrStart header with ⟨result, p'⟩
  cases result with
  | error fault => rw [parsePayload_of_error hf, parsePayload_of_error hf]
  | ok recvInfo =>
      have hle : (p'.thisMsgSize recvInfo).toNat ≤ stream.length := by
        by_contra hlt
        rw [parsePayload_of_short hf (Nat.lt_of_not_le hlt)] at h
        exact h rfl
      have hle' : (p'.thisMsgSize recvInfo).toNat ≤ (stream ++ more).length := by
        rw [List.length_append]
        omega
      rw [parsePayload_of_le hf hle, parsePayload_of_le hf hle',
        List.take_append_of_le_length hle, List.drop_append_of_le_length hle]

/-- A chunk that has been read was all there. -/
theorem parsePayload_read
    (h : (p.parsePayload uninit header stream bufSize).result = .ok .complete ∨
      (p.parsePayload uninit header stream bufSize).result = .ok .waitingNextChunk) :
    ∃ recvInfo p', p.findOrStart header = (.ok recvInfo, p') ∧
      (p'.thisMsgSize recvInfo).toNat ≤ bufSize := by
  rcases hf : p.findOrStart header with ⟨result, p'⟩
  cases result with
  | error fault =>
      rw [parsePayload_of_error hf] at h
      simp at h
  | ok recvInfo =>
      refine ⟨recvInfo, p', rfl, ?_⟩
      by_contra hlt
      rw [parsePayload_of_short hf (Nat.lt_of_not_le hlt)] at h
      simp at h

/-- A chunk that has been read is off the stream. -/
theorem parsePayload_stream (h : (p.parsePayload uninit header stream bufSize).result =
      .ok .complete ∨
    (p.parsePayload uninit header stream bufSize).result = .ok .waitingNextChunk) :
    (p.parsePayload uninit header stream bufSize).stream =
      stream.drop (p.parsePayload uninit header stream bufSize).readedSize ∧
    (p.parsePayload uninit header stream bufSize).readedSize ≤ bufSize := by
  obtain ⟨recvInfo, p', hf, hle⟩ := parsePayload_read h
  rw [parsePayload_of_le hf hle]
  exact ⟨rfl, hle⟩

end ParsePayload

end RtmpPayloadParser

end Rtmp
