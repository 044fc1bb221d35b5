import RtmpModule.Protocol.AckWindow
import RtmpModule.Protocol.HeaderRoundTrip
import RtmpModule.Protocol.Provenance

/-!
# Control messages there and back

Every control message is one chunk: its header with the length its constructor sets, and
its fields, written by the class itself and not by `write_payload_with_body`. The parser
finds the class again by the type and, for a user control message, by the event in front
of the fields. Two of the messages change the parser that reads them.
-/

namespace Rtmp

open Bytes NetworkUtil StreamUtil

/-- The values of `UserControlMessage::event_type`. -/
def EventType.code : EventType → UInt16
  | streamBegin => 0
  | streamEof => 1
  | streamDry => 2
  | setBufferLength => 3
  | streamIsRecorded => 4
  | pingRequest => 6
  | pingResponse => 7
  | unknown => 0xFF

/-- The values of `SetPeerBandwidth::limit_type`. -/
def LimitType.code : LimitType → UInt8
  | hard => 0
  | soft => 1
  | dynamic => 2
  | unknown => 0xFF

@[simp] theorem LimitType.getLimitType_code (limitType : LimitType) :
    getLimitType limitType.code = limitType := by
  cases limitType <;> decide

/-- The twelve classes with the arguments of their constructors. -/
inductive ControlMessage where
  | setChunkSize (chunkSize : UInt32)
  | abortMessage (chunkStreamId : UInt32)
  | acknowledgement (seqNum : UInt32)
  | windowAcknowledgementSize (windowSize : UInt32)
  | setPeerBandwidth (windowSize : UInt32) (limitType : LimitType)
  | streamBegin (streamId : UInt32)
  | streamEof (streamId : UInt32)
  | streamDry (streamId : UInt32)
  | setBufferLength (streamId bufferLength : UInt32)
  | streamIsRecorded (streamId : UInt32)
  | pingRequest (timestamp : UInt32)
  | pingResponse (timestamp : UInt32)
  deriving DecidableEq, Repr

namespace ControlMessage

/-- What the constructors build. -/
def message : ControlMessage → RtmpMessage
  | setChunkSize chunkSize => .setChunkSize chunkSize
  | abortMessage chunkStreamId => .abortMessage chunkStreamId
  | acknowledgement seqNum => .acknowledgement seqNum
  | windowAcknowledgementSize windowSize => .windowAcknowledgementSize windowSize
  | setPeerBandwidth windowSize limitType => .setPeerBandwidth windowSize limitType
  | streamBegin streamId => .streamBegin streamId
  | streamEof streamId => .streamEof streamId
  | streamDry streamId => .streamDry streamId
  | setBufferLength streamId bufferLength => .setBufferLength streamId bufferLength
  | streamIsRecorded streamId => .streamIsRecorded streamId
  | pingRequest timestamp => .pingRequest timestamp
  | pingResponse timestamp => .pingResponse timestamp

/-- `write_payload` of a class with one field. -/
def writeField (header : RtmpHeader) (field : UInt32) : Written :=
  writeUint header.writePayload field true

/-- `write_payload` of a user control class with one field. -/
def writeEvent (header : RtmpHeader) (eventType : EventType) (field : UInt32) : Written :=
  writeUint (writeUshort header.writePayload eventType.code true) field true

/-- The `write_payload` of each class. -/
def writePayload (m : ControlMessage) : Written :=
  let header := m.message.header
  match m with
  | setChunkSize chunkSize => writeField header chunkSize
  | abortMessage chunkStreamId => writeField header chunkStreamId
  | acknowledgement seqNum => writeField header seqNum
  | windowAcknowledgementSize windowSize => writeField header windowSize
  | setPeerBandwidth windowSize limitType =>
      writeUchar (writeUint header.writePayload windowSize true) limitType.code
  | streamBegin streamId => writeEvent header .streamBegin streamId
  | streamEof streamId => writeEvent header .streamEof streamId
  | streamDry streamId => writeEvent header .streamDry streamId
  | setBufferLength streamId bufferLength =>
      writeUint (writeEvent header .setBufferLength streamId) bufferLength true
  | streamIsRecorded streamId => writeEvent header .streamIsRecorded streamId
  | pingRequest timestamp => writeEvent header .pingRequest timestamp
  | pingResponse timestamp => writeEvent header .pingResponse timestamp

/-- A limit type of 0 to 2. -/
def KnownLimit : ControlMessage → Prop
  | setPeerBandwidth _ limitType => limitType ≠ .unknown
  | _ => True

section Payload

def eventPayload (eventType : EventType) (field : UInt32) : List UInt8 :=
  toBE 2 eventType.code.toNat ++ toBE 4 field.toNat

/-- The fields as they are sent. -/
def payload : ControlMessage → List UInt8
  | setChunkSize chunkSize => toBE 4 chunkSize.toNat
  | abortMessage chunkStreamId => toBE 4 chunkStreamId.toNat
  | acknowledgement seqNum => toBE 4 seqNum.toNat
  | windowAcknowledgementSize windowSize => toBE 4 windowSize.toNat
  | setPeerBandwidth windowSize limitType => toBE 4 windowSize.toNat ++ [limitType.code]
  | streamBegin streamId => eventPayload .streamBegin streamId
  | streamEof streamId => eventPayload .streamEof streamId
  | streamDry streamId => eventPayload .streamDry streamId
  | setBufferLength streamId bufferLength =>
      eventPayload .setBufferLength streamId ++ toBE 4 bufferLength.toNat
  | streamIsRecorded streamId => eventPayload .streamIsRecorded streamId
  | pingRequest timestamp => eventPayload .pingRequest timestamp
  | pingResponse timestamp => eventPayload .pingResponse timestamp

/-- The length the constructor sets is that of the fields. -/
theorem length_payload (m : ControlMessage) :
    m.payload.length = m.message.header.msgLength.toNat := by
  cases m <;> simp [payload, eventPayload, message] <;> rfl

theorem length_payload_le (m : ControlMessage) : 4 ≤ m.payload.length ∧ m.payload.length ≤ 10 := by
  cases m <;> simp [payload, eventPayload]

/-- The chunk a control message is sent in. -/
def chunk (m : ControlMessage) : Chunk :=
  ParserCore.controlChunk m.message.header.msgTypeId m.payload

/-- What the constructors leave in the header. -/
theorem header_message (m : ControlMessage) : ∃ msgTypeId : MsgTypeId,
    m.message.header =
      { chunkStreamId := 2, msgTypeId, msgLength := UInt32.ofNat m.payload.length } ∧
    1 ≤ msgTypeId.code ∧ msgTypeId.code ≤ 7 := by
  have hlength : UInt32.ofNat m.payload.length = m.message.header.msgLength := by
    rw [m.length_payload, UInt32.ofNat_toNat]
  rw [hlength]
  cases m <;> exact ⟨_, rfl, by decide⟩

theorem isControlMsg_message (m : ControlMessage) : m.message.header.isControlMsg = true := by
  obtain ⟨msgTypeId, hheader, hcode⟩ := m.header_message
  rw [hheader]
  exact decide_eq_true hcode

theorem valid_chunk (m : ControlMessage) : m.chunk.Valid := by
  obtain ⟨-, hle⟩ := m.length_payload_le
  refine ParserCore.valid_controlChunk (by omega) ?_
  obtain ⟨msgTypeId, hheader, hcode⟩ := m.header_message
  rw [hheader]
  rintro rfl
  exact absurd hcode.2 (by decide)

/-- The header of the constructor is that of the chunk. -/
theorem writePayload_header (m : ControlMessage) :
    m.message.header.writePayload =
      { bytes := m.chunk.encodeHeader, writed := m.chunk.encodeHeader.length } := by
  obtain ⟨msgTypeId, hheader, -⟩ := m.header_message
  have hlow : RtmpHeader.low24 0 = 0 := by decide
  have hid : m.message.header.chunkStreamId = 2 := by rw [hheader]
  have hbytes : Chunk.basicHeader .full 2 false ++ m.message.header.truncated.fields =
      m.chunk.encodeHeader := by
    simp only [chunk, ParserCore.controlChunk, hheader, RtmpHeader.truncated,
      RtmpHeader.messageHeader, RtmpHeader.sentTime, hlow, MessageHeader.withTime,
      Chunk.encodeHeader, MessageHeader.encode, MessageHeader.formatType]
    rw [MessageHeader.time, MessageHeader.extendedTimestamp, if_pos (by decide), List.append_nil]
  rw [RtmpHeader.writePayload_eq (by rw [hid]; decide) (by rw [hid]; decide), hid]
  have hformat : m.message.header.formatType = .full := by rw [hheader]
  rw [hformat, hbytes]

/-- The bytes of a message are those of its chunk, and they are counted. -/
theorem writePayload_chunk (m : ControlMessage) :
    m.writePayload = { bytes := m.chunk.encode, writed := m.chunk.encode.length } := by
  have hheader := m.writePayload_header
  rw [Chunk.encode, List.length_append]
  cases m <;>
    simp only [writePayload, writeField, writeEvent, hheader, writeUint, writeUshort, writeUchar,
      ↓reduceIte, toLE_hton4, toLE_hton2, chunk, ParserCore.controlChunk, payload, eventPayload,
      List.append_assoc, List.length_append, length_toBE, List.length_singleton, Nat.add_assoc]

theorem readUint_field (field : UInt32) : readUint (toBE 4 field.toNat) = (field, []) := by
  have hread := readUint_toBE [] field
  rwa [List.append_nil] at hread

theorem parseField_toBE (make : UInt32 → RtmpMessage) (field : UInt32) :
    ControlMsgParser.parseField make (toBE 4 field.toNat) = some (make field) := by
  rw [ControlMsgParser.parseField, readUint_field, if_pos (by simp [checkRedableLength])]

/-- The event in front of the fields is found again. -/
theorem parseUserCtrl_event (eventType : EventType) (stream : List UInt8) :
    ControlMsgParser.parseUserCtrl (toBE 2 eventType.code.toNat ++ stream) =
      match eventType with
      | .streamBegin => ControlMsgParser.parseUsrctrlStreamBegin stream
      | .streamEof => ControlMsgParser.parseUsrctrlStreamEof stream
      | .streamDry => ControlMsgParser.parseUsrctrlStreamDry stream
      | .setBufferLength => ControlMsgParser.parseUsrctrlSetBufferLength stream
      | .streamIsRecorded => ControlMsgParser.parseUsrctrlStreamIsRecorded stream
      | .pingRequest => ControlMsgParser.parseUsrctrlPingRequest stream
      | .pingResponse => ControlMsgParser.parseUsrctrlPingResponse stream
      | .unknown => none := by
  rw [ControlMsgParser.parseUserCtrl, if_pos (by simp [checkRedableLength]), readUshort_toBE]
  cases eventType <;> rfl

theorem parsePeerBandwidth_payload (windowSize : UInt32) {limitType : LimitType}
    (h : limitType ≠ .unknown) :
    ControlMsgParser.parsePeerBandwidth (toBE 4 windowSize.toNat ++ [limitType.code]) =
      some (.setPeerBandwidth windowSize limitType) := by
  rw [ControlMsgParser.parsePeerBandwidth, if_pos (by simp [checkRedableLength])]
  simp only [readUint_toBE, readUchar_cons, LimitType.getLimitType_code, if_neg h]

theorem parseSetBufferLength_payload (streamId bufferLength : UInt32) :
    ControlMsgParser.parseUsrctrlSetBufferLength
        (toBE 4 streamId.toNat ++ toBE 4 bufferLength.toNat) =
      some (.setBufferLength streamId bufferLength) := by
  rw [ControlMsgParser.parseUsrctrlSetBufferLength, if_pos (by simp [checkRedableLength])]
  simp only [readUint_toBE, readUint_field]

/-- The body parsers find the class and the fields again. -/
theorem parseBody_payload {m : ControlMessage} (h : m.KnownLimit) :
    ControlMsgParser.parseBody m.message.header.msgTypeId m.payload = some m.message := by
  cases m with
  | setChunkSize chunkSize => exact parseField_toBE _ chunkSize
  | abortMessage chunkStreamId => exact parseField_toBE _ chunkStreamId
  | acknowledgement seqNum => exact parseField_toBE _ seqNum
  | windowAcknowledgementSize windowSize => exact parseField_toBE _ windowSize
  | setPeerBandwidth windowSize limitType => exact parsePeerBandwidth_payload windowSize h
  | streamBegin streamId => exact (parseUserCtrl_event _ _).trans (parseField_toBE _ streamId)
  | streamEof streamId => exact (parseUserCtrl_event _ _).trans (parseField_toBE _ streamId)
  | streamDry streamId => exact (parseUserCtrl_event _ _).trans (parseField_toBE _ streamId)
  | setBufferLength streamId bufferLength =>
      have hevent := parseUserCtrl_event .setBufferLength
        (toBE 4 streamId.toNat ++ toBE 4 bufferLength.toNat)
      rw [← List.append_assoc] at hevent
      exact hevent.trans (parseSetBufferLength_payload streamId bufferLength)
  | streamIsRecorded streamId => exact (parseUserCtrl_event _ _).trans (parseField_toBE _ streamId)
  | pingRequest timestamp => exact (parseUserCtrl_event _ _).trans (parseField_toBE _ timestamp)
  | pingResponse timestamp => exact (parseUserCtrl_event _ _).trans (parseField_toBE _ timestamp)

end Payload

end ControlMessage

namespace MessageBody

/-- The receive chunk size after a message. -/
def recvChunkSize (body : MessageBody) (size : UInt32) : UInt32 :=
  match body with
  | .setChunkSize chunkSize => chunkSize
  | _ => size

/-- The window after a message. -/
def winAckSize (body : MessageBody) (size : UInt32) : UInt32 :=
  match body with
  | .windowAcknowledgementSize windowSize => windowSize
  | _ => size

end MessageBody

/-- A message changes the receive chunk size and nothing else of the core. -/
theorem ParserCore.applyMessage_eq (c : ParserCore) (body : MessageBody) :
    (c.applyMessage body).1 = { c with payloadParser := { c.payloadParser with
      recvChunkSize := body.recvChunkSize c.payloadParser.recvChunkSize } } := by
  cases body <;> rfl

namespace RtmpParser

open AMF0Serializer

variable {uninit : Uninit} {stream : List UInt8} {bufSize total : Nat} {p : RtmpParser}

/-- The round that completes a message leaves the window of that message, every other one
the window it found. -/
theorem winAckSize_afterRound (hreturns : (p.round uninit stream bufSize).returns = none) :
    ((p.round uninit stream bufSize).core.parsingState ≠ .complete →
        (p.afterRound (p.round uninit stream bufSize)).winAckSize = p.winAckSize) ∧
      ((p.round uninit stream bufSize).core.parsingState = .complete →
        ∃ msg, (p.round uninit stream bufSize).core.parsedMsg = some msg ∧
          (p.afterRound (p.round uninit stream bufSize)).winAckSize =
            msg.body.winAckSize p.winAckSize) := by
  have hnone : ∀ r : ParserCore.Round, r.winAckSize = none →
      (p.afterRound r).winAckSize = p.winAckSize := by
    intro r hr
    rw [afterRound, hr]
  cases hstate : p.parsingState with
  | complete =>
      rw [round_complete hstate] at hreturns
      cases hreturns
  | headerParsing =>
      rw [ParserCore.round_headerParsing hstate] at hreturns ⊢
      rw [ParserCore.headerRound] at hreturns ⊢
      split at hreturns
      · cases hreturns
      · rename_i hpos
        rw [if_neg hpos]
        dsimp only at hreturns ⊢
        split at hreturns
        · exact ⟨fun _ => hnone _ rfl, by intro h; cases h⟩
        · cases hreturns
        · cases hreturns
  | payloadParsing =>
      rw [ParserCore.round_payloadParsing hstate] at hreturns ⊢
      rw [ParserCore.payloadRound] at hreturns ⊢
      split at hreturns
      · cases hreturns
      · rename_i hpos
        rw [if_neg hpos]
        dsimp only at hreturns ⊢
        split at hreturns
        · split at hreturns
          · rename_i hcomplete msg hmsg
            refine ⟨fun h => absurd ?_ h, fun _ => ⟨msg, ?_, ?_⟩⟩
            · rw [ParserCore.applyMessage_eq]
            · rw [ParserCore.applyMessage_eq, hmsg]
            · cases hbody : msg.body <;> rfl
          · cases hreturns
        · exact ⟨fun _ => hnone _ rfl, by intro h; cases h⟩
        · cases hreturns
        · cases hreturns
        · cases hreturns

/-- A call that delivers leaves the window of the message it delivers. -/
theorem winAckSize_parsePrivate
    (h : (p.parsePrivate uninit stream bufSize total).result = .ok .true) :
    (p.parsingState = .complete →
        (p.parsePrivate uninit stream bufSize total).parser.winAckSize = p.winAckSize ∧
          (p.parsePrivate uninit stream bufSize total).parser.parsedMsg = p.parsedMsg) ∧
      (p.parsingState ≠ .complete → ∃ msg,
        (p.parsePrivate uninit stream bufSize total).parser.parsedMsg = some msg ∧
          (p.parsePrivate uninit stream bufSize total).parser.winAckSize =
            msg.body.winAckSize p.winAckSize) := by
  fun_induction RtmpParser.parsePrivate p uninit stream bufSize total with
  | case1 p stream bufSize total r hr ih =>
      obtain ⟨hgoes, hcompletes⟩ := winAckSize_afterRound hr
      obtain ⟨hdone, hlater⟩ := ih h
      rw [afterRound_core] at hdone hlater
      refine ⟨fun hcomplete => ?_, fun _ => ?_⟩
      · have hreturns : (p.round uninit stream bufSize).returns = none := hr
        rw [round_complete hcomplete] at hreturns
        cases hreturns
      · by_cases hcomplete : r.core.parsingState = .complete
        · obtain ⟨msg, hmsg, hwindow⟩ := hcompletes hcomplete
          obtain ⟨hsame, hparsed⟩ := hdone hcomplete
          exact ⟨msg, hparsed.trans hmsg, hsame.trans hwindow⟩
        · obtain ⟨msg, hmsg, hwindow⟩ := hlater hcomplete
          exact ⟨msg, hmsg, by rw [hwindow, hgoes hcomplete]⟩
  | case2 p stream bufSize total r result hr =>
      obtain rfl : result = .ok .true := h
      have hcomplete := round_true_state hr
      have hround : r = _ := @round_complete _ uninit stream bufSize hcomplete
      refine ⟨fun _ => ?_, fun hne => absurd hcomplete hne⟩
      rw [hround]
      exact ⟨rfl, rfl⟩

theorem winAckSize_parse (h : (p.parse uninit stream bufSize).result = .ok .true)
    (hstate : p.parsingState ≠ .complete) :
    ∃ msg, (p.parse uninit stream bufSize).parser.parsedMsg = some msg ∧
      (p.parse uninit stream bufSize).parser.winAckSize = msg.body.winAckSize p.winAckSize := by
  obtain ⟨hresult, hcore, -, -⟩ := p.parse_eq uninit stream bufSize
  rw [hresult] at h
  obtain ⟨-, hlater⟩ := winAckSize_parsePrivate h
  obtain ⟨msg, hmsg, hwindow⟩ := hlater hstate
  refine ⟨msg, by rw [hcore, hmsg], ?_⟩
  rw [← hwindow, RtmpParser.parse]
  simp only [h]
  exact Windowed.winAckSize_countReaded

/-- The parser waits for a chunk with nothing begun on chunk stream 2. -/
structure Ready (p : RtmpParser) (recvChunkSize winAckSize : UInt32) : Prop where
  between : p.Between
  idle : p.payloadParser.incompleteInfos 2 = none
  chunkSize : p.payloadParser.recvChunkSize = recvChunkSize
  window : p.winAckSize = winAckSize

variable {recvChunkSize winAckSize : UInt32} {m : ControlMessage}

theorem Ready.fresh : Ready {} 128 5000000 := ⟨⟨rfl, rfl⟩, rfl, rfl, rfl⟩

/-- A control message in a chunk of its own leaves the parser ready again. -/
theorem Ready.receive (uninit : Uninit) (hp : p.Ready recvChunkSize winAckSize)
    (hsize : 10 ≤ recvChunkSize.toNat) (hm : m.KnownLimit) :
    ∃ c, p.toParserCore.receive uninit m.chunk = some (c, [m.message]) ∧
      c.payloadParser.incompleteInfos 2 = none ∧
      c.payloadParser.recvChunkSize = m.message.body.recvChunkSize recvChunkSize := by
  obtain ⟨hge, hle⟩ := m.length_payload_le
  obtain ⟨firstChunkHeader, q, hfind, htype, hthis, hlast, hinfos, -⟩ :=
    @ParserCore.findOrStart_controlChunk p.toParserCore m.message.header.msgTypeId m.payload
      hp.idle (by omega) (by rw [hp.chunkSize]; omega)
  have hframe := (RtmpPayloadParser.findOrStart_frame hfind).1
  have hcontrol : firstChunkHeader.isControlMsg = true := by
    rw [RtmpHeader.isControlMsg, htype]
    exact m.isControlMsg_message
  have hbody : ControlMsgParser.parseBody firstChunkHeader.msgTypeId ([] ++ m.payload) =
      some m.message := by
    rw [htype]
    exact ControlMessage.parseBody_payload hm
  have hne : m.chunk.payload ≠ [] := List.ne_nil_of_length_pos (by
    show 0 < m.payload.length
    omega)
  refine ⟨_, ParserCore.receive_control uninit hne hfind hthis hlast hcontrol hbody, ?_, ?_⟩
  · rw [ParserCore.applyMessage_eq]
    exact Function.update_self (2 : UInt32) none q.incompleteInfos
  · have hkept : q.recvChunkSize = recvChunkSize := by rw [hframe, hp.chunkSize]
    rw [ParserCore.applyMessage_eq, ← hkept]
    rfl

/-- A call of `parse` on a control message takes its bytes and delivers it. -/
theorem Ready.parse (uninit : Uninit) (hp : p.Ready recvChunkSize winAckSize)
    (hsize : 10 ≤ recvChunkSize.toNat) (hm : m.KnownLimit) (rest : List UInt8) :
    let r := p.parse uninit (m.writePayload.bytes ++ rest) (m.writePayload.bytes ++ rest).length
    r.result = .ok .true ∧ r.stream = rest ∧ r.totalReadedSize = m.writePayload.bytes.length ∧
      r.parser.parsedMsg = some m.message ∧
      r.parser.Ready (m.message.body.recvChunkSize recvChunkSize)
        (m.message.body.winAckSize winAckSize) := by
  obtain ⟨c, hreceive, hidle, hchunk⟩ := hp.receive uninit hsize hm
  obtain ⟨c', hvisits, hcomplete, hmsg, hcore⟩ :=
    ParserCore.receive_visits_complete hp.between m.valid_chunk hreceive rest
  have hbytes : m.writePayload.bytes = m.chunk.encode := by rw [m.writePayload_chunk]
  rw [hbytes]
  obtain ⟨hresult, hstream, htotal, hparsed⟩ := parse_of_visits hvisits hcomplete
  have hstate : p.parsingState ≠ .complete := by
    rw [hp.between.state]
    simp
  obtain ⟨msg, hdelivered, hwindow⟩ := winAckSize_parse hresult hstate
  obtain rfl : msg = m.message := Option.some.inj (hdelivered.symm.trans (hparsed.trans hmsg))
  obtain ⟨-, -, -, -, hprivate⟩ := parsePrivate_of_visits hvisits hcomplete rfl 0
  obtain ⟨-, hsame, -, -⟩ := p.parse_eq uninit (m.chunk.encode ++ rest)
    (m.chunk.encode ++ rest).length
  have hafter := (hsame.trans hprivate).trans hcore
  refine ⟨hresult, hstream, ?_, hparsed.trans hmsg, ?_, ?_, ?_, ?_⟩
  · rw [htotal, List.length_append, Nat.add_sub_cancel]
  · rw [hafter]
    exact ParserCore.receive_between hreceive
  · rw [hafter]
    exact hidle
  · rw [hafter]
    exact hchunk
  · rw [hwindow, hp.window]

end RtmpParser

namespace ControlMessage

/-- The value of a SetChunkSize message. -/
def chunkSize? : ControlMessage → Option UInt32
  | setChunkSize chunkSize => some chunkSize
  | _ => none

/-- The value of a WindowAcknowledgementSize message. -/
def windowSize? : ControlMessage → Option UInt32
  | windowAcknowledgementSize windowSize => some windowSize
  | _ => none

/-- The last chunk size announced, and 128 before the first. -/
def lastChunkSize (messages : List ControlMessage) : UInt32 :=
  (messages.filterMap chunkSize?).getLast?.getD 128

/-- The last window announced, and 5000000 before the first. -/
def lastWindowSize (messages : List ControlMessage) : UInt32 :=
  (messages.filterMap windowSize?).getLast?.getD 5000000

/-- Known limit types and chunk sizes that no control message exceeds. -/
def Acceptable (m : ControlMessage) : Prop :=
  m.KnownLimit ∧ ∀ chunkSize, m.chunkSize? = some chunkSize → 10 ≤ chunkSize.toNat

variable {messages done : List ControlMessage} {m : ControlMessage}

theorem lastChunkSize_append (done : List ControlMessage) (m : ControlMessage) :
    lastChunkSize (done ++ [m]) = m.message.body.recvChunkSize (lastChunkSize done) := by
  rw [lastChunkSize, List.filterMap_append]
  cases m <;> simp [chunkSize?, message, MessageBody.recvChunkSize, lastChunkSize] <;> rfl

theorem lastWindowSize_append (done : List ControlMessage) (m : ControlMessage) :
    lastWindowSize (done ++ [m]) = m.message.body.winAckSize (lastWindowSize done) := by
  rw [lastWindowSize, List.filterMap_append]
  cases m <;> simp [windowSize?, message, MessageBody.winAckSize, lastWindowSize] <;> rfl

theorem le_lastChunkSize (h : ∀ m ∈ messages, m.Acceptable) :
    10 ≤ (lastChunkSize messages).toNat := by
  rw [lastChunkSize]
  cases hlast : (messages.filterMap chunkSize?).getLast? with
  | none => decide
  | some chunkSize =>
      obtain ⟨m, hmem, hsize⟩ := List.mem_filterMap.mp (List.mem_of_getLast? hlast)
      exact (h m hmem).2 chunkSize hsize

/-- The bytes of messages one after the other. -/
def bytes (messages : List ControlMessage) : List UInt8 :=
  messages.flatMap fun m => m.writePayload.bytes

end ControlMessage

namespace Connection

open AMF0Serializer ControlMessage

/-- The connection has handled the messages and goes by what they say. -/
structure Received (c : Connection) (messages : List ControlMessage) : Prop where
  status : c.status = .reading
  handled : c.handled = messages.map message
  ready : c.parser.Ready (lastChunkSize messages) (lastWindowSize messages)

variable {c : Connection} {messages done : List ControlMessage} {m : ControlMessage}

/-- A call of `parse` on the next message lets the loop go on with the bytes behind it. -/
theorem Received.next (uninit : Uninit) (hc : c.Received done)
    (hdone : ∀ m ∈ done, m.Acceptable) (hm : m.KnownLimit) {rest : List UInt8}
    (hbuffer : c.requestStreambuf = m.writePayload.bytes ++ rest) :
    ∃ c' : Connection, c.handleReadLoop uninit c.requestStreambuf.length =
        c'.handleReadLoop uninit rest.length ∧
      c'.requestStreambuf = rest ∧ c'.Received (done ++ [m]) := by
  obtain ⟨hresult, hstream, htotal, hmsg, hready⟩ :=
    hc.ready.parse uninit (le_lastChunkSize hdone) hm rest
  rw [← hbuffer] at hresult hstream htotal hmsg hready
  have hpos : c.requestStreambuf.length ≠ 0 := by
    have hheader := ParserCore.length_encodeHeader_pos m.chunk
    rw [hbuffer, m.writePayload_chunk, Chunk.encode, List.length_append, List.length_append]
    omega
  have hlength : c.requestStreambuf.length - m.writePayload.bytes.length = rest.length := by
    rw [hbuffer, List.length_append, Nat.add_sub_cancel_left]
  rw [handleReadLoop, if_neg hpos]
  dsimp only
  split
  · rw [htotal, hlength]
    refine ⟨_, rfl, hstream, hc.status, ?_, ?_⟩
    · rw [hc.handled, hmsg, List.map_append]
      rfl
    · rw [lastChunkSize_append, lastWindowSize_append]
      exact hready
  all_goals simp_all

/-- The loop handles every message in the buffer. -/
theorem Received.loop (uninit : Uninit) (hc : c.Received done)
    (hdone : ∀ m ∈ done, m.Acceptable) (hmessages : ∀ m ∈ messages, m.Acceptable)
    (hbuffer : c.requestStreambuf = bytes messages) :
    (c.handleReadLoop uninit c.requestStreambuf.length).Received (done ++ messages) ∧
      (c.handleReadLoop uninit c.requestStreambuf.length).requestStreambuf = [] := by
  induction messages generalizing c done with
  | nil =>
      have hnil : c.requestStreambuf = [] := hbuffer
      rw [hnil, List.length_nil, handleReadLoop, if_pos rfl, List.append_nil]
      exact ⟨hc, hnil⟩
  | cons m messages ih =>
      obtain ⟨hm, hothers⟩ := List.forall_mem_cons.mp hmessages
      obtain ⟨c', hloop, hrest, hc'⟩ := hc.next uninit hdone hm.1
        (hbuffer.trans List.flatMap_cons)
      have hdone' : ∀ m' ∈ done ++ [m], m'.Acceptable := by
        intro m' hmem
        rcases List.mem_append.mp hmem with hmem | hmem
        · exact hdone m' hmem
        · rw [List.mem_singleton.mp hmem]
          exact hm
      have hlater := ih hc' hdone' hothers hrest
      rw [hrest, List.append_assoc] at hlater
      rw [hloop]
      exact hlater

/-- So does a connection that gets them in one read. -/
theorem Received.read (uninit : Uninit) (hc : c.Received done) (hempty : c.requestStreambuf = [])
    (hdone : ∀ m ∈ done, m.Acceptable) (hmessages : ∀ m ∈ messages, m.Acceptable) :
    (handleRead uninit c (bytes messages)).Received (done ++ messages) ∧
      (handleRead uninit c (bytes messages)).requestStreambuf = [] := by
  cases hread : bytes messages with
  | nil =>
      have hloop := hc.loop uninit hdone hmessages (hempty.trans hread.symm)
      rw [hempty, List.length_nil, handleReadLoop, if_pos rfl] at hloop
      rw [handleRead, if_pos hc.status, if_neg (by simp)]
      exact hloop
  | cons b more =>
      have hfilled : ({ c with requestStreambuf := c.requestStreambuf ++ (b :: more) } :
          Connection).Received done := ⟨hc.status, hc.handled, hc.ready⟩
      have hbuffer : c.requestStreambuf ++ (b :: more) = bytes messages := by
        rw [hempty, hread, List.nil_append]
      rw [handleRead, if_pos hc.status, if_pos (by simp)]
      exact hfilled.loop uninit hdone hmessages hbuffer

/-- And one that gets them in any number of reads. -/
theorem Received.run (uninit : Uninit) (hc : c.Received done) (hempty : c.requestStreambuf = [])
    (hdone : ∀ m ∈ done, m.Acceptable) {groups : List (List ControlMessage)}
    (hgroups : ∀ messages ∈ groups, ∀ m ∈ messages, m.Acceptable) :
    (c.run uninit (groups.map bytes)).Received (done ++ groups.flatten) ∧
      (c.run uninit (groups.map bytes)).requestStreambuf = [] := by
  induction groups generalizing c done with
  | nil =>
      rw [List.flatten_nil, List.append_nil]
      exact ⟨hc, hempty⟩
  | cons messages groups ih =>
      obtain ⟨hmessages, hothers⟩ := List.forall_mem_cons.mp hgroups
      obtain ⟨hread, hrest⟩ := hc.read uninit hempty hdone hmessages
      have hdone' : ∀ m ∈ done ++ messages, m.Acceptable := by
        intro m hmem
        exact (List.mem_append.mp hmem).elim (hdone m) (hmessages m)
      rw [List.flatten_cons, ← List.append_assoc]
      exact ih hread hrest hdone' hothers

end Connection

/-- A control message that is written is parsed back by a fresh parser, to the class and
the fields it was written from. Any messages are handled in order, however many of them a
read brings, and afterwards the parser goes by the last chunk size and the last window. -/
theorem control_roundTrip (uninit : AMF0Serializer.Uninit) :
    (∀ m : ControlMessage, m.KnownLimit →
      let bytes := m.writePayload.bytes
      let r := ({} : RtmpParser).parse uninit bytes bytes.length
      r.result = .ok .true ∧ r.stream = [] ∧ r.totalReadedSize = bytes.length ∧
        m.writePayload.writed = bytes.length ∧ r.parser.parsedMsg = some m.message) ∧
    ∀ groups : List (List ControlMessage), (∀ messages ∈ groups, ∀ m ∈ messages, m.Acceptable) →
      let c := ({} : Connection).run uninit (groups.map ControlMessage.bytes)
      c.status = .reading ∧ c.handled = groups.flatten.map ControlMessage.message ∧
        c.requestStreambuf = [] ∧
        c.parser.payloadParser.recvChunkSize = ControlMessage.lastChunkSize groups.flatten ∧
        c.parser.winAckSize = ControlMessage.lastWindowSize groups.flatten := by
  constructor
  · intro m hm
    have hparse := RtmpParser.Ready.fresh.parse uninit (by decide) hm []
    rw [List.append_nil] at hparse
    obtain ⟨hresult, hstream, htotal, hmsg, -⟩ := hparse
    exact ⟨hresult, hstream, htotal, by rw [m.writePayload_chunk], hmsg⟩
  · intro groups hgroups
    have hfresh : ({} : Connection).Received [] := ⟨rfl, rfl, RtmpParser.Ready.fresh⟩
    obtain ⟨hreceived, hempty⟩ := hfresh.run uninit rfl (by simp) hgroups
    exact ⟨hreceived.status, hreceived.handled, hempty, hreceived.ready.chunkSize,
      hreceived.ready.window⟩

/-- A chunk size and a bandwidth in one read, and a window in the next. -/
def announcements : List (List ControlMessage) :=
  [[.setChunkSize 4096, .setPeerBandwidth 2500000 .dynamic], [.windowAcknowledgementSize 9]]

theorem control_roundTrip_announcements :
    (let m := ControlMessage.setPeerBandwidth 2500000 .dynamic
      let bytes := m.writePayload.bytes
      let r := ({} : RtmpParser).parse (fun _ => 0) bytes bytes.length
      r.result = .ok .true ∧ r.stream = [] ∧ r.totalReadedSize = bytes.length ∧
        m.writePayload.writed = bytes.length ∧
        r.parser.parsedMsg = some (.setPeerBandwidth 2500000 .dynamic)) ∧
    let c := ({} : Connection).run (fun _ => 0) (announcements.map ControlMessage.bytes)
    c.status = .reading ∧
      c.handled = [.setChunkSize 4096, .setPeerBandwidth 2500000 .dynamic,
        .windowAcknowledgementSize 9] ∧
      c.requestStreambuf = [] ∧ c.parser.payloadParser.recvChunkSize = 4096 ∧
      c.parser.winAckSize = 9 := by
  have hlimit : (ControlMessage.setPeerBandwidth 2500000 .dynamic).KnownLimit := nofun
  have hacceptable : ∀ messages ∈ announcements, ∀ m ∈ messages, m.Acceptable := by
    simp [announcements, ControlMessage.Acceptable, ControlMessage.KnownLimit,
      ControlMessage.chunkSize?]
  obtain ⟨hmessage, hmessages⟩ := control_roundTrip (fun _ => 0)
  exact ⟨hmessage _ hlimit, hmessages announcements hacceptable⟩

end Rtmp
