import RtmpModule.Protocol.ChunkEffects
import RtmpModule.Protocol.RecvBuffer

/-!
# The messages of a chunk stream

Where the messages of a chunk stream begin and end is settled by its own chunks: a
header of type 0 or 1 gives the length and type of the next message to start, and the
payloads of the chunks count against that length. `Framing` is that reckoning, made
from the chunks alone, and `Framed` says that the parser agrees with it.
-/

namespace Rtmp

open AMF0Serializer

/-- The length and type the last started message of a chunk stream was given, and the
bytes it still lacks, if it is not finished. -/
structure Framing where
  msgLength : UInt32 := 0
  msgTypeId : MsgTypeId := .unknown
  missing : Option Nat := none
  deriving DecidableEq, Repr

namespace Framing

/-- The next chunk starts a message. -/
def Starts (f : Framing) : Prop := f.missing = none

instance (f : Framing) : Decidable f.Starts := inferInstanceAs (Decidable (_ = none))

/-- The length and type of a message started under a header. -/
def start (f : Framing) : MessageHeader → Framing
  | .full _ msgLength msgTypeId _ => { f with msgLength, msgTypeId }
  | .sameStream _ msgLength msgTypeId => { f with msgLength, msgTypeId }
  | .sameLengthAndStream _ => f
  | .continuation => f

/-- The message a chunk belongs to. -/
def messageOf (f : Framing) (header : MessageHeader) : Framing :=
  if f.Starts then f.start header else f

/-- The bytes the message of a chunk lacks before it. -/
def lacks (f : Framing) (header : MessageHeader) : Nat :=
  f.missing.getD (f.start header).msgLength.toNat

/-- The chunk is the last of its message. -/
def Finishes (f : Framing) (chunk : Chunk) : Prop :=
  f.lacks chunk.header ≤ chunk.payload.length

instance (f : Framing) (chunk : Chunk) : Decidable (f.Finishes chunk) :=
  inferInstanceAs (Decidable (_ ≤ _))

/-- Its messages are control messages. -/
def IsControl (f : Framing) : Prop := 1 ≤ f.msgTypeId.code ∧ f.msgTypeId.code ≤ 7

instance (f : Framing) : Decidable f.IsControl := inferInstanceAs (Decidable (_ ∧ _))

def next (f : Framing) (chunk : Chunk) : Framing :=
  { f.messageOf chunk.header with
    missing := if f.Finishes chunk then none
      else some (f.lacks chunk.header - chunk.payload.length) }

end Framing

namespace RtmpPayloadParser

variable {p p' : RtmpPayloadParser} {header : RtmpHeader} {recvInfo : ReceivedPayloadInfo}

/-- The two ways an entry is come by: found as it was left, or made for a message that
starts, with the tables of its chunk stream written. -/
theorem findOrStart_cases (h : p.findOrStart header = (.ok recvInfo, p')) :
    (p.incompleteInfos header.chunkStreamId = some recvInfo ∧ p' = p) ∨
      (p.incompleteInfos header.chunkStreamId = none ∧
        ∃ started, startTimestamp (resolveLength header (p.channels header.chunkStreamId)).1
            (resolveLength header (p.channels header.chunkStreamId)).2 p.context = .ok started ∧
          recvInfo = { firstChunkHeader := started.header } ∧
          p' = { p.setChannel header.chunkStreamId started.channel with
            context := started.context }) := by
  unfold findOrStart at h
  split at h
  · rename_i info hinfo
    cases h
    exact .inl ⟨hinfo, rfl⟩
  · rename_i hinfo
    split at h
    · rename_i firstChunkHeader q hstart
      cases h
      obtain ⟨started, hstarted, rfl, rfl⟩ := startMessage_ok hstart
      exact .inr ⟨hinfo, started, hstarted, rfl, rfl⟩
    · cases h

/-- The length and type a chunk resolves are those of the framing. -/
theorem resolveLength_start {channel : ChannelInfo} {f : Framing}
    (hlen : channel.lastMsgLen = f.msgLength) (htype : channel.lastMsgTypeId = f.msgTypeId)
    (chunk : Chunk) (h : RtmpHeader) :
    (resolveLength (chunk.applyTo h) channel).1.msgLength =
        (f.start chunk.header).msgLength ∧
      (resolveLength (chunk.applyTo h) channel).1.msgTypeId =
        (f.start chunk.header).msgTypeId ∧
      (resolveLength (chunk.applyTo h) channel).2.lastMsgLen =
        (f.start chunk.header).msgLength ∧
      (resolveLength (chunk.applyTo h) channel).2.lastMsgTypeId =
        (f.start chunk.header).msgTypeId := by
  unfold resolveLength Chunk.applyTo
  cases chunk.header <;>
    simp [RtmpHeader.hasMsgLenAndType, MessageHeader.applyTo, MessageHeader.formatType,
      Framing.start, hlen, htype]

/-- What is needed after some more bytes have been received. -/
theorem toNat_needSize_append {payload : List UInt8}
    (h : payload.length ≤ (needSize recvInfo).toNat) :
    (needSize { recvInfo with recvBuf := recvInfo.recvBuf ++ payload }).toNat =
      (needSize recvInfo).toNat - payload.length := by
  have hlt : (needSize recvInfo).toNat < 2 ^ 32 := (needSize recvInfo).toNat_lt
  have hpayload : (UInt32.ofNat payload.length).toNat = payload.length := by
    rw [UInt32.toNat_ofNat', Nat.mod_eq_of_lt (by omega)]
  have hneed : needSize { recvInfo with recvBuf := recvInfo.recvBuf ++ payload } =
      needSize recvInfo - UInt32.ofNat payload.length := by
    simp only [needSize, ReceivedPayloadInfo.recvLength, List.length_append, UInt32.ofNat_add]
    grind
  rw [hneed, UInt32.toNat_sub_of_le _ _ (UInt32.le_iff_toNat_le.mpr (by omega)), hpayload]

end RtmpPayloadParser

namespace ParserCore

/-- The tables of a chunk stream say what its framing says. -/
structure Framed (c : ParserCore) (id : UInt32) (f : Framing) : Prop where
  msgLength : (c.payloadParser.channels id).lastMsgLen = f.msgLength
  msgTypeId : (c.payloadParser.channels id).lastMsgTypeId = f.msgTypeId
  idle : c.payloadParser.incompleteInfos id = none → f.missing = none
  busy : ∀ info, c.payloadParser.incompleteInfos id = some info →
    f.missing = some (RtmpPayloadParser.needSize info).toNat ∧
      info.firstChunkHeader.msgTypeId = f.msgTypeId

section Found

variable {c : ParserCore} {chunk : Chunk} {recvInfo : ReceivedPayloadInfo}
  {p : RtmpPayloadParser} {f : Framing}

/-- The two ways the entry of a chunk is come by. -/
theorem found_cases
    (h : c.payloadParser.findOrStart (chunk.applyTo c.parsedHeader) = (.ok recvInfo, p)) :
    (c.payloadParser.incompleteInfos chunk.chunkStreamId = some recvInfo ∧
        p = c.payloadParser) ∨
      (c.payloadParser.incompleteInfos chunk.chunkStreamId = none ∧
        ∃ started, RtmpPayloadParser.startTimestamp
            (RtmpPayloadParser.resolveLength (chunk.applyTo c.parsedHeader)
              (c.payloadParser.channels chunk.chunkStreamId)).1
            (RtmpPayloadParser.resolveLength (chunk.applyTo c.parsedHeader)
              (c.payloadParser.channels chunk.chunkStreamId)).2
            c.payloadParser.context = .ok started ∧
          recvInfo = { firstChunkHeader := started.header } ∧
          p = { c.payloadParser.setChannel chunk.chunkStreamId started.channel with
            context := started.context }) := by
  have hcases := RtmpPayloadParser.findOrStart_cases h
  rwa [Chunk.chunkStreamId_applyTo] at hcases

/-- The length and type in the tables once the entry of a chunk has been looked up. -/
theorem Framed.found (hf : c.Framed chunk.chunkStreamId f)
    (h : c.payloadParser.findOrStart (chunk.applyTo c.parsedHeader) = (.ok recvInfo, p)) :
    (p.channels chunk.chunkStreamId).lastMsgLen = (f.messageOf chunk.header).msgLength ∧
      (p.channels chunk.chunkStreamId).lastMsgTypeId = (f.messageOf chunk.header).msgTypeId ∧
      recvInfo.firstChunkHeader.msgTypeId = (f.messageOf chunk.header).msgTypeId ∧
      f.lacks chunk.header = (RtmpPayloadParser.needSize recvInfo).toNat := by
  rcases found_cases h with ⟨hbusy, rfl⟩ | ⟨hidle, started, hstarted, rfl, rfl⟩
  · obtain ⟨hmissing, htype⟩ := hf.busy _ hbusy
    have hkeep : f.messageOf chunk.header = f := if_neg (by simp [Framing.Starts, hmissing])
    rw [hkeep]
    exact ⟨hf.msgLength, hf.msgTypeId, htype, by rw [Framing.lacks, hmissing]; rfl⟩
  · have hmissing := hf.idle hidle
    have hstart : f.messageOf chunk.header = f.start chunk.header := if_pos hmissing
    obtain ⟨hlen, htype, hlen', htype'⟩ := RtmpPayloadParser.resolveLength_start hf.msgLength
      hf.msgTypeId chunk c.parsedHeader
    obtain ⟨hkeep, hkeep', -⟩ := RtmpPayloadParser.startTimestamp_channel hstarted
    have hheader := RtmpPayloadParser.startTimestamp_header hstarted
    rw [hstart]
    simp only [RtmpPayloadParser.setChannel, Function.update_self]
    refine ⟨hkeep.trans hlen', hkeep'.trans htype', ?_, ?_⟩
    · rw [hheader]
      exact htype
    · have hneed : RtmpPayloadParser.needSize { firstChunkHeader := started.header } =
          (f.start chunk.header).msgLength := by
        rw [← hlen, hheader]
        exact UInt32.sub_zero _
      rw [hneed, Framing.lacks, hmissing]
      rfl

end Found

namespace Effect

variable {uninit : Uninit} {c c' : ParserCore} {chunk : Chunk} {out : List RtmpMessage}
  {recvInfo : ReceivedPayloadInfo} {p : RtmpPayloadParser} {f : Framing} {id : UInt32}

/-- The two ways the entry of a chunk is come by. -/
theorem cases (h : c.Effect uninit chunk c' out recvInfo p) :
    (c.payloadParser.incompleteInfos chunk.chunkStreamId = some recvInfo ∧
        p = c.payloadParser) ∨
      (c.payloadParser.incompleteInfos chunk.chunkStreamId = none ∧
        ∃ started, RtmpPayloadParser.startTimestamp
            (RtmpPayloadParser.resolveLength (chunk.applyTo c.parsedHeader)
              (c.payloadParser.channels chunk.chunkStreamId)).1
            (RtmpPayloadParser.resolveLength (chunk.applyTo c.parsedHeader)
              (c.payloadParser.channels chunk.chunkStreamId)).2
            c.payloadParser.context = .ok started ∧
          recvInfo = { firstChunkHeader := started.header } ∧
          p = { c.payloadParser.setChannel chunk.chunkStreamId started.channel with
            context := started.context }) := found_cases h.found

/-- A chunk of another chunk stream leaves the tables of this one alone. -/
theorem frame (h : c.Effect uninit chunk c' out recvInfo p) (hid : id ≠ chunk.chunkStreamId) :
    c'.payloadParser.channels id = c.payloadParser.channels id ∧
      c'.payloadParser.incompleteInfos id = c.payloadParser.incompleteInfos id := by
  constructor
  · rw [h.channels]
    rcases h.cases with ⟨-, rfl⟩ | ⟨-, started, -, -, rfl⟩
    · rfl
    · exact Function.update_of_ne hid _ _
  · by_cases hlast : p.thisMsgSize recvInfo = RtmpPayloadParser.needSize recvInfo
    · rw [(h.last hlast).1, Function.update_of_ne hid]
    · rw [(h.more hlast).2.2, Function.update_of_ne hid]

theorem framed_of_ne (h : c.Effect uninit chunk c' out recvInfo p)
    (hid : id ≠ chunk.chunkStreamId) (hf : c.Framed id f) : c'.Framed id f := by
  obtain ⟨hchannel, hentry⟩ := h.frame hid
  refine ⟨?_, ?_, ?_, ?_⟩
  · rw [hchannel, hf.msgLength]
  · rw [hchannel, hf.msgTypeId]
  · rw [hentry]
    exact hf.idle
  · rw [hentry]
    exact hf.busy

/-- The length and type in the tables once a chunk of the chunk stream has been read. -/
theorem resolved (h : c.Effect uninit chunk c' out recvInfo p)
    (hf : c.Framed chunk.chunkStreamId f) :
    (p.channels chunk.chunkStreamId).lastMsgLen = (f.messageOf chunk.header).msgLength ∧
      (p.channels chunk.chunkStreamId).lastMsgTypeId = (f.messageOf chunk.header).msgTypeId ∧
      recvInfo.firstChunkHeader.msgTypeId = (f.messageOf chunk.header).msgTypeId ∧
      f.lacks chunk.header = (RtmpPayloadParser.needSize recvInfo).toNat := hf.found h.found

/-- The parser takes a chunk for the last of its message when the framing does. -/
theorem finishes_iff (h : c.Effect uninit chunk c' out recvInfo p)
    (hf : c.Framed chunk.chunkStreamId f) :
    f.Finishes chunk ↔ p.thisMsgSize recvInfo = RtmpPayloadParser.needSize recvInfo := by
  obtain ⟨-, -, -, hlacks⟩ := h.resolved hf
  have hsize := h.size
  have hmin := p.toNat_thisMsgSize recvInfo
  rw [Framing.Finishes, hlacks, ← UInt32.toNat_inj, hsize]
  omega

theorem framed (h : c.Effect uninit chunk c' out recvInfo p)
    (hf : c.Framed chunk.chunkStreamId f) : c'.Framed chunk.chunkStreamId (f.next chunk) := by
  obtain ⟨hlen, htype, htype', hlacks⟩ := h.resolved hf
  have hfinishes := h.finishes_iff hf
  by_cases hlast : p.thisMsgSize recvInfo = RtmpPayloadParser.needSize recvInfo
  · obtain ⟨hentries, -⟩ := h.last hlast
    refine ⟨?_, ?_, fun _ => ?_, ?_⟩
    · rw [h.channels]
      exact hlen
    · rw [h.channels]
      exact htype
    · exact if_pos (hfinishes.mpr hlast)
    · simp [hentries]
  · obtain ⟨-, -, hentries⟩ := h.more hlast
    have hle : chunk.payload.length ≤ (RtmpPayloadParser.needSize recvInfo).toNat := by
      have hsize := h.size
      have hmin := p.toNat_thisMsgSize recvInfo
      omega
    refine ⟨?_, ?_, ?_, ?_⟩
    · rw [h.channels]
      exact hlen
    · rw [h.channels]
      exact htype
    · simp [hentries]
    · intro info hinfo
      rw [hentries, Function.update_self] at hinfo
      cases hinfo
      refine ⟨?_, htype'⟩
      rw [RtmpPayloadParser.toNat_needSize_append hle, ← hlacks]
      exact if_neg (mt hfinishes.mp hlast)

/-- The message kept of the last control message never has a time. -/
theorem untimed (h : c.Effect uninit chunk c' out recvInfo p)
    (hc : c.payloadParser.Untimed) : c'.payloadParser.Untimed := by
  by_cases hlast : p.thisMsgSize recvInfo = RtmpPayloadParser.needSize recvInfo
  · obtain ⟨-, q, q', msg, hq, hparse, -, -, hcontrol⟩ := h.last hlast
    have huntimed : q.Untimed := by
      intro msg hmsg
      rw [hq] at hmsg
      exact hc msg hmsg
    have hafter := @RtmpPayloadParser.Untimed.parseMessage q uninit recvInfo.firstChunkHeader
      (recvInfo.recvBuf ++ chunk.payload) huntimed
    rw [hparse] at hafter
    intro msg hmsg
    rw [hcontrol] at hmsg
    exact hafter msg hmsg
  · obtain ⟨-, hcontrol, -⟩ := h.more hlast
    intro msg hmsg
    rw [hcontrol] at hmsg
    exact hc msg hmsg

end Effect

end ParserCore

end Rtmp
