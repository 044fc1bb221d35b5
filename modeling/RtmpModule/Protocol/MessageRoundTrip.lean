import RtmpModule.Protocol.HeaderRoundTrip
import RtmpModule.Protocol.MessageWriter
import RtmpModule.Protocol.Reassembly

/-!
# Writing a message and parsing it

A message sent without anything in between is a type 0 chunk and type 3 chunks of the
same size. The writer produces exactly those bytes, and a parser at a chunk boundary
takes them all and delivers the message.
-/

namespace Rtmp

open AMF0Serializer ParserCore StreamUtil

section Parse

variable {c : ParserCore} {m : Outgoing} {header : RtmpHeader} {size : ChunkSize} {sent : Nat}

/-- What is left of a message ends a call of `parse` with that message. -/
theorem visits_laterChunks (uninit : Uninit) (hc : c.Between) (hm : m.Heads header)
    (hsize : c.payloadParser.recvChunkSize = size.1)
    (hinfo : c.payloadParser.incompleteInfos m.chunkStreamId = some (entry m header sent))
    (hsent : sent < m.content.body.length) (rest : List UInt8) :
    ∃ c' msg, Visits uninit c ((m.laterChunks size sent).flatMap Chunk.encode ++ rest) c' rest ∧
      c'.parsingState = .complete ∧ c'.parsedMsg = some msg ∧ m.DeliveredAs msg := by
  induction hn : m.content.body.length - sent using Nat.strongRecOn generalizing c sent with
  | ind n ih =>
      have hpos := size.2
      have hvalid : (m.chunkAt size sent false .continuation).Valid :=
        valid_chunkAt m size sent false trivial
      have hfind := findOrStart_next size false hinfo
      rw [Outgoing.laterChunks_of_lt hsent, List.flatMap_cons, List.append_assoc]
      by_cases hmore : sent + size.1.toNat < m.content.body.length
      · obtain ⟨c₁, hreceive, hsize₁, hinfos⟩ :=
          receive_more uninit hm hsize hmore false .continuation hfind
        obtain ⟨c', msg, hvisits, hrest⟩ := ih _ (by omega)
          (ParserCore.receive_between hreceive) hsize₁
          (by rw [hinfos, Function.update_self]) hmore rfl
        exact ⟨c', msg, (receive_visits hc hvalid hreceive _).trans hvisits, hrest⟩
      · obtain ⟨c₁, msg, hreceive, hdelivered, -⟩ :=
          receive_last uninit hm hsize hsent (Nat.le_of_not_lt hmore) false .continuation hfind
        rw [Outgoing.laterChunks_of_le (Nat.le_of_not_lt hmore), List.flatMap_nil, List.nil_append]
        obtain ⟨c', hvisits, hcomplete, hmsg, -⟩ :=
          receive_visits_complete hc hvalid hreceive rest
        exact ⟨c', msg, hvisits, hcomplete, hmsg, hdelivered⟩

/-- A whole message at a chunk boundary, its chunk stream being idle. -/
theorem visits_chunks (uninit : Uninit) (hc : c.Between)
    (hsize : c.payloadParser.recvChunkSize = size.1)
    (hidle : c.payloadParser.incompleteInfos m.chunkStreamId = none) (rest : List UInt8) :
    ∃ c' msg, Visits uninit c ((m.chunks size).flatMap Chunk.encode ++ rest) c' rest ∧
      c'.parsingState = .complete ∧ c'.parsedMsg = some msg ∧ m.DeliveredAs msg := by
  have hvalid : (m.chunkAt size 0 false m.firstHeader).Valid :=
    valid_chunkAt m size 0 false (valid_firstHeader m)
  obtain ⟨header, p, hm, hfind⟩ := findOrStart_first m size false hidle
  rw [Outgoing.chunks, List.flatMap_cons, List.append_assoc]
  by_cases hmore : 0 + size.1.toNat < m.content.body.length
  · obtain ⟨c₁, hreceive, hsize₁, hinfos⟩ :=
      receive_more uninit hm hsize hmore false m.firstHeader hfind
    rw [Nat.zero_add] at hinfos hmore
    obtain ⟨c', msg, hvisits, hrest⟩ := visits_laterChunks uninit
      (ParserCore.receive_between hreceive) hm hsize₁ (by rw [hinfos, Function.update_self])
      hmore rest
    exact ⟨c', msg, (receive_visits hc hvalid hreceive _).trans hvisits, hrest⟩
  · obtain ⟨c₁, msg, hreceive, hdelivered, -⟩ :=
      receive_last uninit hm hsize m.body_pos (Nat.le_of_not_lt hmore) false m.firstHeader hfind
    rw [Nat.zero_add] at hmore
    rw [Outgoing.laterChunks_of_le (Nat.le_of_not_lt hmore), List.flatMap_nil, List.nil_append]
    obtain ⟨c', hvisits, hcomplete, hmsg, -⟩ :=
      receive_visits_complete hc hvalid hreceive rest
    exact ⟨c', msg, hvisits, hcomplete, hmsg, hdelivered⟩

/-- A call of `parse` on a whole message takes its bytes and delivers it. -/
theorem parse_chunks (uninit : Uninit) (m : Outgoing) {p : RtmpParser} (hp : p.Between)
    (hsize : p.payloadParser.recvChunkSize = size.1)
    (hidle : p.payloadParser.incompleteInfos m.chunkStreamId = none) (rest : List UInt8) :
    let bytes := (m.chunks size).flatMap Chunk.encode
    let r := p.parse uninit (bytes ++ rest) (bytes ++ rest).length
    r.result = .ok .true ∧ r.stream = rest ∧ r.totalReadedSize = bytes.length ∧
      ∃ msg, r.parser.parsedMsg = some msg ∧ m.DeliveredAs msg := by
  obtain ⟨c', msg, hvisits, hcomplete, hmsg, hdelivered⟩ :=
    visits_chunks uninit hp hsize hidle rest
  obtain ⟨hresult, hstream, htotal, hparsed⟩ := RtmpParser.parse_of_visits hvisits hcomplete
  refine ⟨hresult, hstream, ?_, msg, hparsed.trans hmsg, hdelivered⟩
  rw [htotal, List.length_append, Nat.add_sub_cancel]

/-- A parser that has not read anything yet, with a receive chunk size. -/
def RtmpParser.fresh (recvChunkSize : UInt32) : RtmpParser :=
  { payloadParser := { recvChunkSize } }

theorem between_fresh (recvChunkSize : UInt32) : (RtmpParser.fresh recvChunkSize).Between :=
  ⟨rfl, rfl⟩

end Parse

section Write

variable {msg : RtmpMessage} {m : Outgoing} {size : ChunkSize}

/-- The message `m` with chunk size `size` is what `msg` with body `data` writes. -/
structure Writes (msg : RtmpMessage) (data : List UInt8) (m : Outgoing) (size : ChunkSize) :
    Prop where
  formatType : msg.header.formatType = .full
  chunkStreamId : msg.header.chunkStreamId = m.chunkStreamId
  id_le : m.chunkStreamId.toNat ≤ 6559
  timestamp : msg.header.timestamp = m.timestamp
  timestamp_lt : m.timestamp.toNat < 0xFFFFFF
  msgStreamId : msg.header.msgStreamId = m.msgStreamId
  msgTypeId : msg.header.msgTypeId = m.content.msgTypeId
  data : data = m.content.body
  chunkSize : msg.writeChunkSize = size.1

theorem writeContinuation_eq {data : List UInt8} (h : Writes msg data m size) :
    msg.writeContinuation =
      { bytes := Chunk.basicHeader .continuation m.chunkStreamId false
        writed := (Chunk.basicHeader .continuation m.chunkStreamId false).length } := by
  rw [RtmpMessage.writeContinuation, h.chunkStreamId, RtmpHeader.writePayload_eq m.id_ge h.id_le]
  have hfields : ({ formatType := .continuation, chunkStreamId := m.chunkStreamId } :
      RtmpHeader).truncated.fields = [] := rfl
  rw [hfields, List.append_nil]

theorem encode_continuation (m : Outgoing) (size : ChunkSize) (sent : Nat) :
    (m.chunkAt size sent false .continuation).encode =
      Chunk.basicHeader .continuation m.chunkStreamId false ++
        (m.content.body.drop sent).take size.1.toNat := by
  have hheader : MessageHeader.continuation.encode = [] := rfl
  simp only [Chunk.encode, Chunk.encodeHeader, Outgoing.chunkAt, MessageHeader.formatType,
    hheader, List.append_nil]

/-- The header `write_payload` writes, its length set from the body. -/
theorem writePayload_firstHeader {data : List UInt8} (h : Writes msg data m size) :
    ({ msg.header with msgLength := UInt32.ofNat data.length } : RtmpHeader).writePayload =
      { bytes := (m.chunkAt size 0 false m.firstHeader).encodeHeader
        writed := (m.chunkAt size 0 false m.firstHeader).encodeHeader.length } := by
  have hlow : RtmpHeader.low24 m.timestamp = m.timestamp := by
    have hlt := h.timestamp_lt
    rw [RtmpHeader.low24, Nat.mod_eq_of_lt (by omega), UInt32.ofNat_toNat]
  have htruncated : ({ msg.header with msgLength := UInt32.ofNat data.length } :
      RtmpHeader).truncated = m.firstHeader := by
    simp only [RtmpHeader.truncated, RtmpHeader.messageHeader, RtmpHeader.sentTime, h.formatType,
      MessageHeader.withTime, h.timestamp, hlow, h.msgTypeId, h.msgStreamId, h.data,
      Outgoing.firstHeader]
  have hencode : (m.chunkAt size 0 false m.firstHeader).encodeHeader =
      Chunk.basicHeader .full m.chunkStreamId false ++ m.firstHeader.fields := by
    simp only [Chunk.encodeHeader, Outgoing.chunkAt, MessageHeader.encode, Outgoing.firstHeader,
      MessageHeader.formatType, MessageHeader.time, MessageHeader.extendedTimestamp,
      h.timestamp_lt, ↓reduceIte, List.append_nil]
  have hid : ({ msg.header with msgLength := UInt32.ofNat data.length } :
      RtmpHeader).chunkStreamId = m.chunkStreamId := h.chunkStreamId
  have heq := RtmpHeader.writePayload_eq (hid ▸ m.id_ge) (hid ▸ h.id_le)
  rw [htruncated, hid] at heq
  rw [heq, hencode, h.formatType]

/-- Past the first chunk, the loop and the tail write the type 3 chunks that follow. -/
theorem writeChunks_spec (h : Writes msg m.content.body m size) {i : Nat} (hi : i ≠ 0)
    (hlt : i * size.1.toNat < m.content.body.length) (out : Written) :
    ∃ w, (msg.writeChunks m.content.body i (m.content.body.length - i * size.1.toNat) out).map
        (fun r => msg.writeLast m.content.body r.1 r.2) = some w ∧
      w.bytes = out.bytes ++ (m.laterChunks size (i * size.1.toNat)).flatMap Chunk.encode := by
  induction hn : m.content.body.length - i * size.1.toNat using Nat.strongRecOn
      generalizing i out with
  | ind n ih =>
      have hpos := size.2
      have hnext : (i + 1) * size.1.toNat = i * size.1.toNat + size.1.toNat := Nat.succ_mul _ _
      rw [RtmpMessage.writeChunks, h.chunkSize, Outgoing.laterChunks_of_lt hlt, List.flatMap_cons,
        encode_continuation]
      by_cases hmore : size.1.toNat < n
      · obtain ⟨w, hw, hbytes⟩ := @ih (n - size.1.toNat) (by omega) (i + 1) (by omega)
          (by omega)
          { out.append msg.writeContinuation with
            bytes := (out.append msg.writeContinuation).bytes ++
              (m.content.body.drop (i * size.1.toNat)).take size.1.toNat } (by omega)
        refine ⟨w, ?_, ?_⟩
        · rw [if_pos hmore, dif_neg (by omega), if_pos hi]
          exact hw
        · rw [hbytes, hnext]
          simp [Written.append, writeContinuation_eq h]
      · have hindex : (m.content.body.length - 1) / size.1.toNat = i := by
          rw [Nat.div_eq_iff hpos]
          constructor <;> omega
        have hlast : (m.content.body.drop (i * size.1.toNat)).length ≤ size.1.toNat := by
          rw [List.length_drop]
          omega
        have hdivide : size.1.toNat < m.content.body.length := by
          have hone := Nat.le_mul_of_pos_left size.1.toNat (Nat.pos_of_ne_zero hi)
          omega
        have hrest : (m.content.body.drop (i * size.1.toNat)).take n =
            m.content.body.drop (i * size.1.toNat) := by
          rw [List.take_of_length_le]
          rw [List.length_drop]
          omega
        have hwrite : msg.writeLast m.content.body out n =
            { out.append msg.writeContinuation with
              bytes := (out.append msg.writeContinuation).bytes ++
                m.content.body.drop (i * size.1.toNat) } := by
          rw [RtmpMessage.writeLast, if_pos (by omega)]
          simp only [h.chunkSize, hdivide, decide_true, ↓reduceIte, hindex, hrest]
        refine ⟨msg.writeLast m.content.body out n, by rw [if_neg hmore]; rfl, ?_⟩
        rw [hwrite, List.take_of_length_le hlast, Outgoing.laterChunks_of_le (by omega)]
        simp [Written.append, writeContinuation_eq h]

/-- The bodies of the chunks, with the headers of all but the first. -/
theorem writePayloadWithBody_chunks (h : Writes msg m.content.body m size) :
    ∃ w, msg.writePayloadWithBody m.content.body = some w ∧
      w.bytes = (m.chunkAt size 0 false m.firstHeader).payload ++
        (m.laterChunks size size.1.toNat).flatMap Chunk.encode := by
  have hpos := size.2
  have hbody := m.body_pos
  have hpayload : (m.chunkAt size 0 false m.firstHeader).payload =
      m.content.body.take size.1.toNat := rfl
  rw [RtmpMessage.writePayloadWithBody, RtmpMessage.writeChunks, h.chunkSize, hpayload]
  by_cases hmore : size.1.toNat < m.content.body.length
  · have hone : 1 * size.1.toNat = size.1.toNat := Nat.one_mul _
    obtain ⟨w, hw, hbytes⟩ := writeChunks_spec h Nat.one_ne_zero
      (by omega : 1 * size.1.toNat < m.content.body.length)
      { bytes := m.content.body.take size.1.toNat, writed := m.content.body.length }
    rw [hone] at hw hbytes
    refine ⟨w, ?_, hbytes⟩
    rw [if_pos hmore, dif_neg (by omega), if_neg (by simp)]
    simpa using hw
  · have hindex : (m.content.body.length - 1) / size.1.toNat = 0 :=
      Nat.div_eq_of_lt (by omega)
    have hlast : msg.writeLast m.content.body { writed := m.content.body.length }
        m.content.body.length =
          { bytes := m.content.body, writed := m.content.body.length } := by
      rw [RtmpMessage.writeLast, if_pos hbody]
      simp [h.chunkSize, hmore, hindex]
    refine ⟨_, by rw [if_neg hmore]; exact congrArg some hlast, ?_⟩
    rw [List.take_of_length_le (Nat.le_of_not_lt hmore),
      Outgoing.laterChunks_of_le (Nat.le_of_not_lt hmore), List.flatMap_nil, List.append_nil]

/-- The bytes of a message are those of its chunks, and the size reported is theirs. -/
theorem writePayload_chunks (h : Writes msg m.content.body m size) :
    ∃ w, msg.writePayload m.content.body = some w ∧
      w.bytes = (m.chunks size).flatMap Chunk.encode ∧ w.writed = w.bytes.length := by
  generalize hmsg : msg.setHeader { msg.header with
    msgLength := UInt32.ofNat m.content.body.length } = msg'
  have h' : Writes msg' m.content.body m size := by
    subst hmsg
    exact { h with }
  have hheader : msg'.header.writePayload =
      { bytes := (m.chunkAt size 0 false m.firstHeader).encodeHeader
        writed := (m.chunkAt size 0 false m.firstHeader).encodeHeader.length } := by
    subst hmsg
    exact writePayload_firstHeader h
  have hsize : msg'.writeChunkSize.toNat ≠ 0 := by
    rw [h'.chunkSize]
    exact Nat.ne_of_gt size.2
  obtain ⟨w, hw, hbytes⟩ := writePayloadWithBody_chunks h'
  obtain ⟨w', hw', hcounted⟩ := msg'.writePayloadWithBody_counted hsize m.content.body
  obtain rfl : w = w' := Option.some.inj (hw.symm.trans hw')
  refine ⟨msg'.header.writePayload.append w, ?_, ?_,
    msg'.header.writePayload_counted.append hcounted⟩
  · rw [RtmpMessage.writePayload, hmsg, hw]
    rfl
  · simp [Written.append, hheader, hbytes, Outgoing.chunks, Chunk.encode]

end Write

section Media

/-- An audio or video message with a type 0 header that the writer can be given. -/
structure SendableMedia (msg : RtmpMessage) (data : List UInt8) : Prop where
  kind : msg.body = .audioMessage data ∧ msg.header.msgTypeId = .audioData ∨
    msg.body = .videoMessage data ∧ msg.header.msgTypeId = .videoData
  formatType : msg.header.formatType = .full
  id_ge : 2 ≤ msg.header.chunkStreamId.toNat
  id_le : msg.header.chunkStreamId.toNat ≤ 6559
  timestamp : msg.header.timestamp.toNat < 0xFFFFFF
  data_pos : 0 < data.length
  data_lt : data.length < 2 ^ 24
  chunkSize : 1 ≤ msg.writeChunkSize.toNat

theorem SendableMedia.content {msg : RtmpMessage} {data : List UInt8}
    (h : SendableMedia msg data) :
    ∃ content : Content, content.body = data ∧ content.msgTypeId = msg.header.msgTypeId ∧
      (content = .audio data ∧ msg.body = .audioMessage data ∨
        content = .video data ∧ msg.body = .videoMessage data) := by
  rcases h.kind with ⟨hbody, htype⟩ | ⟨hbody, htype⟩
  · exact ⟨.audio data, rfl, htype.symm, Or.inl ⟨rfl, hbody⟩⟩
  · exact ⟨.video data, rfl, htype.symm, Or.inr ⟨rfl, hbody⟩⟩

/-- A media message that is written is parsed back: a fresh parser with the same chunk
size takes all of its bytes in one call and delivers the same body on the same chunk
stream and message stream at the same time. The writer reports the bytes it wrote. -/
theorem writePayload_parsed (uninit : Uninit) {msg : RtmpMessage} {data : List UInt8}
    (h : SendableMedia msg data) :
    ∃ w, msg.writePayload data = some w ∧ w.writed = w.bytes.length ∧
      let r := (RtmpParser.fresh msg.writeChunkSize).parse uninit w.bytes w.bytes.length
      r.result = .ok .true ∧ r.stream = [] ∧ r.totalReadedSize = w.bytes.length ∧
        ∃ delivered, r.parser.parsedMsg = some delivered ∧ delivered.body = msg.body ∧
          delivered.header.chunkStreamId = msg.header.chunkStreamId ∧
          delivered.header.msgStreamId = msg.header.msgStreamId ∧
          delivered.header.timestamp = msg.header.timestamp ∧
          delivered.header.msgLength.toNat = data.length := by
  obtain ⟨content, hdata, htype, hkind⟩ := h.content
  let m : Outgoing := {
    chunkStreamId := msg.header.chunkStreamId
    timestamp := msg.header.timestamp
    msgStreamId := msg.header.msgStreamId
    content
    id_ge := h.id_ge
    id_le := Nat.le_trans h.id_le (by decide)
    body_pos := hdata ▸ h.data_pos
    body_lt := hdata ▸ h.data_lt }
  let size : ChunkSize := ⟨msg.writeChunkSize, h.chunkSize⟩
  have hwrites : Writes msg m.content.body m size :=
    { formatType := h.formatType
      chunkStreamId := rfl
      id_le := h.id_le
      timestamp := rfl
      timestamp_lt := h.timestamp
      msgStreamId := rfl
      msgTypeId := htype.symm
      data := rfl
      chunkSize := rfl }
  obtain ⟨w, hw, hbytes, hwrited⟩ := writePayload_chunks hwrites
  have hsize : (RtmpParser.fresh msg.writeChunkSize).payloadParser.recvChunkSize = size.1 := rfl
  have hparse := parse_chunks uninit m (between_fresh msg.writeChunkSize) hsize rfl []
  simp only [List.append_nil, ← hbytes] at hparse
  obtain ⟨hresult, hstream, htotal, delivered, hparsed, hdelivered⟩ := hparse
  have hheads : delivered.body = msg.body ∧ m.Heads delivered.header := by
    rcases hkind with ⟨hcontent, hbody⟩ | ⟨hcontent, hbody⟩
    · have hmsg := hdelivered
      simp only [Outgoing.DeliveredAs, m, hcontent] at hmsg
      exact ⟨hmsg.1.trans hbody.symm, by simpa only [m, hcontent] using hmsg.2⟩
    · have hmsg := hdelivered
      simp only [Outgoing.DeliveredAs, m, hcontent] at hmsg
      exact ⟨hmsg.1.trans hbody.symm, by simpa only [m, hcontent] using hmsg.2⟩
  obtain ⟨hbody, hm⟩ := hheads
  rw [hdata] at hw
  exact ⟨w, hw, hwrited, hresult, hstream, htotal, delivered, hparsed, hbody, hm.chunkStreamId,
    hm.msgStreamId, hm.timestamp, hm.msgLength.trans (congrArg List.length hdata)⟩

/-- A video message of two full chunks on the largest id that is written, at the last
time that needs no extended timestamp. -/
def fullChunks : RtmpMessage :=
  { header := {
      chunkStreamId := 6559, timestamp := 0xFFFFFE, msgTypeId := .videoData, msgStreamId := 1 }
    body := .videoMessage (List.replicate 256 7) }

theorem fullChunks_parsed :
    ∃ w, fullChunks.writePayload (List.replicate 256 7) = some w ∧
      ((RtmpParser.fresh 128).parse (fun _ => 0) w.bytes w.bytes.length).result = .ok .true := by
  have hmedia : SendableMedia fullChunks (List.replicate 256 7) :=
    { kind := Or.inr ⟨rfl, rfl⟩
      formatType := rfl
      id_ge := by decide
      id_le := by decide
      timestamp := by decide
      data_pos := by rw [List.length_replicate]; decide
      data_lt := by rw [List.length_replicate]; decide
      chunkSize := by decide }
  obtain ⟨w, hw, -, hresult, -⟩ := writePayload_parsed (fun _ => 0) hmedia
  exact ⟨w, hw, hresult⟩

end Media

section Extended

open Bytes

/-- A message whose time is in the extended timestamp of its type 0 header, its type 3
chunks with or without the time repeated. -/
def Outgoing.encodeExtended (m : Outgoing) (size : ChunkSize) (repeated : Bool) : List UInt8 :=
  Chunk.basicHeader .full m.chunkStreamId false ++ [0xFF, 0xFF, 0xFF] ++
    toBE 3 m.content.body.length ++ [m.content.msgTypeId.code] ++ toLE 4 m.msgStreamId.toNat ++
    toBE 4 m.timestamp.toNat ++ m.content.body.take size.1.toNat ++
    (m.laterChunks size size.1.toNat).flatMap fun chunk =>
      Chunk.basicHeader .continuation m.chunkStreamId false ++
        (if repeated then toBE 4 m.timestamp.toNat else []) ++ chunk.payload

theorem encodeExtended_eq {m : Outgoing} (htime : 0xFFFFFF ≤ m.timestamp.toNat)
    (size : ChunkSize) :
    m.encodeExtended size false = (m.chunks size).flatMap Chunk.encode := by
  have hlate : ¬ m.timestamp.toNat < 0xFFFFFF := Nat.not_lt_of_le htime
  have hfull : toBE 3 0xFFFFFF = [0xFF, 0xFF, 0xFF] := by decide
  have hlen : (UInt32.ofNat m.content.body.length).toNat = m.content.body.length := by
    have hlt := m.body_lt
    exact Nat.mod_eq_of_lt (by omega)
  have hlater : (m.laterChunks size size.1.toNat).flatMap Chunk.encode =
      (m.laterChunks size size.1.toNat).flatMap fun chunk =>
        Chunk.basicHeader .continuation m.chunkStreamId false ++ [] ++ chunk.payload := by
    apply List.flatMap_congr
    intro chunk hchunk
    obtain ⟨sent, rfl⟩ := Outgoing.mem_laterChunks hchunk
    rw [encode_continuation, List.append_nil]
    rfl
  rw [Outgoing.chunks, List.flatMap_cons, hlater]
  simp only [Outgoing.encodeExtended, Chunk.encode, Chunk.encodeHeader, Outgoing.chunkAt,
    Outgoing.firstHeader, MessageHeader.formatType, MessageHeader.encode, MessageHeader.fields,
    MessageHeader.time, MessageHeader.timeField, MessageHeader.extendedTimestamp, hlate,
    ↓reduceIte, hfull, hlen, List.drop_zero, Bool.false_eq_true, List.append_assoc,
    List.cons_append, List.nil_append]

/-- With bare type 3 headers, which is how the parser reads them, a message whose type 0
header carries an extended timestamp is delivered with exactly its body, whatever the
body, the chunk size and the time. -/
theorem extendedTimestamp_delivered (uninit : Uninit) (m : Outgoing) (size : ChunkSize)
    (htime : 0xFFFFFF ≤ m.timestamp.toNat) {p : RtmpParser} (hp : p.Between)
    (hsize : p.payloadParser.recvChunkSize = size.1)
    (hidle : p.payloadParser.incompleteInfos m.chunkStreamId = none) (rest : List UInt8) :
    let bytes := m.encodeExtended size false
    let r := p.parse uninit (bytes ++ rest) (bytes ++ rest).length
    r.result = .ok .true ∧ r.stream = rest ∧
      ∃ msg, r.parser.parsedMsg = some msg ∧ m.DeliveredAs msg := by
  obtain ⟨hresult, hstream, -, msg, hparsed, hdelivered⟩ :=
    parse_chunks uninit m hp hsize hidle rest
  rw [← encodeExtended_eq htime size] at hresult hstream hparsed
  exact ⟨hresult, hstream, msg, hparsed, hdelivered⟩

/-- A message of 130 bytes at 2 ^ 24 ms, the first time that needs all four bytes. -/
def lateMessage : Outgoing where
  chunkStreamId := 4
  timestamp := 0x1000000
  msgStreamId := 1
  content := .video (List.replicate 130 7)
  id_ge := (by decide : 2 ≤ 4)
  id_le := (by decide : 4 ≤ 65599)
  body_pos := by rw [Content.body, List.length_replicate]; decide
  body_lt := by rw [Content.body, List.length_replicate]; decide

theorem lateMessage_delivered :
    ((RtmpParser.fresh 128).parse (fun _ => 0) (lateMessage.encodeExtended ⟨128, by decide⟩ false)
      (lateMessage.encodeExtended ⟨128, by decide⟩ false).length).result = .ok .true := by
  have hparse := extendedTimestamp_delivered (fun _ => 0) lateMessage ⟨128, by decide⟩
    (by decide) (between_fresh 128) rfl rfl []
  simpa only [List.append_nil] using hparse.1

/-- With the time repeated behind its type 3 header, as a peer may send it, the last two
bytes of the body are taken from the time. -/
theorem lateMessage_repeated :
    lateMessage.content = .video (List.replicate 130 7) ∧
      ((RtmpParser.fresh 128).parse (fun _ => 0)
        (lateMessage.encodeExtended ⟨128, by decide⟩ true)
        (lateMessage.encodeExtended ⟨128, by decide⟩ true).length).parser.parsedMsg.map (·.body) =
          some (.videoMessage (List.replicate 128 7 ++ [0x01, 0x00])) := by
  decide +kernel

end Extended

end Rtmp
