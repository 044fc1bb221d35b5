import RtmpModule.Network.Segmentation
import RtmpModule.Protocol.ChunkFormat
import RtmpModule.Protocol.ParserSafety

/-!
# Reading whole chunks

A chunk that is there with all its payload takes the parser from one chunk boundary
to the next: a round for the header, a round for the payload and, when the chunk was
the last of its message, the return that delivers it. `receive` is what that does to
the core of the parser, and `Reaches` the course of the loop of `handle_read` over
one buffer, call by call.
-/

namespace Rtmp

open AMF0Serializer Resumable

theorem Chunk.chunkStreamId_applyTo (chunk : Chunk) (header : RtmpHeader) :
    (chunk.applyTo header).chunkStreamId = chunk.chunkStreamId := by
  unfold Chunk.applyTo MessageHeader.applyTo
  cases chunk.header <;> rfl

namespace RtmpPayloadParser

variable {p p' : RtmpPayloadParser} {header : RtmpHeader} {payload : List UInt8}
  {recvInfo : ReceivedPayloadInfo}

/-- A chunk of the expected size that is not the last of its message. -/
theorem parsePayload_partial (uninit : Uninit) (hfind : p.findOrStart header = (.ok recvInfo, p'))
    (hsize : (p'.thisMsgSize recvInfo).toNat = payload.length)
    (hmore : p'.thisMsgSize recvInfo ≠ needSize recvInfo) :
    p.parsePayload uninit header payload payload.length =
      { result := .ok .waitingNextChunk
        parser := p'.setInfo header.chunkStreamId
          (some { recvInfo with recvBuf := recvInfo.recvBuf ++ payload })
        stream := []
        readedSize := payload.length } := by
  rw [parsePayload_of_le hfind (Nat.le_of_eq hsize), hsize, decide_eq_false hmore,
    List.take_length, List.drop_length]
  rfl

/-- The last chunk of a media message. -/
theorem parsePayload_media (uninit : Uninit) (hfind : p.findOrStart header = (.ok recvInfo, p'))
    (hsize : (p'.thisMsgSize recvInfo).toNat = payload.length)
    (hlast : p'.thisMsgSize recvInfo = needSize recvInfo)
    (hmedia : (recvInfo.firstChunkHeader.isVideoMsg || recvInfo.firstChunkHeader.isAudioMsg) =
      true) :
    p.parsePayload uninit header payload payload.length =
      { result := .ok .complete
        parser := { p'.setInfo header.chunkStreamId none with
          mediaMsgParser := {
            parsedMsg :=
              some (mediaMessage recvInfo.firstChunkHeader (recvInfo.recvBuf ++ payload)) }
          parsedMsg :=
            some (mediaMessage recvInfo.firstChunkHeader (recvInfo.recvBuf ++ payload)) }
        stream := []
        readedSize := payload.length } := by
  rw [parsePayload_of_le hfind (Nat.le_of_eq hsize), hsize, decide_eq_true hlast,
    List.take_length, List.drop_length]
  cases hinfo : (p'.incompleteInfos header.chunkStreamId).isSome <;>
    simp [finishChunk, hinfo, parseMessage_media _ uninit _ hmedia, setInfo]

/-- The last chunk of a control message whose body is accepted. -/
theorem parsePayload_control (uninit : Uninit) (hfind : p.findOrStart header = (.ok recvInfo, p'))
    (hsize : (p'.thisMsgSize recvInfo).toNat = payload.length)
    (hlast : p'.thisMsgSize recvInfo = needSize recvInfo)
    (hcontrol : recvInfo.firstChunkHeader.isControlMsg = true) {msg : RtmpMessage}
    (hbody : ControlMsgParser.parseBody recvInfo.firstChunkHeader.msgTypeId
      (recvInfo.recvBuf ++ payload) = some msg) :
    p.parsePayload uninit header payload payload.length =
      { result := .ok .complete
        parser := { p'.setInfo header.chunkStreamId none with
          controlMsgParser := { parsedMsg := some msg }
          parsedMsg := some msg }
        stream := []
        readedSize := payload.length } := by
  rw [parsePayload_of_le hfind (Nat.le_of_eq hsize), hsize, decide_eq_true hlast,
    List.take_length, List.drop_length]
  cases hinfo : (p'.incompleteInfos header.chunkStreamId).isSome <;>
    simp [finishChunk, hinfo, parseMessage_control _ uninit _ hcontrol, hbody,
      ControlMsgParser.parseControlMsg, setInfo]

end RtmpPayloadParser

namespace ParserCore

/-- The parser waits for the first byte of a chunk. -/
structure Between (c : ParserCore) : Prop where
  state : c.parsingState = .headerParsing
  stage : c.headerParser.parsingState = .basicHeader1byte

/-- The core once the header of a chunk has been read. -/
def afterHeader (c : ParserCore) (chunk : Chunk) : ParserCore :=
  { c with
    parsingState := .payloadParsing
    headerParser := ⟨.basicHeader1byte, chunk.applyTo c.parsedHeader⟩ }

/-- The round that reads the payload of a chunk with nothing behind it. -/
def chunkRound (c : ParserCore) (uninit : Uninit) (chunk : Chunk) : Round :=
  (c.afterHeader chunk).payloadRound uninit chunk.payload chunk.payload.length

/-- What a whole chunk does: the core at the next chunk boundary and the message it
completes. Nothing, if the chunk is refused or its payload has another size than
the parser goes by. -/
def receive (uninit : Uninit) (c : ParserCore) (chunk : Chunk) :
    Option (ParserCore × List RtmpMessage) :=
  let r := c.chunkRound uninit chunk
  if r.returns = none ∧ r.stream = [] then
    some ({ r.core with parsingState := .headerParsing },
      if r.core.parsingState = .complete then r.core.parsedMsg.toList else [])
  else none

/-- The chunks of a list one after the other. -/
def receiveAll (uninit : Uninit) (c : ParserCore) :
    List Chunk → Option (ParserCore × List RtmpMessage)
  | [] => some (c, [])
  | chunk :: chunks => do
      let (c, out) ← c.receive uninit chunk
      let (c, outs) ← c.receiveAll uninit chunks
      return (c, out ++ outs)

/-- How `handle_read` gets from one point of its buffer to another: rounds of the
parser, and a message delivered between two calls of `parse`. -/
inductive Reaches (uninit : Uninit) :
    ParserCore → List UInt8 → List RtmpMessage → ParserCore → List UInt8 → Prop
  | rounds {c c' : ParserCore} {stream stream' : List UInt8}
      (hvisits : Visits uninit c stream c' stream') : Reaches uninit c stream [] c' stream'
  | deliver {c c' c'' : ParserCore} {stream stream' stream'' : List UInt8}
      {out : List RtmpMessage} (hvisits : Visits uninit c stream c' stream')
      (hcomplete : c'.parsingState = .complete)
      (hreaches : Reaches uninit { c' with parsingState := .headerParsing } stream' out
        c'' stream'') :
      Reaches uninit c stream (c'.parsedMsg.toList ++ out) c'' stream''

variable {uninit : Uninit} {c c' c'' : ParserCore} {chunk : Chunk}
  {stream stream' stream'' rest : List UInt8} {out out' : List RtmpMessage}

theorem Visits.trans (h : Visits uninit c stream c' stream')
    (h' : Visits uninit c' stream' c'' stream'') : Visits uninit c stream c'' stream'' := by
  induction h with
  | here => exact h'
  | next hround _ ih => exact .next hround (ih h')

theorem Reaches.visits (h : Visits uninit c stream c' stream')
    (h' : Reaches uninit c' stream' out c'' stream'') :
    Reaches uninit c stream out c'' stream'' := by
  cases h' with
  | rounds hvisits => exact .rounds (h.trans hvisits)
  | deliver hvisits hcomplete hreaches => exact .deliver (h.trans hvisits) hcomplete hreaches

theorem Reaches.trans (h : Reaches uninit c stream out c' stream')
    (h' : Reaches uninit c' stream' out' c'' stream'') :
    Reaches uninit c stream (out ++ out') c'' stream'' := by
  induction h with
  | rounds hvisits => exact .visits hvisits h'
  | deliver hvisits hcomplete _ ih =>
      rw [List.append_assoc]
      exact .deliver hvisits hcomplete (ih h')

section Chunk

theorem length_encodeHeader_pos (chunk : Chunk) : 0 < chunk.encodeHeader.length := by
  unfold Chunk.encodeHeader Chunk.basicHeader
  rw [List.length_append]
  split
  · simp
  · split <;> simp

/-- The round for the header of a chunk. -/
theorem round_encodeHeader (hc : c.Between) (hchunk : chunk.Valid) (rest : List UInt8) :
    c.round uninit (chunk.encodeHeader ++ rest) (chunk.encodeHeader ++ rest).length =
      { core := c.afterHeader chunk, stream := rest,
        readedSize := chunk.encodeHeader.length } := by
  have hpos := length_encodeHeader_pos chunk
  have hlen : (chunk.encodeHeader ++ rest).length ≠ 0 := by
    rw [List.length_append]
    omega
  have hparser : c.headerParser = ⟨.basicHeader1byte, c.parsedHeader⟩ := by
    rw [parsedHeader, ← hc.stage]
  simp only [round, hc.state, headerRound, if_neg hlen]
  rw [hparser, Chunk.parseHeader_encodeHeader hchunk]
  rfl

/-- The rounds for a whole chunk, whose payload round leaves what follows the chunk. -/
theorem visits_round {r : Round} (hc : c.Between) (hchunk : chunk.Valid)
    (hround : (c.afterHeader chunk).payloadRound uninit (chunk.payload ++ rest)
      (chunk.payload ++ rest).length = { r with stream := rest }) (hreturns : r.returns = none) :
    Visits uninit c (chunk.encode ++ rest) r.core rest := by
  have hheader := @round_encodeHeader uninit _ _ hc hchunk (chunk.payload ++ rest)
  rw [← List.append_assoc] at hheader
  change (c.afterHeader chunk).round uninit (chunk.payload ++ rest)
    (chunk.payload ++ rest).length = _ at hround
  refine .next (by rw [Chunk.encode, hheader]) ?_
  rw [Chunk.encode, hheader]
  refine .next (by rw [hround]; exact hreturns) ?_
  rw [hround]
  exact .here _ _

/-- The round after which a chunk has been read ends between two chunks, with the
message it completes. -/
theorem reaches_round {r : Round} (hc : c.Between) (hchunk : chunk.Valid)
    (hround : (c.afterHeader chunk).payloadRound uninit (chunk.payload ++ rest)
      (chunk.payload ++ rest).length = { r with stream := rest }) (hreturns : r.returns = none) :
    Reaches uninit c (chunk.encode ++ rest)
      (if r.core.parsingState = .complete then r.core.parsedMsg.toList else [])
      { r.core with parsingState := .headerParsing } rest := by
  have hvisits := visits_round hc hchunk hround hreturns
  split
  · rename_i hcomplete
    have hdone := Reaches.deliver hvisits hcomplete (.rounds (.here _ _))
    rwa [List.append_nil] at hdone
  · rename_i hcomplete
    have hgoes := @payloadRound_none (c.afterHeader chunk) uninit (chunk.payload ++ rest)
      (chunk.payload ++ rest).length
    rw [hround] at hgoes
    obtain ⟨hstate, -, -⟩ := hgoes hreturns
    have hheader : r.core.parsingState = .headerParsing := by
      cases hs : r.core.parsingState <;> simp_all
    have hsame : { r.core with parsingState := .headerParsing } = r.core := by rw [← hheader]
    rw [hsame]
    exact .rounds hvisits

/-- A payload that is read to its end is read the same with anything behind it. -/
theorem chunkRound_append (hreturns : (c.chunkRound uninit chunk).returns = none)
    (hstream : (c.chunkRound uninit chunk).stream = []) (rest : List UInt8) :
    (c.afterHeader chunk).payloadRound uninit (chunk.payload ++ rest)
      (chunk.payload ++ rest).length = { c.chunkRound uninit chunk with stream := rest } := by
  have hwait : (c.chunkRound uninit chunk).returns ≠ some (.ok .indeterminate) := by
    simp [hreturns]
  rw [payloadRound_append rest hwait]
  change { c.chunkRound uninit chunk with
    stream := (c.chunkRound uninit chunk).stream ++ rest } = _
  rw [hstream, List.nil_append]

/-- The rounds for a whole chunk, with anything behind it. -/
theorem visits_chunk (hc : c.Between) (hchunk : chunk.Valid)
    (hreturns : (c.chunkRound uninit chunk).returns = none)
    (hstream : (c.chunkRound uninit chunk).stream = []) (rest : List UInt8) :
    Visits uninit c (chunk.encode ++ rest) (c.chunkRound uninit chunk).core rest :=
  visits_round hc hchunk (chunkRound_append hreturns hstream rest) hreturns

theorem receive_eq_some (h : c.receive uninit chunk = some (c', out)) :
    (c.chunkRound uninit chunk).returns = none ∧ (c.chunkRound uninit chunk).stream = [] ∧
      c' = { (c.chunkRound uninit chunk).core with parsingState := .headerParsing } ∧
      out = if (c.chunkRound uninit chunk).core.parsingState = .complete then
        (c.chunkRound uninit chunk).core.parsedMsg.toList else [] := by
  unfold receive at h
  dsimp only at h
  split at h
  · rename_i hr
    cases h
    exact ⟨hr.1, hr.2, rfl, rfl⟩
  · cases h

/-- A whole chunk leads to the next chunk boundary. -/
theorem receive_between (h : c.receive uninit chunk = some (c', out)) : c'.Between := by
  obtain ⟨-, -, rfl, -⟩ := receive_eq_some h
  refine ⟨rfl, ?_⟩
  change (c.chunkRound uninit chunk).core.headerParser.parsingState = _
  rw [chunkRound, payloadRound_headerParser]
  rfl

theorem receive_reaches (hc : c.Between) (hchunk : chunk.Valid)
    (h : c.receive uninit chunk = some (c', out)) (rest : List UInt8) :
    Reaches uninit c (chunk.encode ++ rest) out c' rest := by
  obtain ⟨hreturns, hstream, rfl, rfl⟩ := receive_eq_some h
  exact reaches_round hc hchunk (chunkRound_append hreturns hstream rest) hreturns

/-- A completed chunk leaves a message to be handed over. -/
theorem parsedMsg_of_complete (hreturns : (c.chunkRound uninit chunk).returns = none)
    (hcomplete : (c.chunkRound uninit chunk).core.parsingState = .complete) :
    (c.chunkRound uninit chunk).core.parsedMsg.isSome := by
  unfold chunkRound payloadRound at hreturns hcomplete ⊢
  split
  · simp_all
  · rename_i hne
    rw [if_neg hne] at hreturns hcomplete
    dsimp only at hreturns hcomplete ⊢
    split
    · split
      · rename_i msg hmsg
        unfold applyMessage
        split <;> simp [hmsg]
      · simp_all
    all_goals simp_all

/-- A chunk that delivers nothing is part of a call of `parse`. -/
theorem receive_visits (hc : c.Between) (hchunk : chunk.Valid)
    (h : c.receive uninit chunk = some (c', [])) (rest : List UInt8) :
    Visits uninit c (chunk.encode ++ rest) c' rest := by
  obtain ⟨hreturns, hstream, hc', hout⟩ := receive_eq_some h
  have hvisits := visits_chunk hc hchunk hreturns hstream rest
  obtain ⟨hstate, -, -⟩ := payloadRound_none hreturns
  change (c.chunkRound uninit chunk).core.parsingState ≠ .payloadParsing at hstate
  have hheader : (c.chunkRound uninit chunk).core.parsingState = .headerParsing := by
    cases hs : (c.chunkRound uninit chunk).core.parsingState with
    | headerParsing => rfl
    | payloadParsing => exact absurd hs hstate
    | complete =>
        obtain ⟨msg, hmsg⟩ := Option.isSome_iff_exists.mp (parsedMsg_of_complete hreturns hs)
        simp [hs, hmsg] at hout
  rw [hc', ← hheader]
  exact hvisits

/-- A chunk that delivers a message ends a call of `parse`. -/
theorem receive_visits_complete {msg : RtmpMessage} (hc : c.Between) (hchunk : chunk.Valid)
    (h : c.receive uninit chunk = some (c', [msg])) (rest : List UInt8) :
    ∃ c₁, Visits uninit c (chunk.encode ++ rest) c₁ rest ∧ c₁.parsingState = .complete ∧
      c₁.parsedMsg = some msg ∧ { c₁ with parsingState := .headerParsing } = c' := by
  obtain ⟨hreturns, hstream, hc', hout⟩ := receive_eq_some h
  refine ⟨_, visits_chunk hc hchunk hreturns hstream rest, ?_⟩
  by_cases hcomplete : (c.chunkRound uninit chunk).core.parsingState = .complete
  · obtain ⟨msg', hmsg⟩ := Option.isSome_iff_exists.mp (parsedMsg_of_complete hreturns hcomplete)
    simp only [hcomplete, hmsg, ↓reduceIte, Option.toList_some, List.cons.injEq, and_true] at hout
    exact ⟨hcomplete, by rw [hmsg, hout], hc'.symm⟩
  · simp [hcomplete] at hout

theorem receiveAll_cons {chunks : List Chunk}
    (h : c.receiveAll uninit (chunk :: chunks) = some (c'', out)) :
    ∃ c' first others, c.receive uninit chunk = some (c', first) ∧
      c'.receiveAll uninit chunks = some (c'', others) ∧ out = first ++ others := by
  simp only [receiveAll, bind, Option.bind] at h
  split at h
  · cases h
  · rename_i r hr
    obtain ⟨c', first⟩ := r
    dsimp only at h
    split at h
    · cases h
    · rename_i r' hr'
      obtain ⟨last, others⟩ := r'
      cases h
      exact ⟨c', first, others, hr, hr', rfl⟩

/-- Whole chunks, one after the other in one buffer. -/
theorem receiveAll_reaches {chunks : List Chunk} (hc : c.Between)
    (hchunks : ∀ chunk ∈ chunks, chunk.Valid)
    (h : c.receiveAll uninit chunks = some (c', out)) (rest : List UInt8) :
    Reaches uninit c (chunks.flatMap Chunk.encode ++ rest) out c' rest ∧ c'.Between := by
  induction chunks generalizing c out with
  | nil =>
      cases h
      exact ⟨.rounds (.here _ _), hc⟩
  | cons chunk chunks ih =>
      obtain ⟨c₁, first, others, hfirst, hothers, rfl⟩ := receiveAll_cons h
      obtain ⟨hreaches, hbetween⟩ := ih (receive_between hfirst)
        (fun chunk hmem => hchunks chunk (List.mem_cons_of_mem _ hmem)) hothers
      rw [List.flatMap_cons, List.append_assoc]
      exact ⟨(receive_reaches hc (hchunks chunk List.mem_cons_self) hfirst _).trans hreaches,
        hbetween⟩

/-- The core once a chunk has been read, but for what its message does to the parser. -/
def afterChunk (c : ParserCore) (chunk : Chunk) (p : RtmpPayloadParser) : ParserCore :=
  { c with
    parsingState := .headerParsing
    headerParser := ⟨.basicHeader1byte, chunk.applyTo c.parsedHeader⟩
    payloadParser := p }

theorem receive_waiting {p : RtmpPayloadParser} (hne : chunk.payload ≠ [])
    (h : c.payloadParser.parsePayload uninit (chunk.applyTo c.parsedHeader) chunk.payload
        chunk.payload.length =
      { result := .ok .waitingNextChunk, parser := p, stream := [],
        readedSize := chunk.payload.length }) :
    c.receive uninit chunk = some (c.afterChunk chunk p, []) := by
  have hlen : chunk.payload.length ≠ 0 := by simpa using hne
  have hround : c.chunkRound uninit chunk =
      { core := c.afterChunk chunk p, stream := [], readedSize := chunk.payload.length } := by
    simp only [chunkRound, payloadRound, if_neg hlen]
    simp only [afterHeader, parsedHeader] at h ⊢
    rw [h]
    rfl
  simp [receive, hround, afterChunk]

theorem receive_complete {p : RtmpPayloadParser} {msg : RtmpMessage} (hne : chunk.payload ≠ [])
    (h : c.payloadParser.parsePayload uninit (chunk.applyTo c.parsedHeader) chunk.payload
        chunk.payload.length =
      { result := .ok .complete, parser := p, stream := [],
        readedSize := chunk.payload.length })
    (hmsg : p.parsedMsg = some msg) :
    c.receive uninit chunk =
      some (({ c.afterChunk chunk p with parsedMsg := some msg }.applyMessage msg.body).1,
        [msg]) := by
  have hlen : chunk.payload.length ≠ 0 := by simpa using hne
  have hround : (c.chunkRound uninit chunk).returns = none ∧
      (c.chunkRound uninit chunk).stream = [] ∧
      (c.chunkRound uninit chunk).core = ({ c.afterChunk chunk p with
        parsingState := .complete, parsedMsg := some msg }.applyMessage msg.body).1 := by
    simp only [chunkRound, payloadRound, if_neg hlen]
    simp only [afterHeader, parsedHeader] at h ⊢
    rw [h]
    simp only [hmsg]
    exact ⟨trivial, trivial, rfl⟩
  obtain ⟨hreturns, hstream, hcore⟩ := hround
  simp only [receive, hreturns, hstream, hcore, and_self, ↓reduceIte]
  unfold applyMessage
  split <;> simp [afterChunk]

/-- A chunk after which its message goes on. -/
theorem receive_partial (uninit : Uninit) {recvInfo : ReceivedPayloadInfo}
    {p : RtmpPayloadParser} (hne : chunk.payload ≠ [])
    (hfind : c.payloadParser.findOrStart (chunk.applyTo c.parsedHeader) = (.ok recvInfo, p))
    (hsize : (p.thisMsgSize recvInfo).toNat = chunk.payload.length)
    (hmore : p.thisMsgSize recvInfo ≠ RtmpPayloadParser.needSize recvInfo) :
    c.receive uninit chunk = some (c.afterChunk chunk (p.setInfo chunk.chunkStreamId
      (some { recvInfo with recvBuf := recvInfo.recvBuf ++ chunk.payload })), []) := by
  have hparse := RtmpPayloadParser.parsePayload_partial uninit hfind hsize hmore
  rw [Chunk.chunkStreamId_applyTo] at hparse
  exact receive_waiting hne hparse

/-- The chunk that finishes a media message. -/
theorem receive_media (uninit : Uninit) {recvInfo : ReceivedPayloadInfo}
    {p : RtmpPayloadParser} (hne : chunk.payload ≠ [])
    (hfind : c.payloadParser.findOrStart (chunk.applyTo c.parsedHeader) = (.ok recvInfo, p))
    (hsize : (p.thisMsgSize recvInfo).toNat = chunk.payload.length)
    (hlast : p.thisMsgSize recvInfo = RtmpPayloadParser.needSize recvInfo)
    (hmedia : (recvInfo.firstChunkHeader.isVideoMsg || recvInfo.firstChunkHeader.isAudioMsg) =
      true) {msg : RtmpMessage}
    (hmsg : msg = RtmpPayloadParser.mediaMessage recvInfo.firstChunkHeader
      (recvInfo.recvBuf ++ chunk.payload)) :
    c.receive uninit chunk = some ({ c.afterChunk chunk { p.setInfo chunk.chunkStreamId none with
        mediaMsgParser := { parsedMsg := some msg }
        parsedMsg := some msg } with parsedMsg := some msg }, [msg]) := by
  have hparse := RtmpPayloadParser.parsePayload_media uninit hfind hsize hlast hmedia
  rw [Chunk.chunkStreamId_applyTo, ← hmsg] at hparse
  have hreceive := receive_complete hne hparse rfl
  rw [hreceive, hmsg, RtmpPayloadParser.mediaMessage]
  split <;> rfl

/-- The chunk that finishes a control message. -/
theorem receive_control (uninit : Uninit) {recvInfo : ReceivedPayloadInfo}
    {p : RtmpPayloadParser} (hne : chunk.payload ≠ [])
    (hfind : c.payloadParser.findOrStart (chunk.applyTo c.parsedHeader) = (.ok recvInfo, p))
    (hsize : (p.thisMsgSize recvInfo).toNat = chunk.payload.length)
    (hlast : p.thisMsgSize recvInfo = RtmpPayloadParser.needSize recvInfo)
    (hcontrol : recvInfo.firstChunkHeader.isControlMsg = true) {msg : RtmpMessage}
    (hbody : ControlMsgParser.parseBody recvInfo.firstChunkHeader.msgTypeId
      (recvInfo.recvBuf ++ chunk.payload) = some msg) :
    c.receive uninit chunk = some (({ c.afterChunk chunk { p.setInfo chunk.chunkStreamId none with
        controlMsgParser := { parsedMsg := some msg }
        parsedMsg := some msg } with
      parsedMsg := some msg }.applyMessage msg.body).1, [msg]) := by
  have hparse := RtmpPayloadParser.parsePayload_control uninit hfind hsize hlast hcontrol hbody
  rw [Chunk.chunkStreamId_applyTo] at hparse
  exact receive_complete hne hparse rfl

/-- The chunk that finishes a SetChunkSize message. -/
theorem receive_chunkSize (uninit : Uninit) {recvInfo : ReceivedPayloadInfo}
    {p : RtmpPayloadParser} (hne : chunk.payload ≠ [])
    (hfind : c.payloadParser.findOrStart (chunk.applyTo c.parsedHeader) = (.ok recvInfo, p))
    (hsize : (p.thisMsgSize recvInfo).toNat = chunk.payload.length)
    (hlast : p.thisMsgSize recvInfo = RtmpPayloadParser.needSize recvInfo)
    (htype : recvInfo.firstChunkHeader.msgTypeId = .chunkSize) {chunkSize : UInt32}
    (hbody : recvInfo.recvBuf ++ chunk.payload = Bytes.toBE 4 chunkSize.toNat) :
    c.receive uninit chunk = some ({ c.afterChunk chunk { p.setInfo chunk.chunkStreamId none with
        controlMsgParser := { parsedMsg := some (.setChunkSize chunkSize) }
        parsedMsg := some (.setChunkSize chunkSize)
        recvChunkSize := chunkSize } with
      parsedMsg := some (.setChunkSize chunkSize) }, [.setChunkSize chunkSize]) := by
  have hcontrol : recvInfo.firstChunkHeader.isControlMsg = true := by
    rw [RtmpHeader.isControlMsg, htype]
    decide
  have hread : ControlMsgParser.parseBody .chunkSize (Bytes.toBE 4 chunkSize.toNat) =
      some (.setChunkSize chunkSize) := by
    have hfield := StreamUtil.readUint_toBE [] chunkSize
    rw [List.append_nil] at hfield
    simp [ControlMsgParser.parseBody, ControlMsgParser.parseChunkSize,
      ControlMsgParser.parseField, StreamUtil.checkRedableLength, hfield]
  exact receive_control uninit hne hfind hsize hlast hcontrol (by rw [htype, hbody, hread])

end Chunk

section Loop

/-- Rounds of the code are steps of the machine. -/
theorem Visits.drain (h : Visits uninit c stream c' stream') (hrest : c.Resting) :
    (parserMachine uninit).drain { core := c } stream =
        (parserMachine uninit).drain { core := c' } stream' ∧ c'.Resting := by
  induction h with
  | here => exact ⟨rfl, hrest⟩
  | @next c _ stream _ hround _ ih =>
      have hdrain := round_drain uninit stream hrest
      rw [hround] at hdrain
      obtain ⟨hdrain, -, hrest'⟩ := hdrain
      rw [hdrain]
      exact ih hrest'

theorem Reaches.drain (h : Reaches uninit c stream out c' stream') (hrest : c.Resting) :
    (parserMachine uninit).drain { core := c } stream =
        Machine.emit out ((parserMachine uninit).drain { core := c' } stream') ∧
      c'.Resting := by
  induction h with
  | rounds hvisits =>
      rw [Machine.emit_nil]
      exact hvisits.drain hrest
  | @deliver _ _ _ _ stream' _ _ hvisits hcomplete _ ih =>
      obtain ⟨hdrain, hrest'⟩ := hvisits.drain hrest
      have hround := round_drain uninit stream' hrest'
      rw [RtmpParser.round_complete hcomplete] at hround
      obtain ⟨hdeliver, hrest'', -⟩ := hround
      obtain ⟨hdrain', hrest'''⟩ := ih hrest''
      rw [hdrain, hdeliver, hdrain', Machine.emit_emit]
      exact ⟨rfl, hrest'''⟩

end Loop

end ParserCore

namespace RtmpParser

variable {uninit : Uninit} {c c' : ParserCore} {stream rest : List UInt8} {p : RtmpParser}

theorem parsePrivate_of_visits (h : ParserCore.Visits uninit c stream c' rest)
    (hcomplete : c'.parsingState = .complete) (hp : p.toParserCore = c) (total : Nat) :
    (p.parsePrivate uninit stream stream.length total).result = .ok .true ∧
      (p.parsePrivate uninit stream stream.length total).stream = rest ∧
      rest.length ≤ stream.length ∧
      (p.parsePrivate uninit stream stream.length total).totalReadedSize =
        total + (stream.length - rest.length) ∧
      (p.parsePrivate uninit stream stream.length total).parser.toParserCore =
        { c' with parsingState := .headerParsing } := by
  induction h generalizing p total with
  | here =>
      subst hp
      rw [parsePrivate_of_some (by rw [round_complete hcomplete]), round_complete hcomplete]
      simp
  | @next c _ stream _ hround _ ih =>
      subst hp
      obtain ⟨hread, hlen⟩ := ParserCore.round_none_length hround
      obtain ⟨hresult, hstream, hle, htotal, hcore⟩ := ih hcomplete
        (afterRound_core p (p.round uninit stream stream.length))
        (total + (p.round uninit stream stream.length).readedSize)
      rw [parsePrivate_of_none hround, ← hlen]
      refine ⟨hresult, hstream, by omega, ?_, hcore⟩
      rw [htotal]
      omega

/-- Rounds that end in a completed message are a call of `parse` that returns true. -/
theorem parse_of_visits (h : ParserCore.Visits uninit p.toParserCore stream c' rest)
    (hcomplete : c'.parsingState = .complete) :
    (p.parse uninit stream stream.length).result = .ok .true ∧
      (p.parse uninit stream stream.length).stream = rest ∧
      (p.parse uninit stream stream.length).totalReadedSize = stream.length - rest.length ∧
      (p.parse uninit stream stream.length).parser.parsedMsg = c'.parsedMsg := by
  obtain ⟨hresult, hstream, -, htotal, hcore⟩ := parsePrivate_of_visits h hcomplete rfl 0
  obtain ⟨hresult', hcore', hstream', htotal'⟩ := p.parse_eq uninit stream stream.length
  refine ⟨hresult'.trans hresult, hstream'.trans hstream, ?_, ?_⟩
  · rw [htotal', htotal, Nat.zero_add]
  · rw [hcore', hcore]

end RtmpParser

/-- At a chunk boundary nothing happens without a byte. -/
theorem ParserCore.Reaches.of_nil {uninit : Uninit} {c c' : ParserCore} {stream : List UInt8}
    {out : List RtmpMessage} (h : Reaches uninit c [] out c' stream) (hc : c.Between) :
    out = [] ∧ c' = c := by
  have hvisits : ∀ {c' : ParserCore} {stream : List UInt8}, Visits uninit c [] c' stream →
      c' = c := by
    intro c' stream hv
    cases hv with
    | here => rfl
    | next hround _ => simp [round, hc.state, headerRound] at hround
  cases h with
  | rounds hv => exact ⟨rfl, hvisits hv⟩
  | deliver hv hcomplete _ =>
      rw [hvisits hv, hc.state] at hcomplete
      cases hcomplete

/-- A buffer that is read to its end leaves the connection waiting for the next chunk,
with the delivered messages handled. -/
theorem Connection.run_of_reaches {uninit : Uninit} {epoch : UInt32} {bytes : List UInt8}
    {out : List RtmpMessage} {core : ParserCore}
    (h : ParserCore.Reaches uninit (Connection.afterHandshake epoch).parser.toParserCore bytes
      out core []) (hcore : core.Between) :
    let c := (Connection.afterHandshake epoch).run uninit [bytes]
    c.status = .reading ∧ c.handled = out ∧ c.requestStreambuf = [] ∧
      c.parser.toParserCore = core := by
  by_cases hbytes : bytes = []
  · subst hbytes
    obtain ⟨rfl, rfl⟩ := h.of_nil ⟨rfl, rfl⟩
    exact ⟨rfl, rfl, rfl, rfl⟩
  have hrest : (Connection.afterHandshake epoch).parser.Resting := by
    simp [ParserCore.Resting, Connection.afterHandshake, Connection.setBaseTimestamp,
      RtmpHeaderParser.ParsingState.size]
  have hreplay : (Connection.afterHandshake epoch).NeverReplays uninit [bytes] :=
    ⟨fun hr => hr.2.2.1 rfl, trivial⟩
  have hmirrors := run_mirrors uninit epoch [bytes] (by simpa using hbytes) hreplay
  obtain ⟨hdrain, hrest'⟩ := h.drain hrest
  obtain ⟨hnil, hsettle⟩ := drain_nil uninit hrest' (by simp [hcore.state])
  rw [List.flatten_singleton, drainedBytes, hdrain, hnil] at hmirrors
  have hreading := hmirrors.status
  refine ⟨hreading, by simpa [Machine.emit] using hmirrors.handled, hmirrors.unread hreading, ?_⟩
  have hsame := hmirrors.core
  simp only [Machine.emit, MachineState.settle, hcore.state] at hsame
  simpa using hsame

end Rtmp
