import RtmpModule.Protocol.RecvBuffer

/-!
# What reading a chunk can do

Whatever a chunk carries, reading it whole looks up or makes the entry of its message,
adds the payload to it, and either leaves the entry with the bytes received so far or
removes it and delivers one message. Of the tables it writes those of its own chunk
stream; the rollover state and the header object belong to the connection.

A chunk without payload, of an empty message, is read when the first byte after it
has arrived, so `accept` looks at a chunk with one byte behind it.
-/

namespace Rtmp

open AMF0Serializer

namespace RtmpPayloadParser

/-- Turning a payload into a message leaves the tables alone. -/
theorem parseMessage_tables (p : RtmpPayloadParser) (uninit : Uninit) (firstHeader : RtmpHeader)
    (payload : List UInt8) :
    (p.parseMessage uninit firstHeader payload).2.channels = p.channels ∧
      (p.parseMessage uninit firstHeader payload).2.context = p.context ∧
      (p.parseMessage uninit firstHeader payload).2.recvChunkSize = p.recvChunkSize := by
  unfold parseMessage
  split
  · exact ⟨rfl, rfl, rfl⟩
  split
  · dsimp only
    split <;> exact ⟨rfl, rfl, rfl⟩
  split
  · dsimp only
    split <;> exact ⟨rfl, rfl, rfl⟩
  split
  · dsimp only
    split <;> exact ⟨rfl, rfl, rfl⟩
  · exact ⟨rfl, rfl, rfl⟩

/-- The control message kept by the parser has no time. -/
def Untimed (p : RtmpPayloadParser) : Prop :=
  ∀ msg, p.controlMsgParser.parsedMsg = some msg → msg.header.absTimestamp = 0

section Header

variable {p p' : RtmpPayloadParser} {uninit : Uninit} {firstHeader : RtmpHeader}
  {payload : List UInt8} {msg : RtmpMessage}

theorem Untimed.parseMessage (hp : p.Untimed) :
    (p.parseMessage uninit firstHeader payload).2.Untimed := by
  by_cases hcontrol : firstHeader.isControlMsg = true
  · rw [parseMessage_control p uninit payload hcontrol]
    intro msg hmsg
    dsimp only at hmsg
    unfold ControlMsgParser.parseControlMsg at hmsg
    split at hmsg
    · rename_i hbody
      cases hmsg
      exact ControlMsgParser.parseBody_absTimestamp hbody
    · exact hp msg hmsg
  · have hkeep : (p.parseMessage uninit firstHeader payload).2.controlMsgParser =
        p.controlMsgParser := by
      rw [RtmpPayloadParser.parseMessage, if_neg hcontrol]
      split
      · dsimp only
        split <;> rfl
      split
      · dsimp only
        split <;> rfl
      split
      · dsimp only
        split <;> rfl
      · rfl
    intro msg hmsg
    rw [hkeep] at hmsg
    exact hp msg hmsg

/-- A control message is delivered without a time. -/
theorem parseMessage_untimed (h : p.parseMessage uninit firstHeader payload = (.ok .complete, p'))
    (hmsg : p'.parsedMsg = some msg) (hcontrol : firstHeader.isControlMsg = true)
    (hp : p.Untimed) : msg.header.absTimestamp = 0 := by
  have huntimed := @Untimed.parseMessage p uninit firstHeader payload hp
  rw [h] at huntimed
  apply huntimed
  rw [parseMessage_control p uninit payload hcontrol] at h
  obtain ⟨-, rfl⟩ := Prod.mk.inj h
  exact hmsg

/-- Every other message is delivered under the header of its first chunk. -/
theorem parseMessage_header (h : p.parseMessage uninit firstHeader payload = (.ok .complete, p'))
    (hmsg : p'.parsedMsg = some msg) (hcontrol : firstHeader.isControlMsg = false)
    (hknown : firstHeader.msgTypeId ≠ .unknown) : msg.header = firstHeader := by
  by_cases hcommand : firstHeader.isCommandMsg = true
  · cases hbody : CommandMsgParser.parseBody uninit firstHeader payload with
    | none =>
        rw [parseMessage_command_fail p uninit payload hcommand hbody] at h
        cases h
    | some body =>
        rw [parseMessage_command_ok p uninit payload hcommand hbody] at h
        cases h
        cases hmsg
        rfl
  by_cases hdata : firstHeader.isDataMsg = true
  · rw [parseMessage_data p uninit payload hdata] at h
    cases hr : (p.dataMsgParser.parseDataMsg uninit firstHeader payload).1 with
    | error fault =>
        rw [hr] at h
        cases h
    | ok accepted =>
        rw [hr] at h
        cases accepted with
        | false => cases h
        | true =>
            obtain ⟨msg', hmsg', -⟩ := DataMsgParser.parseDataMsg_true hr
            cases h
            rw [hmsg'] at hmsg
            cases hmsg
            rfl
  by_cases hmedia : (firstHeader.isVideoMsg || firstHeader.isAudioMsg) = true
  · rw [parseMessage_media p uninit payload hmedia] at h
    cases h
    cases hmsg
    rfl
  · exfalso
    simp only [RtmpHeader.isCommandMsg, RtmpHeader.isDataMsg, RtmpHeader.isVideoMsg,
      RtmpHeader.isAudioMsg, RtmpHeader.isControlMsg] at hcontrol hcommand hdata hmedia
    cases ht : firstHeader.msgTypeId <;> simp_all <;> revert hcontrol <;> decide

end Header

theorem finishChunk_tables (p : RtmpPayloadParser) (uninit : Uninit) (csId : UInt32)
    (recvInfo : ReceivedPayloadInfo) (isLast : Bool) :
    (p.finishChunk uninit csId recvInfo isLast).2.channels = p.channels ∧
      (p.finishChunk uninit csId recvInfo isLast).2.context = p.context ∧
      (p.finishChunk uninit csId recvInfo isLast).2.recvChunkSize = p.recvChunkSize := by
  cases isLast with
  | false => exact ⟨rfl, rfl, rfl⟩
  | true =>
      simp only [finishChunk, ↓reduceIte]
      generalize hq :
        (if (p.incompleteInfos csId).isSome then p.setInfo csId (some recvInfo) else p) = q
      have hsame : q.channels = p.channels ∧ q.context = p.context ∧
          q.recvChunkSize = p.recvChunkSize := by
        subst hq
        split <;> exact ⟨rfl, rfl, rfl⟩
      have htables := q.parseMessage_tables uninit recvInfo.firstChunkHeader recvInfo.recvBuf
      split <;> rename_i hr <;> rw [hr] at htables <;>
        exact ⟨htables.1.trans hsame.1, htables.2.1.trans hsame.2.1,
          htables.2.2.trans hsame.2.2⟩

/-- A message that is delivered comes from its own payload, and has no entry left. -/
theorem finishChunk_complete {p : RtmpPayloadParser} {uninit : Uninit} {csId : UInt32}
    {recvInfo : ReceivedPayloadInfo}
    (h : (p.finishChunk uninit csId recvInfo true).1 = .ok .complete) :
    ∃ q q' : RtmpPayloadParser,
      (∃ incompleteInfos, q = { p with incompleteInfos }) ∧
      q.parseMessage uninit recvInfo.firstChunkHeader recvInfo.recvBuf = (.ok .complete, q') ∧
      (p.finishChunk uninit csId recvInfo true).2 = q'.setInfo csId none := by
  simp only [finishChunk, ↓reduceIte] at h ⊢
  generalize hq :
    (if (p.incompleteInfos csId).isSome then p.setInfo csId (some recvInfo) else p) = q at h ⊢
  rcases hr : q.parseMessage uninit recvInfo.firstChunkHeader recvInfo.recvBuf with ⟨result, q'⟩
  rw [hr] at h
  obtain rfl : result = .ok .complete := by
    rcases result with fault | result
    · cases h
    · cases result <;> first | rfl | cases h
  refine ⟨q, q', ?_, hr, rfl⟩
  subst hq
  split <;> exact ⟨_, rfl⟩

/-- A chunk of the expected size, with anything behind it. -/
theorem parsePayload_followed {p p' : RtmpPayloadParser} {header : RtmpHeader}
    {recvInfo : ReceivedPayloadInfo} {payload : List UInt8} (uninit : Uninit)
    (hfind : p.findOrStart header = (.ok recvInfo, p'))
    (hsize : (p'.thisMsgSize recvInfo).toNat = payload.length) (rest : List UInt8) :
    p.parsePayload uninit header (payload ++ rest) (payload ++ rest).length =
      { result := (p'.finishChunk uninit header.chunkStreamId
          { recvInfo with recvBuf := recvInfo.recvBuf ++ payload }
          (decide (p'.thisMsgSize recvInfo = needSize recvInfo))).1
        parser := (p'.finishChunk uninit header.chunkStreamId
          { recvInfo with recvBuf := recvInfo.recvBuf ++ payload }
          (decide (p'.thisMsgSize recvInfo = needSize recvInfo))).2
        stream := rest
        readedSize := payload.length } := by
  rw [parsePayload_of_le hfind (by rw [hsize, List.length_append]; omega), hsize,
    List.take_left', List.drop_left'] <;> rfl

end RtmpPayloadParser

namespace ParserCore

/-- The round that reads the payload of a chunk with one byte behind it. -/
def acceptRound (c : ParserCore) (uninit : Uninit) (chunk : Chunk) : Round :=
  (c.afterHeader chunk).payloadRound uninit (chunk.payload ++ [0]) (chunk.payload ++ [0]).length

/-- What a whole chunk does: the core at the next chunk boundary and the message it
completes. Nothing, if the chunk is refused or its payload has another size than
the parser goes by. -/
def accept (uninit : Uninit) (c : ParserCore) (chunk : Chunk) :
    Option (ParserCore × List RtmpMessage) :=
  let r := c.acceptRound uninit chunk
  if r.returns = none ∧ r.readedSize = chunk.payload.length then
    some ({ r.core with parsingState := .headerParsing },
      if r.core.parsingState = .complete then r.core.parsedMsg.toList else [])
  else none

/-- The entry of the message of a chunk, with the payload of the chunk. -/
def extended (c : ParserCore) (chunk : Chunk) : Option ReceivedPayloadInfo :=
  match c.payloadParser.findOrStart (chunk.applyTo c.parsedHeader) with
  | (.ok recvInfo, _) => some { recvInfo with recvBuf := recvInfo.recvBuf ++ chunk.payload }
  | (.error _, _) => none

/-- The effect of a chunk that is read whole, `recvInfo` being the entry of its message
before the payload is added and `p` the parser that has looked it up. -/
structure Effect (c : ParserCore) (uninit : Uninit) (chunk : Chunk) (c' : ParserCore)
    (out : List RtmpMessage) (recvInfo : ReceivedPayloadInfo) (p : RtmpPayloadParser) :
    Prop where
  found : c.payloadParser.findOrStart (chunk.applyTo c.parsedHeader) = (.ok recvInfo, p)
  size : (p.thisMsgSize recvInfo).toNat = chunk.payload.length
  between : c'.Between
  parsedHeader : c'.parsedHeader = chunk.applyTo c.parsedHeader
  channels : c'.payloadParser.channels = p.channels
  context : c'.payloadParser.context = p.context
  more : p.thisMsgSize recvInfo ≠ RtmpPayloadParser.needSize recvInfo → out = [] ∧
    c'.payloadParser.controlMsgParser = c.payloadParser.controlMsgParser ∧
    c'.payloadParser.incompleteInfos =
      Function.update c.payloadParser.incompleteInfos chunk.chunkStreamId
        (some { recvInfo with recvBuf := recvInfo.recvBuf ++ chunk.payload })
  last : p.thisMsgSize recvInfo = RtmpPayloadParser.needSize recvInfo →
    c'.payloadParser.incompleteInfos =
      Function.update c.payloadParser.incompleteInfos chunk.chunkStreamId none ∧
    ∃ (q q' : RtmpPayloadParser) (msg : RtmpMessage),
      q.controlMsgParser = c.payloadParser.controlMsgParser ∧
      q.parseMessage uninit recvInfo.firstChunkHeader (recvInfo.recvBuf ++ chunk.payload) =
        (.ok .complete, q') ∧
      q'.parsedMsg = some msg ∧ out = [msg] ∧
      c'.payloadParser.controlMsgParser = q'.controlMsgParser

variable {uninit : Uninit} {c c' : ParserCore} {chunk : Chunk} {out : List RtmpMessage}

/-- Applying a message to the parser writes the chunk size at most. -/
theorem applyMessage_tables (c : ParserCore) (body : MessageBody) :
    ∃ recvChunkSize, (c.applyMessage body).1 =
      { c with payloadParser := { c.payloadParser with recvChunkSize } } := by
  unfold applyMessage
  split <;> exact ⟨_, rfl⟩

/-- A payload round after which the loop goes on: the message goes on, or it is
complete and has been applied to the parser. -/
theorem payloadRound_goes_on {p : ParserCore} {stream : List UInt8} {bufSize : Nat}
    (h : (p.payloadRound uninit stream bufSize).returns = none) :
    ∃ r, r = p.payloadParser.parsePayload uninit p.parsedHeader stream bufSize ∧
      (p.payloadRound uninit stream bufSize).readedSize = r.readedSize ∧
      (r.result = .ok .waitingNextChunk ∧ (p.payloadRound uninit stream bufSize).core =
          { p with payloadParser := r.parser, parsingState := .headerParsing } ∨
        r.result = .ok .complete ∧ ∃ msg, r.parser.parsedMsg = some msg ∧
          (p.payloadRound uninit stream bufSize).core =
            ({ p with
              payloadParser := r.parser
              parsedMsg := some msg
              parsingState := .complete }.applyMessage msg.body).1) := by
  by_cases hlen : bufSize = 0
  · simp [payloadRound, hlen] at h
  refine ⟨_, rfl, ?_⟩
  simp only [payloadRound, if_neg hlen] at h ⊢
  split
  · rename_i hr
    simp only [hr] at h ⊢
    split
    · rename_i msg hmsg
      exact ⟨rfl, .inr ⟨trivial, msg, hmsg, by rw [hmsg]⟩⟩
    · rename_i hmsg
      simp [hmsg] at h
  · rename_i hr
    exact ⟨rfl, .inl ⟨hr, rfl⟩⟩
  all_goals
    rename_i hr
    simp [hr] at h

theorem accept_eq_some (h : c.accept uninit chunk = some (c', out)) :
    (c.acceptRound uninit chunk).readedSize = chunk.payload.length ∧
      (c.acceptRound uninit chunk).returns = none ∧
      c' = { (c.acceptRound uninit chunk).core with parsingState := .headerParsing } ∧
      out = if (c.acceptRound uninit chunk).core.parsingState = .complete then
        (c.acceptRound uninit chunk).core.parsedMsg.toList else [] := by
  unfold accept at h
  dsimp only at h
  split at h
  · rename_i hr
    cases h
    exact ⟨hr.2, hr.1, rfl, rfl⟩
  · cases h

/-- What `parse_payload` does to a chunk that is read whole. -/
theorem accept_payload (h : c.accept uninit chunk = some (c', out)) :
    ∃ r, r = c.payloadParser.parsePayload uninit (chunk.applyTo c.parsedHeader)
          (chunk.payload ++ [0]) (chunk.payload ++ [0]).length ∧
        r.readedSize = chunk.payload.length ∧ c'.Between ∧
        c'.parsedHeader = chunk.applyTo c.parsedHeader ∧
        (∃ recvChunkSize, c'.payloadParser = { r.parser with recvChunkSize }) ∧
        (r.result = .ok .waitingNextChunk ∧ out = [] ∨
          r.result = .ok .complete ∧ ∃ msg, r.parser.parsedMsg = some msg ∧ out = [msg]) := by
  obtain ⟨hread, hreturns, rfl, rfl⟩ := accept_eq_some h
  obtain ⟨r, hr, hsize, hcore⟩ := payloadRound_goes_on hreturns
  change _ ∧ (c.acceptRound uninit chunk).core = _ ∨
    _ ∧ ∃ msg, _ ∧ (c.acceptRound uninit chunk).core = _ at hcore
  refine ⟨r, hr, hsize.symm.trans hread, ?_⟩
  rcases hcore with ⟨hresult, hcore⟩ | ⟨hresult, msg, hmsg, hcore⟩
  · rw [hcore]
    exact ⟨⟨rfl, rfl⟩, rfl, ⟨_, rfl⟩, .inl ⟨hresult, if_neg (by simp)⟩⟩
  · obtain ⟨recvChunkSize, happly⟩ :=
      applyMessage_tables { c.afterHeader chunk with
        payloadParser := r.parser
        parsedMsg := some msg
        parsingState := .complete } msg.body
    rw [happly] at hcore
    rw [hcore]
    exact ⟨⟨rfl, rfl⟩, rfl, ⟨recvChunkSize, rfl⟩, .inr ⟨hresult, msg, hmsg, if_pos rfl⟩⟩

theorem accept_effect (h : c.accept uninit chunk = some (c', out)) :
    ∃ recvInfo p, c.Effect uninit chunk c' out recvInfo p := by
  obtain ⟨r, hr, hread, hbetween, hheader, ⟨recvChunkSize, hparser⟩, hresult⟩ := accept_payload h
  rcases hf : c.payloadParser.findOrStart (chunk.applyTo c.parsedHeader) with ⟨result, p⟩
  cases result with
  | error fault =>
      rw [RtmpPayloadParser.parsePayload_of_error hf] at hr
      simp [hr] at hresult
  | ok recvInfo =>
      by_cases hle : (p.thisMsgSize recvInfo).toNat ≤ (chunk.payload ++ [0]).length
      · have hsize : (p.thisMsgSize recvInfo).toNat = chunk.payload.length := by
          rw [hr, RtmpPayloadParser.parsePayload_of_le hf hle] at hread
          exact hread
        rw [RtmpPayloadParser.parsePayload_followed uninit hf hsize,
          Chunk.chunkStreamId_applyTo] at hr
        have hframe := (RtmpPayloadParser.findOrStart_frame hf).1
        have hkeep := RtmpPayloadParser.findOrStart_incompleteInfos hf
        have hcontrol : p.controlMsgParser = c.payloadParser.controlMsgParser := by rw [hframe]
        have htables := p.finishChunk_tables uninit chunk.chunkStreamId
          { recvInfo with recvBuf := recvInfo.recvBuf ++ chunk.payload }
          (decide (p.thisMsgSize recvInfo = RtmpPayloadParser.needSize recvInfo))
        refine ⟨recvInfo, p, hf, hsize, hbetween, hheader, ?_, ?_, fun hmore => ?_,
          fun hlast => ?_⟩
        · rw [hparser, hr]
          exact htables.1
        · rw [hparser, hr]
          exact htables.2.1
        · rw [decide_eq_false hmore] at hr
          rw [hparser, hr]
          simp [hr, RtmpPayloadParser.finishChunk] at hresult
          simp [RtmpPayloadParser.finishChunk, RtmpPayloadParser.setInfo, hkeep, hresult,
            hcontrol]
        · rw [decide_eq_true hlast] at hr
          have hends := @RtmpPayloadParser.finishChunk_last p uninit chunk.chunkStreamId
            { recvInfo with recvBuf := recvInfo.recvBuf ++ chunk.payload }
          rw [hr] at hresult
          rcases hends with ⟨hcomplete, hentries⟩ | hfail | ⟨fault, hfault⟩
          · rcases hresult with ⟨hwaiting, -⟩ | ⟨-, msg, hmsg, hout⟩
            · simp [hcomplete] at hwaiting
            obtain ⟨q, q', ⟨infos, hq⟩, hmessage, hfinish⟩ :=
              RtmpPayloadParser.finishChunk_complete hcomplete
            rw [hfinish] at hmsg
            refine ⟨?_, q, q', msg, by rw [hq, hcontrol], hmessage, hmsg, hout, ?_⟩
            · rw [hparser, hr, ← hkeep]
              exact hentries
            · rw [hparser, hr, hfinish]
              rfl
          · simp [hfail] at hresult
          · simp [hfault] at hresult
      · rw [RtmpPayloadParser.parsePayload_of_short hf (Nat.lt_of_not_le hle)] at hr
        simp [hr] at hresult

/-- The payload round of an accepted chunk is the same whatever follows. -/
theorem accept_round (h : c.accept uninit chunk = some (c', out)) {rest : List UInt8}
    (hrest : chunk.payload ++ rest ≠ []) :
    (c.afterHeader chunk).payloadRound uninit (chunk.payload ++ rest)
        (chunk.payload ++ rest).length = { c.acceptRound uninit chunk with stream := rest } := by
  obtain ⟨recvInfo, p, heffect⟩ := accept_effect h
  obtain ⟨-, hreturns, -⟩ := accept_eq_some h
  have hcall := RtmpPayloadParser.parsePayload_followed uninit heffect.found heffect.size
  change ∀ rest, (c.afterHeader chunk).payloadParser.parsePayload uninit
    (c.afterHeader chunk).parsedHeader _ _ = _ at hcall
  have hlen : (chunk.payload ++ rest).length ≠ 0 := by simpa using hrest
  have hlen' : (chunk.payload ++ [0]).length ≠ 0 := by simp
  unfold acceptRound payloadRound at hreturns ⊢
  rw [if_neg hlen', hcall] at hreturns
  rw [if_neg hlen, if_neg hlen', hcall, hcall]
  dsimp only at hreturns ⊢
  split at hreturns
  · split at hreturns
    · rfl
    · cases hreturns
  · rfl
  all_goals cases hreturns

/-- An accepted chunk leads to the next chunk boundary. -/
theorem accept_reaches (hc : c.Between) (hchunk : chunk.Valid)
    (h : c.accept uninit chunk = some (c', out)) {rest : List UInt8}
    (hrest : chunk.payload ++ rest ≠ []) :
    Reaches uninit c (chunk.encode ++ rest) out c' rest := by
  have hround := accept_round h hrest
  obtain ⟨-, hreturns, rfl, rfl⟩ := accept_eq_some h
  exact reaches_round hc hchunk hround hreturns

/-- The chunks of a list one after the other. -/
def acceptAll (uninit : Uninit) (c : ParserCore) :
    List Chunk → Option (ParserCore × List RtmpMessage)
  | [] => some (c, [])
  | chunk :: chunks => do
      let (c, out) ← c.accept uninit chunk
      let (c, outs) ← c.acceptAll uninit chunks
      return (c, out ++ outs)

/-- Whole chunks in one buffer. The last of them has a payload, or a byte behind it. -/
theorem acceptAll_reaches {chunks : List Chunk} (hc : c.Between)
    (hchunks : ∀ chunk ∈ chunks, chunk.Valid)
    (h : c.acceptAll uninit chunks = some (c', out)) (rest : List UInt8)
    (hrest : ∀ last ∈ chunks.getLast?, last.payload ++ rest ≠ []) :
    Reaches uninit c (chunks.flatMap Chunk.encode ++ rest) out c' rest ∧ c'.Between := by
  induction chunks generalizing c out with
  | nil =>
      cases h
      exact ⟨.rounds (.here _ _), hc⟩
  | cons chunk chunks ih =>
      simp only [acceptAll, Option.bind_eq_bind, Option.bind_eq_some_iff, Option.pure_def,
        Option.some.injEq, Prod.mk.injEq] at h
      obtain ⟨⟨c₁, first⟩, hfirst, ⟨c₂, others⟩, hothers, rfl, rfl⟩ := h
      obtain ⟨recvInfo, p, heffect⟩ := accept_effect hfirst
      have hbehind : chunk.payload ++ (chunks.flatMap Chunk.encode ++ rest) ≠ [] := by
        cases chunks with
        | nil => exact hrest chunk rfl
        | cons next chunks =>
            have hpos := length_encodeHeader_pos next
            intro hnil
            have hlen := congrArg List.length hnil
            simp only [List.flatMap_cons, Chunk.encode, List.length_append,
              List.length_nil] at hlen
            omega
      have hlast : ∀ last ∈ chunks.getLast?, last.payload ++ rest ≠ [] := by
        intro last hmem
        cases chunks with
        | nil => cases hmem
        | cons next chunks => exact hrest last (by rwa [List.getLast?_cons_cons])
      obtain ⟨hreaches, hbetween⟩ := ih heffect.between
        (fun chunk hmem => hchunks chunk (List.mem_cons_of_mem _ hmem)) hothers hlast
      rw [List.flatMap_cons, List.append_assoc]
      exact ⟨(accept_reaches hc (hchunks chunk List.mem_cons_self) hfirst hbehind).trans hreaches,
        hbetween⟩

end ParserCore

end Rtmp
