import RtmpModule.Protocol.ControlMessages
import RtmpModule.Protocol.Rollover
import RtmpModule.Sna.Unrolling

/-!
# A peer on the wire

The peer of a connection cuts its messages into chunks of the size it has announced, of
any of the four header formats, and interleaves those of different chunk streams.
`Wire` is where it stands: its reckoning of time and framing, what it has sent of each
message in flight, and its chunk size. The parser follows it chunk by chunk, and
delivers a message with the chunk that finishes it.
-/

namespace Rtmp

open AMF0Serializer Sna

/-- A message a peer sends: its type, its bytes, what the parser makes of them under the
header of the first chunk, whatever it has parsed before, and the chunk size it announces. -/
structure WireMessage where
  msgTypeId : MsgTypeId
  payload : List UInt8
  message : RtmpHeader → RtmpMessage
  announced : Option UInt32
  accepted : ∀ (p : RtmpPayloadParser) (uninit : Uninit) (header : RtmpHeader),
    header.msgTypeId = msgTypeId → ∃ p' : RtmpPayloadParser,
      p.parseMessage uninit header payload = (.ok .complete, p') ∧
        p'.parsedMsg = some (message header)
  announces : ∀ (header : RtmpHeader) (size : UInt32), header.msgTypeId = msgTypeId →
    (message header).body.recvChunkSize size = announced.getD size

/-- A chunk, the time of its message and, for the chunk that finishes it, the message. -/
structure WireStep where
  chunk : Chunk
  time : Nat
  message : WireMessage

/-- A peer between two chunks. -/
structure Wire where
  clock : Clock := {}
  payloads : UInt32 → List UInt8 := fun _ => []
  chunkSize : UInt32 := 128

namespace Wire

/-- Where the messages of the chunk stream of a chunk stand. -/
def framing (w : Wire) (chunk : Chunk) : Framing :=
  (w.clock.streams chunk.chunkStreamId).framing

/-- After the handshake the time the peer sent is the last the parser knows. -/
def afterHandshake (epoch : UInt32) : Wire :=
  { clock := { previous := some epoch.toNat } }

/-- A chunk a peer may send. What starts a message goes by the clock, with a delta the
parser can add; the payload is cut at the chunk size and at the end of the message; and
the chunks of a message make up its payload. -/
structure Sends (w : Wire) (s : WireStep) : Prop where
  valid : s.chunk.Valid
  timed : w.clock.Starts s.chunk →
    w.clock.WellTimed s.chunk s.time ∧ w.clock.Steady s.chunk s.time
  addable : w.clock.Starts s.chunk → s.chunk.header.formatType ≠ .full →
    (w.clock.deltaAfter s.chunk).toNat ≤ 2147483647
  cut : s.chunk.payload.length = min w.chunkSize.toNat ((w.framing s.chunk).lacks s.chunk.header)
  typed : (w.framing s.chunk).Finishes s.chunk →
    ((w.framing s.chunk).messageOf s.chunk.header).msgTypeId = s.message.msgTypeId
  whole : (w.framing s.chunk).Finishes s.chunk →
    w.payloads s.chunk.chunkStreamId ++ s.chunk.payload = s.message.payload

instance (w : Wire) (s : WireStep) : Decidable (w.Sends s) :=
  decidable_of_iff (s.chunk.Valid ∧
      (w.clock.Starts s.chunk →
        w.clock.WellTimed s.chunk s.time ∧ w.clock.Steady s.chunk s.time) ∧
      (w.clock.Starts s.chunk → s.chunk.header.formatType ≠ .full →
        (w.clock.deltaAfter s.chunk).toNat ≤ 2147483647) ∧
      s.chunk.payload.length =
        min w.chunkSize.toNat ((w.framing s.chunk).lacks s.chunk.header) ∧
      ((w.framing s.chunk).Finishes s.chunk →
        ((w.framing s.chunk).messageOf s.chunk.header).msgTypeId = s.message.msgTypeId) ∧
      ((w.framing s.chunk).Finishes s.chunk →
        w.payloads s.chunk.chunkStreamId ++ s.chunk.payload = s.message.payload))
    ⟨fun ⟨h1, h2, h3, h4, h5, h6⟩ => ⟨h1, h2, h3, h4, h5, h6⟩,
      fun ⟨h1, h2, h3, h4, h5, h6⟩ => ⟨h1, h2, h3, h4, h5, h6⟩⟩

/-- The peer after a chunk. -/
def step (w : Wire) (s : WireStep) : Wire :=
  { clock := w.clock.step s.chunk s.time
    payloads := Function.update w.payloads s.chunk.chunkStreamId
      (if (w.framing s.chunk).Finishes s.chunk then []
      else w.payloads s.chunk.chunkStreamId ++ s.chunk.payload)
    chunkSize :=
      if (w.framing s.chunk).Finishes s.chunk then s.message.announced.getD w.chunkSize
      else w.chunkSize }

/-- What a chunk delivers, with the time its message was started at. -/
def delivered (w : Wire) (s : WireStep) : List (Nat × WireMessage) :=
  if (w.framing s.chunk).Finishes s.chunk then
    [(((w.step s).clock.streams s.chunk.chunkStreamId).time.getD 0, s.message)]
  else []

/-- A run of chunks a peer may send. -/
def Runs : Wire → List WireStep → Prop
  | _, [] => True
  | w, s :: run => w.Sends s ∧ Runs (w.step s) run

instance instDecidableRuns : (w : Wire) → (run : List WireStep) → Decidable (w.Runs run)
  | _, [] => inferInstanceAs (Decidable True)
  | w, s :: run =>
      have := instDecidableRuns (w.step s) run
      inferInstanceAs (Decidable (w.Sends s ∧ Runs (w.step s) run))

/-- What a run delivers. -/
def deliveries : Wire → List WireStep → List (Nat × WireMessage)
  | _, [] => []
  | w, s :: run => w.delivered s ++ deliveries (w.step s) run

/-- The header of the first chunk of a message, as it is delivered: the short time are the last
32 bits of the long one. -/
structure Heads (header : RtmpHeader) (m : WireMessage) : Prop where
  msgTypeId : header.msgTypeId = m.msgTypeId
  msgLength : header.msgLength.toNat = m.payload.length
  timestamp : header.timestamp.toNat = header.absTimestamp.toNat % 2 ^ 32

/-- A message is what was sent, under a header of its own, with its true time. -/
def DeliveredAs (d : Nat × WireMessage) (msg : RtmpMessage) : Prop :=
  ∃ header, Heads header d.2 ∧ msg = d.2.message header ∧ msg.header.absTimestamp.toNat = d.1

end Wire

/-- An entry of a message in flight: it lacks bytes, and the times of its header agree. -/
structure ReceivedPayloadInfo.InFlight (info : ReceivedPayloadInfo) : Prop where
  lacks : info.recvBuf.length < info.firstChunkHeader.msgLength.toNat
  timestamp : info.firstChunkHeader.timestamp.toNat =
    info.firstChunkHeader.absTimestamp.toNat % 2 ^ 32

namespace RtmpPayloadParser

variable {header : RtmpHeader} {channel : ChannelInfo} {context : RolloverContext}
  {started : Started}

theorem startDelta_timestamp {delta : UInt32}
    (h : startDelta delta header channel context = .ok started) :
    started.header.timestamp.toNat = started.header.absTimestamp.toNat % 2 ^ 32 := by
  by_cases hle : delta.toNat ≤ 2147483647
  · rw [startDelta_of_le hle] at h
    cases h
    simp only [deltaNumber, toNat_unroll _ _ (le_refl 32), UInt32.toNat_add]
    omega
  · rw [startDelta_of_lt (Nat.lt_of_not_le hle)] at h
    cases h

/-- However a message starts, its short time are the last 32 bits of its long one. -/
theorem startTimestamp_timestamp (hformat : header.formatType ≠ .unknown)
    (h : startTimestamp header channel context = .ok started) :
    started.header.timestamp.toNat = started.header.absTimestamp.toNat % 2 ^ 32 := by
  rw [startTimestamp] at h
  cases hheader : header.formatType with
  | full =>
      rw [hheader] at h
      cases h
      have hlt := header.timestamp.toNat_lt
      simp only [startFull, unrollAfter_eq, toNat_unroll _ _ (le_refl 32)]
      omega
  | unknown => exact absurd hheader hformat
  | _ =>
      rw [hheader] at h
      exact startDelta_timestamp h

end RtmpPayloadParser

namespace ParserCore

variable {uninit : Uninit} {c : ParserCore} {chunk : Chunk} {recvInfo : ReceivedPayloadInfo}
  {p : RtmpPayloadParser} {msg : RtmpMessage}

/-- A chunk of the expected size, after which its message goes on. -/
theorem accept_more (uninit : Uninit)
    (hfound : c.payloadParser.findOrStart (chunk.applyTo c.parsedHeader) = (.ok recvInfo, p))
    (hsize : (p.thisMsgSize recvInfo).toNat = chunk.payload.length)
    (hmore : p.thisMsgSize recvInfo ≠ RtmpPayloadParser.needSize recvInfo) :
    c.accept uninit chunk = some (c.afterChunk chunk (p.setInfo chunk.chunkStreamId
      (some { recvInfo with recvBuf := recvInfo.recvBuf ++ chunk.payload })), []) := by
  have hcall := RtmpPayloadParser.parsePayload_followed uninit hfound hsize [0]
  rw [decide_eq_false hmore, Chunk.chunkStreamId_applyTo] at hcall
  have hround : c.acceptRound uninit chunk =
      { core := c.afterChunk chunk (p.setInfo chunk.chunkStreamId
          (some { recvInfo with recvBuf := recvInfo.recvBuf ++ chunk.payload }))
        stream := [0]
        readedSize := chunk.payload.length } := by
    rw [acceptRound, payloadRound, if_neg (by simp)]
    simp only [afterHeader, parsedHeader] at hcall ⊢
    rw [hcall]
    rfl
  simp [accept, hround, afterChunk]

/-- The chunk of the expected size that finishes a message the parser accepts. -/
theorem accept_last (uninit : Uninit)
    (hfound : c.payloadParser.findOrStart (chunk.applyTo c.parsedHeader) = (.ok recvInfo, p))
    (hsize : (p.thisMsgSize recvInfo).toNat = chunk.payload.length)
    (hlast : p.thisMsgSize recvInfo = RtmpPayloadParser.needSize recvInfo)
    (hparse : ∀ q : RtmpPayloadParser, ∃ q' : RtmpPayloadParser,
      q.parseMessage uninit recvInfo.firstChunkHeader (recvInfo.recvBuf ++ chunk.payload) =
        (.ok .complete, q') ∧ q'.parsedMsg = some msg) :
    ∃ q' : RtmpPayloadParser, q'.parsedMsg = some msg ∧
      q'.recvChunkSize = p.recvChunkSize ∧
      c.accept uninit chunk =
        some (({ c.afterChunk chunk q' with parsedMsg := some msg }.applyMessage msg.body).1,
          [msg]) := by
  have hcall := RtmpPayloadParser.parsePayload_followed uninit hfound hsize [0]
  rw [decide_eq_true hlast, Chunk.chunkStreamId_applyTo] at hcall
  have hsame := (p.finishChunk_tables uninit chunk.chunkStreamId
    { recvInfo with recvBuf := recvInfo.recvBuf ++ chunk.payload } true).2.2
  obtain ⟨hcomplete, hmsg⟩ : (p.finishChunk uninit chunk.chunkStreamId
        { recvInfo with recvBuf := recvInfo.recvBuf ++ chunk.payload } true).1 = .ok .complete ∧
      (p.finishChunk uninit chunk.chunkStreamId
        { recvInfo with recvBuf := recvInfo.recvBuf ++ chunk.payload } true).2.parsedMsg =
          some msg := by
    simp only [RtmpPayloadParser.finishChunk, ↓reduceIte]
    generalize (if (p.incompleteInfos chunk.chunkStreamId).isSome then
      p.setInfo chunk.chunkStreamId _ else p) = q
    obtain ⟨q', hq', hmsg⟩ := hparse q
    rw [hq']
    exact ⟨rfl, hmsg⟩
  generalize p.finishChunk uninit chunk.chunkStreamId
    { recvInfo with recvBuf := recvInfo.recvBuf ++ chunk.payload } true = r at *
  obtain ⟨result, q'⟩ := r
  obtain rfl : result = .ok .complete := hcomplete
  change q'.parsedMsg = some msg at hmsg
  refine ⟨q', hmsg, hsame, ?_⟩
  have hround : (c.acceptRound uninit chunk).returns = none ∧
      (c.acceptRound uninit chunk).readedSize = chunk.payload.length ∧
      (c.acceptRound uninit chunk).core = ({ c.afterChunk chunk q' with
        parsingState := .complete, parsedMsg := some msg }.applyMessage msg.body).1 := by
    rw [acceptRound, payloadRound, if_neg (by simp)]
    simp only [afterHeader, parsedHeader] at hcall ⊢
    rw [hcall]
    simp only [hmsg]
    exact ⟨trivial, trivial, rfl⟩
  obtain ⟨hreturns, hread, hcore⟩ := hround
  simp only [accept, hreturns, hread, hcore, and_self, ↓reduceIte]
  rw [applyMessage_eq, applyMessage_eq]
  rfl

end ParserCore

namespace Wire

/-- The parser against the peer: the two agree about time, framing and chunk size, and
the entries hold what has been sent of the messages in flight. -/
structure Follows (w : Wire) (c : ParserCore) : Prop where
  clock : w.clock.Keeps c
  between : c.Between
  chunkSize : c.payloadParser.recvChunkSize = w.chunkSize
  payload : ∀ id, ((c.payloadParser.incompleteInfos id).map (·.recvBuf)).getD [] = w.payloads id
  inFlight : ∀ id info, c.payloadParser.incompleteInfos id = some info → info.InFlight

variable {uninit : Uninit} {w : Wire} {c c' : ParserCore} {s : WireStep}
  {recvInfo : ReceivedPayloadInfo} {p : RtmpPayloadParser} {out : List RtmpMessage}

theorem Follows.afterHandshake (epoch : UInt32) :
    (Wire.afterHandshake epoch).Follows (Connection.afterHandshake epoch).parser.toParserCore where
  clock :=
    { framed := fun _ => ⟨rfl, rfl, fun _ => rfl, fun _ h => nomatch h⟩
      lastDelta := rfl
      previous := (Nat.mod_eq_of_lt epoch.toNat_lt).symm
      count := by
        change 0 = UInt32.ofNat (epoch.toNat / 2 ^ 32)
        rw [Nat.div_eq_of_lt epoch.toNat_lt]
        rfl
      time := fun _ _ h => nomatch h
      delta := fun _ => rfl
      known := fun _ h => nomatch h
      entries := fun _ _ h => nomatch h
      untimed := fun _ h => nomatch h }
  between := ⟨rfl, rfl⟩
  chunkSize := rfl
  payload _ := rfl
  inFlight _ _ h := nomatch h

theorem step_of_finishes (h : (w.framing s.chunk).Finishes s.chunk) :
    (w.step s).payloads = Function.update w.payloads s.chunk.chunkStreamId [] ∧
      (w.step s).chunkSize = s.message.announced.getD w.chunkSize := by
  simp [step, h]

theorem step_of_goes_on (h : ¬ (w.framing s.chunk).Finishes s.chunk) :
    (w.step s).payloads = Function.update w.payloads s.chunk.chunkStreamId
        (w.payloads s.chunk.chunkStreamId ++ s.chunk.payload) ∧
      (w.step s).chunkSize = w.chunkSize := by
  simp [step, h]

/-- Of the entries a chunk writes that of its own chunk stream. -/
theorem Follows.payload_update (hw : w.Follows c) {id : UInt32}
    {info : Option ReceivedPayloadInfo} {payload : List UInt8}
    (hinfos : c'.payloadParser.incompleteInfos =
      Function.update c.payloadParser.incompleteInfos id info)
    (hpayload : (info.map (·.recvBuf)).getD [] = payload) (other : UInt32) :
    ((c'.payloadParser.incompleteInfos other).map (·.recvBuf)).getD [] =
      Function.update w.payloads id payload other := by
  rw [hinfos]
  by_cases hid : other = id
  · rw [hid, Function.update_self, Function.update_self, hpayload]
  · rw [Function.update_of_ne hid, Function.update_of_ne hid, hw.payload]

/-- The entries of messages in flight, when a chunk writes one of them. -/
theorem Follows.inFlight_update (hw : w.Follows c) {id : UInt32}
    {info : Option ReceivedPayloadInfo}
    (hinfos : c'.payloadParser.incompleteInfos =
      Function.update c.payloadParser.incompleteInfos id info)
    (hinfo : ∀ entry ∈ info, entry.InFlight) (other : UInt32) (entry : ReceivedPayloadInfo)
    (h : c'.payloadParser.incompleteInfos other = some entry) : entry.InFlight := by
  rw [hinfos] at h
  by_cases hid : other = id
  · rw [hid, Function.update_self] at h
    exact hinfo entry h
  · rw [Function.update_of_ne hid] at h
    exact hw.inFlight other entry h

section Step

variable (hw : w.Follows c) (hs : w.Sends s)

include hw hs

/-- The delta of a message that starts is one the parser can add. -/
theorem Follows.messageDelta_le
    (hidle : c.payloadParser.incompleteInfos s.chunk.chunkStreamId = none) :
    (RtmpPayloadParser.messageDelta (s.chunk.applyTo c.parsedHeader)
      (c.payloadParser.channels s.chunk.chunkStreamId)).toNat ≤ 2147483647 := by
  have hstarts : w.clock.Starts s.chunk := (hw.clock.framed _).idle hidle
  have hdelta := hs.addable hstarts
  rw [RtmpPayloadParser.messageDelta, Chunk.applyTo, hw.clock.delta]
  rw [Clock.deltaAfter] at hdelta
  cases hheader : s.chunk.header with
  | full _ _ _ _ => exact Nat.zero_le _
  | sameStream _ _ _ | sameLengthAndStream _ | continuation =>
      rw [hheader] at hdelta
      exact hdelta (by simp [MessageHeader.formatType])

/-- The entry of every chunk is found or made. -/
theorem Follows.found : ∃ recvInfo p,
    c.payloadParser.findOrStart (s.chunk.applyTo c.parsedHeader) = (.ok recvInfo, p) := by
  rcases hfound : c.payloadParser.findOrStart (s.chunk.applyTo c.parsedHeader) with ⟨result, p⟩
  cases result with
  | ok recvInfo => exact ⟨recvInfo, p, rfl⟩
  | error fault =>
      have herror := RtmpPayloadParser.findOrStart_error_iff.mp ⟨fault, by rw [hfound]⟩
      rw [Chunk.chunkStreamId_applyTo] at herror
      exact absurd (hw.messageDelta_le hs herror.1) (Nat.not_le_of_lt herror.2)

variable (hfound : c.payloadParser.findOrStart (s.chunk.applyTo c.parsedHeader) =
  (.ok recvInfo, p))

include hfound

omit hs in
/-- What is needed of a message is what its entry lacks, and the times of its header agree. -/
theorem Follows.entry_header :
    p.Inside recvInfo ∧ recvInfo.firstChunkHeader.timestamp.toNat =
      recvInfo.firstChunkHeader.absTimestamp.toNat % 2 ^ 32 := by
  have hbounded : c.payloadParser.Bounded := fun id info hinfo => (hw.inFlight id info hinfo).lacks
  refine ⟨hbounded.inside hfound, ?_⟩
  rcases ParserCore.found_cases hfound with ⟨hbusy, -⟩ | ⟨-, started, hstarted, rfl, -⟩
  · exact (hw.inFlight _ _ hbusy).timestamp
  · refine RtmpPayloadParser.startTimestamp_timestamp ?_ hstarted
    rw [(RtmpPayloadParser.resolveLength_times _ _).1, Chunk.applyTo]
    cases s.chunk.header <;> simp [MessageHeader.applyTo, MessageHeader.formatType]

/-- It holds what has been sent, and the parser cuts where the peer does. -/
theorem Follows.entry :
    recvInfo.recvBuf = w.payloads s.chunk.chunkStreamId ∧
      p.recvChunkSize = w.chunkSize ∧
      (p.thisMsgSize recvInfo).toNat = s.chunk.payload.length ∧
      ((w.framing s.chunk).Finishes s.chunk ↔
        p.thisMsgSize recvInfo = RtmpPayloadParser.needSize recvInfo) := by
  have hbuf : recvInfo.recvBuf = w.payloads s.chunk.chunkStreamId := by
    rw [← hw.payload]
    rcases ParserCore.found_cases hfound with ⟨hbusy, -⟩ | ⟨hidle, started, -, rfl, -⟩
    · rw [hbusy]
      rfl
    · rw [hidle]
      rfl
  have hsize : p.recvChunkSize = w.chunkSize := by
    rw [(RtmpPayloadParser.findOrStart_frame hfound).1]
    exact hw.chunkSize
  obtain ⟨-, -, -, hlacks⟩ := (hw.clock.framed _).found hfound
  have hcut := hs.cut
  have hmin := p.toNat_thisMsgSize recvInfo
  rw [framing, hlacks] at hcut
  rw [hsize] at hmin
  refine ⟨hbuf, hsize, by omega, ?_⟩
  rw [Framing.Finishes, framing, hlacks, ← UInt32.toNat_inj]
  omega

/-- The chunk that finishes a message delivers it. -/
theorem Follows.finishes (hlast : (w.framing s.chunk).Finishes s.chunk) :
    ∃ c', c.accept uninit s.chunk =
        some (c', [s.message.message recvInfo.firstChunkHeader]) ∧
      Heads recvInfo.firstChunkHeader s.message ∧
      c'.payloadParser.recvChunkSize = s.message.announced.getD w.chunkSize := by
  obtain ⟨hbuf, hsize, hthis, hfinishes⟩ := hw.entry hs hfound
  obtain ⟨-, -, htype, -⟩ := (hw.clock.framed _).found hfound
  have htyped : recvInfo.firstChunkHeader.msgTypeId = s.message.msgTypeId :=
    htype.trans (hs.typed hlast)
  obtain ⟨q, hmsg, hkept, haccept⟩ := ParserCore.accept_last uninit hfound hthis
    (hfinishes.mp hlast) fun q => by
      rw [hbuf, hs.whole hlast]
      exact s.message.accepted q uninit recvInfo.firstChunkHeader htyped
  obtain ⟨hinside, htimestamp⟩ := hw.entry_header hfound
  have hlength : recvInfo.firstChunkHeader.msgLength.toNat = s.message.payload.length := by
    have hreceived := hinside.received
    have hneed := hinside.need
    rw [hfinishes.mp hlast] at hthis
    rw [← hs.whole hlast, ← hbuf, List.length_append]
    omega
  refine ⟨_, haccept, ⟨htyped, hlength, htimestamp⟩, ?_⟩
  rw [← s.message.announces recvInfo.firstChunkHeader _ htyped, ← hsize, ← hkept,
    ParserCore.applyMessage_eq]
  rfl

omit hfound in
/-- The parser accepts every chunk the peer may send, follows it, and delivers what the
chunk finishes. -/
theorem Follows.step (uninit : Uninit) :
    ∃ c' out, c.accept uninit s.chunk = some (c', out) ∧ (w.step s).Follows c' ∧
      List.Forall₂ DeliveredAs (w.delivered s) out := by
  obtain ⟨recvInfo, p, hfound⟩ := hw.found hs
  obtain ⟨hbuf, hsize, hthis, hfinishes⟩ := hw.entry hs hfound
  by_cases hlast : (w.framing s.chunk).Finishes s.chunk
  · obtain ⟨c', haccept, hheads, hchunkSize⟩ :=
      @Follows.finishes uninit _ _ _ _ _ hw hs hfound hlast
    obtain ⟨hclock, hout⟩ := hw.clock.step hs.valid hs.timed haccept
    obtain ⟨recvInfo', p', heffect⟩ := ParserCore.accept_effect haccept
    obtain ⟨rfl, rfl⟩ : recvInfo = recvInfo' ∧ p = p' := by
      simpa using hfound.symm.trans heffect.found
    obtain ⟨hinfos, -⟩ := heffect.last (hfinishes.mp hlast)
    obtain ⟨hpayloads, hnext⟩ := step_of_finishes hlast
    refine ⟨c', _, haccept, ⟨hclock, heffect.between, ?_, ?_, ?_⟩, ?_⟩
    · rw [hnext, hchunkSize]
    · rw [hpayloads]
      exact hw.payload_update hinfos rfl
    · exact hw.inFlight_update hinfos nofun
    · obtain ⟨time, htime, habs⟩ := hout _ (List.mem_singleton_self _)
      rw [delivered, if_pos hlast]
      refine .cons ⟨recvInfo.firstChunkHeader, hheads, rfl, ?_⟩ .nil
      rw [habs]
      change time = ((w.clock.step s.chunk s.time).streams s.chunk.chunkStreamId).time.getD 0
      rw [htime]
      rfl
  · have haccept := ParserCore.accept_more uninit hfound hthis (mt hfinishes.mpr hlast)
    obtain ⟨hclock, -⟩ := hw.clock.step hs.valid hs.timed haccept
    obtain ⟨recvInfo', p', heffect⟩ := ParserCore.accept_effect haccept
    obtain ⟨rfl, rfl⟩ : recvInfo = recvInfo' ∧ p = p' := by
      simpa using hfound.symm.trans heffect.found
    obtain ⟨-, -, hinfos⟩ := heffect.more (mt hfinishes.mpr hlast)
    obtain ⟨hpayloads, hnext⟩ := step_of_goes_on hlast
    refine ⟨_, _, haccept, ⟨hclock, heffect.between, ?_, ?_, ?_⟩, ?_⟩
    · rw [hnext]
      exact hsize
    · rw [hpayloads, ← hbuf]
      exact hw.payload_update hinfos rfl
    · refine hw.inFlight_update hinfos fun entry hentry => ?_
      obtain rfl := Option.mem_some.mp hentry
      obtain ⟨hinside, htimestamp⟩ := hw.entry_header hfound
      refine ⟨?_, htimestamp⟩
      have hneed := hinside.need
      have hwrite := hinside.write
      have hne : (p.thisMsgSize recvInfo).toNat ≠ (RtmpPayloadParser.needSize recvInfo).toNat :=
        fun heq => hlast (hfinishes.mpr (UInt32.toNat_inj.mp heq))
      dsimp only
      rw [List.length_append]
      omega
    · rw [delivered, if_neg hlast]
      exact .nil

end Step

/-- So it does with every run of chunks. -/
theorem Follows.run (uninit : Uninit) (hw : w.Follows c) {run : List WireStep}
    (hrun : w.Runs run) :
    ∃ c' out, c.acceptAll uninit (run.map (·.chunk)) = some (c', out) ∧
      List.Forall₂ DeliveredAs (w.deliveries run) out := by
  induction run generalizing w c with
  | nil => exact ⟨c, [], rfl, .nil⟩
  | cons s run ih =>
      obtain ⟨hs, hrest⟩ := hrun
      obtain ⟨c₁, first, haccept, hfollows, hfirst⟩ := hw.step hs uninit
      obtain ⟨c', others, hall, hothers⟩ := ih hfollows hrest
      refine ⟨c', first ++ others, ?_, List.rel_append hfirst hothers⟩
      rw [List.map_cons, ParserCore.acceptAll, haccept]
      simp only [Option.bind_eq_bind, Option.bind_some, hall]
      rfl

theorem Runs.valid {run : List WireStep} (hrun : w.Runs run) :
    ∀ chunk ∈ run.map (·.chunk), chunk.Valid := by
  induction run generalizing w with
  | nil => simp
  | cons s run ih =>
      rw [List.map_cons, List.forall_mem_cons]
      exact ⟨hrun.1.valid, ih hrun.2⟩

/-- The bytes of a run. -/
def bytes (run : List WireStep) : List UInt8 := (run.map (·.chunk)).flatMap Chunk.encode

/-- The last chunk has a payload: one without is read with the byte behind it. -/
def EndsInPayload (run : List WireStep) : Prop :=
  ∀ last ∈ (run.map (·.chunk)).getLast?, last.payload ≠ []

instance (run : List WireStep) : Decidable (EndsInPayload run) :=
  inferInstanceAs (Decidable (∀ last ∈ (run.map (·.chunk)).getLast?, last.payload ≠ []))

/-- The loop of `handle_read` gets through the bytes of a run. -/
theorem Follows.reaches (uninit : Uninit) (hw : w.Follows c) {run : List WireStep}
    (hrun : w.Runs run) (hlast : EndsInPayload run) :
    ∃ c' out, ParserCore.Reaches uninit c (bytes run) out c' [] ∧ c'.Between ∧
      List.Forall₂ DeliveredAs (w.deliveries run) out := by
  obtain ⟨c', out, hall, hout⟩ := hw.run uninit hrun
  obtain ⟨hreaches, hbetween⟩ := ParserCore.acceptAll_reaches hw.between hrun.valid hall []
    fun last hmem => by
      rw [List.append_nil]
      exact hlast last hmem
  rw [List.append_nil] at hreaches
  exact ⟨c', out, hreaches, hbetween, hout⟩

end Wire

/-- A buffer that is read to its end is handled the same when it comes in reads that never
replay the start of a message. -/
theorem Connection.handled_of_reaches {uninit : Uninit} {epoch : UInt32}
    {reads : List (List UInt8)} {out : List RtmpMessage} {core : ParserCore}
    (hreads : ∀ bytes ∈ reads, bytes ≠ [])
    (hreplay : (Connection.afterHandshake epoch).NeverReplays uninit reads)
    (h : ParserCore.Reaches uninit (Connection.afterHandshake epoch).parser.toParserCore
      reads.flatten out core []) (hcore : core.Between) :
    let c := (Connection.afterHandshake epoch).run uninit reads
    c.status = .reading ∧ c.handled = out ∧ c.requestStreambuf = [] := by
  have hrest : (Connection.afterHandshake epoch).parser.Resting := by
    simp [ParserCore.Resting, Connection.afterHandshake, Connection.setBaseTimestamp,
      RtmpHeaderParser.ParsingState.size]
  have hmirrors := run_mirrors uninit epoch reads hreads hreplay
  obtain ⟨hdrain, hrest'⟩ := h.drain hrest
  obtain ⟨hnil, -⟩ := drain_nil uninit hrest' (by simp [hcore.state])
  rw [drainedBytes, hdrain, hnil] at hmirrors
  have hreading := hmirrors.status
  exact ⟨hreading, by simpa [Resumable.Machine.emit] using hmirrors.handled,
    hmirrors.unread hreading⟩

end Rtmp
