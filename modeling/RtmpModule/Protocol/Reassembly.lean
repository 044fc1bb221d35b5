import RtmpModule.Protocol.RecvBuffer
import RtmpModule.Protocol.Sender

/-!
# Reassembly of interleaved messages

The parser follows a sender step by step: its entries are the messages in flight,
with the bytes sent so far, and it delivers a message with the chunk that finishes it.
-/

namespace Rtmp

open AMF0Serializer

section Message

variable {c : ParserCore} {m : Outgoing} {header : RtmpHeader} {size : ChunkSize} {sent : Nat}
  {p : RtmpPayloadParser}

/-- The entry of a message of which `sent` bytes have been received. -/
def entry (m : Outgoing) (header : RtmpHeader) (sent : Nat) : ReceivedPayloadInfo :=
  { firstChunkHeader := header, recvBuf := m.content.body.take sent }

theorem toNat_needSize_entry (hm : m.Heads header) (hsent : sent ≤ m.content.body.length) :
    (RtmpPayloadParser.needSize (entry m header sent)).toNat = m.content.body.length - sent := by
  have hlen : (entry m header sent).recvBuf.length = sent := List.length_take_of_le hsent
  rw [RtmpPayloadParser.toNat_needSize (by rw [hlen]; exact hm.msgLength ▸ hsent), hlen]
  exact congrArg (· - sent) hm.msgLength

/-- The chunk has the payload the parser goes by, and the parser takes it for the last
exactly when it is. -/
theorem thisMsgSize_chunkAt (hm : m.Heads header) (hsent : sent < m.content.body.length)
    (hsize : p.recvChunkSize = size.1) (wide : Bool) (first : MessageHeader) :
    (m.chunkAt size sent wide first).payload ≠ [] ∧
      (p.thisMsgSize (entry m header sent)).toNat =
        (m.chunkAt size sent wide first).payload.length ∧
      (p.thisMsgSize (entry m header sent) =
          RtmpPayloadParser.needSize (entry m header sent) ↔
        m.content.body.length ≤ sent + size.1.toNat) := by
  have hpos := size.2
  have hlen : (m.chunkAt size sent wide first).payload.length =
      min size.1.toNat (m.content.body.length - sent) := by
    simp [Outgoing.chunkAt]
  have hneed := toNat_needSize_entry hm (Nat.le_of_lt hsent)
  have hthis := p.toNat_thisMsgSize (entry m header sent)
  rw [hsize, hneed] at hthis
  refine ⟨List.ne_nil_of_length_pos (by omega), hthis.trans hlen.symm, ?_⟩
  rw [← UInt32.toNat_inj, hthis, hneed]
  omega

/-- A chunk that leaves its message unfinished. -/
theorem receive_more (uninit : Uninit) (hm : m.Heads header)
    (hsize : c.payloadParser.recvChunkSize = size.1)
    (hmore : sent + size.1.toNat < m.content.body.length) (wide : Bool) (first : MessageHeader)
    (hfind : c.payloadParser.findOrStart ((m.chunkAt size sent wide first).applyTo
      c.parsedHeader) = (.ok (entry m header sent), p)) :
    ∃ c', c.receive uninit (m.chunkAt size sent wide first) = some (c', []) ∧
      c'.payloadParser.recvChunkSize = size.1 ∧
      c'.payloadParser.incompleteInfos = Function.update c.payloadParser.incompleteInfos
        m.chunkStreamId (some (entry m header (sent + size.1.toNat))) := by
  have hframe := (RtmpPayloadParser.findOrStart_frame hfind).1
  have hp : p.recvChunkSize = size.1 := by
    rw [hframe]
    exact hsize
  have hinfos : p.incompleteInfos = c.payloadParser.incompleteInfos := by rw [hframe]
  have hsent : sent < m.content.body.length := by omega
  obtain ⟨hne, hthis, hlast⟩ := thisMsgSize_chunkAt hm hsent hp wide first
  have hreceive := ParserCore.receive_partial uninit hne hfind hthis (by rw [Ne, hlast]; omega)
  refine ⟨_, hreceive, hp, ?_⟩
  simp [ParserCore.afterChunk, RtmpPayloadParser.setInfo, hinfos, Outgoing.chunkAt, entry,
    List.take_add]

/-- The chunk that finishes its message delivers it. -/
theorem receive_last (uninit : Uninit) (hm : m.Heads header)
    (hsize : c.payloadParser.recvChunkSize = size.1) (hsent : sent < m.content.body.length)
    (hdone : m.content.body.length ≤ sent + size.1.toNat) (wide : Bool) (first : MessageHeader)
    (hfind : c.payloadParser.findOrStart ((m.chunkAt size sent wide first).applyTo
      c.parsedHeader) = (.ok (entry m header sent), p)) :
    ∃ c' msg, c.receive uninit (m.chunkAt size sent wide first) = some (c', [msg]) ∧
      m.DeliveredAs msg ∧
      c'.payloadParser.recvChunkSize = (m.content.chunkSizeAfter size).1 ∧
      c'.payloadParser.incompleteInfos =
        Function.update c.payloadParser.incompleteInfos m.chunkStreamId none := by
  have hframe := (RtmpPayloadParser.findOrStart_frame hfind).1
  have hp : p.recvChunkSize = size.1 := by
    rw [hframe]
    exact hsize
  have hinfos : (p.setInfo m.chunkStreamId none).incompleteInfos =
      Function.update c.payloadParser.incompleteInfos m.chunkStreamId none := by
    rw [hframe]
    rfl
  obtain ⟨hne, hthis, hlast⟩ := thisMsgSize_chunkAt hm hsent hp wide first
  have hbody : m.content.body.take sent ++ (m.chunkAt size sent wide first).payload =
      m.content.body := by
    have hrest : (m.content.body.drop sent).length ≤ size.1.toNat := by
      rw [List.length_drop]
      omega
    rw [Outgoing.chunkAt, List.take_of_length_le hrest, List.take_append_drop]
  generalize hchunk : m.chunkAt size sent wide first = chunk at hfind hne hthis hlast hbody ⊢
  have hid : chunk.chunkStreamId = m.chunkStreamId := by
    rw [← hchunk]
    rfl
  have htype := hm.msgTypeId
  have hmedia : (header.isVideoMsg || header.isAudioMsg) = true →
      ∃ c', c.receive uninit chunk =
          some (c', [RtmpPayloadParser.mediaMessage header m.content.body]) ∧
        c'.payloadParser.recvChunkSize = size.1 ∧
        c'.payloadParser.incompleteInfos =
          Function.update c.payloadParser.incompleteInfos m.chunkStreamId none := by
    intro hkind
    have hreceive := ParserCore.receive_media uninit hne hfind hthis (hlast.mpr hdone) hkind
      (congrArg (RtmpPayloadParser.mediaMessage header) hbody.symm)
    rw [hid] at hreceive
    exact ⟨_, hreceive, hp, hinfos⟩
  cases hcontent : m.content with
  | audio body =>
      simp only [hcontent, Content.msgTypeId, Content.body] at htype hmedia
      obtain ⟨c', hreceive, hsize', hinfos'⟩ := hmedia (by simp [RtmpHeader.isAudioMsg, htype])
      refine ⟨c', _, hreceive, ?_, hsize', hinfos'⟩
      simp [Outgoing.DeliveredAs, RtmpPayloadParser.mediaMessage, htype, hcontent, hm]
  | video body =>
      simp only [hcontent, Content.msgTypeId, Content.body] at htype hmedia
      obtain ⟨c', hreceive, hsize', hinfos'⟩ := hmedia (by simp [RtmpHeader.isVideoMsg, htype])
      refine ⟨c', _, hreceive, ?_, hsize', hinfos'⟩
      simp [Outgoing.DeliveredAs, RtmpPayloadParser.mediaMessage, htype, hcontent, hm]
  | chunkSize new =>
      simp only [hcontent, Content.msgTypeId] at htype
      have hbytes : (entry m header sent).recvBuf ++ chunk.payload =
          Bytes.toBE 4 new.1.toNat := by
        simpa [entry, hcontent, Content.body] using hbody
      have hreceive := ParserCore.receive_chunkSize uninit hne hfind hthis (hlast.mpr hdone)
        htype hbytes
      rw [hid] at hreceive
      refine ⟨_, _, hreceive, ?_, rfl, hinfos⟩
      simp [Outgoing.DeliveredAs, hcontent]

theorem heads_firstHeader (m : Outgoing) (size : ChunkSize) (wide : Bool) (header : RtmpHeader)
    (absTimestamp : UInt64) :
    m.Heads { (m.chunkAt size 0 wide m.firstHeader).applyTo header with absTimestamp } where
  formatType := rfl
  chunkStreamId := rfl
  timestamp := rfl
  msgLength := by
    have hlt := m.body_lt
    exact Nat.mod_eq_of_lt (by omega)
  msgTypeId := rfl
  msgStreamId := rfl

/-- The first chunk of a message, where its chunk stream is idle. -/
theorem findOrStart_first (m : Outgoing) (size : ChunkSize) (wide : Bool)
    (hidle : c.payloadParser.incompleteInfos m.chunkStreamId = none) :
    ∃ header p, m.Heads header ∧ c.payloadParser.findOrStart
      ((m.chunkAt size 0 wide m.firstHeader).applyTo c.parsedHeader) =
        (.ok (entry m header 0), p) := by
  have hnone : c.payloadParser.incompleteInfos ((m.chunkAt size 0 wide
      m.firstHeader).applyTo c.parsedHeader).chunkStreamId = none := hidle
  obtain ⟨header, p, hfind, hheader⟩ := RtmpPayloadParser.findOrStart_full hnone rfl
  have hm := heads_firstHeader m size wide c.parsedHeader header.absTimestamp
  rw [← hheader] at hm
  exact ⟨header, p, hm, hfind⟩

/-- A later chunk of a message finds its entry. -/
theorem findOrStart_next (size : ChunkSize) (wide : Bool)
    (hbusy : c.payloadParser.incompleteInfos m.chunkStreamId = some (entry m header sent)) :
    c.payloadParser.findOrStart ((m.chunkAt size sent wide .continuation).applyTo
      c.parsedHeader) = (.ok (entry m header sent), c.payloadParser) := by
  have hcsId : ((m.chunkAt size sent wide .continuation).applyTo
      c.parsedHeader).chunkStreamId = m.chunkStreamId := rfl
  simp only [RtmpPayloadParser.findOrStart, hcsId, hbusy]

theorem valid_chunkAt (m : Outgoing) (size : ChunkSize) (sent : Nat) (wide : Bool)
    {first : MessageHeader} (hfirst : first.Valid) : (m.chunkAt size sent wide first).Valid where
  id_ge := m.id_ge
  id_le := m.id_le
  header := hfirst

theorem valid_firstHeader (m : Outgoing) : m.firstHeader.Valid := by
  have hlt := m.body_lt
  refine ⟨?_, ?_⟩
  · rw [UInt32.toNat_ofNat', Nat.mod_eq_of_lt (by omega)]
    exact hlt
  · cases m.content <;> simp [Content.msgTypeId]

end Message

/-- The parser at a chunk boundary against the sender: it goes by the same chunk size,
and has an entry for every message in flight with the bytes sent so far. -/
structure Follows (s : Sender) (c : ParserCore) : Prop where
  between : c.Between
  chunkSize : c.payloadParser.recvChunkSize = s.chunkSize.1
  idle : ∀ id, s.inFlight id = none → c.payloadParser.incompleteInfos id = none
  busy : ∀ id f, s.inFlight id = some f → f.message.chunkStreamId = id ∧
    ∃ header, f.message.Heads header ∧
      c.payloadParser.incompleteInfos id = some (entry f.message header f.sent)

section Step

variable {s : Sender} {c : ParserCore}

theorem Follows.busy_update (hs : Follows s c) {f : InFlight} {header : RtmpHeader}
    (hm : f.message.Heads header) {c' : ParserCore} (hbetween : c'.Between)
    (hsize : c'.payloadParser.recvChunkSize = s.chunkSize.1)
    (hinfos : c'.payloadParser.incompleteInfos = Function.update c.payloadParser.incompleteInfos
      f.message.chunkStreamId (some (entry f.message header f.sent))) :
    Follows { s with
      inFlight := Function.update s.inFlight f.message.chunkStreamId (some f) } c' where
  between := hbetween
  chunkSize := hsize
  idle id hid := by
    dsimp only at hid
    by_cases h : id = f.message.chunkStreamId
    · simp [h] at hid
    · rw [Function.update_of_ne h] at hid
      rw [hinfos, Function.update_of_ne h]
      exact hs.idle id hid
  busy id g hid := by
    dsimp only at hid
    by_cases h : id = f.message.chunkStreamId
    · subst h
      rw [Function.update_self] at hid
      cases hid
      exact ⟨rfl, header, hm, by rw [hinfos, Function.update_self]⟩
    · rw [Function.update_of_ne h] at hid
      rw [hinfos, Function.update_of_ne h]
      exact hs.busy id g hid

theorem Follows.idle_update (hs : Follows s c) {csId : UInt32} {chunkSize : ChunkSize}
    {c' : ParserCore} (hbetween : c'.Between)
    (hsize : c'.payloadParser.recvChunkSize = chunkSize.1)
    (hinfos : c'.payloadParser.incompleteInfos =
      Function.update c.payloadParser.incompleteInfos csId none) :
    Follows { chunkSize, inFlight := Function.update s.inFlight csId none } c' where
  between := hbetween
  chunkSize := hsize
  idle id hid := by
    dsimp only at hid
    by_cases h : id = csId
    · rw [hinfos, h, Function.update_self]
    · rw [Function.update_of_ne h] at hid
      rw [hinfos, Function.update_of_ne h]
      exact hs.idle id hid
  busy id g hid := by
    dsimp only at hid
    by_cases h : id = csId
    · simp [h] at hid
    · rw [Function.update_of_ne h] at hid
      rw [hinfos, Function.update_of_ne h]
      exact hs.busy id g hid

/-- The next chunk of a message, found or newly entered, against the sender. -/
theorem receive_advance (uninit : Uninit) (hs : Follows s c) {m : Outgoing}
    {header : RtmpHeader} {sent : Nat} (hsent : sent < m.content.body.length)
    (hm : m.Heads header) (wide : Bool) (first : MessageHeader) {p : RtmpPayloadParser}
    (hfind : c.payloadParser.findOrStart ((m.chunkAt s.chunkSize sent wide first).applyTo
      c.parsedHeader) = (.ok (entry m header sent), p)) :
    ∃ c' out, c.receive uninit (s.advance m sent wide first).chunk = some (c', out) ∧
      Follows (s.advance m sent wide first).sender c' ∧
      List.Forall₂ Outgoing.DeliveredAs (s.advance m sent wide first).finished.toList out := by
  unfold Sender.advance
  by_cases hmore : sent + s.chunkSize.1.toNat < m.content.body.length
  · rw [dif_pos hmore]
    obtain ⟨c', hreceive, hsize, hinfos⟩ :=
      receive_more uninit hm hs.chunkSize hmore wide first hfind
    exact ⟨c', [], hreceive, hs.busy_update (f := ⟨m, sent + s.chunkSize.1.toNat, hmore⟩) hm
      (ParserCore.receive_between hreceive) hsize hinfos, .nil⟩
  · rw [dif_neg hmore]
    obtain ⟨c', msg, hreceive, hdelivered, hsize, hinfos⟩ :=
      receive_last uninit hm hs.chunkSize hsent (Nat.le_of_not_lt hmore) wide first hfind
    exact ⟨c', [msg], hreceive, hs.idle_update (ParserCore.receive_between hreceive) hsize hinfos,
      .cons hdelivered .nil⟩

/-- One step of the sender, followed by the parser. -/
theorem receive_step (uninit : Uninit) (hs : Follows s c) {event : SendEvent}
    {sent : Sender.Sent} (h : s.step event = some sent) :
    sent.chunk.Valid ∧ ∃ c' out, c.receive uninit sent.chunk = some (c', out) ∧
      Follows sent.sender c' ∧
      List.Forall₂ Outgoing.DeliveredAs sent.finished.toList out := by
  have hchunk : ∀ (m : Outgoing) (n : Nat) (wide : Bool) (header : MessageHeader),
      (s.advance m n wide header).chunk = m.chunkAt s.chunkSize n wide header := by
    intro m n wide header
    unfold Sender.advance
    split <;> rfl
  cases event with
  | first wide m =>
      simp only [Sender.step] at h
      split at h
      · rename_i hidle
        cases h
        obtain ⟨header, p, hm, hfind⟩ :=
          findOrStart_first m s.chunkSize wide (hs.idle _ hidle)
        refine ⟨?_, receive_advance uninit hs m.body_pos hm wide m.firstHeader hfind⟩
        rw [hchunk]
        exact valid_chunkAt m s.chunkSize 0 wide (valid_firstHeader m)
      · cases h
  | next wide id =>
      simp only [Sender.step] at h
      split at h
      · cases h
      · rename_i f hbusy
        cases h
        obtain ⟨rfl, header, hm, hinfo⟩ := hs.busy id f hbusy
        refine ⟨?_, receive_advance uninit hs f.unfinished hm wide .continuation
          (findOrStart_next s.chunkSize wide hinfo)⟩
        rw [hchunk]
        exact valid_chunkAt f.message s.chunkSize f.sent wide trivial

/-- A run of the sender, followed by the parser. -/
theorem receiveAll_run (uninit : Uninit) (hs : Follows s c) {events : List SendEvent}
    {s' : Sender} {chunks : List Chunk} {finished : List Outgoing}
    (h : s.run events = some (s', chunks, finished)) :
    (∀ chunk ∈ chunks, chunk.Valid) ∧ ∃ c' out, c.receiveAll uninit chunks = some (c', out) ∧
      Follows s' c' ∧ List.Forall₂ Outgoing.DeliveredAs finished out := by
  induction events generalizing s c chunks finished with
  | nil =>
      cases h
      exact ⟨by simp, c, [], rfl, hs, .nil⟩
  | cons event events ih =>
      obtain ⟨sent, s₁, chunks₁, finished₁, hstep, hrun, rfl, rfl, rfl⟩ := Sender.run_cons h
      obtain ⟨hvalid, c₁, out, hreceive, hfollows, hout⟩ := receive_step uninit hs hstep
      obtain ⟨hvalids, c₂, outs, hreceives, hfollows', houts⟩ := ih hfollows hrun
      refine ⟨by simpa using ⟨hvalid, hvalids⟩, c₂, out ++ outs, ?_, hfollows',
        List.rel_append hout houts⟩
      simp [ParserCore.receiveAll, hreceive, hreceives]

end Step

theorem follows_afterHandshake (epoch : UInt32) :
    Follows {} (Connection.afterHandshake epoch).parser.toParserCore where
  between := ⟨rfl, rfl⟩
  chunkSize := rfl
  idle _ _ := rfl
  busy _ _ h := by cases h

/-- Interleaved messages come out whole. Read in one buffer, the chunks of a run of the
sender are all consumed, and the messages handled are those finished, in that order,
with their bodies, lengths and types. Each is handed over as soon as its last chunk has
been read; on a chunk stream the order is that of sending, and what has been started is
delivered or still in flight. All along, every entry lacks bytes of its message, and no
payload is written outside its buffer. -/
theorem interleaved_messages_reassembled (uninit : Uninit) (epoch : UInt32)
    (events : List SendEvent) {s : Sender} {chunks : List Chunk} {finished : List Outgoing}
    (hrun : Sender.run {} events = some (s, chunks, finished)) :
    let start := Connection.afterHandshake epoch
    let bytes := chunks.flatMap Chunk.encode
    let c := start.run uninit [bytes]
    (c.status = .reading ∧ c.requestStreambuf = [] ∧
      List.Forall₂ Outgoing.DeliveredAs finished c.handled) ∧
    (∀ pre post, events = pre ++ post → ∃ s₁ chunks₁ finished₁ chunks₂ core out,
      Sender.run {} pre = some (s₁, chunks₁, finished₁) ∧ chunks = chunks₁ ++ chunks₂ ∧
      start.parser.Reaches uninit bytes out core (chunks₂.flatMap Chunk.encode) ∧
      List.Forall₂ Outgoing.DeliveredAs finished₁ out) ∧
    (∀ id, (Sender.started events).filter (·.chunkStreamId = id) =
      finished.filter (·.chunkStreamId = id) ++ s.pending id) ∧
    (∀ out core stream, start.parser.Reaches uninit bytes out core stream →
      core.payloadParser.Bounded ∧ core.WritesInside) := by
  have hstart := follows_afterHandshake epoch
  refine ⟨?_, ?_, ?_, ?_⟩
  · obtain ⟨hvalid, core, out, hreceive, hfollows, hout⟩ := receiveAll_run uninit hstart hrun
    obtain ⟨hreaches, -⟩ := ParserCore.receiveAll_reaches hstart.between hvalid hreceive []
    rw [List.append_nil] at hreaches
    obtain ⟨hstatus, hhandled, hbuf, -⟩ :=
      Connection.run_of_reaches hreaches hfollows.between
    exact ⟨hstatus, hbuf, hhandled ▸ hout⟩
  · intro pre post hsplit
    rw [hsplit] at hrun
    obtain ⟨s₁, chunks₁, finished₁, chunks₂, -, hpre, -, rfl, -⟩ := Sender.run_append hrun
    obtain ⟨hvalid, core, out, hreceive, -, hout⟩ := receiveAll_run uninit hstart hpre
    obtain ⟨hreaches, -⟩ := ParserCore.receiveAll_reaches hstart.between hvalid hreceive
      (chunks₂.flatMap Chunk.encode)
    rw [← List.flatMap_append] at hreaches
    exact ⟨s₁, chunks₁, finished₁, chunks₂, core, out, hpre, rfl, hreaches, hout⟩
  · intro id
    have horder := Sender.started_run (s := {}) (by intro id f hf; cases hf) hrun id
    simpa [Sender.pending] using horder
  · intro out core stream hreaches
    exact hreaches.bounded (by intro id info hinfo; cases hinfo)

/-- Two messages on two chunk streams in turns, the audio message finishing first. -/
def videoAndAudio : List SendEvent :=
  let video : Outgoing := {
    chunkStreamId := 70
    timestamp := 40
    msgStreamId := 1
    content := .video (List.replicate 300 7)
    id_ge := by decide
    id_le := by decide
    body_pos := by rw [Content.body, List.length_replicate]; decide
    body_lt := by rw [Content.body, List.length_replicate]; decide }
  let audio : Outgoing := {
    chunkStreamId := 4
    timestamp := 41
    msgStreamId := 1
    content := .audio (List.replicate 256 9)
    id_ge := by decide
    id_le := by decide
    body_pos := by rw [Content.body, List.length_replicate]; decide
    body_lt := by rw [Content.body, List.length_replicate]; decide }
  let chunkSize : Outgoing := {
    chunkStreamId := 2
    timestamp := 0
    msgStreamId := 0
    content := .chunkSize ⟨200, by decide⟩
    id_ge := by decide
    id_le := by decide
    body_pos := by decide
    body_lt := by decide }
  [.first false video, .first false audio, .first false chunkSize, .next false 4, .next true 70]

theorem videoAndAudio_reassembled :
    ∃ s chunks finished, Sender.run {} videoAndAudio = some (s, chunks, finished) ∧
      finished.map (·.chunkStreamId) = [2, 4, 70] ∧
      List.Forall₂ Outgoing.DeliveredAs finished
        ((Connection.afterHandshake 0).run (fun _ => 0) [chunks.flatMap Chunk.encode]).handled :=
  have hruns : (Sender.run {} videoAndAudio).map (·.2.2.map (·.chunkStreamId)) =
      some [2, 4, 70] := by decide +kernel
  match h : Sender.run {} videoAndAudio with
  | some (s, chunks, finished) => ⟨s, chunks, finished, rfl, by simpa [h] using hruns,
      (interleaved_messages_reassembled (fun _ => 0) 0 videoAndAudio h).1.2.2⟩
  | none => by simp [h] at hruns

end Rtmp
