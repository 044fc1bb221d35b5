import RtmpModule.Protocol.Framing

/-!
# What a chunk stream takes from the others

A message is to depend on the chunks of its own chunk stream only. The parser keeps the
tables of a chunk stream apart, but it has one header object for the connection, and a
field that the first header of a message omits keeps the value the last header of any
chunk stream gave it: the message stream id under types 1, 2 and 3, and the delta under
type 0, from where type 3 headers take it. `borrowedOn` lists these values from the
chunks alone, and two runs agree on a chunk stream exactly when they agree on them.
-/

namespace Rtmp

open AMF0Serializer

/-- A delivered message with the header and the payload it was made of. -/
structure Delivery where
  info : ReceivedPayloadInfo
  message : RtmpMessage
  deriving DecidableEq, Repr

namespace ParserCore

/-- The messages delivered on one chunk stream, if all chunks are read. -/
def deliveriesOn (uninit : Uninit) (id : UInt32) (c : ParserCore) :
    List Chunk → Option (List Delivery)
  | [] => some []
  | chunk :: chunks => do
      let (c', out) ← c.accept uninit chunk
      let rest ← c'.deliveriesOn uninit id chunks
      return (if chunk.chunkStreamId = id then
        (c.extended chunk).toList.flatMap fun info => out.map fun message => { info, message }
      else []) ++ rest

end ParserCore

/-- Everything but the time without bound, which is the time of the connection. -/
def RtmpHeader.seen (h : RtmpHeader) : RtmpHeader := { h with absTimestamp := 0 }

def ReceivedPayloadInfo.seen (info : ReceivedPayloadInfo) : ReceivedPayloadInfo :=
  { info with firstChunkHeader := info.firstChunkHeader.seen }

def ChannelInfo.seen (channel : ChannelInfo) : ChannelInfo :=
  { channel with lastMsgAbsTimestamp := 0 }

/-- What a first header leaves to the header before it, on whatever chunk stream. -/
structure Borrowed where
  msgStreamId : Option UInt32 := none
  timestampDelta : Option UInt32 := none
  deriving DecidableEq, Repr

def MessageHeader.borrows (before : RtmpHeader) : MessageHeader → Borrowed
  | full .. => { timestampDelta := some before.timestampDelta }
  | sameStream .. => { msgStreamId := some before.msgStreamId }
  | sameLengthAndStream _ => { msgStreamId := some before.msgStreamId }
  | continuation => { msgStreamId := some before.msgStreamId }

/-- What the messages that are finished on one chunk stream have borrowed, from the
header before the chunks, the framing of the chunk stream and what the message in
progress has borrowed. -/
def borrowedOn (id : UInt32) : RtmpHeader → Framing → Borrowed → List Chunk → List Borrowed
  | _, _, _, [] => []
  | before, f, borrowed, chunk :: chunks =>
      if chunk.chunkStreamId = id then
        let borrowed := if f.Starts then chunk.header.borrows before else borrowed
        (if f.Finishes chunk then [borrowed] else []) ++
          borrowedOn id (chunk.applyTo before) (f.next chunk) borrowed chunks
      else borrowedOn id (chunk.applyTo before) f borrowed chunks

namespace RtmpPayloadParser

/-- What a delta makes of the header and the table entry, but for the time without bound. -/
def deltaSeen (delta : UInt32) (header : RtmpHeader) (channel : ChannelInfo) :
    RtmpHeader × ChannelInfo :=
  ({ header with
      timestampDelta := delta
      timestamp := channel.lastMsgTimestamp + delta }.seen,
    { channel with
      lastMsgTimestampDelta := delta
      lastMsgTimestamp := channel.lastMsgTimestamp + delta }.seen)

/-- The start of a message without its time: the header and the table entry depend on
the header and the entry before it, not on the rollover state. -/
def startSeen (header : RtmpHeader) (channel : ChannelInfo) : RtmpHeader × ChannelInfo :=
  match header.formatType with
  | .full => (header.seen, { channel with
      lastMsgTimestampDelta := header.timestampDelta
      lastMsgTimestamp := header.timestamp }.seen)
  | .sameStream => deltaSeen header.timestampDelta header channel
  | .sameLengthAndStream => deltaSeen header.timestampDelta header channel
  | .continuation => deltaSeen channel.lastMsgTimestampDelta header channel
  | .unknown => (header.seen, channel.seen)

variable {header : RtmpHeader} {channel channel' : ChannelInfo} {context : RolloverContext}
  {started : Started}

theorem startDelta_seen {delta : UInt32}
    (h : startDelta delta header channel context = .ok started) :
    (started.header.seen, started.channel.seen) = deltaSeen delta header channel := by
  by_cases hle : delta.toNat ≤ 2147483647
  · rw [startDelta_of_le hle] at h
    cases h
    rfl
  · rw [startDelta_of_lt (Nat.lt_of_not_le hle)] at h
    cases h

theorem startTimestamp_seen (h : startTimestamp header channel context = .ok started) :
    (started.header.seen, started.channel.seen) = startSeen header channel := by
  cases hf : header.formatType <;> simp only [startTimestamp, startSeen, hf] at h ⊢
  case full | unknown =>
    cases h
    rfl
  all_goals exact startDelta_seen h

/-- Two starts of one message agree exactly when what they borrow does, and then leave
the same entry. -/
theorem startSeen_iff (hchannel : channel.seen = channel'.seen) (chunk : Chunk)
    (before before' : RtmpHeader) :
    ((startSeen (resolveLength (chunk.applyTo before) channel).1
          (resolveLength (chunk.applyTo before) channel).2).1 =
        (startSeen (resolveLength (chunk.applyTo before') channel').1
          (resolveLength (chunk.applyTo before') channel').2).1 ↔
      chunk.header.borrows before = chunk.header.borrows before') ∧
    (chunk.header.borrows before = chunk.header.borrows before' →
      (startSeen (resolveLength (chunk.applyTo before) channel).1
          (resolveLength (chunk.applyTo before) channel).2).2 =
        (startSeen (resolveLength (chunk.applyTo before') channel').1
          (resolveLength (chunk.applyTo before') channel').2).2) := by
  simp only [ChannelInfo.seen, ChannelInfo.mk.injEq] at hchannel
  obtain ⟨hlen, htype, htimestamp, hdelta, -⟩ := hchannel
  cases hheader : chunk.header <;>
    simp [startSeen, deltaSeen, resolveLength, Chunk.applyTo, MessageHeader.applyTo, hheader,
      MessageHeader.formatType, RtmpHeader.hasMsgLenAndType, RtmpHeader.seen, ChannelInfo.seen,
      MessageHeader.borrows, hlen, htype, htimestamp, hdelta]

end RtmpPayloadParser

namespace ParserCore

variable {uninit : Uninit} {id : UInt32} {c c' c₁ c₂ c₁' c₂' : ParserCore} {chunk : Chunk}
  {chunks : List Chunk} {ds : List Delivery} {f : Framing} {b b₁ b₂ : Borrowed}
  {out₁ out₂ : List RtmpMessage} {r₁ r₂ : ReceivedPayloadInfo} {p₁ p₂ : RtmpPayloadParser}

theorem deliveriesOn_cons (h : c.deliveriesOn uninit id (chunk :: chunks) = some ds) :
    ∃ c' out recvInfo p rest, c.Effect uninit chunk c' out recvInfo p ∧
      c'.deliveriesOn uninit id chunks = some rest ∧
      ds = (if chunk.chunkStreamId = id then out.map fun message =>
        { info := { recvInfo with recvBuf := recvInfo.recvBuf ++ chunk.payload }, message }
        else []) ++ rest := by
  simp only [deliveriesOn, Option.bind_eq_bind, Option.bind_eq_some_iff, Option.pure_def,
    Option.some.injEq] at h
  obtain ⟨⟨c', out⟩, haccept, rest, hrest, rfl⟩ := h
  obtain ⟨recvInfo, p, heffect⟩ := accept_effect haccept
  have hextended : c.extended chunk =
      some { recvInfo with recvBuf := recvInfo.recvBuf ++ chunk.payload } := by
    simp only [extended, heffect.found]
  refine ⟨c', out, recvInfo, p, rest, heffect, hrest, ?_⟩
  simp [hextended]

/-- The tables of a chunk stream are the same in two states. -/
def SameTables (id : UInt32) (c c' : ParserCore) : Prop :=
  c'.payloadParser.channels id = c.payloadParser.channels id ∧
    c'.payloadParser.incompleteInfos id = c.payloadParser.incompleteInfos id

/-- Chunks of other chunk streams deliver nothing here and leave the tables alone. -/
theorem deliveriesOn_skip {others : List Chunk} (hothers : ∀ o ∈ others, o.chunkStreamId ≠ id)
    (h : c.deliveriesOn uninit id (others ++ chunks) = some ds) :
    ∃ c', c'.deliveriesOn uninit id chunks = some ds ∧ c.SameTables id c' ∧
      ∀ f b, borrowedOn id c.parsedHeader f b (others ++ chunks) =
        borrowedOn id c'.parsedHeader f b chunks := by
  induction others generalizing c with
  | nil => exact ⟨c, h, ⟨rfl, rfl⟩, fun _ _ => rfl⟩
  | cons o others ih =>
      have hne : o.chunkStreamId ≠ id := hothers o List.mem_cons_self
      obtain ⟨c₁, out, recvInfo, p, rest, heffect, hrest, hds⟩ := deliveriesOn_cons h
      rw [if_neg hne, List.nil_append] at hds
      subst hds
      obtain ⟨c', hdeliveries, ⟨hchannel, hentry⟩, hborrowed⟩ :=
        ih (fun o' hmem => hothers o' (List.mem_cons_of_mem _ hmem)) hrest
      obtain ⟨hchannel', hentry'⟩ := heffect.frame hne.symm
      refine ⟨c', hdeliveries, ⟨hchannel.trans hchannel', hentry.trans hentry'⟩, fun f b => ?_⟩
      rw [← hborrowed, heffect.parsedHeader, List.cons_append, borrowedOn, if_neg hne]

/-- Two states that have read the same chunks of a chunk stream. The headers of the
message in progress agree if it has borrowed the same, and so does the table entry. -/
structure Related (id : UInt32) (f : Framing) (b₁ b₂ : Borrowed) (c₁ c₂ : ParserCore) :
    Prop where
  framed₁ : c₁.Framed id f
  framed₂ : c₂.Framed id f
  idle : f.Starts → (c₁.payloadParser.channels id).seen = (c₂.payloadParser.channels id).seen
  busy : ∀ info₁ info₂, c₁.payloadParser.incompleteInfos id = some info₁ →
    c₂.payloadParser.incompleteInfos id = some info₂ →
    info₁.recvBuf = info₂.recvBuf ∧
      (info₁.firstChunkHeader.seen = info₂.firstChunkHeader.seen ↔ b₁ = b₂) ∧
      (b₁ = b₂ → (c₁.payloadParser.channels id).seen = (c₂.payloadParser.channels id).seen)

theorem Related.of_sameTables (h : Related id f b₁ b₂ c₁ c₂) (h₁ : c₁.SameTables id c₁')
    (h₂ : c₂.SameTables id c₂') : Related id f b₁ b₂ c₁' c₂' := by
  obtain ⟨hchannel₁, hentry₁⟩ := h₁
  obtain ⟨hchannel₂, hentry₂⟩ := h₂
  refine ⟨?_, ?_, ?_, ?_⟩
  · exact ⟨by rw [hchannel₁, h.framed₁.msgLength], by rw [hchannel₁, h.framed₁.msgTypeId],
      by rw [hentry₁]; exact h.framed₁.idle, by rw [hentry₁]; exact h.framed₁.busy⟩
  · exact ⟨by rw [hchannel₂, h.framed₂.msgLength], by rw [hchannel₂, h.framed₂.msgTypeId],
      by rw [hentry₂]; exact h.framed₂.idle, by rw [hentry₂]; exact h.framed₂.busy⟩
  · rw [hchannel₁, hchannel₂]
    exact h.idle
  · rw [hchannel₁, hchannel₂, hentry₁, hentry₂]
    exact h.busy

/-- What the message of a chunk has borrowed. -/
def borrowedBy (f : Framing) (b : Borrowed) (c : ParserCore) (chunk : Chunk) : Borrowed :=
  if f.Starts then chunk.header.borrows c.parsedHeader else b

theorem borrowedOn_own {out : List RtmpMessage} {r : ReceivedPayloadInfo} {p : RtmpPayloadParser}
    (h : c.Effect uninit chunk c' out r p) (f : Framing) (b : Borrowed) (chunks : List Chunk) :
    borrowedOn chunk.chunkStreamId c.parsedHeader f b (chunk :: chunks) =
      (if f.Finishes chunk then [borrowedBy f b c chunk] else []) ++
        borrowedOn chunk.chunkStreamId c'.parsedHeader (f.next chunk) (borrowedBy f b c chunk)
          chunks := by
  rw [borrowedOn, if_pos rfl, h.parsedHeader]
  rfl

/-- The entries two runs come by for the same chunk. -/
theorem Related.lookup (h : Related chunk.chunkStreamId f b₁ b₂ c₁ c₂)
    (h₁ : c₁.Effect uninit chunk c₁' out₁ r₁ p₁) (h₂ : c₂.Effect uninit chunk c₂' out₂ r₂ p₂) :
    r₁.recvBuf = r₂.recvBuf ∧
      (r₁.firstChunkHeader.seen = r₂.firstChunkHeader.seen ↔
        borrowedBy f b₁ c₁ chunk = borrowedBy f b₂ c₂ chunk) ∧
      (borrowedBy f b₁ c₁ chunk = borrowedBy f b₂ c₂ chunk →
        (p₁.channels chunk.chunkStreamId).seen = (p₂.channels chunk.chunkStreamId).seen) := by
  rcases h₁.cases with ⟨hbusy₁, rfl⟩ | ⟨hidle₁, started₁, hstarted₁, rfl, rfl⟩ <;>
    rcases h₂.cases with ⟨hbusy₂, rfl⟩ | ⟨hidle₂, started₂, hstarted₂, rfl, rfl⟩
  · have hmissing := (h.framed₁.busy _ hbusy₁).1
    have hcontinues : ¬ f.Starts := by simp [Framing.Starts, hmissing]
    simp only [borrowedBy, if_neg hcontinues]
    exact h.busy _ _ hbusy₁ hbusy₂
  · have hmissing := (h.framed₁.busy _ hbusy₁).1
    simp [h.framed₂.idle hidle₂] at hmissing
  · have hmissing := (h.framed₂.busy _ hbusy₂).1
    simp [h.framed₁.idle hidle₁] at hmissing
  · have hstarts : f.Starts := h.framed₁.idle hidle₁
    have hseen₁ := RtmpPayloadParser.startTimestamp_seen hstarted₁
    have hseen₂ := RtmpPayloadParser.startTimestamp_seen hstarted₂
    have hiff := RtmpPayloadParser.startSeen_iff (h.idle hstarts) chunk c₁.parsedHeader
      c₂.parsedHeader
    rw [← hseen₁, ← hseen₂] at hiff
    simpa only [borrowedBy, if_pos hstarts, RtmpPayloadParser.setChannel, Function.update_self,
      true_and] using hiff

/-- A chunk that leaves its message unfinished keeps the two states related. -/
theorem Related.more (h : Related chunk.chunkStreamId f b₁ b₂ c₁ c₂)
    (h₁ : c₁.Effect uninit chunk c₁' out₁ r₁ p₁) (h₂ : c₂.Effect uninit chunk c₂' out₂ r₂ p₂)
    (hmore : ¬ f.Finishes chunk) :
    out₁ = [] ∧ out₂ = [] ∧ Related chunk.chunkStreamId (f.next chunk)
      (borrowedBy f b₁ c₁ chunk) (borrowedBy f b₂ c₂ chunk) c₁' c₂' := by
  obtain ⟨hbuf, hheader, hchannel⟩ := h.lookup h₁ h₂
  obtain ⟨hout₁, -, hinfos₁⟩ := h₁.more (mt (h₁.finishes_iff h.framed₁).mpr hmore)
  obtain ⟨hout₂, -, hinfos₂⟩ := h₂.more (mt (h₂.finishes_iff h.framed₂).mpr hmore)
  refine ⟨hout₁, hout₂, h₁.framed h.framed₁, h₂.framed h.framed₂, ?_, ?_⟩
  · intro hstarts
    simp [Framing.Starts, Framing.next, hmore] at hstarts
  · intro info₁ info₂ hinfo₁ hinfo₂
    rw [hinfos₁, Function.update_self] at hinfo₁
    rw [hinfos₂, Function.update_self] at hinfo₂
    cases hinfo₁
    cases hinfo₂
    rw [h₁.channels, h₂.channels]
    exact ⟨by rw [hbuf], hheader, hchannel⟩

/-- A chunk that finishes its message delivers it in both states, and the same exactly
when it has borrowed the same. -/
theorem Related.last (h : Related chunk.chunkStreamId f b₁ b₂ c₁ c₂)
    (h₁ : c₁.Effect uninit chunk c₁' out₁ r₁ p₁) (h₂ : c₂.Effect uninit chunk c₂' out₂ r₂ p₂)
    (hlast : f.Finishes chunk) :
    (∃ msg, out₁ = [msg]) ∧ (∃ msg, out₂ = [msg]) ∧ r₁.recvBuf = r₂.recvBuf ∧
      (r₁.firstChunkHeader.seen = r₂.firstChunkHeader.seen ↔
        borrowedBy f b₁ c₁ chunk = borrowedBy f b₂ c₂ chunk) ∧
      (borrowedBy f b₁ c₁ chunk = borrowedBy f b₂ c₂ chunk →
        Related chunk.chunkStreamId (f.next chunk)
          (borrowedBy f b₁ c₁ chunk) (borrowedBy f b₂ c₂ chunk) c₁' c₂') := by
  obtain ⟨hbuf, hheader, hchannel⟩ := h.lookup h₁ h₂
  obtain ⟨hinfos₁, -, -, msg₁, -, -, -, hout₁, -⟩ := h₁.last ((h₁.finishes_iff h.framed₁).mp hlast)
  obtain ⟨hinfos₂, -, -, msg₂, -, -, -, hout₂, -⟩ := h₂.last ((h₂.finishes_iff h.framed₂).mp hlast)
  refine ⟨⟨msg₁, hout₁⟩, ⟨msg₂, hout₂⟩, hbuf, hheader, fun hborrowed => ?_⟩
  refine ⟨h₁.framed h.framed₁, h₂.framed h.framed₂, fun _ => ?_, fun info₁ _ hinfo₁ => ?_⟩
  · rw [h₁.channels, h₂.channels]
    exact hchannel hborrowed
  · rw [hinfos₁, Function.update_self] at hinfo₁
    cases hinfo₁

/-- The induction over the chunks of one chunk stream, with those of the others between. -/
theorem Related.deliveriesOn (h : Related id f b₁ b₂ c₁ c₂) {own chunks₁ chunks₂ : List Chunk}
    {ds₁ ds₂ : List Delivery}
    (hown₁ : chunks₁.filter (fun o => o.chunkStreamId = id) = own)
    (hown₂ : chunks₂.filter (fun o => o.chunkStreamId = id) = own)
    (h₁ : c₁.deliveriesOn uninit id chunks₁ = some ds₁)
    (h₂ : c₂.deliveriesOn uninit id chunks₂ = some ds₂) :
    ds₁.map (·.info.seen) = ds₂.map (·.info.seen) ↔
      borrowedOn id c₁.parsedHeader f b₁ chunks₁ = borrowedOn id c₂.parsedHeader f b₂ chunks₂ := by
  induction own generalizing f b₁ b₂ c₁ c₂ chunks₁ chunks₂ ds₁ ds₂ with
  | nil =>
      have hskip : ∀ {c : ParserCore} {chunks : List Chunk} {ds : List Delivery} (b : Borrowed),
          chunks.filter (fun o => o.chunkStreamId = id) = [] →
          c.deliveriesOn uninit id chunks = some ds →
          ds = [] ∧ borrowedOn id c.parsedHeader f b chunks = [] := by
        intro c chunks ds b hfilter hds
        rw [← List.append_nil chunks] at hds
        obtain ⟨c', hnil, -, hborrowed⟩ :=
          deliveriesOn_skip (by simpa [List.filter_eq_nil_iff] using hfilter) hds
        rw [List.append_nil] at hborrowed
        exact ⟨by cases hnil; rfl, hborrowed f b⟩
      obtain ⟨rfl, hborrowed₁⟩ := hskip b₁ hown₁ h₁
      obtain ⟨rfl, hborrowed₂⟩ := hskip b₂ hown₂ h₂
      simp [hborrowed₁, hborrowed₂]
  | cons chunk own ih =>
      obtain ⟨others₁, chunks₁, rfl, hothers₁, hid, hown₁⟩ := List.filter_eq_cons_iff.mp hown₁
      obtain ⟨others₂, chunks₂, rfl, hothers₂, -, hown₂⟩ := List.filter_eq_cons_iff.mp hown₂
      simp only [decide_eq_true_eq] at hothers₁ hothers₂ hid
      obtain ⟨c₁', h₁', htables₁, hborrowed₁⟩ := deliveriesOn_skip hothers₁ h₁
      obtain ⟨c₂', h₂', htables₂, hborrowed₂⟩ := deliveriesOn_skip hothers₂ h₂
      have hrelated := h.of_sameTables htables₁ htables₂
      rw [hborrowed₁, hborrowed₂]
      obtain ⟨c₁'', out₁, r₁, p₁, rest₁, heffect₁, hrest₁, rfl⟩ := deliveriesOn_cons h₁'
      obtain ⟨c₂'', out₂, r₂, p₂, rest₂, heffect₂, hrest₂, rfl⟩ := deliveriesOn_cons h₂'
      subst hid
      rw [borrowedOn_own heffect₁, borrowedOn_own heffect₂]
      by_cases hlast : f.Finishes chunk
      · obtain ⟨⟨msg₁, rfl⟩, ⟨msg₂, rfl⟩, hbuf, hheader, hnext⟩ :=
          hrelated.last heffect₁ heffect₂ hlast
        simp only [hlast, ↓reduceIte, List.map_cons, List.map_nil, List.singleton_append,
          List.cons.injEq]
        by_cases hb : borrowedBy f b₁ c₁' chunk = borrowedBy f b₂ c₂' chunk
        · have hseen : ReceivedPayloadInfo.seen { r₁ with recvBuf := r₁.recvBuf ++ chunk.payload } =
              ReceivedPayloadInfo.seen { r₂ with recvBuf := r₂.recvBuf ++ chunk.payload } := by
            simp only [ReceivedPayloadInfo.seen, hheader.mpr hb, hbuf]
          simp only [hseen, hb, true_and]
          rw [← hb]
          simpa only [hb] using ih (hnext hb) hown₁ hown₂ hrest₁ hrest₂
        · have hseen : ReceivedPayloadInfo.seen { r₁ with recvBuf := r₁.recvBuf ++ chunk.payload } ≠
              ReceivedPayloadInfo.seen { r₂ with recvBuf := r₂.recvBuf ++ chunk.payload } :=
            fun heq => hb (hheader.mp (congrArg ReceivedPayloadInfo.firstChunkHeader heq))
          simp only [hseen, hb, false_and]
      · obtain ⟨rfl, rfl, hnext⟩ := hrelated.more heffect₁ heffect₂ hlast
        simpa only [hlast, ↓reduceIte, List.map_nil, List.nil_append] using
          ih hnext hown₁ hown₂ hrest₁ hrest₂

end ParserCore

end Rtmp
