import RtmpModule.Protocol.Framing

/-!
# Time across the rollover

A sender knows the time of a message without bound; a header carries its last 32 bits,
or the difference to the message before it on the chunk stream. The parser has one
rollover count for the connection. It is right about every message as long as a type 0
header never takes the connection back to an earlier epoch, and a message with a delta
finds the connection in the epoch its own chunk stream was left in.

`Clock` is the reckoning of a run in true times, made from the chunks and their times
alone.
-/

namespace Rtmp

open AMF0Serializer Sna

/-- The delta a message header carries. -/
def MessageHeader.carriedDelta : MessageHeader → Option UInt32
  | full .. => none
  | sameStream timestampDelta .. => some timestampDelta
  | sameLengthAndStream timestampDelta => some timestampDelta
  | continuation => none

/-- A chunk stream in true time: when its last message was, and the delta a type 3
header stands for. After a type 0 header that is the last delta any chunk stream of
the connection carried. -/
structure StreamClock where
  framing : Framing := {}
  time : Option Nat := none
  delta : UInt32 := 0

/-- A connection in true time: its chunk streams, the time of the last message that was
started and the delta the last header with a delta carried. -/
structure Clock where
  streams : UInt32 → StreamClock := fun _ => {}
  previous : Option Nat := none
  lastDelta : UInt32 := 0

namespace Clock

/-- The chunk starts a message. -/
def Starts (k : Clock) (chunk : Chunk) : Prop := (k.streams chunk.chunkStreamId).framing.Starts

instance (k : Clock) (chunk : Chunk) : Decidable (k.Starts chunk) :=
  inferInstanceAs (Decidable (Framing.Starts _))

/-- The delta the message of a first chunk leaves behind. -/
def deltaAfter (k : Clock) (chunk : Chunk) : UInt32 :=
  match chunk.header with
  | .continuation => (k.streams chunk.chunkStreamId).delta
  | header => header.carriedDelta.getD k.lastDelta

/-- The clock after a chunk of a message of the given time. -/
def step (k : Clock) (chunk : Chunk) (time : Nat) : Clock :=
  let s := k.streams chunk.chunkStreamId
  let framing := s.framing.next chunk
  { streams := Function.update k.streams chunk.chunkStreamId
      (if k.Starts chunk then { framing, time := some time, delta := k.deltaAfter chunk }
      else { s with framing })
    previous := if k.Starts chunk then some time else k.previous
    lastDelta := chunk.header.carriedDelta.getD k.lastDelta }

/-- What the header of a first chunk says of the time of its message. A type 3 header
says nothing. -/
def Carries (k : Clock) (chunk : Chunk) (time : Nat) : Prop :=
  match chunk.header with
  | .full timestamp .. => timestamp.toNat = time % 2 ^ 32
  | .sameStream timestampDelta .. =>
      ∃ last ∈ (k.streams chunk.chunkStreamId).time, last + timestampDelta.toNat = time
  | .sameLengthAndStream timestampDelta =>
      ∃ last ∈ (k.streams chunk.chunkStreamId).time, last + timestampDelta.toNat = time
  | .continuation => (k.streams chunk.chunkStreamId).time.isSome

instance (k : Clock) (chunk : Chunk) (time : Nat) : Decidable (k.Carries chunk time) := by
  unfold Carries
  split <;> infer_instance

/-- A message a sender may start: its time does not go back on its chunk stream, is
less than half an epoch from the message before it, and is what its header says. -/
structure WellTimed (k : Clock) (chunk : Chunk) (time : Nat) : Prop where
  bits : time < 2 ^ 64
  first : k.previous = none → time < 2 ^ 32
  near : ∀ previous ∈ k.previous, time ≤ previous + 2147483647 ∧ previous ≤ time + 2147483647
  ordered : ∀ last ∈ (k.streams chunk.chunkStreamId).time, last ≤ time
  carried : k.Carries chunk time

/-- Where the parser is right about a message that starts. A type 0 header may take the
connection to the next epoch, but not back. With a delta, the connection is in the
epoch of the last message of the chunk stream, and a type 3 header stands for the delta
of its message. A control message, which is delivered without its header, has time 0. -/
structure Steady (k : Clock) (chunk : Chunk) (time : Nat) : Prop where
  epoch : chunk.header.formatType = .full → k.previous.getD 0 / 2 ^ 32 ≤ time / 2 ^ 32
  sameEpoch : chunk.header.formatType ≠ .full →
    ∀ last ∈ (k.streams chunk.chunkStreamId).time, k.previous.getD 0 / 2 ^ 32 = last / 2 ^ 32
  repeated : chunk.header = .continuation →
    ∀ last ∈ (k.streams chunk.chunkStreamId).time,
      last + (k.streams chunk.chunkStreamId).delta.toNat = time
  untimed : ((k.streams chunk.chunkStreamId).framing.messageOf chunk.header).IsControl → time = 0

instance (k : Clock) (chunk : Chunk) (time : Nat) : Decidable (k.WellTimed chunk time) :=
  decidable_of_iff (time < 2 ^ 64 ∧ (k.previous = none → time < 2 ^ 32) ∧
      (∀ previous ∈ k.previous, time ≤ previous + 2147483647 ∧ previous ≤ time + 2147483647) ∧
      (∀ last ∈ (k.streams chunk.chunkStreamId).time, last ≤ time) ∧ k.Carries chunk time)
    ⟨fun ⟨h1, h2, h3, h4, h5⟩ => ⟨h1, h2, h3, h4, h5⟩,
      fun ⟨h1, h2, h3, h4, h5⟩ => ⟨h1, h2, h3, h4, h5⟩⟩

instance (k : Clock) (chunk : Chunk) (time : Nat) : Decidable (k.Steady chunk time) :=
  decidable_of_iff
    ((chunk.header.formatType = .full → k.previous.getD 0 / 2 ^ 32 ≤ time / 2 ^ 32) ∧
      (chunk.header.formatType ≠ .full → ∀ last ∈ (k.streams chunk.chunkStreamId).time,
        k.previous.getD 0 / 2 ^ 32 = last / 2 ^ 32) ∧
      (chunk.header = .continuation → ∀ last ∈ (k.streams chunk.chunkStreamId).time,
        last + (k.streams chunk.chunkStreamId).delta.toNat = time) ∧
      (((k.streams chunk.chunkStreamId).framing.messageOf chunk.header).IsControl → time = 0))
    ⟨fun ⟨h1, h2, h3, h4⟩ => ⟨h1, h2, h3, h4⟩, fun ⟨h1, h2, h3, h4⟩ => ⟨h1, h2, h3, h4⟩⟩

/-- A run of valid chunks, each with the time of its message, in which every message is
started as `P` says. -/
def Runs (P : Clock → Chunk → Nat → Prop) : Clock → List (Chunk × Nat) → Prop
  | _, [] => True
  | k, (chunk, time) :: run =>
      chunk.Valid ∧ (k.Starts chunk → P k chunk time) ∧ Runs P (k.step chunk time) run

instance instDecidableRuns (P : Clock → Chunk → Nat → Prop)
    [∀ k chunk time, Decidable (P k chunk time)] :
    (k : Clock) → (run : List (Chunk × Nat)) → Decidable (Runs P k run)
  | _, [] => inferInstanceAs (Decidable True)
  | k, (chunk, time) :: run =>
      have := instDecidableRuns P (k.step chunk time) run
      inferInstanceAs (Decidable (chunk.Valid ∧ (k.Starts chunk → P k chunk time) ∧
        Runs P (k.step chunk time) run))

/-- The messages a run delivers, each with the time it was started under, up to the
first chunk that is refused. -/
def deliveries (uninit : Uninit) : Clock → ParserCore → List (Chunk × Nat) →
    List (Nat × RtmpMessage)
  | _, _, [] => []
  | k, c, (chunk, time) :: run =>
      match c.accept uninit chunk with
      | none => []
      | some (c, out) =>
          let k := k.step chunk time
          out.map (fun msg => (((k.streams chunk.chunkStreamId).time).getD 0, msg)) ++
            deliveries uninit k c run

end Clock

namespace RtmpPayloadParser

/-- Resolving length and type leaves the times alone. -/
theorem resolveLength_times (header : RtmpHeader) (channel : ChannelInfo) :
    (resolveLength header channel).1.formatType = header.formatType ∧
      (resolveLength header channel).1.timestamp = header.timestamp ∧
      (resolveLength header channel).1.timestampDelta = header.timestampDelta ∧
      (resolveLength header channel).2.lastMsgTimestamp = channel.lastMsgTimestamp ∧
      (resolveLength header channel).2.lastMsgTimestampDelta = channel.lastMsgTimestampDelta := by
  unfold resolveLength
  split <;> exact ⟨rfl, rfl, rfl, rfl, rfl⟩

/-- The start of a message at the given time, as it is to be resolved. -/
structure Started.Exact (started : Started) (time : Nat) (delta : UInt32) : Prop where
  header : started.header.absTimestamp.toNat = time
  channel : started.channel.lastMsgTimestamp.toNat = time % 2 ^ 32
  delta : started.channel.lastMsgTimestampDelta = delta
  last : started.context.lastMessageTimestamp.toNat = time % 2 ^ 32
  count : started.context.rolloverCount = UInt32.ofNat (time / 2 ^ 32)

variable {header : RtmpHeader} {channel : ChannelInfo} {context : RolloverContext}
  {started : Started} {previous last time : Nat}

/-- A type 0 header is resolved against the last message of the connection. -/
theorem startFull_exact (hbits : time < 2 ^ 64)
    (htimestamp : header.timestamp.toNat = time % 2 ^ 32)
    (hlast : context.lastMessageTimestamp.toNat = previous % 2 ^ 32)
    (hcount : context.rolloverCount = UInt32.ofNat (previous / 2 ^ 32))
    (hepoch : previous / 2 ^ 32 ≤ time / 2 ^ 32)
    (hahead : time / 2 ^ 32 = previous / 2 ^ 32 ∨ time ≤ previous + 2147483647)
    (hbehind : previous ≤ time + 2147483647) :
    (startFull header channel context).Exact time header.timestampDelta := by
  have hafter := countAfter_epoch hepoch hahead hbehind
  simp only [startFull, unrollAfter_eq, htimestamp, hlast, hcount, serialnumber_mod, hafter]
  exact ⟨toNat_unroll_epoch hbits, htimestamp, rfl, htimestamp, rfl⟩

/-- A delta is resolved against the last message of its chunk stream. -/
theorem startDelta_exact {delta : UInt32} (hbits : time < 2 ^ 64)
    (hdelta : last + delta.toNat = time)
    (hlast : channel.lastMsgTimestamp.toNat = last % 2 ^ 32)
    (hcount : context.rolloverCount = UInt32.ofNat (last / 2 ^ 32))
    (h : startDelta delta header channel context = .ok started) : started.Exact time delta := by
  by_cases hle : delta.toNat ≤ 2147483647
  · have hsum : (last % 2 ^ 32 + delta.toNat) % 2 ^ 32 = time % 2 ^ 32 := by omega
    have hnumber : deltaNumber delta channel = serialnumber time := by
      rw [deltaNumber, hlast, ← serialnumber_mod, hsum, serialnumber_mod]
    have hafter : deltaCount delta channel context = UInt32.ofNat (time / 2 ^ 32) := by
      rw [deltaCount, hnumber, hlast, hcount, serialnumber_mod]
      exact countAfter_epoch (by omega) (.inr (by omega)) (by omega)
    have htimestamp : (channel.lastMsgTimestamp + delta).toNat = time % 2 ^ 32 := by
      rw [UInt32.toNat_add, hlast, hsum]
    rw [startDelta_of_le hle, hnumber, hafter] at h
    cases h
    refine ⟨toNat_unroll_epoch hbits, htimestamp, rfl, ?_, rfl⟩
    simp [serialnumber]
  · rw [startDelta_of_lt (Nat.lt_of_not_le hle)] at h
    cases h

end RtmpPayloadParser

/-- The parser against the clock: its tables are the true times, cut to 32 bits, and the
rollover count is the epoch of the last message. -/
structure Clock.Keeps (k : Clock) (c : ParserCore) : Prop where
  framed : ∀ id, c.Framed id (k.streams id).framing
  lastDelta : c.parsedHeader.timestampDelta = k.lastDelta
  previous : c.payloadParser.context.lastMessageTimestamp.toNat = k.previous.getD 0 % 2 ^ 32
  count : c.payloadParser.context.rolloverCount = UInt32.ofNat (k.previous.getD 0 / 2 ^ 32)
  time : ∀ id last, (k.streams id).time = some last →
    (c.payloadParser.channels id).lastMsgTimestamp.toNat = last % 2 ^ 32
  delta : ∀ id, (c.payloadParser.channels id).lastMsgTimestampDelta = (k.streams id).delta
  known : ∀ id, (k.streams id).time.isSome → (k.streams id).framing.msgTypeId ≠ .unknown
  entries : ∀ id info, c.payloadParser.incompleteInfos id = some info →
    ∃ time, (k.streams id).time = some time ∧ info.firstChunkHeader.absTimestamp.toNat = time ∧
      ((k.streams id).framing.IsControl → time = 0)
  untimed : c.payloadParser.Untimed

namespace Clock

variable {k : Clock} {c c' : ParserCore} {chunk : Chunk} {time : Nat} {uninit : Uninit}
  {out : List RtmpMessage} {recvInfo : ReceivedPayloadInfo} {p : RtmpPayloadParser}

theorem Keeps.initial : Keeps {} (Connection.afterHandshake 0).parser.toParserCore where
  framed _ := ⟨rfl, rfl, fun _ => rfl, fun _ h => nomatch h⟩
  lastDelta := rfl
  previous := rfl
  count := rfl
  time _ _ h := nomatch h
  delta _ := rfl
  known _ h := nomatch h
  entries _ _ h := nomatch h
  untimed _ h := nomatch h

/-- A message with a full header is resolved in the epoch of its true time. -/
theorem Keeps.startFull (hk : k.Keeps c) (hwell : k.WellTimed chunk time)
    (hsteady : k.Steady chunk time) (hfull : chunk.header.formatType = .full)
    {header : RtmpHeader} (channel : ChannelInfo)
    (htimestamp : header.timestamp.toNat = time % 2 ^ 32) :
    (RtmpPayloadParser.startFull header channel c.payloadParser.context).Exact time
      header.timestampDelta := by
  apply RtmpPayloadParser.startFull_exact hwell.bits htimestamp hk.previous hk.count
    (hsteady.epoch hfull)
  · cases hprevious : k.previous with
    | none =>
        have hfirst := hwell.first hprevious
        simp only [Option.getD_none]
        omega
    | some previous => exact .inr (hwell.near previous hprevious).1
  · cases hprevious : k.previous with
    | none => exact Nat.zero_le _
    | some previous => exact (hwell.near previous hprevious).2

/-- A delta is added to the last message of the chunk stream, in the same epoch. -/
theorem Keeps.startDelta (hk : k.Keeps c) (hwell : k.WellTimed chunk time)
    (hsteady : k.Steady chunk time) (hfull : chunk.header.formatType ≠ .full)
    {started : RtmpPayloadParser.Started} {header : RtmpHeader} {channel : ChannelInfo}
    {delta : UInt32}
    (hchannel : channel.lastMsgTimestamp =
      (c.payloadParser.channels chunk.chunkStreamId).lastMsgTimestamp)
    (hsum : ∃ last, (k.streams chunk.chunkStreamId).time = some last ∧
      last + delta.toNat = time)
    (h : RtmpPayloadParser.startDelta delta header channel c.payloadParser.context =
      .ok started) : started.Exact time delta := by
  obtain ⟨last, hlast, hsum⟩ := hsum
  refine RtmpPayloadParser.startDelta_exact hwell.bits hsum ?_ ?_ h
  · rw [hchannel, hk.time _ _ hlast]
  · rw [hk.count, hsteady.sameEpoch hfull last hlast]

/-- The start of a message is resolved to its true time. -/
theorem Keeps.started (hk : k.Keeps c) (hwell : k.WellTimed chunk time)
    (hsteady : k.Steady chunk time) {started : RtmpPayloadParser.Started}
    (h : RtmpPayloadParser.startTimestamp
      (RtmpPayloadParser.resolveLength (chunk.applyTo c.parsedHeader)
        (c.payloadParser.channels chunk.chunkStreamId)).1
      (RtmpPayloadParser.resolveLength (chunk.applyTo c.parsedHeader)
        (c.payloadParser.channels chunk.chunkStreamId)).2
      c.payloadParser.context = .ok started) :
    started.Exact time (k.deltaAfter chunk) := by
  have hcarried := hwell.carried
  obtain ⟨hformat, htimestamp, hdelta, hchannel, hchannelDelta⟩ :=
    RtmpPayloadParser.resolveLength_times (chunk.applyTo c.parsedHeader)
      (c.payloadParser.channels chunk.chunkStreamId)
  have hf : (chunk.applyTo c.parsedHeader).formatType = chunk.header.formatType := by
    rw [Chunk.applyTo]
    cases chunk.header <;> rfl
  rw [RtmpPayloadParser.startTimestamp, hformat, hf] at h
  cases hheader : chunk.header with
  | full timestamp msgLength msgTypeId msgStreamId =>
      simp only [Carries, hheader] at hcarried
      have hfull : chunk.header.formatType = .full := by rw [hheader]; rfl
      have ht : (chunk.applyTo c.parsedHeader).timestamp = timestamp := by
        simp [Chunk.applyTo, hheader, MessageHeader.applyTo]
      have hd : (chunk.applyTo c.parsedHeader).timestampDelta = k.deltaAfter chunk := by
        simp [Chunk.applyTo, deltaAfter, hheader, MessageHeader.applyTo,
          MessageHeader.carriedDelta, hk.lastDelta]
      rw [hfull] at h
      cases h
      rw [← hd, ← hdelta]
      apply hk.startFull hwell hsteady hfull
      rw [htimestamp, ht, hcarried]
  | sameStream timestampDelta _ _ | sameLengthAndStream timestampDelta =>
      simp only [Carries, hheader] at hcarried
      have hd : (chunk.applyTo c.parsedHeader).timestampDelta = timestampDelta := by
        simp [Chunk.applyTo, hheader, MessageHeader.applyTo]
      have hafter : k.deltaAfter chunk = timestampDelta := by
        simp [deltaAfter, hheader, MessageHeader.carriedDelta]
      rw [hheader, MessageHeader.formatType] at h
      dsimp only at h
      rw [hdelta, hd] at h
      rw [hafter]
      exact hk.startDelta hwell hsteady (by simp [hheader, MessageHeader.formatType]) hchannel
        hcarried h
  | continuation =>
      simp only [Carries, hheader] at hcarried
      obtain ⟨last, hlast⟩ := Option.isSome_iff_exists.mp hcarried
      have hafter : k.deltaAfter chunk = (k.streams chunk.chunkStreamId).delta := by
        simp [deltaAfter, hheader]
      rw [hheader, MessageHeader.formatType] at h
      dsimp only at h
      rw [hchannelDelta, hk.delta] at h
      rw [hafter]
      exact hk.startDelta hwell hsteady (by simp [hheader, MessageHeader.formatType]) hchannel
        ⟨last, hlast, hsteady.repeated hheader last hlast⟩ h

/-- A chunk stream whose framing gives the type of its messages has given one. -/
theorem start_known (f : Framing) {header : MessageHeader} (hvalid : header.Valid)
    (h : header.formatType = .full ∨ f.msgTypeId ≠ .unknown) :
    (f.start header).msgTypeId ≠ .unknown := by
  cases header with
  | full _ _ msgTypeId _ => exact hvalid.2
  | sameStream _ _ msgTypeId => exact hvalid.2
  | sameLengthAndStream _ => simpa [MessageHeader.formatType, Framing.start] using h
  | continuation => simpa [MessageHeader.formatType, Framing.start] using h

theorem step_of_ne {id : UInt32} (hid : id ≠ chunk.chunkStreamId) :
    (k.step chunk time).streams id = k.streams id :=
  Function.update_of_ne hid _ _

theorem step_of_starts (h : k.Starts chunk) :
    (k.step chunk time).streams chunk.chunkStreamId =
        { framing := (k.streams chunk.chunkStreamId).framing.next chunk
          time := some time
          delta := k.deltaAfter chunk } ∧
      (k.step chunk time).previous = some time := by
  simp [step, h]

theorem step_of_continues (h : ¬ k.Starts chunk) :
    (k.step chunk time).streams chunk.chunkStreamId =
        { k.streams chunk.chunkStreamId with
          framing := (k.streams chunk.chunkStreamId).framing.next chunk } ∧
      (k.step chunk time).previous = k.previous := by
  simp [step, h]

theorem messageOf_of_starts (h : k.Starts chunk) :
    (k.streams chunk.chunkStreamId).framing.messageOf chunk.header =
      (k.streams chunk.chunkStreamId).framing.start chunk.header := if_pos h

theorem messageOf_of_continues (h : ¬ k.Starts chunk) :
    (k.streams chunk.chunkStreamId).framing.messageOf chunk.header =
      (k.streams chunk.chunkStreamId).framing := if_neg h

theorem step_framing :
    ((k.step chunk time).streams chunk.chunkStreamId).framing =
      (k.streams chunk.chunkStreamId).framing.next chunk := by
  by_cases h : k.Starts chunk
  · rw [(step_of_starts h).1]
  · rw [(step_of_continues h).1]

/-- Once the entry of a chunk has been looked up, the tables say what the clock says
after the chunk, and the entry has the time of its message. -/
structure Resolves (k : Clock) (chunk : Chunk) (recvInfo : ReceivedPayloadInfo)
    (p : RtmpPayloadParser) : Prop where
  previous : p.context.lastMessageTimestamp.toNat = k.previous.getD 0 % 2 ^ 32
  count : p.context.rolloverCount = UInt32.ofNat (k.previous.getD 0 / 2 ^ 32)
  time : ∀ id last, (k.streams id).time = some last →
    (p.channels id).lastMsgTimestamp.toNat = last % 2 ^ 32
  delta : ∀ id, (p.channels id).lastMsgTimestampDelta = (k.streams id).delta
  entry : ∃ time, (k.streams chunk.chunkStreamId).time = some time ∧
    recvInfo.firstChunkHeader.absTimestamp.toNat = time ∧
    ((k.streams chunk.chunkStreamId).framing.IsControl → time = 0)

/-- The type of the messages of a chunk stream is settled by their first chunks. -/
theorem next_msgTypeId (f : Framing) (chunk : Chunk) :
    (f.next chunk).msgTypeId = (f.messageOf chunk.header).msgTypeId := rfl

theorem Keeps.resolves (hk : k.Keeps c)
    (hstart : k.Starts chunk → k.WellTimed chunk time ∧ k.Steady chunk time)
    (h : c.Effect uninit chunk c' out recvInfo p) :
    (k.step chunk time).Resolves chunk recvInfo p := by
  rcases h.cases with ⟨hbusy, rfl⟩ | ⟨hidle, started, hstarted, rfl, rfl⟩
  · obtain ⟨hmissing, -⟩ := (hk.framed chunk.chunkStreamId).busy _ hbusy
    have hcontinues : ¬ k.Starts chunk := by simp [Starts, Framing.Starts, hmissing]
    obtain ⟨hself, hprevious⟩ := @step_of_continues k chunk time hcontinues
    refine ⟨?_, ?_, fun id last hlast => ?_, fun id => ?_, ?_⟩
    · rw [hprevious, hk.previous]
    · rw [hprevious, hk.count]
    · by_cases hid : id = chunk.chunkStreamId
      · subst hid
        rw [hself] at hlast
        exact hk.time _ _ hlast
      · rw [step_of_ne hid] at hlast
        exact hk.time _ _ hlast
    · by_cases hid : id = chunk.chunkStreamId
      · subst hid
        rw [hself, hk.delta]
      · rw [step_of_ne hid, hk.delta]
    · obtain ⟨time', htime, habs, hcontrol⟩ := hk.entries _ _ hbusy
      refine ⟨time', by rw [hself]; exact htime, habs, fun hc => hcontrol ?_⟩
      rw [hself] at hc
      simpa only [Framing.IsControl, next_msgTypeId, messageOf_of_continues hcontinues] using hc
  · have hstarts : k.Starts chunk := (hk.framed chunk.chunkStreamId).idle hidle
    obtain ⟨hwell, hsteady⟩ := hstart hstarts
    have hexact := hk.started hwell hsteady hstarted
    obtain ⟨hself, hprevious⟩ := @step_of_starts k chunk time hstarts
    refine ⟨?_, ?_, fun id last hlast => ?_, fun id => ?_, ?_⟩
    · rw [hprevious]
      exact hexact.last
    · rw [hprevious]
      exact hexact.count
    · by_cases hid : id = chunk.chunkStreamId
      · subst hid
        rw [hself] at hlast
        cases hlast
        simp only [RtmpPayloadParser.setChannel, Function.update_self]
        exact hexact.channel
      · rw [step_of_ne hid] at hlast
        simp only [RtmpPayloadParser.setChannel, Function.update_of_ne hid]
        exact hk.time _ _ hlast
    · by_cases hid : id = chunk.chunkStreamId
      · subst hid
        rw [hself]
        simp only [RtmpPayloadParser.setChannel, Function.update_self]
        exact hexact.delta
      · rw [step_of_ne hid]
        simp only [RtmpPayloadParser.setChannel, Function.update_of_ne hid]
        exact hk.delta id
    · refine ⟨time, by rw [hself], hexact.header, fun hc => hsteady.untimed ?_⟩
      rw [hself] at hc
      exact hc

/-- A chunk stream on which a message has been started has a known type. -/
theorem Keeps.known_step (hk : k.Keeps c) (hchunk : chunk.Valid)
    (hstart : k.Starts chunk → k.WellTimed chunk time) (id : UInt32)
    (h : ((k.step chunk time).streams id).time.isSome) :
    ((k.step chunk time).streams id).framing.msgTypeId ≠ .unknown := by
  by_cases hid : id = chunk.chunkStreamId
  · subst hid
    rw [step_framing, next_msgTypeId]
    by_cases hstarts : k.Starts chunk
    · rw [messageOf_of_starts hstarts]
      refine start_known _ hchunk.header ?_
      have hcarried := (hstart hstarts).carried
      cases hheader : chunk.header with
      | full _ _ _ _ => exact .inl rfl
      | sameStream _ _ _ | sameLengthAndStream _ =>
          simp only [Carries, hheader] at hcarried
          obtain ⟨last, hlast, -⟩ := hcarried
          exact .inr (hk.known _ (by rw [hlast]; rfl))
      | continuation =>
          simp only [Carries, hheader] at hcarried
          exact .inr (hk.known _ hcarried)
    · rw [messageOf_of_continues hstarts]
      rw [(step_of_continues hstarts).1] at h
      exact hk.known _ h
  · rw [step_of_ne hid] at h ⊢
    exact hk.known id h

/-- A message that is finished is delivered with the time it was started under. -/
theorem Resolves.delivered {q q' : RtmpPayloadParser} {payload : List UInt8} {msg : RtmpMessage}
    (hr : k.Resolves chunk recvInfo p)
    (htype : recvInfo.firstChunkHeader.msgTypeId =
      (k.streams chunk.chunkStreamId).framing.msgTypeId)
    (hknown : (k.streams chunk.chunkStreamId).framing.msgTypeId ≠ .unknown)
    (hq : q.Untimed)
    (hparse : q.parseMessage uninit recvInfo.firstChunkHeader payload = (.ok .complete, q'))
    (hmsg : q'.parsedMsg = some msg) :
    ∃ time, (k.streams chunk.chunkStreamId).time = some time ∧
      msg.header.absTimestamp.toNat = time := by
  obtain ⟨time, htime, habs, hcontrol⟩ := hr.entry
  refine ⟨time, htime, ?_⟩
  by_cases hc : recvInfo.firstChunkHeader.isControlMsg = true
  · rw [RtmpPayloadParser.parseMessage_untimed hparse hmsg hc hq, hcontrol]
    · rfl
    · simpa only [RtmpHeader.isControlMsg, Framing.IsControl, htype, decide_eq_true_eq] using hc
  · rw [RtmpPayloadParser.parseMessage_header hparse hmsg (by simpa using hc)
      (by rw [htype]; exact hknown), habs]

section Effect

variable (hk : k.Keeps c) (h : c.Effect uninit chunk c' out recvInfo p)

include hk h

theorem Keeps.framed_step (id : UInt32) :
    c'.Framed id ((k.step chunk time).streams id).framing := by
  by_cases hid : id = chunk.chunkStreamId
  · subst hid
    rw [step_framing]
    exact h.framed (hk.framed _)
  · rw [step_of_ne hid]
    exact h.framed_of_ne hid (hk.framed id)

theorem Keeps.lastDelta_step :
    c'.parsedHeader.timestampDelta = (k.step chunk time).lastDelta := by
  rw [h.parsedHeader, Clock.step, ← hk.lastDelta, Chunk.applyTo]
  cases chunk.header <;> rfl

/-- What the clock says after a chunk, when it says so of the chunk stream of the chunk. -/
theorem Keeps.of_effect (hresolves : (k.step chunk time).Resolves chunk recvInfo p)
    (hknown : ∀ id, ((k.step chunk time).streams id).time.isSome →
      ((k.step chunk time).streams id).framing.msgTypeId ≠ .unknown)
    (hinfo : ∀ info, c'.payloadParser.incompleteInfos chunk.chunkStreamId = some info →
      info.firstChunkHeader = recvInfo.firstChunkHeader)
    (huntimed : c'.payloadParser.Untimed) : (k.step chunk time).Keeps c' := by
  refine ⟨hk.framed_step h, hk.lastDelta_step h, ?_, ?_, ?_, ?_, hknown,
    fun id info hentry => ?_, huntimed⟩
  · rw [h.context]
    exact hresolves.previous
  · rw [h.context]
    exact hresolves.count
  · rw [h.channels]
    exact hresolves.time
  · rw [h.channels]
    exact hresolves.delta
  · by_cases hid : id = chunk.chunkStreamId
    · subst hid
      rw [hinfo info hentry]
      exact hresolves.entry
    · rw [(h.frame hid).2] at hentry
      rw [step_of_ne hid]
      exact hk.entries id info hentry

end Effect

/-- What the parser has read so far is kept in step with the clock, and what it delivers
has the time it was started under. -/
theorem Keeps.step (hk : k.Keeps c) (hchunk : chunk.Valid)
    (hstart : k.Starts chunk → k.WellTimed chunk time ∧ k.Steady chunk time)
    (h : c.accept uninit chunk = some (c', out)) :
    (k.step chunk time).Keeps c' ∧ ∀ msg ∈ out, ∃ time',
      ((k.step chunk time).streams chunk.chunkStreamId).time = some time' ∧
        msg.header.absTimestamp.toNat = time' := by
  obtain ⟨recvInfo, p, heffect⟩ := ParserCore.accept_effect h
  have hresolves := hk.resolves hstart heffect
  have hknown := hk.known_step hchunk (fun hs => (hstart hs).1)
  have huntimed := heffect.untimed hk.untimed
  by_cases hlast : p.thisMsgSize recvInfo = RtmpPayloadParser.needSize recvInfo
  · obtain ⟨hnone, q, q', msg, hq, hparse, hmsg, rfl, hcontrol⟩ := heffect.last hlast
    refine ⟨hk.of_effect heffect hresolves hknown (by simp [hnone]) huntimed, ?_⟩
    have hq : q.Untimed := by
      intro msg hmsg
      rw [hq] at hmsg
      exact hk.untimed msg hmsg
    simp only [List.mem_singleton, forall_eq]
    obtain ⟨-, -, htype, -⟩ := heffect.resolved (hk.framed chunk.chunkStreamId)
    obtain ⟨time', htime, -⟩ := hresolves.entry
    refine hresolves.delivered ?_ (hknown _ (by rw [htime]; rfl)) hq hparse hmsg
    rw [step_framing, next_msgTypeId, htype]
  · obtain ⟨rfl, -, hinfos⟩ := heffect.more hlast
    refine ⟨hk.of_effect heffect hresolves hknown (fun info hinfo => ?_) huntimed, by simp⟩
    rw [hinfos, Function.update_self] at hinfo
    cases hinfo
    rfl

/-- Every message delivered in a steady run has its true time. -/
theorem Keeps.deliveries (hk : k.Keeps c) (run : List (Chunk × Nat))
    (hrun : Runs (fun k chunk time => k.WellTimed chunk time ∧ k.Steady chunk time) k run) :
    ∀ d ∈ deliveries uninit k c run, d.2.header.absTimestamp.toNat = d.1 := by
  induction run generalizing k c with
  | nil => simp [Clock.deliveries]
  | cons step run ih =>
      obtain ⟨chunk, time⟩ := step
      obtain ⟨hchunk, hstart, hrest⟩ := hrun
      unfold Clock.deliveries
      cases haccept : c.accept uninit chunk with
      | none => simp
      | some r =>
          obtain ⟨c', out⟩ := r
          obtain ⟨hkeeps, hout⟩ := hk.step hchunk hstart haccept
          simp only [List.mem_append, List.mem_map]
          rintro d (⟨msg, hmsg, rfl⟩ | hd)
          · obtain ⟨time', htime, habs⟩ := hout msg hmsg
            rw [htime, habs]
            rfl
          · exact ih hkeeps hrest d hd

/-- The messages of a run that is read whole are those its chunks deliver. -/
theorem deliveries_of_acceptAll {run : List (Chunk × Nat)}
    (h : c.acceptAll uninit (run.map Prod.fst) = some (c', out)) :
    (Clock.deliveries uninit k c run).map Prod.snd = out := by
  induction run generalizing k c out with
  | nil =>
      cases h
      rfl
  | cons step run ih =>
      obtain ⟨chunk, time⟩ := step
      simp only [List.map_cons, ParserCore.acceptAll, Option.bind_eq_bind,
        Option.bind_eq_some_iff, Option.pure_def, Option.some.injEq, Prod.mk.injEq] at h
      obtain ⟨⟨c₁, first⟩, hfirst, ⟨c₂, others⟩, hothers, rfl, rfl⟩ := h
      simp only [Clock.deliveries, hfirst, List.map_append, List.map_map, ih hothers]
      congr 1
      exact List.map_id' first

/-- They are what a connection that receives the bytes of the run hands to its handler. -/
theorem handled_deliveries {run : List (Chunk × Nat)} (epoch : UInt32)
    (hchunks : ∀ chunk ∈ run.map Prod.fst, chunk.Valid)
    (hlast : ∀ last ∈ (run.map Prod.fst).getLast?, last.payload ≠ [])
    (h : (Connection.afterHandshake epoch).parser.acceptAll uninit (run.map Prod.fst) =
      some (c', out)) :
    ((Connection.afterHandshake epoch).run uninit
        [(run.map Prod.fst).flatMap Chunk.encode]).handled =
      (Clock.deliveries uninit k (Connection.afterHandshake epoch).parser.toParserCore
        run).map Prod.snd := by
  obtain ⟨hreaches, hbetween⟩ := ParserCore.acceptAll_reaches
    (⟨rfl, rfl⟩ : (Connection.afterHandshake epoch).parser.Between) hchunks h []
    (by simpa only [List.append_nil] using hlast)
  rw [List.append_nil] at hreaches
  rw [(Connection.run_of_reaches hreaches hbetween).2.1, deliveries_of_acceptAll h]

end Clock

open Clock in
/-- In a run that starts its messages where the parser is right about them, every message
delivered has the time it was sent at, over any number of rollovers. -/
theorem absTimestamps_exact (uninit : Uninit) (run : List (Chunk × Nat))
    (hrun : Runs (fun k chunk time => k.WellTimed chunk time ∧ k.Steady chunk time) {} run) :
    ∀ d ∈ deliveries uninit {} (Connection.afterHandshake 0).parser.toParserCore run,
      d.2.header.absTimestamp.toNat = d.1 :=
  Keeps.initial.deliveries run hrun

/-- A message of one byte in one chunk, with its time. -/
def byteAt (chunkStreamId : UInt32) (header : MessageHeader) (time : Nat) : Chunk × Nat :=
  ({ chunkStreamId, header, payload := [7] }, time)

/-- Audio and video that pass the rollover in the order of their times. -/
def acrossRollover : List (Chunk × Nat) :=
  [byteAt 4 (.full 4294967276 1 .audioData 1) 4294967276,
    byteAt 6 (.full 4294967281 1 .videoData 1) 4294967281,
    byteAt 4 (.full 5 1 .audioData 1) 4294967301,
    byteAt 6 (.full 6 1 .videoData 1) 4294967302,
    byteAt 4 (.sameLengthAndStream 10) 4294967311,
    byteAt 4 .continuation 4294967321]

open Clock in
theorem acrossRollover_exact :
    (deliveries (fun _ => 0) {} (Connection.afterHandshake 0).parser.toParserCore
        acrossRollover).length = 6 ∧
      ∀ d ∈ deliveries (fun _ => 0) {} (Connection.afterHandshake 0).parser.toParserCore
        acrossRollover, d.2.header.absTimestamp.toNat = d.1 :=
  ⟨by decide +kernel, absTimestamps_exact (fun _ => 0) acrossRollover (by decide +kernel)⟩

/-- Video passes the rollover before the last audio message from before it. -/
def lateAudio : List (Chunk × Nat) :=
  [byteAt 4 (.full 4294967286 1 .audioData 1) 4294967286,
    byteAt 6 (.full 5 1 .videoData 1) 4294967301,
    byteAt 4 (.full 4294967291 1 .audioData 1) 4294967291]

open Clock in
/-- The late audio message is delivered an epoch late. -/
theorem lateAudio_ahead :
    Runs WellTimed {} lateAudio ∧
      (deliveries (fun _ => 0) {} (Connection.afterHandshake 0).parser.toParserCore
        lateAudio).map (fun d => (d.1, d.2.header.absTimestamp.toNat)) =
          [(4294967286, 4294967286), (4294967301, 4294967301), (4294967291, 8589934587)] := by
  decide +kernel

end Rtmp
