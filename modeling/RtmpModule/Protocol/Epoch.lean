import RtmpModule.Protocol.Isolation
import RtmpModule.Sna.Unrolling

/-!
# The handshake epoch

The time value of C1 is stored where the parser keeps the timestamp of the last message.
The first type 0 header of the connection is therefore compared with it in serial number
order: a timestamp more than half of the circle below the epoch passes for the far side
of a rollover, and the connection starts out one epoch late.
-/

namespace Rtmp

open AMF0Serializer Sna

/-- A timestamp passes for one beyond the rollover exactly when it lies more than half of
the circle below the one before. -/
theorem Sna.isRolledOver_iff (pre next : UInt32) :
    isRolledOver (serialnumber pre.toNat) (serialnumber next.toNat) = true ↔
      next.toNat + 2 ^ 31 < pre.toNat := by
  have hpre := pre.toNat_lt
  have hnext := next.toNat_lt
  rw [isRolledOver, SerialNumber.gt, Bool.and_eq_true, Bool.and_eq_true, Bool.or_eq_true,
    decide_eq_true_iff, decide_eq_true_iff, decide_eq_true_iff, decide_eq_true_iff,
    number_serialnumber, number_serialnumber]
  simp only [serialnumber, true_and, Nat.reduceSub, Nat.reducePow]
  omega

namespace RtmpPayloadParser

section First

variable {header : RtmpHeader} {channel : ChannelInfo} {context : RolloverContext}

/-- Before any rollover a type 0 header keeps its timestamp, or is resolved one epoch late
and counts a rollover. -/
theorem startFull_first (hcount : context.rolloverCount = 0) :
    (context.lastMessageTimestamp.toNat ≤ header.timestamp.toNat + 2 ^ 31 ∧
        (startFull header channel context).context.rolloverCount = 0 ∧
        (startFull header channel context).header.absTimestamp.toNat =
          header.timestamp.toNat) ∨
      (header.timestamp.toNat + 2 ^ 31 < context.lastMessageTimestamp.toNat ∧
        (startFull header channel context).context.rolloverCount = 1 ∧
        (startFull header channel context).header.absTimestamp.toNat =
          2 ^ 32 + header.timestamp.toNat) := by
  have hrolled := isRolledOver_iff context.lastMessageTimestamp header.timestamp
  have hmod : header.timestamp.toNat % 2 ^ 32 = header.timestamp.toNat :=
    Nat.mod_eq_of_lt header.timestamp.toNat_lt
  simp only [startFull, unrollAfter, hcount]
  by_cases hlt : header.timestamp.toNat + 2 ^ 31 < context.lastMessageTimestamp.toNat
  · rw [if_pos (hrolled.mpr hlt)]
    refine .inr ⟨hlt, rfl, ?_⟩
    rw [toNat_unroll _ _ (by decide), hmod]
    rfl
  · rw [if_neg (mt hrolled.mp hlt)]
    refine .inl ⟨Nat.le_of_not_lt hlt, rfl, ?_⟩
    rw [toNat_unroll _ _ (by decide), hmod]
    exact Nat.zero_add _

/-- A type 0 header needs no table to start a message. -/
theorem started_full {started : Started} (hfull : header.formatType = .full)
    (h : startTimestamp (resolveLength header channel).1 (resolveLength header channel).2 context =
      .ok started) : ∃ channel', started = startFull header channel' context := by
  have hhas : header.hasMsgLenAndType = true := by simp [RtmpHeader.hasMsgLenAndType, hfull]
  rw [resolveLength, if_pos hhas] at h
  simp only [startTimestamp, hfull] at h
  cases h
  exact ⟨_, rfl⟩

end First

variable {p p' : RtmpPayloadParser} {uninit : Uninit} {firstHeader : RtmpHeader}
  {payload : List UInt8} {msg : RtmpMessage}

/-- A message has the time of its first chunk, unless it is a control message. -/
theorem parseMessage_absTimestamp
    (h : p.parseMessage uninit firstHeader payload = (.ok .complete, p'))
    (hmsg : p'.parsedMsg = some msg) (hknown : firstHeader.msgTypeId ≠ .unknown)
    (hp : p.Untimed) :
    msg.header.absTimestamp = if firstHeader.isControlMsg then 0 else firstHeader.absTimestamp := by
  by_cases hcontrol : firstHeader.isControlMsg = true
  · rw [if_pos hcontrol]
    exact parseMessage_untimed h hmsg hcontrol hp
  · rw [if_neg hcontrol, parseMessage_header h hmsg (by simpa using hcontrol) hknown]

end RtmpPayloadParser

namespace ParserCore

variable {uninit : Uninit} {c c' : ParserCore} {chunk : Chunk} {chunks : List Chunk}
  {out : List RtmpMessage} {recvInfo : ReceivedPayloadInfo} {p : RtmpPayloadParser}
  {id : UInt32} {d : Delivery} {ds : List Delivery} {first : RtmpHeader}

/-- A chunk leaves its message unfinished under the header it had, or delivers it with
the time of that header. -/
theorem Effect.out_cases (h : c.Effect uninit chunk c' out recvInfo p)
    (hc : c.payloadParser.Untimed) (hknown : recvInfo.firstChunkHeader.msgTypeId ≠ .unknown) :
    (out = [] ∧ ∃ info, c'.payloadParser.incompleteInfos chunk.chunkStreamId = some info ∧
        info.firstChunkHeader = recvInfo.firstChunkHeader) ∨
      ∃ msg, out = [msg] ∧ msg.header.absTimestamp =
        if recvInfo.firstChunkHeader.isControlMsg then 0
        else recvInfo.firstChunkHeader.absTimestamp := by
  by_cases hlast : p.thisMsgSize recvInfo = RtmpPayloadParser.needSize recvInfo
  · obtain ⟨-, q, q', msg, hq, hparse, hmsg, rfl, -⟩ := h.last hlast
    have huntimed : q.Untimed := by
      intro msg hmsg
      rw [hq] at hmsg
      exact hc msg hmsg
    exact .inr ⟨msg, rfl, RtmpPayloadParser.parseMessage_absTimestamp hparse hmsg hknown huntimed⟩
  · obtain ⟨rfl, -, hinfos⟩ := h.more hlast
    rw [hinfos]
    exact .inl ⟨rfl, _, Function.update_self .., rfl⟩

/-- The message in progress on a chunk stream is the next one it delivers. -/
theorem deliveriesOn_head (hc : c.payloadParser.Untimed)
    (hentry : ∃ info, c.payloadParser.incompleteInfos id = some info ∧
      info.firstChunkHeader = first)
    (hknown : first.msgTypeId ≠ .unknown)
    (h : c.deliveriesOn uninit id chunks = some (d :: ds)) :
    d.message.header.absTimestamp = if first.isControlMsg then 0 else first.absTimestamp := by
  induction chunks generalizing c with
  | nil => cases h
  | cons chunk chunks ih =>
      obtain ⟨c', out, recvInfo, p, rest, heffect, hrest, hds⟩ := deliveriesOn_cons h
      have huntimed := heffect.untimed hc
      by_cases hid : chunk.chunkStreamId = id
      · subst hid
        obtain ⟨info, hinfo, rfl⟩ := hentry
        obtain rfl : recvInfo = info := by
          rcases heffect.cases with ⟨hbusy, -⟩ | ⟨hidle, -⟩
          · rw [hbusy] at hinfo
            cases hinfo
            rfl
          · rw [hidle] at hinfo
            cases hinfo
        rcases heffect.out_cases hc hknown with ⟨rfl, hmore⟩ | ⟨msg, rfl, htime⟩
        · rw [if_pos rfl, List.map_nil, List.nil_append] at hds
          subst hds
          exact ih huntimed hmore hrest
        · rw [if_pos rfl, List.map_singleton, List.singleton_append] at hds
          cases hds
          exact htime
      · rw [if_neg hid, List.nil_append] at hds
        subst hds
        obtain ⟨info, hinfo, hfirst⟩ := hentry
        have hentry' := (heffect.frame (Ne.symm hid)).2
        exact ih huntimed ⟨info, hentry'.trans hinfo, hfirst⟩ hrest

/-- A chunk of the chunk stream itself comes before the deliveries of the others. -/
theorem deliveriesOn_own
    (h : c.deliveriesOn uninit chunk.chunkStreamId (chunk :: chunks) = some ds) :
    ∃ c' out, c.accept uninit chunk = some (c', out) ∧
      ∃ rest, c'.deliveriesOn uninit chunk.chunkStreamId chunks = some rest ∧
        (out = [] → ds = rest) ∧ ∀ msg, out = [msg] → ∃ d, d.message = msg ∧ ds = d :: rest := by
  simp only [deliveriesOn, Option.bind_eq_bind, Option.bind_eq_some_iff, Option.pure_def,
    Option.some.injEq, ↓reduceIte] at h
  obtain ⟨⟨c', out⟩, haccept, rest, hrest, rfl⟩ := h
  obtain ⟨recvInfo, p, heffect⟩ := accept_effect haccept
  have hextended : c.extended chunk =
      some { recvInfo with recvBuf := recvInfo.recvBuf ++ chunk.payload } := by
    simp only [extended, heffect.found]
  refine ⟨c', out, haccept, rest, hrest, ?_, ?_⟩
  · rintro rfl
    simp [hextended]
  · rintro msg rfl
    exact ⟨⟨_, msg⟩, rfl, by rw [hextended]; rfl⟩

end ParserCore

/-- What the first chunk of a connection leaves behind, if it has a type 0 header: the
header of its message, resolved against the epoch. -/
theorem ParserCore.Effect.first {uninit : Uninit} {epoch : UInt32} {chunk : Chunk}
    {c' : ParserCore} {out : List RtmpMessage} {recvInfo : ReceivedPayloadInfo}
    {p : RtmpPayloadParser}
    (h : (Connection.afterHandshake epoch).parser.Effect uninit chunk c' out recvInfo p)
    {timestamp msgLength msgStreamId : UInt32} {msgTypeId : MsgTypeId}
    (hheader : chunk.header = .full timestamp msgLength msgTypeId msgStreamId) :
    recvInfo.firstChunkHeader.msgTypeId = msgTypeId ∧
      ((epoch.toNat ≤ timestamp.toNat + 2 ^ 31 ∧
          c'.payloadParser.context.rolloverCount = 0 ∧
          recvInfo.firstChunkHeader.absTimestamp.toNat = timestamp.toNat) ∨
        (timestamp.toNat + 2 ^ 31 < epoch.toNat ∧
          c'.payloadParser.context.rolloverCount = 1 ∧
          recvInfo.firstChunkHeader.absTimestamp.toNat = 2 ^ 32 + timestamp.toNat)) := by
  rcases h.cases with ⟨hbusy, -⟩ | ⟨-, started, hstarted, hinfo, hp⟩
  · cases hbusy
  · obtain ⟨channel, rfl⟩ := RtmpPayloadParser.started_full (by rw [Chunk.applyTo, hheader]; rfl)
      hstarted
    have hcases := @RtmpPayloadParser.startFull_first
      (chunk.applyTo (Connection.afterHandshake epoch).parser.parsedHeader) channel
      (Connection.afterHandshake epoch).parser.payloadParser.context rfl
    have htimestamp : (chunk.applyTo
        (Connection.afterHandshake epoch).parser.parsedHeader).timestamp = timestamp := by
      rw [Chunk.applyTo, hheader]
      rfl
    rw [htimestamp] at hcases
    rw [h.context, hp, hinfo]
    refine ⟨?_, hcases⟩
    simp only [RtmpPayloadParser.startFull, Chunk.applyTo, hheader, MessageHeader.applyTo]

/-- A rollover is counted at the first chunk exactly where the epoch is too far ahead, and
without one the timestamp is that of the header. -/
theorem ParserCore.Effect.first_rollover {uninit : Uninit} {epoch : UInt32} {chunk : Chunk}
    {c' : ParserCore} {out : List RtmpMessage} {recvInfo : ReceivedPayloadInfo}
    {p : RtmpPayloadParser}
    (h : (Connection.afterHandshake epoch).parser.Effect uninit chunk c' out recvInfo p)
    {timestamp msgLength msgStreamId : UInt32} {msgTypeId : MsgTypeId}
    (hheader : chunk.header = .full timestamp msgLength msgTypeId msgStreamId) :
    (c'.payloadParser.context.rolloverCount = 0 ↔ epoch.toNat ≤ timestamp.toNat + 2 ^ 31) ∧
      (c'.payloadParser.context.rolloverCount = 0 →
        recvInfo.firstChunkHeader.absTimestamp.toNat = timestamp.toNat) := by
  rcases (h.first hheader).2 with ⟨hle, hcount, htime⟩ | ⟨hlt, hcount, -⟩
  · exact ⟨iff_of_true hcount hle, fun _ => htime⟩
  · have hcounted : c'.payloadParser.context.rolloverCount ≠ 0 := by
      rw [hcount]
      decide
    exact ⟨iff_of_false hcounted (Nat.not_le_of_lt hlt), fun h => absurd h hcounted⟩

/-- The first message that a chunk stream delivers has the time of the header that its
first chunk began, whether this chunk delivers it or a later one does. A control message
has time 0. -/
theorem ParserCore.Effect.first_delivered {uninit : Uninit} {c c' : ParserCore} {chunk : Chunk}
    {out : List RtmpMessage} {recvInfo : ReceivedPayloadInfo} {p : RtmpPayloadParser}
    (h : c.Effect uninit chunk c' out recvInfo p) (haccept : c.accept uninit chunk = some (c', out))
    (huntimed : c.payloadParser.Untimed)
    (hknown : recvInfo.firstChunkHeader.msgTypeId ≠ .unknown)
    {more : List Chunk} {d : Delivery} {ds : List Delivery}
    (hdelivered : c.deliveriesOn uninit chunk.chunkStreamId (chunk :: more) = some (d :: ds)) :
    d.message.header.absTimestamp =
      if recvInfo.firstChunkHeader.isControlMsg then 0
      else recvInfo.firstChunkHeader.absTimestamp := by
  obtain ⟨c'', out', haccept', rest, hrest, hnone, hsome⟩ := deliveriesOn_own hdelivered
  obtain ⟨rfl, rfl⟩ := Prod.mk.inj (Option.some.inj (haccept'.symm.trans haccept))
  rcases h.out_cases huntimed hknown with ⟨hout, hmore⟩ | ⟨msg, hout, htime⟩
  · have hrest' := hnone hout ▸ hrest
    exact deliveriesOn_head (h.untimed huntimed) hmore hknown hrest'
  · obtain ⟨d', hd', hds⟩ := hsome msg hout
    cases hds
    rw [hd', htime]

/-- The first message of a connection, on whatever chunk stream and however long it takes
to arrive, has the timestamp of its type 0 header, and no rollover is counted, exactly when
the epoch of the client is not more than half of the circle beyond that timestamp. A
control message is delivered without its header and has time 0. -/
theorem epoch_iff (uninit : Uninit)
    (epoch timestamp msgLength msgStreamId : UInt32) (msgTypeId : MsgTypeId) {first : Chunk}
    (hvalid : first.Valid) (hheader : first.header = .full timestamp msgLength msgTypeId msgStreamId)
    {more : List Chunk} {d : Delivery} {ds : List Delivery}
    (hdelivered : (Connection.afterHandshake epoch).parser.deliveriesOn uninit
      first.chunkStreamId (first :: more) = some (d :: ds)) :
    ∃ c out, (Connection.afterHandshake epoch).parser.accept uninit first = some (c, out) ∧
      (d.message.header.absTimestamp.toNat = timestamp.toNat ∧
          c.payloadParser.context.rolloverCount = 0 ↔
        epoch.toNat ≤ timestamp.toNat + 2 ^ 31 ∧
          (1 ≤ msgTypeId.code ∧ msgTypeId.code ≤ 7 → timestamp = 0)) := by
  obtain ⟨c, out, haccept, -⟩ := ParserCore.deliveriesOn_own hdelivered
  obtain ⟨recvInfo, p, heffect⟩ := ParserCore.accept_effect haccept
  have huntimed : (Connection.afterHandshake epoch).parser.payloadParser.Untimed :=
    fun _ h => nomatch h
  have htype := (heffect.first hheader).1
  obtain ⟨hcount, hkept⟩ := heffect.first_rollover hheader
  have hknown : recvInfo.firstChunkHeader.msgTypeId ≠ .unknown := by
    have hvalid := hvalid.header
    rw [hheader] at hvalid
    rw [htype]
    exact hvalid.2
  have htime := heffect.first_delivered haccept huntimed hknown hdelivered
  rw [RtmpHeader.isControlMsg, htype] at htime
  refine ⟨c, out, haccept, ?_⟩
  by_cases hcontrol : 1 ≤ msgTypeId.code ∧ msgTypeId.code ≤ 7
  · have hzero : d.message.header.absTimestamp.toNat = 0 := by
      rw [htime, if_pos (decide_eq_true hcontrol)]
      rfl
    have htimestamp : 0 = timestamp.toNat ↔ timestamp = 0 := by
      rw [eq_comm, ← UInt32.toNat_inj]
      rfl
    rw [hzero, htimestamp, hcount]
    tauto
  · have habs : d.message.header.absTimestamp = recvInfo.firstChunkHeader.absTimestamp := by
      rw [htime, if_neg (by simpa using hcontrol)]
    rw [habs, ← hcount]
    tauto

/-- An audio message of one byte at time 0. -/
def firstAudio : Chunk :=
  { chunkStreamId := 4, header := .full 0 1 .audioData 1, payload := [7] }

theorem epoch_iff_firstAudio :
    ∃ d ds, (Connection.afterHandshake 1000).parser.deliveriesOn (fun _ => 0)
        firstAudio.chunkStreamId [firstAudio] = some (d :: ds) ∧ firstAudio.Valid ∧
      ∃ c out, (Connection.afterHandshake 1000).parser.accept (fun _ => 0) firstAudio =
          some (c, out) ∧
        (d.message.header.absTimestamp.toNat = (0 : UInt32).toNat ∧
            c.payloadParser.context.rolloverCount = 0 ↔
          (1000 : UInt32).toNat ≤ (0 : UInt32).toNat + 2 ^ 31 ∧
            (1 ≤ MsgTypeId.audioData.code ∧ MsgTypeId.audioData.code ≤ 7 → (0 : UInt32) = 0)) := by
  have hdelivered : ∃ d ds, (Connection.afterHandshake 1000).parser.deliveriesOn (fun _ => 0)
      firstAudio.chunkStreamId [firstAudio] = some (d :: ds) :=
    ⟨_, _, rfl⟩
  obtain ⟨d, ds, hdelivered⟩ := hdelivered
  exact ⟨d, ds, hdelivered, by decide, epoch_iff (fun _ => 0) 1000 0 1 1 .audioData
    (by decide) rfl hdelivered⟩

/-- An epoch of the second half of the circle fakes a rollover at time 0. -/
theorem not_epoch_firstAudio :
    ¬ ∀ epoch : UInt32, ∀ d ∈ ((Connection.afterHandshake epoch).parser.deliveriesOn (fun _ => 0)
      firstAudio.chunkStreamId [firstAudio]).getD [], d.message.header.absTimestamp = 0 := by
  intro hkept
  have hfaked := hkept 3000000000
  revert hfaked
  decide +kernel

end Rtmp
