import RtmpModule.Logic.EndOfPublish
import RtmpModule.Logic.Ingest

/-!
# A live session

A client sends its headers and its media and leaves, and the streamer grants every
request. As soon as both headers and a frame of each kind are there, nothing waits
any more: behind every message all frames so far have been uploaded. The disconnect
ends the publish, and by then the streamer has every access unit.
-/

namespace Rtmp

/-- What a call of `publish_to_streamer` leaves alone. -/
structure SameMedia (context context' : MediaPublishEsContext) : Prop where
  audioInitEs : context'.audioInitEs = context.audioInitEs
  videoInitEs : context'.videoInitEs = context.videoInitEs
  audioFrameNumber : context'.audioFrameNumber = context.audioFrameNumber
  videoFrameNumber : context'.videoFrameNumber = context.videoFrameNumber
  ending : context'.ending = context.ending

namespace SameMedia

theorem refl (context : MediaPublishEsContext) : SameMedia context context :=
  ⟨rfl, rfl, rfl, rfl, rfl⟩

theorem trans {c₁ c₂ c₃ : MediaPublishEsContext} (h : SameMedia c₁ c₂) (h' : SameMedia c₂ c₃) :
    SameMedia c₁ c₃ where
  audioInitEs := h'.audioInitEs.trans h.audioInitEs
  videoInitEs := h'.videoInitEs.trans h.videoInitEs
  audioFrameNumber := h'.audioFrameNumber.trans h.audioFrameNumber
  videoFrameNumber := h'.videoFrameNumber.trans h.videoFrameNumber
  ending := h'.ending.trans h.ending

theorem readyToSend {c c' : MediaPublishEsContext} (h : SameMedia c c') :
    c'.readyToSend = c.readyToSend := by
  rw [MediaPublishEsContext.readyToSend, h.audioInitEs, h.videoInitEs, h.audioFrameNumber,
    h.videoFrameNumber, MediaPublishEsContext.readyToSend]

end SameMedia

theorem PublishAct.sameMedia {p q : Publisher} (h : PublishAct p q) :
    SameMedia p.context q.context := by
  cases h <;> exact ⟨rfl, rfl, rfl, rfl, rfl⟩

theorem acts_sameMedia {p q : Publisher} (h : Relation.ReflTransGen PublishAct p q) :
    SameMedia p.context q.context := by
  induction h with
  | refl => exact .refl _
  | tail _ hact ih => exact ih.trans hact.sameMedia

/-- How many units there are of a type. -/
def unitCount (type : MediaEsType) (units : List AccessUnit) : Nat :=
  units.countP fun unit => unit.type = type

section Effects

variable {context : MediaPublishEsContext} {t : TimedPacket} {r : Processed}

/-- Codec information stays, and a header brings it. -/
theorem PacketEffect.audioConfig (h : PacketEffect context t r)
    (hconfig : context.audioInitEs.codecInfo ≠ [] ∨ t.HasAudioConfig) :
    r.context.audioInitEs.codecInfo ≠ [] := by
  cases h with
  | audioInit init hinfo hvideo hunit => exact hinfo
  | _ => exact hconfig.resolve_right ‹¬ t.HasAudioConfig›

theorem PacketEffect.videoConfig (h : PacketEffect context t r)
    (hconfig : context.videoInitEs.codecInfo ≠ [] ∨ t.HasVideoConfig) :
    r.context.videoInitEs.codecInfo ≠ [] := by
  cases h with
  | videoInit init size hinfo haudio hunit => exact hinfo
  | _ => exact hconfig.resolve_right ‹¬ t.HasVideoConfig›

/-- The frame of a unit is counted with those of its type. -/
theorem PacketEffect.frameNumbers (h : PacketEffect context t r) :
    r.context.audioFrameNumber = context.audioFrameNumber +
        UInt64.ofNat (unitCount .audio (t.usableUnit context.firstVideoKeyFrameSent).toList) ∧
      r.context.videoFrameNumber = context.videoFrameNumber +
        UInt64.ofNat (unitCount .video (t.usableUnit context.firstVideoKeyFrameSent).toList) := by
  cases h with
  | audioFrame unit haudio hvideo htype hkey hunit =>
      rw [hunit]
      simp [unitCount, htype, FlvMessage.accepted, FlvMessage.pushFrame]
  | videoFrame unit haudio hvideo htype hgate hunit =>
      rw [hunit]
      simp [unitCount, htype, FlvMessage.accepted, FlvMessage.pushFrame]
  | _ =>
      rw [‹t.usableUnit context.firstVideoKeyFrameSent = none›]
      simp [unitCount, FlvMessage.accepted, FlvMessage.refused]

/-- Only an end of sequence ends the video, and a message that is refused does nothing. -/
theorem PacketEffect.ending (h : PacketEffect context t r) (hend : t.isEnd = false) :
    r.context.ending = context.ending ∧ (r.ret = false → r.context = context) := by
  cases h with
  | refused haudio hvideo hunit => exact ⟨rfl, fun _ => rfl⟩
  | eos eos haudio hvideo heos hunit =>
      rw [hend] at heos
      cases heos
  | _ => exact ⟨rfl, fun hret => by cases hret⟩

end Effects

/-- The media part of a context, against the packets so far. -/
structure MediaOf (packets : List TimedPacket) (context : MediaPublishEsContext) : Prop where
  audioConfig : (∃ t ∈ packets, t.HasAudioConfig) → context.audioInitEs.codecInfo ≠ []
  videoConfig : (∃ t ∈ packets, t.HasVideoConfig) → context.videoInitEs.codecInfo ≠ []
  audioFrames : context.audioFrameNumber =
    UInt64.ofNat (unitCount .audio (accessUnits packets))
  videoFrames : context.videoFrameNumber =
    UInt64.ofNat (unitCount .video (accessUnits packets))

namespace MediaOf

variable {packets : List TimedPacket} {context context' : MediaPublishEsContext}

theorem initial : MediaOf [] {} where
  audioConfig := by simp
  videoConfig := by simp
  audioFrames := rfl
  videoFrames := rfl

theorem same (h : MediaOf packets context) (hsame : SameMedia context context') :
    MediaOf packets context' where
  audioConfig := by
    rw [hsame.audioInitEs]
    exact h.audioConfig
  videoConfig := by
    rw [hsame.videoInitEs]
    exact h.videoConfig
  audioFrames := hsame.audioFrameNumber.trans h.audioFrames
  videoFrames := hsame.videoFrameNumber.trans h.videoFrames

theorem unitCount_concat (type : MediaEsType) (t : TimedPacket) :
    unitCount type (accessUnits (packets ++ [t])) = unitCount type (accessUnits packets) +
      unitCount type (t.usableUnit (packets.any (·.isKeyFrame))).toList := by
  rw [accessUnits_concat, unitCount, List.countP_append]
  rfl

theorem packet (h : MediaOf packets context) {t : TimedPacket} {r : Processed}
    (hseen : context.firstVideoKeyFrameSent = packets.any (·.isKeyFrame))
    (heffect : PacketEffect context t r) : MediaOf (packets ++ [t]) r.context := by
  have hconfig : ∀ P : TimedPacket → Prop, (∃ t' ∈ packets ++ [t], P t') →
      (∃ t' ∈ packets, P t') ∨ P t := by
    intro P
    simp [or_and_right, exists_or]
  obtain ⟨haudio, hvideo⟩ := heffect.frameNumbers
  rw [hseen] at haudio hvideo
  refine ⟨?_, ?_, ?_, ?_⟩
  · exact fun hsome => heffect.audioConfig ((hconfig _ hsome).imp_left h.audioConfig)
  · exact fun hsome => heffect.videoConfig ((hconfig _ hsome).imp_left h.videoConfig)
  · rw [haudio, h.audioFrames, unitCount_concat, UInt64.ofNat_add]
  · rw [hvideo, h.videoFrames, unitCount_concat, UInt64.ofNat_add]

end MediaOf

/-- What a stream needs before its frames can be uploaded: both headers, and a unit of each
type, of which there are fewer than 2^64. -/
structure Playable (packets : List TimedPacket) : Prop where
  audioConfig : ∃ t ∈ packets, t.HasAudioConfig
  videoConfig : ∃ t ∈ packets, t.HasVideoConfig
  audio : ∃ unit ∈ accessUnits packets, unit.type = .audio
  video : ∃ unit ∈ accessUnits packets, unit.type = .video
  few : (accessUnits packets).length < 2 ^ 64

theorem one_le_ofNat {n : Nat} (hpos : 0 < n) (hlt : n < 2 ^ 64) : 1 ≤ UInt64.ofNat n := by
  rw [UInt64.le_iff_toNat_le, UInt64.toNat_ofNat', Nat.mod_eq_of_lt hlt]
  exact hpos

theorem Playable.readyToSend {packets : List TimedPacket} {context : MediaPublishEsContext}
    (h : Playable packets) (hmedia : MediaOf packets context) : context.readyToSend = true := by
  have hcount : ∀ type, (∃ unit ∈ accessUnits packets, unit.type = type) →
      1 ≤ UInt64.ofNat (unitCount type (accessUnits packets)) := by
    intro type hunit
    have hpos : 0 < unitCount type (accessUnits packets) := by
      rw [unitCount, List.countP_pos_iff]
      simpa using hunit
    have hle : unitCount type (accessUnits packets) ≤ (accessUnits packets).length :=
      List.countP_le_length
    exact one_le_ofNat hpos (hle.trans_lt h.few)
  refine (MediaPublishEsContext.readyToSend_iff context).mpr ⟨?_, ?_, ?_, ?_⟩
  · exact hmedia.audioConfig h.audioConfig
  · exact hmedia.videoConfig h.videoConfig
  · exact hmedia.videoFrames ▸ hcount .video h.video
  · exact hmedia.audioFrames ▸ hcount .audio h.audio

/-- A publish that was begun at most once and is not ended, behind the packets so far. -/
structure Going (packets : List TimedPacket) (p : Publisher) : Prop where
  ingested : Ingested packets p
  sound : p.summary.Sound
  once : p.summary.Once
  state : p.context.publishState ≠ .ended

/-- A publish in the middle of its media: when it is ready to send, nothing waits. -/
structure Streaming (packets : List TimedPacket) (p : Publisher) : Prop
    extends Going packets p where
  media : MediaOf packets p.context
  ending : p.context.ending = false
  flushed : p.context.readyToSend = true →
    p.context.publishState = .publishing ∧ p.context.mediaEs = []

section Calls

variable {http : List PublishCall → HttpRequest → HttpResult} {json : List UInt8 → JsonDocument}
variable {packets : List TimedPacket} {p : Publisher}

theorem Streaming.initial : Streaming [] {} where
  ingested := Ingested.initial
  sound := ⟨rfl, fun hended => by cases hended⟩
  once := rfl
  state := by simp
  media := MediaOf.initial
  ending := rfl
  flushed hready := by cases hready

theorem PublishSummary.flushed_of_ready {s : PublishSummary} (hstate : s.state ≠ .ended)
    (hready : s.ready = true) : s.flushed.state = .publishing ∧ s.flushed.waiting = [] := by
  obtain ⟨state, waiting, ready, ending, begins, ends⟩ := s
  cases hready
  cases state <;> simp_all [flushed, begun, inited, uploaded]

/-- A granted call without an end flag sends what is ready, and goes on. -/
theorem Going.publish (hg : Grants http json) (h : Going packets p)
    (hmedia : MediaOf packets p.context) (hending : p.context.ending = false) :
    ∃ q, p.publishToStreamer http json = .ok q ∧ Streaming packets q := by
  obtain ⟨q, hq, hsummary⟩ := hg.publishToStreamer p
  have hacts := Publisher.publishToStreamer_acts hq
  have hsame := acts_sameMedia hacts
  have hflushed : p.summary.publish = p.summary.flushed := by
    apply PublishSummary.publish_of_waiting
    rintro ⟨-, hflag⟩
    rw [show p.summary.ending = false from hending] at hflag
    cases hflag
  have hstate : q.context.publishState = p.summary.flushed.state := by
    rw [← hflushed, ← hsummary]
    rfl
  have hwaiting : q.context.mediaEs = p.summary.flushed.waiting := by
    rw [← hflushed, ← hsummary]
    rfl
  refine ⟨q, hq, ⟨h.ingested.acts hacts, ?_, ?_, ?_⟩, hmedia.same hsame, ?_, ?_⟩
  · rw [hsummary]
    exact PublishSummary.publish_sound h.sound
  · rw [hsummary]
    exact PublishSummary.publish_once h.once fun hended => absurd hended h.state
  · rw [hstate]
    exact (PublishSummary.flushed_of_not_ended h.state).2.1
  · exact hsame.ending.trans hending
  · intro hready
    rw [hsame.readyToSend] at hready
    rw [hstate, hwaiting]
    exact PublishSummary.flushed_of_ready h.state hready

/-- What is prepared for an event goes on with the same publish. -/
theorem Going.prepares (h : Going packets p) {context : MediaPublishEsContext}
    (hprepares : Prepares p.context context) {packets' : List TimedPacket}
    (hingested : Ingested packets' { p with context }) : Going packets' { p with context } where
  ingested := hingested
  sound := RtmpHandler.prepares_sound hprepares h.sound
  once := RtmpHandler.prepares_once hprepares h.once
  state := hprepares.publishState ▸ h.state

end Calls

namespace ClientStep

/-- What a client does in the middle of its media. -/
def Live : ClientStep → Prop
  | media _ packet => packet.isEnd = false
  | request message _ => ∀ transactionId streamId,
      message.body ≠ .deleteStream transactionId streamId
  | disconnect => False

/-- Messages other than media. -/
def Closing : ClientStep → Prop
  | request .. => True
  | _ => False

end ClientStep

section Steps

variable {http : List PublishCall → HttpRequest → HttpResult} {json : List UInt8 → JsonDocument}
variable {packets : List TimedPacket} {p : Publisher}

theorem answer_sameMedia {context : MediaPublishEsContext} (header : RtmpHeader)
    {body : MessageBody} (hending : context.ending = false)
    (hbody : ∀ transactionId streamId, body ≠ .deleteStream transactionId streamId) :
    SameMedia context (RtmpHandler.answer context header body).1 := by
  cases body with
  | createStream transactionId =>
      refine ⟨rfl, rfl, rfl, rfl, ?_⟩
      rw [hending]
      exact (Bool.or_eq_false_iff.mp hending).2
  | deleteStream transactionId streamId => exact absurd rfl (hbody transactionId streamId)
  | _ => exact ⟨rfl, rfl, rfl, rfl, rfl⟩

theorem answer_mediaEs (context : MediaPublishEsContext) (header : RtmpHeader)
    (body : MessageBody) :
    (RtmpHandler.answer context header body).1.mediaEs = context.mediaEs := by
  cases body <;> rfl

/-- One step in the middle of the media. -/
theorem Streaming.step (hg : Grants http json) (h : Streaming packets p) {step : ClientStep}
    (hstep : step.Live) :
    ∃ q, RtmpHandler.onEvent http json p step.event = .ok q ∧
      Streaming (packets ++ step.packet?.toList) q := by
  cases step with
  | media header t =>
      obtain ⟨r, hprepare, heffect⟩ := prepare_packet p.context header t
      have hprepares := RtmpHandler.prepare_prepares hprepare
      have hgoing := h.toGoing.prepares hprepares (h.ingested.media hprepare heffect)
      have hmedia := h.media.packet h.ingested.seen heffect
      obtain ⟨hending, hrefused⟩ := heffect.ending hstep
      rw [ClientStep.event, RtmpHandler.onEvent_eq, hprepare]
      cases hret : r.ret with
      | true => exact hgoing.publish hg hmedia (hending.trans h.ending)
      | false =>
          refine ⟨_, rfl, hgoing, hmedia, hending.trans h.ending, ?_⟩
          change r.context.readyToSend = true → _
          rw [hrefused hret]
          exact h.flushed
  | request message other =>
      obtain ⟨context, publishes, hprepare, hingested⟩ :=
        h.ingested.prepare (.request message other)
      have hprepares := RtmpHandler.prepare_prepares hprepare
      have hanswer := prepare_other p.context message other
      cases hanswer.symm.trans hprepare
      have hsame := answer_sameMedia message.header h.ending hstep
      refine ⟨_, by rw [ClientStep.event, RtmpHandler.onEvent_eq, hanswer]; rfl,
        h.toGoing.prepares hprepares hingested, ?_, hsame.ending.trans h.ending, ?_⟩
      · rw [ClientStep.packet?, Option.toList_none, List.append_nil]
        exact h.media.same hsame
      · change SameMedia p.context _ at hsame
        intro hready
        rw [hsame.readyToSend] at hready
        obtain ⟨hstate, hempty⟩ := h.flushed hready
        exact ⟨hprepares.publishState.trans hstate,
          (answer_mediaEs p.context message.header message.body).trans hempty⟩
  | disconnect => exact absurd hstep id

theorem packetsOf_cons (step : ClientStep) (steps : List ClientStep) :
    packetsOf (step :: steps) = step.packet?.toList ++ packetsOf steps := by
  cases hpacket : step.packet? <;> simp [packetsOf, hpacket]

theorem Streaming.run (hg : Grants http json) (h : Streaming packets p) {steps : List ClientStep}
    (hsteps : ∀ step ∈ steps, step.Live) :
    ∃ q, History.run (RtmpHandler.onEvent http json) p (steps.map (·.event)) = .ok q ∧
      Streaming (packets ++ packetsOf steps) q := by
  induction steps generalizing packets p with
  | nil => exact ⟨p, rfl, by simpa [packetsOf] using h⟩
  | cons step steps ih =>
      obtain ⟨p₁, hstep, h₁⟩ := h.step hg (hsteps step List.mem_cons_self)
      obtain ⟨q, hrun, hq⟩ := ih h₁ fun s hs => hsteps s (List.mem_cons_of_mem step hs)
      refine ⟨q, History.run_cons_ok.mpr ⟨p₁, hstep, hrun⟩, ?_⟩
      rw [packetsOf_cons, ← List.append_assoc]
      exact hq

/-- All frames are uploaded, and the publish goes on. -/
structure Drained (packets : List TimedPacket) (p : Publisher) : Prop
    extends Going packets p where
  publishing : p.context.publishState = .publishing
  waiting : p.context.mediaEs = []

theorem Streaming.drained (h : Streaming packets p) (hplayable : Playable packets) :
    Drained packets p where
  toGoing := h.toGoing
  publishing := (h.flushed (hplayable.readyToSend h.media)).1
  waiting := (h.flushed (hplayable.readyToSend h.media)).2

theorem Drained.run (h : Drained packets p) {closing : List ClientStep}
    (hclosing : ∀ step ∈ closing, step.Closing) :
    ∃ q, History.run (RtmpHandler.onEvent http json) p (closing.map (·.event)) = .ok q ∧
      Drained packets q := by
  induction closing generalizing p with
  | nil => exact ⟨p, rfl, h⟩
  | cons step steps ih =>
      cases step with
      | request message other =>
          have hanswer := prepare_other p.context message other
          have hprepares := RtmpHandler.prepare_prepares hanswer
          obtain ⟨context, publishes, hprepare, hingested⟩ :=
            h.ingested.prepare (.request message other)
          cases hanswer.symm.trans hprepare
          rw [ClientStep.packet?, Option.toList_none, List.append_nil] at hingested
          have hstep : RtmpHandler.onEvent http json p (ClientStep.request message other).event =
              .ok { p with
                context := (RtmpHandler.answer p.context message.header message.body).1 } := by
            rw [ClientStep.event, RtmpHandler.onEvent_eq, hanswer]
            rfl
          have hmiddle : Drained packets { p with
              context := (RtmpHandler.answer p.context message.header message.body).1 } :=
            ⟨h.toGoing.prepares hprepares hingested, hprepares.publishState.trans h.publishing,
              (answer_mediaEs _ _ _).trans h.waiting⟩
          obtain ⟨q, hrun, hq⟩ := ih hmiddle fun s hs => hclosing s (List.mem_cons_of_mem _ hs)
          exact ⟨q, History.run_cons_ok.mpr ⟨_, hstep, hrun⟩, hq⟩
      | media header packet => exact absurd (hclosing _ List.mem_cons_self) id
      | disconnect => exact absurd (hclosing _ List.mem_cons_self) id

/-- The disconnect ends the publish, with nothing left. -/
theorem Drained.disconnect (hg : Grants http json) (h : Drained packets p) :
    ∃ q, RtmpHandler.onEvent http json p .disconnect = .ok q ∧ Ingested packets q ∧
      q.context.mediaEs = [] ∧ EndedOnce q ∧ timesCalled .beginPublish q.calls = 1 := by
  let context := { p.context with readyToEndOfStream := true }
  have hprepare : RtmpHandler.prepare p.context .disconnect = .ok (context, true) := rfl
  have hprepares := RtmpHandler.prepare_prepares hprepare
  have hgoing := h.toGoing.prepares hprepares (h.ingested.same hprepares rfl rfl)
  obtain ⟨q, hq, hsummary⟩ := hg.publishToStreamer { p with context }
  generalize hs : ({ p with context } : Publisher).summary = s at hsummary
  have hstate : s.state = .publishing := by
    rw [← hs]
    exact h.publishing
  have hne : s.state ≠ .ended := by
    rw [hstate]
    simp
  have hending : s.ending = true := by
    rw [← hs]
    rfl
  have hempty : s.flushed.waiting = [] :=
    (PublishSummary.flushed_of_not_ended hne).2.2.mpr (.inr (.inl hstate))
  have hended : q.context.publishState = .ended := by
    have hiff := (PublishSummary.publish_ended_iff hending hne).mpr (.inr (.inl hstate))
    rw [← hsummary] at hiff
    exact hiff
  have hsound : q.summary.Sound := by
    rw [hsummary, ← hs]
    exact PublishSummary.publish_sound hgoing.sound
  have honce : q.summary.Once := by
    rw [hsummary]
    exact PublishSummary.publish_once (hs ▸ hgoing.once) fun hstate' => absurd hstate' hne
  have hwaiting : q.context.mediaEs = [] := by
    have hfinished := PublishSummary.publish_of_finished ⟨hempty, hending⟩
    rw [← hsummary] at hfinished
    exact (congrArg PublishSummary.waiting hfinished).trans hempty
  refine ⟨q, hq, hgoing.ingested.acts (Publisher.publishToStreamer_acts hq), hwaiting,
    RtmpHandler.endedOnce_of_once hsound honce hended, ?_⟩
  have hbegins := hsound.begins
  rw [if_neg (by rw [show q.summary.state = .ended from hended]; simp)] at hbegins
  exact hbegins

end Steps

section ShortSession

end ShortSession

end Rtmp
