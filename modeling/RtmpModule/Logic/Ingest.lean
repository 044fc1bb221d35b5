import RtmpModule.Logic.Segments
import RtmpModule.Streamer.MediaPackets

/-!
# From a client's packets to the streamer's segments

What the handler of a connection is for: the packets a client sends become access
units, video from its first key frame on, and the streamer gets them numbered from 1,
in their order. This is stated without contexts, queues or cursors, and every run of
the handler is shown to do it, whatever the streamer answers.
-/

namespace Rtmp

namespace TimedPacket

variable (t : TimedPacket)

/-- The message that carries a packet, on any chunk stream. -/
def message (header : RtmpHeader) : RtmpMessage :=
  if t.packet.messageType = 8 then
    { header := { header with msgTypeId := .audioData, absTimestamp := t.time }
      body := .audioMessage t.packet.body }
  else
    { header := { header with msgTypeId := .videoData, absTimestamp := t.time }
      body := .videoMessage t.packet.body }

end TimedPacket

/-- What a streamer should get of the packets of a client, some of them behind others. -/
def accessUnitsFrom (seen : Bool) : List TimedPacket → List AccessUnit
  | [] => []
  | t :: packets => (t.usableUnit seen).toList ++ accessUnitsFrom (seen || t.isKeyFrame) packets

/-- What a streamer should get of the packets of a client. -/
def accessUnits (packets : List TimedPacket) : List AccessUnit := accessUnitsFrom false packets

/-- What a client does: it sends media and other messages, and leaves. -/
inductive ClientStep where
  | media (header : RtmpHeader) (packet : TimedPacket)
  | request (message : RtmpMessage) (other : ∀ data, message.body ≠ .audioMessage data ∧
      message.body ≠ .videoMessage data)
  | disconnect

namespace ClientStep

def event : ClientStep → RtmpHandler.Event
  | media header packet => .request (packet.message header)
  | request message _ => .request message
  | disconnect => .disconnect

def packet? : ClientStep → Option TimedPacket
  | media _ packet => some packet
  | request .. => none
  | disconnect => none

end ClientStep

/-- The packets of a client in their order. -/
def packetsOf (steps : List ClientStep) : List TimedPacket := steps.filterMap (·.packet?)

namespace AccessUnit

variable (unit : AccessUnit)

/-- The frame a unit is queued as. -/
def frame (number : UInt64) : MediaPublishEs :=
  makeMediaEs unit.type unit.data number 1 unit.pts unit.dts (UInt32.ofNat unit.data.length)

/-- The segment with a unit, which is marked as a key frame whatever it is. -/
def segment (number : UInt64) : Segment where
  number := number
  trackId :=
    match unit.type with
    | .video => 1
    | .audio => 2
  isKeyFrame := 1
  pts := unit.pts
  dts := unit.dts
  data := unit.data

end AccessUnit

/-- Units numbered from 1. -/
def numbered {α : Type} (f : AccessUnit → UInt64 → α) (units : List AccessUnit) : List α :=
  units.zipIdx.map fun (unit, i) => f unit (UInt64.ofNat (i + 1))

theorem numbered_concat {α : Type} (f : AccessUnit → UInt64 → α) (units : List AccessUnit)
    (unit : AccessUnit) :
    numbered f (units ++ [unit]) =
      numbered f units ++ [f unit (UInt64.ofNat (units.length + 1))] := by
  simp [numbered, List.zipIdx_append]

theorem length_numbered {α : Type} (f : AccessUnit → UInt64 → α) (units : List AccessUnit) :
    (numbered f units).length = units.length := by
  simp [numbered]

/-- One more packet, behind all others. -/
theorem accessUnits_concat (packets : List TimedPacket) (t : TimedPacket) :
    accessUnits (packets ++ [t]) =
      accessUnits packets ++ (t.usableUnit (packets.any (·.isKeyFrame))).toList := by
  have hfrom : ∀ seen, accessUnitsFrom seen (packets ++ [t]) =
      accessUnitsFrom seen packets ++
        (t.usableUnit (seen || packets.any (·.isKeyFrame))).toList := by
    induction packets with
    | nil => simp [accessUnitsFrom]
    | cons t' packets ih => simp [accessUnitsFrom, ih, Bool.or_assoc]
  simpa [accessUnits] using hfrom false

theorem length_of_mem_accessUnits {packets : List TimedPacket} {unit : AccessUnit}
    (h : unit ∈ accessUnits packets) : unit.data.length < 2 ^ 24 := by
  rw [accessUnits] at h
  generalize false = seen at h
  induction packets generalizing seen with
  | nil => cases h
  | cons t packets ih =>
      rcases List.mem_append.mp h with hunit | hrest
      · obtain ⟨hunit, -⟩ := Option.filter_eq_some_iff.mp (Option.mem_toList.mp hunit)
        exact TimedPacket.unit_length hunit
      · exact ih _ hrest

open RtmpHandler (prepare)

/-- What the handler prepares for a packet, whatever chunk stream it came on. -/
theorem prepare_packet (context : MediaPublishEsContext) (header : RtmpHeader) (t : TimedPacket) :
    ∃ r, prepare context (.request (t.message header)) = .ok (r.context, r.ret) ∧
      PacketEffect context t r := by
  obtain ⟨r, hr, heffect⟩ := process_packet context t
  refine ⟨r, ?_, heffect⟩
  rw [prepare, TimedPacket.message]
  by_cases htype : t.packet.messageType = 8
  · rw [if_pos htype]
    rw [htype] at hr
    simp only [RtmpHandler.prepareMedia, MsgTypeId.code, hr]
  · have hvideo : t.packet.messageType = 9 := by
      cases hpacket : t.packet <;> simp_all [MediaPacket.messageType]
    rw [if_neg htype]
    rw [hvideo] at hr
    simp only [RtmpHandler.prepareMedia, MsgTypeId.code, hr]

/-- A message without media is answered, and nothing is published. -/
theorem prepare_other (context : MediaPublishEsContext) (message : RtmpMessage)
    (other : ∀ data, message.body ≠ .audioMessage data ∧ message.body ≠ .videoMessage data) :
    prepare context (.request message) =
      .ok ((RtmpHandler.answer context message.header message.body).1, false) := by
  rw [prepare]
  split
  · next data hbody => exact absurd hbody (other data).1
  · next data hbody => exact absurd hbody (other data).2
  · rfl

section Effects

variable {context : MediaPublishEsContext} {t : TimedPacket} {r : Processed}

/-- The frames and the gate behind one packet. -/
theorem PacketEffect.frames (h : PacketEffect context t r) :
    r.context.mediaEs = context.mediaEs ++
        (t.usableUnit context.firstVideoKeyFrameSent).toList.map
          (fun unit => unit.frame (context.frameNumber + 1)) ∧
      r.context.firstVideoKeyFrameSent = (context.firstVideoKeyFrameSent || t.isKeyFrame) := by
  have hnone : t.usableUnit context.firstVideoKeyFrameSent = none →
      context.mediaEs = context.mediaEs ++ (t.usableUnit context.firstVideoKeyFrameSent).toList.map
          (fun unit => unit.frame (context.frameNumber + 1)) ∧
        context.firstVideoKeyFrameSent = (context.firstVideoKeyFrameSent || t.isKeyFrame) := by
    intro hunit
    rw [hunit, TimedPacket.isKeyFrame_of_usableUnit hunit]
    simp
  cases h with
  | refused haudio hvideo hunit => exact hnone hunit
  | audioInit init hinfo hvideo hunit => exact hnone hunit
  | videoInit init size hinfo haudio hunit => exact hnone hunit
  | eos eos haudio hvideo hend hunit => exact hnone hunit
  | audioFrame unit haudio hvideo htype hkey hunit =>
      rw [hunit, hkey, Bool.or_false, Option.toList_some, List.map_singleton, AccessUnit.frame,
        htype]
      exact ⟨rfl, rfl⟩
  | videoFrame unit haudio hvideo htype hgate hunit =>
      have hseen : (context.firstVideoKeyFrameSent || t.isKeyFrame) = true := by
        simpa [or_comm] using hgate
      rw [hunit, hseen, Option.toList_some, List.map_singleton, AccessUnit.frame, htype]
      exact ⟨rfl, rfl⟩

end Effects

/-- The packets so far, against the queue, the requests and the gate. -/
structure Ingested (packets : List TimedPacket) (p : Publisher) : Prop where
  accounted : Accounted (numbered AccessUnit.frame (accessUnits packets)) p
  about : AboutFrames (numbered AccessUnit.frame (accessUnits packets)) p
  seen : p.context.firstVideoKeyFrameSent = packets.any (·.isKeyFrame)

namespace Ingested

variable {packets : List TimedPacket} {p q : Publisher}

theorem initial : Ingested [] {} := ⟨Accounted.initial, AboutFrames.initial, rfl⟩

/-- A packet adds the frame of its unit. -/
theorem media (h : Ingested packets p) {header : RtmpHeader} {t : TimedPacket} {r : Processed}
    (hprepare : RtmpHandler.prepare p.context (.request (t.message header)) =
      .ok (r.context, r.ret))
    (heffect : PacketEffect p.context t r) :
    Ingested (packets ++ [t]) { p with context := r.context } := by
  have hprepares := RtmpHandler.prepare_prepares hprepare
  obtain ⟨hframes, hseen⟩ := heffect.frames
  have hcounter := h.accounted.counter
  rw [length_numbered] at hcounter
  have hnext : p.context.frameNumber + 1 =
      UInt64.ofNat ((accessUnits packets).length + 1) := by
    rw [hcounter]
    simp
  have hnew : numbered AccessUnit.frame (accessUnits (packets ++ [t])) =
      numbered AccessUnit.frame (accessUnits packets) ++
        r.context.mediaEs.drop p.context.mediaEs.length := by
    rw [hframes, List.drop_left, accessUnits_concat, ← h.seen, hnext]
    cases t.usableUnit p.context.firstVideoKeyFrameSent with
    | none => simp
    | some unit => exact numbered_concat _ _ unit
  refine ⟨?_, ?_, ?_⟩
  · rw [hnew]
    exact h.accounted.prepares hprepares
  · rw [hnew]
    exact h.about.prepares hprepares _
  · rw [hseen, h.seen]
    simp

theorem act (h : Ingested packets p) (hact : PublishAct p q) : Ingested packets q := by
  have haccounted := h.accounted.act hact
  have habout := h.about.act h.accounted hact
  cases hact <;> exact ⟨haccounted, habout, h.seen⟩

theorem acts (h : Ingested packets p) (hacts : Relation.ReflTransGen PublishAct p q) :
    Ingested packets q :=
  PublishAct.run_invariant (fun _ _ hp hact => hp.act hact) h hacts

/-- Whatever leaves the queue and the gate alone. -/
theorem same (h : Ingested packets p) {context : MediaPublishEsContext}
    (hprepares : Prepares p.context context) (hes : context.mediaEs = p.context.mediaEs)
    (hseen : context.firstVideoKeyFrameSent = p.context.firstVideoKeyFrameSent) :
    Ingested packets { p with context } := by
  have haccounted := h.accounted.prepares hprepares
  have habout := h.about.prepares hprepares (context.mediaEs.drop p.context.mediaEs.length)
  rw [hes, List.drop_length, List.append_nil] at haccounted habout
  exact ⟨haccounted, habout, hseen.trans h.seen⟩

/-- Every step of a client is prepared, and its packet is accounted for. -/
theorem prepare (h : Ingested packets p) (step : ClientStep) :
    ∃ context publishes, RtmpHandler.prepare p.context step.event = .ok (context, publishes) ∧
      Ingested (packets ++ step.packet?.toList) { p with context } := by
  cases step with
  | media header t =>
      obtain ⟨r, hprepare, heffect⟩ := prepare_packet p.context header t
      exact ⟨_, _, hprepare, h.media hprepare heffect⟩
  | disconnect =>
      refine ⟨_, _, rfl, ?_⟩
      rw [ClientStep.packet?, Option.toList_none, List.append_nil]
      exact h.same (RtmpHandler.prepare_prepares (e := .disconnect) rfl) rfl rfl
  | request message other =>
      have hprepare := prepare_other p.context message other
      refine ⟨_, _, hprepare, ?_⟩
      rw [ClientStep.packet?, Option.toList_none, List.append_nil]
      refine h.same (RtmpHandler.prepare_prepares hprepare) ?_ ?_ <;>
        cases message.body <;> rfl

end Ingested

section Runs

variable {http : List PublishCall → HttpRequest → HttpResult} {json : List UInt8 → JsonDocument}
variable {p : Publisher} {fault : StreamerFault}

theorem beginPublish_error {send : HttpRequest → HttpResult} {context : MediaPublishEsContext}
    (h : beginPublish send json context = .error fault) : fault = .notObject := by
  rw [beginPublish] at h
  split at h
  · cases h
  · split at h
    · cases h
    · split at h <;> cases h
      rfl

/-- A call of `publish_to_streamer` fails only when a publish is begun and the answer is JSON
that is no object. -/
theorem Publisher.publishToStreamer_error (h : p.publishToStreamer http json = .error fault) :
    fault = .notObject := by
  rw [publishToStreamer] at h
  split at h
  · next fault' hbegin =>
    cases h
    rw [beginPart] at hbegin
    split at hbegin
    · split at hbegin
      · next hpublish =>
        cases hbegin
        exact beginPublish_error hpublish
      · simp only at hbegin
        split at hbegin <;> cases hbegin
    · cases hbegin
  · cases h
  · split at h
    · cases h
    · split at h <;> cases h

end Runs

/-- A unit is read back from its frame. -/
theorem AccessUnit.frame_segment {unit : AccessUnit} (h : unit.data.length < 2 ^ 24)
    (number : UInt64) : (unit.frame number).segment = unit.segment number := by
  have hdata : (unit.frame number).esStr = unit.data := by
    change unit.data.take (UInt32.ofNat unit.data.length).toNat = unit.data
    rw [UInt32.toNat_ofNat', Nat.mod_eq_of_lt (h.trans (by decide)), List.take_length]
  rw [MediaPublishEs.segment, hdata]
  rfl

/-- What the streamer has of the units and what it is still to get are all units with bytes,
numbered from 1 and in their order; it is asked to take the unit in front at most. -/
structure Delivered (units : List AccessUnit) (p : Publisher) : Prop where
  inOrder : acknowledged p.calls ++
      (p.context.mediaEs.map (·.segment)).filter (fun s => decide (s.data ≠ [])) =
    (numbered AccessUnit.segment units).filter fun s => decide (s.data ≠ [])
  ahead : ∀ segment ∈ requested p.calls, segment ∈ acknowledged p.calls ∨
    p.context.mediaEs.head?.map (·.segment) = some segment

section Delivery

variable {http : List PublishCall → HttpRequest → HttpResult} {json : List UInt8 → JsonDocument}
variable {packets : List TimedPacket} {p : Publisher}

theorem numbered_sized (units : List AccessUnit) :
    ∀ es ∈ numbered AccessUnit.frame units, es.Sized := by
  intro es hes
  obtain ⟨⟨unit, i⟩, -, rfl⟩ := List.mem_map.mp hes
  rfl

theorem numbered_segment {units : List AccessUnit}
    (h : ∀ unit ∈ units, unit.data.length < 2 ^ 24) :
    (numbered AccessUnit.frame units).map (·.segment) = numbered AccessUnit.segment units := by
  rw [numbered, numbered, List.map_map]
  apply List.map_congr_left
  rintro ⟨unit, i⟩ hmem
  have hunit : unit ∈ units := List.mem_of_getElem? (List.mem_zipIdx_iff_getElem?.mp hmem)
  exact AccessUnit.frame_segment (h unit hunit) _

theorem Ingested.delivered (h : Ingested packets p) : Delivered (accessUnits packets) p where
  inOrder := by
    have hconserved := congrArg (List.map (·.segment)) h.accounted.conserved
    rw [List.map_append] at hconserved
    rw [acknowledged_eq h.about (numbered_sized _),
      ← numbered_segment fun unit hunit => length_of_mem_accessUnits hunit, List.filter_map,
      List.filter_map]
    exact hconserved
  ahead := fun segment hsegment => requested_mem h.about (numbered_sized _) hsegment

/-- One step of a client, in any state a connection can be in. -/
theorem Ingested.onEvent (h : Ingested packets p) (step : ClientStep) :
    match RtmpHandler.onEvent http json p step.event with
    | .ok q => Ingested (packets ++ step.packet?.toList) q
    | .error fault => fault = .notObject := by
  obtain ⟨context, publishes, hprepare, hinv⟩ := h.prepare step
  rw [RtmpHandler.onEvent_eq, hprepare]
  cases publishes with
  | false => exact hinv
  | true =>
      change match Publisher.publishToStreamer http json { p with context } with
        | .ok q => _
        | .error fault => _
      cases hpublish : Publisher.publishToStreamer http json { p with context } with
      | error fault => exact Publisher.publishToStreamer_error hpublish
      | ok q => exact hinv.acts (Publisher.publishToStreamer_acts hpublish)

theorem Ingested.run (h : Ingested packets p) (steps : List ClientStep) :
    match History.run (RtmpHandler.onEvent http json) p (steps.map (·.event)) with
    | .ok q => Ingested (packets ++ packetsOf steps) q
    | .error fault => fault = .notObject := by
  induction steps generalizing packets p with
  | nil =>
      rw [packetsOf, List.filterMap_nil, List.append_nil]
      exact h
  | cons step steps ih =>
      have hstep := @Ingested.onEvent http json packets p h step
      have hpackets : packetsOf (step :: steps) = step.packet?.toList ++ packetsOf steps := by
        cases hpacket : step.packet? <;> simp [packetsOf, hpacket]
      rw [List.map_cons, History.run, hpackets, ← List.append_assoc]
      cases hevent : RtmpHandler.onEvent http json p step.event with
      | error fault =>
          rw [hevent] at hstep
          exact hstep
      | ok q =>
          rw [hevent] at hstep
          exact ih hstep

end Delivery

end Rtmp
