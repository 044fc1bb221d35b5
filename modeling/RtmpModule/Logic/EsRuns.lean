import RtmpModule.Logic.FrameQueue
import RtmpModule.Streamer.EsMessages

/-!
# Runs of media messages

A context goes through any sequence of media messages and calls of
`publish_to_streamer`, with whatever the streamer answers. The frames ever queued
are counted and numbered, and a video frame is among them only behind a key frame.
The size of the NAL lengths is remembered from the last AVC sequence header, but the
frames that follow are not converted with it.
-/

namespace Rtmp

open FlvUtil ParsingFlv

/-- One call on a context. -/
inductive EsCall where
  | process (message : EsMessage)
  | publish

namespace EsCall

variable (http : List PublishCall → HttpRequest → HttpResult)
variable (json : List UInt8 → JsonDocument)

/-- A call that returns. -/
def step (p : Publisher) : EsCall → Except StreamerFault Publisher
  | process m =>
      match processFlvEsMessage p.context m.messageType m.timestamp m.body with
      | .error fault => .error (.memory fault)
      | .ok r => .ok { p with context := r.context }
  | publish => p.publishToStreamer http json

/-- A frame with the FLV frame type of the message it came in, which is not kept. -/
structure QueuedFrame where
  es : MediaPublishEs
  frameType : UInt8

/-- The frames that a message has put behind those of a context. -/
def newFrames (context : MediaPublishEsContext) (m : EsMessage) (r : Processed) :
    List QueuedFrame :=
  (r.context.mediaEs.drop context.mediaEs.length).map fun es => ⟨es, m.frameType⟩

/-- The frames a call puts into the queue. -/
def queuedBy (p : Publisher) : EsCall → List QueuedFrame
  | process m =>
      match processFlvEsMessage p.context m.messageType m.timestamp m.body with
      | .error _ => []
      | .ok r => newFrames p.context m r
  | publish => []

variable {http json}

theorem step_process {p q : Publisher} {m : EsMessage} :
    (process m).step http json p = .ok q ↔
      ∃ r, processFlvEsMessage p.context m.messageType m.timestamp m.body = .ok r ∧
        q = { p with context := r.context } := by
  rw [step]
  cases processFlvEsMessage p.context m.messageType m.timestamp m.body with
  | error fault => simp
  | ok r => simp [eq_comm]

theorem queuedBy_process {p : Publisher} {m : EsMessage} {r : Processed}
    (hr : processFlvEsMessage p.context m.messageType m.timestamp m.body = .ok r) :
    (process m).queuedBy p = newFrames p.context m r := by
  rw [queuedBy, hr]

variable (http json)

/-- A run from any state of a connection. -/
abbrev run (p : Publisher) (calls : List EsCall) : Except StreamerFault Publisher :=
  History.run (step http json) p calls

/-- The frames ever queued in a run. -/
abbrev queued (p : Publisher) (calls : List EsCall) : List QueuedFrame :=
  History.outputs (step http json) queuedBy p calls

end EsCall

namespace EsCall.QueuedFrame

def IsVideo (f : EsCall.QueuedFrame) : Prop := f.es.type = .video

instance (f : EsCall.QueuedFrame) : Decidable f.IsVideo :=
  inferInstanceAs (Decidable (f.es.type = .video))

end EsCall.QueuedFrame

open EsCall
open RtmpHandler (granting grantingJson)

/-- A flag that is set with the first key frame, and the first video frame is one. -/
structure KeyFrameFirst (frames : List QueuedFrame) (sent : Bool) : Prop where
  keyFrameSent : sent = true ↔ ∃ f ∈ frames, f.IsVideo ∧ f.frameType = 1
  firstVideo : ∀ f, (frames.find? fun f => decide f.IsVideo) = some f → f.frameType = 1

namespace KeyFrameFirst

variable {frames : List QueuedFrame} {sent : Bool} {f : QueuedFrame}

theorem initial : KeyFrameFirst [] false := ⟨by simp, by simp⟩

theorem audio (h : KeyFrameFirst frames sent) (hf : ¬ f.IsVideo) :
    KeyFrameFirst (frames ++ [f]) sent where
  keyFrameSent := by
    rw [h.keyFrameSent]
    simp [or_and_right, exists_or, hf]
  firstVideo := by
    intro g hg
    rw [List.find?_append] at hg
    simp only [List.find?_singleton, hf, decide_false, Bool.false_eq_true, if_false,
      Option.or_none] at hg
    exact h.firstVideo g hg

/-- A frame that passes the gate is a key frame or comes behind one. -/
theorem video (h : KeyFrameFirst frames sent) (hf : f.IsVideo)
    (hgate : f.frameType = 1 ∨ sent = true) : KeyFrameFirst (frames ++ [f]) true where
  keyFrameSent := by
    refine iff_of_true rfl ?_
    rcases hgate with hkey | hsent
    · exact ⟨f, by simp, hf, hkey⟩
    · obtain ⟨g, hg, hvideo⟩ := h.keyFrameSent.mp hsent
      exact ⟨g, List.mem_append_left _ hg, hvideo⟩
  firstVideo := by
    intro g hg
    rw [List.find?_append] at hg
    match hfirst : frames.find? fun f => decide f.IsVideo with
    | some g' =>
        rw [hfirst] at hg
        cases hg
        exact h.firstVideo g hfirst
    | none =>
        have hnone : ∀ g ∈ frames, ¬ g.IsVideo := by simpa using hfirst
        have hunsent : ¬ sent = true := by
          intro hsent
          obtain ⟨g', hg', hvideo, -⟩ := h.keyFrameSent.mp hsent
          exact hnone g' hg' hvideo
        rw [hfirst] at hg
        simp only [List.find?_singleton, hf, decide_true, if_true, Option.none_or,
          Option.some.injEq] at hg
        cases hg
        exact hgate.resolve_right hunsent

end KeyFrameFirst

/-- The context and the frames ever queued. -/
structure QueueInvariant (frames : List QueuedFrame) (p : Publisher) : Prop where
  accounted : Accounted (frames.map (·.es)) p
  sum : p.context.frameNumber = p.context.audioFrameNumber + p.context.videoFrameNumber
  keyFrames : KeyFrameFirst frames p.context.firstVideoKeyFrameSent

section Effects

variable {context : MediaPublishEsContext} {m : EsMessage} {r : Processed}
variable {frames : List QueuedFrame}

/-- A message that queues nothing. -/
theorem KeyFrameFirst.same (h : KeyFrameFirst frames context.firstVideoKeyFrameSent)
    (hes : r.context.mediaEs = context.mediaEs)
    (hsent : r.context.firstVideoKeyFrameSent = context.firstVideoKeyFrameSent) :
    KeyFrameFirst (frames ++ newFrames context m r) r.context.firstVideoKeyFrameSent := by
  rw [newFrames, hes, List.drop_length, List.map_nil, List.append_nil, hsent]
  exact h

theorem newFrames_concat {es : MediaPublishEs} (h : r.context.mediaEs = context.mediaEs ++ [es]) :
    newFrames context m r = [⟨es, m.frameType⟩] := by
  rw [newFrames, h, List.drop_left, List.map_singleton]

theorem newFrames_es :
    (newFrames context m r).map (·.es) = r.context.mediaEs.drop context.mediaEs.length := by
  rw [newFrames, List.map_map]
  exact List.map_id _

theorem EsEffect.sum (heffect : EsEffect context m r)
    (h : context.frameNumber = context.audioFrameNumber + context.videoFrameNumber) :
    r.context.frameNumber = r.context.audioFrameNumber + r.context.videoFrameNumber := by
  cases heffect with
  | audioFrame es dts =>
      change context.frameNumber + 1 = context.audioFrameNumber + 1 + context.videoFrameNumber
      rw [h, UInt64.add_assoc, UInt64.add_assoc, UInt64.add_comm context.videoFrameNumber]
  | videoFrame es pts dts hgate =>
      change context.frameNumber + 1 = context.audioFrameNumber + (context.videoFrameNumber + 1)
      rw [h, UInt64.add_assoc]
  | _ => exact h

theorem EsEffect.keyFrames (heffect : EsEffect context m r)
    (h : KeyFrameFirst frames context.firstVideoKeyFrameSent) :
    KeyFrameFirst (frames ++ newFrames context m r) r.context.firstVideoKeyFrameSent := by
  cases heffect with
  | audioFrame es dts =>
      rw [newFrames_concat rfl]
      exact h.audio (by rintro ⟨⟩)
  | videoFrame es pts dts hgate =>
      rw [newFrames_concat rfl]
      exact h.video rfl hgate
  | _ => exact h.same rfl rfl

end Effects

namespace QueueInvariant

variable {http : List PublishCall → HttpRequest → HttpResult} {json : List UInt8 → JsonDocument}
variable {frames : List QueuedFrame} {p q : Publisher}

theorem initial : QueueInvariant [] {} := ⟨Accounted.initial, rfl, KeyFrameFirst.initial⟩

theorem act (h : QueueInvariant frames p) (hact : PublishAct p q) : QueueInvariant frames q := by
  have haccounted := h.accounted.act hact
  cases hact <;> exact ⟨haccounted, h.sum, h.keyFrames⟩

theorem process (h : QueueInvariant frames p) {m : EsMessage} {r : Processed}
    (hr : processFlvEsMessage p.context m.messageType m.timestamp m.body = .ok r) :
    QueueInvariant (frames ++ newFrames p.context m r) { p with context := r.context } where
  accounted := by
    rw [List.map_append, newFrames_es]
    exact h.accounted.prepares (processFlvEsMessage_extends hr).toPrepares
  sum := (processFlvEsMessage_effect hr).sum h.sum
  keyFrames := (processFlvEsMessage_effect hr).keyFrames h.keyFrames

/-- Both kinds of calls keep the invariant. -/
theorem step (h : QueueInvariant frames p) {call : EsCall}
    (hstep : call.step http json p = .ok q) : QueueInvariant (frames ++ call.queuedBy p) q := by
  cases call with
  | process m =>
      obtain ⟨r, hr, rfl⟩ := step_process.mp hstep
      rw [queuedBy_process hr]
      exact h.process hr
  | publish =>
      rw [queuedBy, List.append_nil]
      exact PublishAct.run_invariant (fun _ _ hp hact => hp.act hact) h
        (Publisher.publishToStreamer_acts hstep)

theorem run {calls : List EsCall} (h : EsCall.run http json {} calls = .ok p) :
    QueueInvariant (queued http json {} calls) p :=
  History.run_outputs_invariant (fun _ _ _ _ hinv hstep => hinv.step hstep) initial h

end QueueInvariant

/-- The counters, the queue and the flag, against the frames ever queued. -/
structure QueueCounted (frames : List QueuedFrame) (p : Publisher) : Prop extends
    KeyFrameFirst frames p.context.firstVideoKeyFrameSent where
  sum : p.context.frameNumber = p.context.audioFrameNumber + p.context.videoFrameNumber
  consecutive : p.context.mediaEs.IsChain fun a b => b.frameNumber = a.frameNumber + 1
  last : ∀ es, p.context.mediaEs.getLast? = some es → es.frameNumber = p.context.frameNumber

/-- Frames with the numbers 1, 2, 3 and so on. -/
def Numbered (frames : List QueuedFrame) : Prop :=
  frames.map (·.es.frameNumber.toNat) = List.range' 1 frames.length

theorem QueueInvariant.counted {frames : List QueuedFrame} {p : Publisher}
    (h : QueueInvariant frames p) : QueueCounted frames p where
  toKeyFrameFirst := h.keyFrames
  sum := h.sum
  consecutive := h.accounted.consecutive
  last := fun _ hes => h.accounted.last hes

theorem QueueInvariant.numbered {frames : List QueuedFrame} {p : Publisher}
    (h : QueueInvariant frames p) (hfew : frames.length < 2 ^ 64) : Numbered frames := by
  have hnumbers := h.accounted.numbered (by rwa [List.length_map])
  rw [List.map_map, List.length_map] at hnumbers
  exact hnumbers

/-- The number 2^64 does not fit into the 64 bits of a frame number. -/
theorem not_numbered_of_length {frames : List QueuedFrame} (h : frames.length = 2 ^ 64) :
    ¬ Numbered frames := by
  intro hnumbered
  have hmem : 2 ^ 64 ∈ List.range' 1 frames.length := by
    rw [List.mem_range'_1, h]
    decide
  rw [← hnumbered] at hmem
  obtain ⟨f, -, hf⟩ := List.mem_map.mp hmem
  have hlt := UInt64.toNat_lt f.es.frameNumber
  omega

/-- Whatever messages and answers come, the counters and the queue agree, and the frames are
numbered from 1 until 2^64 of them were queued. -/
theorem frame_queue (http : List PublishCall → HttpRequest → HttpResult)
    (json : List UInt8 → JsonDocument) (calls : List EsCall) (p : Publisher)
    (h : run http json {} calls = .ok p) :
    QueueCounted (queued http json {} calls) p ∧
      ((queued http json {} calls).length < 2 ^ 64 → Numbered (queued http json {} calls)) := by
  have hinv := QueueInvariant.run h
  exact ⟨hinv.counted, hinv.numbered⟩

/-- An audio frame, a key frame and a call of `publish_to_streamer`. -/
def threeCalls : List EsCall :=
  [.process ⟨8, 0, [0xAF, 0x01, 0x21]⟩, .process ⟨9, 0, [0x17, 0x01, 0x00, 0x00, 0x00]⟩,
    .publish]

theorem frame_queue_threeCalls :
    ∃ p, run granting grantingJson {} threeCalls = .ok p ∧
      QueueCounted (queued granting grantingJson {} threeCalls) p ∧
      ((queued granting grantingJson {} threeCalls).length < 2 ^ 64 →
        Numbered (queued granting grantingJson {} threeCalls)) := by
  obtain ⟨p, h⟩ : ∃ p, run granting grantingJson {} threeCalls = .ok p :=
    History.exists_ok (by decide +kernel)
  exact ⟨p, h, frame_queue granting grantingJson threeCalls p h⟩

section RawPackets

variable (http : List PublishCall → HttpRequest → HttpResult) (json : List UInt8 → JsonDocument)

/-- A raw packet of AAC with one byte of payload. -/
def rawPacket : EsCall := .process ⟨8, 0, [0xAF, 0x01, 0x21]⟩

theorem step_rawPacket (p : Publisher) :
    ∃ q, rawPacket.step http json p = .ok q ∧ (rawPacket.queuedBy p).length = 1 := by
  obtain ⟨r, hr, happends⟩ := process_raw_appends p.context 0 3 1 1 [0x21]
  obtain ⟨es, hes, -⟩ := happends.mediaEs
  refine ⟨_, step_process.mpr ⟨r, hr, rfl⟩, ?_⟩
  rw [rawPacket, queuedBy_process hr, newFrames, hes, List.drop_left]
  rfl

/-- Every one of them is queued. -/
theorem run_rawPackets (n : Nat) (p : Publisher) :
    ∃ q, run http json p (List.replicate n rawPacket) = .ok q ∧
      (queued http json p (List.replicate n rawPacket)).length = n := by
  induction n generalizing p with
  | zero => exact ⟨p, rfl, rfl⟩
  | succ n ih =>
      obtain ⟨p', hstep, hone⟩ := step_rawPacket http json p
      obtain ⟨q, hrun, hlength⟩ := ih p'
      refine ⟨q, History.run_cons_ok.mpr ⟨p', hstep, hrun⟩, ?_⟩
      rw [List.replicate_succ, queued, History.outputs_cons hstep, List.length_append, hone,
        hlength, Nat.add_comm]

end RawPackets

/-- The frame behind 2^64 - 1 others is numbered 0. -/
theorem not_numbered_rawPackets :
    ¬ ∀ (http : List PublishCall → HttpRequest → HttpResult) (json : List UInt8 → JsonDocument)
      (calls : List EsCall) (p : Publisher), run http json {} calls = .ok p →
        QueueCounted (queued http json {} calls) p ∧ Numbered (queued http json {} calls) := by
  intro h
  obtain ⟨p, hrun, hlength⟩ := run_rawPackets granting grantingJson (2 ^ 64) {}
  exact not_numbered_of_length hlength (h granting grantingJson _ p hrun).2

end Rtmp
