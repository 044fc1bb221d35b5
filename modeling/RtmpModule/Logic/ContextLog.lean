import RtmpModule.Logic.EsRuns
import RtmpModule.Logic.ReplyBodies
import RtmpModule.Streamer.BodySafety

/-!
# The context in the log

`publish_to_streamer` puts a context into the log behind each media message and at the
start of each call of its own. The text of a context needs the last frame of its queue,
which other calls fill and drain. What a message does to the queue is read off its bytes
first; the log calls of a run then find a frame exactly as long as each call finds one
waiting or is given a message that brings one.
-/

namespace Rtmp

open FlvUtil FlvUtil.Cursor ParsingFlv FlvPacket

/-- The texts of `publish_state_t` in `to_string`. -/
def PublishState.text : PublishState → List UInt8
  | begin => Rtmp.text "begin"
  | init => Rtmp.text "init"
  | publishing => Rtmp.text "publishing"
  | ended => Rtmp.text "end"

/-- A number as an output stream writes it. -/
def decimal (n : UInt64) : List UInt8 := ascii (Nat.toDigits 10 n.toNat)

/-- `to_string` of a context. It is undefined without a last frame, and the frames that wait
are never null pointers. -/
def MediaPublishEsContext.toString (context : MediaPublishEsContext) : Option (List UInt8) :=
  match context.mediaEs.getLast? with
  | none => none
  | some _ =>
      some (text "publish_id[" ++ context.publishId ++ text "]," ++
        text "publish_state[" ++ context.publishState.text ++ text "]," ++
        text "frame_number[" ++ decimal context.frameNumber ++ text "]," ++
        text "video_frame_number[" ++ decimal context.videoFrameNumber ++ text "]," ++
        text "audio_frame_number[" ++ decimal context.audioFrameNumber ++ text "]," ++
        text "es_frame_data exist")

theorem MediaPublishEsContext.toString_isSome (context : MediaPublishEsContext) :
    context.toString.isSome = true ↔ context.mediaEs ≠ [] := by
  rw [toString]
  cases hlast : context.mediaEs.getLast? with
  | none => simpa using hlast
  | some es =>
      have hmem := List.mem_of_getLast? hlast
      simpa using List.ne_nil_of_mem hmem

section Classes

variable {messageType : UInt8} {buffer : List UInt8} {p : FlvPacket}

/-- A packet has the two bytes of a tag. -/
theorem two_le_of_classify (h : classify messageType buffer = .ok (some p)) :
    2 ≤ buffer.length := by
  by_contra hlt
  rw [classify_short (Nat.lt_of_not_le hlt)] at h
  split at h <;> cases h

theorem messageType_of_classify (h : classify messageType buffer = .ok (some p)) :
    messageType = 8 ∨ messageType = 9 := by
  by_contra hne
  obtain ⟨haudio, hvideo⟩ := not_or.mp hne
  rw [classify, if_neg haudio, if_neg hvideo] at h
  cases h

theorem classify_aacRaw (h : classify messageType buffer = .ok (some .aacRaw)) :
    messageType = 8 ∧ ∃ fmt payload, buffer = fmt :: flvAacRaw :: payload ∧
      (fmt &&& 0xf0) >>> 4 = flvAac := by
  obtain ⟨fmt, packet, payload, rfl⟩ := two_le_length (two_le_of_classify h)
  rcases messageType_of_classify h with rfl | rfl
  · rw [classify_audio] at h
    split at h
    · cases h
    · split at h
      · next hraw => exact ⟨rfl, fmt, payload, by rw [hraw.2], hraw.1⟩
      · cases h
  · rw [classify_video] at h
    split at h
    · cases h
    · split at h
      · cases h
      · split at h <;> cases h

theorem classify_avcNalu (h : classify messageType buffer = .ok (some .avcNalu)) :
    messageType = 9 ∧ ∃ fmt rest, buffer = fmt :: flvAvcNalu :: rest ∧
      fmt &&& 0x0f = flvAvc := by
  obtain ⟨fmt, packet, rest, rfl⟩ := two_le_length (two_le_of_classify h)
  rcases messageType_of_classify h with rfl | rfl
  · rw [classify_audio] at h
    split at h
    · cases h
    · split at h <;> cases h
  · rw [classify_video] at h
    split at h
    · cases h
    · split at h
      · next hnalu => exact ⟨rfl, fmt, rest, by rw [hnalu.2], hnalu.1⟩
      · split at h <;> cases h

end Classes

/-- The messages that become a frame: raw AAC packets, and AVC NALU packets with a composition
time that the key frame gate lets through. -/
def QueuesFrame (context : MediaPublishEsContext) (m : EsMessage) : Prop :=
  classify m.messageType m.body = .ok (some .aacRaw) ∨
    classify m.messageType m.body = .ok (some .avcNalu) ∧ 5 ≤ m.body.length ∧
      (m.frameType = 1 ∨ context.firstVideoKeyFrameSent = true)

/-- NAL units behind lengths of four bytes, and nothing else. -/
def AreNals (es : List UInt8) : Prop :=
  ∃ nals : List (List UInt8), (∀ nal ∈ nals, nal.length < 256 ^ 4) ∧ es = mp4Nals 4 nals

theorem areNals_iff {es : List UInt8} :
    AreNals es ↔ ∃ videoEs, replaceNaluStartCodeFromMp4ToTs 4 es = .ok videoEs := by
  have hfour : (4 : UInt8).toNat = 3 + 1 := rfl
  exact (replaceNalu_ok_iff hfour (by decide)).symm

/-- The messages on which `process_flv_es_message` leaves a buffer: video bodies that are
shorter than a tag, and NAL lengths that do not fit their packet. -/
def LeavesBody (m : EsMessage) : Prop :=
  (m.messageType = 9 ∧ m.body.length < 2) ∨
    classify m.messageType m.body = .ok (some .avcNalu) ∧ 5 ≤ m.body.length ∧
      ¬ AreNals (m.body.drop 5)

/-- What a call of `process_flv_es_message` comes to, as far as the queue is concerned. -/
inductive Outcome (context : MediaPublishEsContext) (m : EsMessage) :
    Except MemoryFault Processed → Prop
  | left (fault : MemoryFault) (hleaves : LeavesBody m) : Outcome context m (.error fault)
  | queued (r : Processed) (es : MediaPublishEs) (hstays : ¬ LeavesBody m)
      (hqueues : QueuesFrame context m) (hes : r.context.mediaEs = context.mediaEs ++ [es]) :
      Outcome context m (.ok r)
  | same (r : Processed) (hstays : ¬ LeavesBody m) (hqueues : ¬ QueuesFrame context m)
      (hes : r.context.mediaEs = context.mediaEs) : Outcome context m (.ok r)

section Outcomes

variable {context : MediaPublishEsContext} {m : EsMessage}

theorem run'_of_endsInside {α : Type} {buffer : List UInt8} {x : Read α}
    (h : EndsInside buffer buffer.length x) : ∃ a, x.run' (ofData buffer) = .ok a := by
  obtain ⟨a, c, hok, -⟩ := h
  exact ⟨a, run'_ok.mpr ⟨c, hok⟩⟩

/-- The packets that hold no frame are refused or kept, and their parsers stay inside. -/
theorem process_kept {packet : Option FlvPacket} {body : List UInt8} (timestamp : UInt64)
    (hinside : ∀ p ∈ packet, p.ParsedInside body) (hraw : packet ≠ some .aacRaw)
    (hnalu : packet ≠ some .avcNalu) :
    ∃ r, FlvPacket.process context timestamp body packet = .ok r ∧
      r.context.mediaEs = context.mediaEs := by
  match packet with
  | none => exact ⟨_, rfl, rfl⟩
  | some .aacRaw => exact absurd rfl hraw
  | some .avcNalu => exact absurd rfl hnalu
  | some .aacSequenceHeader =>
      obtain ⟨header, hheader⟩ := run'_of_endsInside (hinside _ rfl).2
      rw [FlvPacket.process, hheader]
      cases header with
      | none => exact ⟨_, rfl, rfl⟩
      | some header => exact ⟨_, rfl, rfl⟩
  | some .avcSequenceHeader =>
      obtain ⟨header, hheader⟩ := run'_of_endsInside (hinside _ rfl)
      rw [FlvPacket.process, hheader]
      cases header with
      | none => exact ⟨_, rfl, rfl⟩
      | some header => exact ⟨_, rfl, rfl⟩
  | some .avcEndOfSequence =>
      obtain ⟨eos, heos⟩ := run'_of_endsInside (hinside _ rfl)
      rw [FlvPacket.process, heos]
      exact ⟨_, rfl, rfl⟩

theorem outcome_kept {packet : Option FlvPacket}
    (hclass : classify m.messageType m.body = .ok packet) (hraw : packet ≠ some .aacRaw)
    (hnalu : packet ≠ some .avcNalu) :
    Outcome context m (processFlvEsMessage context m.messageType m.timestamp m.body) := by
  have hinside : ∀ p ∈ packet, p.ParsedInside m.body := by
    rintro p rfl
    exact p.parsedInside (two_le_of_classify hclass)
  obtain ⟨r, hr, hes⟩ := @process_kept context packet m.body m.timestamp hinside hraw hnalu
  rw [processFlvEsMessage_classify, hclass]
  change Outcome context m (FlvPacket.process context m.timestamp m.body packet)
  rw [hr]
  refine .same r ?_ ?_ hes
  · rintro (⟨htype, hlt⟩ | ⟨hclass', -⟩)
    · rw [classify_short hlt, if_pos htype] at hclass
      cases hclass
    · rw [hclass] at hclass'
      exact hnalu (Except.ok.inj hclass')
  · rintro (hclass' | ⟨hclass', -⟩)
    · rw [hclass] at hclass'
      exact hraw (Except.ok.inj hclass')
    · rw [hclass] at hclass'
      exact hnalu (Except.ok.inj hclass')

theorem outcome_aacRaw (hclass : classify m.messageType m.body = .ok (some .aacRaw)) :
    Outcome context m (processFlvEsMessage context m.messageType m.timestamp m.body) := by
  obtain ⟨htype, fmt, payload, hbody, hfmt⟩ := classify_aacRaw hclass
  have hstays : ¬ LeavesBody m := by
    rintro (⟨htype', -⟩ | ⟨hclass', -⟩)
    · rw [htype] at htype'
      cases htype'
    · rw [hclass] at hclass'
      cases hclass'
  rw [htype, hbody, process_raw context m.timestamp hfmt payload]
  exact .queued _ _ hstays (.inl hclass) rfl

/-- A NALU packet is cut in front of its composition time, or its NAL units decide. -/
theorem outcome_avcNalu (hclass : classify m.messageType m.body = .ok (some .avcNalu)) :
    Outcome context m (processFlvEsMessage context m.messageType m.timestamp m.body) := by
  obtain ⟨htype, fmt, rest, hbody, hfmt⟩ := classify_avcNalu hclass
  have hlong : ¬ m.body.length < 2 := Nat.not_lt_of_le (two_le_of_classify hclass)
  have hframe : m.frameType = (fmt &&& 0xf0) >>> 4 := by
    rw [EsMessage.frameType, hbody, List.headD_cons]
  match rest with
  | c0 :: c1 :: c2 :: es =>
      have hlength : 5 ≤ m.body.length := by simp [hbody]
      have hdrop : m.body.drop 5 = es := by rw [hbody]; rfl
      have hprocess := process_nalu context m.timestamp hfmt c0 c1 c2 es
      rw [htype, hbody, hprocess]
      cases hes : replaceNaluStartCodeFromMp4ToTs 4 es with
      | error fault =>
          rw [FlvMessage.processNalu, hes]
          refine .left fault (.inr ⟨hclass, hlength, ?_⟩)
          intro hnals
          obtain ⟨videoEs, hok⟩ := areNals_iff.mp hnals
          rw [hdrop, hes] at hok
          cases hok
      | ok videoEs =>
          have hstays : ¬ LeavesBody m := by
            rintro (⟨-, hlt⟩ | ⟨-, -, hnals⟩)
            · exact hlong hlt
            · rw [hdrop] at hnals
              exact hnals (areNals_iff.mpr ⟨videoEs, hes⟩)
          by_cases hgate : m.frameType = 1 ∨ context.firstVideoKeyFrameSent = true
          · rw [processNalu_queued hes (hframe ▸ hgate)]
            exact .queued _ _ hstays (.inr ⟨hclass, hlength, hgate⟩) rfl
          · rw [processNalu_refused hes (hframe ▸ hgate)]
            refine .same _ hstays ?_ rfl
            rintro (hraw | ⟨-, -, hgate'⟩)
            · rw [hclass] at hraw
              cases hraw
            · exact hgate hgate'
  | [] | [_] | [_, _] =>
      have hshort : ¬ 5 ≤ m.body.length := by simp [hbody]
      have hstays : ¬ LeavesBody m := by
        rintro (⟨-, hlt⟩ | ⟨-, hle, -⟩)
        · exact hlong hlt
        · exact hshort hle
      have hqueues : ¬ QueuesFrame context m := by
        rintro (hraw | ⟨-, hle, -⟩)
        · rw [hclass] at hraw
          cases hraw
        · exact hshort hle
      rw [processFlvEsMessage_classify, hclass, hbody]
      exact .same (FlvMessage.refused context) hstays hqueues rfl

/-- Every message is refused or kept, becomes a frame, or leaves its buffer, as its bytes say. -/
theorem process_outcome :
    Outcome context m (processFlvEsMessage context m.messageType m.timestamp m.body) := by
  cases hclass : classify m.messageType m.body with
  | error fault =>
      have hlt : m.body.length < 2 := by
        by_contra hle
        obtain ⟨packet, hpacket⟩ := @classify_long m.messageType m.body (Nat.le_of_not_lt hle)
        rw [hclass] at hpacket
        cases hpacket
      have hshort := @classify_short m.messageType m.body hlt
      rw [hclass] at hshort
      rw [processFlvEsMessage_classify, hclass]
      split at hshort
      · next htype => exact .left fault (.inl ⟨htype, hlt⟩)
      · cases hshort
  | ok packet =>
      match packet with
      | none => exact outcome_kept hclass (by simp) (by simp)
      | some .aacRaw => exact outcome_aacRaw hclass
      | some .avcNalu => exact outcome_avcNalu hclass
      | some .aacSequenceHeader => exact outcome_kept hclass (by simp) (by simp)
      | some .avcSequenceHeader => exact outcome_kept hclass (by simp) (by simp)
      | some .avcEndOfSequence => exact outcome_kept hclass (by simp) (by simp)

end Outcomes

/-- The contexts that a call of `publish_to_streamer(context)` logs. -/
def publishLogs (context : MediaPublishEsContext) : List MediaPublishEsContext := [context]

/-- The contexts that a call of `publish_to_streamer(context, request)` logs: the one that
`process_flv_es_message` leaves, whatever it returns, and that of the call behind it. -/
def messageLogs (context : MediaPublishEsContext) (m : EsMessage) : List MediaPublishEsContext :=
  match processFlvEsMessage context m.messageType m.timestamp m.body with
  | .error _ => []
  | .ok r => r.context :: if r.ret then publishLogs r.context else []

/-- A call of either function, or an event that may lead to one. -/
inductive ContextCall where
  | es (call : EsCall)
  | event (event : RtmpHandler.Event)

namespace ContextCall

/-- The message that `handle_request` passes on to the streamer. -/
def esMessage (request : RtmpMessage) : Option EsMessage :=
  match request.body with
  | .audioMessage data => some ⟨request.header.msgTypeId.code, request.header.absTimestamp, data⟩
  | .videoMessage data => some ⟨request.header.msgTypeId.code, request.header.absTimestamp, data⟩
  | _ => none

variable (http : List PublishCall → HttpRequest → HttpResult)
variable (json : List UInt8 → JsonDocument)

def step (p : Publisher) : ContextCall → Except StreamerFault Publisher
  | .es call => call.step http json p
  | .event e => RtmpHandler.onEvent http json p e

/-- The contexts a call evaluates `to_string` on, in order. -/
def logs (p : Publisher) : ContextCall → List MediaPublishEsContext
  | .es (.process _) => []
  | .es .publish => publishLogs p.context
  | .event (.request request) =>
      match esMessage request with
      | none => []
      | some m => messageLogs p.context m
  | .event .disconnect => publishLogs { p.context with readyToEndOfStream := true }

/-- A frame waits before the call, or the message it is given brings one or is left before
anything is logged. -/
def FindsFrame (p : Publisher) : ContextCall → Prop
  | .es (.process _) => True
  | .es .publish => p.context.mediaEs ≠ []
  | .event (.request request) =>
      ∀ m ∈ esMessage request,
        p.context.mediaEs ≠ [] ∨ QueuesFrame p.context m ∨ LeavesBody m
  | .event .disconnect => p.context.mediaEs ≠ []

/-- A run of calls and events. -/
abbrev run (p : Publisher) (calls : List ContextCall) : Except StreamerFault Publisher :=
  History.run (step http json) p calls

/-- The contexts that `to_string` is evaluated on in a run. -/
abbrev logged (p : Publisher) (calls : List ContextCall) : List MediaPublishEsContext :=
  History.outputs (step http json) logs p calls

end ContextCall

section Logs

variable {context : MediaPublishEsContext} {m : EsMessage}

theorem publishLogs_forall :
    (∀ c ∈ publishLogs context, c.mediaEs ≠ []) ↔ context.mediaEs ≠ [] := by
  rw [publishLogs, List.forall_mem_singleton]

theorem messageLogs_forall :
    (∀ c ∈ messageLogs context m, c.mediaEs ≠ []) ↔
      context.mediaEs ≠ [] ∨ QueuesFrame context m ∨ LeavesBody m := by
  have houtcome : Outcome context m _ := process_outcome
  rw [messageLogs]
  cases hr : processFlvEsMessage context m.messageType m.timestamp m.body with
  | error fault =>
      rw [hr] at houtcome
      cases houtcome with
      | left _ hleaves => exact iff_of_true (by simp) (.inr (.inr hleaves))
  | ok r =>
      have hlogs : (∀ c ∈ r.context :: (if r.ret then publishLogs r.context else []),
          c.mediaEs ≠ []) ↔ r.context.mediaEs ≠ [] := by
        rw [List.forall_mem_cons]
        split
        · rw [publishLogs_forall, and_self_iff]
        · simp
      rw [hr] at houtcome
      rw [hlogs]
      cases houtcome with
      | queued _ es hstays hqueues hes =>
          rw [hes]
          exact iff_of_true (by simp) (.inr (.inl hqueues))
      | same _ hstays hqueues hes =>
          rw [hes, or_iff_left]
          exact not_or.mpr ⟨hqueues, hstays⟩

theorem ContextCall.logs_forall {p : Publisher} {call : ContextCall} :
    (∀ c ∈ call.logs p, c.mediaEs ≠ []) ↔ call.FindsFrame p := by
  match call with
  | .es (.process _) => exact iff_of_true (by simp [logs]) trivial
  | .es .publish => exact publishLogs_forall
  | .event .disconnect => exact publishLogs_forall
  | .event (.request request) =>
      rw [logs, FindsFrame]
      cases esMessage request with
      | none => simp
      | some m => simpa using messageLogs_forall

end Logs

open ContextCall
open RtmpHandler (granting grantingJson)

/-- In a run `to_string` is evaluated with a frame in the queue throughout, and defined, exactly
when each call that is reached finds a frame or is given one. -/
theorem context_log (http : List PublishCall → HttpRequest → HttpResult)
    (json : List UInt8 → JsonDocument) (calls : List ContextCall) :
    (∀ context ∈ logged http json {} calls,
        context.mediaEs ≠ [] ∧ context.toString.isSome = true) ↔
      History.Lawful
        (fun before call => ∀ p, run http json {} before = .ok p → call.FindsFrame p) calls := by
  rw [logged, History.outputs_forall_iff]
  simp only [MediaPublishEsContext.toString_isSome, and_self, logs_forall]

/-- An AAC sequence header, as the first message of a publisher. -/
def firstHeader : ContextCall :=
  .event (.request
    { header := { msgTypeId := .audioData }, body := .audioMessage [0xAF, 0x00, 0x12, 0x10] })

theorem logs_firstHeader : ¬ ∀ c ∈ firstHeader.logs {}, c.mediaEs ≠ [] := by
  decide +kernel

/-- No frame comes before the sequence headers. -/
theorem not_logged_firstHeader :
    ¬ ∀ (http : List PublishCall → HttpRequest → HttpResult) (json : List UInt8 → JsonDocument)
      (calls : List ContextCall),
      ∀ context ∈ logged http json {} calls, context.mediaEs ≠ [] := by
  intro h
  refine logs_firstHeader fun c hc => ?_
  exact h granting grantingJson [firstHeader] c (List.mem_append_left _ hc)

end Rtmp
