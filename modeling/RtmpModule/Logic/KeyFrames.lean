import RtmpModule.Logic.EsRuns

/-!
# The key frame flag on its way to the streamer

`publish_es` sends a flag for every frame with bytes, from the field `isKeyFrame`. The
frame type of the message is handed to `make_media_es`, which does not store it, so
every frame that is ever queued has the default of the field.
-/

namespace Rtmp

open EsCall
open RtmpHandler (granting grantingJson)

/-- The second byte `publish_es` sends for a frame, behind the track. Of a frame without bytes
nothing is sent. -/
def MediaPublishEs.sentKeyFlag (es : MediaPublishEs) : Option UInt8 :=
  if es.esStr.isEmpty then none else (esBody es)[1]?

namespace EsCall.QueuedFrame

/-- The flag the streamer gets for a frame, if any, says whether its message held a key frame. -/
def Flagged (f : QueuedFrame) : Prop :=
  ∀ flag ∈ f.es.sentKeyFlag, (flag = 1 ↔ f.frameType = 1)

theorem flagged_iff {f : QueuedFrame} (h : f.es.isKeyFrame = 1) :
    f.Flagged ↔ f.es.hasPayload = false ∨ f.frameType = 1 := by
  rw [Flagged, MediaPublishEs.sentKeyFlag, MediaPublishEs.hasPayload]
  cases hbytes : f.es.esStr with
  | nil => simp
  | cons b bytes =>
      have hsent : (esBody f.es)[1]? = some 1 := congrArg some h
      simp [hsent]

end EsCall.QueuedFrame

section Flags

variable {context : MediaPublishEsContext} {m : EsMessage} {r : Processed} {f : QueuedFrame}

/-- A frame is queued with the default of its flag. -/
theorem EsEffect.isKeyFrame (heffect : EsEffect context m r)
    (hf : f ∈ newFrames context m r) : f.es.isKeyFrame = 1 := by
  have hnone : r.context.mediaEs = context.mediaEs → f.es.isKeyFrame = 1 := by
    intro hes
    rw [newFrames, hes, List.drop_length] at hf
    cases hf
  have hone : ∀ es, es.isKeyFrame = 1 → r.context.mediaEs = context.mediaEs ++ [es] →
      f.es.isKeyFrame = 1 := by
    intro es hdefault hes
    rw [newFrames_concat hes, List.mem_singleton] at hf
    rw [hf]
    exact hdefault
  cases heffect with
  | audioFrame es dts => exact hone _ rfl rfl
  | videoFrame es pts dts hgate => exact hone _ rfl rfl
  | _ => exact hnone rfl

variable {http : List PublishCall → HttpRequest → HttpResult} {json : List UInt8 → JsonDocument}
variable {calls : List EsCall} {p q : Publisher}

theorem queuedBy_isKeyFrame {call : EsCall} (h : call.step http json p = .ok q)
    (hf : f ∈ call.queuedBy p) : f.es.isKeyFrame = 1 := by
  cases call with
  | process m =>
      obtain ⟨r, hr, -⟩ := step_process.mp h
      rw [queuedBy_process hr] at hf
      exact (processFlvEsMessage_effect hr).isKeyFrame hf
  | publish => cases hf

theorem queued_isKeyFrame (h : run http json p calls = .ok q) :
    ∀ f ∈ queued http json p calls, f.es.isKeyFrame = 1 := by
  have hstep : ∀ (before : List QueuedFrame) (p : Publisher) (call : EsCall) (q : Publisher),
      (∀ f ∈ before, f.es.isKeyFrame = 1) → call.step http json p = .ok q →
        ∀ f ∈ before ++ call.queuedBy p, f.es.isKeyFrame = 1 := by
    intro before p call q hbefore hcall f hf
    rcases List.mem_append.mp hf with hf | hf
    · exact hbefore f hf
    · exact queuedBy_isKeyFrame hcall hf
  have hqueued := History.run_outputs_invariant (fun before p call q => hstep before p call q)
    (List.forall_mem_nil _) h
  exact hqueued

end Flags

/-- In every run, the flag of a video frame with bytes is right exactly when it is a key frame. -/
theorem keyFlag_iff (http : List PublishCall → HttpRequest → HttpResult)
    (json : List UInt8 → JsonDocument) (calls : List EsCall) (p : Publisher)
    (h : run http json {} calls = .ok p) :
    ∀ f ∈ queued http json {} calls,
      f.IsVideo → (f.Flagged ↔ f.es.hasPayload = false ∨ f.frameType = 1) :=
  fun f hf _ => QueuedFrame.flagged_iff (queued_isKeyFrame h f hf)

/-- A key frame and another frame behind it. -/
def twoFrames : List EsCall :=
  [.process ⟨9, 0, [0x17, 0x01, 0x00, 0x00, 0x00, 0x00, 0x00, 0x00, 0x01, 0x65]⟩,
    .process ⟨9, 40, [0x27, 0x01, 0x00, 0x00, 0x00, 0x00, 0x00, 0x00, 0x01, 0x41]⟩]

theorem keyFlag_iff_twoFrames :
    ∃ p, run granting grantingJson {} twoFrames = .ok p ∧
      ∀ f ∈ queued granting grantingJson {} twoFrames,
        f.IsVideo → (f.Flagged ↔ f.es.hasPayload = false ∨ f.frameType = 1) := by
  obtain ⟨p, h⟩ : ∃ p, run granting grantingJson {} twoFrames = .ok p :=
    History.exists_ok (by decide +kernel)
  exact ⟨p, h, keyFlag_iff granting grantingJson twoFrames p h⟩

/-- The frame behind the key frame is sent as one, too. -/
theorem not_flagged_twoFrames :
    ¬ ∀ (http : List PublishCall → HttpRequest → HttpResult) (json : List UInt8 → JsonDocument)
      (calls : List EsCall) (p : Publisher), run http json {} calls = .ok p →
        ∀ f ∈ queued http json {} calls, f.IsVideo → f.Flagged := by
  intro h
  obtain ⟨p, hrun⟩ : ∃ p, run granting grantingJson {} twoFrames = .ok p :=
    History.exists_ok (by decide +kernel)
  have hmem : ∃ f ∈ queued granting grantingJson {} twoFrames,
      f.IsVideo ∧ f.es.hasPayload = true ∧ f.frameType = 2 := by
    decide +kernel
  obtain ⟨f, hf, hvideo, hbytes, htype⟩ := hmem
  have hflagged := h granting grantingJson twoFrames p hrun f hf hvideo
  have hkey := (QueuedFrame.flagged_iff (queued_isKeyFrame hrun f hf)).mp hflagged
  rw [hbytes, htype] at hkey
  rcases hkey with hkey | hkey <;> cases hkey

end Rtmp
