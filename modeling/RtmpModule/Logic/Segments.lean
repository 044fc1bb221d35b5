import RtmpModule.Logic.FrameQueue

/-!
# What the streamer is sent

`publish_es` sends the frame at the front of the queue: its number in the path, and
in the body a header of 22 bytes with the data behind it. A reader that goes by this
layout gets the frame back. In every run each of these requests, answered or not, is
about a frame that was queued, and the requests that were acknowledged are about the
uploaded frames in their order.
-/

namespace Rtmp

/-- A frame as a reader takes it from the path and the body of a request. -/
structure Segment where
  number : UInt64
  trackId : UInt8
  isKeyFrame : UInt8
  pts : UInt64
  dts : UInt64
  data : List UInt8
  deriving DecidableEq, Repr

namespace Segment

/-- The reader's side of `publish_es`: there has to be as much data as the header says. -/
def read (number : UInt64) : List UInt8 → Option Segment
  | trackId :: isKeyFrame :: body =>
      let times := body.take 16
      let data := body.drop 20
      if body.length < 20 ∨ Bytes.ofBE ((body.drop 16).take 4) ≠ data.length then none
      else some { number, trackId, isKeyFrame, data
                  pts := UInt64.ofNat (Bytes.ofBE (times.take 8))
                  dts := UInt64.ofNat (Bytes.ofBE (times.drop 8)) }
  | _ => none

end Segment

namespace MediaPublishEs

variable (es : MediaPublishEs)

/-- What is to be read of a frame. -/
def segment : Segment where
  number := es.frameNumber
  trackId := es.trackId
  isKeyFrame := es.isKeyFrame
  pts := es.pts
  dts := es.dts
  data := es.esStr

/-- The size of a frame is the number of its bytes, in 32 bits. -/
def Sized : Prop := es.size = UInt32.ofNat es.data.length

variable {es}

theorem Sized.length_esStr (h : es.Sized) : es.esStr.length = es.size.toNat := by
  rw [esStr, List.length_take, h, UInt32.toNat_ofNat']
  exact Nat.min_eq_left (Nat.mod_le _ _)

/-- Every frame is read back from its request. -/
theorem Sized.read_esBody (h : es.Sized) :
    Segment.read es.frameNumber (esBody es) = some es.segment := by
  let times := Bytes.toBE 8 es.pts.toNat ++ Bytes.toBE 8 es.dts.toNat
  let size := Bytes.toBE 4 es.size.toNat
  have htimes : times.length = 16 := by simp [times]
  have hsize : size.length = 4 := Bytes.length_toBE 4 _
  have hbody : esBody es = es.trackId :: es.isKeyFrame :: (times ++ (size ++ es.esStr)) := by
    simp [esBody, times, size]
  have hdata : (times ++ (size ++ es.esStr)).drop 20 = es.esStr := by
    rw [← List.append_assoc]
    exact List.drop_left' (by simp [htimes, hsize])
  have hpts : UInt64.ofNat (Bytes.ofBE (times.take 8)) = es.pts := by
    rw [List.take_left' (Bytes.length_toBE 8 _),
      Bytes.ofBE_toBE_of_lt (UInt64.toNat_lt es.pts), UInt64.ofNat_toNat]
  have hdts : UInt64.ofNat (Bytes.ofBE (times.drop 8)) = es.dts := by
    rw [List.drop_left' (Bytes.length_toBE 8 _),
      Bytes.ofBE_toBE_of_lt (UInt64.toNat_lt es.dts), UInt64.ofNat_toNat]
  have hfits : Bytes.ofBE size = es.esStr.length := by
    rw [Bytes.ofBE_toBE_of_lt (UInt32.toNat_lt es.size), h.length_esStr]
  rw [hbody, Segment.read]
  simp only [List.take_left' htimes, List.drop_left' htimes, List.take_left' hsize, hdata, hpts,
    hdts, hfits]
  have hlong : 20 ≤ (times ++ (size ++ es.esStr)).length := by
    simp only [List.length_append, htimes, hsize]
    omega
  rw [if_neg (by simpa using hlong)]
  rfl

end MediaPublishEs

/-- The request `publish_es` makes, if it makes one. -/
def MediaPublishEsContext.esRequest (context : MediaPublishEsContext) : Option HttpRequest :=
  match context.mediaEs with
  | [] => none
  | es :: _ =>
      if es.esStr.isEmpty then none
      else some (.publishEs context.publishEsAddrPort context.publishId es.frameNumber (esBody es))

/-- `publish_es` is no more than its request. -/
theorem publishEs_eq (send : HttpRequest → HttpResult) (context : MediaPublishEsContext) :
    publishEs send context =
      match context.esRequest with
      | none => 0
      | some request => checkResponse 1 (send request) := by
  rw [publishEs, MediaPublishEsContext.esRequest]
  cases context.mediaEs with
  | nil => rfl
  | cons es rest =>
      by_cases hempty : es.esStr.isEmpty = true
      · simp only [hempty, if_true]
      · simp only [hempty, Bool.false_eq_true, if_false]

/-- The segment a request is about. -/
def HttpRequest.segment : HttpRequest → Option Segment
  | .publishEs _ _ number body => Segment.read number body
  | _ => none

namespace PublishCall

variable (c : PublishCall)

/-- The request that was made to upload a frame. -/
def esRequest : Option HttpRequest :=
  match c.function with
  | .publishEs => c.context.esRequest
  | _ => none

/-- The segment the streamer is asked to take. -/
def segment : Option Segment := c.esRequest.bind HttpRequest.segment

end PublishCall

/-- The segments of all requests, also of those that failed. -/
def requested (calls : List PublishCall) : List Segment := calls.filterMap (·.segment)

/-- The segments that were acknowledged. -/
def acknowledged (calls : List PublishCall) : List Segment :=
  requested (calls.filter fun c => c.ec = 0)

/-- Each call of `publish_es` was about a queued frame, which has been uploaded since, has no
bytes or is still in front. -/
def AboutFrames (frames : List MediaPublishEs) (p : Publisher) : Prop :=
  ∀ c ∈ p.calls, c.function = .publishEs → ∃ es ∈ frames, c.context.mediaEs.head? = some es ∧
    (es.hasPayload = true → es ∈ uploads p.calls ∨ p.context.mediaEs.head? = some es)

namespace AboutFrames

variable {frames : List MediaPublishEs} {p q : Publisher} {context : MediaPublishEsContext}

theorem initial : AboutFrames [] {} := by
  intro c hc
  cases hc

/-- Frames are added behind the one in front. -/
theorem prepares (h : AboutFrames frames p) (hc : Prepares p.context context)
    (more : List MediaPublishEs) : AboutFrames (frames ++ more) { p with context } := by
  intro c hcall hfunction
  obtain ⟨es, hes, hhead, hsince⟩ := h c hcall hfunction
  refine ⟨es, List.mem_append_left _ hes, hhead, fun hpayload => (hsince hpayload).imp_right ?_⟩
  intro hfront
  rcases hc.frames with ⟨hsame, -⟩ | ⟨new, hnew, -, -⟩
  · exact hsame ▸ hfront
  · change context.mediaEs.head? = some es
    rw [hnew, List.head?_append, hfront, Option.some_or]

/-- A call after which the queue is the same, about the frame in front if it is one of
`publish_es`. -/
theorem recorded (h : AboutFrames frames p) {function : PublishFunction} {ec : Int}
    (hfront : function = .publishEs → ∃ es ∈ frames, p.context.mediaEs.head? = some es)
    (hes : context.mediaEs = p.context.mediaEs) :
    AboutFrames frames { p.record function ec with context } := by
  intro c hc hfunction
  change c ∈ p.calls ++ [⟨function, p.context, ec⟩] at hc
  rcases List.mem_append.mp hc with hc | hc
  · obtain ⟨es, hmem, hhead, hsince⟩ := h c hc hfunction
    refine ⟨es, hmem, hhead, fun hpayload => (hsince hpayload).imp ?_ fun hfront => hes ▸ hfront⟩
    intro huploaded
    change es ∈ uploads (p.calls ++ [⟨function, p.context, ec⟩])
    rw [uploads_concat]
    exact List.mem_append_left _ huploaded
  · obtain rfl := List.mem_singleton.mp hc
    obtain ⟨es, hmem, hhead⟩ := hfront hfunction
    exact ⟨es, hmem, hhead, fun _ => .inr (hes ▸ hhead)⟩

/-- The frame in front has been uploaded when the loop moves over it. -/
theorem uploaded (h : AboutFrames frames p) {es : MediaPublishEs} {rest : List MediaPublishEs}
    (hes : p.context.mediaEs = es :: rest) (hmem : es ∈ frames) :
    AboutFrames frames { p.record .publishEs 0 with
      context := { p.context with mediaEs := p.context.mediaEs.tail } } := by
  have huploads : uploads (p.record .publishEs 0).calls =
      uploads p.calls ++ if es.hasPayload then [es] else [] := by
    rw [Publisher.record, uploads_concat]
    by_cases hempty : es.esStr = [] <;>
      simp [PublishCall.uploaded, hes, MediaPublishEs.hasPayload, hempty]
  intro c hc hfunction
  have hdone : p.context.mediaEs.head? = some es := by rw [hes, List.head?_cons]
  have hlast : es.hasPayload = true → es ∈ uploads (p.record .publishEs 0).calls := by
    intro hpayload
    simp [huploads, hpayload]
  change c ∈ p.calls ++ [⟨.publishEs, p.context, 0⟩] at hc
  rcases List.mem_append.mp hc with hc | hc
  · obtain ⟨es', hmem', hhead, hsince⟩ := h c hc hfunction
    refine ⟨es', hmem', hhead, fun hpayload => .inl ?_⟩
    rcases hsince hpayload with hbefore | hfront
    · change es' ∈ uploads (p.record .publishEs 0).calls
      rw [huploads]
      exact List.mem_append_left _ hbefore
    · obtain rfl := Option.some.inj (hdone.symm.trans hfront)
      exact hlast hpayload
  · obtain rfl := List.mem_singleton.mp hc
    exact ⟨es, hmem, hdone, fun hpayload => .inl (hlast hpayload)⟩

theorem act (h : AboutFrames frames p) (haccounted : Accounted frames p)
    (hact : PublishAct p q) : AboutFrames frames q := by
  obtain ⟨taken, hframes, -⟩ := haccounted.taken
  cases hact with
  | esFailed hstate hne hec =>
      obtain ⟨es, rest, hes⟩ := List.exists_cons_of_ne_nil hne
      exact h.recorded (fun _ => ⟨es, by simp [hframes, hes], by rw [hes, List.head?_cons]⟩) rfl
  | uploaded hstate hne =>
      obtain ⟨es, rest, hes⟩ := List.exists_cons_of_ne_nil hne
      exact h.uploaded hes (by simp [hframes, hes])
  | _ => exact h.recorded (by simp) rfl

end AboutFrames

section Calls

variable {frames : List MediaPublishEs} {p : Publisher} {c : PublishCall} {es : MediaPublishEs}

theorem segment_of_function (h : c.function ≠ .publishEs) : c.segment = none := by
  obtain ⟨function, context, ec⟩ := c
  cases function with
  | publishEs => exact absurd rfl h
  | _ => rfl

/-- A call is about the frame in front, unless that has no bytes. -/
theorem segment_of_head (h : c.function = .publishEs) (hes : c.context.mediaEs.head? = some es)
    (hsized : es.Sized) :
    c.segment = if es.hasPayload then some es.segment else none := by
  obtain ⟨rest, hcons⟩ := List.head?_eq_some_iff.mp hes
  rw [PublishCall.segment, PublishCall.esRequest, h]
  simp only [MediaPublishEsContext.esRequest, hcons, MediaPublishEs.hasPayload]
  by_cases hempty : es.esStr = []
  · simp [hempty]
  · simp [hempty, HttpRequest.segment, hsized.read_esBody]

theorem uploaded_of_head (h : c.function = .publishEs)
    (hes : c.context.mediaEs.head? = some es) :
    c.uploaded = if c.ec = 0 ∧ es.hasPayload then some es else none := by
  obtain ⟨rest, hcons⟩ := List.head?_eq_some_iff.mp hes
  obtain ⟨function, context, ec⟩ := c
  cases h
  simp only at hcons
  simp [PublishCall.uploaded, hcons, MediaPublishEs.hasPayload]

/-- The acknowledged segments are those of the uploaded frames. -/
theorem acknowledged_eq (h : AboutFrames frames p) (hframes : ∀ es ∈ frames, es.Sized) :
    acknowledged p.calls = (uploads p.calls).map (·.segment) := by
  rw [acknowledged, requested, uploads, List.filterMap_filter, List.map_filterMap]
  apply List.filterMap_congr
  intro c hc
  by_cases hfunction : c.function = .publishEs
  · obtain ⟨es, hes, hhead, -⟩ := h c hc hfunction
    rw [segment_of_head hfunction hhead (hframes es hes), uploaded_of_head hfunction hhead]
    by_cases hec : c.ec = 0 <;> cases hpayload : es.hasPayload <;> simp [hec]
  · rw [segment_of_function hfunction, Accounted.not_uploaded (.inl hfunction)]
    simp

/-- Whatever was requested is acknowledged, or still in front of the queue. -/
theorem requested_mem (h : AboutFrames frames p) (hframes : ∀ es ∈ frames, es.Sized)
    {segment : Segment} (hsegment : segment ∈ requested p.calls) :
    segment ∈ acknowledged p.calls ∨
      (p.context.mediaEs.head?.map (·.segment)) = some segment := by
  obtain ⟨c, hc, hrequest⟩ := List.mem_filterMap.mp hsegment
  by_cases hfunction : c.function = .publishEs
  · obtain ⟨es, hes, hhead, hsince⟩ := h c hc hfunction
    rw [segment_of_head hfunction hhead (hframes es hes)] at hrequest
    split at hrequest
    · next hpayload =>
      cases hrequest
      rw [acknowledged_eq h hframes]
      refine (hsince hpayload).imp (fun huploaded => List.mem_map_of_mem huploaded) ?_
      intro hfront
      rw [hfront, Option.map_some]
    · cases hrequest
  · rw [segment_of_function hfunction] at hrequest
    cases hrequest

end Calls

end Rtmp
