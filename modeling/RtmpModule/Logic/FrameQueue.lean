import RtmpModule.Logic.PublishOrder

/-!
# The frames of a connection

Every frame that was ever queued is accounted for: the frames behind which the
loop of `publish_to_streamer` has moved, in the order in which they were queued,
and then those still waiting. The frames moved over are the uploaded ones and those
without bytes. Frames are numbered by a 64-bit counter, so their numbers go up as
long as fewer than 2^64 of them were queued, and start again behind that.
-/

namespace Rtmp

/-- The frame a call uploaded. -/
def PublishCall.uploaded (c : PublishCall) : Option MediaPublishEs :=
  match c.function, c.context.mediaEs with
  | .publishEs, es :: _ => if c.ec = 0 ∧ es.esStr ≠ [] then some es else none
  | _, _ => none

/-- The frames whose upload succeeded, oldest first. -/
def uploads (calls : List PublishCall) : List MediaPublishEs := calls.filterMap (·.uploaded)

def MediaPublishEs.hasPayload (es : MediaPublishEs) : Bool := decide (es.esStr ≠ [])

theorem uploads_concat (calls : List PublishCall) (c : PublishCall) :
    uploads (calls ++ [c]) = uploads calls ++ c.uploaded.toList := by
  cases h : c.uploaded <;> simp [uploads, h]

namespace RtmpHandler

/-- The frames an event puts into the queue. -/
def queuedBy (context : MediaPublishEsContext) (e : Event) : List MediaPublishEs :=
  match prepare context e with
  | .error _ => []
  | .ok (context', _) => context'.mediaEs.drop context.mediaEs.length

/-- The frames the events of a run put into the queue, oldest first. -/
def queued (http : List PublishCall → HttpRequest → HttpResult)
    (json : List UInt8 → JsonDocument) : Publisher → List Event → List MediaPublishEs
  | _, [] => []
  | p, e :: events =>
      queuedBy p.context e ++
        match onEvent http json p e with
        | .error _ => []
        | .ok q => queued http json q events

end RtmpHandler

/-- The frames ever queued, against the queue, the uploads and the counter. -/
structure Accounted (frames : List MediaPublishEs) (p : Publisher) : Prop where
  taken : ∃ taken, frames = taken ++ p.context.mediaEs ∧
    uploads p.calls = taken.filter MediaPublishEs.hasPayload
  numbers : frames.map (·.frameNumber) =
    (List.range frames.length).map fun i => UInt64.ofNat (i + 1)
  counter : p.context.frameNumber = UInt64.ofNat frames.length

namespace Accounted

variable {frames : List MediaPublishEs} {p q : Publisher} {context : MediaPublishEsContext}

theorem initial : Accounted [] {} where
  taken := ⟨[], rfl, rfl⟩
  numbers := rfl
  counter := rfl

theorem not_uploaded {c : PublishCall} (h : c.function ≠ .publishEs ∨ c.ec ≠ 0) :
    c.uploaded = none := by
  obtain ⟨function, context, ec⟩ := c
  cases function <;> cases hes : context.mediaEs <;> simp_all [PublishCall.uploaded]

/-- A call that uploads nothing, after which the queue is the same. -/
theorem recorded (h : Accounted frames p) {function : PublishFunction} {ec : Int}
    (hnone : function ≠ .publishEs ∨ ec ≠ 0) (hes : context.mediaEs = p.context.mediaEs)
    (hnumber : context.frameNumber = p.context.frameNumber) :
    Accounted frames { p.record function ec with context } where
  taken := by
    obtain ⟨taken, hframes, huploads⟩ := h.taken
    refine ⟨taken, by rw [hframes, hes], ?_⟩
    change uploads (p.calls ++ [⟨function, p.context, ec⟩]) = _
    rw [uploads_concat, not_uploaded hnone, huploads]
    simp
  numbers := h.numbers
  counter := hnumber.trans h.counter

/-- The loop moves over a frame, which it has uploaded unless it has no bytes. -/
theorem uploaded (h : Accounted frames p) (hne : p.context.mediaEs ≠ []) :
    Accounted frames { p.record .publishEs 0 with
      context := { p.context with mediaEs := p.context.mediaEs.tail } } where
  taken := by
    obtain ⟨taken, hframes, huploads⟩ := h.taken
    obtain ⟨es, rest, hes⟩ := List.exists_cons_of_ne_nil hne
    refine ⟨taken ++ [es], by simp [hframes, hes], ?_⟩
    change uploads (p.calls ++ [⟨.publishEs, p.context, 0⟩]) = _
    rw [uploads_concat, huploads, List.filter_append]
    congr 1
    by_cases hpayload : es.esStr = [] <;>
      simp [PublishCall.uploaded, hes, MediaPublishEs.hasPayload, hpayload]
  numbers := h.numbers
  counter := h.counter

theorem act (h : Accounted frames p) (hact : PublishAct p q) : Accounted frames q := by
  cases hact with
  | esFailed hstate hne hec => exact h.recorded (.inr hec) rfl rfl
  | uploaded hstate hne => exact h.uploaded hne
  | _ => exact h.recorded (.inl (by simp)) rfl rfl

theorem acts (h : Accounted frames p) (hacts : Relation.ReflTransGen PublishAct p q) :
    Accounted frames q :=
  PublishAct.run_invariant (fun _ _ hp hact => hp.act hact) h hacts

/-- What an event adds to the queue is the new frames, numbered on from the old ones. -/
theorem prepares (h : Accounted frames p) (hc : Prepares p.context context) :
    Accounted (frames ++ context.mediaEs.drop p.context.mediaEs.length) { p with context } := by
  obtain ⟨taken, hframes, huploads⟩ := h.taken
  rcases hc.frames with ⟨hes, hnumber⟩ | ⟨es, hes, hesNumber, hnumber⟩
  · rw [hes, List.drop_length, List.append_nil]
    exact ⟨⟨taken, by rw [hframes, hes], huploads⟩, h.numbers, hnumber.trans h.counter⟩
  · rw [hes, List.drop_left]
    have hnext : UInt64.ofNat frames.length + 1 = UInt64.ofNat (frames.length + 1) := by simp
    refine ⟨⟨taken, by rw [hframes, hes, List.append_assoc], huploads⟩, ?_, ?_⟩
    · rw [List.map_append, h.numbers, List.length_append, List.length_singleton, List.range_succ,
        List.map_append]
      simp [hesNumber, h.counter]
    · rw [List.length_append, List.length_singleton, ← hnext, ← h.counter]
      exact hnumber

/-- Each waiting frame has the number behind that of the frame in front of it. -/
theorem consecutive (h : Accounted frames p) :
    p.context.mediaEs.IsChain fun a b => b.frameNumber = a.frameNumber + 1 := by
  have hnumbers : (frames.map (·.frameNumber)).IsChain fun a b => b = a + 1 := by
    rw [h.numbers, List.isChain_map]
    apply (List.isChain_range _ _).mpr
    intro i hi
    simp
  obtain ⟨taken, hframes, -⟩ := h.taken
  rw [hframes] at hnumbers
  exact ((List.isChain_map _).mp hnumbers).right_of_append

theorem last (h : Accounted frames p) {es : MediaPublishEs}
    (hes : p.context.mediaEs.getLast? = some es) : es.frameNumber = p.context.frameNumber := by
  obtain ⟨taken, hframes, -⟩ := h.taken
  have hlast : (frames.map (·.frameNumber)).getLast? = some es.frameNumber := by
    rw [hframes, List.getLast?_map, List.getLast?_append, hes]
    rfl
  rw [h.numbers, List.getLast?_map, List.getLast?_range] at hlast
  split at hlast
  · cases hlast
  · next hpos =>
    have hpred : frames.length - 1 + 1 = frames.length := by omega
    rw [Option.map_some, hpred] at hlast
    rw [h.counter]
    exact (Option.some.inj hlast).symm

/-- Below 2^64 frames the numbers are 1, 2, 3 and so on. -/
theorem numbered (h : Accounted frames p) (hfew : frames.length < 2 ^ 64) :
    frames.map (·.frameNumber.toNat) = List.range' 1 frames.length := by
  have hmap : frames.map (·.frameNumber.toNat) =
      (frames.map (·.frameNumber)).map UInt64.toNat := by
    rw [List.map_map]
    rfl
  rw [hmap, h.numbers, List.map_map, List.range'_eq_map_range]
  apply List.map_congr_left
  intro i hi
  have hlt : i < frames.length := List.mem_range.mp hi
  have hmod : (i + 1) % 2 ^ 64 = i + 1 := Nat.mod_eq_of_lt (by omega)
  change (UInt64.ofNat (i + 1)).toNat = 1 + i
  rw [UInt64.toNat_ofNat', hmod, Nat.add_comm]

/-- Below 2^64 frames the numbers go up from frame to frame. -/
theorem increasing (h : Accounted frames p) (hfew : frames.length < 2 ^ 64) :
    frames.Pairwise fun a b => a.frameNumber < b.frameNumber := by
  have hmap : (frames.map (·.frameNumber)).Pairwise (· < ·) := by
    rw [h.numbers, List.pairwise_map]
    refine List.pairwise_lt_range.imp_of_mem ?_
    intro i j _ hj hij
    have hj' : j < frames.length := List.mem_range.mp hj
    rw [UInt64.lt_iff_toNat_lt, UInt64.toNat_ofNat', UInt64.toNat_ofNat',
      Nat.mod_eq_of_lt (by omega), Nat.mod_eq_of_lt (by omega)]
    omega
  exact List.pairwise_map.mp hmap

end Accounted

/-- The uploads go up in frame numbers, every number once, and every frame with bytes is
uploaded or waits, in front of the frames with larger numbers. -/
structure FramesKept (frames : List MediaPublishEs) (p : Publisher) : Prop where
  increasing : (uploads p.calls).Pairwise fun a b => a.frameNumber < b.frameNumber
  once : ((uploads p.calls).map (·.frameNumber)).Nodup
  kept : ∀ es ∈ frames, es.esStr ≠ [] → es ∈ uploads p.calls ∨ es ∈ p.context.mediaEs
  inOrder : p.context.mediaEs.Pairwise fun a b => a.frameNumber < b.frameNumber

theorem Accounted.framesKept {frames : List MediaPublishEs} {p : Publisher}
    (h : Accounted frames p) (hfew : frames.length < 2 ^ 64) : FramesKept frames p := by
  have hframes := h.increasing hfew
  obtain ⟨taken, hsplit, huploads⟩ := h.taken
  rw [hsplit, List.pairwise_append] at hframes
  obtain ⟨htaken, hwaiting, -⟩ := hframes
  have hup : (uploads p.calls).Pairwise fun a b => a.frameNumber < b.frameNumber := by
    rw [huploads]
    exact htaken.filter _
  refine ⟨hup, ?_, ?_, hwaiting⟩
  · rw [List.nodup_iff_pairwise_ne, List.pairwise_map]
    exact hup.imp fun hlt => UInt64.ne_of_lt hlt
  · intro es hes hpayload
    rw [hsplit] at hes
    rcases List.mem_append.mp hes with hes | hes
    · exact .inl (huploads ▸ List.mem_filter.mpr
        ⟨hes, by simpa [MediaPublishEs.hasPayload] using hpayload⟩)
    · exact .inr hes

/-- Uploads and waiting frames together are the frames ever queued. -/
theorem Accounted.conserved {frames : List MediaPublishEs} {p : Publisher}
    (h : Accounted frames p) :
    uploads p.calls ++ p.context.mediaEs.filter MediaPublishEs.hasPayload =
      frames.filter MediaPublishEs.hasPayload := by
  obtain ⟨taken, hsplit, huploads⟩ := h.taken
  rw [hsplit, huploads, List.filter_append]

namespace RtmpHandler

variable {http : List PublishCall → HttpRequest → HttpResult} {json : List UInt8 → JsonDocument}
variable {frames : List MediaPublishEs} {p q : Publisher} {events : List Event}

theorem run_accounted (hp : Accounted frames p)
    (h : History.run (onEvent http json) p events = .ok q) :
    Accounted (frames ++ queued http json p events) q := by
  induction events generalizing frames p with
  | nil =>
      cases h
      simpa [queued] using hp
  | cons e events ih =>
      obtain ⟨p', hstep, hrest⟩ := History.run_cons_ok.mp h
      obtain ⟨context, publishes, hprepare, hacts⟩ := onEvent_acts hstep
      have hp' := (hp.prepares (prepare_prepares hprepare)).acts hacts
      have hqueued : queued http json p (e :: events) =
          context.mediaEs.drop p.context.mediaEs.length ++ queued http json p' events := by
        simp only [queued, queuedBy, hprepare, hstep]
      rw [hqueued, ← List.append_assoc]
      exact ih hp' hrest

/-- As long as fewer than 2^64 frames were queued, none of them is lost, uploaded twice or
reordered. -/
theorem frames_kept (http : List PublishCall → HttpRequest → HttpResult)
    (json : List UInt8 → JsonDocument) (events : List Event) (p : Publisher)
    (h : run http json events = .ok p) (hfew : (queued http json {} events).length < 2 ^ 64) :
    FramesKept (queued http json {} events) p ∧
      uploads p.calls ++ p.context.mediaEs.filter MediaPublishEs.hasPayload =
        (queued http json {} events).filter MediaPublishEs.hasPayload := by
  have haccounted := run_accounted Accounted.initial h
  rw [List.nil_append] at haccounted
  exact ⟨haccounted.framesKept hfew, haccounted.conserved⟩

theorem frames_kept_shortStream :
    ∃ p, run granting grantingJson shortStream = .ok p ∧
      FramesKept (queued granting grantingJson {} shortStream) p ∧
      uploads p.calls ++ p.context.mediaEs.filter MediaPublishEs.hasPayload =
        (queued granting grantingJson {} shortStream).filter MediaPublishEs.hasPayload := by
  obtain ⟨p, h⟩ : ∃ p, run granting grantingJson shortStream = .ok p :=
    History.exists_ok (by decide +kernel)
  exact ⟨p, h, frames_kept granting grantingJson shortStream p h (by decide +kernel)⟩

/-- A streamer that cannot be reached. -/
def unreachable : List PublishCall → HttpRequest → HttpResult := fun _ _ => .failed

def rawAudio : Event := audio [0xAF, 0x01, 0x21]

theorem publishToStreamer_unreachable (hstate : p.context.publishState = .begin) :
    p.publishToStreamer unreachable json = .ok (p.record .beginPublish (-1)) := by
  rw [Publisher.publishToStreamer, Publisher.beginPart, if_pos hstate]
  rfl

/-- While no publish can be begun, an audio frame is queued and stays. -/
theorem onEvent_rawAudio (hstate : p.context.publishState = .begin) :
    ∃ q es, onEvent unreachable grantingJson p rawAudio = .ok q ∧
      q.context.publishState = .begin ∧
      q.context.mediaEs = p.context.mediaEs ++ [es] ∧
      es.frameNumber = p.context.frameNumber + 1 ∧
      q.context.frameNumber = p.context.frameNumber + 1 := by
  let context := FlvMessage.pushFrame p.context .audio [0x21] 1 0 0
  let context' := { context with audioFrameNumber := context.audioFrameNumber + 1 }
  have hprepare : prepare p.context rawAudio = .ok (context', true) := rfl
  refine ⟨Publisher.record { p with context := context' } .beginPublish (-1), _, ?_, hstate, rfl,
    rfl, rfl⟩
  rw [onEvent_eq, hprepare]
  exact @publishToStreamer_unreachable grantingJson { p with context := context' } hstate

theorem run_rawAudio (n : Nat) :
    ∃ q, run unreachable grantingJson (List.replicate n rawAudio) = .ok q ∧
      q.context.publishState = .begin ∧ q.context.frameNumber = UInt64.ofNat n ∧
      q.context.mediaEs.map (·.frameNumber) =
        (List.range n).map fun i => UInt64.ofNat (i + 1) := by
  induction n with
  | zero => exact ⟨{}, rfl, rfl, rfl, rfl⟩
  | succ n ih =>
      obtain ⟨p, hrun, hstate, hcounter, hnumbers⟩ := ih
      obtain ⟨q, es, hstep, hstate', hes, hnumber, hcounter'⟩ := onEvent_rawAudio hstate
      have hnext : UInt64.ofNat n + 1 = UInt64.ofNat (n + 1) := by simp
      refine ⟨q, ?_, hstate', by rw [hcounter', hcounter, hnext], ?_⟩
      · rw [List.replicate_succ', run]
        exact History.run_concat_ok.mpr ⟨p, hrun, hstep⟩
      · rw [hes, List.map_append, hnumbers, List.range_succ, List.map_append]
        simp [hnumber, hcounter]

/-- After 2^64 frames the frame numbered 0 waits behind one with the largest number. -/
theorem not_framesKept_rawAudio :
    ∃ p, run unreachable grantingJson (List.replicate (2 ^ 64) rawAudio) = .ok p ∧
      ¬ FramesKept (queued unreachable grantingJson {} (List.replicate (2 ^ 64) rawAudio)) p := by
  obtain ⟨p, hrun, -, -, hnumbers⟩ := run_rawAudio (2 ^ 64)
  refine ⟨p, hrun, ?_⟩
  intro h
  have hlt : (p.context.mediaEs.map (·.frameNumber)).Pairwise (· < ·) :=
    List.pairwise_map.mpr h.inOrder
  rw [hnumbers, List.pairwise_iff_getElem] at hlt
  have h := hlt (2 ^ 64 - 2) (2 ^ 64 - 1) (by simp) (by simp) (by decide)
  rw [List.getElem_map, List.getElem_map, List.getElem_range, List.getElem_range] at h
  exact absurd h (by decide)

end RtmpHandler

end Rtmp
