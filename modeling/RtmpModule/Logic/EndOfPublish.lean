import RtmpModule.Logic.PublishOrder

/-!
# The end of a publish

With a streamer that grants every request a call of `publish_to_streamer` acts on
little: the state of the publish, the frames that wait, whether the stream is ready,
whether an end flag is set, and how often the publish was begun and ended. That
abstraction of the code is proved first. A publish is begun at most once. It is ended
once and in time as long as no call finds it ended already with nothing waiting and
an end flag set, and no disconnect finds frames that the stream is not ready for.
-/

namespace Rtmp

/-- How often a function was called. -/
def timesCalled (function : PublishFunction) (calls : List PublishCall) : Nat :=
  (calls.filter fun c => c.function = function).length

theorem timesCalled_concat (function : PublishFunction) (calls : List PublishCall)
    (c : PublishCall) :
    timesCalled function (calls ++ [c]) =
      timesCalled function calls + if c.function = function then 1 else 0 := by
  by_cases h : c.function = function <;> simp [timesCalled, h]

/-- One of the end flags is set. -/
def MediaPublishEsContext.ending (context : MediaPublishEsContext) : Bool :=
  context.readyToEndOfStream || context.endOfVideoEs

/-- What a granted publish depends on. -/
structure PublishSummary where
  state : PublishState
  waiting : List MediaPublishEs
  ready : Bool
  ending : Bool
  begins : Nat
  ends : Nat

namespace PublishSummary

variable (s : PublishSummary)

def begun : PublishSummary :=
  if s.state = .begin then { s with state := .init, begins := s.begins + 1 } else s

def inited : PublishSummary :=
  if s.state = .init ∧ s.ready = true then { s with state := .publishing } else s

def uploaded : PublishSummary := if s.state = .publishing then { s with waiting := [] } else s

def finished : PublishSummary :=
  if s.waiting = [] ∧ s.ending = true then { s with state := .ended, ends := s.ends + 1 } else s

/-- A granted call up to its last part. -/
def flushed : PublishSummary := s.begun.inited.uploaded

/-- A granted call of `publish_to_streamer`. -/
def publish : PublishSummary := s.flushed.finished

/-- The calls that were made fit the state. -/
structure Sound : Prop where
  begins : s.begins = if s.state = .begin then 0 else 1
  ends : s.state = .ended → 1 ≤ s.ends

/-- The publish is ended exactly when it was ended once. -/
def Once : Prop := s.ends = if s.state = .ended then 1 else 0

/-- Nothing is sent twice by a call that finds the publish ended. -/
def Settled : Prop := s.state = .ended → s.waiting ≠ [] ∨ s.ending = false

/-- The frames that wait can be sent. -/
def Flushable : Prop := s.waiting = [] ∨ s.state = .publishing ∨ s.ready = true

end PublishSummary

def Publisher.summary (p : Publisher) : PublishSummary where
  state := p.context.publishState
  waiting := p.context.mediaEs
  ready := p.context.readyToSend
  ending := p.context.ending
  begins := timesCalled .beginPublish p.calls
  ends := timesCalled .endPublish p.calls

/-- A call that is recorded is counted. -/
theorem Publisher.summary_record (p : Publisher) (function : PublishFunction) (ec : Int)
    (context : MediaPublishEsContext) :
    ({ p.record function ec with context } : Publisher).summary =
      { ({ p with context } : Publisher).summary with
        begins := p.summary.begins + if function = .beginPublish then 1 else 0
        ends := p.summary.ends + if function = .endPublish then 1 else 0 } := by
  show PublishSummary.mk _ _ _ _ _ _ = PublishSummary.mk _ _ _ _ _ _
  rw [record, timesCalled_concat, timesCalled_concat]
  rfl

/-- Every HTTP call succeeds: requests are answered with a status of 2xx, and the answer that
begins a publish has both members. -/
structure Grants (http : List PublishCall → HttpRequest → HttpResult)
    (json : List UInt8 → JsonDocument) : Prop where
  answers : ∀ calls r, ∃ status body,
    http calls r = .response status body ∧ 200 ≤ status ∧ status < 300
  begins : ∀ calls streamName provider recording status body,
    http calls (.beginPublish streamName provider recording) = .response status body →
    ∃ id addr, json body = .object (some id) (some addr)

namespace Grants

variable {http : List PublishCall → HttpRequest → HttpResult} {json : List UInt8 → JsonDocument}
variable (h : Grants http json) (calls : List PublishCall) (context : MediaPublishEsContext)
variable (p : Publisher)
include h

theorem checkResponse (failed : Int) (r : HttpRequest) :
    Rtmp.checkResponse failed (http calls r) = 0 := by
  obtain ⟨status, body, hr, hle, hlt⟩ := h.answers calls r
  rw [hr, Rtmp.checkResponse, if_neg (by omega)]

theorem beginPublish :
    ∃ uploadId publishAddr, Rtmp.beginPublish (http calls) json context =
      .ok { ec := 0, publishAddr, uploadId } := by
  obtain ⟨status, body, hr, hle, hlt⟩ :=
    h.answers calls (.beginPublish context.streamName context.provider (context.recording = 1))
  obtain ⟨id, addr, hjson⟩ := h.begins _ _ _ _ _ _ hr
  exact ⟨id, addr, by rw [Rtmp.beginPublish, hr]; simp only [hjson]; rw [if_neg (by omega)]⟩

theorem initPublish : Rtmp.initPublish (http calls) context = 0 := by
  simp only [Rtmp.initPublish, Base64.encodeShort_eq]
  exact h.checkResponse calls 1 _

theorem publishEs : Rtmp.publishEs (http calls) context = 0 := by
  rw [Rtmp.publishEs]
  split
  · rfl
  · split
    · rfl
    · exact h.checkResponse calls 1 _

theorem endPublish : Rtmp.endPublish (http calls) context = 0 := h.checkResponse calls (-1) _

theorem beginPart :
    ∃ q, p.beginPart http json = .ok (q, true) ∧ q.summary = p.summary.begun := by
  by_cases hstate : p.context.publishState = .begin
  · obtain ⟨uploadId, addr, hbegin⟩ := h.beginPublish p.calls p.context
    refine ⟨_, by rw [Publisher.beginPart, if_pos hstate, hbegin]; rfl, ?_⟩
    rw [PublishSummary.begun, if_pos (show p.summary.state = .begin from hstate)]
    exact p.summary_record .beginPublish 0 _
  · refine ⟨p, by rw [Publisher.beginPart, if_neg hstate], ?_⟩
    rw [PublishSummary.begun, if_neg (show ¬ p.summary.state = .begin from hstate)]

theorem initPart :
    ∃ q, p.initPart http = (q, true) ∧ q.summary = p.summary.inited := by
  by_cases hready : p.context.publishState = .init ∧ p.context.readyToSend
  · refine ⟨_, by rw [Publisher.initPart, if_pos hready]; simp only [h.initPublish]; rfl, ?_⟩
    rw [PublishSummary.inited,
      if_pos (show p.summary.state = .init ∧ p.summary.ready = true from hready)]
    exact p.summary_record .initPublish 0 _
  · refine ⟨p, by rw [Publisher.initPart, if_neg hready], ?_⟩
    rw [PublishSummary.inited,
      if_neg (show ¬ (p.summary.state = .init ∧ p.summary.ready = true) from hready)]

/-- Induction over the frames that wait: every frame is uploaded. -/
theorem esLoop :
    ∃ q, p.esLoop http = (q, true) ∧ q.summary = p.summary.uploaded := by
  by_cases hstate : p.context.publishState = .publishing
  · rw [PublishSummary.uploaded, if_pos (show p.summary.state = .publishing from hstate)]
    induction hn : p.context.mediaEs.length generalizing p with
    | zero =>
        have hempty : p.context.mediaEs = [] := List.length_eq_zero_iff.mp hn
        refine ⟨p, Publisher.esLoop_idle (by simp [hempty]), ?_⟩
        simp [Publisher.summary, hempty]
    | succ n ih =>
        have hne : p.context.mediaEs ≠ [] := by
          intro hempty
          simp [hempty] at hn
        obtain ⟨q, hq, hsummary⟩ := ih p.afterUpload hstate (by simp [Publisher.afterUpload, hn])
        refine ⟨q, ?_, ?_⟩
        · rw [Publisher.esLoop_uploaded hstate hne (h.publishEs p.calls p.context), hq]
        · rw [hsummary, Publisher.afterUpload, p.summary_record]
          rfl
  · refine ⟨p, Publisher.esLoop_idle fun hround => hstate hround.1, ?_⟩
    rw [PublishSummary.uploaded, if_neg (show ¬ p.summary.state = .publishing from hstate)]

theorem endPart : (p.endPart http).summary = p.summary.finished := by
  have hempty : p.context.mediaEs.isEmpty = true ↔ p.summary.waiting = [] := List.isEmpty_iff
  have hending : (p.context.readyToEndOfStream = true ∨ p.context.endOfVideoEs = true) ↔
      p.summary.ending = true := by
    simp [Publisher.summary, MediaPublishEsContext.ending]
  rw [Publisher.endPart, PublishSummary.finished]
  simp only [hempty, hending, h.endPublish]
  split
  · exact p.summary_record .endPublish 0 _
  · rfl

/-- A granted call of `publish_to_streamer` does what the abstraction says. -/
theorem publishToStreamer :
    ∃ q, p.publishToStreamer http json = .ok q ∧ q.summary = p.summary.publish := by
  obtain ⟨p₁, hbegin, h₁⟩ := h.beginPart p
  obtain ⟨p₂, hinit, h₂⟩ := h.initPart p₁
  obtain ⟨p₃, hloop, h₃⟩ := h.esLoop p₂
  refine ⟨p₃.endPart http, ?_, ?_⟩
  · simp only [Publisher.publishToStreamer, hbegin, hinit, hloop]
  · rw [h.endPart, h₃, h₂, h₁]
    rfl

end Grants

namespace PublishSummary

variable {s : PublishSummary}

theorem flushed_counts :
    s.flushed.begins = s.begins + (if s.state = .begin then 1 else 0) ∧
      s.flushed.ends = s.ends ∧ s.flushed.ending = s.ending := by
  obtain ⟨state, waiting, ready, ending, begins, ends⟩ := s
  cases state <;> cases ready <;> simp [flushed, begun, inited, uploaded]

theorem flushed_of_ended (h : s.state = .ended) :
    s.flushed.state = .ended ∧ s.flushed.waiting = s.waiting := by
  obtain ⟨state, waiting, ready, ending, begins, ends⟩ := s
  cases h
  simp [flushed, begun, inited, uploaded]

/-- Before its end the publish goes on, and frames are sent if the stream is ready. -/
theorem flushed_of_not_ended (h : s.state ≠ .ended) :
    s.flushed.state ≠ .begin ∧ s.flushed.state ≠ .ended ∧
      (s.flushed.waiting = [] ↔ s.Flushable) := by
  obtain ⟨state, waiting, ready, ending, begins, ends⟩ := s
  cases state <;> cases ready <;> simp_all [flushed, begun, inited, uploaded, Flushable]

theorem flushed_ne_begin : s.flushed.state ≠ .begin := by
  by_cases h : s.state = .ended
  · rw [(flushed_of_ended h).1]
    simp
  · exact (flushed_of_not_ended h).1

theorem flushed_ended_iff : s.flushed.state = .ended ↔ s.state = .ended := by
  by_cases h : s.state = .ended
  · exact iff_of_true (flushed_of_ended h).1 h
  · exact iff_of_false (flushed_of_not_ended h).2.1 h

theorem publish_of_waiting (h : ¬ (s.flushed.waiting = [] ∧ s.ending = true)) :
    s.publish = s.flushed := by
  rw [publish, finished, flushed_counts.2.2, if_neg h]

theorem publish_of_finished (h : s.flushed.waiting = [] ∧ s.ending = true) :
    s.publish = { s.flushed with state := .ended, ends := s.flushed.ends + 1 } := by
  rw [publish, finished, if_pos ⟨h.1, by rw [flushed_counts.2.2, h.2]⟩]

theorem publish_sound (h : s.Sound) : s.publish.Sound := by
  obtain ⟨hbegins, hends, -⟩ := @flushed_counts s
  have hone : s.flushed.begins = 1 := by
    rw [hbegins, h.begins]
    split <;> rfl
  by_cases hfinished : s.flushed.waiting = [] ∧ s.ending = true
  · rw [publish_of_finished hfinished]
    exact ⟨by simpa using hone, fun _ => Nat.le_add_left 1 _⟩
  · rw [publish_of_waiting hfinished]
    refine ⟨by rw [hone, if_neg flushed_ne_begin], fun hended => ?_⟩
    rw [hends]
    exact h.ends (flushed_ended_iff.mp hended)

theorem ends_le_publish : s.ends ≤ s.publish.ends := by
  have hends := (@flushed_counts s).2.1
  by_cases hfinished : s.flushed.waiting = [] ∧ s.ending = true
  · rw [publish_of_finished hfinished]
    exact hends ▸ Nat.le_succ _
  · rw [publish_of_waiting hfinished, hends]

/-- A call that does not find the publish ended, or finds it ended with nothing to do, ends it
at most once. -/
theorem publish_once (h : s.Once) (hsettled : s.Settled) : s.publish.Once := by
  have hends := (@flushed_counts s).2.1
  by_cases hfinished : s.flushed.waiting = [] ∧ s.ending = true
  · rw [publish_of_finished hfinished]
    have hstate : s.state ≠ .ended := by
      intro hended
      rcases hsettled hended with hwaiting | hending
      · exact hwaiting ((flushed_of_ended hended).2 ▸ hfinished.1)
      · simp [hending] at hfinished
    rw [Once, if_neg hstate] at h
    simp [Once, hends, h]
  · rw [publish_of_waiting hfinished, Once, hends, h]
    simp only [flushed_ended_iff]

/-- The call that sends a second request to end the publish. -/
theorem publish_again (hended : s.state = .ended) (h : ¬ s.Settled) :
    s.publish.ends = s.ends + 1 := by
  have hfinished : s.flushed.waiting = [] ∧ s.ending = true := by
    rw [(flushed_of_ended hended).2]
    simpa [Settled, hended] using h
  rw [publish_of_finished hfinished]
  simp [flushed_counts.2.1]

theorem publish_ended_of_ended (hended : s.state = .ended) : s.publish.state = .ended := by
  by_cases hfinished : s.flushed.waiting = [] ∧ s.ending = true
  · rw [publish_of_finished hfinished]
  · rw [publish_of_waiting hfinished]
    exact flushed_ended_iff.mpr hended

/-- With an end flag set, a call ends the publish if nothing is left waiting. -/
theorem publish_ended_iff (hending : s.ending = true) (hne : s.state ≠ .ended) :
    s.publish.state = .ended ↔ s.Flushable := by
  obtain ⟨-, hstate, hwaiting⟩ := flushed_of_not_ended hne
  rw [← hwaiting]
  by_cases hempty : s.flushed.waiting = []
  · rw [publish_of_finished ⟨hempty, hending⟩]
    simp [hempty]
  · rw [publish_of_waiting fun h => hempty h.1]
    simp [hempty, hstate]

end PublishSummary

/-- What the end of a connection should leave behind: as many requests to end the publish as
to begin it, at most one of each, and the state `end`. -/
def EndedOnce (p : Publisher) : Prop :=
  timesCalled .endPublish p.calls = timesCalled .beginPublish p.calls ∧
    timesCalled .beginPublish p.calls ≤ 1 ∧ p.context.publishState = .ended

namespace RtmpHandler

variable {http : List PublishCall → HttpRequest → HttpResult} {json : List UInt8 → JsonDocument}
variable {p q : Publisher} {e : Event} {events : List Event} {context : MediaPublishEsContext}

/-- The calls an event may make of `publish_to_streamer`: none that finds the publish ended, no
frame waiting and an end flag set, and for a disconnect none that finds frames waiting of a
stream that is not ready. -/
structure Harmless (context : MediaPublishEsContext) (e : Event) : Prop where
  settled : context.publishState = .ended → context.mediaEs ≠ [] ∨ context.ending = false
  flushable : e = .disconnect → context.publishState ≠ .ended →
    context.mediaEs = [] ∨ context.publishState = .publishing ∨ context.readyToSend = true

/-- An event after those before it calls `publish_to_streamer` harmlessly, if at all. -/
def HarmlessAfter (http : List PublishCall → HttpRequest → HttpResult)
    (json : List UInt8 → JsonDocument) (before : List Event) (e : Event) : Prop :=
  ∀ q context, run http json before = .ok q → prepare q.context e = .ok (context, true) →
    Harmless context e

theorem onEvent_granted (hg : Grants http json) (h : onEvent http json p e = .ok q) :
    ∃ context publishes, prepare p.context e = .ok (context, publishes) ∧
      q.summary =
        if publishes then ({ p with context } : Publisher).summary.publish
        else ({ p with context } : Publisher).summary := by
  obtain ⟨context, publishes, hprepare, hdone⟩ := onEvent_ok h
  refine ⟨context, publishes, hprepare, ?_⟩
  rcases hdone with ⟨rfl, rfl⟩ | ⟨rfl, hpublish⟩
  · rfl
  · obtain ⟨q', hq', hsummary⟩ := hg.publishToStreamer { p with context }
    cases hq'.symm.trans hpublish
    exact hsummary

theorem prepares_sound (hc : Prepares p.context context) (h : p.summary.Sound) :
    ({ p with context } : Publisher).summary.Sound := by
  have hstate : ({ p with context } : Publisher).summary.state = p.summary.state :=
    hc.publishState
  constructor
  · rw [hstate]
    exact h.begins
  · rw [hstate]
    exact h.ends

theorem prepares_once (hc : Prepares p.context context) (h : p.summary.Once) :
    ({ p with context } : Publisher).summary.Once := by
  have hstate : ({ p with context } : Publisher).summary.state = p.summary.state :=
    hc.publishState
  rw [PublishSummary.Once, hstate]
  exact h

theorem onEvent_sound (hg : Grants http json) (hp : p.summary.Sound)
    (h : onEvent http json p e = .ok q) : q.summary.Sound := by
  obtain ⟨context, publishes, hprepare, hsummary⟩ := onEvent_granted hg h
  have hsound := prepares_sound (prepare_prepares hprepare) hp
  cases publishes with
  | false => exact hsummary ▸ hsound
  | true => exact hsummary ▸ PublishSummary.publish_sound hsound

theorem onEvent_ends_le (hg : Grants http json) (h : onEvent http json p e = .ok q) :
    p.summary.ends ≤ q.summary.ends := by
  obtain ⟨context, publishes, -, hsummary⟩ := onEvent_granted hg h
  cases publishes with
  | false => exact hsummary ▸ Nat.le_refl _
  | true =>
      have hle := @PublishSummary.ends_le_publish ({ p with context } : Publisher).summary
      rw [← show q.summary = ({ p with context } : Publisher).summary.publish from hsummary] at hle
      exact hle

theorem run_sound (hg : Grants http json) (h : run http json events = .ok p) :
    p.summary.Sound :=
  History.run_invariant (fun _ _ _ hp hstep => onEvent_sound hg hp hstep)
    ⟨rfl, fun hended => by cases hended⟩ h

theorem run_ends_le (hg : Grants http json)
    (h : History.run (onEvent http json) p events = .ok q) : p.summary.ends ≤ q.summary.ends :=
  @History.run_invariant _ _ _ _ (fun s => p.summary.ends ≤ s.summary.ends)
    (fun _ _ _ hle hstep => hle.trans (onEvent_ends_le hg hstep)) _ _ _ (Nat.le_refl _) h

theorem endedOnce_of_once (hsound : p.summary.Sound) (honce : p.summary.Once)
    (hended : p.context.publishState = .ended) : EndedOnce p := by
  have hbegins : timesCalled .beginPublish p.calls = 1 := by
    simpa [Publisher.summary, hended] using hsound.begins
  have hends : timesCalled .endPublish p.calls = 1 := by
    simpa [PublishSummary.Once, Publisher.summary, hended] using honce
  exact ⟨by rw [hbegins, hends], hbegins.le, hended⟩

/-- A harmless event keeps the publish from being ended twice; the state `end` stays, and a
disconnect reaches it. -/
theorem onEvent_once (hg : Grants http json) (h : onEvent http json p e = .ok q)
    (hharmless : ∀ context, prepare p.context e = .ok (context, true) → Harmless context e)
    (honce : p.summary.Once) :
    q.summary.Once ∧
      (p.context.publishState = .ended ∨ e = .disconnect → q.context.publishState = .ended) := by
  obtain ⟨context, publishes, hprepare, hsummary⟩ := onEvent_granted hg h
  have hprepares := prepare_prepares hprepare
  have honce' := prepares_once hprepares honce
  cases publishes with
  | false =>
      refine ⟨hsummary ▸ honce', ?_⟩
      rintro (hended | rfl)
      · have hstate : q.summary.state = p.context.publishState := by
          rw [hsummary]
          exact hprepares.publishState
        exact hstate.trans hended
      · cases hprepare
  | true =>
      have hsafe := hharmless context hprepare
      refine ⟨hsummary ▸ PublishSummary.publish_once honce' hsafe.settled, ?_⟩
      intro hor
      have hq : q.context.publishState = ({ p with context } : Publisher).summary.publish.state :=
        congrArg PublishSummary.state hsummary
      rw [hq]
      by_cases hended : context.publishState = .ended
      · exact PublishSummary.publish_ended_of_ended hended
      · rcases hor with hp | rfl
        · exact absurd (hprepares.publishState.trans hp) hended
        · refine (PublishSummary.publish_ended_iff ?_ hended).mpr (hsafe.flushable rfl hended)
          cases hprepare
          rfl

theorem run_once (hg : Grants http json) (h : run http json events = .ok p)
    (hharmless : History.Lawful (HarmlessAfter http json) events) :
    p.summary.Once ∧ (.disconnect ∈ events → p.context.publishState = .ended) := by
  have hkept : ∀ (before : List Event) (e : Event) (p q : Publisher),
      run http json before = .ok p →
      p.summary.Once ∧ (.disconnect ∈ before → p.context.publishState = .ended) →
      HarmlessAfter http json before e → onEvent http json p e = .ok q →
        q.summary.Once ∧ (.disconnect ∈ before ++ [e] → q.context.publishState = .ended) := by
    rintro before e p q hp ⟨honce, hended⟩ hlast hstep
    obtain ⟨honce', hended'⟩ :=
      onEvent_once hg hstep (fun context hc => hlast p context hp hc) honce
    refine ⟨honce', fun hmem => hended' ?_⟩
    rcases List.mem_append.mp hmem with hmem | hmem
    · exact .inl (hended hmem)
    · exact .inr (List.mem_singleton.mp hmem).symm
  have honce := History.run_lawful ⟨rfl, fun hmem => by cases hmem⟩ hkept hharmless h
  exact honce

/-- With a streamer that grants everything, a connection leaves its publish ended once after
every disconnect if and only if all its calls of `publish_to_streamer` are harmless. -/
theorem endedOnce_iff_harmless (http : List PublishCall → HttpRequest → HttpResult)
    (json : List UInt8 → JsonDocument) (hg : Grants http json) (events : List Event)
    (p : Publisher) (h : run http json (events ++ [.disconnect]) = .ok p) :
    (∀ earlier later, events ++ [.disconnect] = earlier ++ later → .disconnect ∈ earlier →
        ∀ q, run http json earlier = .ok q → EndedOnce q) ↔
      History.Lawful (HarmlessAfter http json) (events ++ [.disconnect]) := by
  constructor
  · intro hended earlier e later hsplit q context hq hprepare
    rw [hsplit] at h
    obtain ⟨q₀, hq₀, hrest⟩ := History.run_append_ok.mp h
    cases hq₀.symm.trans hq
    obtain ⟨q', hstep, hlater⟩ := History.run_cons_ok.mp hrest
    obtain ⟨context', publishes, hprepare', hsummary⟩ := onEvent_granted hg hstep
    cases hprepare.symm.trans hprepare'
    have hprepares := prepare_prepares hprepare
    constructor
    · intro hstate
      by_contra hunsettled
      -- a second request to end the publish is still counted at the end of the run
      have hagain : q'.summary.ends = q.summary.ends + 1 := by
        rw [hsummary]
        exact PublishSummary.publish_again hstate fun hsettled => hunsettled (hsettled hstate)
      have hone : 1 ≤ q.summary.ends :=
        (run_sound hg hq).ends (hprepares.publishState.symm.trans hstate)
      have hle := run_ends_le hg hlater
      obtain ⟨hcount, hbegin, -⟩ :=
        hended (events ++ [.disconnect]) [] (by simp) (by simp) p (by rw [hsplit]; exact h)
      have hp : p.summary.ends ≤ 1 := hcount.le.trans hbegin
      omega
    · rintro rfl hstate
      obtain ⟨-, -, hq'⟩ := hended (earlier ++ [.disconnect]) later (by simp [hsplit]) (by simp) q'
        (History.run_concat_ok.mpr ⟨q, hq, hstep⟩)
      refine (PublishSummary.publish_ended_iff ?_ hstate).mp
        ((congrArg PublishSummary.state hsummary).symm.trans hq')
      cases hprepare
      rfl
  · intro hharmless earlier later hsplit hmem q hq
    rw [hsplit, History.lawful_append] at hharmless
    obtain ⟨honce, hended⟩ := run_once hg hq hharmless.1
    exact endedOnce_of_once (run_sound hg hq) honce (hended hmem)

theorem grants_granting : Grants granting grantingJson where
  answers _ _ := ⟨200, [], rfl, by decide, by decide⟩
  begins _ _ _ _ _ _ _ := ⟨_, _, rfl⟩

theorem endedOnce_iff_harmless_shortStream :
    ∃ p, run granting grantingJson shortStream = .ok p ∧
      ((∀ earlier later, shortStream = earlier ++ later → .disconnect ∈ earlier →
          ∀ q, run granting grantingJson earlier = .ok q → EndedOnce q) ↔
        History.Lawful (HarmlessAfter granting grantingJson) shortStream) := by
  obtain ⟨p, h⟩ : ∃ p, run granting grantingJson shortStream = .ok p :=
    History.exists_ok (by decide +kernel)
  exact ⟨p, h, endedOnce_iff_harmless granting grantingJson grants_granting
    shortStream.dropLast p h⟩

/-- An AVC end of sequence, and then the end of the connection. -/
def endOfSequence : List Event := [video [0x17, 0x02, 0x00, 0x00, 0x00], .disconnect]

/-- The publish is ended by the end of sequence and a second time by the disconnect. -/
theorem not_endedOnce_endOfSequence :
    ∃ p, run granting grantingJson endOfSequence = .ok p ∧
      timesCalled .beginPublish p.calls = 1 ∧ timesCalled .endPublish p.calls = 2 ∧
      ¬ EndedOnce p := by
  have hcounts : ((run granting grantingJson endOfSequence).toOption.map fun p =>
      (timesCalled .beginPublish p.calls, timesCalled .endPublish p.calls)) = some (1, 2) := by
    decide +kernel
  obtain ⟨p, h⟩ : ∃ p, run granting grantingJson endOfSequence = .ok p :=
    History.exists_ok (by decide +kernel)
  rw [h] at hcounts
  simp only [Except.toOption, Option.map_some, Option.some.injEq, Prod.mk.injEq] at hcounts
  refine ⟨p, h, hcounts.1, hcounts.2, ?_⟩
  rintro ⟨hcount, -, -⟩
  omega

end RtmpHandler

end Rtmp
