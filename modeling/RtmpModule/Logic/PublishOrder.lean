import RtmpModule.Logic.RtmpHandler
import RtmpModule.Streamer.EsEffects
import RtmpModule.Streamer.PublishActs

/-!
# The order of the publish calls

Whatever messages, requests and disconnects reach the handler of a connection and
whatever its HTTP requests are answered, the calls for one context follow the
publish protocol: each call is allowed after those made before it. The invariant
ties the state of the publish to the calls that succeeded so far; every act keeps
it, and so does whatever happens between two calls of `publish_to_streamer`.
-/

namespace Rtmp

/-- Some call of a function set `ec` to 0. -/
def Succeeded (function : PublishFunction) (calls : List PublishCall) : Prop :=
  ∃ c ∈ calls, c.function = function ∧ c.ec = 0

theorem not_succeeded_nil (function : PublishFunction) : ¬ Succeeded function [] := by
  rintro ⟨c, hc, -⟩
  cases hc

theorem succeeded_concat {function : PublishFunction} {calls : List PublishCall}
    {c : PublishCall} :
    Succeeded function (calls ++ [c]) ↔
      Succeeded function calls ∨ (c.function = function ∧ c.ec = 0) := by
  constructor
  · rintro ⟨d, hd, hfun, hec⟩
    rcases List.mem_append.mp hd with hd | hd
    · exact .inl ⟨d, hd, hfun, hec⟩
    · rw [List.mem_singleton] at hd
      subst hd
      exact .inr ⟨hfun, hec⟩
  · rintro (⟨d, hd, hfun, hec⟩ | ⟨hfun, hec⟩)
    · exact ⟨d, List.mem_append_left _ hd, hfun, hec⟩
    · exact ⟨c, by simp, hfun, hec⟩

/-- The publish protocol: what has to hold when a call is made after the calls `before`. -/
def PublishCall.Allowed (before : List PublishCall) (c : PublishCall) : Prop :=
  (∀ b ∈ before, b.context.publishState.rank ≤ c.context.publishState.rank) ∧
    match c.function with
    | .beginPublish => ¬ Succeeded .endPublish before
    | .initPublish =>
        Succeeded .beginPublish before ∧ ¬ Succeeded .endPublish before ∧
          c.context.audioInitEs.codecInfo ≠ [] ∧ c.context.videoInitEs.codecInfo ≠ [] ∧
          c.context.client = true
    | .publishEs =>
        Succeeded .initPublish before ∧ ¬ Succeeded .endPublish before ∧
          c.context.client = true
    | .endPublish => Succeeded .beginPublish before ∧ c.context.mediaEs = []

/-- The state of a publish says which calls have succeeded. -/
structure Ordered (p : Publisher) : Prop where
  lawful : History.Lawful PublishCall.Allowed p.calls
  forward : ∀ c ∈ p.calls, c.context.publishState.rank ≤ p.context.publishState.rank
  begun : p.context.publishState ≠ .begin → Succeeded .beginPublish p.calls
  inited : p.context.publishState = .publishing → Succeeded .initPublish p.calls
  ended : Succeeded .endPublish p.calls → p.context.publishState = .ended
  client : p.context.publishState ≠ .begin → p.context.client = true

namespace Ordered

variable {p q : Publisher} {context : MediaPublishEsContext}

theorem initial : Ordered {} where
  lawful := History.lawful_nil
  forward := by simp
  begun := by simp
  inited := by simp
  ended h := absurd h (not_succeeded_nil _)
  client := by simp

theorem not_ended (h : Ordered p) (hstate : p.context.publishState ≠ .ended) :
    ¬ Succeeded .endPublish p.calls :=
  fun hend => hstate (h.ended hend)

theorem prepares (h : Ordered p) (hc : Prepares p.context context) :
    Ordered { p with context } where
  lawful := h.lawful
  forward := by simpa only [hc.publishState] using h.forward
  begun := by simpa only [hc.publishState] using h.begun
  inited := by simpa only [hc.publishState] using h.inited
  ended := by simpa only [hc.publishState] using h.ended
  client := by simpa only [hc.publishState, hc.client] using h.client

/-- An allowed call that fails changes nothing but the history. -/
theorem failed (h : Ordered p) {function : PublishFunction} {ec : Int} (hec : ec ≠ 0)
    (hallowed : PublishCall.Allowed p.calls ⟨function, p.context, ec⟩) :
    Ordered (p.record function ec) where
  lawful := History.lawful_concat.mpr ⟨h.lawful, hallowed⟩
  forward := by
    intro c hc
    rcases List.mem_append.mp hc with hc | hc
    · exact h.forward c hc
    · rw [List.mem_singleton.mp hc]
      rfl
  begun hstate := succeeded_concat.mpr (.inl (h.begun hstate))
  inited hstate := succeeded_concat.mpr (.inl (h.inited hstate))
  ended hend := by
    rcases succeeded_concat.mp hend with hend | ⟨-, hzero⟩
    · exact h.ended hend
    · exact absurd hzero hec
  client := h.client

/-- An allowed call that succeeds takes the publish to a state that fits its outcome. -/
theorem done (h : Ordered p) {function : PublishFunction}
    (hallowed : PublishCall.Allowed p.calls ⟨function, p.context, 0⟩)
    (hforward : p.context.publishState.rank ≤ context.publishState.rank)
    (hbegun : context.publishState ≠ .begin →
      p.context.publishState ≠ .begin ∨ function = .beginPublish)
    (hinited : context.publishState = .publishing →
      p.context.publishState = .publishing ∨ function = .initPublish)
    (hended : p.context.publishState = .ended ∨ function = .endPublish →
      context.publishState = .ended)
    (hclient : context.publishState ≠ .begin → context.client = true) :
    Ordered { p.record function 0 with context } where
  lawful := History.lawful_concat.mpr ⟨h.lawful, hallowed⟩
  forward := by
    intro c hc
    rcases List.mem_append.mp hc with hc | hc
    · exact (h.forward c hc).trans hforward
    · rw [List.mem_singleton.mp hc]
      exact hforward
  begun hstate := succeeded_concat.mpr <| (hbegun hstate).imp h.begun fun hf => ⟨hf, rfl⟩
  inited hstate := succeeded_concat.mpr <| (hinited hstate).imp h.inited fun hf => ⟨hf, rfl⟩
  ended hend := hended <| (succeeded_concat.mp hend).imp h.ended fun hf => hf.1
  client := hclient

/-- Every act is allowed where it is made, and its outcome fits. -/
theorem act (h : Ordered p) (hact : PublishAct p q) : Ordered q := by
  cases hact with
  | beginFailed hstate hec =>
      exact h.failed hec ⟨h.forward, h.not_ended (by simp [hstate])⟩
  | begun hstate =>
      refine h.done ⟨h.forward, h.not_ended (by simp [hstate])⟩ ?_ ?_ ?_ ?_ ?_ <;>
        simp [hstate, PublishState.rank]
  | initFailed hstate hready hec =>
      obtain ⟨haudio, hvideo, -⟩ := (MediaPublishEsContext.readyToSend_iff _).mp hready
      exact h.failed hec ⟨h.forward, h.begun (by simp [hstate]), h.not_ended (by simp [hstate]),
        haudio, hvideo, h.client (by simp [hstate])⟩
  | inited hstate hready =>
      obtain ⟨haudio, hvideo, -⟩ := (MediaPublishEsContext.readyToSend_iff _).mp hready
      have hclient := h.client (by simp [hstate])
      refine h.done ⟨h.forward, h.begun (by simp [hstate]), h.not_ended (by simp [hstate]),
        haudio, hvideo, hclient⟩ ?_ ?_ ?_ ?_ ?_ <;>
        simp [hstate, hclient, PublishState.rank]
  | esFailed hstate hne hec =>
      exact h.failed hec ⟨h.forward, h.inited hstate, h.not_ended (by simp [hstate]),
        h.client (by simp [hstate])⟩
  | uploaded hstate hne =>
      have hclient := h.client (by simp [hstate])
      refine h.done ⟨h.forward, h.inited hstate, h.not_ended (by simp [hstate]), hclient⟩
        ?_ ?_ ?_ ?_ ?_ <;>
        simp [hstate, hclient]
  | endFailed hstate hempty hec =>
      exact h.failed hec ⟨h.forward, h.begun hstate, hempty⟩
  | ended hstate hempty =>
      have hclient := h.client hstate
      have hrank : p.context.publishState.rank ≤ PublishState.ended.rank := by
        cases p.context.publishState <;> simp [PublishState.rank]
      refine h.done ⟨h.forward, h.begun hstate, hempty⟩ hrank ?_ ?_ ?_ ?_ <;>
        simp [hstate, hclient]

theorem acts (h : Ordered p) (hacts : Relation.ReflTransGen PublishAct p q) : Ordered q :=
  PublishAct.run_invariant (fun _ _ hp hact => hp.act hact) h hacts

end Ordered

/-- Acts only move the state of the publish forward. -/
theorem PublishAct.forward {p q : Publisher} (h : PublishAct p q) :
    p.context.publishState.rank ≤ q.context.publishState.rank := by
  cases h with
  | ended => cases p.context.publishState <;> simp [PublishState.rank]
  | begun hstate => simp [hstate, PublishState.rank]
  | inited hstate => simp [hstate, PublishState.rank]
  | _ => exact Nat.le_refl _

theorem acts_forward {p q : Publisher} (h : Relation.ReflTransGen PublishAct p q) :
    p.context.publishState.rank ≤ q.context.publishState.rank := by
  induction h with
  | refl => exact Nat.le_refl _
  | tail _ hact ih => exact ih.trans hact.forward

namespace RtmpHandler

variable {http : List PublishCall → HttpRequest → HttpResult} {json : List UInt8 → JsonDocument}
variable {p q : Publisher} {e : Event} {events : List Event}

/-- The context a media message leaves behind, and whether it is accepted. -/
def prepareMedia (context : MediaPublishEsContext) (header : RtmpHeader) (data : List UInt8) :
    Except MemoryFault (MediaPublishEsContext × Bool) :=
  match processFlvEsMessage context header.msgTypeId.code header.absTimestamp data with
  | .error fault => .error fault
  | .ok r => .ok (r.context, r.ret)

/-- The context an event leaves behind before anything is published, and whether
`publish_to_streamer` is called with it. -/
def prepare (context : MediaPublishEsContext) :
    Event → Except MemoryFault (MediaPublishEsContext × Bool)
  | .request request =>
      match request.body with
      | .audioMessage data => prepareMedia context request.header data
      | .videoMessage data => prepareMedia context request.header data
      | body => .ok ((answer context request.header body).1, false)
  | .disconnect => .ok ({ context with readyToEndOfStream := true }, true)

/-- The rest of an event. -/
def publishPrepared (http : List PublishCall → HttpRequest → HttpResult)
    (json : List UInt8 → JsonDocument) (calls : List PublishCall) :
    Except MemoryFault (MediaPublishEsContext × Bool) → Except StreamerFault Publisher
  | .error fault => .error (.memory fault)
  | .ok (context, false) => .ok { context, calls }
  | .ok (context, true) => Publisher.publishToStreamer http json { context, calls }

theorem onMedia_eq (header : RtmpHeader) (data : List UInt8) :
    (match handleMediaMessage http json p header data with
      | .error fault => Except.error fault
      | .ok (p, _) => Except.ok p) =
      publishPrepared http json p.calls (prepareMedia p.context header data) := by
  rw [handleMediaMessage, Publisher.publishMessage, prepareMedia]
  cases processFlvEsMessage p.context header.msgTypeId.code header.absTimestamp data with
  | error fault => rfl
  | ok r =>
      cases hret : r.ret with
      | false => simp [publishPrepared, hret]
      | true =>
          simp only [hret, if_true, publishPrepared]
          cases Publisher.publishToStreamer http json { p with context := r.context } <;> rfl

/-- An event prepares the context and then publishes, if it publishes at all. -/
theorem onEvent_eq :
    onEvent http json p e = publishPrepared http json p.calls (prepare p.context e) := by
  cases e with
  | disconnect => rfl
  | request request =>
      cases hbody : request.body with
      | audioMessage data =>
          simp only [onEvent, handleRequest, prepare, hbody]
          exact onMedia_eq request.header data
      | videoMessage data =>
          simp only [onEvent, handleRequest, prepare, hbody]
          exact onMedia_eq request.header data
      | _ => simp only [onEvent, handleRequest, prepare, hbody, publishPrepared]

theorem answer_prepares (context : MediaPublishEsContext) (header : RtmpHeader)
    (body : MessageBody) : Prepares context (answer context header body).1 := by
  cases body <;> exact ⟨rfl, rfl, .inl ⟨rfl, rfl⟩⟩

theorem prepareMedia_prepares {context context' : MediaPublishEsContext} {publishes : Bool}
    {header : RtmpHeader} {data : List UInt8}
    (h : prepareMedia context header data = .ok (context', publishes)) :
    Prepares context context' := by
  rw [prepareMedia] at h
  split at h
  · cases h
  · next hprocessed =>
    cases h
    exact (@processFlvEsMessage_extends _ ⟨_, _, _⟩ _ hprocessed).toPrepares

theorem prepare_prepares {context context' : MediaPublishEsContext} {publishes : Bool}
    (h : prepare context e = .ok (context', publishes)) : Prepares context context' := by
  cases e with
  | disconnect =>
      cases h
      exact ⟨rfl, rfl, .inl ⟨rfl, rfl⟩⟩
  | request request =>
      rw [prepare] at h
      split at h
      · exact prepareMedia_prepares h
      · exact prepareMedia_prepares h
      · cases h
        exact answer_prepares _ _ _

/-- An event that is handled prepares the context and publishes, or leaves it at that. -/
theorem onEvent_ok (h : onEvent http json p e = .ok q) :
    ∃ context publishes, prepare p.context e = .ok (context, publishes) ∧
      ((publishes = false ∧ q = { p with context }) ∨
        (publishes = true ∧
          Publisher.publishToStreamer http json { p with context } = .ok q)) := by
  rw [onEvent_eq] at h
  cases hprepare : prepare p.context e with
  | error fault =>
      rw [hprepare] at h
      cases h
  | ok prepared =>
      obtain ⟨context, publishes⟩ := prepared
      rw [hprepare] at h
      refine ⟨context, publishes, rfl, ?_⟩
      cases publishes with
      | false =>
          cases h
          exact .inl ⟨rfl, rfl⟩
      | true => exact .inr ⟨rfl, h⟩

/-- What an event does: it prepares the context and then makes acts. -/
theorem onEvent_acts (h : onEvent http json p e = .ok q) :
    ∃ context publishes, prepare p.context e = .ok (context, publishes) ∧
      Relation.ReflTransGen PublishAct { p with context } q := by
  obtain ⟨context, publishes, hprepare, hdone⟩ := onEvent_ok h
  refine ⟨context, publishes, hprepare, ?_⟩
  rcases hdone with ⟨-, rfl⟩ | ⟨-, hpublish⟩
  · exact .refl
  · exact Publisher.publishToStreamer_acts hpublish

theorem run_ordered (h : run http json events = .ok p) : Ordered p := by
  refine History.run_invariant ?_ Ordered.initial h
  intro p e q hp hstep
  obtain ⟨context, publishes, hprepare, hacts⟩ := onEvent_acts hstep
  exact (hp.prepares (prepare_prepares hprepare)).acts hacts

theorem run_forward {start : Publisher}
    (h : History.run (onEvent http json) start events = .ok p) :
    start.context.publishState.rank ≤ p.context.publishState.rank := by
  refine @History.run_invariant _ _ _ _
    (fun s => start.context.publishState.rank ≤ s.context.publishState.rank) ?_ _ _ _
    (Nat.le_refl _) h
  intro p e q hp hstep
  obtain ⟨context, publishes, hprepare, hacts⟩ := onEvent_acts hstep
  have hforward := acts_forward hacts
  simp only [(prepare_prepares hprepare).publishState] at hforward
  exact hp.trans hforward

/-- In every run each call follows the publish protocol, and the state of the publish never
goes back. -/
theorem publish_order (http : List PublishCall → HttpRequest → HttpResult)
    (json : List UInt8 → JsonDocument) (events : List Event) (p : Publisher)
    (h : run http json events = .ok p) :
    History.Lawful PublishCall.Allowed p.calls ∧
      (∀ c ∈ p.calls, c.context.publishState.rank ≤ p.context.publishState.rank) ∧
      ∀ earlier later q, events = earlier ++ later → run http json earlier = .ok q →
        q.context.publishState.rank ≤ p.context.publishState.rank := by
  have hordered := run_ordered h
  refine ⟨hordered.lawful, hordered.forward, ?_⟩
  rintro earlier later q rfl hq
  obtain ⟨q', hq', hlater⟩ := History.run_append_ok.mp h
  rw [run] at hq
  cases hq.symm.trans hq'
  exact run_forward hlater

/-- A streamer that grants every request. -/
def granting : List PublishCall → HttpRequest → HttpResult := fun _ _ => .response 200 []

def grantingJson : List UInt8 → JsonDocument := fun _ => .object (some [0x31]) (some [0x32])

def audio (data : List UInt8) : Event :=
  .request { header := { msgTypeId := .audioData }, body := .audioMessage data }

def video (data : List UInt8) : Event :=
  .request { header := { msgTypeId := .videoData }, body := .videoMessage data }

/-- Both sequence headers, a key frame and an audio frame, and the end of the connection. -/
def shortStream : List Event :=
  [audio [0xAF, 0x00, 0x12, 0x10],
    video [0x17, 0x00, 0x00, 0x00, 0x00, 0x01, 0x42, 0x00, 0x1E, 0xFF, 0xE1, 0x00, 0x02, 0x67,
      0x42, 0x01, 0x00, 0x01, 0x68],
    video [0x17, 0x01, 0x00, 0x00, 0x00, 0x00, 0x00, 0x00, 0x01, 0x65],
    audio [0xAF, 0x01, 0x21],
    .disconnect]

theorem publish_order_shortStream :
    ∃ p, run granting grantingJson shortStream = .ok p ∧
      History.Lawful PublishCall.Allowed p.calls ∧
      (∀ c ∈ p.calls, c.context.publishState.rank ≤ p.context.publishState.rank) ∧
      ∀ earlier later q, shortStream = earlier ++ later →
        run granting grantingJson earlier = .ok q →
        q.context.publishState.rank ≤ p.context.publishState.rank := by
  obtain ⟨p, h⟩ : ∃ p, run granting grantingJson shortStream = .ok p :=
    History.exists_ok (by decide +kernel)
  exact ⟨p, h, publish_order granting grantingJson shortStream p h⟩

end RtmpHandler

end Rtmp
