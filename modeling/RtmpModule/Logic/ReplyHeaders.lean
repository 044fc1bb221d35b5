import RtmpModule.Network.SendQueue

/-!
# The headers of the replies

A header of format `SAME_STREAM` leaves out the message stream id, so the peer takes
the one of the last message on the chunk stream. Where the replies go is fixed by the
requests: some handlers answer on ids of their own, others on those of the request.
The handlers that answer with `SAME_STREAM` headers do so whatever was sent before,
and their replies are right exactly when the last reply on the chunk stream of the
request was for the message stream of the request.
-/

namespace Rtmp

/-- The chunk stream id of a message and its message stream id. -/
abbrev StreamIds := UInt32 × UInt32

def RtmpHeader.streamIds (header : RtmpHeader) : StreamIds :=
  (header.chunkStreamId, header.msgStreamId)

/-- The message stream id of the last message on a chunk stream. -/
def lastOn (sent : List StreamIds) (chunkStreamId : UInt32) : Option UInt32 :=
  ((sent.filter fun ids => ids.1 = chunkStreamId).getLast?).map Prod.snd

@[simp] theorem lastOn_nil (chunkStreamId : UInt32) : lastOn [] chunkStreamId = none := rfl

@[simp] theorem lastOn_concat_self (sent : List StreamIds) (ids : StreamIds) :
    lastOn (sent ++ [ids]) ids.1 = some ids.2 := by
  simp [lastOn, List.filter_append]

theorem lastOn_concat_of_ne {sent : List StreamIds} {ids : StreamIds} {chunkStreamId : UInt32}
    (h : ids.1 ≠ chunkStreamId) :
    lastOn (sent ++ [ids]) chunkStreamId = lastOn sent chunkStreamId := by
  simp [lastOn, List.filter_append, h]

/-- After the messages `before`: the first message on a chunk stream has a full header, and
one that leaves out the message stream id has the id of the last message there. -/
def Reply.HeaderAllowed (before : List Reply) (message : Reply) : Prop :=
  let last := lastOn (before.map fun m => m.header.streamIds) message.header.chunkStreamId
  (last = none → message.header.formatType = .full) ∧
    (message.header.formatType = .sameStream → last = some message.header.msgStreamId)

namespace SessionEvent

/-- Where the replies to an event go. -/
def repliesOn : SessionEvent → List StreamIds
  | .acknowledge _ => [(2, 0)]
  | .request msg =>
      match msg.body with
      | .connectMessage _ _ => [(2, 0), (2, 0), (2, 0), msg.header.streamIds]
      | .releaseStream _ _ => [msg.header.streamIds]
      | .fcPublish _ _ => [msg.header.streamIds, msg.header.streamIds]
      | .fcUnPublish _ _ => [msg.header.streamIds]
      | .createStream _ => [msg.header.streamIds]
      | .deleteStream _ _ => [msg.header.streamIds]
      | .publish _ _ _ => [(5, 1)]
      | .play _ _ => [(2, 0), (20, 1), (20, 1), (20, 1), (20, 1)]
      | _ => []
  | _ => []

/-- The requests that are answered with `SAME_STREAM` headers on their own ids. -/
def echoes : SessionEvent → Option StreamIds
  | .request msg =>
      match msg.body with
      | .releaseStream _ _ => some msg.header.streamIds
      | .fcPublish _ _ => some msg.header.streamIds
      | .fcUnPublish _ _ => some msg.header.streamIds
      | .createStream _ => some msg.header.streamIds
      | .deleteStream _ _ => some msg.header.streamIds
      | _ => none
  | _ => none

/-- After the events `before`, the last reply on the chunk stream of such a request was for
its message stream. -/
def EchoAllowed (before : List SessionEvent) (e : SessionEvent) : Prop :=
  ∀ ids, e.echoes = some ids → lastOn (before.flatMap repliesOn) ids.1 = some ids.2

/-- What an event pushes. -/
def replies : SessionEvent → List Reply
  | .acknowledge windowSize => [.ofControl (.acknowledgement windowSize)]
  | .request msg => RtmpHandler.requestReplies msg
  | _ => []

theorem replies_streamIds (e : SessionEvent) :
    e.replies.map (fun m => m.header.streamIds) = e.repliesOn := by
  cases e with
  | request msg =>
      rw [replies, repliesOn, RtmpHandler.requestReplies, RtmpHandler.requestCalls]
      unfold RtmpHandler.answer
      cases msg.body <;> rfl
  | acknowledge windowSize => rfl
  | sendTimer => rfl
  | writeCompleted failed => rfl
  | disconnect => rfl

end SessionEvent

theorem MessageSender.onEvent_pushed (s : MessageSender) (e : SessionEvent) :
    (s.onEvent e).pushed = s.pushed ++ e.replies := by
  cases e with
  | acknowledge windowSize => exact s.performAll_pushed _
  | request msg => exact s.performAll_pushed _
  | sendTimer =>
      show (if s.timerWaits then s.handleSendTimer else s).pushed = s.pushed ++ []
      rw [List.append_nil]
      split
      · exact s.writeMessage_pushed
      · rfl
  | writeCompleted failed =>
      show (if SocketOp.outstanding s.socket = 0 then s else s.handleWrite).pushed = s.pushed ++ []
      rw [List.append_nil]
      split <;> rfl
  | disconnect => exact (List.append_nil _).symm

namespace Reply

variable {before : List Reply} {message : Reply}

theorem headerAllowed_of_full (h : message.header.formatType = .full) :
    HeaderAllowed before message := by
  refine ⟨fun _ => h, fun hsame => ?_⟩
  rw [h] at hsame
  cases hsame

theorem headerAllowed_of_sameStream {ids : StreamIds}
    (h : message.header.formatType = .sameStream) (hids : message.header.streamIds = ids) :
    HeaderAllowed before message ↔
      lastOn (before.map fun m => m.header.streamIds) ids.1 = some ids.2 := by
  subst hids
  constructor
  · intro hallowed
    exact hallowed.2 h
  · intro hlast
    refine ⟨fun hnone => ?_, fun _ => hlast⟩
    cases hnone.symm.trans hlast

/-- What a peer that remembers an id for every chunk stream takes for the message stream id. -/
def peerId (known : UInt32 → Option UInt32) (message : Reply) : Option UInt32 :=
  match message.header.formatType with
  | .full => some message.header.msgStreamId
  | _ => known message.header.chunkStreamId

def peerIds (known : UInt32 → Option UInt32) : List Reply → List (Option UInt32)
  | [] => []
  | message :: messages =>
      let id := message.peerId known
      id :: peerIds (Function.update known message.header.chunkStreamId id) messages

/-- Such a peer decodes the ids the messages were built with when each has the header it
needs. -/
theorem peerIds_eq {before messages : List Reply}
    (hlawful : History.Lawful (fun later => HeaderAllowed (before ++ later)) messages)
    (hformat : ∀ m ∈ messages, m.header.formatType = .full ∨ m.header.formatType = .sameStream) :
    peerIds (lastOn (before.map fun m => m.header.streamIds)) messages =
      messages.map fun m => some m.header.msgStreamId := by
  induction messages generalizing before with
  | nil => rfl
  | cons m messages ih =>
      rw [← List.singleton_append, History.lawful_append] at hlawful
      obtain ⟨hfirst, hrest⟩ := hlawful
      have hallowed : HeaderAllowed (before ++ []) m := hfirst [] m [] rfl
      rw [List.append_nil] at hallowed
      have hid : m.peerId (lastOn (before.map fun m => m.header.streamIds)) =
          some m.header.msgStreamId := by
        rcases hformat m List.mem_cons_self with hfull | hsame
        · simp [peerId, hfull]
        · simpa [peerId, hsame] using hallowed.2 hsame
      have hknown : Function.update (lastOn (before.map fun m => m.header.streamIds))
          m.header.chunkStreamId (some m.header.msgStreamId) =
            lastOn ((before ++ [m]).map fun m => m.header.streamIds) := by
        funext chunkStreamId
        rw [List.map_append, List.map_singleton]
        by_cases h : chunkStreamId = m.header.chunkStreamId
        · subst h
          rw [Function.update_self]
          exact (lastOn_concat_self _ m.header.streamIds).symm
        · rw [Function.update_of_ne h]
          exact (lastOn_concat_of_ne (Ne.symm h)).symm
      rw [peerIds, List.map_cons, hid, hknown, ih]
      · simpa only [List.append_assoc] using hrest
      · intro m' hm'
        exact hformat m' (List.mem_cons_of_mem m hm')

end Reply

namespace SessionEvent

/-- The replies to an event that echoes nothing have full headers. -/
theorem replies_full {e : SessionEvent} (h : e.echoes = none) :
    ∀ m ∈ e.replies, m.header.formatType = .full := by
  have hall : (e.replies.all fun m => m.header.formatType = .full) = true := by
    cases e with
    | request msg =>
        obtain ⟨header, body, writeChunkSize⟩ := msg
        cases body <;> first | rfl | cases h
    | acknowledge windowSize => rfl
    | sendTimer => rfl
    | writeCompleted failed => rfl
    | disconnect => rfl
  intro m hm
  exact of_decide_eq_true (List.all_eq_true.mp hall m hm)

/-- The replies to one that echoes are on its ids. -/
theorem replies_echo {e : SessionEvent} {ids : StreamIds} (h : e.echoes = some ids) :
    ∃ first rest, e.replies = first :: rest ∧
      ∀ m ∈ first :: rest, m.header.formatType = .sameStream ∧ m.header.streamIds = ids := by
  cases e with
  | request msg =>
      obtain ⟨header, body, writeChunkSize⟩ := msg
      cases body with
      | fcPublish transactionId streamName =>
          cases h
          refine ⟨_, [_], rfl, ?_⟩
          rw [List.forall_mem_cons, List.forall_mem_singleton]
          exact ⟨⟨rfl, rfl⟩, rfl, rfl⟩
      | _ =>
          cases h
          try exact ⟨_, [], rfl, List.forall_mem_singleton.mpr ⟨rfl, rfl⟩⟩
  | _ => cases h

theorem replies_format (e : SessionEvent) :
    ∀ m ∈ e.replies, m.header.formatType = .full ∨ m.header.formatType = .sameStream := by
  intro m hm
  cases hecho : e.echoes with
  | none => exact .inl (replies_full hecho m hm)
  | some ids =>
      obtain ⟨first, rest, hreplies, hall⟩ := replies_echo hecho
      rw [hreplies] at hm
      exact .inr (hall m hm).1

/-- The replies to an event have the headers they need exactly when the event may echo. -/
theorem replies_allowed_iff {events : List SessionEvent} {pushed : List Reply}
    (hpushed : pushed.map (fun m => m.header.streamIds) = events.flatMap repliesOn)
    (e : SessionEvent) :
    History.Lawful (fun before => Reply.HeaderAllowed (pushed ++ before)) e.replies ↔
      EchoAllowed events e := by
  cases hecho : e.echoes with
  | none =>
      refine iff_of_true ?_ ?_
      · intro before m after hsplit
        apply Reply.headerAllowed_of_full
        apply replies_full hecho
        rw [hsplit]
        simp
      · intro ids hids
        rw [hecho] at hids
        cases hids
  | some ids =>
      obtain ⟨first, rest, hreplies, hall⟩ := replies_echo hecho
      rw [hreplies]
      have hallowed : Reply.HeaderAllowed pushed first ↔ EchoAllowed events e := by
        obtain ⟨hformat, hids⟩ := hall first List.mem_cons_self
        rw [Reply.headerAllowed_of_sameStream hformat hids, hpushed]
        constructor
        · intro h ids' hids'
          obtain rfl : ids = ids' := Option.some.inj (hecho.symm.trans hids')
          exact h
        · intro h
          exact h ids hecho
      constructor
      · intro h
        have hfirst : Reply.HeaderAllowed (pushed ++ []) first := h [] first rest rfl
        rw [List.append_nil] at hfirst
        exact hallowed.mp hfirst
      · intro h before m after hsplit
        rcases List.eq_nil_or_concat before with rfl | ⟨before, m', rfl⟩
        · obtain ⟨rfl, -⟩ := List.cons.inj hsplit
          rw [List.append_nil]
          exact hallowed.mpr h
        · -- A reply behind another one to the same event is on the same ids.
          obtain ⟨-, hids'⟩ := hall m' (by rw [hsplit]; simp)
          obtain ⟨hformat, hids⟩ := hall m (by rw [hsplit]; simp)
          rw [Reply.headerAllowed_of_sameStream hformat hids, List.concat_eq_append,
            ← List.append_assoc, List.map_append, List.map_singleton, hids']
          exact lastOn_concat_self _ _

end SessionEvent

section Headers

variable (http : List PublishCall → HttpRequest → HttpResult) (json : List UInt8 → JsonDocument)

theorem pushed_streamIds {events : List SessionEvent} {s : Session}
    (hrun : Session.run http json {} events = .ok s) :
    s.sender.pushed.map (fun m => m.header.streamIds) = events.flatMap SessionEvent.repliesOn := by
  induction events using List.reverseRecOn generalizing s with
  | nil =>
      cases hrun
      rfl
  | append_singleton events e ih =>
      obtain ⟨s₁, hevents, hlast⟩ := History.run_concat_ok.mp hrun
      rw [Session.onEvent_sender hlast, MessageSender.onEvent_pushed, List.map_append,
        ih hevents, SessionEvent.replies_streamIds]
      simp

theorem pushed_format {events : List SessionEvent} {s : Session}
    (hrun : Session.run http json {} events = .ok s) :
    ∀ m ∈ s.sender.pushed, m.header.formatType = .full ∨ m.header.formatType = .sameStream := by
  apply History.run_invariant _ _ hrun
  · intro s e s' hinv hstep m hm
    rw [Session.onEvent_sender hstep, MessageSender.onEvent_pushed] at hm
    rcases List.mem_append.mp hm with hm | hm
    · exact hinv m hm
    · exact e.replies_format m hm
  · intro m hm
    cases hm

theorem headerAllowed_iff {events : List SessionEvent} {s : Session}
    (hrun : Session.run http json {} events = .ok s) :
    History.Lawful Reply.HeaderAllowed s.sender.pushed ↔
      History.Lawful SessionEvent.EchoAllowed events := by
  refine @History.run_lawful_iff _ _ _ _ _ _
    (fun s : Session => History.Lawful Reply.HeaderAllowed s.sender.pushed) _ _ ?_ ?_ hrun
  · exact History.lawful_nil
  · intro before e s s' hbefore hstep
    rw [Session.onEvent_sender hstep, MessageSender.onEvent_pushed, History.lawful_append,
      SessionEvent.replies_allowed_iff (pushed_streamIds http json hbefore)]

/-- In a run every message has the header it needs, and the peer decodes the ids the messages
were built with, exactly when each request that is answered with `SAME_STREAM` headers comes
on a chunk stream on which the last reply was for the message stream of the request. -/
theorem reply_headers_iff (events : List SessionEvent) (s : Session)
    (hrun : Session.run http json {} events = .ok s) :
    (History.Lawful Reply.HeaderAllowed s.sender.pushed ∧
        Reply.peerIds (fun _ => none) s.sender.pushed =
          s.sender.pushed.map fun m => some m.header.msgStreamId) ↔
      History.Lawful SessionEvent.EchoAllowed events := by
  rw [← headerAllowed_iff http json hrun]
  constructor
  · intro h
    exact h.1
  · intro h
    exact ⟨h, @Reply.peerIds_eq [] _ h (pushed_format http json hrun)⟩

/-- A connect request on chunk stream 3. -/
def connectRequest : RtmpMessage :=
  { header := { chunkStreamId := 3, msgTypeId := .commandAmf0 }, body := .connectMessage 0 {} }

/-- A connect and then a releaseStream on the same ids. -/
theorem reply_headers_connected :
    ∃ s, Session.run (fun _ _ => .failed) (fun _ => .parseError) {}
        [.request connectRequest, .request releaseStreamRequest] = .ok s ∧
      History.Lawful Reply.HeaderAllowed s.sender.pushed ∧
      Reply.peerIds (fun _ => none) s.sender.pushed =
        s.sender.pushed.map fun m => some m.header.msgStreamId := by
  refine ⟨_, rfl, (reply_headers_iff (fun _ _ => .failed) (fun _ => .parseError)
    ([.request connectRequest] ++ [.request releaseStreamRequest]) _ rfl).mpr ?_⟩
  have hconnect : History.Lawful SessionEvent.EchoAllowed ([] ++ [.request connectRequest]) := by
    refine History.lawful_concat.mpr ⟨History.lawful_nil, ?_⟩
    intro ids h
    cases h
  refine History.lawful_concat.mpr ⟨hconnect, ?_⟩
  intro ids h
  obtain rfl := Option.some.inj h
  rfl

/-- The first message on chunk stream 3 leaves out its message stream id. -/
theorem first_reply_sameStream :
    ∃ s, Session.run (fun _ _ => .failed) (fun _ => .parseError) {}
        (({} : Connection).readEvents (fun _ => 0) pipelinedReleaseStreams) = .ok s ∧
      ¬ History.Lawful Reply.HeaderAllowed s.sender.pushed := by
  rw [pipelined_readEvents]
  refine ⟨_, rfl, ?_⟩
  intro h
  have hfull := (h [] _ _ rfl).1 rfl
  cases hfull

end Headers

end Rtmp
