import RtmpModule.Network.MessageSender

/-!
# Replies in the queue and writes on the socket

A handler that signals leaves nothing in the queue; after a `play` the timer sends
what is pushed, and it goes on waiting in every later state. The socket is written
to by every event that finds something to send, whether or not the last write has
completed, so writes overlap exactly when such an event comes too early.
-/

namespace Rtmp

open RtmpHandler AMF0Serializer

namespace MessageSender

variable {s : MessageSender} {messages : List Reply}

/-- Replies with a signal behind them are sent with all that waits. -/
theorem performAll_sending (hcont : s.isContinuousSendState = false) (hne : messages ≠ []) :
    s.performAll (messages.map .pushToSendQueue ++ [.signalSendMessage]) =
      { s with
        writeQueue := []
        pushed := s.pushed ++ messages
        socket := s.socket ++ [.asyncWrite (s.writeQueue ++ messages)] } := by
  rw [performAll_append, performAll_push]
  simp [perform, signalSendMessage, writeMessage, hcont, hne]

/-- In the continuous state a signal sends nothing. -/
theorem performAll_waiting (hcont : s.isContinuousSendState = true) :
    s.performAll (messages.map .pushToSendQueue ++ [.signalSendMessage]) =
      { s with writeQueue := s.writeQueue ++ messages, pushed := s.pushed ++ messages } := by
  rw [performAll_append, performAll_push]
  simp [perform, signalSendMessage, hcont]

/-- A timer waits in the continuous state. -/
def Ticking (s : MessageSender) : Prop := s.isContinuousSendState = true ∧ s.timerWaits = true

theorem Ticking.perform (h : s.Ticking) {call : SenderCall}
    (hcall : call ≠ .changeContinuousSendState false) : (s.perform call).Ticking := by
  obtain ⟨hcont, hwait⟩ := h
  cases call with
  | pushToSendQueue message => exact ⟨hcont, hwait⟩
  | signalSendMessage =>
      rw [MessageSender.perform, signalSendMessage, if_pos hcont]
      exact ⟨hcont, hwait⟩
  | changeContinuousSendState state =>
      cases state with
      | false => exact absurd rfl hcall
      | true =>
          rw [MessageSender.perform, changeContinuousSendState, if_neg (by simp [hcont])]
          exact ⟨rfl, hwait⟩

theorem Ticking.performAll (h : s.Ticking) {calls : List SenderCall}
    (hcalls : ∀ call ∈ calls, call ≠ .changeContinuousSendState false) :
    (s.performAll calls).Ticking := by
  induction calls generalizing s with
  | nil => exact h
  | cons call calls ih =>
      apply ih (h.perform (hcalls call List.mem_cons_self))
      intro later hlater
      exact hcalls later (List.mem_cons_of_mem call hlater)

/-- No handler leaves the continuous state. -/
theorem requestCalls_ne_false {request : RtmpMessage} {call : SenderCall}
    (h : call ∈ requestCalls request) : call ≠ .changeContinuousSendState false := by
  rintro rfl
  rw [requestCalls_eq] at h
  split at h <;> simp at h

/-- A play changes to the continuous state and starts the timer. -/
theorem Ticking.of_continuous (hcont : s.isContinuousSendState = false) {request : RtmpMessage}
    (h : answering request.body = .continuous) :
    (s.performAll (requestCalls request)).Ticking := by
  have hcalls := requestCalls_eq request
  rw [h] at hcalls
  dsimp only at hcalls
  rw [List.cons_append] at hcalls
  rw [hcalls, performAll_cons]
  have hstart : (s.perform (.changeContinuousSendState true)).Ticking := by
    rw [MessageSender.perform, changeContinuousSendState, if_pos (by simp [hcont])]
    exact ⟨rfl, rfl⟩
  apply hstart.performAll
  intro call hcall
  have hmem : call ∈ requestCalls request := by
    rw [hcalls]
    exact List.mem_cons_of_mem _ hcall
  exact requestCalls_ne_false hmem

theorem Ticking.onEvent (h : s.Ticking) (e : SessionEvent) : (s.onEvent e).Ticking := by
  cases e with
  | acknowledge windowSize => exact h.performAll (by simp)
  | request request => exact h.performAll fun call hcall => requestCalls_ne_false hcall
  | sendTimer =>
      rw [MessageSender.onEvent, if_pos h.2]
      exact ⟨by simpa [handleSendTimer] using h.1, h.1⟩
  | writeCompleted failed =>
      rw [MessageSender.onEvent]
      split
      · exact h
      · exact h
  | disconnect => exact h

theorem Ticking.foldl (h : s.Ticking) (events : List SessionEvent) :
    (events.foldl MessageSender.onEvent s).Ticking := by
  induction events generalizing s with
  | nil => exact h
  | cons e events ih => exact ih (h.onEvent e)

end MessageSender

/-- A handler that does not leave its replies signals after each of them. -/
theorem requestCalls_signal {request : RtmpMessage}
    (h : answering request.body ≠ .leaving) {before after : List SenderCall} {message : Reply}
    (hcalls : requestCalls request = before ++ .pushToSendQueue message :: after) :
    .signalSendMessage ∈ after := by
  have hne : SenderCall.pushToSendQueue message ≠ .signalSendMessage := by simp
  rw [requestCalls_eq] at hcalls
  split at hcalls
  · simp at hcalls
  · exact History.last_mem_after hne hcalls
  · contradiction
  · exact History.last_mem_after hne hcalls

theorem answering_eq_leaving {body : MessageBody} (h : answering body = .leaving) :
    ∃ transactionId streamName, body = .fcUnPublish transactionId streamName := by
  cases body <;> first | exact ⟨_, _, rfl⟩ | cases h

theorem answering_eq_continuous {body : MessageBody} (h : answering body = .continuous) :
    ∃ transactionId streamName, body = .play transactionId streamName := by
  cases body <;> first | exact ⟨_, _, rfl⟩ | cases h

section QueueDrained

variable (http : List PublishCall → HttpRequest → HttpResult) (json : List UInt8 → JsonDocument)

/-- Replies are not left behind. A request other than FCUnpublish signals after all it
pushes. With direct sending and an empty queue before it, the queue is empty after it unless
it is a play; after a play the timer waits in every later state, and its tick empties the
queue. -/
theorem replies_are_sent (s : Session) (hcont : s.sender.isContinuousSendState = false)
    (hempty : s.sender.writeQueue = []) (request : RtmpMessage)
    (hunpublish : ∀ transactionId streamName,
      request.body ≠ .fcUnPublish transactionId streamName)
    (publisher : Publisher) (calls : List SenderCall)
    (hrequest : RtmpHandler.handleRequest http json s.publisher request = .ok (publisher, calls)) :
    (∀ before message after, calls = before ++ .pushToSendQueue message :: after →
      .signalSendMessage ∈ after) ∧
    ((∀ transactionId streamName, request.body ≠ .play transactionId streamName) →
      (s.sender.performAll calls).writeQueue = []) ∧
    ((∃ transactionId streamName, request.body = .play transactionId streamName) →
      ∀ later s', Session.run http json ⟨publisher, s.sender.performAll calls⟩ later = .ok s' →
        s'.sender.timerWaits = true ∧ s'.sender.handleSendTimer.writeQueue = []) := by
  have hleave : answering request.body ≠ .leaving := by
    intro hleave
    obtain ⟨transactionId, streamName, hbody⟩ := answering_eq_leaving hleave
    exact hunpublish transactionId streamName hbody
  obtain rfl := handleRequest_calls hrequest
  refine ⟨fun before message after hcalls => requestCalls_signal hleave hcalls, ?_, ?_⟩
  · intro hplay
    rw [requestCalls_eq]
    split
    · exact hempty
    · rename_i hsend
      have hne : requestReplies request ≠ [] := requestReplies_ne_nil (by simp [hsend])
      rw [MessageSender.performAll_sending hcont hne]
    · contradiction
    · rename_i hcontinuous
      obtain ⟨transactionId, streamName, hbody⟩ := answering_eq_continuous hcontinuous
      exact absurd hbody (hplay transactionId streamName)
  · rintro ⟨transactionId, streamName, hbody⟩ later s' hlater
    have hticking : (s.sender.performAll (requestCalls request)).Ticking :=
      .of_continuous hcont (by rw [hbody]; rfl)
    rw [Session.run_sender hlater]
    obtain ⟨-, hwaits⟩ := hticking.foldl later
    exact ⟨hwaits, by simp [MessageSender.handleSendTimer]⟩

/-- A play request. -/
def playRequest : RtmpMessage := { body := .play 0 [] }

/-- A releaseStream request on chunk stream 3. -/
def releaseStreamRequest : RtmpMessage :=
  { header := { chunkStreamId := 3, msgTypeId := .commandAmf0 }, body := .releaseStream 0 [] }

theorem replies_are_sent_releaseStream :
    (({} : MessageSender).performAll (requestCalls releaseStreamRequest)).writeQueue = [] :=
  (replies_are_sent (fun _ _ => .failed) (fun _ => .parseError) {} rfl rfl
    releaseStreamRequest (by simp [releaseStreamRequest]) {} _ rfl).2.1
    (by simp [releaseStreamRequest])

/-- A play leaves its replies in the queue for the timer. -/
theorem play_leaves_replies :
    ¬ ∀ (http : List PublishCall → HttpRequest → HttpResult) (json : List UInt8 → JsonDocument)
      (events : List SessionEvent) (s : Session), Session.run http json {} events = .ok s →
      s.sender.isContinuousSendState = false → s.sender.writeQueue = [] →
      ∀ request publisher calls,
        RtmpHandler.handleRequest http json s.publisher request = .ok (publisher, calls) →
        (s.sender.performAll calls).writeQueue = [] := by
  intro h
  have hqueue := h (fun _ _ => .failed) (fun _ => .parseError) [] {} rfl rfl rfl
    playRequest {} _ rfl
  exact absurd hqueue (by decide)

end QueueDrained

namespace MessageSender

variable {s : MessageSender}

/-- An event on which `write_message` finds something to send. -/
def Starts (s : MessageSender) : SessionEvent → Prop
  | .acknowledge _ => s.isContinuousSendState = false
  | .request request => s.isContinuousSendState = false ∧ answering request.body = .sending
  | .sendTimer => s.timerWaits = true ∧ s.writeQueue ≠ []
  | .writeCompleted _ => False
  | .disconnect => False

/-- A starting event starts one write. -/
theorem onEvent_socket_of_starts {e : SessionEvent} (h : s.Starts e) :
    ∃ messages, (s.onEvent e).socket = s.socket ++ [.asyncWrite messages] := by
  cases e with
  | acknowledge windowSize =>
      have hsend := performAll_sending h
        (List.cons_ne_nil (Reply.ofControl (.acknowledgement windowSize)) [])
      exact ⟨_, congrArg MessageSender.socket hsend⟩
  | request request =>
      obtain ⟨hcont, hsending⟩ := h
      rw [MessageSender.onEvent, requestCalls_eq, hsending]
      dsimp only
      rw [performAll_sending hcont (requestReplies_ne_nil (by simp [hsending]))]
      exact ⟨_, rfl⟩
  | sendTimer =>
      obtain ⟨hwaits, hqueue⟩ := h
      rw [MessageSender.onEvent, if_pos hwaits]
      exact ⟨_, s.writeMessage_socket hqueue⟩
  | writeCompleted failed => cases h
  | disconnect => cases h

/-- Any other event starts none. -/
theorem onEvent_socket_of_not_starts {e : SessionEvent} (h : ¬ s.Starts e) :
    (s.onEvent e).socket = s.socket ∨ (s.onEvent e).socket = s.socket ++ [.completion] := by
  cases e with
  | acknowledge windowSize =>
      have hcont : s.isContinuousSendState = true := by simpa [Starts] using h
      have hwait := @performAll_waiting s [.ofControl (.acknowledgement windowSize)] hcont
      left
      have hsocket := congrArg MessageSender.socket hwait
      exact hsocket
  | request request =>
      left
      rw [MessageSender.onEvent, requestCalls_eq]
      split
      · rfl
      · rename_i hsending
        have hcont : s.isContinuousSendState = true := by simpa [Starts, hsending] using h
        rw [performAll_waiting hcont]
      · rw [performAll_push]
      · rw [List.cons_append, performAll_cons, perform, changeContinuousSendState]
        split
        · rw [performAll_waiting rfl]
        · rw [performAll_waiting rfl]
  | sendTimer =>
      left
      rw [MessageSender.onEvent]
      split
      · rename_i hwaits
        have hqueue : s.writeQueue = [] := by simpa [Starts, hwaits] using h
        rw [handleSendTimer, writeMessage, if_pos hqueue]
      · rfl
  | writeCompleted failed =>
      rw [MessageSender.onEvent]
      split
      · exact .inl rfl
      · exact .inr rfl
  | disconnect => exact .inl rfl

theorem onEvent_oneAtATime (e : SessionEvent) :
    SocketOp.OneAtATime (s.onEvent e).socket ↔
      SocketOp.OneAtATime s.socket ∧ (s.Starts e → SocketOp.outstanding s.socket = 0) := by
  by_cases hstarts : s.Starts e
  · obtain ⟨messages, hsocket⟩ := onEvent_socket_of_starts hstarts
    rw [hsocket, SocketOp.OneAtATime, History.lawful_concat]
    simp [SocketOp.OneAtATime, hstarts]
  · rcases onEvent_socket_of_not_starts hstarts with hsocket | hsocket
    · simp [hsocket, hstarts]
    · rw [hsocket, SocketOp.OneAtATime, History.lawful_concat]
      simp [SocketOp.OneAtATime, hstarts]

end MessageSender

namespace SessionEvent

@[simp] def requested : SessionEvent → Option RtmpMessage
  | .request message => some message
  | _ => none

@[simp] def acknowledged : SessionEvent → Option RtmpMessage
  | .acknowledge windowSize => some (.acknowledgement windowSize)
  | _ => none

end SessionEvent

namespace RtmpParser

variable (p : RtmpParser) (uninit : Uninit) (stream : List UInt8) (bufSize : Nat)

/-- The acknowledgements of a call carry the window size it leaves behind. -/
def ParseCall.acknowledgements (r : ParseCall) : List SessionEvent :=
  r.pushed.map fun _ => .acknowledge r.parser.winAckSize

theorem countReaded_pushed (n : Nat) :
    (p.countReaded n).2.map (fun _ => .acknowledgement (p.countReaded n).1.winAckSize) =
      (p.countReaded n).2 := by
  unfold countReaded
  split
  · dsimp only
    split <;> rfl
  · rfl

theorem parsePrivate_pushed (total : Nat) :
    (p.parsePrivate uninit stream bufSize total).pushed = [] := by
  fun_induction parsePrivate p uninit stream bufSize total with
  | case1 p stream bufSize total r hr ih => exact ih
  | case2 => rfl

theorem parse_requested :
    (p.parse uninit stream bufSize).acknowledgements.filterMap SessionEvent.requested = [] := by
  simp [ParseCall.acknowledgements]

theorem parse_acknowledged :
    (p.parse uninit stream bufSize).acknowledgements.filterMap SessionEvent.acknowledged =
      (p.parse uninit stream bufSize).pushed := by
  rw [ParseCall.acknowledgements, List.filterMap_map]
  unfold parse
  dsimp only
  split
  · have hpushed := countReaded_pushed (p.parsePrivate uninit stream bufSize).parser
      (p.parsePrivate uninit stream bufSize).totalReadedSize
    rw [← List.filterMap_eq_map] at hpushed
    exact hpushed
  · rw [parsePrivate_pushed]
    rfl

end RtmpParser

namespace Connection

/-- What the loop of `handle_read` does for the rest of a connection, in its order: the
parser acknowledges before the handler gets the message. -/
def sessionEvents (c : Connection) (uninit : Uninit) (bufSize : Nat) : List SessionEvent :=
  if bufSize = 0 then []
  else
    let r := c.parser.parse uninit c.requestStreambuf bufSize
    let c := { c with
      parser := r.parser, requestStreambuf := r.stream, writeQueue := c.writeQueue ++ r.pushed }
    r.acknowledgements ++
      match _hr : r.result with
      | .ok .true =>
          r.parser.parsedMsg.toList.map .request ++
            sessionEvents { c with handled := c.handled ++ r.parser.parsedMsg.toList } uninit
              (bufSize - r.totalReadedSize)
      | .ok .false => [.disconnect]
      | .ok .indeterminate => []
      | .error _ => []
termination_by c.parser.measure bufSize
decreasing_by exact RtmpParser.parse_measure _hr

/-- One round of the loop, by what `parse` returns. -/
theorem sessionEvents_round {c : Connection} {uninit : Uninit} {bufSize : Nat}
    {result : Except Fault Tribool} (h : ¬ bufSize = 0) :
    (c.parser.parse uninit c.requestStreambuf bufSize).result = result →
      c.sessionEvents uninit bufSize =
        let r := c.parser.parse uninit c.requestStreambuf bufSize
        r.acknowledgements ++
          match result with
          | .ok .true =>
              r.parser.parsedMsg.toList.map .request ++
                sessionEvents
                  { c with
                    parser := r.parser, requestStreambuf := r.stream
                    writeQueue := c.writeQueue ++ r.pushed
                    handled := c.handled ++ r.parser.parsedMsg.toList }
                  uninit (bufSize - r.totalReadedSize)
          | .ok .false => [.disconnect]
          | .ok .indeterminate => []
          | .error _ => [] := by
  rintro rfl
  rw [sessionEvents, if_neg h]
  dsimp only
  split <;> rename_i hr <;> rw [hr]

/-- The events of one read. -/
def readEvents (uninit : Uninit) (c : Connection) (bytes : List UInt8) : List SessionEvent :=
  if c.status = .reading then
    if 0 < bytes.length then
      let c := { c with requestStreambuf := c.requestStreambuf ++ bytes }
      c.sessionEvents uninit c.requestStreambuf.length
    else []
  else []

/-- The messages passed to the handler and the acknowledgements are the events, in order. -/
theorem handleReadLoop_events (c : Connection) (uninit : Uninit) (bufSize : Nat) :
    (c.handleReadLoop uninit bufSize).handled =
        c.handled ++ (c.sessionEvents uninit bufSize).filterMap SessionEvent.requested ∧
      (c.handleReadLoop uninit bufSize).writeQueue =
        c.writeQueue ++ (c.sessionEvents uninit bufSize).filterMap SessionEvent.acknowledged := by
  fun_induction handleReadLoop c uninit bufSize with
  | case1 c =>
      rw [sessionEvents, if_pos rfl]
      simp
  | case2 c bufSize h r c' hr ih =>
      obtain ⟨hhandled, hqueue⟩ := ih
      rw [sessionEvents_round h hr, hhandled, hqueue]
      simp [RtmpParser.parse_requested, RtmpParser.parse_acknowledged, c', r, Function.comp_def]
  | case3 c bufSize h r c' hr =>
      rw [sessionEvents_round h hr]
      simp [RtmpParser.parse_requested, RtmpParser.parse_acknowledged, c', r]
  | case4 c bufSize h r c' hr =>
      rw [sessionEvents_round h hr]
      simp [RtmpParser.parse_requested, RtmpParser.parse_acknowledged, c', r]
  | case5 c bufSize h r c' fault hr =>
      rw [sessionEvents_round h hr]
      simp [RtmpParser.parse_requested, RtmpParser.parse_acknowledged, c', r]

end Connection

/-- A write that is completed before the next. -/
theorem SocketOp.oneAtATime_completed (first second : List Reply) :
    OneAtATime [.asyncWrite first, .completion, .asyncWrite second] := by
  have hfirst : OneAtATime ([] ++ [.asyncWrite first]) :=
    History.lawful_concat.mpr ⟨History.lawful_nil, fun _ => rfl⟩
  have hcompleted : OneAtATime ([.asyncWrite first] ++ [.completion]) :=
    History.lawful_concat.mpr ⟨hfirst, fun h => absurd rfl h⟩
  exact History.lawful_concat.mpr ⟨hcompleted, fun _ => rfl⟩

section WritesInOrder

variable (http : List PublishCall → HttpRequest → HttpResult) (json : List UInt8 → JsonDocument)

/-- After the events `before`, an event that starts a write finds all writes completed. -/
def SessionEvent.InTime (before : List SessionEvent) (e : SessionEvent) : Prop :=
  ∀ s, Session.run http json {} before = .ok s → s.sender.Starts e →
    SocketOp.outstanding s.sender.socket = 0

/-- In a run the writes on the socket do not overlap exactly when no acknowledgement, no
answer that is sent at once and no tick with something to send comes while one of them is
outstanding. -/
theorem writes_do_not_overlap_iff (events : List SessionEvent) (s : Session)
    (hrun : Session.run http json {} events = .ok s) :
    SocketOp.OneAtATime s.sender.socket ↔
      History.Lawful (SessionEvent.InTime http json) events := by
  refine @History.run_lawful_iff _ _ _ _ _ _
    (fun s : Session => SocketOp.OneAtATime s.sender.socket) _ _ ?_ ?_ hrun
  · exact History.lawful_nil
  · intro before e s₁ s' hbefore hstep
    have htime : SessionEvent.InTime http json before e ↔
        (s₁.sender.Starts e → SocketOp.outstanding s₁.sender.socket = 0) := by
      constructor
      · intro h
        exact h s₁ hbefore
      · intro h s hs
        rw [show s = s₁ from Except.ok.inj (hs.symm.trans hbefore)]
        exact h
    rw [Session.onEvent_sender hstep, htime]
    exact MessageSender.onEvent_oneAtATime ..

/-- A reply, its completion and another reply. -/
theorem answered_in_time :
    ∃ s, Session.run (fun _ _ => .failed) (fun _ => .parseError) {}
        [.request releaseStreamRequest, .writeCompleted false, .request releaseStreamRequest] =
          .ok s ∧
      History.Lawful (SessionEvent.InTime (fun _ _ => .failed) (fun _ => .parseError))
        [.request releaseStreamRequest, .writeCompleted false, .request releaseStreamRequest] := by
  refine ⟨_, rfl, (writes_do_not_overlap_iff _ _ _ _ rfl).mp ?_⟩
  exact SocketOp.oneAtATime_completed _ _

/-- Two releaseStream commands for the stream "a" in one segment, with transaction ids 2
and 3. -/
def pipelinedReleaseStreams : List UInt8 :=
  let header : List UInt8 := [0x03, 0, 0, 0, 0, 0, 30, 0x14, 0, 0, 0, 0]
  let name : List UInt8 :=
    [0x02, 0, 13] ++ ascii ['r', 'e', 'l', 'e', 'a', 's', 'e', 'S', 't', 'r', 'e', 'a', 'm']
  let command (transactionId : List UInt8) : List UInt8 :=
    header ++ name ++ transactionId ++ [0x05, 0x02, 0, 1, 0x61]
  command [0, 0x40, 0, 0, 0, 0, 0, 0, 0] ++ command [0, 0x40, 0x08, 0, 0, 0, 0, 0, 0]

/-- The message of one of the commands. -/
def pipelinedReleaseStream (transactionId : UInt64) : RtmpMessage where
  header := { chunkStreamId := 3, msgLength := 30, msgTypeId := .commandAmf0 }
  body := .releaseStream transactionId [0x61]

theorem pipelined_readEvents :
    ({} : Connection).readEvents (fun _ => 0) pipelinedReleaseStreams =
      [.request (pipelinedReleaseStream 0x4000000000000000),
        .request (pipelinedReleaseStream 0x4008000000000000)] := by
  decide +kernel

/-- The second command is answered while the write of the first answer is outstanding. -/
theorem pipelined_writes_overlap :
    ∃ s, Session.run (fun _ _ => .failed) (fun _ => .parseError) {}
        (({} : Connection).readEvents (fun _ => 0) pipelinedReleaseStreams) = .ok s ∧
      ¬ SocketOp.OneAtATime s.sender.socket := by
  rw [pipelined_readEvents]
  refine ⟨_, rfl, ?_⟩
  intro h
  have houtstanding := h [_] _ [] rfl (by simp)
  exact absurd houtstanding (by decide)

end WritesInOrder

end Rtmp
