import RtmpModule.Network.Connection
import RtmpModule.Logic.RtmpHandler

/-!
# The sending side of a connection

`Connection` is the `MessageSender` of its parser and its handler. What they push
waits in `write_queue_` until `write_message` sends the whole queue with one
`async_write`, at once or, after a `play`, at the next tick of a timer. The socket
is modelled by the history of its writes and their completions. `Session` joins the
sender to the publisher behind the handler and takes one event of the strand after
the other: an acknowledgement of the parser, a request, a tick, a completed write,
a disconnect.
-/

namespace Rtmp

/-- The message a call pushes. -/
def SenderCall.pushes : SenderCall → Option Reply
  | .pushToSendQueue message => some message
  | _ => none

/-- An `async_write` that is started with messages, or the completion of one. -/
inductive SocketOp where
  | asyncWrite (messages : List Reply)
  | completion
  deriving DecidableEq, Repr

namespace SocketOp

/-- The writes that were started and have not completed. -/
def outstanding (ops : List SocketOp) : Nat :=
  ops.foldl (fun n op => match op with
    | .asyncWrite _ => n + 1
    | .completion => n - 1) 0

@[simp] theorem outstanding_nil : outstanding [] = 0 := rfl

@[simp] theorem outstanding_concat_asyncWrite (ops : List SocketOp) (messages : List Reply) :
    outstanding (ops ++ [.asyncWrite messages]) = outstanding ops + 1 := by
  simp [outstanding]

@[simp] theorem outstanding_concat_completion (ops : List SocketOp) :
    outstanding (ops ++ [.completion]) = outstanding ops - 1 := by
  simp [outstanding]

/-- A write is started only when all the earlier ones have completed. -/
def OneAtATime (ops : List SocketOp) : Prop :=
  History.Lawful (fun before op => op ≠ .completion → outstanding before = 0) ops

end SocketOp

/-- The members of `Connection` that `MessageSender` calls work on; `pushed` are all the
messages pushed so far, `socket` is what happened on the socket. A wait of the timer is
never cancelled, so it only ever ends with a tick. -/
structure MessageSender where
  writeQueue : List Reply := []
  isContinuousSendState : Bool := false
  timerWaits : Bool := false
  pushed : List Reply := []
  socket : List SocketOp := []

namespace MessageSender

variable (s : MessageSender)

def pushToSendQueue (message : Reply) : MessageSender :=
  { s with writeQueue := s.writeQueue ++ [message], pushed := s.pushed ++ [message] }

def writeMessage : MessageSender :=
  if s.writeQueue = [] then s
  else { s with writeQueue := [], socket := s.socket ++ [.asyncWrite s.writeQueue] }

def signalSendMessage : MessageSender :=
  if s.isContinuousSendState then s else s.writeMessage

def changeContinuousSendState (state : Bool) : MessageSender :=
  if state ∧ ¬ s.isContinuousSendState then
    { s with timerWaits := true, isContinuousSendState := state }
  else { s with isContinuousSendState := state }

/-- `handle_send_timer`: the wait is over, and another is started in the continuous state. -/
def handleSendTimer : MessageSender :=
  { s.writeMessage with timerWaits := s.isContinuousSendState }

def handleWrite : MessageSender := { s with socket := s.socket ++ [.completion] }

def perform : SenderCall → MessageSender
  | .pushToSendQueue message => s.pushToSendQueue message
  | .signalSendMessage => s.signalSendMessage
  | .changeContinuousSendState state => s.changeContinuousSendState state

def performAll (calls : List SenderCall) : MessageSender := calls.foldl perform s

/-- `RtmpParser::parse` pushes an acknowledgement and signals. -/
def acknowledge (windowSize : UInt32) : MessageSender :=
  s.performAll
    [.pushToSendQueue (.ofControl (.acknowledgement windowSize)), .signalSendMessage]

@[simp] theorem performAll_nil : s.performAll [] = s := rfl

@[simp] theorem performAll_cons (call : SenderCall) (calls : List SenderCall) :
    s.performAll (call :: calls) = (s.perform call).performAll calls := rfl

@[simp] theorem writeMessage_writeQueue : s.writeMessage.writeQueue = [] := by
  unfold writeMessage
  split
  · assumption
  · rfl

@[simp] theorem writeMessage_isContinuousSendState :
    s.writeMessage.isContinuousSendState = s.isContinuousSendState := by
  unfold writeMessage
  split <;> rfl

@[simp] theorem writeMessage_timerWaits : s.writeMessage.timerWaits = s.timerWaits := by
  unfold writeMessage
  split <;> rfl

@[simp] theorem writeMessage_pushed : s.writeMessage.pushed = s.pushed := by
  unfold writeMessage
  split <;> rfl

theorem writeMessage_socket (h : s.writeQueue ≠ []) :
    s.writeMessage.socket = s.socket ++ [.asyncWrite s.writeQueue] := by
  unfold writeMessage
  rw [if_neg h]

@[simp] theorem signalSendMessage_pushed : s.signalSendMessage.pushed = s.pushed := by
  unfold signalSendMessage
  split
  · rfl
  · exact s.writeMessage_pushed

/-- Only a push adds to what was pushed. -/
theorem perform_pushed (call : SenderCall) :
    (s.perform call).pushed = s.pushed ++ call.pushes.toList := by
  cases call with
  | pushToSendQueue message => rfl
  | signalSendMessage =>
      rw [perform, signalSendMessage_pushed]
      exact (List.append_nil _).symm
  | changeContinuousSendState state =>
      rw [perform, changeContinuousSendState]
      split <;> exact (List.append_nil _).symm

theorem performAll_pushed (calls : List SenderCall) :
    (s.performAll calls).pushed = s.pushed ++ calls.filterMap SenderCall.pushes := by
  induction calls generalizing s with
  | nil => simp
  | cons call calls ih =>
      rw [performAll_cons, ih, perform_pushed, List.append_assoc]
      cases call <;> rfl

theorem performAll_append (calls more : List SenderCall) :
    s.performAll (calls ++ more) = (s.performAll calls).performAll more :=
  List.foldl_append

/-- Messages that are pushed wait behind those in the queue. -/
theorem performAll_push (messages : List Reply) :
    s.performAll (messages.map .pushToSendQueue) =
      { s with writeQueue := s.writeQueue ++ messages, pushed := s.pushed ++ messages } := by
  induction messages generalizing s with
  | nil => simp
  | cons message messages ih =>
      rw [List.map_cons, performAll_cons, ih]
      simp [perform, pushToSendQueue]

end MessageSender

namespace RtmpHandler

/-- How a handler goes about its replies. -/
inductive Answering where
  | nothing
  | sending
  | leaving
  | continuous
  deriving DecidableEq, Repr

/-- The handlers that answer and signal, the one that only pushes, and the one that
changes to the continuous state. -/
def answering : MessageBody → Answering
  | .connectMessage _ _ => .sending
  | .releaseStream _ _ => .sending
  | .fcPublish _ _ => .sending
  | .fcUnPublish _ _ => .leaving
  | .createStream _ => .sending
  | .deleteStream _ _ => .sending
  | .publish _ _ _ => .sending
  | .play _ _ => .continuous
  | _ => .nothing

/-- The calls a request leads to; they do not depend on the context. -/
def requestCalls (request : RtmpMessage) : List SenderCall :=
  (answer {} request.header request.body).2

theorem answer_calls (context : MediaPublishEsContext) (request : RtmpMessage) :
    (answer context request.header request.body).2 = requestCalls request := by
  unfold requestCalls answer
  cases request.body <;> rfl

/-- What a request pushes. -/
def requestReplies (request : RtmpMessage) : List Reply :=
  (requestCalls request).filterMap SenderCall.pushes

/-- The calls of a request are its replies and what goes with them. -/
theorem requestCalls_eq (request : RtmpMessage) :
    requestCalls request =
      match answering request.body with
      | .nothing => []
      | .sending => (requestReplies request).map .pushToSendQueue ++ [.signalSendMessage]
      | .leaving => (requestReplies request).map .pushToSendQueue
      | .continuous =>
          .changeContinuousSendState true ::
            (requestReplies request).map .pushToSendQueue ++ [.signalSendMessage] := by
  unfold requestReplies requestCalls answering answer
  cases request.body <;> rfl

theorem requestReplies_ne_nil {request : RtmpMessage} (h : answering request.body ≠ .nothing) :
    requestReplies request ≠ [] := by
  revert h
  unfold requestReplies requestCalls answer
  cases request.body <;> intro h <;> first | exact absurd rfl h | exact List.cons_ne_nil _ _

variable {http : List PublishCall → HttpRequest → HttpResult} {json : List UInt8 → JsonDocument}

theorem handleRequest_calls {p q : Publisher} {request : RtmpMessage} {calls : List SenderCall}
    (h : handleRequest http json p request = .ok (q, calls)) : calls = requestCalls request := by
  have hmedia : ∀ data, handleMediaMessage http json p request.header data = .ok (q, calls) →
      calls = [] := by
    intro data hdata
    unfold handleMediaMessage at hdata
    split at hdata
    · cases hdata
    · cases hdata
      rfl
  rw [handleRequest] at h
  split at h
  · rename_i data hbody
    rw [hmedia data h, requestCalls, hbody]
    rfl
  · rename_i data hbody
    rw [hmedia data h, requestCalls, hbody]
    rfl
  · cases h
    exact answer_calls p.context request

end RtmpHandler

/-- A connection from the handler to the socket. -/
structure Session where
  publisher : Publisher := {}
  sender : MessageSender := {}

/-- What the strand of a connection runs, one after the other. -/
inductive SessionEvent where
  | acknowledge (windowSize : UInt32)
  | request (request : RtmpMessage)
  | sendTimer
  | writeCompleted (failed : Bool)
  | disconnect
  deriving DecidableEq, Repr

/-- An event as the sender alone sees it. A tick needs a wait and a completion a write. -/
def MessageSender.onEvent (s : MessageSender) : SessionEvent → MessageSender
  | .acknowledge windowSize => s.acknowledge windowSize
  | .request request => s.performAll (RtmpHandler.requestCalls request)
  | .sendTimer => if s.timerWaits then s.handleSendTimer else s
  | .writeCompleted _ => if SocketOp.outstanding s.socket = 0 then s else s.handleWrite
  | .disconnect => s

namespace Session

variable (http : List PublishCall → HttpRequest → HttpResult) (json : List UInt8 → JsonDocument)
variable (s : Session)

/-- `disconnect`; what it does to the socket shows in the events that follow. -/
def disconnect : Except StreamerFault Session :=
  match RtmpHandler.notifyDisconnect http json s.publisher with
  | .error fault => .error fault
  | .ok publisher => .ok { s with publisher }

def handleRequest (request : RtmpMessage) : Except StreamerFault Session :=
  match RtmpHandler.handleRequest http json s.publisher request with
  | .error fault => .error fault
  | .ok (publisher, calls) => .ok { publisher, sender := s.sender.performAll calls }

def onEvent : SessionEvent → Except StreamerFault Session
  | .acknowledge windowSize => .ok { s with sender := s.sender.acknowledge windowSize }
  | .request request => s.handleRequest http json request
  | .sendTimer =>
      .ok (if s.sender.timerWaits then { s with sender := s.sender.handleSendTimer } else s)
  | .writeCompleted failed =>
      if SocketOp.outstanding s.sender.socket = 0 then .ok s
      else
        let s := { s with sender := s.sender.handleWrite }
        if failed then s.disconnect http json else .ok s
  | .disconnect => s.disconnect http json

/-- A session after a list of events. -/
def run (events : List SessionEvent) : Except StreamerFault Session :=
  History.run (onEvent http json) s events

variable {http json s} {s' : Session}

theorem disconnect_sender (h : s.disconnect http json = .ok s') : s'.sender = s.sender := by
  unfold disconnect at h
  split at h
  · cases h
  · cases h
    rfl

theorem handleRequest_sender {request : RtmpMessage}
    (h : s.handleRequest http json request = .ok s') :
    s'.sender = s.sender.performAll (RtmpHandler.requestCalls request) := by
  unfold handleRequest at h
  split at h
  · cases h
  · rename_i publisher calls hcalls
    cases h
    rw [RtmpHandler.handleRequest_calls hcalls]

/-- What happens to the sender does not depend on the publisher. -/
theorem onEvent_sender {e : SessionEvent} (h : s.onEvent http json e = .ok s') :
    s'.sender = s.sender.onEvent e := by
  cases e with
  | acknowledge windowSize =>
      cases h
      rfl
  | request request => exact handleRequest_sender h
  | sendTimer =>
      rw [onEvent] at h
      rw [MessageSender.onEvent]
      cases h
      split <;> rfl
  | writeCompleted failed =>
      rw [onEvent] at h
      rw [MessageSender.onEvent]
      split at h
      · rename_i hnone
        cases h
        rw [if_pos hnone]
      · rename_i hsome
        rw [if_neg hsome]
        dsimp only at h
        split at h
        · exact disconnect_sender h
        · cases h
          rfl
  | disconnect => exact disconnect_sender h

theorem run_sender {events : List SessionEvent} (h : s.run http json events = .ok s') :
    s'.sender = events.foldl MessageSender.onEvent s.sender := by
  induction events generalizing s with
  | nil =>
      cases h
      rfl
  | cons e events ih =>
      obtain ⟨s₁, hstep, hrest⟩ := History.run_cons_ok.mp h
      rw [List.foldl_cons, ← onEvent_sender hstep]
      exact ih hrest

end Session

end Rtmp
