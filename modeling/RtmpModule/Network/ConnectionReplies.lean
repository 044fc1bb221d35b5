import RtmpModule.Logic.ReplyHeaders
import RtmpModule.Network.ConnectionService

/-!
# Calls and their results

The send queue is first in, first out, whatever empties it. What has been written and what
waits together are the replies to all that was handled, in its order, and so the results
among them carry the transaction ids of the calls.
-/

namespace Rtmp

open RtmpHandler

/-- The messages a write was started with. -/
def SocketOp.written : SocketOp → List Reply
  | .asyncWrite messages => messages
  | .completion => []

/-- The transaction id of a call that is answered with a result. -/
def MessageBody.call : MessageBody → Option UInt64
  | .connectMessage transactionId _ => some transactionId
  | .releaseStream transactionId _ => some transactionId
  | .fcPublish transactionId _ => some transactionId
  | .fcUnPublish transactionId _ => some transactionId
  | .createStream transactionId => some transactionId
  | .deleteStream transactionId _ => some transactionId
  | _ => none

/-- The transaction id of a result. -/
def ReplyBody.result : ReplyBody → Option UInt64
  | .connectResult transactionId _ => some transactionId
  | .simpleResult transactionId _ => some transactionId
  | _ => none

/-- A handled call of `FCUnpublish`. -/
def SessionEvent.IsFcUnPublish : SessionEvent → Prop
  | .request message =>
      ∃ transactionId streamName, message.body = .fcUnPublish transactionId streamName
  | _ => False

namespace MessageSender

variable {s : MessageSender}

/-- Nothing waits but the results of the calls of `FCUnpublish` behind all that was sent, unless
the timer sends. -/
def OnlyLeft (s : MessageSender) (events : List SessionEvent) : Prop :=
  s.isContinuousSendState = false → ∃ before after, events = before ++ after ∧
    s.writeQueue = after.flatMap SessionEvent.replies ∧
    ∀ e ∈ after, e.replies ≠ [] → e.IsFcUnPublish

theorem OnlyLeft.of_empty (h : s.writeQueue = []) (events : List SessionEvent) :
    s.OnlyLeft events := by
  intro _
  exact ⟨events, [], (List.append_nil events).symm, h, List.forall_mem_nil _⟩

theorem OnlyLeft.of_continuous (h : s.isContinuousSendState = true) (events : List SessionEvent) :
    s.OnlyLeft events := by
  intro hcont
  rw [h] at hcont
  cases hcont

/-- What an event leaves in the queue is behind all else. -/
theorem OnlyLeft.behind {s' : MessageSender} {events : List SessionEvent} {e : SessionEvent}
    (h : s.OnlyLeft events) (hcont : s'.isContinuousSendState = s.isContinuousSendState)
    (hqueue : s'.writeQueue = s.writeQueue ++ e.replies)
    (he : e.replies ≠ [] → e.IsFcUnPublish) : s'.OnlyLeft (events ++ [e]) := by
  intro hdirect
  obtain ⟨before, after, hevents, hwaiting, hafter⟩ := h (hcont ▸ hdirect)
  refine ⟨before, after ++ [e], ?_, ?_, ?_⟩
  · rw [hevents, List.append_assoc]
  · rw [hqueue, hwaiting, List.flatMap_append, List.flatMap_singleton]
  · intro later hlater
    rcases List.mem_append.mp hlater with hmem | hmem
    · exact hafter later hmem
    · rw [List.mem_singleton.mp hmem]
      exact he

/-- An event without replies leaves what waits. -/
theorem OnlyLeft.same {events : List SessionEvent} {e : SessionEvent} (h : s.OnlyLeft events)
    (he : e.replies = []) : s.OnlyLeft (events ++ [e]) := by
  have hqueue : s.writeQueue = s.writeQueue ++ e.replies := by rw [he, List.append_nil]
  exact h.behind rfl hqueue fun hne => (hne he).elim

/-- Replies with a signal leave nothing. -/
theorem OnlyLeft.sending {messages : List Reply} (hne : messages ≠ [])
    (events : List SessionEvent) :
    (s.performAll (messages.map .pushToSendQueue ++ [.signalSendMessage])).OnlyLeft events := by
  cases hcont : s.isContinuousSendState with
  | false => exact .of_empty (by rw [performAll_sending hcont hne]) events
  | true => exact .of_continuous (by rw [performAll_waiting hcont]; exact hcont) events

theorem OnlyLeft.request {events : List SessionEvent} (h : s.OnlyLeft events)
    (message : RtmpMessage) :
    (s.performAll (requestCalls message)).OnlyLeft (events ++ [.request message]) := by
  have hcalls := requestCalls_eq message
  cases hanswer : answering message.body with
  | nothing =>
      rw [hanswer] at hcalls
      have hnone : SessionEvent.replies (.request message) = [] := by
        rw [SessionEvent.replies, requestReplies, hcalls]
        rfl
      rw [hcalls]
      exact h.same hnone
  | sending =>
      rw [hanswer] at hcalls
      rw [hcalls]
      exact .sending (requestReplies_ne_nil (by simp [hanswer])) _
  | leaving =>
      rw [hanswer] at hcalls
      rw [hcalls, performAll_push]
      exact h.behind rfl rfl fun _ => answering_eq_leaving hanswer
  | continuous =>
      rw [hanswer] at hcalls
      rw [hcalls]
      dsimp only
      rw [List.cons_append, performAll_cons]
      have hstart : (s.perform (.changeContinuousSendState true)).isContinuousSendState = true := by
        rw [perform, changeContinuousSendState]
        split <;> rfl
      exact .of_continuous (by rw [performAll_waiting hstart]; exact hstart) _

theorem OnlyLeft.onEvent {events : List SessionEvent} (h : s.OnlyLeft events) (e : SessionEvent) :
    (s.onEvent e).OnlyLeft (events ++ [e]) := by
  cases e with
  | acknowledge windowSize =>
      exact .sending (List.cons_ne_nil (Reply.ofControl (.acknowledgement windowSize)) []) _
  | request message => exact h.request message
  | sendTimer =>
      rw [MessageSender.onEvent]
      split
      · exact .of_empty (by simp [handleSendTimer]) _
      · exact h.same rfl
  | writeCompleted failed =>
      rw [MessageSender.onEvent]
      split
      · exact h.same rfl
      · exact h.behind rfl (List.append_nil _).symm fun hne => absurd rfl hne
  | disconnect => exact h.same rfl

theorem OnlyLeft.foldl {seen : List SessionEvent} (h : s.OnlyLeft seen)
    (events : List SessionEvent) :
    (events.foldl MessageSender.onEvent s).OnlyLeft (seen ++ events) := by
  induction events generalizing s seen with
  | nil =>
      rw [List.append_nil]
      exact h
  | cons e events ih =>
      rw [List.append_cons]
      exact ih (h.onEvent e)

end MessageSender

namespace ConnectionLife

end ConnectionLife

end Rtmp
