import RtmpModule.Logic.LiveSession
import RtmpModule.Network.ClientMessages
import RtmpModule.Network.ConnectionService

/-!
# From the bytes of a client to the streamer

The stages of a connection, one behind the other: what comes in on the socket, the
messages of the client in it, the requests of the handler and what the streamer gets.
-/

namespace Rtmp

open AMF0Serializer

section Publisher

variable {http : List PublishCall → HttpRequest → HttpResult} {json : List UInt8 → JsonDocument}

namespace RtmpHandler.Event

def requested : Event → Option RtmpMessage
  | .request message => some message
  | .disconnect => none

end RtmpHandler.Event

/-- What the handler gets to see of an event, unless a write fails. -/
def SessionEvent.handled : SessionEvent → Option RtmpHandler.Event
  | .request message => some (.request message)
  | .disconnect => some .disconnect
  | _ => none

namespace Session

variable {s s' : Session}

end Session

end Publisher

section Messages

namespace ClientMessage

/-- The packet in a message that was started at a time. -/
def packet? (time : Nat) : ClientMessage → Option TimedPacket
  | media packet fits => some ⟨UInt64.ofNat time, packet, fits⟩
  | _ => none

/-- The packets among messages with their times. -/
def packets (sent : List (Nat × ClientMessage)) : List TimedPacket :=
  sent.filterMap fun d => d.2.packet? d.1

/-- No end of sequence, and no command that ends the publish. -/
def Live : ClientMessage → Prop
  | media packet _ => ∀ frameType cts, packet ≠ .avcEnd frameType cts
  | command _ _ c .. => ∀ streamId, c ≠ .deleteStream streamId
  | _ => True

/-- No media. -/
def Closing : ClientMessage → Prop
  | media .. => False
  | _ => True

end ClientMessage

end Messages

section Steps

section Forall₂

variable {α β : Type} {R : α → β → Prop}

end Forall₂

end Steps

section Connection

open ConnectionHandshake (epochOf)

/-- The bytes carry the messages: they are those of chunks a peer may send once it has sent
the time in its C1, which finish these messages at these times. -/
def Carries (epoch : UInt32) (bytes : List UInt8) (sent : List (Nat × ClientMessage)) : Prop :=
  ∃ run, (Wire.afterHandshake epoch).Runs run ∧ Wire.EndsInPayload run ∧
    Wire.bytes run = bytes ∧
    (Wire.afterHandshake epoch).deliveries run = sent.map fun d => (d.1, d.2.wire)

theorem Carries.handled {epoch : UInt32} {reads : List (List UInt8)}
    {sent : List (Nat × ClientMessage)} (h : Carries epoch reads.flatten sent) (uninit : Uninit)
    (hreads : ∀ bytes ∈ reads, bytes ≠ [])
    (hreplay : (Connection.afterHandshake epoch).NeverReplays uninit reads) :
    ((Connection.afterHandshake epoch).run uninit reads).status = .reading ∧
      List.Forall₂ (fun d msg => Wire.DeliveredAs (d.1, d.2.wire) msg) sent
        ((Connection.afterHandshake epoch).run uninit reads).handled := by
  obtain ⟨run, hrun, hlast, hbytes, hsent⟩ := h
  obtain ⟨core, out, hreaches, hbetween, hout⟩ :=
    (Wire.Follows.afterHandshake epoch).reaches uninit hrun hlast
  rw [hbytes] at hreaches
  obtain ⟨hstatus, hhandled, -⟩ :=
    Connection.handled_of_reaches hreads hreplay hreaches hbetween
  rw [hsent, List.forall₂_map_left_iff] at hout
  rw [hhandled]
  exact ⟨hstatus, hout⟩

namespace ConnectionLife

variable {host : StrandHost} {old : Block UInt8 1536} {s1s2 : Block UInt8 3072}
  {version : Block UInt8 4} {events : List StrandEvent} {c : ConnectionLife}
  {sent : List (Nat × ClientMessage)}

section ShortRun

end ShortRun

end ConnectionLife

end Connection

end Rtmp
