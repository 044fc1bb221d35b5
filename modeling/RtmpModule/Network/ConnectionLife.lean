import RtmpModule.Network.ConnectionHandshake
import RtmpModule.Network.Segmentation
import RtmpModule.Network.SendQueue

/-!
# The life of a connection

The handlers of a connection run in one strand, each for an operation that was started
before: a read, the write of the handshake, a write of replies or a wait of the timer.
Which of them ends next, how, and with how many bytes, is up to the network.
-/

namespace Rtmp

open AMF0Serializer

/-- What a connection gets from outside. -/
structure StrandHost extends HandshakeHost where
  http : List PublishCall → HttpRequest → HttpResult
  json : List UInt8 → JsonDocument
  uninit : Uninit

/-- The handler that a read on the socket is started with. -/
inductive ReadHandler where
  | handshakeC0C1
  | handshakeC2
  | request
  deriving DecidableEq, Repr

/-- How much a read that succeeds can take: exactly its length during the handshake, and
then at most `READ_BUF_SIZE`. -/
def ReadHandler.MayTake (size : ℕ) : ReadHandler → Prop
  | .handshakeC0C1 => size = 1537
  | .handshakeC2 => size = 1536
  | .request => 0 < size ∧ size ≤ 8192

instance (size : ℕ) (handler : ReadHandler) : Decidable (handler.MayTake size) := by
  cases handler <;> unfold ReadHandler.MayTake <;> infer_instance

/-- What happens to a connection: its peer sends, or an operation ends. A read is named by
its place among those outstanding. -/
inductive StrandEvent where
  | arrived (bytes : List UInt8)
  | readCompleted (read size : ℕ)
  | readFailed (read : ℕ)
  | handshakeWritten (failed : Bool)
  | sendTimer
  | writeCompleted (failed : Bool)

/-- What leaves the strand: an access outside of the handshake's arrays, or an exception of
the parser or of the handler. -/
inductive StrandFault where
  | overrun
  | parser (fault : Fault)
  | handler (fault : StreamerFault)

/-- A connection with the operations outstanding on its socket; `arrived` is what its peer
has sent and nobody has read. The last four are histories: all that was read, what each
`handle_read` got of it, what the handshake wrote, and what the session went through. -/
structure ConnectionLife where
  handshake : ConnectionHandshake
  receiver : Connection := {}
  session : Session := {}
  reads : List ReadHandler := []
  handshakeWrites : ℕ := 0
  arrived : List UInt8 := []
  taken : List UInt8 := []
  requests : List (List UInt8) := []
  answers : List (List UInt8) := []
  events : List SessionEvent := []

namespace ConnectionLife

/-- `start` of a new connection. -/
def start (handshake : ConnectionHandshake) : ConnectionLife :=
  { handshake, reads := [.handshakeC0C1] }

variable (host : StrandHost) (c : ConnectionLife)

/-- The handler and the sender take their events. -/
def perform (events : List SessionEvent) : Except StrandFault ConnectionLife :=
  match c.session.run host.http host.json events with
  | .error fault => .error (.handler fault)
  | .ok session => .ok { c with session, events := c.events ++ events }

def disconnect : Except StrandFault ConnectionLife := c.perform host [.disconnect]

/-- `handle_read_handshake_C0_C1` without an error. When C0 is refused it starts nothing. -/
def handleReadHandshakeC0C1 (bytes : List UInt8) : Except StrandFault ConnectionLife :=
  match c.handshake.validateC0C1 host.toHandshakeHost (c.receiver.requestStreambuf ++ bytes) with
  | none => .error .overrun
  | some (false, handshake, rest) =>
      .ok { c with handshake, receiver := { c.receiver with requestStreambuf := rest } }
  | some (true, handshake, rest) =>
      match handshake.reply host.toHandshakeHost with
      | none => .error .overrun
      | some (replied, answer) =>
          .ok { c with
            handshake := replied
            receiver := { c.receiver.setBaseTimestamp handshake.clientEpochTimestamp with
              requestStreambuf := rest.drop (1536 * 2 + 1) }
            handshakeWrites := c.handshakeWrites + 1
            answers := c.answers ++ [answer] }

def handleS0S1S2Write (failed : Bool) : Except StrandFault ConnectionLife :=
  if failed then c.disconnect host
  else .ok { c with reads := c.reads ++ [.handshakeC2] }

/-- `handle_read_handshake_C2` without an error; nothing looks at C2. -/
def handleReadHandshakeC2 (bytes : List UInt8) : ConnectionLife :=
  { c with
    receiver := { c.receiver with
      requestStreambuf := (c.receiver.requestStreambuf ++ bytes).drop 1536 }
    reads := c.reads ++ [.request] }

/-- The loop of `handle_read` with the calls of the parser and of the handler in their
order; `bufSize` is `buffer_size - total_read_in_parse`. -/
def handleReadLoop (c : ConnectionLife) (bufSize : ℕ) : Except StrandFault ConnectionLife :=
  if bufSize = 0 then .ok { c with reads := c.reads ++ [.request] }
  else
    let r := c.receiver.parser.parse host.uninit c.receiver.requestStreambuf bufSize
    let receiver := { c.receiver with
      parser := r.parser, requestStreambuf := r.stream
      writeQueue := c.receiver.writeQueue ++ r.pushed }
    match _hr : r.result with
    | .ok .true =>
        let message := r.parser.parsedMsg.toList
        let events := r.acknowledgements ++ message.map .request
        match c.session.run host.http host.json events with
        | .error fault => .error (.handler fault)
        | .ok session =>
            handleReadLoop
              { c with
                receiver := { receiver with handled := receiver.handled ++ message }
                session, events := c.events ++ events }
              (bufSize - r.totalReadedSize)
    | .ok .false =>
        perform host { c with receiver := { receiver with status := .disconnected } }
          (r.acknowledgements ++ [.disconnect])
    | .ok .indeterminate =>
        perform host { c with receiver, reads := c.reads ++ [.request] } r.acknowledgements
    | .error fault => .error (.parser fault)
termination_by c.receiver.parser.measure bufSize
decreasing_by exact RtmpParser.parse_measure _hr

/-- `handle_read` without an error. -/
def handleRead (bytes : List UInt8) : Except StrandFault ConnectionLife :=
  if 0 < bytes.length then
    let receiver := { c.receiver with requestStreambuf := c.receiver.requestStreambuf ++ bytes }
    handleReadLoop host { c with receiver, requests := c.requests ++ [bytes] }
      receiver.requestStreambuf.length
  else .ok c

/-- The connection when a read has ended with some of the bytes that have arrived. -/
def readOff (read size : ℕ) : ConnectionLife :=
  { c with
    reads := c.reads.eraseIdx read
    arrived := c.arrived.drop size
    taken := c.taken ++ c.arrived.take size }

/-- The handler of a read that has succeeded. -/
def completed (handler : ReadHandler) (bytes : List UInt8) : Except StrandFault ConnectionLife :=
  match handler with
  | .handshakeC0C1 => c.handleReadHandshakeC0C1 host bytes
  | .handshakeC2 => .ok (c.handleReadHandshakeC2 bytes)
  | .request => c.handleRead host bytes

/-- One event. An operation that is not outstanding, and a read for which too little has
arrived, does not end. -/
def onEvent : StrandEvent → Except StrandFault ConnectionLife
  | .arrived bytes => .ok { c with arrived := c.arrived ++ bytes }
  | .readCompleted read size =>
      match c.reads[read]? with
      | none => .ok c
      | some handler =>
          if handler.MayTake size ∧ size ≤ c.arrived.length then
            completed host (c.readOff read size) handler (c.arrived.take size)
          else .ok c
  | .readFailed read =>
      if read < c.reads.length then
        disconnect host { c with reads := c.reads.eraseIdx read }
      else .ok c
  | .handshakeWritten failed =>
      if c.handshakeWrites = 0 then .ok c
      else handleS0S1S2Write host { c with handshakeWrites := c.handshakeWrites - 1 } failed
  | .sendTimer => c.perform host [.sendTimer]
  | .writeCompleted failed => c.perform host [.writeCompleted failed]

/-- A connection after a list of events. -/
def run (events : List StrandEvent) : Except StrandFault ConnectionLife :=
  History.run (onEvent host) c events

end ConnectionLife

/-- One round of the loop, by what `parse` returns. -/
theorem Connection.handleReadLoop_round {c : Connection} {uninit : Uninit} {bufSize : Nat}
    {result : Except Fault Tribool} (h : ¬ bufSize = 0) :
    (c.parser.parse uninit c.requestStreambuf bufSize).result = result →
      c.handleReadLoop uninit bufSize =
        let r := c.parser.parse uninit c.requestStreambuf bufSize
        let c := { c with
          parser := r.parser, requestStreambuf := r.stream, writeQueue := c.writeQueue ++ r.pushed }
        match result with
        | .ok .true =>
            handleReadLoop { c with handled := c.handled ++ r.parser.parsedMsg.toList } uninit
              (bufSize - r.totalReadedSize)
        | .ok .false => { c with status := .disconnected }
        | .ok .indeterminate => c
        | .error fault => { c with status := .aborted fault } := by
  rintro rfl
  rw [handleReadLoop, if_neg h]
  dsimp only
  split <;> rename_i hr <;> rw [hr]

namespace ConnectionLife
variable {host : StrandHost} {c c' : ConnectionLife}

theorem perform_ok {events : List SessionEvent} (h : c.perform host events = .ok c') :
    ∃ session, c.session.run host.http host.json events = .ok session ∧
      c' = { c with session, events := c.events ++ events } := by
  unfold perform at h
  split at h
  · cases h
  · rename_i session hrun
    cases h
    exact ⟨session, hrun, rfl⟩

/-- What the loop does is what its receiving half and the session do one after the other. -/
theorem handleReadLoop_ok (hstatus : c.receiver.status = .reading) {bufSize : ℕ}
    (h : c.handleReadLoop host bufSize = .ok c') :
    ∃ session,
      c.session.run host.http host.json (c.receiver.sessionEvents host.uninit bufSize) =
        .ok session ∧
      c' = { c with
        receiver := c.receiver.handleReadLoop host.uninit bufSize
        session
        events := c.events ++ c.receiver.sessionEvents host.uninit bufSize
        reads := if (c.receiver.handleReadLoop host.uninit bufSize).status = .reading
          then c.reads ++ [.request] else c.reads } ∧
      ((c.receiver.handleReadLoop host.uninit bufSize).status = .reading ∨
        (c.receiver.handleReadLoop host.uninit bufSize).status = .disconnected) := by
  induction hn : c.receiver.parser.measure bufSize using Nat.strongRecOn
      generalizing c bufSize with
  | ind n ih =>
      rw [handleReadLoop] at h
      by_cases hempty : bufSize = 0
      · rw [if_pos hempty] at h
        cases h
        subst hempty
        rw [Connection.sessionEvents, if_pos rfl, Connection.handleReadLoop, if_pos rfl,
          if_pos hstatus, List.append_nil]
        exact ⟨c.session, rfl, rfl, .inl hstatus⟩
      · rw [if_neg hempty] at h
        dsimp only at h
        split at h <;> rename_i hr <;>
          rw [Connection.sessionEvents_round hempty hr, Connection.handleReadLoop_round hempty hr]
        · dsimp only
          split at h
          · cases h
          · rename_i session hsession
            obtain ⟨session', hsession', rfl, hend⟩ := ih _ (hn ▸ RtmpParser.parse_measure hr)
              (by exact hstatus) h rfl
            refine ⟨session', ?_, ?_, hend⟩
            · rw [← List.append_assoc]
              exact History.run_append_ok.mpr ⟨session, hsession, hsession'⟩
            · simp only [List.append_assoc]
        · obtain ⟨session, hsession, rfl⟩ := perform_ok h
          exact ⟨session, hsession, rfl, .inr rfl⟩
        · obtain ⟨session, hsession, rfl⟩ := perform_ok h
          refine ⟨session, by simpa using hsession, ?_, .inl hstatus⟩
          dsimp only
          rw [if_pos hstatus, List.append_nil]
        · cases h

theorem handleRead_ok {bytes : List UInt8} (hbytes : bytes ≠ [])
    (hstatus : c.receiver.status = .reading) (h : c.handleRead host bytes = .ok c') :
    ∃ session,
      c.session.run host.http host.json (c.receiver.readEvents host.uninit bytes) = .ok session ∧
      c' = { c with
        receiver := c.receiver.handleRead host.uninit bytes
        session
        requests := c.requests ++ [bytes]
        events := c.events ++ c.receiver.readEvents host.uninit bytes
        reads := if (c.receiver.handleRead host.uninit bytes).status = .reading
          then c.reads ++ [.request] else c.reads } ∧
      ((c.receiver.handleRead host.uninit bytes).status = .reading ∨
        (c.receiver.handleRead host.uninit bytes).status = .disconnected) := by
  have hlength := List.length_pos_of_ne_nil hbytes
  rw [handleRead, if_pos hlength] at h
  rw [Connection.readEvents, Connection.handleRead, if_pos hstatus, if_pos hstatus, if_pos hlength,
    if_pos hlength]
  exact handleReadLoop_ok (by exact hstatus) h

end ConnectionLife

namespace Connection

variable {uninit : Uninit}

/-- The loop disconnects at most once, and as the last thing it does. -/
theorem sessionEvents_disconnect (c : Connection) (uninit : Uninit) (bufSize : Nat)
    (hstatus : c.status = .reading) :
    ∃ events, c.sessionEvents uninit bufSize = events ++
        (if (c.handleReadLoop uninit bufSize).status = .disconnected then [.disconnect] else []) ∧
      .disconnect ∉ events := by
  fun_induction handleReadLoop c uninit bufSize with
  | case1 c =>
      rw [sessionEvents, if_pos rfl]
      exact ⟨[], by simp [hstatus], by simp⟩
  | case2 c bufSize h r c' hr ih =>
      obtain ⟨events, hevents, hlive⟩ := ih hstatus
      rw [sessionEvents_round h hr]
      refine ⟨r.acknowledgements ++ (r.parser.parsedMsg.toList.map .request ++ events), ?_, ?_⟩
      · simp only [List.append_assoc, ← hevents]
        rfl
      · simp [hlive, RtmpParser.ParseCall.acknowledgements]
  | case3 c bufSize h r c' hr =>
      rw [sessionEvents_round h hr]
      exact ⟨r.acknowledgements, by simp [r], by simp [RtmpParser.ParseCall.acknowledgements]⟩
  | case4 c bufSize h r c' hr =>
      rw [sessionEvents_round h hr]
      exact ⟨r.acknowledgements, by simp [r, c', hstatus],
        by simp [RtmpParser.ParseCall.acknowledgements]⟩
  | case5 c bufSize h r c' fault hr =>
      rw [sessionEvents_round h hr]
      exact ⟨r.acknowledgements, by simp [r],
        by simp [RtmpParser.ParseCall.acknowledgements]⟩

/-- A connection that has stopped reads nothing. -/
theorem run_stopped {c : Connection} (h : c.status ≠ .reading) (reads : List (List UInt8)) :
    c.run uninit reads = c := by
  induction reads with
  | nil => rfl
  | cons bytes reads ih =>
      rw [run, List.foldl_cons, handleRead, if_neg h]
      exact ih

/-- The events of a sequence of reads. -/
def runEvents (uninit : Uninit) (c : Connection) : List (List UInt8) → List SessionEvent
  | [] => []
  | bytes :: reads =>
    c.readEvents uninit bytes ++ (c.handleRead uninit bytes).runEvents uninit reads

theorem readEvents_disconnect {c : Connection} {bytes : List UInt8}
    (hstatus : c.status = .reading) :
    ∃ events, c.readEvents uninit bytes = events ++
        (if (c.handleRead uninit bytes).status = .disconnected then [.disconnect] else []) ∧
      .disconnect ∉ events := by
  rw [readEvents, handleRead, if_pos hstatus, if_pos hstatus]
  split
  · exact sessionEvents_disconnect _ _ _ hstatus
  · exact ⟨[], by simp [hstatus], by simp⟩

theorem handleRead_events {c : Connection} {bytes : List UInt8} :
    (c.handleRead uninit bytes).handled =
        c.handled ++ (c.readEvents uninit bytes).filterMap SessionEvent.requested ∧
      (c.handleRead uninit bytes).writeQueue =
        c.writeQueue ++ (c.readEvents uninit bytes).filterMap SessionEvent.acknowledged := by
  rw [readEvents, handleRead]
  split
  · split
    · exact handleReadLoop_events _ _ _
    · simp
  · simp

end Connection

end Rtmp
