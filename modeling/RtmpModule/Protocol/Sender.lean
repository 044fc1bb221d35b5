import RtmpModule.Protocol.ChunkFormat
import RtmpModule.Protocol.Message

/-!
# A sender of interleaved messages

A sender keeps, for each chunk stream, the message it is in the middle of. It starts
a message with a type 0 chunk and continues it with type 3 chunks, in any order over
the chunk streams, and cuts each chunk by the chunk size in force, which changes when
a SetChunkSize message of its own is finished.
-/

namespace Rtmp

/-- A chunk size the sender may announce. -/
abbrev ChunkSize := { size : UInt32 // 1 ≤ size.toNat }

/-- What a message carries. -/
inductive Content where
  | audio (body : List UInt8)
  | video (body : List UInt8)
  | chunkSize (size : ChunkSize)
  deriving DecidableEq, Repr

namespace Content

def body : Content → List UInt8
  | audio body => body
  | video body => body
  | chunkSize size => Bytes.toBE 4 size.1.toNat

def msgTypeId : Content → MsgTypeId
  | audio _ => .audioData
  | video _ => .videoData
  | chunkSize _ => .chunkSize

/-- The chunk size once a message with this content has been finished. -/
def chunkSizeAfter (size : ChunkSize) : Content → ChunkSize
  | chunkSize new => new
  | _ => size

end Content

/-- A message to be sent on a chunk stream. -/
structure Outgoing where
  chunkStreamId : UInt32
  timestamp : UInt32
  msgStreamId : UInt32
  content : Content
  id_ge : 2 ≤ chunkStreamId.toNat
  id_le : chunkStreamId.toNat ≤ 65599
  body_pos : 0 < content.body.length
  body_lt : content.body.length < 2 ^ 24
  deriving DecidableEq, Repr

namespace Outgoing

/-- The header of its first chunk. -/
def firstHeader (m : Outgoing) : MessageHeader :=
  .full m.timestamp (UInt32.ofNat m.content.body.length) m.content.msgTypeId m.msgStreamId

/-- The chunk that follows when `sent` bytes of the message are out. -/
def chunkAt (m : Outgoing) (size : ChunkSize) (sent : Nat) (wide : Bool)
    (header : MessageHeader) : Chunk where
  chunkStreamId := m.chunkStreamId
  wide := wide
  header := header
  payload := (m.content.body.drop sent).take size.1.toNat

/-- The type 3 chunks that follow when `sent` bytes of the message are out. -/
def laterChunks (m : Outgoing) (size : ChunkSize) (sent : Nat) : List Chunk :=
  if _h : sent < m.content.body.length then
    m.chunkAt size sent false .continuation :: m.laterChunks size (sent + size.1.toNat)
  else []
termination_by m.content.body.length - sent
decreasing_by
  have _hpos := size.2
  omega

/-- The chunks of a message with nothing in between. -/
def chunks (m : Outgoing) (size : ChunkSize) : List Chunk :=
  m.chunkAt size 0 false m.firstHeader :: m.laterChunks size size.1.toNat

theorem laterChunks_of_lt {m : Outgoing} {size : ChunkSize} {sent : Nat}
    (h : sent < m.content.body.length) :
    m.laterChunks size sent =
      m.chunkAt size sent false .continuation :: m.laterChunks size (sent + size.1.toNat) := by
  rw [laterChunks, dif_pos h]

theorem laterChunks_of_le {m : Outgoing} {size : ChunkSize} {sent : Nat}
    (h : m.content.body.length ≤ sent) : m.laterChunks size sent = [] := by
  rw [laterChunks, dif_neg (Nat.not_lt_of_le h)]

theorem mem_laterChunks {m : Outgoing} {size : ChunkSize} {sent : Nat} {chunk : Chunk}
    (h : chunk ∈ m.laterChunks size sent) :
    ∃ sent', chunk = m.chunkAt size sent' false .continuation := by
  induction hn : m.content.body.length - sent using Nat.strongRecOn generalizing sent with
  | ind n ih =>
      have hpos := size.2
      by_cases hlt : sent < m.content.body.length
      · rw [laterChunks_of_lt hlt, List.mem_cons] at h
        rcases h with rfl | h
        · exact ⟨sent, rfl⟩
        · exact ih _ (by omega) h rfl
      · rw [laterChunks_of_le (Nat.le_of_not_lt hlt)] at h
        cases h

/-- The header the parser keeps for the message. -/
structure Heads (m : Outgoing) (header : RtmpHeader) : Prop where
  formatType : header.formatType = .full
  chunkStreamId : header.chunkStreamId = m.chunkStreamId
  timestamp : header.timestamp = m.timestamp
  msgLength : header.msgLength.toNat = m.content.body.length
  msgTypeId : header.msgTypeId = m.content.msgTypeId
  msgStreamId : header.msgStreamId = m.msgStreamId

/-- The message as it is to be delivered: the body as sent, under the header it was
sent with. A SetChunkSize message has a header of its own making. -/
def DeliveredAs (m : Outgoing) (msg : RtmpMessage) : Prop :=
  match m.content with
  | .audio body => msg.body = .audioMessage body ∧ m.Heads msg.header
  | .video body => msg.body = .videoMessage body ∧ m.Heads msg.header
  | .chunkSize size => msg = .setChunkSize size.1

end Outgoing

/-- A message some but not all of whose bytes have been sent. -/
structure InFlight where
  message : Outgoing
  sent : Nat
  unfinished : sent < message.content.body.length
  deriving DecidableEq, Repr

/-- The sending side of a connection. -/
structure Sender where
  chunkSize : ChunkSize := ⟨128, by decide⟩
  inFlight : UInt32 → Option InFlight := fun _ => none

/-- The sender starts a message, or sends the next chunk of the one it is in the middle
of on a chunk stream. `wide` chooses between the forms of the basic header. -/
inductive SendEvent where
  | first (wide : Bool) (message : Outgoing)
  | next (wide : Bool) (chunkStreamId : UInt32)
  deriving DecidableEq, Repr

namespace Sender

/-- What a step puts on the wire, and the message it finishes. -/
structure Sent where
  sender : Sender
  chunk : Chunk
  finished : Option Outgoing

/-- Send the next chunk of a message. -/
def advance (s : Sender) (message : Outgoing) (sent : Nat) (wide : Bool)
    (header : MessageHeader) : Sent :=
  if h : sent + s.chunkSize.1.toNat < message.content.body.length then
    { sender := { s with
        inFlight := Function.update s.inFlight message.chunkStreamId
          (some { message, sent := sent + s.chunkSize.1.toNat, unfinished := h }) }
      chunk := message.chunkAt s.chunkSize sent wide header
      finished := none }
  else
    { sender := {
        chunkSize := message.content.chunkSizeAfter s.chunkSize
        inFlight := Function.update s.inFlight message.chunkStreamId none }
      chunk := message.chunkAt s.chunkSize sent wide header
      finished := some message }

/-- One step. A chunk stream carries one message at a time. -/
def step (s : Sender) : SendEvent → Option Sent
  | .first wide message =>
      match s.inFlight message.chunkStreamId with
      | none => some (s.advance message 0 wide message.firstHeader)
      | some _ => none
  | .next wide chunkStreamId =>
      match s.inFlight chunkStreamId with
      | none => none
      | some f => some (s.advance f.message f.sent wide .continuation)

/-- The chunks of a run and the messages finished in it, in order. -/
def run (s : Sender) : List SendEvent → Option (Sender × List Chunk × List Outgoing)
  | [] => some (s, [], [])
  | event :: events => do
      let sent ← s.step event
      let (s, chunks, finished) ← sent.sender.run events
      return (s, sent.chunk :: chunks, sent.finished.toList ++ finished)

variable {s s' : Sender} {event : SendEvent} {events : List SendEvent} {chunks : List Chunk}
  {finished : List Outgoing}

theorem run_cons (h : s.run (event :: events) = some (s', chunks, finished)) :
    ∃ sent s₁ chunks₁ finished₁, s.step event = some sent ∧
      sent.sender.run events = some (s₁, chunks₁, finished₁) ∧ s' = s₁ ∧
      chunks = sent.chunk :: chunks₁ ∧ finished = sent.finished.toList ++ finished₁ := by
  simp only [run, bind, Option.bind] at h
  split at h
  · cases h
  · rename_i sent hstep
    dsimp only at h
    split at h
    · cases h
    · rename_i r hrun
      obtain ⟨s₁, chunks₁, finished₁⟩ := r
      cases h
      exact ⟨sent, _, chunks₁, finished₁, hstep, hrun, rfl, rfl, rfl⟩

/-- A run can be taken apart anywhere. -/
theorem run_append {pre post : List SendEvent}
    (h : s.run (pre ++ post) = some (s', chunks, finished)) :
    ∃ s₁ chunks₁ finished₁ chunks₂ finished₂, s.run pre = some (s₁, chunks₁, finished₁) ∧
      s₁.run post = some (s', chunks₂, finished₂) ∧ chunks = chunks₁ ++ chunks₂ ∧
      finished = finished₁ ++ finished₂ := by
  induction pre generalizing s chunks finished with
  | nil => exact ⟨s, [], [], chunks, finished, rfl, h, rfl, rfl⟩
  | cons event pre ih =>
      obtain ⟨sent, s₁, chunks', finished', hstep, hrun, rfl, rfl, rfl⟩ := run_cons h
      obtain ⟨s₂, chunks₁, finished₁, chunks₂, finished₂, hpre, hpost, rfl, rfl⟩ := ih hrun
      refine ⟨s₂, sent.chunk :: chunks₁, sent.finished.toList ++ finished₁, chunks₂, finished₂,
        ?_, hpost, rfl, by rw [List.append_assoc]⟩
      simp [run, hstep, hpre]

/-- The messages a run starts. -/
def started (events : List SendEvent) : List Outgoing :=
  events.filterMap fun
    | .first _ message => some message
    | .next _ _ => none

/-- The message in flight on a chunk stream. -/
def pending (s : Sender) (id : UInt32) : List Outgoing :=
  (s.inFlight id).toList.map (·.message)

/-- Messages in flight are where they belong. -/
def Tidy (s : Sender) : Prop :=
  ∀ id f, s.inFlight id = some f → f.message.chunkStreamId = id

/-- A chunk finishes its message or leaves it in flight, and does nothing on other
chunk streams. -/
theorem pending_advance (m : Outgoing) (sent : Nat) (wide : Bool) (header : MessageHeader)
    (id : UInt32) :
    (s.advance m sent wide header).finished.toList.filter (·.chunkStreamId = id) ++
        (s.advance m sent wide header).sender.pending id =
      if m.chunkStreamId = id then [m] else s.pending id := by
  unfold advance pending
  by_cases hid : m.chunkStreamId = id
  · subst hid
    split <;> simp
  · have hne : id ≠ m.chunkStreamId := fun h => hid h.symm
    split <;> simp [hid, hne]

theorem tidy_advance (hs : s.Tidy) (m : Outgoing) (sent : Nat) (wide : Bool)
    (header : MessageHeader) : (s.advance m sent wide header).sender.Tidy := by
  intro id f hf
  unfold advance at hf
  by_cases hid : id = m.chunkStreamId
  · subst hid
    split at hf <;> simp at hf
    rw [← hf]
  · split at hf <;> simp only [Function.update_of_ne hid] at hf <;> exact hs id f hf

/-- What a step finishes or leaves in flight is what it starts or was in flight. -/
theorem started_step (hs : s.Tidy) {sent : Sent} (h : s.step event = some sent) (id : UInt32) :
    sent.sender.Tidy ∧
      s.pending id ++ (started [event]).filter (·.chunkStreamId = id) =
        sent.finished.toList.filter (·.chunkStreamId = id) ++ sent.sender.pending id := by
  cases event with
  | first wide m =>
      simp only [step] at h
      split at h
      · rename_i hidle
        cases h
        refine ⟨tidy_advance hs m 0 wide m.firstHeader, ?_⟩
        rw [pending_advance]
        by_cases hid : m.chunkStreamId = id
        · subst hid
          simp [pending, hidle, started]
        · simp [hid, started]
      · cases h
  | next wide csId =>
      simp only [step] at h
      split at h
      · cases h
      · rename_i f hbusy
        cases h
        refine ⟨tidy_advance hs f.message f.sent wide .continuation, ?_⟩
        rw [pending_advance]
        by_cases hid : f.message.chunkStreamId = id
        · have hcsId : csId = id := (hs csId f hbusy).symm.trans hid
          subst hcsId
          simp [pending, hbusy, hid, started]
        · simp [hid, started]

/-- Every message that has been started is finished or in flight, in its order on the
chunk stream. -/
theorem started_run (hs : s.Tidy) (h : s.run events = some (s', chunks, finished))
    (id : UInt32) :
    s.pending id ++ (started events).filter (·.chunkStreamId = id) =
      finished.filter (·.chunkStreamId = id) ++ s'.pending id := by
  induction events generalizing s chunks finished with
  | nil =>
      cases h
      simp [started]
  | cons event events ih =>
      obtain ⟨sent, s₁, chunks₁, finished₁, hstep, hrun, rfl, rfl, rfl⟩ := run_cons h
      obtain ⟨htidy, hfirst⟩ := started_step hs hstep id
      have hsplit : started (event :: events) = started [event] ++ started events :=
        List.filterMap_append (l := [event])
      calc s.pending id ++ (started (event :: events)).filter (·.chunkStreamId = id)
          = (s.pending id ++ (started [event]).filter (·.chunkStreamId = id)) ++
              (started events).filter (·.chunkStreamId = id) := by
            rw [hsplit, List.filter_append, List.append_assoc]
        _ = sent.finished.toList.filter (·.chunkStreamId = id) ++ (sent.sender.pending id ++
              (started events).filter (·.chunkStreamId = id)) := by
            rw [hfirst, List.append_assoc]
        _ = (sent.finished.toList ++ finished₁).filter (·.chunkStreamId = id) ++
              s'.pending id := by
            rw [ih htidy hrun, List.filter_append, List.append_assoc]

end Sender

end Rtmp
