import RtmpModule.Network.ConnectionLife

/-!
# The stages of a connection

A connection is in one stage after the other, each with at most one operation of its reading
side outstanding. The handler is at work in none before the handshake is through, and what
it gets then is what the parser makes of the bytes behind the handshake.
-/

namespace Rtmp

open AMF0Serializer

/-- What the peer sends with an event. -/
def StrandEvent.sent : StrandEvent → List UInt8
  | .arrived bytes => bytes
  | _ => []

/-- Neither the handler nor the parser has a part in the event. -/
def SessionEvent.Passive : SessionEvent → Prop
  | .sendTimer => True
  | .writeCompleted _ => True
  | _ => False

namespace ConnectionLife

variable {host : StrandHost} {c c' : ConnectionLife}

section Record

/-- The session is that of the events, the events are what the parser has handed out, and
behind a disconnect of the reading side only writes end and the timer ticks. -/
structure Recorded (host : StrandHost) (c : ConnectionLife) : Prop where
  session : Session.run host.http host.json {} c.events = .ok c.session
  handled : c.receiver.handled = c.events.filterMap SessionEvent.requested
  acknowledged : c.receiver.writeQueue = c.events.filterMap SessionEvent.acknowledged
  quiet : History.Lawful (fun before e => .disconnect ∈ before → e.Passive) c.events

/-- Events in which the parser has no part. -/
theorem Recorded.perform (h : Recorded host c) {e : SessionEvent}
    (he : e.requested = none ∧ e.acknowledged = none)
    (hquiet : .disconnect ∈ c.events → e.Passive) (hstep : c.perform host [e] = .ok c') :
    Recorded host c' := by
  obtain ⟨session, hsession, rfl⟩ := perform_ok hstep
  refine ⟨?_, ?_, ?_, ?_⟩
  · exact History.run_append_ok.mpr ⟨_, h.session, hsession⟩
  · rw [List.filterMap_append, List.filterMap_cons_none he.1, List.filterMap_nil, List.append_nil]
    exact h.handled
  · rw [List.filterMap_append, List.filterMap_cons_none he.2, List.filterMap_nil, List.append_nil]
    exact h.acknowledged
  · exact History.lawful_concat.mpr ⟨h.quiet, hquiet⟩

theorem Recorded.handleRead (h : Recorded host c) (hstatus : c.receiver.status = .reading)
    (hlive : .disconnect ∉ c.events) {bytes : List UInt8} (hbytes : bytes ≠ [])
    (hstep : c.handleRead host bytes = .ok c') : Recorded host c' := by
  obtain ⟨session, hsession, rfl, -⟩ := handleRead_ok hbytes hstatus hstep
  obtain ⟨hhandled, hqueue⟩ := @Connection.handleRead_events host.uninit c.receiver bytes
  obtain ⟨events, hevents, hnone⟩ :=
    @Connection.readEvents_disconnect host.uninit c.receiver bytes hstatus
  refine ⟨?_, ?_, ?_, ?_⟩
  · exact History.run_append_ok.mpr ⟨_, h.session, hsession⟩
  · dsimp only
    rw [hhandled, h.handled, List.filterMap_append]
  · dsimp only
    rw [hqueue, h.acknowledged, List.filterMap_append]
  · refine History.lawful_append.mpr ⟨h.quiet, ?_⟩
    have hfresh : History.Lawful (fun before _ => .disconnect ∉ before)
        (c.receiver.readEvents host.uninit bytes) := by
      rw [hevents]
      split
      · exact History.lawful_concat.mpr ⟨History.lawful_of_not_mem hnone, hnone⟩
      · rw [List.append_nil]
        exact History.lawful_of_not_mem hnone
    refine hfresh.mono fun before e hbefore hmem => ?_
    exact absurd (List.mem_append.mp hmem) (by simp [hlive, hbefore])

theorem Recorded.congr (h : Recorded host c) (hevents : c'.events = c.events)
    (hsession : c'.session = c.session) (hhandled : c'.receiver.handled = c.receiver.handled)
    (hqueue : c'.receiver.writeQueue = c.receiver.writeQueue) : Recorded host c' := by
  refine ⟨?_, ?_, ?_, ?_⟩
  · rw [hevents, hsession]
    exact h.session
  · rw [hevents, hhandled]
    exact h.handled
  · rw [hevents, hqueue]
    exact h.acknowledged
  · rw [hevents]
    exact h.quiet

theorem Recorded.handshakeC0C1 (h : Recorded host c) {bytes : List UInt8}
    (hstep : c.handleReadHandshakeC0C1 host bytes = .ok c') : Recorded host c' := by
  rw [handleReadHandshakeC0C1] at hstep
  split at hstep
  · cases hstep
  · cases hstep
    exact h.congr rfl rfl rfl rfl
  · split at hstep
    · cases hstep
    · cases hstep
      exact h.congr rfl rfl rfl rfl

end Record

section Stages

open ConnectionHandshake (epochOf Answers)

/-- Nothing has come through the handshake: handler and sender are as they were new. -/
structure Unserved (c : ConnectionLife) : Prop where
  requests : c.requests = []
  session : c.session = {}
  live : .disconnect ∉ c.events

/-- C1 was answered, and the parser starts with its time. -/
structure Greeted (host : StrandHost) (c : ConnectionLife) (c1 : Block UInt8 1536) : Prop where
  answer : ∃ answer, c.answers = [answer] ∧ Answers host.toHandshakeHost c1 answer
  receiver : c.receiver =
    (Connection.afterHandshake (epochOf c1.cells)).run host.uninit c.requests
  nonempty : ∀ bytes ∈ c.requests, bytes ≠ []

/-- The stages of a connection. Each names what is outstanding of the reading side, and what
has been made of the bytes read so far. -/
inductive Stage (host : StrandHost) (c : ConnectionLife) : Prop
  | opening (old : Block UInt8 1536) (s1s2 : Block UInt8 3072) (version : Block UInt8 4)
      (reads : c.reads = [.handshakeC0C1]) (writes : c.handshakeWrites = 0)
      (taken : c.taken = []) (handshake : c.handshake = .initial old s1s2 version)
      (answers : c.answers = []) (receiver : c.receiver = {}) (unserved : Unserved c)
  | refused (c0 : UInt8) (c1 : Block UInt8 1536) (version : c0 ≠ 3)
      (reads : c.reads = []) (writes : c.handshakeWrites = 0)
      (taken : c.taken = c0 :: c1.cells) (answers : c.answers = [])
      (handled : c.receiver.handled = []) (unserved : Unserved c)
  | answering (c1 : Block UInt8 1536) (reads : c.reads = []) (writes : c.handshakeWrites = 1)
      (taken : c.taken = 3 :: c1.cells) (greeted : Greeted host c c1) (unserved : Unserved c)
  | confirming (c1 : Block UInt8 1536) (reads : c.reads = [.handshakeC2])
      (writes : c.handshakeWrites = 0) (taken : c.taken = 3 :: c1.cells)
      (greeted : Greeted host c c1) (unserved : Unserved c)
  | serving (c1 c2 : Block UInt8 1536) (reads : c.reads = [.request])
      (writes : c.handshakeWrites = 0)
      (taken : c.taken = 3 :: c1.cells ++ c2.cells ++ c.requests.flatten)
      (greeted : Greeted host c c1) (status : c.receiver.status = .reading)
      (live : .disconnect ∉ c.events)
  | dropped (reads : c.reads = []) (writes : c.handshakeWrites = 0)
      (taken : c.taken.length ≤ 1537) (requests : c.requests = [])
      (handled : c.receiver.handled = []) (sender : c.session.sender = {})
      (disconnected : .disconnect ∈ c.events)
  | ended (c1 c2 : Block UInt8 1536) (reads : c.reads = []) (writes : c.handshakeWrites = 0)
      (taken : c.taken = 3 :: c1.cells ++ c2.cells ++ c.requests.flatten)
      (greeted : Greeted host c c1) (disconnected : .disconnect ∈ c.events)

theorem Greeted.handled_nil {c1 : Block UInt8 1536} (h : Greeted host c c1)
    (hrequests : c.requests = []) : c.receiver.handled = [] := by
  rw [h.receiver, hrequests]
  rfl

/-- Ticks and completed writes do nothing to a session that has not begun. -/
theorem Unserved.perform (h : Unserved c) {e : SessionEvent} (he : e.Passive)
    (hstep : c.perform host [e] = .ok c') :
    c' = { c with events := c.events ++ [e] } ∧ Unserved c' := by
  obtain ⟨session, hsession, rfl⟩ := perform_ok hstep
  have hsame : session = {} := by
    rw [h.session] at hsession
    cases e with
    | sendTimer =>
        cases hsession
        rfl
    | writeCompleted failed =>
        cases hsession
        rfl
    | acknowledge windowSize => cases he
    | request request => cases he
    | disconnect => cases he
  subst hsame
  refine ⟨?_, h.requests, rfl, ?_⟩
  · rw [h.session]
  · cases e with
    | disconnect => cases he
    | _ => simp [h.live]

/-- Ticks and completed writes leave the stage. -/
theorem Stage.passive (h : Stage host c) {e : SessionEvent} (he : e.Passive)
    (hstep : c.perform host [e] = .ok c') : Stage host c' := by
  have hlive : .disconnect ∉ c.events → .disconnect ∉ c.events ++ [e] := by
    intro hlive
    cases e with
    | disconnect => cases he
    | _ => simp [hlive]
  cases h with
  | opening old s1s2 version reads writes taken handshake answers receiver unserved =>
      obtain ⟨rfl, hunserved⟩ := unserved.perform he hstep
      exact .opening old s1s2 version reads writes taken handshake answers receiver hunserved
  | refused c0 c1 version reads writes taken answers handled unserved =>
      obtain ⟨rfl, hunserved⟩ := unserved.perform he hstep
      exact .refused c0 c1 version reads writes taken answers handled hunserved
  | answering c1 reads writes taken greeted unserved =>
      obtain ⟨rfl, hunserved⟩ := unserved.perform he hstep
      exact .answering c1 reads writes taken ⟨greeted.1, greeted.2, greeted.3⟩ hunserved
  | confirming c1 reads writes taken greeted unserved =>
      obtain ⟨rfl, hunserved⟩ := unserved.perform he hstep
      exact .confirming c1 reads writes taken ⟨greeted.1, greeted.2, greeted.3⟩ hunserved
  | serving c1 c2 reads writes taken greeted status live =>
      obtain ⟨session, hsession, rfl⟩ := perform_ok hstep
      exact .serving c1 c2 reads writes taken ⟨greeted.1, greeted.2, greeted.3⟩ status (hlive live)
  | dropped reads writes taken requests handled sender disconnected =>
      obtain ⟨session, hsession, rfl⟩ := perform_ok hstep
      refine .dropped reads writes taken requests handled ?_ (List.mem_append_left _ disconnected)
      rw [Session.run_sender hsession, sender]
      cases e with
      | sendTimer => rfl
      | writeCompleted failed => rfl
      | acknowledge windowSize => cases he
      | request request => cases he
      | disconnect => cases he
  | ended c1 c2 reads writes taken greeted disconnected =>
      obtain ⟨session, hsession, rfl⟩ := perform_ok hstep
      exact .ended c1 c2 reads writes taken ⟨greeted.1, greeted.2, greeted.3⟩
        (List.mem_append_left _ disconnected)

/-- A connection that is not served yet is dropped when an operation fails. -/
theorem Unserved.disconnect (h : Unserved c) (hreads : c.reads = [])
    (hwrites : c.handshakeWrites = 0) (htaken : c.taken.length ≤ 1537)
    (hhandled : c.receiver.handled = []) (hstep : c.disconnect host = .ok c') : Stage host c' := by
  obtain ⟨session, hsession, rfl⟩ := perform_ok hstep
  refine .dropped hreads hwrites htaken h.requests hhandled ?_ (by simp)
  rw [Session.run_sender hsession, h.session]
  rfl

/-- C0 and C1 were read. -/
theorem Stage.handshakeC0C1 {bytes : List UInt8} (hbytes : bytes.length = 1537)
    {old : Block UInt8 1536} {s1s2 : Block UInt8 3072} {version : Block UInt8 4}
    (hreads : c.reads = []) (hwrites : c.handshakeWrites = 0) (htaken : c.taken = bytes)
    (hhandshake : c.handshake = .initial old s1s2 version) (hanswers : c.answers = [])
    (hreceiver : c.receiver = {}) (hunserved : Unserved c)
    (hstep : c.handleReadHandshakeC0C1 host bytes = .ok c') : Stage host c' := by
  obtain ⟨c0, rest, rfl⟩ := List.exists_cons_of_length_eq_add_one hbytes
  obtain ⟨c1, rfl⟩ : ∃ c1 : Block UInt8 1536, rest = c1.cells :=
    ⟨⟨rest, by simpa using hbytes⟩, rfl⟩
  have hvalidate := @ConnectionHandshake.validateC0C1_eq (.initial old s1s2 version)
    host.toHandshakeHost c1 rfl c0
  have hstream : c.receiver.requestStreambuf ++ c0 :: c1.cells = c0 :: c1.cells := by
    rw [hreceiver]
    rfl
  rw [handleReadHandshakeC0C1, hstream, hhandshake, hvalidate] at hstep
  by_cases hc0 : c0 = 3
  · obtain ⟨replied, answer, hreply, hanswer⟩ := @ConnectionHandshake.reply_readC1
      (.initial old s1s2 version) host.toHandshakeHost c1 rfl rfl
    subst hc0
    simp only [↓reduceIte, hreply] at hstep
    cases hstep
    refine .answering c1 hreads (by simp [hwrites]) htaken ⟨⟨answer, ?_, hanswer⟩, ?_, ?_⟩
      ⟨hunserved.1, hunserved.2, hunserved.3⟩
    · simp [hanswers]
    · rw [hreceiver]
      simp [hunserved.requests]
      rfl
    · simp [hunserved.requests]
  · rw [if_neg hc0] at hstep
    cases hstep
    exact .refused c0 c1 hc0 hreads hwrites htaken hanswers (by rw [hreceiver])
      ⟨hunserved.1, hunserved.2, hunserved.3⟩

/-- A read behind the handshake is one more for the parser. -/
theorem Stage.handleRead {c1 c2 : Block UInt8 1536} {bytes : List UInt8} (hbytes : bytes ≠ [])
    (hreads : c.reads = []) (hwrites : c.handshakeWrites = 0)
    (htaken : c.taken = 3 :: c1.cells ++ c2.cells ++ c.requests.flatten ++ bytes)
    (hgreeted : Greeted host c c1) (hstatus : c.receiver.status = .reading)
    (hlive : .disconnect ∉ c.events) (hstep : c.handleRead host bytes = .ok c') :
    Stage host c' := by
  obtain ⟨session, hsession, rfl, hend⟩ := handleRead_ok hbytes hstatus hstep
  have htaken' : c.taken = 3 :: c1.cells ++ c2.cells ++ (c.requests ++ [bytes]).flatten := by
    rw [htaken, List.flatten_append, List.flatten_singleton, List.append_assoc]
  have hgreeted' : ∀ c'' : ConnectionLife, c''.answers = c.answers →
      c''.receiver = c.receiver.handleRead host.uninit bytes →
      c''.requests = c.requests ++ [bytes] → Greeted host c'' c1 := by
    intro c'' hanswers hreceiver hrequests
    refine ⟨by rw [hanswers]; exact hgreeted.answer, ?_, ?_⟩
    · rw [hreceiver, hrequests, Connection.run, List.foldl_append, hgreeted.receiver]
      rfl
    · rw [hrequests]
      intro read hread
      rcases List.mem_append.mp hread with hread | hread
      · exact hgreeted.nonempty read hread
      · rw [List.mem_singleton.mp hread]
        exact hbytes
  obtain ⟨events, hevents, hnone⟩ :=
    @Connection.readEvents_disconnect host.uninit c.receiver bytes hstatus
  rcases hend with hreading | hdisconnected
  · refine .serving c1 c2 ?_ hwrites htaken' (hgreeted' _ rfl rfl rfl) hreading ?_
    · simp [hreading, hreads]
    · simp [hevents, hlive, hnone, hreading]
  · refine .ended c1 c2 ?_ hwrites htaken' (hgreeted' _ rfl rfl rfl) ?_
    · simp [hdisconnected, hreads]
    · simp [hevents, hdisconnected]

/-- A new connection. -/
theorem Stage.start (old : Block UInt8 1536) (s1s2 : Block UInt8 3072) (version : Block UInt8 4) :
    Stage host (start (.initial old s1s2 version)) :=
  .opening old s1s2 version rfl rfl rfl rfl rfl rfl ⟨rfl, rfl, by simp [ConnectionLife.start]⟩

/-- More that arrives waits. -/
theorem Stage.arrive (h : Stage host c) (arrived : List UInt8) :
    Stage host { c with arrived } := by
  cases h with
  | opening old s1s2 version reads writes taken handshake answers receiver unserved =>
      exact .opening old s1s2 version reads writes taken handshake answers receiver
        ⟨unserved.1, unserved.2, unserved.3⟩
  | refused c0 c1 version reads writes taken answers handled unserved =>
      exact .refused c0 c1 version reads writes taken answers handled
        ⟨unserved.1, unserved.2, unserved.3⟩
  | answering c1 reads writes taken greeted unserved =>
      exact .answering c1 reads writes taken ⟨greeted.1, greeted.2, greeted.3⟩
        ⟨unserved.1, unserved.2, unserved.3⟩
  | confirming c1 reads writes taken greeted unserved =>
      exact .confirming c1 reads writes taken ⟨greeted.1, greeted.2, greeted.3⟩
        ⟨unserved.1, unserved.2, unserved.3⟩
  | serving c1 c2 reads writes taken greeted status live =>
      exact .serving c1 c2 reads writes taken ⟨greeted.1, greeted.2, greeted.3⟩ status live
  | dropped reads writes taken requests handled sender disconnected =>
      exact .dropped reads writes taken requests handled sender disconnected
  | ended c1 c2 reads writes taken greeted disconnected =>
      exact .ended c1 c2 reads writes taken ⟨greeted.1, greeted.2, greeted.3⟩ disconnected

end Stages

section Steps

open ConnectionHandshake (epochOf)

/-- What holds of a connection all its life. -/
structure Sound (host : StrandHost) (c : ConnectionLife) : Prop where
  stage : Stage host c
  recorded : Recorded host c

theorem Sound.passive (h : Sound host c) {e : SessionEvent} (he : e.Passive)
    (hstep : c.perform host [e] = .ok c') : Sound host c' := by
  refine ⟨h.stage.passive he hstep, h.recorded.perform ?_ (fun _ => he) hstep⟩
  cases e with
  | sendTimer => exact ⟨rfl, rfl⟩
  | writeCompleted failed => exact ⟨rfl, rfl⟩
  | acknowledge windowSize => cases he
  | request request => cases he
  | disconnect => cases he

/-- A read that has succeeded. -/
theorem onEvent_readCompleted {read size : ℕ}
    (h : c.onEvent host (.readCompleted read size) = .ok c') :
    c' = c ∨ ∃ handler, c.reads[read]? = some handler ∧ handler.MayTake size ∧
      size ≤ c.arrived.length ∧
      completed host (c.readOff read size) handler (c.arrived.take size) = .ok c' := by
  rw [onEvent] at h
  split at h
  · cases h
    exact .inl rfl
  · rename_i handler hhandler
    split at h
    · rename_i htakes
      exact .inr ⟨handler, hhandler, htakes.1, htakes.2, h⟩
    · cases h
      exact .inl rfl

theorem eq_of_single {reads : List ReadHandler} {handler handler' : ReadHandler} {read : ℕ}
    (h : reads = [handler]) (hread : reads[read]? = some handler') :
    handler' = handler ∧ reads.eraseIdx read = [] := by
  subst h
  cases read with
  | zero =>
      cases hread
      exact ⟨rfl, rfl⟩
  | succ read => simp at hread

theorem Sound.readCompleted (h : Sound host c) {read size : ℕ}
    (hstep : c.onEvent host (.readCompleted read size) = .ok c') : Sound host c' := by
  rcases onEvent_readCompleted hstep with rfl | ⟨handler, hhandler, htakes, hsize, hcompleted⟩
  · exact h
  have hlength : (c.arrived.take size).length = size := List.length_take_of_le hsize
  obtain ⟨hstage, hrecorded⟩ := h
  have hread : Recorded host (c.readOff read size) := hrecorded.congr rfl rfl rfl rfl
  cases hstage with
  | opening old s1s2 version reads writes taken handshake answers receiver unserved =>
      obtain ⟨rfl, herase⟩ := eq_of_single reads hhandler
      refine ⟨?_, hread.handshakeC0C1 hcompleted⟩
      exact @Stage.handshakeC0C1 host (c.readOff read size) _ _ (hlength.trans htakes) _ _ _
        herase writes (by simp [readOff, taken]) handshake answers receiver
         ⟨unserved.1, unserved.2, unserved.3⟩ hcompleted
  | refused c0 c1 version reads writes taken answers handled unserved => simp [reads] at hhandler
  | answering c1 reads writes taken greeted unserved => simp [reads] at hhandler
  | confirming c1 reads writes taken greeted unserved =>
      obtain ⟨rfl, herase⟩ := eq_of_single reads hhandler
      have hnone : c.requests = [] := unserved.requests
      have hreceiver : c.receiver = Connection.afterHandshake (epochOf c1.cells) := by
        rw [greeted.receiver, hnone]
        rfl
      have hsame : ((c.readOff read size).handleReadHandshakeC2
          (c.arrived.take size)).receiver = c.receiver := by
        have hdrop : (c.receiver.requestStreambuf ++ c.arrived.take size).drop 1536 = [] := by
          refine List.drop_eq_nil_of_le ?_
          rw [hreceiver, List.length_append, hlength]
          exact (Nat.zero_add _).trans_le (Nat.le_of_eq htakes)
        rw [handleReadHandshakeC2, readOff]
        dsimp only
        rw [hdrop, hreceiver]
        rfl
      cases hcompleted
      refine ⟨.serving c1 ⟨c.arrived.take size, hlength.trans htakes⟩ ?_ writes ?_ ?_ ?_
        unserved.live, hread.congr rfl rfl ?_ ?_⟩
      · simp [handleReadHandshakeC2, readOff, herase]
      · simp [handleReadHandshakeC2, readOff, taken, hnone]
      · exact ⟨greeted.answer, hsame.trans greeted.receiver, greeted.nonempty⟩
      · rw [hsame, hreceiver]
        rfl
      · exact congrArg Connection.handled hsame
      · exact congrArg Connection.writeQueue hsame
  | serving c1 c2 reads writes taken greeted status live =>
      obtain ⟨rfl, herase⟩ := eq_of_single reads hhandler
      have hbytes : c.arrived.take size ≠ [] := by
        intro hnil
        rw [hnil] at hlength
        exact absurd hlength (Nat.ne_of_lt htakes.1)
      refine ⟨?_, hread.handleRead status live hbytes hcompleted⟩
      exact @Stage.handleRead host (c.readOff read size) _ c1 c2 _ hbytes herase writes
        (by simp [readOff, taken]) ⟨greeted.1, greeted.2, greeted.3⟩ status live hcompleted
  | dropped reads writes taken requests handled sender disconnected => simp [reads] at hhandler
  | ended c1 c2 reads writes taken greeted disconnected => simp [reads] at hhandler

/-- A disconnect of the reading side ends it. -/
theorem Sound.disconnect (h : Recorded host c) (hlive : .disconnect ∉ c.events)
    (hstage : ∀ c', c.disconnect host = .ok c' → Stage host c')
    (hstep : c.disconnect host = .ok c') : Sound host c' :=
  ⟨hstage c' hstep, h.perform ⟨rfl, rfl⟩ (fun hmem => absurd hmem hlive) hstep⟩

theorem Sound.readFailed (h : Sound host c) {read : ℕ}
    (hstep : c.onEvent host (.readFailed read) = .ok c') : Sound host c' := by
  rw [onEvent] at hstep
  split at hstep
  · rename_i hlt
    obtain ⟨hstage, hrecorded⟩ := h
    have hread : Recorded host { c with reads := c.reads.eraseIdx read } :=
      hrecorded.congr rfl rfl rfl rfl
    obtain ⟨handler, hhandler⟩ : ∃ handler, c.reads[read]? = some handler :=
      ⟨_, List.getElem?_eq_getElem hlt⟩
    cases hstage with
    | opening old s1s2 version reads writes taken handshake answers receiver unserved =>
        obtain ⟨-, herase⟩ := eq_of_single reads hhandler
        have hunserved : Unserved { c with reads := c.reads.eraseIdx read } :=
          ⟨unserved.1, unserved.2, unserved.3⟩
        exact Sound.disconnect hread unserved.live
          (fun _ hdrop => hunserved.disconnect herase writes (by simp [taken])
            (by rw [receiver]) hdrop) hstep
    | refused c0 c1 version reads writes taken answers handled unserved => simp [reads] at hhandler
    | answering c1 reads writes taken greeted unserved => simp [reads] at hhandler
    | confirming c1 reads writes taken greeted unserved =>
        obtain ⟨-, herase⟩ := eq_of_single reads hhandler
        have hunserved : Unserved { c with reads := c.reads.eraseIdx read } :=
          ⟨unserved.1, unserved.2, unserved.3⟩
        exact Sound.disconnect hread unserved.live
          (fun _ hdrop => hunserved.disconnect herase writes (by simp [taken, c1.length_cells])
            (greeted.handled_nil unserved.requests) hdrop) hstep
    | serving c1 c2 reads writes taken greeted status live =>
        obtain ⟨-, herase⟩ := eq_of_single reads hhandler
        refine Sound.disconnect hread live (fun _ hdrop => ?_) hstep
        obtain ⟨session, hsession, rfl⟩ := perform_ok hdrop
        exact .ended c1 c2 herase writes taken ⟨greeted.1, greeted.2, greeted.3⟩ (by simp)
    | dropped reads writes taken requests handled sender disconnected => simp [reads] at hhandler
    | ended c1 c2 reads writes taken greeted disconnected => simp [reads] at hhandler
  · cases hstep
    exact h

theorem Sound.handshakeWritten (h : Sound host c) {failed : Bool}
    (hstep : c.onEvent host (.handshakeWritten failed) = .ok c') : Sound host c' := by
  rw [onEvent] at hstep
  split at hstep
  · cases hstep
    exact h
  · rename_i hwriting
    obtain ⟨hstage, hrecorded⟩ := h
    have hwritten : Recorded host { c with handshakeWrites := c.handshakeWrites - 1 } :=
      hrecorded.congr rfl rfl rfl rfl
    cases hstage with
    | answering c1 reads writes taken greeted unserved =>
        have hunserved : Unserved { c with handshakeWrites := c.handshakeWrites - 1 } :=
          ⟨unserved.1, unserved.2, unserved.3⟩
        have hnone : c.handshakeWrites - 1 = 0 := by rw [writes]
        rw [handleS0S1S2Write] at hstep
        split at hstep
        · exact Sound.disconnect hwritten unserved.live
            (fun _ hdrop => hunserved.disconnect reads hnone (by simp [taken, c1.length_cells])
              (greeted.handled_nil unserved.requests) hdrop) hstep
        · cases hstep
          refine ⟨.confirming c1 ?_ hnone taken ⟨greeted.1, greeted.2, greeted.3⟩
            ⟨unserved.1, unserved.2, unserved.3⟩, hwritten.congr rfl rfl rfl rfl⟩
          rw [reads, List.nil_append]
    | opening old s1s2 version reads writes => exact absurd writes hwriting
    | refused c0 c1 version reads writes => exact absurd writes hwriting
    | confirming c1 reads writes => exact absurd writes hwriting
    | serving c1 c2 reads writes => exact absurd writes hwriting
    | dropped reads writes => exact absurd writes hwriting
    | ended c1 c2 reads writes => exact absurd writes hwriting

/-- Every event leaves a connection sound. -/
theorem Sound.onEvent (h : Sound host c) {e : StrandEvent} (hstep : c.onEvent host e = .ok c') :
    Sound host c' := by
  cases e with
  | arrived bytes =>
      cases hstep
      exact ⟨h.stage.arrive _, h.recorded.congr rfl rfl rfl rfl⟩
  | readCompleted read size => exact h.readCompleted hstep
  | readFailed read => exact h.readFailed hstep
  | handshakeWritten failed => exact h.handshakeWritten hstep
  | sendTimer => exact @Sound.passive host c c' h .sendTimer trivial hstep
  | writeCompleted failed =>
      exact @Sound.passive host c c' h (.writeCompleted failed) trivial hstep

/-- What the peer has sent, read or not. -/
def received (c : ConnectionLife) : List UInt8 := c.taken ++ c.arrived

theorem perform_received {events : List SessionEvent} (h : c.perform host events = .ok c') :
    c'.received = c.received := by
  obtain ⟨session, -, rfl⟩ := perform_ok h
  rfl

theorem handleReadLoop_received {bufSize : ℕ} (h : c.handleReadLoop host bufSize = .ok c') :
    c'.received = c.received := by
  induction hn : c.receiver.parser.measure bufSize using Nat.strongRecOn
      generalizing c bufSize with
  | ind n ih =>
      rw [handleReadLoop] at h
      split at h
      · cases h
        rfl
      · dsimp only at h
        split at h <;> rename_i hr
        · split at h
          · cases h
          · have hrest := ih _ (hn ▸ RtmpParser.parse_measure hr) h rfl
            exact hrest
        · have hdisconnect := perform_received h
          exact hdisconnect
        · have hwait := perform_received h
          exact hwait
        · cases h

theorem completed_received {handler : ReadHandler} {bytes : List UInt8}
    (h : c.completed host handler bytes = .ok c') : c'.received = c.received := by
  cases handler with
  | handshakeC0C1 =>
      rw [completed, handleReadHandshakeC0C1] at h
      split at h
      · cases h
      · cases h
        rfl
      · split at h
        · cases h
        · cases h
          rfl
  | handshakeC2 =>
      cases h
      rfl
  | request =>
      rw [completed, handleRead] at h
      split at h
      · have hloop := handleReadLoop_received h
        exact hloop
      · cases h
        rfl

/-- Bytes are read in the order they come, and none is lost. -/
theorem onEvent_received {e : StrandEvent} (h : c.onEvent host e = .ok c') :
    c'.received = c.received ++ e.sent := by
  have hsame : c.received ++ [] = c.received := List.append_nil _
  cases e with
  | arrived bytes =>
      cases h
      rw [received, received, StrandEvent.sent, List.append_assoc]
  | readCompleted read size =>
      rcases onEvent_readCompleted h with rfl | ⟨handler, -, -, -, hcompleted⟩
      · exact hsame.symm
      · rw [completed_received hcompleted, received, readOff, List.append_assoc,
          List.take_append_drop]
        exact hsame.symm
  | readFailed read =>
      rw [onEvent] at h
      split at h
      · have hdisconnect := perform_received h
        exact hdisconnect.trans hsame.symm
      · cases h
        exact hsame.symm
  | handshakeWritten failed =>
      rw [onEvent] at h
      split at h
      · cases h
        exact hsame.symm
      · rw [handleS0S1S2Write] at h
        split at h
        · have hdisconnect := perform_received h
          exact hdisconnect.trans hsame.symm
        · cases h
          exact hsame.symm
  | sendTimer =>
      rw [onEvent] at h
      exact (perform_received h).trans hsame.symm
  | writeCompleted failed =>
      rw [onEvent] at h
      exact (perform_received h).trans hsame.symm

theorem run_received {events : List StrandEvent} (h : c.run host events = .ok c') :
    c'.received = c.received ++ events.flatMap StrandEvent.sent := by
  induction events generalizing c with
  | nil =>
      cases h
      simp
  | cons e events ih =>
      obtain ⟨c₁, hstep, hrest⟩ := History.run_cons_ok.mp h
      rw [ih hrest, onEvent_received hstep, List.flatMap_cons, List.append_assoc]

theorem run_sound {events : List StrandEvent} (h : c.run host events = .ok c')
    (hsound : Sound host c) : Sound host c' :=
  History.run_invariant (fun _ _ _ hs hstep => hs.onEvent hstep) hsound h

theorem start_sound (old : Block UInt8 1536) (s1s2 : Block UInt8 3072) (version : Block UInt8 4) :
    Sound host (start (.initial old s1s2 version)) :=
  ⟨Stage.start old s1s2 version, ⟨rfl, rfl, rfl, History.lawful_nil⟩⟩

end Steps

end ConnectionLife

end Rtmp
