import RtmpModule.Network.ConnectionStages

/-!
# What a connection does for its client

A client that sends 3 in C0 gets through the handshake and has its requests handled, however
it cuts them. What is handled depends on the bytes behind the handshake and on the time in
C1, and the end of a connection is always noticed.
-/

namespace Rtmp

open AMF0Serializer

namespace ConnectionLife

variable {host : StrandHost} {c c' : ConnectionLife}

section Served

open ConnectionHandshake (epochOf Answers)

/-- Without an exception of the parser or of the handler the loop comes to its end. -/
theorem handleReadLoop_of_run (hstatus : c.receiver.status = .reading) {bufSize : ℕ}
    {session : Session}
    (hrun : c.session.run host.http host.json
      (c.receiver.sessionEvents host.uninit bufSize) = .ok session)
    (hend : ∀ fault, (c.receiver.handleReadLoop host.uninit bufSize).status ≠ .aborted fault) :
    ∃ c', c.handleReadLoop host bufSize = .ok c' := by
  induction hn : c.receiver.parser.measure bufSize using Nat.strongRecOn
      generalizing c bufSize with
  | ind n ih =>
      rw [handleReadLoop]
      by_cases hempty : bufSize = 0
      · rw [if_pos hempty]
        exact ⟨_, rfl⟩
      · rw [if_neg hempty]
        dsimp only
        split <;> rename_i hr <;>
          rw [Connection.sessionEvents_round hempty hr] at hrun <;>
          rw [Connection.handleReadLoop_round hempty hr] at hend
        · dsimp only at hrun hend
          rw [← List.append_assoc] at hrun
          obtain ⟨session', hround, hrest⟩ := History.run_append_ok.mp hrun
          change Session.run host.http host.json c.session _ = _ at hround
          rw [hround]
          exact ih _ (hn ▸ RtmpParser.parse_measure hr) (by exact hstatus) hrest hend rfl
        · exact ⟨_, by rw [perform, hrun]⟩
        · rw [List.append_nil] at hrun
          exact ⟨_, by rw [perform, hrun]⟩
        · exact absurd rfl (hend _)

/-- What a client does that goes through the handshake. -/
def handshakeEvents (c1 c2 : Block UInt8 1536) : List StrandEvent :=
  [.arrived (3 :: c1.cells ++ c2.cells), .readCompleted 0 1537, .handshakeWritten false,
    .readCompleted 0 1536]

/-- What it sends then, read as it comes. -/
def requestEvents (reads : List (List UInt8)) : List StrandEvent :=
  reads.flatMap fun bytes => [.arrived bytes, .readCompleted 0 bytes.length]

/-- The reading side waits for a request, or is through. -/
structure Waiting (c : ConnectionLife) : Prop where
  reading : c.receiver.status = .reading → c.reads = [.request] ∧ c.arrived = []
  through : c.receiver.status ≠ .reading → c.reads = []

/-- Every client that sends 3 in C0 gets through the handshake. -/
theorem run_handshake (old : Block UInt8 1536) (s1s2 : Block UInt8 3072) (version : Block UInt8 4)
    (c1 c2 : Block UInt8 1536) :
    ∃ c, (start (.initial old s1s2 version)).run host (handshakeEvents c1 c2) = .ok c ∧
      c.receiver = Connection.afterHandshake (epochOf c1.cells) ∧ c.session = {} ∧
      c.taken = 3 :: c1.cells ++ c2.cells ∧ c.requests = [] ∧ c.events = [] ∧ Waiting c := by
  obtain ⟨replied, answer, hreply, -⟩ := @ConnectionHandshake.reply_readC1
    (.initial old s1s2 version) host.toHandshakeHost c1 rfl rfl
  have hvalidate := @ConnectionHandshake.validateC0C1_eq (.initial old s1s2 version)
    host.toHandshakeHost c1 rfl 3
  have hlength : (3 :: c1.cells).length = 1537 := by rw [List.length_cons, c1.length_cells]
  have hlength2 := c2.length_cells
  have htake : (3 :: c1.cells ++ c2.cells).take 1537 = 3 :: c1.cells :=
    List.take_left' hlength
  have hdrop : (3 :: c1.cells ++ c2.cells).drop 1537 = c2.cells := List.drop_left' hlength
  rw [if_pos rfl] at hvalidate
  let c₁ : ConnectionLife :=
    { start (.initial old s1s2 version) with arrived := 3 :: c1.cells ++ c2.cells }
  let c₂ : ConnectionLife :=
    { c₁ with
      handshake := replied
      receiver := Connection.afterHandshake (epochOf c1.cells)
      handshakeWrites := 1
      answers := [answer]
      reads := []
      arrived := c2.cells
      taken := 3 :: c1.cells }
  have hfirst : onEvent host c₁ (.readCompleted 0 1537) = .ok c₂ := by
    have htakes : ReadHandler.MayTake 1537 .handshakeC0C1 ∧ 1537 ≤ c₁.arrived.length :=
      ⟨rfl, by simp [c₁, c1.length_cells]⟩
    rw [onEvent]
    change (if _ then _ else _) = _
    rw [if_pos htakes, completed, handleReadHandshakeC0C1]
    dsimp only [readOff, c₁, start]
    rw [htake, hdrop, List.nil_append, hvalidate]
    dsimp only
    rw [hreply]
    rfl
  let c₃ : ConnectionLife := { c₂ with handshakeWrites := 0, reads := [.handshakeC2] }
  let c₄ : ConnectionLife :=
    { c₃ with
      receiver := Connection.afterHandshake (epochOf c1.cells)
      reads := [.request]
      arrived := []
      taken := 3 :: c1.cells ++ c2.cells }
  have hsecond : onEvent host c₃ (.readCompleted 0 1536) = .ok c₄ := by
    have htakes : ReadHandler.MayTake 1536 .handshakeC2 ∧ 1536 ≤ c₃.arrived.length :=
      ⟨rfl, Nat.le_of_eq hlength2.symm⟩
    rw [onEvent]
    change (if _ then _ else _) = _
    rw [if_pos htakes, completed, handleReadHandshakeC2]
    dsimp only [readOff, c₁, c₂, c₃, c₄, start]
    rw [List.take_of_length_le (Nat.le_of_eq hlength2),
      List.drop_eq_nil_of_le (Nat.le_of_eq hlength2)]
    change Except.ok { c₄ with receiver := { c₄.receiver with requestStreambuf := _ } } = _
    rw [List.drop_eq_nil_of_le (by simpa [c₂, Connection.afterHandshake,
      Connection.setBaseTimestamp] using Nat.le_of_eq hlength2)]
    rfl
  refine ⟨c₄, ?_, rfl, rfl, rfl, rfl, rfl, ⟨fun _ => ⟨rfl, rfl⟩, fun h => absurd rfl h⟩⟩
  exact History.run_cons_ok.mpr ⟨c₁, rfl, History.run_cons_ok.mpr ⟨c₂, hfirst,
    History.run_cons_ok.mpr ⟨c₃, rfl, History.run_cons_ok.mpr ⟨c₄, hsecond, rfl⟩⟩⟩⟩

theorem Waiting.read (h : Waiting c) (hstatus : c.receiver.status = .reading)
    {bytes : List UInt8} (hpos : 0 < bytes.length) (hle : bytes.length ≤ 8192) {session : Session}
    (hsession : c.session.run host.http host.json (c.receiver.readEvents host.uninit bytes) =
      .ok session)
    (hend : ∀ fault, (c.receiver.handleRead host.uninit bytes).status ≠ .aborted fault) :
    ∃ c', c.run host [.arrived bytes, .readCompleted 0 bytes.length] = .ok c' ∧
      c'.receiver = c.receiver.handleRead host.uninit bytes ∧ c'.session = session ∧
      c'.taken = c.taken ++ bytes ∧ c'.requests = c.requests ++ [bytes] ∧
      c'.events = c.events ++ c.receiver.readEvents host.uninit bytes ∧ Waiting c' := by
  obtain ⟨hreads, harrived⟩ := h.reading hstatus
  have hne : bytes ≠ [] := List.ne_nil_of_length_pos hpos
  let c₁ : ConnectionLife := { c with arrived := bytes }
  let c₂ : ConnectionLife := { c with reads := [], arrived := [], taken := c.taken ++ bytes }
  have hfirst : c.onEvent host (.arrived bytes) = .ok c₁ := by
    rw [onEvent, harrived, List.nil_append]
  have hread : c₁.onEvent host (.readCompleted 0 bytes.length) = c₂.handleRead host bytes := by
    have htakes : ReadHandler.MayTake bytes.length .request ∧ bytes.length ≤ c₁.arrived.length :=
      ⟨⟨hpos, hle⟩, le_refl _⟩
    rw [onEvent]
    dsimp only [c₁]
    rw [hreads]
    change (if _ then _ else _) = _
    rw [if_pos htakes, completed, readOff]
    simp only [List.take_length, List.drop_length]
    rfl
  obtain ⟨c', hc'⟩ : ∃ c', c₂.handleRead host bytes = .ok c' := by
    rw [Connection.readEvents, if_pos hstatus, if_pos hpos] at hsession
    rw [Connection.handleRead, if_pos hstatus, if_pos hpos] at hend
    rw [handleRead, if_pos hpos]
    exact handleReadLoop_of_run (by exact hstatus) hsession hend
  refine ⟨c', History.run_cons_ok.mpr ⟨c₁, hfirst, History.run_cons_ok.mpr
    ⟨c', hread.trans hc', rfl⟩⟩, ?_⟩
  obtain ⟨session', hsession', rfl, -⟩ := handleRead_ok hne (by exact hstatus) hc'
  have hsame : session' = session := Except.ok.inj (hsession'.symm.trans hsession)
  refine ⟨rfl, hsame, rfl, rfl, rfl, fun hreading => ⟨?_, rfl⟩, fun hthrough => ?_⟩
  · dsimp only at hreading ⊢
    rw [if_pos hreading]
    rfl
  · dsimp only at hthrough ⊢
    rw [if_neg hthrough]

theorem Waiting.serve (h : Waiting c) {reads : List (List UInt8)}
    (hsize : ∀ bytes ∈ reads, 0 < bytes.length ∧ bytes.length ≤ 8192) {session : Session}
    (hsession : c.session.run host.http host.json (c.receiver.runEvents host.uninit reads) =
      .ok session)
    (hend : ∀ fault, (c.receiver.run host.uninit reads).status ≠ .aborted fault) :
    ∃ c', c.run host (requestEvents reads) = .ok c' ∧
      c'.receiver = c.receiver.run host.uninit reads ∧ c'.session = session ∧
      ((c.receiver.run host.uninit reads).status = .reading →
        c'.taken = c.taken ++ reads.flatten ∧ c'.requests = c.requests ++ reads ∧
          c'.events = c.events ++ c.receiver.runEvents host.uninit reads ∧ Waiting c') := by
  induction reads generalizing c with
  | nil =>
      cases hsession
      refine ⟨c, rfl, rfl, rfl, fun _ => ⟨?_, ?_, ?_, h⟩⟩
      · rw [List.flatten_nil, List.append_nil]
      · rw [List.append_nil]
      · rw [Connection.runEvents, List.append_nil]
  | cons bytes reads ih =>
      obtain ⟨hpos, hle⟩ := hsize bytes List.mem_cons_self
      have hsizes : ∀ bytes ∈ reads, 0 < bytes.length ∧ bytes.length ≤ 8192 :=
        fun later hlater => hsize later (List.mem_cons_of_mem _ hlater)
      obtain ⟨session₁, hfirst, hrest⟩ := History.run_append_ok.mp hsession
      by_cases hstatus : c.receiver.status = .reading
      · have hend₁ : ∀ fault,
            (c.receiver.handleRead host.uninit bytes).status ≠ .aborted fault := by
          intro fault hfault
          refine hend fault ?_
          change ((c.receiver.handleRead host.uninit bytes).run host.uninit reads).status = _
          rw [Connection.run_stopped (by rw [hfault]; simp), hfault]
        obtain ⟨c₁, hrun, hreceiver, hsame, htaken, hrequests, hevents, hwaiting⟩ :=
          h.read hstatus hpos hle hfirst hend₁
        obtain ⟨c', hrun', hreceiver', hsession', hserved⟩ := @ih c₁ hwaiting hsizes
          (by rw [hreceiver, hsame]; exact hrest) (by rw [hreceiver]; exact hend)
        refine ⟨c', ?_, by rw [hreceiver', hreceiver]; rfl, hsession', fun hreading => ?_⟩
        · exact History.run_append_ok.mpr ⟨c₁, hrun, hrun'⟩
        · obtain ⟨htaken', hrequests', hevents', hwaiting'⟩ :=
            hserved (by rw [hreceiver]; exact hreading)
          refine ⟨?_, ?_, ?_, hwaiting'⟩
          · rw [htaken', htaken, List.flatten_cons, List.append_assoc]
          · rw [hrequests', hrequests, List.append_assoc, List.singleton_append]
          · rw [hevents', hevents, hreceiver, Connection.runEvents, List.append_assoc]
      · have hreads := h.through hstatus
        have hsame : c.receiver.handleRead host.uninit bytes = c.receiver := by
          rw [Connection.handleRead, if_neg hstatus]
        rw [Connection.readEvents, if_neg hstatus] at hfirst
        cases hfirst
        rw [hsame] at hrest
        let c₁ : ConnectionLife := { c with arrived := c.arrived ++ bytes }
        have hskip : c₁.onEvent host (.readCompleted 0 bytes.length) = .ok c₁ := by
          rw [onEvent, show c₁.reads = [] from hreads]
          rfl
        obtain ⟨c', hrun', hreceiver', hsession', -⟩ := @ih c₁
          ⟨fun hreading => absurd hreading hstatus, fun _ => hreads⟩ hsizes hrest (by
            intro fault
            have hlast := hend fault
            change ((c.receiver.handleRead host.uninit bytes).run host.uninit reads).status ≠ _
              at hlast
            rwa [hsame] at hlast)
        refine ⟨c', History.run_cons_ok.mpr ⟨c₁, rfl, History.run_cons_ok.mpr
          ⟨c₁, hskip, hrun'⟩⟩, hreceiver'.trans ?_, hsession', fun hreading => ?_⟩
        · change c.receiver.run host.uninit reads =
            (c.receiver.handleRead host.uninit bytes).run host.uninit reads
          rw [hsame]
        · rw [Connection.run_stopped hstatus] at hreading
          exact absurd hreading hstatus

/-- What a connection makes of its client. A client that sends 3 in C0, any C1 and C2 and
then requests, cut in any way into reads, is served: unless the parser or the handler fails,
the parser ends where the reads lead it from the time of C1, and the session where their
events do. -/
theorem client_is_served (host : StrandHost) (old : Block UInt8 1536) (s1s2 : Block UInt8 3072)
    (version : Block UInt8 4) (c1 c2 : Block UInt8 1536) (reads : List (List UInt8))
    (hsize : ∀ bytes ∈ reads, 0 < bytes.length ∧ bytes.length ≤ 8192) (session : Session)
    (hsession : Session.run host.http host.json {}
      ((Connection.afterHandshake (epochOf c1.cells)).runEvents host.uninit reads) = .ok session)
    (hend : ∀ fault, ((Connection.afterHandshake (epochOf c1.cells)).run host.uninit reads).status ≠
      .aborted fault) :
    ∃ c, (start (.initial old s1s2 version)).run host
        (handshakeEvents c1 c2 ++ requestEvents reads) = .ok c ∧
      c.receiver = (Connection.afterHandshake (epochOf c1.cells)).run host.uninit reads ∧
      c.session = session := by
  obtain ⟨c, hrun, hreceiver, hnew, -, -, -, hwaiting⟩ :=
    @run_handshake host old s1s2 version c1 c2
  obtain ⟨c', hrun', hreceiver', hsession', -⟩ := @Waiting.serve host c hwaiting reads hsize session
    (by rw [hnew, hreceiver]; exact hsession) (by rw [hreceiver]; exact hend)
  exact ⟨c', History.run_append_ok.mpr ⟨c, hrun, hrun'⟩, by rw [hreceiver', hreceiver], hsession'⟩

/-- A host on which nothing is ever published, with a hash that is always zero. -/
def plainHost : StrandHost where
  sha256Util := ⟨fun _ _ => List.replicate 32 0, fun _ _ => by simp⟩
  heap := fun _ _ _ => 0
  readTime := 0
  replyTime := 0
  rand := fun _ => 0
  http := fun _ _ => .failed
  json := fun _ => .parseError
  uninit := fun _ => 0

def zeros (n : ℕ) : Block UInt8 n := .ofFn n fun _ => 0

section Pipelined

theorem epochOf_zeros : epochOf (zeros 1536).cells = 0 := by decide +kernel

theorem afterHandshake_zeros : Connection.afterHandshake (epochOf (zeros 1536).cells) = {} := by
  rw [epochOf_zeros]
  rfl

end Pipelined

/-- The handshake and two commands. -/
theorem client_is_served_pipelined :
    ∃ c, (start (.initial (zeros 1536) (zeros 3072) (zeros 4))).run plainHost
        (handshakeEvents (zeros 1536) (zeros 1536) ++ requestEvents [pipelinedReleaseStreams]) =
          .ok c ∧
      c.receiver = (Connection.afterHandshake (epochOf (zeros 1536).cells)).run plainHost.uninit
        [pipelinedReleaseStreams] ∧
      c.session.sender.writeQueue = [] := by
  have hevents : (Connection.afterHandshake (epochOf (zeros 1536).cells)).runEvents
      plainHost.uninit [pipelinedReleaseStreams] =
        [.request (pipelinedReleaseStream 0x4000000000000000),
          .request (pipelinedReleaseStream 0x4008000000000000)] := by
    rw [afterHandshake_zeros, Connection.runEvents]
    exact congrArg (· ++ []) pipelined_readEvents
  have hstatus : ((Connection.afterHandshake (epochOf (zeros 1536).cells)).run plainHost.uninit
      [pipelinedReleaseStreams]).status = .reading := by
    rw [afterHandshake_zeros]
    decide +kernel
  obtain ⟨session, hsession, hqueue⟩ : ∃ session, Session.run plainHost.http plainHost.json {}
      [.request (pipelinedReleaseStream 0x4000000000000000),
        .request (pipelinedReleaseStream 0x4008000000000000)] = .ok session ∧
      session.sender.writeQueue = [] := ⟨_, rfl, rfl⟩
  obtain ⟨c, hrun, hreceiver, hlast⟩ := client_is_served plainHost (zeros 1536) (zeros 3072)
    (zeros 4) (zeros 1536) (zeros 1536) [pipelinedReleaseStreams] (by decide +kernel) session
    (by rw [hevents]; exact hsession) (by rw [hstatus]; simp)
  exact ⟨c, hrun, hreceiver, by rw [hlast]; exact hqueue⟩

end Served

section Results

open ConnectionHandshake (epochOf)

/-- The life of a connection. Whatever its peer sends and however its operations end, it is
in one of its stages; its session is that of what the parser has handed out; and the bytes
are read in the order they come. -/
theorem connection_life (host : StrandHost) (old : Block UInt8 1536) (s1s2 : Block UInt8 3072)
    (version : Block UInt8 4) (events : List StrandEvent) (c : ConnectionLife)
    (hrun : (start (.initial old s1s2 version)).run host events = .ok c) :
    Stage host c ∧ Recorded host c ∧
      c.taken ++ c.arrived = events.flatMap StrandEvent.sent := by
  obtain ⟨hstage, hrecorded⟩ := run_sound hrun (start_sound old s1s2 version)
  exact ⟨hstage, hrecorded, run_received hrun⟩

theorem connection_life_handshake :
    ∃ c, (start (.initial (zeros 1536) (zeros 3072) (zeros 4))).run plainHost
        (handshakeEvents (zeros 1536) (zeros 1536)) = .ok c ∧
      Stage plainHost c ∧ c.reads = [.request] := by
  obtain ⟨c, hrun, hreceiver, -, -, -, -, hwaiting⟩ := @run_handshake plainHost (zeros 1536)
    (zeros 3072) (zeros 4) (zeros 1536) (zeros 1536)
  have hreading : c.receiver.status = .reading := by
    rw [hreceiver]
    rfl
  exact ⟨c, hrun, (connection_life _ _ _ _ _ c hrun).1, (hwaiting.reading hreading).1⟩

/-- No connection ends unnoticed. At most one operation of the reading side is outstanding;
when none is, the handler has been told of it, except after a C0 other than 3, with which
nothing is ever handled; and the reading side tells it once and hands out nothing behind it. -/
theorem no_silent_end (host : StrandHost) (old : Block UInt8 1536) (s1s2 : Block UInt8 3072)
    (version : Block UInt8 4) (events : List StrandEvent) (c : ConnectionLife)
    (hrun : (start (.initial old s1s2 version)).run host events = .ok c) :
    c.reads.length + c.handshakeWrites ≤ 1 ∧
    (c.reads = [] → c.handshakeWrites = 0 →
      .disconnect ∈ c.events ∨
        ((∃ c0, c.taken.head? = some c0 ∧ c0 ≠ 3) ∧ c.answers = [] ∧ c.session = {})) ∧
    ∀ before after, c.events = before ++ .disconnect :: after →
      .disconnect ∉ before ∧ ∀ e ∈ after, e.Passive := by
  obtain ⟨hstage, hrecorded⟩ := run_sound hrun (start_sound old s1s2 version)
  refine ⟨?_, ?_, ?_⟩
  · cases hstage with
    | opening _ _ _ reads writes => simp [reads, writes]
    | refused _ _ _ reads writes => simp [reads, writes]
    | answering _ reads writes => simp [reads, writes]
    | confirming _ reads writes => simp [reads, writes]
    | serving _ _ reads writes => simp [reads, writes]
    | dropped reads writes => simp [reads, writes]
    | ended _ _ reads writes => simp [reads, writes]
  · intro hreads hwrites
    cases hstage with
    | opening _ _ _ reads => simp [reads] at hreads
    | refused c0 c1 version _ _ taken answers _ unserved =>
        right
        refine ⟨⟨c0, ?_, version⟩, answers, unserved.session⟩
        rw [taken]
        rfl
    | answering _ _ writes => simp [writes] at hwrites
    | confirming _ reads => simp [reads] at hreads
    | serving _ _ reads => simp [reads] at hreads
    | dropped _ _ _ _ _ _ disconnected => exact .inl disconnected
    | ended _ _ _ _ _ _ disconnected => exact .inl disconnected
  · intro before after hsplit
    constructor
    · intro hbefore
      exact hrecorded.quiet before .disconnect after hsplit hbefore
    · intro e he
      obtain ⟨between, rest, rfl⟩ := List.append_of_mem he
      exact hrecorded.quiet (before ++ .disconnect :: between) e rest (by simp [hsplit]) (by simp)

/-- A read that fails in front of the handshake. -/
theorem no_silent_end_failed :
    ∃ c, (start (.initial (zeros 1536) (zeros 3072) (zeros 4))).run plainHost
        [.arrived [3], .readFailed 0] = .ok c ∧ .disconnect ∈ c.events := by
  obtain ⟨c, hrun, hreads, hwrites, hend⟩ : ∃ c,
      (start (.initial (zeros 1536) (zeros 3072) (zeros 4))).run plainHost
        [.arrived [3], .readFailed 0] = .ok c ∧ c.reads = [] ∧ c.handshakeWrites = 0 ∧
        c.session.publisher.context.readyToEndOfStream = true := ⟨_, rfl, rfl, rfl, rfl⟩
  rcases (no_silent_end _ _ _ _ _ c hrun).2.1 hreads hwrites with hmem | ⟨-, -, hsession⟩
  · exact ⟨c, hrun, hmem⟩
  · rw [hsession] at hend
    cases hend

/-- The time in C1 and the bytes behind C2. -/
theorem behind_handshake (c1 c2 : Block UInt8 1536) (rest : List UInt8) :
    epochOf ((3 :: c1.cells ++ c2.cells ++ rest).drop 1) = epochOf c1.cells ∧
      (3 :: c1.cells ++ c2.cells ++ rest).drop 3073 = rest := by
  have hlength1 := c1.length_cells
  have hlength2 := c2.length_cells
  constructor
  · rw [epochOf, epochOf, List.cons_append, List.cons_append, List.drop_succ_cons,
      List.drop_zero, List.append_assoc, List.take_append_of_le_length (by omega)]
  · exact List.drop_left' (by simp [hlength1, hlength2])

/-- What the parser has made of the bytes read. -/
theorem Stage.handled (h : Stage host c) :
    c.receiver.handled = ((Connection.afterHandshake (epochOf (c.taken.drop 1))).run host.uninit
        c.requests).handled ∧
      c.requests.flatten = c.taken.drop 3073 ∧ ∀ bytes ∈ c.requests, bytes ≠ [] := by
  have hunserved : ∀ taken : List UInt8, taken.length ≤ 1537 → c.taken = taken → c.requests = [] →
      c.receiver.handled = [] →
      c.receiver.handled = ((Connection.afterHandshake (epochOf (c.taken.drop 1))).run host.uninit
        c.requests).handled ∧
      c.requests.flatten = c.taken.drop 3073 ∧ ∀ bytes ∈ c.requests, bytes ≠ [] := by
    rintro taken hlength rfl hrequests hhandled
    have hnil : c.taken.drop 3073 = [] := List.drop_eq_nil_of_le (by omega)
    rw [hrequests, hhandled, hnil]
    exact ⟨rfl, rfl, by simp⟩
  have hserved : ∀ c1 c2 : Block UInt8 1536,
      c.taken = 3 :: c1.cells ++ c2.cells ++ c.requests.flatten → Greeted host c c1 →
      c.receiver.handled = ((Connection.afterHandshake (epochOf (c.taken.drop 1))).run host.uninit
        c.requests).handled ∧
      c.requests.flatten = c.taken.drop 3073 ∧ ∀ bytes ∈ c.requests, bytes ≠ [] := by
    intro c1 c2 taken greeted
    obtain ⟨hepoch, hdrop⟩ := behind_handshake c1 c2 c.requests.flatten
    rw [← taken] at hepoch hdrop
    exact ⟨by rw [hepoch, ← greeted.receiver], hdrop.symm, greeted.nonempty⟩
  cases h with
  | opening _ _ _ _ _ taken _ _ receiver unserved =>
      exact hunserved [] (by simp) taken unserved.requests (by rw [receiver])
  | refused c0 c1 _ _ _ taken _ handled unserved =>
      exact hunserved _ (by simp [c1.length_cells]) taken unserved.requests handled
  | answering c1 _ _ taken greeted unserved =>
      exact hunserved _ (by simp [c1.length_cells]) taken unserved.requests
        (greeted.handled_nil unserved.requests)
  | confirming c1 _ _ taken greeted unserved =>
      exact hunserved _ (by simp [c1.length_cells]) taken unserved.requests
        (greeted.handled_nil unserved.requests)
  | serving c1 c2 _ _ taken greeted => exact hserved c1 c2 taken greeted
  | dropped _ _ taken requests handled => exact hunserved _ taken rfl requests handled
  | ended c1 c2 _ _ taken greeted => exact hserved c1 c2 taken greeted

end Results

end ConnectionLife

end Rtmp
