import RtmpModule.Protocol.ParserMachine

/-!
# How the bytes of a connection are cut into reads

`handle_read` is the parser machine run over what has arrived so far, with one
difference: it leaves a chunk whose payload is incomplete *started*, and starts
the message again on the next read. Starting twice is harmless for a type 0
header and for a zero delta, and for chunks that continue a message. It is not
for the first chunk of a message with a nonzero delta, which moves the tables of
its chunk stream once for every read that ends inside it.
-/

namespace Rtmp

open AMF0Serializer Resumable

section HandleRead

variable {uninit : Uninit}

/-- The connection as the drained machine `d` predicts it, with the messages
handled before. -/
structure Mirrors (uninit : Uninit) (d : Drained MachineState UInt8 RtmpMessage)
    (handled : List RtmpMessage) (c : Connection) : Prop where
  status : c.status = d.state.status
  handled : c.handled = handled ++ d.out
  core : c.parser.toParserCore = MachineState.settle uninit d
  unread : c.status = .reading → c.requestStreambuf = d.unread

theorem Mirrors.emit {d : Drained MachineState UInt8 RtmpMessage}
    {before handled out : List RtmpMessage} {c : Connection} (h : Mirrors uninit d handled c)
    (hhandled : handled = before ++ out) : Mirrors uninit (Machine.emit out d) before c where
  status := h.status
  handled := by rw [h.handled, hhandled, List.append_assoc]; rfl
  core := h.core
  unread := h.unread

theorem drain_nil (uninit : Uninit) {c : ParserCore} (hrest : c.Resting)
    (hstate : c.parsingState ≠ .complete) :
    (parserMachine uninit).drain { core := c } [] =
      { state := { core := c }, unread := [], out := [] } ∧
    MachineState.settle uninit { state := { core := c }, unread := [], out := [] } = c := by
  cases hc : c.parsingState with
  | complete => exact absurd hc hstate
  | headerParsing =>
      have hstep : (parserMachine uninit).step { core := c } [] = none := by
        rw [step_reading hc]
        exact headerStep_short (Nat.pos_of_ne_zero hrest)
      exact ⟨(parserMachine uninit).drain_of_none hstep, by simp [MachineState.settle, hc]⟩
  | payloadParsing =>
      have hstep : (parserMachine uninit).step { core := c } [] = none := by
        simp [parserMachine, MachineState.step, hc, MachineState.payloadStep,
          ParserCore.payloadRound]
      exact ⟨(parserMachine uninit).drain_of_none hstep,
        by simp [MachineState.settle, hc, ParserCore.payloadRound]⟩

/-- The loop of `handle_read` against the machine. -/
theorem handleReadLoop_mirrors (uninit : Uninit) (c : Connection) (hrest : c.parser.Resting)
    (hstate : c.parser.parsingState ≠ .complete) (hstatus : c.status = .reading) :
    Mirrors uninit
      ((parserMachine uninit).drain { core := c.parser.toParserCore } c.requestStreambuf)
      c.handled (c.handleReadLoop uninit c.requestStreambuf.length) := by
  induction hn : c.parser.measure c.requestStreambuf.length using Nat.strongRecOn
      generalizing c with
  | ind n ih =>
      rw [Connection.handleReadLoop]
      by_cases hempty : c.requestStreambuf.length = 0
      · have hnil : c.requestStreambuf = [] := List.length_eq_zero_iff.mp hempty
        obtain ⟨hdrain, hsettle⟩ := drain_nil uninit hrest hstate
        rw [if_pos hempty, hnil, hdrain]
        exact ⟨hstatus, by simp, hsettle.symm, fun _ => hnil⟩
      · obtain ⟨hagrees, hlen⟩ := parse_drain uninit c.requestStreambuf hrest
        rw [if_neg hempty]
        dsimp only
        split <;> rename_i hr <;> rw [hr] at hagrees
        · obtain ⟨hdrain, hrest', hstate'⟩ := hagrees
          have hlt := RtmpParser.parse_measure hr
          rw [← hlen hr] at hlt ⊢
          have hrec := ih _ (hn ▸ hlt) { c with
            parser := (c.parser.parse uninit c.requestStreambuf c.requestStreambuf.length).parser
            requestStreambuf :=
              (c.parser.parse uninit c.requestStreambuf c.requestStreambuf.length).stream
            writeQueue := c.writeQueue ++
              (c.parser.parse uninit c.requestStreambuf c.requestStreambuf.length).pushed
            handled := c.handled ++ (c.parser.parse uninit c.requestStreambuf
              c.requestStreambuf.length).parser.parsedMsg.toList }
            hrest' (by simp [hstate']) hstatus rfl
          rw [hdrain]
          exact ⟨hrec.status, by simpa [Machine.emit] using hrec.handled, hrec.core, hrec.unread⟩
        · rw [hagrees]
          exact ⟨rfl, by simp, by simp [MachineState.settle], by simp⟩
        · obtain ⟨hreading, hout, hunread, hsettle⟩ := hagrees
          exact ⟨by simp [hstatus, hreading], by simp [hout], hsettle.symm, fun _ => hunread.symm⟩
        · rw [hagrees]
          exact ⟨rfl, by simp, by simp [MachineState.settle], by simp⟩

/-- A read that begins here starts a message a second time and moves its timestamp:
part of the payload of its first chunk is there, and the chunk adds a delta. -/
def Connection.Replays (c : Connection) : Prop :=
  c.status = .reading ∧ c.parser.parsingState = .payloadParsing ∧ c.requestStreambuf ≠ [] ∧
    c.parser.payloadParser.incompleteInfos c.parser.parsedHeader.chunkStreamId = none ∧
    RtmpPayloadParser.messageDelta c.parser.parsedHeader
      (c.parser.payloadParser.channels c.parser.parsedHeader.chunkStreamId) ≠ 0

instance (c : Connection) : Decidable c.Replays := inferInstanceAs (Decidable (_ ∧ _))

/-- No read of the run begins where the start of a message would be replayed. -/
def Connection.NeverReplays (uninit : Uninit) (c : Connection) : List (List UInt8) → Prop
  | [] => True
  | bytes :: reads => ¬ c.Replays ∧ (c.handleRead uninit bytes).NeverReplays uninit reads

instance decidableNeverReplays (uninit : Uninit) :
    (c : Connection) → (reads : List (List UInt8)) → Decidable (c.NeverReplays uninit reads)
  | _, [] => inferInstanceAs (Decidable True)
  | c, bytes :: reads =>
      have := decidableNeverReplays uninit (c.handleRead uninit bytes) reads
      inferInstanceAs (Decidable (_ ∧ _))

theorem Connection.neverReplays_append {c : Connection} {reads : List (List UInt8)}
    {bytes : List UInt8} (h : c.NeverReplays uninit (reads ++ [bytes])) :
    c.NeverReplays uninit reads ∧ ¬ (c.run uninit reads).Replays := by
  induction reads generalizing c with
  | nil => exact ⟨trivial, h.1⟩
  | cons b reads ih =>
      obtain ⟨hfirst, hrest⟩ := h
      obtain ⟨hreads, hlast⟩ := ih hrest
      exact ⟨⟨hfirst, hreads⟩, hlast⟩

theorem waiting_of_step_none {c : ParserCore} {unread : List UInt8}
    (hc : c.parsingState = .payloadParsing) (hne : unread ≠ [])
    (h : (parserMachine uninit).step { core := c } unread = none) :
    ∃ recvInfo p', c.payloadParser.findOrStart c.parsedHeader = (.ok recvInfo, p') ∧
      (c.payloadRound uninit unread unread.length).core = { c with payloadParser := p' } := by
  have hlen : unread.length ≠ 0 := by simpa using hne
  simp only [parserMachine, MachineState.step, hc, ↓reduceIte, MachineState.payloadStep] at h
  split at h
  · cases h
  · rename_i hr
    unfold ParserCore.payloadRound at hr ⊢
    rw [if_neg hlen] at hr ⊢
    dsimp only at hr ⊢
    split at hr
    · split at hr <;> simp at hr
    · simp at hr
    · simp at hr
    · rename_i hwait
      obtain ⟨recvInfo, p', hf, hlt⟩ := RtmpPayloadParser.parsePayload_waiting hwait
      refine ⟨recvInfo, p', hf, ?_⟩
      rw [RtmpPayloadParser.parsePayload_of_short hf hlt]
    · simp at hr
  · cases h
  · cases h

/-- A started chunk is read like one that has not been looked at. -/
theorem payloadRound_restart {c : ParserCore} {p' : RtmpPayloadParser}
    {recvInfo : ReceivedPayloadInfo} {stream : List UInt8} (hne : stream.length ≠ 0)
    (h : c.payloadParser.findOrStart c.parsedHeader = (.ok recvInfo, p'))
    (hdelta : p'.incompleteInfos c.parsedHeader.chunkStreamId = none →
      RtmpPayloadParser.messageDelta c.parsedHeader
        (p'.channels c.parsedHeader.chunkStreamId) = 0) :
    ParserCore.payloadRound { c with payloadParser := p' } uninit stream stream.length =
      c.payloadRound uninit stream stream.length := by
  have hparse := RtmpPayloadParser.parsePayload_restart uninit stream stream.length h hdelta
  have hheader : ParserCore.parsedHeader { c with payloadParser := p' } = c.parsedHeader := rfl
  simp only [ParserCore.payloadRound, if_neg hne, hheader, hparse]

/-- Two cores whose next payload round is the same cannot be told apart. -/
theorem mirrors_of_same_round {c c' : ParserCore} {stream : List UInt8}
    (hc : c.parsingState = .payloadParsing) (hc' : c'.parsingState = .payloadParsing)
    (hround : c'.payloadRound uninit stream stream.length =
      c.payloadRound uninit stream stream.length)
    {handled : List RtmpMessage} {conn : Connection}
    (h : Mirrors uninit ((parserMachine uninit).drain { core := c' } stream) handled conn) :
    Mirrors uninit ((parserMachine uninit).drain { core := c } stream) handled conn := by
  have hstep : (parserMachine uninit).step { core := c' } stream =
      (parserMachine uninit).step { core := c } stream := by
    simp only [parserMachine, MachineState.step, hc, hc', ↓reduceIte, MachineState.payloadStep,
      hround]
  cases hs : (parserMachine uninit).step { core := c } stream with
  | none =>
      rw [(parserMachine uninit).drain_of_none (hstep.trans hs)] at h
      rw [(parserMachine uninit).drain_of_none hs]
      refine ⟨h.status, h.handled, ?_, h.unread⟩
      rw [h.core]
      simp only [MachineState.settle, hc, hc', hround, and_self, ↓reduceIte]
  | some r =>
      obtain ⟨s', rest, out⟩ := r
      rw [(parserMachine uninit).drain_of_some (hstep.trans hs)] at h
      rwa [(parserMachine uninit).drain_of_some hs]

/-- Where no message is replayed, going on from what the code left is going on from
what the machine left. -/
theorem mirrors_of_settle {d : Drained MachineState UInt8 RtmpMessage}
    (hwait : (parserMachine uninit).step d.state d.unread = none)
    (hreading : d.state.status = .reading) {bytes : List UInt8}
    {before c : Connection} (hbefore : before.parser.toParserCore = MachineState.settle uninit d)
    (hstatus : before.status = .reading) (hunread : before.requestStreambuf = d.unread)
    (hreplay : ¬ before.Replays)
    {handled : List RtmpMessage}
    (h : Mirrors uninit ((parserMachine uninit).drain { core := MachineState.settle uninit d }
      (d.unread ++ bytes)) handled c) :
    Mirrors uninit ((parserMachine uninit).drain d.state (d.unread ++ bytes)) handled c := by
  obtain ⟨⟨core, status⟩, unread, out⟩ := d
  obtain rfl : status = .reading := hreading
  by_cases hpay : core.parsingState = .payloadParsing ∧ unread ≠ []
  · obtain ⟨hc, hne⟩ := hpay
    obtain ⟨recvInfo, p', hf, hround⟩ := waiting_of_step_none hc hne hwait
    have hsettle : MachineState.settle uninit { state := { core }, unread, out } =
        { core with payloadParser := p' } := by
      simp [MachineState.settle, hc, hround]
    have hdelta : p'.incompleteInfos core.parsedHeader.chunkStreamId = none →
        RtmpPayloadParser.messageDelta core.parsedHeader
          (p'.channels core.parsedHeader.chunkStreamId) = 0 := by
      intro hinfo
      by_contra hdelta
      refine hreplay ?_
      rw [hsettle] at hbefore
      unfold Connection.Replays
      rw [hbefore, hunread]
      exact ⟨hstatus, hc, hne, hinfo, hdelta⟩
    have hlen : (unread ++ bytes).length ≠ 0 := by simp [hne]
    rw [hsettle] at h
    have hsame : ParserCore.payloadRound { core with payloadParser := p' } uninit
        (unread ++ bytes) (unread ++ bytes).length =
        core.payloadRound uninit (unread ++ bytes) (unread ++ bytes).length :=
      payloadRound_restart hlen hf hdelta
    refine mirrors_of_same_round hc ?_ hsame h
    exact hc
  · have hsettle : MachineState.settle uninit { state := { core }, unread, out } = core := by
      unfold MachineState.settle
      split
      · rename_i hc
        have hnil : unread = [] := by
          by_contra hne
          exact hpay ⟨hc.2, hne⟩
        simp [hnil, ParserCore.payloadRound]
      · rfl
    rwa [hsettle] at h

/-- Outside a header the header parser is at rest, whatever the machine does. -/
theorem step_resting {s s' : MachineState} {unread rest : List UInt8} {out : List RtmpMessage}
    (h : (parserMachine uninit).step s unread = some (s', rest, out))
    (hs : s.core.parsingState ≠ .headerParsing → s.core.Resting) :
    s'.core.parsingState ≠ .headerParsing → s'.core.Resting := by
  intro hstate
  simp only [parserMachine, MachineState.step] at h
  split at h
  · split at h
    · rename_i hc
      unfold MachineState.headerStep at h
      split at h
      · cases h
        simp [ParserCore.Resting, RtmpHeaderParser.ParsingState.size]
      · dsimp only at h
        split at h <;> cases h <;> exact absurd hc hstate
    · rename_i hc
      unfold MachineState.payloadStep at h
      dsimp only at h
      have hheader := ParserCore.payloadRound_headerParser (p := s.core) uninit unread
        unread.length
      have hrest := hs (by simp [hc])
      split at h <;> cases h <;> rwa [ParserCore.Resting, hheader]
    · rename_i hc
      cases h
      exact absurd rfl hstate
  · cases h

/-- A fresh connection after the handshake. -/
def Connection.afterHandshake (epoch : UInt32) : Connection :=
  Connection.setBaseTimestamp {} epoch

/-- What the machine makes of the bytes received so far. -/
def drainedBytes (uninit : Uninit) (epoch : UInt32) (bytes : List UInt8) :
    Drained MachineState UInt8 RtmpMessage :=
  (parserMachine uninit).drain
    { core := (Connection.afterHandshake epoch).parser.toParserCore } bytes

theorem drainedBytes_resting (uninit : Uninit) (epoch : UInt32) (bytes : List UInt8)
    (hreading : (drainedBytes uninit epoch bytes).state.status = .reading) :
    (MachineState.settle uninit (drainedBytes uninit epoch bytes)).Resting ∧
    (MachineState.settle uninit (drainedBytes uninit epoch bytes)).parsingState ≠ .complete := by
  have hwait := (parserMachine uninit).drain_waits
    { core := (Connection.afterHandshake epoch).parser.toParserCore } bytes
  have hinv := (parserMachine uninit).drain_invariant
    (fun s => s.core.parsingState ≠ .headerParsing → s.core.Resting)
    (fun _ _ _ _ _ h hs => step_resting h hs)
    { core := (Connection.afterHandshake epoch).parser.toParserCore } bytes
    (fun h => absurd rfl h)
  change (parserMachine uninit).step (drainedBytes uninit epoch bytes).state
    (drainedBytes uninit epoch bytes).unread = none at hwait
  change (drainedBytes uninit epoch bytes).state.core.parsingState ≠ .headerParsing →
    (drainedBytes uninit epoch bytes).state.core.Resting at hinv
  generalize drainedBytes uninit epoch bytes = d at hreading hwait hinv ⊢
  obtain ⟨⟨core, status⟩, unread, out⟩ := d
  obtain rfl : status = .reading := hreading
  cases hc : core.parsingState with
  | headerParsing =>
      have hsettle : MachineState.settle uninit { state := { core }, unread, out } = core := by
        simp [MachineState.settle, hc]
      rw [hsettle]
      refine ⟨fun hzero => ?_, by simp [hc]⟩
      dsimp only at hwait
      rw [step_reading hc] at hwait
      unfold MachineState.headerStep at hwait
      split at hwait
      · cases hwait
      · rename_i hs
        have hdecides : (core.headerParser.parseInCurrentState unread unread.length).result ≠
            .indeterminate :=
          (core.headerParser.parseInCurrentState_takes hs).decides (by omega)
        dsimp only at hwait
        split at hwait
        · cases hwait
        · cases hwait
        · contradiction
  | payloadParsing =>
      have hrest : core.Resting := hinv (by simp [hc])
      have hsettle : MachineState.settle uninit { state := { core }, unread, out } =
          (core.payloadRound uninit unread unread.length).core := by
        simp [MachineState.settle, hc]
      rw [hsettle]
      refine ⟨?_, ?_⟩
      · rwa [ParserCore.Resting, core.payloadRound_headerParser]
      · by_cases hne : unread = []
        · simp [hne, ParserCore.payloadRound, hc]
        · obtain ⟨recvInfo, p', -, hround⟩ := waiting_of_step_none hc hne hwait
          simp [hround, hc]
  | complete =>
      simp [parserMachine, MachineState.step, hc] at hwait

/-- The connection after a sequence of reads, none of which replays the start of a
message, is the machine drained on the bytes read. -/
theorem run_mirrors (uninit : Uninit) (epoch : UInt32) (reads : List (List UInt8))
    (hbytes : ∀ bytes ∈ reads, bytes ≠ [])
    (hreplay : (Connection.afterHandshake epoch).NeverReplays uninit reads) :
    Mirrors uninit (drainedBytes uninit epoch reads.flatten) []
      ((Connection.afterHandshake epoch).run uninit reads) := by
  induction reads using List.reverseRecOn with
  | nil =>
      have hrest : (Connection.afterHandshake epoch).parser.Resting := by
        simp [ParserCore.Resting, Connection.afterHandshake, Connection.setBaseTimestamp,
          RtmpHeaderParser.ParsingState.size]
      have hstate : (Connection.afterHandshake epoch).parser.parsingState ≠ .complete := by
        simp [Connection.afterHandshake, Connection.setBaseTimestamp]
      obtain ⟨hdrain, hsettle⟩ := drain_nil uninit hrest hstate
      rw [List.flatten_nil, drainedBytes, hdrain]
      exact ⟨rfl, rfl, hsettle.symm, fun _ => rfl⟩
  | append_singleton reads bytes ih =>
      obtain ⟨hreads, hnow⟩ := Connection.neverReplays_append hreplay
      have hprev := ih (fun b hb => hbytes b (List.mem_append_left _ hb)) hreads
      have hne := hbytes bytes (by simp)
      have hwait := (parserMachine uninit).drain_waits
        { core := (Connection.afterHandshake epoch).parser.toParserCore } reads.flatten
      have happend := (parserMachine uninit).drain_append
        { core := (Connection.afterHandshake epoch).parser.toParserCore } reads.flatten bytes
      rw [Connection.run, List.foldl_append, List.foldl_cons, List.foldl_nil,
        List.flatten_append, List.flatten_singleton, drainedBytes, happend]
      change Mirrors uninit _ []
        (Connection.handleRead uninit ((Connection.afterHandshake epoch).run uninit reads) bytes)
      change (parserMachine uninit).step (drainedBytes uninit epoch reads.flatten).state
        (drainedBytes uninit epoch reads.flatten).unread = none at hwait
      have hresting := drainedBytes_resting uninit epoch reads.flatten
      generalize (Connection.afterHandshake epoch).run uninit reads = c at hprev hnow ⊢
      change Mirrors uninit (Machine.emit (drainedBytes uninit epoch reads.flatten).out
        ((parserMachine uninit).drain (drainedBytes uninit epoch reads.flatten).state
          ((drainedBytes uninit epoch reads.flatten).unread ++ bytes))) [] _
      generalize drainedBytes uninit epoch reads.flatten = d at hprev hwait hresting ⊢
      by_cases hreading : c.status = .reading
      · have hd : d.state.status = .reading := hprev.status ▸ hreading
        obtain ⟨hrest, hstate⟩ := hresting hd
        have hlen : 0 < bytes.length := List.length_pos_of_ne_nil hne
        rw [Connection.handleRead, if_pos hreading, if_pos hlen]
        have hloop := handleReadLoop_mirrors uninit
          { c with requestStreambuf := c.requestStreambuf ++ bytes }
          (by rwa [ParserCore.Resting, hprev.core]) (by rwa [hprev.core]) hreading
        dsimp only at hloop ⊢
        rw [hprev.core] at hloop
        rw [hprev.unread hreading] at hloop ⊢
        have hmachine := mirrors_of_settle hwait hd hprev.core hreading (hprev.unread hreading)
          hnow hloop
        exact hmachine.emit hprev.handled
      · have hd : d.state.status ≠ .reading := fun h => hreading (hprev.status.trans h)
        rw [Connection.handleRead, if_neg hreading, drain_stopped hd]
        refine ⟨hprev.status, by simpa [Machine.emit] using hprev.handled, ?_,
          fun h => absurd h hreading⟩
        rw [hprev.core]
        simp [MachineState.settle, Machine.emit, hd]

/-- Two ways of cutting the same bytes into reads that never replay the start of a
message hand over the same messages, end the same way and leave the same parser,
its tables and rollover state included. -/
theorem handleRead_cut_independent (uninit : Uninit) (epoch : UInt32)
    (reads₁ reads₂ : List (List UInt8)) (hflatten : reads₁.flatten = reads₂.flatten)
    (hbytes₁ : ∀ bytes ∈ reads₁, bytes ≠ []) (hbytes₂ : ∀ bytes ∈ reads₂, bytes ≠ [])
    (hreplay₁ : (Connection.afterHandshake epoch).NeverReplays uninit reads₁)
    (hreplay₂ : (Connection.afterHandshake epoch).NeverReplays uninit reads₂) :
    let c₁ := (Connection.afterHandshake epoch).run uninit reads₁
    let c₂ := (Connection.afterHandshake epoch).run uninit reads₂
    c₁.handled = c₂.handled ∧ c₁.status = c₂.status ∧
      c₁.parser.payloadParser.channels = c₂.parser.payloadParser.channels ∧
      c₁.parser.payloadParser.context = c₂.parser.payloadParser.context ∧
      c₁.parser.toParserCore = c₂.parser.toParserCore := by
  have h₁ := run_mirrors uninit epoch reads₁ hbytes₁ hreplay₁
  have h₂ := run_mirrors uninit epoch reads₂ hbytes₂ hreplay₂
  rw [← hflatten] at h₂
  have hcore := h₁.core.trans h₂.core.symm
  refine ⟨h₁.handled.trans h₂.handled.symm, h₁.status.trans h₂.status.symm, ?_, ?_, hcore⟩
  · rw [hcore]
  · rw [hcore]

/-- A type 0 chunk of a video message at 10 ms, then a type 1 chunk of an audio
message 10 ms later: delivered whole, and in reads that end inside headers and
inside the payload of the first chunk. -/
def videoThenAudio : List UInt8 :=
  [0x04, 0, 0, 10, 0, 0, 3, 9, 1, 0, 0, 0, 0x17, 0x01, 0x00] ++
    [0x44, 0, 0, 10, 0, 0, 2, 8, 0xAF, 0x01]

theorem handleRead_cut_independent_in_headers :
    ((Connection.afterHandshake 0).run (fun _ => 0) [videoThenAudio]).handled =
      ((Connection.afterHandshake 0).run (fun _ => 0)
        [videoThenAudio.take 1, (videoThenAudio.take 13).drop 1,
          (videoThenAudio.take 17).drop 13, videoThenAudio.drop 17]).handled :=
  (handleRead_cut_independent (fun _ => 0) 0 [videoThenAudio]
    [videoThenAudio.take 1, (videoThenAudio.take 13).drop 1,
      (videoThenAudio.take 17).drop 13, videoThenAudio.drop 17]
    (by decide) (by decide) (by decide) (by decide +kernel) (by decide +kernel)).1

/-- Cut one byte before its end, the audio message is started twice and delivered
at 30 ms in place of 20 ms. -/
theorem handleRead_cut_replays :
    [videoThenAudio].flatten = [videoThenAudio.take 24, videoThenAudio.drop 24].flatten ∧
      (∀ bytes ∈ [videoThenAudio.take 24, videoThenAudio.drop 24], bytes ≠ []) ∧
      ((Connection.afterHandshake 0).run (fun _ => 0) [videoThenAudio]).handled.map
        (·.header.timestamp) = [10, 20] ∧
      ((Connection.afterHandshake 0).run (fun _ => 0)
        [videoThenAudio.take 24, videoThenAudio.drop 24]).handled.map
        (·.header.timestamp) = [10, 30] := by
  decide +kernel

end HandleRead

end Rtmp
