import RtmpModule.Network.Connection

/-!
# Progress of the parser

The loops of `parse_header`, `parse_private` and `handle_read` each subtract what was
read from one count of bytes. Their runs are spelled out as derivations: a derivation
has a number of rounds, and a round that goes on has room for what it subtracts. Every
call has one, whatever the state of the parser, the chunk size and the bytes are, so
the loops end and their counts never underflow. Along a derivation the bytes that are
taken from the stream are counted against the buffer.
-/

namespace Rtmp

namespace RtmpHeaderParser

variable {p : RtmpHeaderParser} {stream : List UInt8} {bufSize total : Nat}

/-- The loop of `parse_header` in a number of rounds. -/
inductive Rounds : Nat → RtmpHeaderParser → List UInt8 → Nat → Nat → Result → Prop
  | complete {p : RtmpHeaderParser} {stream : List UInt8} {bufSize total : Nat}
      (hc : p.parsingState = .complete) :
      Rounds 1 p stream bufSize total
        { result := .true, parser := { p with parsingState := .basicHeader1byte }, stream,
          readedSize := total }
  | stopped {p : RtmpHeaderParser} {stream : List UInt8} {bufSize total : Nat}
      (hc : p.parsingState ≠ .complete)
      (hr : (p.parseInCurrentState stream bufSize).result ≠ .true) :
      Rounds 1 p stream bufSize total
        { p.parseInCurrentState stream bufSize with readedSize := total }
  | next {p : RtmpHeaderParser} {stream : List UInt8} {bufSize total n : Nat} {r : Result}
      (hc : p.parsingState ≠ .complete)
      (hr : (p.parseInCurrentState stream bufSize).result = .true)
      (hle : (p.parseInCurrentState stream bufSize).readedSize ≤ bufSize)
      (hrest : Rounds n (p.parseInCurrentState stream bufSize).parser
        (p.parseInCurrentState stream bufSize).stream
        (bufSize - (p.parseInCurrentState stream bufSize).readedSize)
        (total + (p.parseInCurrentState stream bufSize).readedSize) r) :
      Rounds (n + 1) p stream bufSize total r

theorem parseHeader_rounds :
    ∃ n ≤ p.parsingState.rank + 1,
      Rounds n p stream bufSize total (p.parseHeader stream bufSize total) := by
  fun_induction parseHeader p stream bufSize total with
  | case1 p stream bufSize total hc => exact ⟨1, by omega, .complete hc⟩
  | case2 p stream bufSize total hc r hr ih =>
      obtain ⟨n, hn, hrounds⟩ := ih
      have htakes := p.parseInCurrentState_takes hc
      have hrank : r.parser.parsingState.rank < p.parsingState.rank := htakes.rank hr
      refine ⟨n + 1, by omega, .next hc hr ?_ hrounds⟩
      rw [(htakes.consumes hr).1]
      exact size_le_of_true hc hr
  | case3 p stream bufSize total hc r hr => exact ⟨1, by omega, .stopped hc hr⟩

theorem rank_le (s : ParsingState) : s.rank ≤ 4 := by
  cases s <;> decide

/-- A stage that has its bytes takes them, even when it refuses them. -/
theorem parseInCurrentState_stream (h : p.parsingState.size ≤ bufSize) :
    (p.parseInCurrentState stream bufSize).stream = stream.drop p.parsingState.size := by
  unfold parseInCurrentState
  cases hs : p.parsingState with
  | basicHeader1byte =>
      simp only [hs, ParsingState.size] at h
      show (p.parseBasicHeader1byte stream bufSize).stream = stream.drop 1
      rw [parseBasicHeader1byte, if_pos h]
      dsimp only
      split <;> simp
  | basicHeader2byte =>
      simp only [hs, ParsingState.size] at h
      show (p.parseBasicHeader2byte stream bufSize).stream = stream.drop 1
      rw [parseBasicHeader2byte, if_pos h]
      simp
  | basicHeader3byte =>
      simp only [hs, ParsingState.size] at h
      show (p.parseBasicHeader3byte stream bufSize).stream = stream.drop 2
      rw [parseBasicHeader3byte, if_pos h]
      simp
  | chunkMsgHeaderType0 =>
      simp only [hs, ParsingState.size] at h
      show (p.parseChunkHeaderType0 stream bufSize).stream = stream.drop 11
      rw [parseChunkHeaderType0, if_pos h]
      dsimp only
      split <;> simp
  | chunkMsgHeaderType1 =>
      simp only [hs, ParsingState.size] at h
      show (p.parseChunkHeaderType1 stream bufSize).stream = stream.drop 7
      rw [parseChunkHeaderType1, if_pos h]
      dsimp only
      split <;> simp
  | chunkMsgHeaderType2 =>
      simp only [hs, ParsingState.size] at h
      show (p.parseChunkHeaderType2 stream bufSize).stream = stream.drop 3
      rw [parseChunkHeaderType2, if_pos h]
      simp
  | chunkMsgHeaderType3 => rfl
  | extendedTimestamp =>
      simp only [hs, ParsingState.size] at h
      show (p.parseExtendedTimestamp stream bufSize).stream = stream.drop 4
      rw [parseExtendedTimestamp, if_pos h]
      dsimp only
      split <;> simp
  | complete => rfl

/-- A header takes no more than the buffer holds. -/
theorem parseHeader_stream :
    ∃ taken ≤ bufSize, (p.parseHeader stream bufSize total).stream = stream.drop taken ∧
      total ≤ (p.parseHeader stream bufSize total).readedSize ∧
      (p.parseHeader stream bufSize total).readedSize ≤ total + taken := by
  fun_induction parseHeader p stream bufSize total with
  | case1 p stream bufSize total hc => exact ⟨0, Nat.zero_le _, rfl, le_rfl, le_rfl⟩
  | case2 p stream bufSize total hc r hr ih =>
      have hsize := size_le_of_true hc hr
      obtain ⟨hreaded, hstream⟩ := (p.parseInCurrentState_takes hc).consumes hr
      obtain ⟨taken, hle, hdrop, hlower, hupper⟩ := ih
      refine ⟨p.parsingState.size + taken, ?_, ?_, ?_, ?_⟩
      · rw [show r.readedSize = p.parsingState.size from hreaded] at hle
        omega
      · rw [hdrop, show r.stream = stream.drop p.parsingState.size from hstream, List.drop_drop]
      · omega
      · rw [show r.readedSize = p.parsingState.size from hreaded] at hupper ⊢
        omega
  | case3 p stream bufSize total hc r hr =>
      by_cases hlt : bufSize < p.parsingState.size
      · refine ⟨0, Nat.zero_le _, ?_, le_rfl, le_rfl⟩
        show (p.parseInCurrentState stream bufSize).stream = stream
        rw [(p.parseInCurrentState_takes hc).short hlt]
        rfl
      · have hle := Nat.le_of_not_lt hlt
        exact ⟨p.parsingState.size, hle, parseInCurrentState_stream hle, le_rfl,
          Nat.le_add_right _ _⟩

end RtmpHeaderParser

/-- A chunk takes its payload or nothing. -/
theorem RtmpPayloadParser.parsePayload_taken (p : RtmpPayloadParser)
    (uninit : AMF0Serializer.Uninit) (header : RtmpHeader) (stream : List UInt8) (bufSize : Nat) :
    ∃ taken ≤ bufSize,
      (p.parsePayload uninit header stream bufSize).stream = stream.drop taken := by
  rcases hf : p.findOrStart header with ⟨result, p'⟩
  cases result with
  | error fault =>
      rw [parsePayload_of_error hf]
      exact ⟨0, Nat.zero_le _, rfl⟩
  | ok recvInfo =>
      by_cases hle : (p'.thisMsgSize recvInfo).toNat ≤ bufSize
      · rw [parsePayload_of_le hf hle]
        exact ⟨_, hle, rfl⟩
      · rw [parsePayload_of_short hf (Nat.lt_of_not_le hle)]
        exact ⟨0, Nat.zero_le _, rfl⟩

namespace ParserCore

open AMF0Serializer

variable {c : ParserCore} {uninit : Uninit} {stream : List UInt8} {bufSize : Nat}

theorem measure_le (c : ParserCore) (bufSize : Nat) : c.measure bufSize ≤ 7 * bufSize + 6 := by
  have hweight : c.weight ≤ 6 := by
    unfold weight
    split <;> split <;> omega
  unfold measure
  omega

/-- A header round takes no more than the buffer holds. -/
theorem headerRound_stream :
    ∃ taken ≤ bufSize, (c.headerRound stream bufSize).stream = stream.drop taken ∧
      ((c.headerRound stream bufSize).returns = none →
        taken = (c.headerRound stream bufSize).readedSize) := by
  unfold headerRound
  split
  · exact ⟨0, Nat.zero_le _, rfl, by simp⟩
  · dsimp only
    split
    · rename_i hr
      obtain ⟨-, -, hle, hstream⟩ := RtmpHeaderParser.parseHeader_true hr
      rw [Nat.zero_add] at hle
      exact ⟨_, hle, hstream, fun _ => rfl⟩
    · obtain ⟨taken, hle, hstream, -, -⟩ :=
        @RtmpHeaderParser.parseHeader_stream c.headerParser stream bufSize 0
      exact ⟨taken, hle, hstream, by simp⟩
    · obtain ⟨taken, hle, hstream, -, -⟩ :=
        @RtmpHeaderParser.parseHeader_stream c.headerParser stream bufSize 0
      exact ⟨taken, hle, hstream, by simp⟩

theorem payloadRound_stream :
    ∃ taken ≤ bufSize, (c.payloadRound uninit stream bufSize).stream = stream.drop taken ∧
      ((c.payloadRound uninit stream bufSize).returns = none →
        taken = (c.payloadRound uninit stream bufSize).readedSize) := by
  cases hr : (c.payloadRound uninit stream bufSize).returns with
  | none =>
      obtain ⟨-, hstream, hle⟩ := payloadRound_none hr
      exact ⟨_, hle, hstream, fun _ => rfl⟩
  | some result =>
      unfold payloadRound
      split
      · exact ⟨0, Nat.zero_le _, rfl, by simp⟩
      · obtain ⟨taken, hle, hstream⟩ :=
          c.payloadParser.parsePayload_taken uninit c.parsedHeader stream bufSize
        refine ⟨taken, hle, ?_, by simp⟩
        rw [← hstream]
        dsimp only
        split
        · split <;> rfl
        all_goals rfl

/-- A round takes no more than the buffer holds, and what it reports when the loop goes on. -/
theorem round_stream :
    ∃ taken ≤ bufSize, (c.round uninit stream bufSize).stream = stream.drop taken ∧
      ((c.round uninit stream bufSize).returns = none →
        taken = (c.round uninit stream bufSize).readedSize) := by
  unfold round
  cases c.parsingState with
  | headerParsing => exact headerRound_stream
  | payloadParsing => exact payloadRound_stream
  | complete => exact ⟨0, Nat.zero_le _, rfl, by simp⟩

end ParserCore

namespace RtmpParser

open AMF0Serializer

variable {p : RtmpParser} {uninit : Uninit} {stream : List UInt8} {bufSize total : Nat}

/-- The loop of `parse_private` in a number of rounds. -/
inductive Rounds (uninit : Uninit) : Nat → RtmpParser → List UInt8 → Nat → Nat → ParseCall → Prop
  | returns {p : RtmpParser} {stream : List UInt8} {bufSize total : Nat}
      {result : Except Fault Tribool}
      (hr : (p.round uninit stream bufSize).returns = some result) :
      Rounds uninit 1 p stream bufSize total
        { result, parser := p.afterRound (p.round uninit stream bufSize),
          stream := (p.round uninit stream bufSize).stream, totalReadedSize := total }
  | next {p : RtmpParser} {stream : List UInt8} {bufSize total n : Nat} {r : ParseCall}
      (hr : (p.round uninit stream bufSize).returns = none)
      (hle : (p.round uninit stream bufSize).readedSize ≤ bufSize)
      (hrest : Rounds uninit n (p.afterRound (p.round uninit stream bufSize))
        (p.round uninit stream bufSize).stream
        (bufSize - (p.round uninit stream bufSize).readedSize)
        (total + (p.round uninit stream bufSize).readedSize) r) :
      Rounds uninit (n + 1) p stream bufSize total r

theorem parsePrivate_rounds (p : RtmpParser) (uninit : Uninit) (stream : List UInt8)
    (bufSize total : Nat) :
    ∃ n ≤ p.measure bufSize + 1,
      Rounds uninit n p stream bufSize total (p.parsePrivate uninit stream bufSize total) := by
  fun_induction parsePrivate p uninit stream bufSize total with
  | case1 p stream bufSize total r hr ih =>
      obtain ⟨n, hn, hrounds⟩ := ih
      obtain ⟨taken, hle, -, htaken⟩ :=
        @ParserCore.round_stream p.toParserCore uninit stream bufSize
      have hmeasure := ParserCore.round_measure hr
      rw [afterRound_core] at hn
      refine ⟨n + 1, ?_, .next hr (htaken hr ▸ hle) hrounds⟩
      exact Nat.succ_le_succ (Nat.le_trans hn hmeasure)
  | case2 p stream bufSize total r result hr => exact ⟨1, by omega, .returns hr⟩

/-- What a call takes from the stream and what it counts of it; a message that is returned
is counted in full. -/
theorem parsePrivate_stream (p : RtmpParser) (uninit : Uninit) (stream : List UInt8)
    (bufSize total : Nat) :
    ∃ taken ≤ bufSize, (p.parsePrivate uninit stream bufSize total).stream = stream.drop taken ∧
      total ≤ (p.parsePrivate uninit stream bufSize total).totalReadedSize ∧
      (p.parsePrivate uninit stream bufSize total).totalReadedSize ≤ total + taken ∧
      ((p.parsePrivate uninit stream bufSize total).result = .ok .true →
        (p.parsePrivate uninit stream bufSize total).totalReadedSize = total + taken) := by
  fun_induction parsePrivate p uninit stream bufSize total with
  | case1 p stream bufSize total r hr ih =>
      obtain ⟨first, hfirst, hstream, hsize⟩ :=
        @ParserCore.round_stream p.toParserCore uninit stream bufSize
      have hread : first = r.readedSize := hsize hr
      obtain ⟨taken, hle, hdrop, hlower, hupper, htrue⟩ := ih
      refine ⟨first + taken, by omega, ?_, by omega, by omega, ?_⟩
      · rw [hdrop, show r.stream = stream.drop first from hstream, List.drop_drop]
      · intro hresult
        rw [htrue hresult]
        omega
  | case2 p stream bufSize total r result hr =>
      by_cases hresult : result = .ok .true
      · -- only the `COMPLETE` state returns true, and it reads nothing
        subst hresult
        have hround := @round_complete p.toParserCore uninit stream bufSize (round_true_state hr)
        refine ⟨0, Nat.zero_le _, ?_, le_rfl, le_rfl, fun _ => rfl⟩
        show (p.round uninit stream bufSize).stream = stream
        rw [hround]
      · obtain ⟨taken, hle, hstream, -⟩ :=
          @ParserCore.round_stream p.toParserCore uninit stream bufSize
        refine ⟨taken, hle, hstream, le_rfl, Nat.le_add_right _ _, ?_⟩
        intro htrue
        exact absurd htrue hresult

/-- `parse` takes and counts what `parse_private` does. -/
theorem parse_stream (p : RtmpParser) (uninit : Uninit) (stream : List UInt8) (bufSize : Nat) :
    ∃ taken ≤ bufSize, (p.parse uninit stream bufSize).stream = stream.drop taken ∧
      (p.parse uninit stream bufSize).totalReadedSize ≤ taken ∧
      ((p.parse uninit stream bufSize).result = .ok .true →
        (p.parse uninit stream bufSize).totalReadedSize = taken) := by
  obtain ⟨hresult, -, hstream, htotal⟩ := p.parse_eq uninit stream bufSize
  obtain ⟨taken, hle, hdrop, -, hupper, htrue⟩ := p.parsePrivate_stream uninit stream bufSize 0
  rw [hresult, hstream, htotal]
  rw [Nat.zero_add] at hupper htrue
  exact ⟨taken, hle, hdrop, hupper, htrue⟩

end RtmpParser

namespace Connection

open AMF0Serializer

/-- The connection after a call of `parse`. -/
def afterParse (c : Connection) (r : RtmpParser.ParseCall) : Connection :=
  { c with
    parser := r.parser, requestStreambuf := r.stream, writeQueue := c.writeQueue ++ r.pushed }

/-- How the loop ends on what `parse` returned. -/
def statusAfter (status : ReadStatus) : Except Fault Tribool → ReadStatus
  | .ok .false => .disconnected
  | .error fault => .aborted fault
  | _ => status

/-- The loop of `handle_read` in a number of rounds. At the head of each, what is left of
`buffer_size` is the size of the stream buffer. -/
inductive ReadRounds (uninit : Uninit) : Nat → Connection → Nat → Connection → Prop
  | drained {c : Connection} (hsize : c.requestStreambuf.length = 0) :
      ReadRounds uninit 1 c 0 c
  | stopped {c : Connection} {bufSize : Nat} {r : RtmpParser.ParseCall} (hne : bufSize ≠ 0)
      (hsize : c.requestStreambuf.length = bufSize)
      (hr : c.parser.parse uninit c.requestStreambuf bufSize = r)
      (hresult : r.result ≠ .ok .true) :
      ReadRounds uninit 1 c bufSize
        { c.afterParse r with status := statusAfter c.status r.result }
  | next {c c' : Connection} {bufSize n : Nat} {r : RtmpParser.ParseCall} (hne : bufSize ≠ 0)
      (hsize : c.requestStreambuf.length = bufSize)
      (hr : c.parser.parse uninit c.requestStreambuf bufSize = r)
      (hresult : r.result = .ok .true)
      (hle : r.totalReadedSize ≤ bufSize)
      (hrest : ReadRounds uninit n
        { c.afterParse r with handled := c.handled ++ r.parser.parsedMsg.toList }
        (bufSize - r.totalReadedSize) c') :
      ReadRounds uninit (n + 1) c bufSize c'

theorem ReadRounds.stopped_of_result {uninit : Uninit} {c : Connection} {bufSize : Nat}
    {result : Except Fault Tribool} (hne : bufSize ≠ 0)
    (hsize : c.requestStreambuf.length = bufSize)
    (hr : (c.parser.parse uninit c.requestStreambuf bufSize).result = result)
    (hresult : result ≠ .ok .true) :
    ReadRounds uninit 1 c bufSize
      { c.afterParse (c.parser.parse uninit c.requestStreambuf bufSize) with
        status := statusAfter c.status result } := by
  subst hr
  exact .stopped hne hsize rfl hresult

theorem handleReadLoop_rounds (uninit : Uninit) (c : Connection) (bufSize : Nat)
    (hsize : c.requestStreambuf.length = bufSize) :
    ∃ n ≤ c.parser.measure bufSize + 1,
      ReadRounds uninit n c bufSize (c.handleReadLoop uninit bufSize) := by
  fun_induction handleReadLoop c uninit bufSize with
  | case1 c => exact ⟨1, by omega, .drained hsize⟩
  | case2 c bufSize h r c' hr ih =>
      obtain ⟨taken, hle, hstream, -, htrue⟩ :=
        c.parser.parse_stream uninit c.requestStreambuf bufSize
      have htaken : r.totalReadedSize = taken := htrue hr
      have hleft : c'.requestStreambuf.length = bufSize - r.totalReadedSize := by
        rw [htaken, show c'.requestStreambuf = c.requestStreambuf.drop taken from hstream,
          List.length_drop, hsize]
      obtain ⟨n, hn, hrounds⟩ := ih hleft
      have hmeasure := RtmpParser.parse_measure hr
      refine ⟨n + 1, ?_, .next h hsize rfl hr (htaken ▸ hle) hrounds⟩
      exact Nat.succ_le_succ (Nat.le_trans hn hmeasure)
  | case3 c bufSize h r c' hr => exact ⟨1, by omega, .stopped_of_result h hsize hr (by simp)⟩
  | case4 c bufSize h r c' hr => exact ⟨1, by omega, .stopped_of_result h hsize hr (by simp)⟩
  | case5 c bufSize h r c' fault hr =>
      exact ⟨1, by omega, .stopped_of_result h hsize hr (by simp)⟩

end Connection

/-- A call of `parse` on a buffer that the stream can fill ends after finitely many rounds of
its loops, whatever the parser and its chunk size are. It takes no more than the buffer from
the stream and counts no more than it takes, and a message that is returned is counted in
full. So the loop of `handle_read` knows the size of the stream buffer, and ends too. -/
theorem parse_progress (uninit : AMF0Serializer.Uninit) (p : RtmpParser) (stream : List UInt8)
    (bufSize : Nat) (hbuf : bufSize ≤ stream.length) (c : Connection) :
    (∀ (h : RtmpHeaderParser) (left : List UInt8) (size : Nat),
      ∃ n ≤ 5, RtmpHeaderParser.Rounds n h left size 0 (h.parseHeader left size)) ∧
    (∃ n ≤ 7 * bufSize + 7,
      RtmpParser.Rounds uninit n p stream bufSize 0 (p.parsePrivate uninit stream bufSize)) ∧
    (∀ result, (p.parse uninit stream bufSize).result = .ok result →
      ∃ taken ≤ bufSize, stream.length = taken + (p.parse uninit stream bufSize).stream.length ∧
        (p.parse uninit stream bufSize).stream = stream.drop taken ∧
        (p.parse uninit stream bufSize).totalReadedSize ≤ bufSize ∧
        (result = .true → (p.parse uninit stream bufSize).totalReadedSize = taken)) ∧
    (∃ n ≤ 7 * c.requestStreambuf.length + 7,
      Connection.ReadRounds uninit n c c.requestStreambuf.length
        (c.handleReadLoop uninit c.requestStreambuf.length)) := by
  refine ⟨?_, ?_, ?_, ?_⟩
  · intro h left size
    obtain ⟨n, hn, hrounds⟩ := @RtmpHeaderParser.parseHeader_rounds h left size 0
    have hrank := RtmpHeaderParser.rank_le h.parsingState
    exact ⟨n, by omega, hrounds⟩
  · obtain ⟨n, hn, hrounds⟩ := p.parsePrivate_rounds uninit stream bufSize 0
    have hmeasure := p.measure_le bufSize
    exact ⟨n, by omega, hrounds⟩
  · intro result hresult
    obtain ⟨taken, hle, hstream, htotal, htrue⟩ := p.parse_stream uninit stream bufSize
    refine ⟨taken, hle, ?_, hstream, Nat.le_trans htotal hle, ?_⟩
    · rw [hstream, List.length_drop]
      omega
    · rintro rfl
      exact htrue hresult
  · obtain ⟨n, hn, hrounds⟩ := c.handleReadLoop_rounds uninit c.requestStreambuf.length rfl
    have hmeasure := c.parser.measure_le c.requestStreambuf.length
    exact ⟨n, by omega, hrounds⟩

/-- The byte of a type 3 header, and then nothing of the chunk. -/
theorem parse_progress_byte :
    ∃ taken ≤ 1, (({} : RtmpParser).parse (fun _ => 0) [0xC4] 1).stream = [0xC4].drop taken ∧
      (({} : RtmpParser).parse (fun _ => 0) [0xC4] 1).totalReadedSize ≤ 1 := by
  have hprogress := parse_progress (fun _ => 0) {} [0xC4] 1 (by decide) {}
  obtain ⟨taken, hle, -, hstream, htotal, -⟩ :=
    hprogress.2.2.1 .indeterminate (by decide +kernel)
  exact ⟨taken, hle, hstream, htotal⟩

end Rtmp
