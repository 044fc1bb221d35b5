import RtmpModule.Protocol.HeaderParser
import RtmpModule.Protocol.PayloadParser

/-!
# The message parser of a connection

`RtmpParser::parse_private` alternates between the header and the payload parser
until a message is complete, more bytes are needed or the input is refused. Each
round of its loop is `ParserCore.round`; the rounds touch only the core of the
parser and the size of the acknowledgement window. `parse` adds the count of
received bytes, from which it decides when to acknowledge them.
-/

namespace Rtmp

/-- `RtmpParser::parsing_state`. -/
inductive ParserState where
  | headerParsing
  | payloadParsing
  | complete
  deriving DecidableEq, Repr

/-- The state of `RtmpParser` that decides what is parsed. `parsed_header_` is not
kept apart: it is the very object the header parser goes on writing to. -/
structure ParserCore where
  parsingState : ParserState := .headerParsing
  headerParser : RtmpHeaderParser := {}
  payloadParser : RtmpPayloadParser := {}
  parsedMsg : Option RtmpMessage := none

namespace ParserCore

open AMF0Serializer

/-- One round of the loop: what it returns, unless the loop goes on, and the window
size a WindowAcknowledgementSize message sets. -/
structure Round where
  returns : Option (Except Fault Tribool) := none
  core : ParserCore
  stream : List UInt8
  readedSize : Nat := 0
  winAckSize : Option UInt32 := none

def parsedHeader (p : ParserCore) : RtmpHeader := p.headerParser.parsedMsg

/-- What a completed message does to the parser itself. -/
def applyMessage (p : ParserCore) (body : MessageBody) : ParserCore × Option UInt32 :=
  match body with
  | .setChunkSize chunkSize =>
      ({ p with payloadParser := { p.payloadParser with recvChunkSize := chunkSize } }, none)
  | .windowAcknowledgementSize windowSize => (p, some windowSize)
  | _ => (p, none)

def headerRound (p : ParserCore) (stream : List UInt8) (bufSize : Nat) : Round :=
  if bufSize = 0 then { returns := some (.ok .indeterminate), core := p, stream }
  else
    let r := p.headerParser.parseHeader stream bufSize
    let p := { p with headerParser := r.parser }
    match r.result with
    | .true =>
        { core := { p with parsingState := .payloadParsing }, stream := r.stream,
          readedSize := r.readedSize }
    | .false => { returns := some (.ok .false), core := p, stream := r.stream }
    | .indeterminate => { returns := some (.ok .indeterminate), core := p, stream := r.stream }

def payloadRound (p : ParserCore) (uninit : Uninit) (stream : List UInt8) (bufSize : Nat) :
    Round :=
  if bufSize = 0 then { returns := some (.ok .indeterminate), core := p, stream }
  else
    let r := p.payloadParser.parsePayload uninit p.parsedHeader stream bufSize
    let p := { p with payloadParser := r.parser }
    match r.result with
    | .ok .complete =>
        let p := { p with parsedMsg := r.parser.parsedMsg, parsingState := .complete }
        match r.parser.parsedMsg with
        | some msg =>
            let (core, winAckSize) := p.applyMessage msg.body
            { core, stream := r.stream, readedSize := r.readedSize, winAckSize }
        | none => { returns := some (.error .nullMessage), core := p, stream := r.stream }
    | .ok .waitingNextChunk =>
        { core := { p with parsingState := .headerParsing }, stream := r.stream,
          readedSize := r.readedSize }
    | .ok .fail => { returns := some (.ok .false), core := p, stream := r.stream }
    | .ok .waitingMorePayloadData =>
        { returns := some (.ok .indeterminate), core := p, stream := r.stream }
    | .error fault => { returns := some (.error fault), core := p, stream := r.stream }

/-- One round of the loop of `parse_private`. -/
def round (p : ParserCore) (uninit : Uninit) (stream : List UInt8) (bufSize : Nat) : Round :=
  match p.parsingState with
  | .headerParsing => p.headerRound stream bufSize
  | .payloadParsing => p.payloadRound uninit stream bufSize
  | .complete =>
      { returns := some (.ok .true), core := { p with parsingState := .headerParsing }, stream }

theorem round_headerParsing {p : ParserCore} (h : p.parsingState = .headerParsing)
    (uninit : Uninit) (stream : List UInt8) (bufSize : Nat) :
    p.round uninit stream bufSize = p.headerRound stream bufSize := by
  rw [round, h]

theorem round_payloadParsing {p : ParserCore} (h : p.parsingState = .payloadParsing)
    (uninit : Uninit) (stream : List UInt8) (bufSize : Nat) :
    p.round uninit stream bufSize = p.payloadRound uninit stream bufSize := by
  rw [round, h]

/-- Steps that can still be taken without reading a byte. The header stages that
need none only ever occur in the middle of a header. -/
def weight (p : ParserCore) : Nat :=
  (match p.parsingState with
    | .headerParsing => 1
    | .complete => 2
    | .payloadParsing => 3) +
  (if p.headerParser.parsingState.size = 0 then 3 else 0)

def measure (p : ParserCore) (bufSize : Nat) : Nat := 7 * bufSize + p.weight

theorem headerRound_measure {p : ParserCore} {stream : List UInt8} {bufSize : Nat}
    (hp : p.parsingState = .headerParsing)
    (h : (p.headerRound stream bufSize).returns = none) :
    (p.headerRound stream bufSize).core.measure
        (bufSize - (p.headerRound stream bufSize).readedSize) < p.measure bufSize := by
  unfold headerRound at h ⊢
  split
  · simp_all
  · dsimp only
    split
    · rename_i hr
      obtain ⟨hstate, hlower, hupper, -⟩ := RtmpHeaderParser.parseHeader_true hr
      have hsize : (p.headerParser.parseHeader stream bufSize).parser.parsingState.size = 1 := by
        rw [hstate]
        rfl
      simp only [measure, weight, hsize, hp, Nat.one_ne_zero, ↓reduceIte]
      split <;> omega
    · simp_all
    · simp_all

theorem payloadRound_headerParser {p : ParserCore} (uninit : Uninit) (stream : List UInt8)
    (bufSize : Nat) :
    (p.payloadRound uninit stream bufSize).core.headerParser = p.headerParser := by
  unfold payloadRound
  split
  · rfl
  · dsimp only
    split
    · split
      · unfold applyMessage
        split <;> rfl
      · rfl
    all_goals rfl

/-- A chunk that has been read is off the stream. -/
theorem payloadRound_none {p : ParserCore} {uninit : Uninit} {stream : List UInt8}
    {bufSize : Nat} (h : (p.payloadRound uninit stream bufSize).returns = none) :
    (p.payloadRound uninit stream bufSize).core.parsingState ≠ .payloadParsing ∧
    (p.payloadRound uninit stream bufSize).stream =
      stream.drop (p.payloadRound uninit stream bufSize).readedSize ∧
    (p.payloadRound uninit stream bufSize).readedSize ≤ bufSize := by
  unfold payloadRound at h ⊢
  split
  · simp_all
  · dsimp only
    split
    · rename_i hr
      obtain ⟨hstream, hle⟩ := RtmpPayloadParser.parsePayload_stream (Or.inl hr)
      split
      · unfold applyMessage
        split <;> exact ⟨by simp, hstream, hle⟩
      · simp_all
    · rename_i hr
      obtain ⟨hstream, hle⟩ := RtmpPayloadParser.parsePayload_stream (Or.inr hr)
      exact ⟨by simp, hstream, hle⟩
    all_goals simp_all

/-- A payload round itself never reports a message. -/
theorem payloadRound_ne_true {p : ParserCore} {uninit : Uninit} {stream : List UInt8}
    {bufSize : Nat} : (p.payloadRound uninit stream bufSize).returns ≠ some (.ok .true) := by
  unfold payloadRound
  split
  · simp
  · dsimp only
    split
    · split <;> simp
    all_goals simp

/-- A payload round that waits leaves the stream as it is. -/
theorem payloadRound_indeterminate {p : ParserCore} {uninit : Uninit} {stream : List UInt8}
    {bufSize : Nat}
    (h : (p.payloadRound uninit stream bufSize).returns = some (.ok .indeterminate)) :
    (p.payloadRound uninit stream bufSize).stream = stream := by
  unfold payloadRound at h ⊢
  split
  · rfl
  · rename_i hne
    rw [if_neg hne] at h
    dsimp only at h ⊢
    split at h
    · split at h <;> simp at h
    · simp at h
    · simp at h
    · rename_i hr
      obtain ⟨recvInfo, p', hf, hlt⟩ := RtmpPayloadParser.parsePayload_waiting hr
      rw [RtmpPayloadParser.parsePayload_of_short hf hlt]
    · simp at h

/-- A payload round that does not wait is the same whatever follows. -/
theorem payloadRound_append {p : ParserCore} {uninit : Uninit} {stream : List UInt8}
    (more : List UInt8)
    (h : (p.payloadRound uninit stream stream.length).returns ≠ some (.ok .indeterminate)) :
    p.payloadRound uninit (stream ++ more) (stream ++ more).length =
      { p.payloadRound uninit stream stream.length with
        stream := (p.payloadRound uninit stream stream.length).stream ++ more } := by
  have hlen : stream.length ≠ 0 := by
    intro h0
    simp [payloadRound, h0] at h
  have hlen' : (stream ++ more).length ≠ 0 := by simp_all
  have hwait : (p.payloadParser.parsePayload uninit p.parsedHeader stream stream.length).result ≠
      .ok .waitingMorePayloadData := by
    intro hr
    simp [payloadRound, hlen, hr] at h
  unfold payloadRound
  rw [if_neg hlen, if_neg hlen', RtmpPayloadParser.parsePayload_append more hwait]
  dsimp only
  split
  · split <;> rfl
  all_goals rfl

theorem payloadRound_measure {p : ParserCore} {uninit : Uninit} {stream : List UInt8}
    {bufSize : Nat} (hp : p.parsingState = .payloadParsing)
    (h : (p.payloadRound uninit stream bufSize).returns = none) :
    (p.payloadRound uninit stream bufSize).core.measure
        (bufSize - (p.payloadRound uninit stream bufSize).readedSize) < p.measure bufSize := by
  have hheader := p.payloadRound_headerParser uninit stream bufSize
  obtain ⟨hstate, -, -⟩ := payloadRound_none h
  simp only [measure, weight, hheader, hp]
  split
  · omega
  · omega
  · contradiction

/-- A round after which the loop goes on brings its end closer. -/
theorem round_measure {p : ParserCore} {uninit : Uninit} {stream : List UInt8} {bufSize : Nat}
    (h : (p.round uninit stream bufSize).returns = none) :
    (p.round uninit stream bufSize).core.measure
        (bufSize - (p.round uninit stream bufSize).readedSize) < p.measure bufSize := by
  unfold round at h ⊢
  split
  · rename_i hp
    simp only [hp] at h
    exact headerRound_measure hp h
  · rename_i hp
    simp only [hp] at h
    exact payloadRound_measure hp h
  · rename_i hp
    simp [hp] at h

end ParserCore

structure RtmpParser extends ParserCore where
  readedBytesCount : UInt64 := 0
  winAckSize : UInt32 := 5000000
  nextAckSendSize : UInt64 := 5000000
  readBytesCountInWindow : UInt64 := 0

namespace RtmpParser

open AMF0Serializer

/-- What a call of `parse` or `parse_private` does. `pushed` are the messages it
puts on the send queue. -/
structure ParseCall where
  result : Except Fault Tribool
  parser : RtmpParser
  stream : List UInt8
  totalReadedSize : Nat
  pushed : List RtmpMessage := []

def setWinAckSize (p : RtmpParser) (size : UInt32) : RtmpParser :=
  { p with
    nextAckSendSize := p.nextAckSendSize - p.winAckSize.toUInt64 + size.toUInt64
    winAckSize := size }

/-- The parser after a round of the loop. -/
def afterRound (p : RtmpParser) (r : ParserCore.Round) : RtmpParser :=
  let p := { p with toParserCore := r.core }
  match r.winAckSize with
  | some size => p.setWinAckSize size
  | none => p

@[simp] theorem afterRound_core (p : RtmpParser) (r : ParserCore.Round) :
    (p.afterRound r).toParserCore = r.core := by
  unfold afterRound
  split <;> rfl

/-- `parse_private`: rounds until one of them returns. -/
def parsePrivate (p : RtmpParser) (uninit : Uninit) (stream : List UInt8) (bufSize : Nat)
    (totalReadedSize : Nat := 0) : ParseCall :=
  let r := p.round uninit stream bufSize
  match _hr : r.returns with
  | none =>
      (p.afterRound r).parsePrivate uninit r.stream (bufSize - r.readedSize)
        (totalReadedSize + r.readedSize)
  | some result => { result, parser := p.afterRound r, stream := r.stream, totalReadedSize }
termination_by p.measure bufSize
decreasing_by
  rw [afterRound_core]
  exact ParserCore.round_measure _hr

/-- The accounting `parse` does after `parse_private` has returned. -/
def countReaded (p : RtmpParser) (totalReadedSize : Nat) : RtmpParser × List RtmpMessage :=
  if 0 < totalReadedSize then
    let p := { p with readedBytesCount := p.readedBytesCount + UInt64.ofNat totalReadedSize }
    if p.nextAckSendSize ≤ p.readedBytesCount then
      ({ p with
          nextAckSendSize := p.readedBytesCount + p.winAckSize.toUInt64
          readBytesCountInWindow := 0 },
        [.acknowledgement p.winAckSize])
    else
      ({ p with
          readBytesCountInWindow := p.readBytesCountInWindow + UInt64.ofNat totalReadedSize },
        [])
  else (p, [])

/-- `RtmpParser::parse`. An exception passes the accounting by. -/
def parse (p : RtmpParser) (uninit : Uninit) (stream : List UInt8) (bufSize : Nat) :
    ParseCall :=
  let r := p.parsePrivate uninit stream bufSize
  match r.result with
  | .ok _ =>
      let (parser, pushed) := r.parser.countReaded r.totalReadedSize
      { r with parser, pushed }
  | .error _ => r

@[simp] theorem countReaded_core (p : RtmpParser) (n : Nat) :
    (p.countReaded n).1.toParserCore = p.toParserCore := by
  unfold countReaded
  split
  · dsimp only
    split <;> rfl
  · rfl

/-- `parse` takes over everything but the accounting from `parse_private`. -/
theorem parse_eq (p : RtmpParser) (uninit : Uninit) (stream : List UInt8) (bufSize : Nat) :
    (p.parse uninit stream bufSize).result = (p.parsePrivate uninit stream bufSize).result ∧
    (p.parse uninit stream bufSize).parser.toParserCore =
      (p.parsePrivate uninit stream bufSize).parser.toParserCore ∧
    (p.parse uninit stream bufSize).stream = (p.parsePrivate uninit stream bufSize).stream ∧
    (p.parse uninit stream bufSize).totalReadedSize =
      (p.parsePrivate uninit stream bufSize).totalReadedSize := by
  unfold parse
  dsimp only
  split <;> simp_all

theorem parsePrivate_of_none {p : RtmpParser} {uninit : Uninit} {stream : List UInt8}
    {bufSize total : Nat} (h : (p.round uninit stream bufSize).returns = none) :
    p.parsePrivate uninit stream bufSize total =
      (p.afterRound (p.round uninit stream bufSize)).parsePrivate uninit
        (p.round uninit stream bufSize).stream
        (bufSize - (p.round uninit stream bufSize).readedSize)
        (total + (p.round uninit stream bufSize).readedSize) := by
  rw [parsePrivate]
  split
  · rfl
  · simp_all

theorem parsePrivate_of_some {p : RtmpParser} {uninit : Uninit} {stream : List UInt8}
    {bufSize total : Nat} {result : Except Fault Tribool}
    (h : (p.round uninit stream bufSize).returns = some result) :
    p.parsePrivate uninit stream bufSize total =
      { result, parser := p.afterRound (p.round uninit stream bufSize),
        stream := (p.round uninit stream bufSize).stream, totalReadedSize := total } := by
  rw [parsePrivate]
  split
  · simp_all
  · simp_all

/-- Only a completed message makes the loop return true. -/
theorem round_true_state {p : ParserCore} {uninit : Uninit} {stream : List UInt8}
    {bufSize : Nat} (h : (p.round uninit stream bufSize).returns = some (.ok .true)) :
    p.parsingState = .complete := by
  unfold ParserCore.round at h
  split at h
  · unfold ParserCore.headerRound at h
    split at h
    · simp at h
    · dsimp only at h
      split at h <;> simp at h
  · exact absurd h ParserCore.payloadRound_ne_true
  · assumption

theorem round_complete {p : ParserCore} {uninit : Uninit} {stream : List UInt8} {bufSize : Nat}
    (h : p.parsingState = .complete) :
    p.round uninit stream bufSize =
      { returns := some (.ok .true), core := { p with parsingState := .headerParsing },
        stream } := by
  simp only [ParserCore.round, h]

/-- A call that delivers a message leaves less to do for the next one. -/
theorem parsePrivate_measure {p : RtmpParser} {uninit : Uninit} {stream : List UInt8}
    {bufSize total : Nat}
    (h : (p.parsePrivate uninit stream bufSize total).result = .ok .true) :
    total ≤ (p.parsePrivate uninit stream bufSize total).totalReadedSize ∧
    (p.parsePrivate uninit stream bufSize total).parser.measure
      (bufSize - ((p.parsePrivate uninit stream bufSize total).totalReadedSize - total)) <
        p.measure bufSize := by
  induction hn : p.measure bufSize using Nat.strongRecOn
      generalizing p stream bufSize total with
  | ind n ih =>
      cases hr : (p.round uninit stream bufSize).returns with
      | none =>
          have hlt := ParserCore.round_measure hr
          rw [parsePrivate_of_none hr] at h ⊢
          rw [← afterRound_core p] at hlt
          obtain ⟨hle, hmeasure⟩ := ih _ (hn ▸ hlt) h rfl
          refine ⟨by omega, ?_⟩
          rw [Nat.sub_sub] at hmeasure
          have hsub : (p.round uninit stream bufSize).readedSize +
              (((p.afterRound (p.round uninit stream bufSize)).parsePrivate uninit
                (p.round uninit stream bufSize).stream
                (bufSize - (p.round uninit stream bufSize).readedSize)
                (total + (p.round uninit stream bufSize).readedSize)).totalReadedSize -
                  (total + (p.round uninit stream bufSize).readedSize)) =
              ((p.afterRound (p.round uninit stream bufSize)).parsePrivate uninit
                (p.round uninit stream bufSize).stream
                (bufSize - (p.round uninit stream bufSize).readedSize)
                (total + (p.round uninit stream bufSize).readedSize)).totalReadedSize - total := by
            omega
          rw [hsub] at hmeasure
          omega
      | some result =>
          rw [parsePrivate_of_some hr] at h ⊢
          subst hn
          obtain rfl : result = .ok .true := h
          have hstate := round_true_state hr
          rw [round_complete hstate]
          simp [ParserCore.measure, ParserCore.weight, hstate]

theorem parse_measure {p : RtmpParser} {uninit : Uninit} {stream : List UInt8}
    {bufSize : Nat} (h : (p.parse uninit stream bufSize).result = .ok .true) :
    (p.parse uninit stream bufSize).parser.measure
      (bufSize - (p.parse uninit stream bufSize).totalReadedSize) < p.measure bufSize := by
  obtain ⟨hresult, hcore, -, htotal⟩ := p.parse_eq uninit stream bufSize
  rw [hresult] at h
  rw [hcore, htotal]
  exact (parsePrivate_measure h).2

end RtmpParser

end Rtmp
