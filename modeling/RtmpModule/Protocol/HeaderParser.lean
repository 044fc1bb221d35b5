import RtmpModule.Protocol.Header

/-!
# The resumable chunk header parser

`RtmpHeaderParser` reads a header in stages, each of which takes all of its
bytes or none. One header object serves the whole connection: a stage only
overwrites the fields it reads, so a format that omits a field leaves the value
of the previous chunk, whatever chunk stream that was on.
-/

namespace Rtmp

namespace RtmpHeaderParser

/-- `RtmpHeaderParser::parsing_state`. -/
inductive ParsingState where
  | basicHeader1byte
  | basicHeader2byte
  | basicHeader3byte
  | chunkMsgHeaderType0
  | chunkMsgHeaderType1
  | chunkMsgHeaderType2
  | chunkMsgHeaderType3
  | extendedTimestamp
  | complete
  deriving DecidableEq, Repr

/-- Stages that can still follow; every successful stage lowers it. -/
def ParsingState.rank : ParsingState → Nat
  | basicHeader1byte => 4
  | basicHeader2byte | basicHeader3byte => 3
  | chunkMsgHeaderType0 | chunkMsgHeaderType1 | chunkMsgHeaderType2 | chunkMsgHeaderType3 => 2
  | extendedTimestamp => 1
  | complete => 0

end RtmpHeaderParser

structure RtmpHeaderParser where
  parsingState : RtmpHeaderParser.ParsingState := .basicHeader1byte
  parsedMsg : RtmpHeader := {}
  deriving DecidableEq, Repr

namespace RtmpHeaderParser

open NetworkUtil Bytes StreamUtil

/-- What a parser call returns: the tribool, the object after the call, the
unread bytes and the `readed_size` it reports. -/
structure Result where
  result : Tribool
  parser : RtmpHeaderParser
  stream : List UInt8
  readedSize : Nat
  deriving DecidableEq, Repr

def getChunkHeaderParsingState (headerFormat : FormatType) : ParsingState :=
  match headerFormat with
  | .full => .chunkMsgHeaderType0
  | .sameStream => .chunkMsgHeaderType1
  | .sameLengthAndStream => .chunkMsgHeaderType2
  | .continuation => .chunkMsgHeaderType3
  | .unknown => .chunkMsgHeaderType0

/-- A stage that needs more bytes than are buffered changes nothing. -/
def needMore (p : RtmpHeaderParser) (stream : List UInt8) : Result :=
  { result := .indeterminate, parser := p, stream := stream, readedSize := 0 }

def parseBasicHeader1byte (p : RtmpHeaderParser) (stream : List UInt8) (bufSize : Nat) :
    Result :=
  if 1 ≤ bufSize then
    let (header1, stream) := readUchar stream
    let formatType := header1 >>> 6
    let csId := header1 &&& 0x3F
    let msg : RtmpHeader := { p.parsedMsg with formatType := FormatType.getType formatType }
    if msg.formatType = .unknown then
      { result := .false, parser := { p with parsedMsg := msg }, stream, readedSize := 0 }
    else
      let msg : RtmpHeader := { msg with chunkStreamId := csId.toUInt32 }
      let parsingState :=
        if csId = 0 then ParsingState.basicHeader2byte
        else if csId = 1 then .basicHeader3byte
        else getChunkHeaderParsingState msg.formatType
      { result := .true, parser := ⟨parsingState, msg⟩, stream, readedSize := 1 }
  else p.needMore stream

def parseBasicHeader2byte (p : RtmpHeaderParser) (stream : List UInt8) (bufSize : Nat) :
    Result :=
  if 1 ≤ bufSize then
    let (csIdMinus64, stream) := readUchar stream
    let msg : RtmpHeader := { p.parsedMsg with chunkStreamId := csIdMinus64.toUInt32 + 64 }
    { result := .true, parser := ⟨getChunkHeaderParsingState msg.formatType, msg⟩,
      stream, readedSize := 1 }
  else p.needMore stream

def parseBasicHeader3byte (p : RtmpHeaderParser) (stream : List UInt8) (bufSize : Nat) :
    Result :=
  if 2 ≤ bufSize then
    let (csIdField, stream) := readUshort stream
    let csIdLow := csIdField &&& 0xFF
    let csIdHigh := (csIdField &&& 0xFF00) >>> 8
    let csId := csIdHigh.toUInt32 * 256 + csIdLow.toUInt32 + 64
    let msg : RtmpHeader := { p.parsedMsg with chunkStreamId := csId }
    { result := .true, parser := ⟨getChunkHeaderParsingState msg.formatType, msg⟩,
      stream, readedSize := 2 }
  else p.needMore stream

/-- A 24-bit big-endian field read into a 32-bit integer. -/
def readUint3 (stream : List UInt8) : UInt32 × List UInt8 :=
  (UInt32.ofNat (ntoh3 (ofLE (stream.take 3))), stream.drop 3)

def parseChunkHeaderType0 (p : RtmpHeaderParser) (stream : List UInt8) (bufSize : Nat) :
    Result :=
  if 11 ≤ bufSize then
    let (timestamp, stream) := readUint3 stream
    let (msgLength, stream) := readUint3 stream
    let (msgTypeId, stream) := readUchar stream
    -- the message stream id is little-endian on the wire
    let msgStreamId := UInt32.ofNat (ofLE (stream.take 4))
    let stream := stream.drop 4
    let timestamp := if 0x00FFFFFF < timestamp then 0x00FFFFFF else timestamp
    let msg : RtmpHeader := { p.parsedMsg with
      timestamp, msgLength, msgTypeId := MsgTypeId.getId msgTypeId, msgStreamId }
    let parsingState :=
      if msg.timestamp = 0x00FFFFFF then ParsingState.extendedTimestamp else .complete
    if msg.msgTypeId = .unknown then
      { result := .false, parser := ⟨parsingState, msg⟩, stream, readedSize := 0 }
    else { result := .true, parser := ⟨parsingState, msg⟩, stream, readedSize := 11 }
  else p.needMore stream

def parseChunkHeaderType1 (p : RtmpHeaderParser) (stream : List UInt8) (bufSize : Nat) :
    Result :=
  if 7 ≤ bufSize then
    let (timestampDelta, stream) := readUint3 stream
    let (msgLength, stream) := readUint3 stream
    let (msgTypeId, stream) := readUchar stream
    let msg : RtmpHeader := { p.parsedMsg with
      timestampDelta, msgLength, msgTypeId := MsgTypeId.getId msgTypeId }
    let parsingState :=
      if msg.timestampDelta = 0x00FFFFFF then ParsingState.extendedTimestamp else .complete
    if msg.msgTypeId = .unknown then
      { result := .false, parser := ⟨parsingState, msg⟩, stream, readedSize := 0 }
    else { result := .true, parser := ⟨parsingState, msg⟩, stream, readedSize := 7 }
  else p.needMore stream

def parseChunkHeaderType2 (p : RtmpHeaderParser) (stream : List UInt8) (bufSize : Nat) :
    Result :=
  if 3 ≤ bufSize then
    let (timestampDelta, stream) := readUint3 stream
    let msg : RtmpHeader := { p.parsedMsg with timestampDelta }
    let parsingState :=
      if msg.timestampDelta = 0x00FFFFFF then ParsingState.extendedTimestamp else .complete
    { result := .true, parser := ⟨parsingState, msg⟩, stream, readedSize := 3 }
  else p.needMore stream

/-- A type 3 header has no bytes after the basic header, extended timestamp included. -/
def parseChunkHeaderType3 (p : RtmpHeaderParser) (stream : List UInt8) : Result :=
  { result := .true, parser := { p with parsingState := .complete }, stream, readedSize := 0 }

def parseExtendedTimestamp (p : RtmpHeaderParser) (stream : List UInt8) (bufSize : Nat) :
    Result :=
  if 4 ≤ bufSize then
    let (timestamp, stream) := readUint stream
    let done (msg : RtmpHeader) : Result :=
      { result := .true, parser := ⟨.complete, msg⟩, stream, readedSize := 4 }
    match p.parsedMsg.formatType with
    | .full => done { p.parsedMsg with timestamp }
    | .sameStream => done { p.parsedMsg with timestampDelta := timestamp }
    | .sameLengthAndStream => done { p.parsedMsg with timestampDelta := timestamp }
    | .continuation => { result := .false, parser := p, stream, readedSize := 0 }
    | .unknown => done p.parsedMsg
  else p.needMore stream

def parseInCurrentState (p : RtmpHeaderParser) (stream : List UInt8) (bufSize : Nat) :
    Result :=
  match p.parsingState with
  | .basicHeader1byte => p.parseBasicHeader1byte stream bufSize
  | .basicHeader2byte => p.parseBasicHeader2byte stream bufSize
  | .basicHeader3byte => p.parseBasicHeader3byte stream bufSize
  | .chunkMsgHeaderType0 => p.parseChunkHeaderType0 stream bufSize
  | .chunkMsgHeaderType1 => p.parseChunkHeaderType1 stream bufSize
  | .chunkMsgHeaderType2 => p.parseChunkHeaderType2 stream bufSize
  | .chunkMsgHeaderType3 => p.parseChunkHeaderType3 stream
  | .extendedTimestamp => p.parseExtendedTimestamp stream bufSize
  | .complete => { result := .true, parser := p, stream, readedSize := 0 }

/-- Bytes a stage takes when it succeeds. -/
def ParsingState.size : ParsingState → Nat
  | basicHeader1byte | basicHeader2byte => 1
  | basicHeader3byte => 2
  | chunkMsgHeaderType0 => 11
  | chunkMsgHeaderType1 => 7
  | chunkMsgHeaderType2 => 3
  | chunkMsgHeaderType3 | complete => 0
  | extendedTimestamp => 4

theorem rank_getChunkHeaderParsingState (f : FormatType) :
    (getChunkHeaderParsingState f).rank = 2 := by
  cases f <;> rfl

theorem readUint3_append {stream more : List UInt8} (h : 3 ≤ stream.length) :
    readUint3 (stream ++ more) = ((readUint3 stream).1, (readUint3 stream).2 ++ more) := by
  simp only [readUint3, List.take_append_of_le_length h, List.drop_append_of_le_length h]

@[simp] theorem readUint3_rest (stream : List UInt8) :
    (readUint3 stream).2 = stream.drop 3 := rfl

/-- Three bytes carry the low 24 bits of a field. -/
theorem readUint3_toBE (v : Nat) (rest : List UInt8) :
    readUint3 (toBE 3 v ++ rest) = (UInt32.ofNat (v % 2 ^ 24), rest) := by
  have hlen : (toBE 3 v).length = 3 := length_toBE 3 v
  have htop : ofLE (toBE 3 v ++ [0]) = ofLE (toBE 3 v) := by simp [ofLE_append]
  have hwidth : 256 ^ 3 = 2 ^ 24 := by norm_num
  rw [readUint3, List.take_left' hlen, List.drop_left' hlen, ← htop, ntoh3_ofLE hlen, ofBE_toBE,
    hwidth]

/-- How a stage of `size` bytes treats its stream: with too few bytes it waits
and changes nothing, with enough it decides from the bytes it takes, whatever
follows them, and on success hands over to a later stage. -/
structure Takes (size : Nat) (p : RtmpHeaderParser)
    (stage : List UInt8 → Nat → Result) : Prop where
  short : ∀ {stream bufSize}, bufSize < size → stage stream bufSize = p.needMore stream
  decides : ∀ {stream bufSize}, size ≤ bufSize → (stage stream bufSize).result ≠ .indeterminate
  consumes : ∀ {stream bufSize}, (stage stream bufSize).result = .true →
    (stage stream bufSize).readedSize = size ∧ (stage stream bufSize).stream = stream.drop size
  append : ∀ {stream more bufSize extra}, size ≤ bufSize → size ≤ stream.length →
    stage (stream ++ more) (bufSize + extra) =
      { stage stream bufSize with stream := (stage stream bufSize).stream ++ more }
  rank : ∀ {stream bufSize}, (stage stream bufSize).result = .true →
    (stage stream bufSize).parser.parsingState.rank < p.parsingState.rank

theorem Takes.of_eq {size : Nat} {p : RtmpHeaderParser} {f g : List UInt8 → Nat → Result}
    (h : Takes size p f) (heq : ∀ stream bufSize, g stream bufSize = f stream bufSize) :
    Takes size p g := by
  have hfg : g = f := funext fun stream => funext fun bufSize => heq stream bufSize
  rwa [hfg]

section Stages

variable (p : RtmpHeaderParser)

theorem parseBasicHeader1byte_takes (hs : p.parsingState = .basicHeader1byte) :
    Takes 1 p p.parseBasicHeader1byte where
  short h := by rw [parseBasicHeader1byte, if_neg (by omega)]
  decides h := by
    rw [parseBasicHeader1byte, if_pos h]
    dsimp only
    split <;> simp
  consumes := by
    intro stream bufSize
    rw [parseBasicHeader1byte]
    split
    · dsimp only
      split <;> simp
    · simp [needMore]
  append h hlen := by
    rw [parseBasicHeader1byte, parseBasicHeader1byte, if_pos (by omega), if_pos h,
      readUchar_append hlen]
    dsimp only
    split <;> rfl
  rank := by
    intro stream bufSize
    rw [parseBasicHeader1byte]
    split
    · dsimp only
      split
      · simp
      · intro _
        split
        · simp [hs, ParsingState.rank]
        · split
          · simp [hs, ParsingState.rank]
          · rw [hs, rank_getChunkHeaderParsingState]
            decide
    · simp [needMore]

theorem parseBasicHeader2byte_takes (hs : p.parsingState = .basicHeader2byte) :
    Takes 1 p p.parseBasicHeader2byte where
  short h := by rw [parseBasicHeader2byte, if_neg (by omega)]
  decides h := by simp [parseBasicHeader2byte, if_pos h]
  consumes := by
    intro stream bufSize
    rw [parseBasicHeader2byte]
    split <;> simp [needMore]
  append h hlen := by
    rw [parseBasicHeader2byte, parseBasicHeader2byte, if_pos (by omega), if_pos h,
      readUchar_append hlen]
  rank := by
    intro stream bufSize
    rw [parseBasicHeader2byte]
    split
    · intro _
      rw [hs, rank_getChunkHeaderParsingState]
      decide
    · simp [needMore]

theorem parseBasicHeader3byte_takes (hs : p.parsingState = .basicHeader3byte) :
    Takes 2 p p.parseBasicHeader3byte where
  short h := by rw [parseBasicHeader3byte, if_neg (by omega)]
  decides h := by simp [parseBasicHeader3byte, if_pos h]
  consumes := by
    intro stream bufSize
    rw [parseBasicHeader3byte]
    split <;> simp [needMore]
  append h hlen := by
    rw [parseBasicHeader3byte, parseBasicHeader3byte, if_pos (by omega), if_pos h,
      readUshort_append hlen]
  rank := by
    intro stream bufSize
    rw [parseBasicHeader3byte]
    split
    · intro _
      rw [hs, rank_getChunkHeaderParsingState]
      decide
    · simp [needMore]

theorem parseChunkHeaderType0_takes (hs : p.parsingState = .chunkMsgHeaderType0) :
    Takes 11 p p.parseChunkHeaderType0 where
  short h := by rw [parseChunkHeaderType0, if_neg (by omega)]
  decides h := by
    rw [parseChunkHeaderType0, if_pos h]
    dsimp only
    split <;> simp
  consumes := by
    intro stream bufSize
    rw [parseChunkHeaderType0]
    split
    · dsimp only
      split <;> simp
    · simp [needMore]
  append {stream more bufSize extra} h hlen := by
    have h3 : 3 ≤ (stream.drop 3).length := by simp; omega
    have h6 : 1 ≤ ((stream.drop 3).drop 3).length := by simp; omega
    have h7 : 4 ≤ (((stream.drop 3).drop 3).drop 1).length := by simp; omega
    rw [parseChunkHeaderType0, parseChunkHeaderType0, if_pos (by omega), if_pos h,
      readUint3_append (by omega : 3 ≤ stream.length)]
    simp only [readUint3_rest, readUint3_append h3, readUchar_rest, readUchar_append h6,
      List.take_append_of_le_length h7, List.drop_append_of_le_length h7]
    by_cases hu : MsgTypeId.getId (readUchar ((stream.drop 3).drop 3)).1 = .unknown
    · simp only [hu, ↓reduceIte]
    · simp only [hu, ↓reduceIte]
  rank := by
    intro stream bufSize
    rw [parseChunkHeaderType0]
    split
    · dsimp only
      split
      · simp
      · intro _
        split <;> (try split) <;> simp [hs, ParsingState.rank]
    · simp [needMore]

theorem parseChunkHeaderType1_takes (hs : p.parsingState = .chunkMsgHeaderType1) :
    Takes 7 p p.parseChunkHeaderType1 where
  short h := by rw [parseChunkHeaderType1, if_neg (by omega)]
  decides h := by
    rw [parseChunkHeaderType1, if_pos h]
    dsimp only
    split <;> simp
  consumes := by
    intro stream bufSize
    rw [parseChunkHeaderType1]
    split
    · dsimp only
      split <;> simp
    · simp [needMore]
  append {stream more bufSize extra} h hlen := by
    have h3 : 3 ≤ (stream.drop 3).length := by simp; omega
    have h6 : 1 ≤ ((stream.drop 3).drop 3).length := by simp; omega
    rw [parseChunkHeaderType1, parseChunkHeaderType1, if_pos (by omega), if_pos h,
      readUint3_append (by omega : 3 ≤ stream.length)]
    simp only [readUint3_rest, readUint3_append h3, readUchar_rest, readUchar_append h6]
    by_cases hu : MsgTypeId.getId (readUchar ((stream.drop 3).drop 3)).1 = .unknown
    · simp only [hu, ↓reduceIte]
    · simp only [hu, ↓reduceIte]
  rank := by
    intro stream bufSize
    rw [parseChunkHeaderType1]
    split
    · dsimp only
      split
      · simp
      · intro _
        split <;> simp [hs, ParsingState.rank]
    · simp [needMore]

theorem parseChunkHeaderType2_takes (hs : p.parsingState = .chunkMsgHeaderType2) :
    Takes 3 p p.parseChunkHeaderType2 where
  short h := by rw [parseChunkHeaderType2, if_neg (by omega)]
  decides h := by simp [parseChunkHeaderType2, if_pos h]
  consumes := by
    intro stream bufSize
    rw [parseChunkHeaderType2]
    split <;> simp [needMore]
  append h hlen := by
    rw [parseChunkHeaderType2, parseChunkHeaderType2, if_pos (by omega), if_pos h,
      readUint3_append hlen]
  rank := by
    intro stream bufSize
    rw [parseChunkHeaderType2]
    split
    · intro _
      dsimp only
      split <;> simp [hs, ParsingState.rank]
    · simp [needMore]

theorem parseChunkHeaderType3_takes (hs : p.parsingState = .chunkMsgHeaderType3) :
    Takes 0 p (fun stream _ => p.parseChunkHeaderType3 stream) where
  short h := absurd h (Nat.not_lt_zero _)
  decides _ := by simp [parseChunkHeaderType3]
  consumes _ := by simp [parseChunkHeaderType3]
  append _ _ := rfl
  rank _ := by simp [parseChunkHeaderType3, hs, ParsingState.rank]

theorem parseExtendedTimestamp_takes (hs : p.parsingState = .extendedTimestamp) :
    Takes 4 p p.parseExtendedTimestamp where
  short h := by rw [parseExtendedTimestamp, if_neg (by omega)]
  decides h := by
    rw [parseExtendedTimestamp, if_pos h]
    dsimp only
    split <;> simp
  consumes := by
    intro stream bufSize
    rw [parseExtendedTimestamp]
    split
    · dsimp only
      split <;> simp
    · simp [needMore]
  append h hlen := by
    rw [parseExtendedTimestamp, parseExtendedTimestamp, if_pos (by omega), if_pos h,
      readUint_append hlen]
    dsimp only
    split <;> rfl
  rank := by
    intro stream bufSize
    rw [parseExtendedTimestamp]
    split
    · dsimp only
      split <;> simp [hs, ParsingState.rank]
    · simp [needMore]

/-- The stage the parser is in behaves as its size says. -/
theorem parseInCurrentState_takes (hs : p.parsingState ≠ .complete) :
    Takes p.parsingState.size p p.parseInCurrentState := by
  cases h : p.parsingState with
  | basicHeader1byte =>
      exact (p.parseBasicHeader1byte_takes h).of_eq fun _ _ => by simp only [parseInCurrentState, h]
  | basicHeader2byte =>
      exact (p.parseBasicHeader2byte_takes h).of_eq fun _ _ => by simp only [parseInCurrentState, h]
  | basicHeader3byte =>
      exact (p.parseBasicHeader3byte_takes h).of_eq fun _ _ => by simp only [parseInCurrentState, h]
  | chunkMsgHeaderType0 =>
      exact (p.parseChunkHeaderType0_takes h).of_eq fun _ _ => by simp only [parseInCurrentState, h]
  | chunkMsgHeaderType1 =>
      exact (p.parseChunkHeaderType1_takes h).of_eq fun _ _ => by simp only [parseInCurrentState, h]
  | chunkMsgHeaderType2 =>
      exact (p.parseChunkHeaderType2_takes h).of_eq fun _ _ => by simp only [parseInCurrentState, h]
  | chunkMsgHeaderType3 =>
      exact (p.parseChunkHeaderType3_takes h).of_eq fun _ _ => by simp only [parseInCurrentState, h]
  | extendedTimestamp =>
      exact (p.parseExtendedTimestamp_takes h).of_eq fun _ _ => by
        simp only [parseInCurrentState, h]
  | complete => exact absurd h hs

end Stages

/-- `RtmpHeaderParser::parse_header`. Only a completed header reports through
`total_readed_size` all the bytes taken; the caller drops the count otherwise. -/
def parseHeader (p : RtmpHeaderParser) (stream : List UInt8) (bufSize : Nat)
    (totalReadedSize : Nat := 0) : Result :=
  if _hc : p.parsingState = .complete then
    { result := .true, parser := { p with parsingState := .basicHeader1byte }, stream,
      readedSize := totalReadedSize }
  else
    let r := p.parseInCurrentState stream bufSize
    if _hr : r.result = .true then
      r.parser.parseHeader r.stream (bufSize - r.readedSize) (totalReadedSize + r.readedSize)
    else { r with readedSize := totalReadedSize }
termination_by p.parsingState.rank
decreasing_by exact (p.parseInCurrentState_takes ‹_›).rank ‹_›

section ParseHeader

variable {p : RtmpHeaderParser} {stream more : List UInt8} {bufSize total : Nat}

theorem parseHeader_of_complete (hc : p.parsingState = .complete) :
    p.parseHeader stream bufSize total =
      { result := .true, parser := { p with parsingState := .basicHeader1byte }, stream,
        readedSize := total } := by
  rw [parseHeader, dif_pos hc]

theorem parseHeader_of_true (hc : p.parsingState ≠ .complete)
    (hr : (p.parseInCurrentState stream bufSize).result = .true) :
    p.parseHeader stream bufSize total =
      (p.parseInCurrentState stream bufSize).parser.parseHeader
        (stream.drop p.parsingState.size) (bufSize - p.parsingState.size)
        (total + p.parsingState.size) := by
  obtain ⟨hsize, hstream⟩ := (p.parseInCurrentState_takes hc).consumes hr
  rw [parseHeader, dif_neg hc, dif_pos hr, hsize, hstream]

theorem parseHeader_of_ne_true (hc : p.parsingState ≠ .complete)
    (hr : (p.parseInCurrentState stream bufSize).result ≠ .true) :
    p.parseHeader stream bufSize total =
      { p.parseInCurrentState stream bufSize with readedSize := total } := by
  rw [parseHeader, dif_neg hc, dif_neg hr]

/-- A successful stage had its bytes. -/
theorem size_le_of_true (hc : p.parsingState ≠ .complete)
    (hr : (p.parseInCurrentState stream bufSize).result = .true) :
    p.parsingState.size ≤ bufSize := by
  by_contra hlt
  rw [(p.parseInCurrentState_takes hc).short (by omega)] at hr
  simp [needMore] at hr

/-- A completed header: the parser is back at its first stage, and the reported
size is exactly what went from the stream. -/
theorem parseHeader_true (h : (p.parseHeader stream bufSize total).result = .true) :
    (p.parseHeader stream bufSize total).parser.parsingState = .basicHeader1byte ∧
    total + p.parsingState.size ≤ (p.parseHeader stream bufSize total).readedSize ∧
    (p.parseHeader stream bufSize total).readedSize ≤ total + bufSize ∧
    (p.parseHeader stream bufSize total).stream =
      stream.drop ((p.parseHeader stream bufSize total).readedSize - total) := by
  induction hn : p.parsingState.rank using Nat.strongRecOn generalizing p stream bufSize total with
  | ind n ih =>
      by_cases hc : p.parsingState = .complete
      · rw [parseHeader_of_complete hc]
        simp [hc, ParsingState.size]
      · by_cases hr : (p.parseInCurrentState stream bufSize).result = .true
        · have hrank := (p.parseInCurrentState_takes hc).rank hr
          have hsize := size_le_of_true hc hr
          rw [parseHeader_of_true hc hr] at h ⊢
          obtain ⟨hstate, hlower, hupper, hstream⟩ := ih _ (hn ▸ hrank) h rfl
          refine ⟨hstate, by omega, by omega, ?_⟩
          rw [hstream, List.drop_drop]
          congr 1
          omega
        · rw [parseHeader_of_ne_true hc hr] at h
          exact absurd h hr

end ParseHeader

end RtmpHeaderParser

end Rtmp
