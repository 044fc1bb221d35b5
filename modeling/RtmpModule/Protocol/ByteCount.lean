import RtmpModule.Protocol.AckWindow
import RtmpModule.Protocol.ParserSafety

/-!
# The count of received bytes

The bytes of a chunk header are taken from the stream stage by stage, but `parse_header`
reports them only when the header is complete, and a call that runs out of bytes in the
middle of one drops what it has taken. Where a header ends shows in its bytes, so it
shows in the bytes of a call whether it is cut. The count is exact in a run as long as
no call gets to a cut header.
-/

namespace Rtmp

open AMF0Serializer RtmpHeaderParser

/-- The bytes of an extended timestamp, given the bytes from the timestamp field on. -/
def extendedTimestampSize (stream : List UInt8) : Nat :=
  if (readUint3 stream).1 = 0x00FFFFFF then 4 else 0

/-- The bytes of a message header of a format, with its extended timestamp. -/
def messageHeaderSize (formatType : FormatType) (stream : List UInt8) : Nat :=
  match formatType with
  | .continuation => 0
  | format => (getChunkHeaderParsingState format).size + extendedTimestampSize stream

/-- The bytes of the chunk header that starts with the first byte of a stream. -/
def chunkHeaderSize : List UInt8 → Nat
  | [] => 1
  | first :: rest =>
      let formatType := FormatType.getType (first >>> 6)
      let csId := first &&& 0x3F
      if csId = 0 then 2 + messageHeaderSize formatType (rest.drop 1)
      else if csId = 1 then 3 + messageHeaderSize formatType (rest.drop 2)
      else 1 + messageHeaderSize formatType rest

/-- The stream ends inside the chunk header it starts with. -/
def EndsInHeader (stream : List UInt8) : Prop :=
  stream ≠ [] ∧ stream.length < chunkHeaderSize stream

instance (stream : List UInt8) : Decidable (EndsInHeader stream) :=
  inferInstanceAs (Decidable (_ ∧ _))

namespace RtmpHeaderParser

variable {p : RtmpHeaderParser} {stream : List UInt8} {total : Nat}

/-- A 24-bit field. -/
theorem readUint3_le (stream : List UInt8) : ¬ 0x00FFFFFF < (readUint3 stream).1 := by
  have hntoh4 : NetworkUtil.ntoh4 (Bytes.ofLE (stream.take 3)) < 256 ^ 4 := by
    have hlt := Bytes.ofBE_lt (Bytes.toLE 4 (Bytes.ofLE (stream.take 3)))
    rwa [Bytes.length_toLE] at hlt
  have hntoh3 : NetworkUtil.ntoh3 (Bytes.ofLE (stream.take 3)) < 2 ^ 24 := by
    rw [NetworkUtil.ntoh3]
    omega
  rw [UInt32.lt_iff_toNat_lt, readUint3, UInt32.toNat_ofNat', Nat.mod_eq_of_lt (by omega)]
  show ¬ 2 ^ 24 - 1 < _
  omega

/-- A parser that still needs `size` bytes of a header waits when they are not all there. -/
def NeedsMore (p : RtmpHeaderParser) (stream : List UInt8) (size : Nat) : Prop :=
  ∀ total, (p.parseHeader stream stream.length total).result ≠ .false →
    ((p.parseHeader stream stream.length total).result = .indeterminate ↔ stream.length < size)

theorem needsMore_complete (hc : p.parsingState = .complete) : p.NeedsMore stream 0 := by
  intro total _
  rw [parseHeader_of_complete hc]
  simp

/-- A stage hands what it needs over to the next one. -/
theorem needsMore_stage {size : Nat} (hc : p.parsingState ≠ .complete)
    (hnext : (p.parseInCurrentState stream stream.length).result = .true →
      (p.parseInCurrentState stream stream.length).parser.NeedsMore
        (stream.drop p.parsingState.size) size) :
    p.NeedsMore stream (p.parsingState.size + size) := by
  intro total hresult
  have htakes := p.parseInCurrentState_takes hc
  by_cases hlt : stream.length < p.parsingState.size
  · have hshort : p.parseInCurrentState stream stream.length = p.needMore stream :=
      htakes.short hlt
    have hne : (p.parseInCurrentState stream stream.length).result ≠ .true := by
      rw [hshort]
      simp [needMore]
    rw [parseHeader_of_ne_true hc hne, hshort]
    simp only [needMore, true_iff]
    omega
  · by_cases htrue : (p.parseInCurrentState stream stream.length).result = .true
    · have hrec := @parseHeader_of_true p stream stream.length total hc htrue
      rw [← List.length_drop] at hrec
      rw [hrec] at hresult ⊢
      rw [hnext htrue _ hresult, List.length_drop]
      omega
    · -- the stage has its bytes and refuses them
      rw [parseHeader_of_ne_true hc htrue] at hresult
      have hdecides : (p.parseInCurrentState stream stream.length).result ≠ .indeterminate :=
        htakes.decides (Nat.le_of_not_lt hlt)
      cases hr : (p.parseInCurrentState stream stream.length).result with
      | true => exact absurd hr htrue
      | false => exact absurd hr hresult
      | indeterminate => exact absurd hr hdecides

theorem needsMore_extended (hs : p.parsingState = .extendedTimestamp) : p.NeedsMore stream 4 := by
  have hstage := @needsMore_stage p stream 0 (by simp [hs]) (by
    intro htrue
    apply needsMore_complete
    revert htrue
    simp only [parseInCurrentState, hs]
    rw [parseExtendedTimestamp]
    split
    · dsimp only
      split <;> simp
    · simp [needMore])
  rwa [hs] at hstage

/-- After the timestamp field comes the extended timestamp, or the header is complete. -/
theorem needsMore_timestamp {q : RtmpHeaderParser} {rest : List UInt8} {timestamp : UInt32}
    (hstate : q.parsingState =
      if timestamp = 0x00FFFFFF then .extendedTimestamp else .complete) :
    q.NeedsMore rest (if timestamp = 0x00FFFFFF then 4 else 0) := by
  split
  · rename_i h
    rw [if_pos h] at hstate
    exact needsMore_extended hstate
  · rename_i h
    rw [if_neg h] at hstate
    exact needsMore_complete hstate

/-- The stages that read a timestamp field hand over by what it holds. -/
theorem timestampStage_next
    (hs : p.parsingState = .chunkMsgHeaderType0 ∨ p.parsingState = .chunkMsgHeaderType1 ∨
      p.parsingState = .chunkMsgHeaderType2)
    (htrue : (p.parseInCurrentState stream stream.length).result = .true) :
    (p.parseInCurrentState stream stream.length).parser.parsingState =
      if (readUint3 stream).1 = 0x00FFFFFF then .extendedTimestamp else .complete := by
  revert htrue
  rcases hs with hs | hs | hs
  · simp only [parseInCurrentState, hs]
    rw [parseChunkHeaderType0]
    split
    · dsimp only
      rw [if_neg (readUint3_le stream)]
      split <;> simp
    · simp [needMore]
  · simp only [parseInCurrentState, hs]
    rw [parseChunkHeaderType1]
    split
    · dsimp only
      split <;> simp
    · simp [needMore]
  · simp only [parseInCurrentState, hs]
    rw [parseChunkHeaderType2]
    split <;> simp [needMore]

theorem needsMore_timestampStage
    (hs : p.parsingState = .chunkMsgHeaderType0 ∨ p.parsingState = .chunkMsgHeaderType1 ∨
      p.parsingState = .chunkMsgHeaderType2) :
    p.NeedsMore stream (p.parsingState.size + extendedTimestampSize stream) := by
  apply needsMore_stage
  · rcases hs with hs | hs | hs <;> simp [hs]
  · intro htrue
    exact needsMore_timestamp (timestampStage_next hs htrue)

/-- The message header of a format. -/
theorem needsMore_message
    (hs : p.parsingState = getChunkHeaderParsingState p.parsedMsg.formatType) :
    p.NeedsMore stream (messageHeaderSize p.parsedMsg.formatType stream) := by
  cases hformat : p.parsedMsg.formatType with
  | full =>
      rw [hformat] at hs
      have hstage := @needsMore_timestampStage p stream (.inl hs)
      rwa [hs] at hstage
  | unknown =>
      rw [hformat] at hs
      have hstage := @needsMore_timestampStage p stream (.inl hs)
      rwa [hs] at hstage
  | sameStream =>
      rw [hformat] at hs
      have hstage := @needsMore_timestampStage p stream (.inr (.inl hs))
      rwa [hs] at hstage
  | sameLengthAndStream =>
      rw [hformat] at hs
      have hstage := @needsMore_timestampStage p stream (.inr (.inr hs))
      rwa [hs] at hstage
  | continuation =>
      rw [hformat] at hs
      have hs : p.parsingState = .chunkMsgHeaderType3 := hs
      have hstage := @needsMore_stage p stream 0 (by simp [hs]) (by
        intro _
        apply needsMore_complete
        simp only [parseInCurrentState, hs]
        rfl)
      rwa [hs] at hstage

/-- A parser that has the whole basic header is in the stage of its format. -/
def AtMessage (p : RtmpHeaderParser) (formatType : FormatType) : Prop :=
  p.parsingState = getChunkHeaderParsingState p.parsedMsg.formatType ∧
    p.parsedMsg.formatType = formatType

theorem AtMessage.needsMore {formatType : FormatType} (h : p.AtMessage formatType) :
    p.NeedsMore stream (messageHeaderSize formatType stream) := by
  obtain ⟨hs, rfl⟩ := h
  exact needsMore_message hs

/-- The last stage of a basic header hands over to the message header. -/
theorem needsMore_basicHeader {formatType : FormatType} (hc : p.parsingState ≠ .complete)
    (hnext : (p.parseInCurrentState stream stream.length).result = .true →
      (p.parseInCurrentState stream stream.length).parser.AtMessage formatType) :
    p.NeedsMore stream
      (p.parsingState.size + messageHeaderSize formatType (stream.drop p.parsingState.size)) := by
  apply needsMore_stage hc
  intro htrue
  exact (hnext htrue).needsMore

theorem needsMore_basicHeader2byte (hs : p.parsingState = .basicHeader2byte) :
    p.NeedsMore stream (1 + messageHeaderSize p.parsedMsg.formatType (stream.drop 1)) := by
  have hstage := @needsMore_basicHeader p stream p.parsedMsg.formatType (by simp [hs]) (by
    simp only [parseInCurrentState, hs]
    rw [parseBasicHeader2byte]
    split
    · intro _
      exact ⟨rfl, rfl⟩
    · simp [needMore])
  rwa [hs] at hstage

theorem needsMore_basicHeader3byte (hs : p.parsingState = .basicHeader3byte) :
    p.NeedsMore stream (2 + messageHeaderSize p.parsedMsg.formatType (stream.drop 2)) := by
  have hstage := @needsMore_basicHeader p stream p.parsedMsg.formatType (by simp [hs]) (by
    simp only [parseInCurrentState, hs]
    rw [parseBasicHeader3byte]
    split
    · intro _
      exact ⟨rfl, rfl⟩
    · simp [needMore])
  rwa [hs] at hstage

theorem getType_ne_unknown : ∀ first : UInt8, FormatType.getType (first >>> 6) ≠ .unknown := by
  have hall : ∀ n : Fin 256, FormatType.getType (UInt8.ofNat n >>> 6) ≠ .unknown := by
    decide +kernel
  intro first
  have hfirst := hall ⟨first.toNat, first.toNat_lt⟩
  rwa [UInt8.ofNat_toNat] at hfirst

/-- The bytes of a basic header behind the first one. -/
def idSize (first : UInt8) : Nat :=
  if first &&& 0x3F = 0 then 1 else if first &&& 0x3F = 1 then 2 else 0

theorem chunkHeaderSize_cons (first : UInt8) (rest : List UInt8) :
    chunkHeaderSize (first :: rest) = 1 + (idSize first +
      messageHeaderSize (FormatType.getType (first >>> 6)) (rest.drop (idSize first))) := by
  rw [chunkHeaderSize, idSize]
  split
  · omega
  · split
    · omega
    · rw [List.drop_zero]
      omega

/-- The first byte of a header has its format and says how many bytes of an id follow. -/
theorem parseInCurrentState_firstByte (hs : p.parsingState = .basicHeader1byte) (first : UInt8)
    (rest : List UInt8) :
    p.parseInCurrentState (first :: rest) (first :: rest).length =
      { result := .true
        parser := ⟨
          if first &&& 0x3F = 0 then .basicHeader2byte
          else if first &&& 0x3F = 1 then .basicHeader3byte
          else getChunkHeaderParsingState (FormatType.getType (first >>> 6)),
          { p.parsedMsg with
            formatType := FormatType.getType (first >>> 6)
            chunkStreamId := (first &&& 0x3F).toUInt32 }⟩
        stream := rest
        readedSize := 1 } := by
  have hlength : 1 ≤ (first :: rest).length := by simp
  simp only [parseInCurrentState, hs, parseBasicHeader1byte, if_pos hlength,
    StreamUtil.readUchar_cons, if_neg (getType_ne_unknown first)]

/-- A fresh header needs the bytes its own bytes ask for. -/
theorem needsMore_header (hs : p.parsingState = .basicHeader1byte) :
    p.NeedsMore stream (chunkHeaderSize stream) := by
  cases stream with
  | nil =>
      have hstage := @needsMore_stage p [] 0 (by simp [hs]) (by
        simp only [parseInCurrentState, hs]
        intro htrue
        cases htrue)
      rwa [hs] at hstage
  | cons first rest =>
      have hfirst := parseInCurrentState_firstByte hs first rest
      have hstage := @needsMore_stage p (first :: rest) (idSize first +
        messageHeaderSize (FormatType.getType (first >>> 6)) (rest.drop (idSize first)))
        (by simp [hs]) (by
          rw [hfirst, hs]
          intro _
          show RtmpHeaderParser.NeedsMore _ rest _
          rw [idSize]
          split
          · exact needsMore_basicHeader2byte rfl
          · split
            · exact needsMore_basicHeader3byte rfl
            · rw [Nat.zero_add]
              exact AtMessage.needsMore ⟨rfl, rfl⟩)
      rw [chunkHeaderSize_cons]
      rwa [hs] at hstage

/-- A header that is cut has lost what its first stage took. -/
theorem parseHeader_cut (hc : p.parsingState ≠ .complete) (hpos : 0 < p.parsingState.size)
    (hle : p.parsingState.size ≤ stream.length)
    (h : (p.parseHeader stream stream.length total).result = .indeterminate) :
    (p.parseHeader stream stream.length total).stream.length < stream.length := by
  have htakes := p.parseInCurrentState_takes hc
  by_cases htrue : (p.parseInCurrentState stream stream.length).result = .true
  · rw [parseHeader_of_true hc htrue]
    obtain ⟨taken, -, hstream, -, -⟩ := @parseHeader_stream
      (p.parseInCurrentState stream stream.length).parser (stream.drop p.parsingState.size)
      (stream.length - p.parsingState.size) (total + p.parsingState.size)
    rw [hstream, List.length_drop, List.length_drop]
    omega
  · rw [parseHeader_of_ne_true hc htrue] at h
    exact absurd h (htakes.decides hle)

end RtmpHeaderParser

namespace ParserCore

variable {c : ParserCore} {uninit : Uninit} {stream : List UInt8}

/-- The header parser is not in the middle of a header. -/
def Fresh (c : ParserCore) : Prop := c.headerParser.parsingState = .basicHeader1byte

/-- A call of `parse_private` gets to a header that its bytes cut. -/
def CutsHeader (uninit : Uninit) (c : ParserCore) (stream : List UInt8) : Prop :=
  ∃ c' stream', Visits uninit c stream c' stream' ∧
    c'.parsingState = .headerParsing ∧ EndsInHeader stream'

/-- A header that is cut loses bytes. -/
theorem headerRound_cut (hfresh : c.Fresh)
    (hok : (c.headerRound stream stream.length).returns ≠ some (.ok .false))
    (hcut : EndsInHeader stream) :
    (c.headerRound stream stream.length).returns = some (.ok .indeterminate) ∧
      (c.headerRound stream stream.length).stream.length < stream.length := by
  obtain ⟨hne, hlt⟩ := hcut
  have hpos : 0 < stream.length := List.length_pos_iff.mpr hne
  have hneeds := @needsMore_header c.headerParser stream hfresh 0
  unfold headerRound at hok ⊢
  rw [if_neg (Nat.ne_of_gt hpos)] at hok ⊢
  dsimp only at hok ⊢
  cases hr : (c.headerParser.parseHeader stream stream.length).result with
  | true =>
      rw [hr] at hneeds
      have hwait := (hneeds (by simp)).mpr hlt
      cases hwait
  | false =>
      rw [hr] at hok
      exact absurd rfl hok
  | indeterminate =>
      refine ⟨rfl, parseHeader_cut ?_ ?_ ?_ hr⟩
      · rw [hfresh]
        simp
      · rw [hfresh]
        decide
      · rw [hfresh]
        exact hpos

/-- A header that is not cut is read. -/
theorem headerRound_whole (hfresh : c.Fresh) (hne : stream ≠ [])
    (hok : (c.headerRound stream stream.length).returns ≠ some (.ok .false))
    (hcut : ¬ EndsInHeader stream) :
    (c.headerRound stream stream.length).returns = none ∧
      (c.headerRound stream stream.length).core.Fresh := by
  have hpos : 0 < stream.length := List.length_pos_iff.mpr hne
  have hneeds := @needsMore_header c.headerParser stream hfresh 0
  unfold headerRound at hok ⊢
  rw [if_neg (Nat.ne_of_gt hpos)] at hok ⊢
  dsimp only at hok ⊢
  cases hr : (c.headerParser.parseHeader stream stream.length).result with
  | true => exact ⟨rfl, (parseHeader_true hr).1⟩
  | false =>
      rw [hr] at hok
      exact absurd rfl hok
  | indeterminate =>
      rw [hr] at hneeds
      exact absurd ⟨hne, (hneeds (by simp)).mp rfl⟩ hcut

/-- What a call that goes on cuts is cut later. -/
theorem cutsHeader_next (hfresh : c.Fresh)
    (hr : (c.round uninit stream stream.length).returns = none) :
    CutsHeader uninit c stream ↔
      CutsHeader uninit (c.round uninit stream stream.length).core
        (c.round uninit stream stream.length).stream := by
  constructor
  · rintro ⟨c', stream', hvisits, hstate, hcut⟩
    cases hvisits with
    | here =>
        rw [round_headerParsing hstate] at hr
        have hwait := (headerRound_cut hfresh (by simp [hr]) hcut).1
        rw [hr] at hwait
        cases hwait
    | next _ hvisits => exact ⟨c', stream', hvisits, hstate, hcut⟩
  · rintro ⟨c', stream', hvisits, hcut⟩
    exact ⟨c', stream', .next hr hvisits, hcut⟩

/-- What the last round cuts is the header it starts with. -/
theorem cutsHeader_last {result : Except Fault Tribool}
    (hr : (c.round uninit stream stream.length).returns = some result) :
    CutsHeader uninit c stream ↔ c.parsingState = .headerParsing ∧ EndsInHeader stream := by
  constructor
  · rintro ⟨c', stream', hvisits, hcut⟩
    cases hvisits with
    | here => exact hcut
    | next hnone _ =>
        rw [hr] at hnone
        cases hnone
  · intro hcut
    exact ⟨c, stream, .here c stream, hcut⟩

/-- A round after which the loop goes on ends between headers. -/
theorem round_fresh (hfresh : c.Fresh)
    (hr : (c.round uninit stream stream.length).returns = none) :
    (c.round uninit stream stream.length).core.Fresh := by
  cases hc : c.parsingState with
  | headerParsing =>
      rw [round_headerParsing hc] at hr ⊢
      have hne : stream ≠ [] := by
        rintro rfl
        cases hr
      have hcut : ¬ EndsInHeader stream := by
        intro hcut
        have hwait := (headerRound_cut hfresh (by simp [hr]) hcut).1
        rw [hr] at hwait
        cases hwait
      exact (headerRound_whole hfresh hne (by simp [hr]) hcut).2
  | payloadParsing =>
      rw [round_payloadParsing hc, Fresh, payloadRound_headerParser]
      exact hfresh
  | complete =>
      rw [RtmpParser.round_complete hc] at hr
      cases hr

/-- The last round of a call that does not fail keeps all the bytes unless it cuts a
header. -/
theorem round_last (hfresh : c.Fresh) {result : Tribool} (hne : result ≠ .false)
    (hr : (c.round uninit stream stream.length).returns = some (.ok result)) :
    (¬ CutsHeader uninit c stream →
      (c.round uninit stream stream.length).core.Fresh ∧
        (c.round uninit stream stream.length).stream = stream) ∧
    (CutsHeader uninit c stream →
      (c.round uninit stream stream.length).stream.length < stream.length) := by
  rw [cutsHeader_last hr]
  cases hc : c.parsingState with
  | headerParsing =>
      rw [round_headerParsing hc] at hr ⊢
      have hok : (c.headerRound stream stream.length).returns ≠ some (.ok .false) := by
        rw [hr]
        simpa using hne
      constructor
      · intro hcut
        by_cases hnil : stream = []
        · subst hnil
          exact ⟨hfresh, rfl⟩
        · have hwhole := (headerRound_whole hfresh hnil hok (fun h => hcut ⟨rfl, h⟩)).1
          rw [hr] at hwhole
          cases hwhole
      · rintro ⟨-, hcut⟩
        exact (headerRound_cut hfresh hok hcut).2
  | payloadParsing =>
      rw [round_payloadParsing hc] at hr ⊢
      constructor
      · intro _
        constructor
        · rw [Fresh, payloadRound_headerParser]
          exact hfresh
        · cases result with
          | true => exact absurd hr payloadRound_ne_true
          | false => exact absurd rfl hne
          | indeterminate => exact payloadRound_indeterminate hr
      · rintro ⟨hstate, -⟩
        cases hstate
  | complete =>
      rw [RtmpParser.round_complete hc]
      constructor
      · intro _
        exact ⟨hfresh, rfl⟩
      · rintro ⟨hstate, -⟩
        cases hstate

end ParserCore

namespace RtmpParser

variable {p : RtmpParser} {uninit : Uninit} {stream : List UInt8} {total : Nat}

/-- A call that does not fail counts all the bytes it takes unless it cuts a header. -/
theorem parsePrivate_counts (hfresh : p.Fresh) {result : Tribool} (hne : result ≠ .false)
    (h : (p.parsePrivate uninit stream stream.length total).result = .ok result) :
    (¬ p.CutsHeader uninit stream →
      (p.parsePrivate uninit stream stream.length total).parser.Fresh ∧
        (p.parsePrivate uninit stream stream.length total).totalReadedSize +
          (p.parsePrivate uninit stream stream.length total).stream.length =
            total + stream.length) ∧
    (p.CutsHeader uninit stream →
      (p.parsePrivate uninit stream stream.length total).totalReadedSize +
        (p.parsePrivate uninit stream stream.length total).stream.length <
          total + stream.length) := by
  induction hn : p.measure stream.length using Nat.strongRecOn generalizing p stream total with
  | ind n ih =>
      cases hr : (p.round uninit stream stream.length).returns with
      | none =>
          obtain ⟨hle, hlen⟩ := ParserCore.round_none_length hr
          have hlt := ParserCore.round_measure hr
          rw [← hlen] at hlt
          rw [parsePrivate_of_none hr, ← hlen] at h ⊢
          have hnext := @ih _ (hn ▸ hlt) (p.afterRound (p.round uninit stream stream.length))
            (p.round uninit stream stream.length).stream
            (total + (p.round uninit stream stream.length).readedSize)
            (by rw [afterRound_core]; exact ParserCore.round_fresh hfresh hr) h
            (by rw [afterRound_core])
          rw [afterRound_core, ← ParserCore.cutsHeader_next hfresh hr] at hnext
          have hsum : total + (p.round uninit stream stream.length).readedSize +
              (p.round uninit stream stream.length).stream.length = total + stream.length := by
            omega
          rwa [hsum] at hnext
      | some returned =>
          rw [parsePrivate_of_some hr] at h ⊢
          obtain rfl : returned = .ok result := h
          obtain ⟨hwhole, hcut⟩ := ParserCore.round_last hfresh hne hr
          constructor
          · intro h
            obtain ⟨hfresh', hstream⟩ := hwhole h
            exact ⟨by rw [afterRound_core]; exact hfresh', by rw [hstream]⟩
          · intro h
            exact Nat.add_lt_add_left (hcut h) total

theorem countReaded_readedBytesCount (n : Nat) :
    (p.countReaded n).1.readedBytesCount = p.readedBytesCount + UInt64.ofNat n := by
  unfold countReaded
  split
  · dsimp only
    split <;> rfl
  · rename_i hzero
    obtain rfl : n = 0 := Nat.eq_zero_of_not_pos hzero
    exact (UInt64.add_zero _).symm

theorem parse_readedBytesCount {result : Tribool}
    (h : (p.parse uninit stream stream.length).result = .ok result) :
    (p.parse uninit stream stream.length).parser.readedBytesCount =
      p.readedBytesCount +
        UInt64.ofNat (p.parsePrivate uninit stream stream.length).totalReadedSize := by
  rw [parse_of_ok h, countReaded_readedBytesCount, Windowed.readedBytesCount_parsePrivate]

end RtmpParser

/-- The parser of a connection, the bytes it has left unread and how many all calls have
taken from the stream. -/
structure Receiving where
  parser : RtmpParser := {}
  unread : List UInt8 := []
  taken : Nat := 0

namespace Receiving

/-- A call of `parse` with the bytes that have arrived, which can be none. A call that fails
or throws is the last. -/
def read (uninit : Uninit) (s : Receiving) (bytes : List UInt8) :
    Except (Option Fault) Receiving :=
  let stream := s.unread ++ bytes
  let r := s.parser.parse uninit stream stream.length
  match r.result with
  | .error fault => .error (some fault)
  | .ok .false => .error none
  | .ok _ => .ok
      { parser := r.parser, unread := r.stream
        taken := s.taken + (stream.length - r.stream.length) }

def run (uninit : Uninit) (reads : List (List UInt8)) : Except (Option Fault) Receiving :=
  History.run (read uninit) {} reads

/-- The count is the number of bytes taken from the stream. -/
def Exact (s : Receiving) : Prop := s.parser.readedBytesCount.toNat = s.taken

/-- After the calls `before`, the next one does not get to a header that its bytes cut. -/
def WholeHeaders (uninit : Uninit) (before : List (List UInt8)) (bytes : List UInt8) : Prop :=
  ∀ s, run uninit before = .ok s → ¬ s.parser.CutsHeader uninit (s.unread ++ bytes)

variable {uninit : Uninit} {s s' : Receiving} {bytes : List UInt8}

theorem read_ok (h : s.read uninit bytes = .ok s') :
    ∃ result, result ≠ .false ∧
      (s.parser.parse uninit (s.unread ++ bytes) (s.unread ++ bytes).length).result = .ok result ∧
      s' =
        { parser := (s.parser.parse uninit (s.unread ++ bytes)
            (s.unread ++ bytes).length).parser
          unread := (s.parser.parse uninit (s.unread ++ bytes)
            (s.unread ++ bytes).length).stream
          taken := s.taken + ((s.unread ++ bytes).length -
            (s.parser.parse uninit (s.unread ++ bytes)
              (s.unread ++ bytes).length).stream.length) } := by
  unfold read at h
  dsimp only at h
  split at h
  · cases h
  · cases h
  · rename_i result hne hresult
    cases h
    exact ⟨result, fun hfalse => hne (hfalse ▸ rfl), hresult, rfl⟩

/-- A call between headers counts what it takes, or less when it cuts one. -/
theorem read_counts (hfresh : s.parser.Fresh) (h : s.read uninit bytes = .ok s') :
    ∃ n, s'.parser.readedBytesCount = s.parser.readedBytesCount + UInt64.ofNat n ∧
      (¬ s.parser.CutsHeader uninit (s.unread ++ bytes) →
        s'.parser.Fresh ∧ s'.taken = s.taken + n) ∧
      (s.parser.CutsHeader uninit (s.unread ++ bytes) → s.taken + n < s'.taken) := by
  obtain ⟨result, hne, hresult, rfl⟩ := read_ok h
  have hcount := RtmpParser.parse_readedBytesCount hresult
  obtain ⟨hsame, hcore, hstream, -⟩ := s.parser.parse_eq uninit (s.unread ++ bytes)
    (s.unread ++ bytes).length
  rw [hsame] at hresult
  have hcounts := RtmpParser.parsePrivate_counts hfresh hne hresult
  rw [Nat.zero_add] at hcounts
  refine ⟨_, hcount, ?_, ?_⟩
  · intro hcut
    obtain ⟨hfresh', hsum⟩ := hcounts.1 hcut
    dsimp only
    rw [hcore, hstream]
    exact ⟨hfresh', by omega⟩
  · intro hcut
    have hlt := hcounts.2 hcut
    dsimp only
    rw [hstream]
    omega

theorem taken_le {reads : List (List UInt8)} (h : History.run (read uninit) s reads = .ok s') :
    s.taken ≤ s'.taken := by
  refine @History.run_invariant _ _ _ _ (fun t => s.taken ≤ t.taken) ?_ s s' reads le_rfl h
  intro s₁ bytes s₂ hle hread
  obtain ⟨result, -, -, rfl⟩ := read_ok hread
  exact Nat.le_trans hle (Nat.le_add_right _ _)

/-- Without a cut the run stays between headers and counts what it takes. -/
theorem run_whole {reads : List (List UInt8)} (h : run uninit reads = .ok s)
    (hwhole : History.Lawful (WholeHeaders uninit) reads) :
    s.parser.Fresh ∧ s.parser.readedBytesCount = UInt64.ofNat s.taken := by
  have hkept : ∀ (before : List (List UInt8)) (bytes : List UInt8) (s s' : Receiving),
      run uninit before = .ok s →
      s.parser.Fresh ∧ s.parser.readedBytesCount = UInt64.ofNat s.taken →
      WholeHeaders uninit before bytes → read uninit s bytes = .ok s' →
        s'.parser.Fresh ∧ s'.parser.readedBytesCount = UInt64.ofNat s'.taken := by
    rintro before bytes s s' hbefore ⟨hfresh, hcount⟩ hnext hlast
    obtain ⟨n, hadd, hkeep, -⟩ := read_counts hfresh hlast
    obtain ⟨hfresh', htaken⟩ := hkeep (hnext s hbefore)
    exact ⟨hfresh', by rw [hadd, hcount, htaken, UInt64.ofNat_add]⟩
  have hcounts := History.run_lawful ⟨rfl, rfl⟩ hkept hwhole h
  exact hcounts

end Receiving

section ByteCount

variable (uninit : Uninit)

/-- In a run of calls that do not fail, the count is the number of bytes taken after every
call exactly when no call gets to a chunk header that its bytes cut and fewer than 2^64 bytes
are taken. -/
theorem readed_bytes_count_iff (reads : List (List UInt8)) (s : Receiving)
    (hrun : Receiving.run uninit reads = .ok s) :
    (∀ before after s₁, reads = before ++ after → Receiving.run uninit before = .ok s₁ →
      s₁.Exact) ↔
      History.Lawful (Receiving.WholeHeaders uninit) reads ∧ s.taken < 2 ^ 64 := by
  constructor
  · intro hexact
    constructor
    · induction reads using List.reverseRecOn generalizing s with
      | nil => exact History.lawful_nil
      | append_singleton reads bytes ih =>
          obtain ⟨s₁, hreads, hlast⟩ := History.run_concat_ok.mp hrun
          have hwhole := ih s₁ hreads fun before after s₂ hsplit hbefore =>
            hexact before (after ++ [bytes]) s₂ (by rw [hsplit, List.append_assoc]) hbefore
          refine History.lawful_concat.mpr ⟨hwhole, ?_⟩
          intro s₂ hs₂ hcut
          obtain rfl : s₁ = s₂ := Except.ok.inj (hreads.symm.trans hs₂)
          obtain ⟨hfresh, -⟩ := Receiving.run_whole hreads hwhole
          obtain ⟨n, hadd, -, hlost⟩ := Receiving.read_counts hfresh hlast
          -- the count has grown by less than what was taken
          have hbefore : s₁.parser.readedBytesCount.toNat = s₁.taken :=
            hexact reads [bytes] s₁ rfl hreads
          have hafter : s.parser.readedBytesCount.toNat = s.taken :=
            hexact (reads ++ [bytes]) [] s (List.append_nil _).symm hrun
          have hle : s.parser.readedBytesCount.toNat ≤ s₁.taken + n := by
            rw [hadd, UInt64.toNat_add, hbefore, UInt64.toNat_ofNat']
            omega
          have hlt := hlost hcut
          omega
    · have hlast : s.parser.readedBytesCount.toNat = s.taken :=
        hexact reads [] s (List.append_nil _).symm hrun
      rw [← hlast]
      exact s.parser.readedBytesCount.toNat_lt
  · rintro ⟨hwhole, hlt⟩ before after s₁ rfl hbefore
    obtain ⟨hwhole, -⟩ := History.lawful_append.mp hwhole
    obtain ⟨-, hcount⟩ := Receiving.run_whole hbefore hwhole
    obtain ⟨s₂, hs₂, hafter⟩ := History.run_append_ok.mp hrun
    obtain rfl : s₁ = s₂ := Except.ok.inj (hbefore.symm.trans hs₂)
    have hle := Receiving.taken_le hafter
    rw [Receiving.Exact, hcount, UInt64.toNat_ofNat']
    omega

/-- A WindowAcknowledgementSize message. -/
def windowMessage : List UInt8 := [0x02, 0, 0, 0, 0, 0, 4, 0x05, 0, 0, 0, 0, 0, 0x4C, 0x4B, 0x40]

/-- The message in one piece. -/
theorem windowMessage_whole :
    ∃ s, Receiving.run (fun _ => 0) [windowMessage] = .ok s ∧
      History.Lawful (Receiving.WholeHeaders (fun _ => 0)) [windowMessage] := by
  obtain ⟨s, hs⟩ : ∃ s, Receiving.run (fun _ => 0) [windowMessage] = .ok s :=
    History.exists_ok (by decide +kernel)
  have hview : (Receiving.run (fun _ => 0) [windowMessage]).toOption.map
      (fun s => (s.parser.readedBytesCount, s.taken)) = some (16, 16) := by
    decide +kernel
  rw [hs] at hview
  simp only [Except.toOption, Option.map_some, Option.some.injEq, Prod.mk.injEq] at hview
  obtain ⟨hcount, htaken⟩ := hview
  refine ⟨s, hs, ((readed_bytes_count_iff (fun _ => 0) [windowMessage] s hs).mp ?_).1⟩
  intro before after s₁ hsplit hbefore
  cases before with
  | nil =>
      cases hbefore
      rfl
  | cons bytes before =>
      obtain ⟨rfl, hrest⟩ := List.cons.inj hsplit
      obtain ⟨rfl, rfl⟩ := List.append_eq_nil_iff.mp hrest.symm
      obtain rfl : s = s₁ := Except.ok.inj (hs.symm.trans hbefore)
      rw [Receiving.Exact, hcount, htaken]
      rfl

/-- The message cut behind its first byte, which is never counted. -/
theorem readed_bytes_count_cut :
    ∃ s, Receiving.run (fun _ => 0) [windowMessage.take 1, windowMessage.drop 1] = .ok s ∧
      ¬ s.Exact := by
  obtain ⟨s, hs⟩ : ∃ s, Receiving.run (fun _ => 0)
      [windowMessage.take 1, windowMessage.drop 1] = .ok s :=
    History.exists_ok (by decide +kernel)
  have hview : (Receiving.run (fun _ => 0)
      [windowMessage.take 1, windowMessage.drop 1]).toOption.map
        (fun s => (s.parser.readedBytesCount, s.taken)) = some (15, 16) := by
    decide +kernel
  rw [hs] at hview
  simp only [Except.toOption, Option.map_some, Option.some.injEq, Prod.mk.injEq] at hview
  obtain ⟨hcount, htaken⟩ := hview
  refine ⟨s, hs, ?_⟩
  rw [Receiving.Exact, hcount, htaken]
  decide

end ByteCount

end Rtmp
