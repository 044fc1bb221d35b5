import RtmpModule.Protocol.ByteCount
import RtmpModule.Protocol.HeaderRoundTrip

/-!
# Chunk headers in pieces

A call of `parse_header` that waits keeps its stage and the bytes of that stage, so the
next call goes on where it stopped. What a call makes of the bytes of a header does not
depend on what is behind them. A header that arrives in pieces is therefore parsed as
one that is there at once: the calls wait until its last byte, and then fill the same
fields. Only the message type decides whether a complete header is accepted.
-/

namespace Rtmp

namespace RtmpHeaderParser

section Cuts

variable {p : RtmpHeaderParser} {stream : List UInt8} {total : Nat}

/-- Earlier stages only add to the size that is reported. -/
theorem parseHeader_add (k : Nat) {bufSize : Nat} :
    p.parseHeader stream bufSize (total + k) =
      { p.parseHeader stream bufSize total with
        readedSize := (p.parseHeader stream bufSize total).readedSize + k } := by
  induction hn : p.parsingState.rank using Nat.strongRecOn generalizing p stream bufSize total with
  | ind n ih =>
      by_cases hc : p.parsingState = .complete
      · rw [parseHeader_of_complete hc, parseHeader_of_complete hc]
      · by_cases hr : (p.parseInCurrentState stream bufSize).result = .true
        · have hrank := (p.parseInCurrentState_takes hc).rank hr
          rw [parseHeader_of_true hc hr, parseHeader_of_true hc hr, Nat.add_right_comm,
            ih _ (hn ▸ hrank) rfl]
        · rw [parseHeader_of_ne_true hc hr, parseHeader_of_ne_true hc hr]

/-- A stage that has its bytes does the same whatever comes behind them. -/
theorem parseInCurrentState_append (more : List UInt8) (hc : p.parsingState ≠ .complete)
    (hsize : p.parsingState.size ≤ stream.length) :
    p.parseInCurrentState (stream ++ more) (stream ++ more).length =
      { p.parseInCurrentState stream stream.length with
        stream := (p.parseInCurrentState stream stream.length).stream ++ more } := by
  rw [List.length_append]
  exact (p.parseInCurrentState_takes hc).append hsize hsize

/-- A successful stage, and the call that goes on behind its bytes. -/
theorem parseHeader_stage (hc : p.parsingState ≠ .complete)
    (hr : (p.parseInCurrentState stream stream.length).result = .true) :
    p.parseHeader stream stream.length total =
      (p.parseInCurrentState stream stream.length).parser.parseHeader
        (stream.drop p.parsingState.size) (stream.drop p.parsingState.size).length
        (total + p.parsingState.size) := by
  rw [parseHeader_of_true hc hr, List.length_drop]

/-- What a call makes of a header whose bytes are there does not depend on what is behind
them. -/
theorem parseHeader_append (more : List UInt8)
    (h : (p.parseHeader stream stream.length total).result ≠ .indeterminate) :
    p.parseHeader (stream ++ more) (stream ++ more).length total =
      { p.parseHeader stream stream.length total with
        stream := (p.parseHeader stream stream.length total).stream ++ more } := by
  induction hn : p.parsingState.rank using Nat.strongRecOn generalizing p stream total with
  | ind n ih =>
      by_cases hc : p.parsingState = .complete
      · rw [parseHeader_of_complete hc, parseHeader_of_complete hc]
      · have htakes := p.parseInCurrentState_takes hc
        have hsize : p.parsingState.size ≤ stream.length := by
          by_contra hlt
          have hshort : p.parseInCurrentState stream stream.length = p.needMore stream :=
            htakes.short (Nat.lt_of_not_le hlt)
          apply h
          rw [parseHeader_of_ne_true hc (by rw [hshort]; simp [needMore]), hshort]
          rfl
        have happend := parseInCurrentState_append more hc hsize
        by_cases hr : (p.parseInCurrentState stream stream.length).result = .true
        · have hr' : (p.parseInCurrentState (stream ++ more) (stream ++ more).length).result =
              .true := by rw [happend, hr]
          rw [parseHeader_stage hc hr] at h ⊢
          rw [parseHeader_stage hc hr', happend, List.drop_append_of_le_length hsize]
          exact ih _ (hn ▸ htakes.rank hr) h rfl
        · have hr' : (p.parseInCurrentState (stream ++ more) (stream ++ more).length).result ≠
              .true := by rwa [happend]
          rw [parseHeader_of_ne_true hc hr, parseHeader_of_ne_true hc hr', happend]

/-- A call that waits has left the parser where the next call goes on. -/
theorem parseHeader_resume (more : List UInt8)
    (h : (p.parseHeader stream stream.length total).result = .indeterminate) :
    p.parseHeader (stream ++ more) (stream ++ more).length total =
      (p.parseHeader stream stream.length total).parser.parseHeader
        ((p.parseHeader stream stream.length total).stream ++ more)
        ((p.parseHeader stream stream.length total).stream ++ more).length
        (p.parseHeader stream stream.length total).readedSize := by
  induction hn : p.parsingState.rank using Nat.strongRecOn generalizing p stream total with
  | ind n ih =>
      by_cases hc : p.parsingState = .complete
      · rw [parseHeader_of_complete hc] at h
        cases h
      · have htakes := p.parseInCurrentState_takes hc
        by_cases hsize : p.parsingState.size ≤ stream.length
        · have happend := parseInCurrentState_append more hc hsize
          by_cases hr : (p.parseInCurrentState stream stream.length).result = .true
          · have hr' : (p.parseInCurrentState (stream ++ more) (stream ++ more).length).result =
                .true := by rw [happend, hr]
            rw [parseHeader_stage hc hr] at h ⊢
            rw [parseHeader_stage hc hr', happend, List.drop_append_of_le_length hsize]
            exact ih _ (hn ▸ htakes.rank hr) h rfl
          · rw [parseHeader_of_ne_true hc hr] at h
            exact absurd h (htakes.decides hsize)
        · -- the stage waits as it is
          have hshort : p.parseInCurrentState stream stream.length = p.needMore stream :=
            htakes.short (Nat.lt_of_not_le hsize)
          have hwaits : p.parseHeader stream stream.length total =
              { p.needMore stream with readedSize := total } := by
            rw [parseHeader_of_ne_true hc (by rw [hshort]; simp [needMore]), hshort]
          rw [hwaits]
          rfl

end Cuts

section Whole

variable {p : RtmpHeaderParser} {stream : List UInt8} {total : Nat}

/-- The message type id in a message header of a format, where the format has one. -/
def messageTypeId (formatType : FormatType) (stream : List UInt8) : Option UInt8 :=
  match formatType with
  | .full | .sameStream => stream[6]?
  | _ => none

def KnownType (formatType : FormatType) (stream : List UInt8) : Prop :=
  ∀ id, messageTypeId formatType stream = some id → MsgTypeId.getId id ≠ .unknown

/-- A parser that has the `size` bytes left of a header takes them and completes it if it is
known, and refuses it otherwise. -/
structure Finishes (p : RtmpHeaderParser) (stream : List UInt8) (size : Nat) (known : Prop) :
    Prop where
  accepts : ∀ total, size ≤ stream.length → known →
    (p.parseHeader stream stream.length total).result = .true ∧
      (p.parseHeader stream stream.length total).readedSize = total + size
  refuses : ∀ total, size ≤ stream.length → ¬ known →
    (p.parseHeader stream stream.length total).result = .false

theorem finishes_complete (hc : p.parsingState = .complete) : p.Finishes stream 0 True where
  accepts total _ _ := by
    rw [parseHeader_of_complete hc]
    exact ⟨rfl, rfl⟩
  refuses _ _ h := absurd trivial h

/-- A stage that takes its bytes leaves the rest to the next one. -/
theorem finishes_stage {size : Nat} {known : Prop} (hc : p.parsingState ≠ .complete)
    (htrue : p.parsingState.size ≤ stream.length →
      (p.parseInCurrentState stream stream.length).result = .true)
    (hnext : p.parsingState.size ≤ stream.length →
      (p.parseInCurrentState stream stream.length).parser.Finishes
        (stream.drop p.parsingState.size) size known) :
    p.Finishes stream (p.parsingState.size + size) known where
  accepts total hsize hknown := by
    have hstage : p.parsingState.size ≤ stream.length := by omega
    have hrest : size ≤ (stream.drop p.parsingState.size).length := by
      rw [List.length_drop]
      omega
    rw [parseHeader_stage hc (htrue hstage), ← Nat.add_assoc]
    exact (hnext hstage).accepts _ hrest hknown
  refuses total hsize hknown := by
    have hstage : p.parsingState.size ≤ stream.length := by omega
    have hrest : size ≤ (stream.drop p.parsingState.size).length := by
      rw [List.length_drop]
      omega
    rw [parseHeader_stage hc (htrue hstage)]
    exact (hnext hstage).refuses _ hrest hknown

theorem finishes_extended (hs : p.parsingState = .extendedTimestamp)
    (hformat : p.parsedMsg.formatType ≠ .continuation) : p.Finishes stream 4 True := by
  have htaken : 4 ≤ stream.length →
      (p.parseInCurrentState stream stream.length).result = .true ∧
        (p.parseInCurrentState stream stream.length).parser.parsingState = .complete := by
    intro h
    simp only [parseInCurrentState, hs, parseExtendedTimestamp, if_pos h]
    cases hf : p.parsedMsg.formatType <;> simp [hf] at hformat ⊢
  have hstage := @finishes_stage p stream 0 True (by simp [hs])
    (by rw [hs]; exact fun h => (htaken h).1)
    (by rw [hs]; exact fun h => finishes_complete (htaken h).2)
  rwa [hs] at hstage

/-- The stages that read a timestamp field refuse an unknown message type. -/
theorem timestampStage_result {f : FormatType}
    (hf : f = .full ∨ f = .sameStream ∨ f = .sameLengthAndStream)
    (hs : p.parsingState = getChunkHeaderParsingState f)
    (hsize : p.parsingState.size ≤ stream.length) :
    (p.parseInCurrentState stream stream.length).result = .true ↔ KnownType f stream := by
  have hread : ∀ h : 7 ≤ stream.length,
      (StreamUtil.readUchar ((stream.drop 3).drop 3)).1 = stream[6] := by
    intro h
    rw [List.drop_drop, List.drop_eq_getElem_cons (by omega), StreamUtil.readUchar_cons]
  rcases hf with rfl | rfl | rfl
  · have hs : p.parsingState = .chunkMsgHeaderType0 := hs
    rw [hs] at hsize
    have hsize : 11 ≤ stream.length := hsize
    simp only [parseInCurrentState, hs, parseChunkHeaderType0, if_pos hsize, KnownType,
      messageTypeId, readUint3_rest, hread (by omega)]
    rw [List.getElem?_eq_getElem (by omega)]
    by_cases hu : MsgTypeId.getId stream[6] = .unknown <;> simp [hu]
  · have hs : p.parsingState = .chunkMsgHeaderType1 := hs
    rw [hs] at hsize
    have hsize : 7 ≤ stream.length := hsize
    simp only [parseInCurrentState, hs, parseChunkHeaderType1, if_pos hsize, KnownType,
      messageTypeId, readUint3_rest, hread hsize]
    rw [List.getElem?_eq_getElem (by omega)]
    by_cases hu : MsgTypeId.getId stream[6] = .unknown <;> simp [hu]
  · have hs : p.parsingState = .chunkMsgHeaderType2 := hs
    rw [hs] at hsize
    have hsize : 3 ≤ stream.length := hsize
    simp only [parseInCurrentState, hs, parseChunkHeaderType2, if_pos hsize, KnownType,
      messageTypeId]
    simp

/-- A stage that has its bytes and does not take them refuses the header. -/
theorem finishes_refused {size : Nat} {known : Prop} (hc : p.parsingState ≠ .complete)
    (hle : p.parsingState.size ≤ size) (hknown : ¬ known)
    (hne : p.parsingState.size ≤ stream.length →
      (p.parseInCurrentState stream stream.length).result ≠ .true) :
    p.Finishes stream size known where
  accepts _ _ h := absurd h hknown
  refuses total hsize _ := by
    have hstage : p.parsingState.size ≤ stream.length := Nat.le_trans hle hsize
    have hdecides : (p.parseInCurrentState stream stream.length).result ≠ .indeterminate :=
      (p.parseInCurrentState_takes hc).decides hstage
    rw [parseHeader_of_ne_true hc (hne hstage)]
    cases hr : (p.parseInCurrentState stream stream.length).result with
    | true => exact absurd hr (hne hstage)
    | false => rfl
    | indeterminate => exact absurd hr hdecides

theorem finishes_continuation (hs : p.parsingState = .chunkMsgHeaderType3) :
    p.Finishes stream 0 True := by
  have hstage := @finishes_stage p stream 0 True (by simp [hs])
    (fun _ => by simp only [parseInCurrentState, hs]; rfl)
    (fun _ => finishes_complete (by simp only [parseInCurrentState, hs]; rfl))
  rwa [hs] at hstage

/-- A stage with a timestamp field and what its timestamp asks for. -/
theorem finishes_timestamp {f : FormatType}
    (hf : f = .full ∨ f = .sameStream ∨ f = .sameLengthAndStream)
    (hs : p.parsingState = getChunkHeaderParsingState f) (hformat : p.parsedMsg.formatType = f) :
    p.Finishes stream (p.parsingState.size + extendedTimestampSize stream)
      (KnownType f stream) := by
  have hs' : p.parsingState = .chunkMsgHeaderType0 ∨ p.parsingState = .chunkMsgHeaderType1 ∨
      p.parsingState = .chunkMsgHeaderType2 := by
    rcases hf with rfl | rfl | rfl
    · exact .inl hs
    · exact .inr (.inl hs)
    · exact .inr (.inr hs)
  have hc : p.parsingState ≠ .complete := by rcases hs' with h | h | h <;> simp [h]
  have hresult := @timestampStage_result p stream f hf hs
  by_cases hknown : KnownType f stream
  · rw [iff_true_intro hknown]
    refine finishes_stage hc (fun h => (hresult h).mpr hknown) fun h => ?_
    have htrue := (hresult h).mpr hknown
    have hnext := timestampStage_next hs' htrue
    have hkeeps : (p.parseInCurrentState stream stream.length).parser.parsedMsg.formatType ≠
        .continuation := by
      rw [(parseInCurrentState_atLeast hc (by rcases hs' with h | h | h <;> simp [h])
        htrue).2.1, hformat]
      rcases hf with rfl | rfl | rfl <;> simp
    rw [extendedTimestampSize]
    split at hnext
    · next hfull =>
      rw [if_pos hfull]
      exact finishes_extended hnext hkeeps
    · next hfull =>
      rw [if_neg hfull]
      exact finishes_complete hnext
  · refine finishes_refused hc (Nat.le_add_right _ _) hknown fun hstage h => ?_
    exact hknown ((hresult hstage).mp h)

/-- A message header of a format that a first byte can ask for. -/
theorem finishes_message {f : FormatType} (hf : f ≠ .unknown)
    (hs : p.parsingState = getChunkHeaderParsingState f) (hformat : p.parsedMsg.formatType = f) :
    p.Finishes stream (messageHeaderSize f stream) (KnownType f stream) := by
  by_cases hcontinuation : f = .continuation
  · subst hcontinuation
    have hknown : KnownType .continuation stream ↔ True := by simp [KnownType, messageTypeId]
    rw [hknown]
    exact finishes_continuation hs
  · have hf' : f = .full ∨ f = .sameStream ∨ f = .sameLengthAndStream := by
      cases f <;> simp at hf hcontinuation ⊢
    have hsize : messageHeaderSize f stream =
        p.parsingState.size + extendedTimestampSize stream := by
      rw [hs]
      rcases hf' with rfl | rfl | rfl <;> rfl
    rw [hsize]
    exact finishes_timestamp hf' hs hformat

/-- The further bytes of a basic header leave the message header of the format. -/
theorem finishes_id {f : FormatType} (hf : f ≠ .unknown)
    (hs : p.parsingState = .basicHeader2byte ∨ p.parsingState = .basicHeader3byte)
    (hformat : p.parsedMsg.formatType = f) :
    p.Finishes stream
      (p.parsingState.size + messageHeaderSize f (stream.drop p.parsingState.size))
      (KnownType f (stream.drop p.parsingState.size)) := by
  have htaken : p.parsingState.size ≤ stream.length →
      (p.parseInCurrentState stream stream.length).result = .true ∧
        (p.parseInCurrentState stream stream.length).parser.parsingState =
          getChunkHeaderParsingState f ∧
        (p.parseInCurrentState stream stream.length).parser.parsedMsg.formatType = f := by
    rcases hs with hs | hs
    · rw [hs]
      intro h
      have h : 1 ≤ stream.length := h
      simp only [parseInCurrentState, hs, parseBasicHeader2byte, if_pos h, hformat, and_self]
    · rw [hs]
      intro h
      have h : 2 ≤ stream.length := h
      simp only [parseInCurrentState, hs, parseBasicHeader3byte, if_pos h, hformat, and_self]
  refine finishes_stage (by rcases hs with h | h <;> simp [h]) (fun h => (htaken h).1) fun h => ?_
  exact finishes_message hf (htaken h).2.1 (htaken h).2.2

end Whole

/-- A header with a message type that `get_id` knows, or with none. -/
def KnownHeader : List UInt8 → Prop
  | [] => True
  | first :: rest => KnownType (FormatType.getType (first >>> 6)) (rest.drop (idSize first))

/-- A whole header, from its first byte on. -/
theorem finishes_header {p : RtmpHeaderParser} {stream : List UInt8}
    (hs : p.parsingState = .basicHeader1byte) :
    p.Finishes stream (chunkHeaderSize stream) (KnownHeader stream) := by
  cases stream with
  | nil => exact ⟨fun _ h => absurd h (by decide), fun _ h => absurd h (by decide)⟩
  | cons first rest =>
      have hknown := getType_ne_unknown first
      have hfirst := parseInCurrentState_firstByte hs first rest
      have hfinishes := @finishes_stage p (first :: rest) (idSize first +
          messageHeaderSize (FormatType.getType (first >>> 6)) (rest.drop (idSize first)))
        (KnownHeader (first :: rest)) (by simp [hs])
        (fun _ => by rw [hfirst])
        (fun _ => by
          rw [hfirst, hs]
          show RtmpHeaderParser.Finishes _ rest _ _
          rw [KnownHeader, idSize]
          split
          · exact finishes_id hknown (.inl rfl) rfl
          · split
            · exact finishes_id hknown (.inr rfl) rfl
            · rw [Nat.zero_add]
              exact finishes_message hknown rfl rfl)
      rw [chunkHeaderSize_cons]
      rwa [hs] at hfinishes

section Pieces

variable {p : RtmpHeaderParser} {stream more : List UInt8} {total : Nat}

/-- A call that waits is in a stage whose bytes are not all there. -/
theorem parseHeader_waits
    (h : (p.parseHeader stream stream.length total).result = .indeterminate) :
    (p.parseHeader stream stream.length total).parser.parsingState ≠ .complete ∧
      (p.parseHeader stream stream.length total).stream.length <
        (p.parseHeader stream stream.length total).parser.parsingState.size := by
  induction hn : p.parsingState.rank using Nat.strongRecOn generalizing p stream total with
  | ind n ih =>
      by_cases hc : p.parsingState = .complete
      · rw [parseHeader_of_complete hc] at h
        cases h
      · have htakes := p.parseInCurrentState_takes hc
        by_cases hr : (p.parseInCurrentState stream stream.length).result = .true
        · rw [parseHeader_stage hc hr] at h ⊢
          exact ih _ (hn ▸ htakes.rank hr) h rfl
        · have hlt : stream.length < p.parsingState.size := by
            by_contra hle
            rw [parseHeader_of_ne_true hc hr] at h
            exact htakes.decides (Nat.le_of_not_lt hle) h
          rw [parseHeader_of_ne_true hc hr, htakes.short hlt]
          exact ⟨hc, hlt⟩

/-- A call that returns has taken the bytes of its first stage. -/
theorem parseHeader_takes (hc : p.parsingState ≠ .complete)
    (h : (p.parseHeader stream stream.length total).result ≠ .indeterminate) :
    (p.parseHeader stream stream.length total).stream.length + p.parsingState.size ≤
      stream.length := by
  have hsize : p.parsingState.size ≤ stream.length := by
    by_contra hlt
    have hshort : p.parseInCurrentState stream stream.length = p.needMore stream :=
      (p.parseInCurrentState_takes hc).short (Nat.lt_of_not_le hlt)
    apply h
    rw [parseHeader_of_ne_true hc (by rw [hshort]; simp [needMore]), hshort]
    rfl
  by_cases hr : (p.parseInCurrentState stream stream.length).result = .true
  · rw [parseHeader_stage hc hr]
    obtain ⟨taken, -, hdrop, -⟩ := @parseHeader_stream
      (p.parseInCurrentState stream stream.length).parser (stream.drop p.parsingState.size)
      (stream.drop p.parsingState.size).length (total + p.parsingState.size)
    rw [hdrop, List.length_drop, List.length_drop]
    omega
  · rw [parseHeader_of_ne_true hc hr]
    show (p.parseInCurrentState stream stream.length).stream.length + _ ≤ _
    rw [parseInCurrentState_stream hsize, List.length_drop]
    omega

/-- The bytes that let a waiting call return are not all left over. -/
theorem parseHeader_arrival
    (hwaits : (p.parseHeader stream stream.length total).result = .indeterminate)
    (h : (p.parseHeader (stream ++ more) (stream ++ more).length total).result ≠
      .indeterminate) :
    (p.parseHeader (stream ++ more) (stream ++ more).length total).stream.length <
      more.length := by
  obtain ⟨hc, hlt⟩ := parseHeader_waits hwaits
  rw [parseHeader_resume more hwaits] at h ⊢
  have htaken := parseHeader_takes hc h
  have hlength : ((p.parseHeader stream stream.length total).stream ++ more).length =
      (p.parseHeader stream stream.length total).stream.length + more.length :=
    List.length_append
  omega

/-- The next call counts from 0 again. -/
theorem parseHeader_goesOn (more : List UInt8)
    (h : (p.parseHeader stream stream.length).result = .indeterminate) :
    let r := p.parseHeader stream stream.length
    let next := r.parser.parseHeader (r.stream ++ more) (r.stream ++ more).length
    p.parseHeader (stream ++ more) (stream ++ more).length =
      { next with readedSize := next.readedSize + r.readedSize } := by
  intro r next
  have hresume := parseHeader_resume more h
  rw [← Nat.zero_add (p.parseHeader stream stream.length).readedSize, parseHeader_add] at hresume
  exact hresume

theorem parseHeader_still_waits
    (h : (p.parseHeader stream stream.length).result = .indeterminate) :
    ((p.parseHeader stream stream.length).parser.parseHeader
      (p.parseHeader stream stream.length).stream
      (p.parseHeader stream stream.length).stream.length).result = .indeterminate := by
  have hnext := parseHeader_goesOn [] h
  simp only [List.append_nil] at hnext
  rw [hnext] at h
  exact h

/-- Successive calls of `parse_header`, each with the bytes left unread and the next piece.
There is no call behind one that returns. -/
def parsePieces (p : RtmpHeaderParser) (unread : List UInt8) : List (List UInt8) → List Result
  | [] => []
  | piece :: pieces =>
      let r := p.parseHeader (unread ++ piece) (unread ++ piece).length
      match r.result with
      | .indeterminate => r :: parsePieces r.parser r.stream pieces
      | _ => [r]

/-- Calls that wait and a last one that returns as one call on everything does; the piece of
the last call has some of the bytes which that one call takes. -/
structure EndsAlike (p : RtmpHeaderParser) (unread : List UInt8) (pieces : List (List UInt8))
    (whole : Result) (waiting : List Result) (last : Result) : Prop where
  calls : p.parsePieces unread pieces = waiting ++ [last]
  waits : ∀ r ∈ waiting, r.result = .indeterminate
  result : last.result = whole.result
  parser : last.parser = whole.parser
  readedSize : ((waiting ++ [last]).map Result.readedSize).sum = whole.readedSize
  unread : whole.stream = last.stream ++ (pieces.drop (waiting.length + 1)).flatten
  arrival : whole.stream.length < (pieces.drop waiting.length).flatten.length

/-- The piece that lets a call return. -/
theorem endsAlike_decided {unread piece : List UInt8} (pieces : List (List UInt8))
    (hwaits : (p.parseHeader unread unread.length).result = .indeterminate)
    (hpiece : (p.parseHeader (unread ++ piece) (unread ++ piece).length).result ≠
      .indeterminate) :
    p.EndsAlike unread (piece :: pieces)
      (p.parseHeader ((unread ++ piece) ++ pieces.flatten)
        ((unread ++ piece) ++ pieces.flatten).length)
      [] (p.parseHeader (unread ++ piece) (unread ++ piece).length) := by
  rw [parseHeader_append pieces.flatten hpiece]
  refine ⟨?_, by simp, rfl, rfl, by simp, rfl, ?_⟩
  · rw [parsePieces]
    cases hr : (p.parseHeader (unread ++ piece) (unread ++ piece).length).result with
    | true => rfl
    | false => rfl
    | indeterminate => exact absurd hr hpiece
  · have harrival := parseHeader_arrival hwaits hpiece
    have hright : (piece ++ pieces.flatten).length =
        piece.length + pieces.flatten.length := List.length_append
    refine List.length_append.trans_lt ?_
    show _ < (piece ++ pieces.flatten).length
    omega

/-- A piece that leaves the call waiting, in front of the others. -/
theorem EndsAlike.wait {unread piece : List UInt8} {pieces : List (List UInt8)}
    {whole last : Result} {waiting : List Result}
    (hpiece : (p.parseHeader (unread ++ piece) (unread ++ piece).length).result = .indeterminate)
    (h : (p.parseHeader (unread ++ piece) (unread ++ piece).length).parser.EndsAlike
      (p.parseHeader (unread ++ piece) (unread ++ piece).length).stream pieces whole waiting
      last) :
    p.EndsAlike unread (piece :: pieces)
      { whole with readedSize := whole.readedSize +
          (p.parseHeader (unread ++ piece) (unread ++ piece).length).readedSize }
      (p.parseHeader (unread ++ piece) (unread ++ piece).length :: waiting) last where
  calls := by
    rw [parsePieces]
    simp only [hpiece, h.calls, List.cons_append]
  waits := List.forall_mem_cons.mpr ⟨hpiece, h.waits⟩
  result := h.result
  parser := h.parser
  readedSize := by
    rw [List.cons_append, List.map_cons, List.sum_cons, h.readedSize, Nat.add_comm]
  unread := h.unread
  arrival := h.arrival

theorem parsePieces_endsAlike {unread : List UInt8} {pieces : List (List UInt8)}
    (hwaits : (p.parseHeader unread unread.length).result = .indeterminate)
    (h : (p.parseHeader (unread ++ pieces.flatten) (unread ++ pieces.flatten).length).result ≠
      .indeterminate) :
    ∃ waiting last, p.EndsAlike unread pieces
      (p.parseHeader (unread ++ pieces.flatten) (unread ++ pieces.flatten).length)
      waiting last := by
  induction pieces generalizing p unread with
  | nil =>
      rw [List.flatten_nil, List.append_nil] at h
      exact absurd hwaits h
  | cons piece pieces ih =>
      have hflat : unread ++ (piece :: pieces).flatten = (unread ++ piece) ++ pieces.flatten := by
        rw [List.flatten_cons, List.append_assoc]
      rw [hflat] at h ⊢
      by_cases hpiece : (p.parseHeader (unread ++ piece) (unread ++ piece).length).result =
          .indeterminate
      · have hnext := parseHeader_goesOn pieces.flatten hpiece
        dsimp only at hnext
        rw [hnext] at h ⊢
        obtain ⟨waiting, last, halike⟩ := ih (parseHeader_still_waits hpiece) h
        exact ⟨_, last, halike.wait hpiece⟩
      · exact ⟨[], _, endsAlike_decided pieces hwaits hpiece⟩

/-- Calls on pieces against one call on all of them, which takes `size` bytes: the calls wait
until these have arrived, and the one that has them returns as the one call does. -/
structure CutAlike (p : RtmpHeaderParser) (pieces : List (List UInt8)) (size : Nat)
    (waiting : List Result) (last : Result) : Prop where
  taken : (p.parseHeader pieces.flatten pieces.flatten.length).stream = pieces.flatten.drop size
  calls : p.parsePieces [] pieces = waiting ++ [last]
  waits : ∀ r ∈ waiting, r.result = .indeterminate
  early : (pieces.take waiting.length).flatten.length < size
  arrived : size ≤ (pieces.take (waiting.length + 1)).flatten.length
  result : last.result = (p.parseHeader pieces.flatten pieces.flatten.length).result
  parser : last.parser = (p.parseHeader pieces.flatten pieces.flatten.length).parser
  readedSize : ((waiting ++ [last]).map Result.readedSize).sum =
    (p.parseHeader pieces.flatten pieces.flatten.length).readedSize
  stream : last.stream = (pieces.take (waiting.length + 1)).flatten.drop size

theorem flatten_take_drop (pieces : List (List UInt8)) (n : Nat) :
    pieces.flatten = (pieces.take n).flatten ++ (pieces.drop n).flatten := by
  rw [← List.flatten_append, List.take_append_drop]

/-- However the bytes are cut, one call on them and the calls on the pieces do the same. -/
theorem parsePieces_cutAlike {pieces : List (List UInt8)} {size : Nat}
    (hs : p.parsingState = .basicHeader1byte)
    (h : (p.parseHeader pieces.flatten pieces.flatten.length).result ≠ .indeterminate)
    (hsize : size ≤ pieces.flatten.length)
    (hstream : (p.parseHeader pieces.flatten pieces.flatten.length).stream =
      pieces.flatten.drop size) :
    ∃ waiting last, p.CutAlike pieces size waiting last := by
  have hwaits : (p.parseHeader [] 0).result = .indeterminate := by
    have hc : p.parsingState ≠ .complete := by simp [hs]
    have hshort : p.parseInCurrentState [] 0 = p.needMore [] :=
      (p.parseInCurrentState_takes hc).short (by rw [hs]; decide)
    rw [parseHeader_of_ne_true hc (by rw [hshort]; simp [needMore]), hshort]
    rfl
  obtain ⟨waiting, last, halike⟩ := @parsePieces_endsAlike p [] pieces hwaits h
  rw [List.nil_append] at halike
  have hleft := congrArg List.length halike.unread
  have harrival := halike.arrival
  have hbefore := congrArg List.length (flatten_take_drop pieces waiting.length)
  have hwith := congrArg List.length (flatten_take_drop pieces (waiting.length + 1))
  rw [hstream, List.length_drop] at hleft harrival
  rw [List.length_append] at hleft hbefore hwith
  have harrived : size ≤ (pieces.take (waiting.length + 1)).flatten.length := by omega
  refine ⟨waiting, last, hstream, halike.calls, halike.waits, by omega, harrived, halike.result,
    halike.parser, halike.readedSize, ?_⟩
  have hunread := halike.unread
  rw [hstream, flatten_take_drop pieces (waiting.length + 1),
    List.drop_append_of_le_length harrived] at hunread
  exact (List.append_cancel_right hunread).symm

end Pieces

/-- The calls on the pieces take a header as one call does, and are ready for the next one. -/
def AcceptedAlike (p : RtmpHeaderParser) (pieces : List (List UInt8)) : Prop :=
  ∃ waiting last, p.CutAlike pieces (chunkHeaderSize pieces.flatten) waiting last ∧
    last.result = .true ∧ last.parser.parsingState = .basicHeader1byte

/-- The calls on the pieces refuse a header as one call does. -/
def RefusedAlike (p : RtmpHeaderParser) (pieces : List (List UInt8)) : Prop :=
  ∃ size waiting last, p.CutAlike pieces size waiting last ∧ last.result = .false

/-- A complete header is accepted or refused by its message type, whatever the header object
holds and however the bytes are cut. -/
theorem header_cut_independent (p : RtmpHeaderParser) (hs : p.parsingState = .basicHeader1byte)
    (bytes : List UInt8) (hcomplete : chunkHeaderSize bytes ≤ bytes.length)
    (pieces : List (List UInt8)) (hpieces : pieces.flatten = bytes) :
    (KnownHeader bytes → p.AcceptedAlike pieces) ∧
      (¬ KnownHeader bytes → p.RefusedAlike pieces) := by
  subst hpieces
  have hfinishes := @finishes_header p pieces.flatten hs
  constructor
  · intro hknown
    obtain ⟨htrue, hreaded⟩ := hfinishes.accepts 0 hcomplete hknown
    obtain ⟨hstate, -, -, hstream⟩ := parseHeader_true htrue
    rw [hreaded, Nat.zero_add, Nat.sub_zero] at hstream
    have hdecided : (p.parseHeader pieces.flatten pieces.flatten.length).result ≠
        .indeterminate := by
      rw [htrue]
      simp
    obtain ⟨waiting, last, hcut⟩ := parsePieces_cutAlike hs hdecided hcomplete hstream
    exact ⟨waiting, last, hcut, hcut.result.trans htrue, by rw [hcut.parser, hstate]⟩
  · intro hunknown
    have hfalse := hfinishes.refuses 0 hcomplete hunknown
    have hdecided : (p.parseHeader pieces.flatten pieces.flatten.length).result ≠
        .indeterminate := by
      rw [hfalse]
      simp
    obtain ⟨size, hsize, hstream, -⟩ := @parseHeader_stream p pieces.flatten
      pieces.flatten.length 0
    obtain ⟨waiting, last, hcut⟩ := parsePieces_cutAlike hs hdecided hsize hstream
    exact ⟨size, waiting, last, hcut, hcut.result.trans hfalse⟩

/-- A video header with an extended timestamp, cut in its timestamp field, in front of the
extended one and in front of its last byte. -/
theorem header_cut_independent_extended :
    let pieces := [[0x04, 0xFF], [0xFF, 0xFF, 0x00, 0x00, 0x01, 0x09, 0x01, 0x00, 0x00, 0x00],
      [0x01, 0x00, 0x00], [0x00, 0x17]]
    chunkHeaderSize pieces.flatten ≤ pieces.flatten.length ∧ KnownHeader pieces.flatten ∧
      ({} : RtmpHeaderParser).AcceptedAlike pieces := by
  intro pieces
  have hcomplete : chunkHeaderSize pieces.flatten ≤ pieces.flatten.length := by decide
  have hknown : KnownHeader pieces.flatten := by
    intro id hid
    cases hid
    decide
  exact ⟨hcomplete, hknown,
    (header_cut_independent {} rfl pieces.flatten hcomplete pieces rfl).1 hknown⟩

/-- A full header with the message type 99. -/
theorem not_accepted_unknownType :
    ¬ ∀ p : RtmpHeaderParser, p.parsingState = .basicHeader1byte → ∀ bytes : List UInt8,
      chunkHeaderSize bytes ≤ bytes.length → ∀ pieces : List (List UInt8),
        pieces.flatten = bytes → p.AcceptedAlike pieces := by
  intro h
  have hcomplete : chunkHeaderSize [[0x04, 0, 0, 0, 0, 0, 1, 99, 1, 0, 0, 0]].flatten ≤
      [[0x04, 0, 0, 0, 0, 0, 1, 99, 1, 0, 0, 0]].flatten.length := by decide
  have hunknown : ¬ KnownHeader [[0x04, 0, 0, 0, 0, 0, 1, 99, 1, 0, 0, 0]].flatten :=
    fun hknown => hknown 99 rfl rfl
  obtain ⟨waiting, last, hcut, htrue, -⟩ := h {} rfl _ hcomplete
    [[0x04, 0, 0, 0, 0, 0, 1, 99, 1, 0, 0, 0]] rfl
  have hfalse := (@finishes_header {} _ rfl).refuses 0 hcomplete hunknown
  rw [hcut.result, hfalse] at htrue
  cases htrue

end RtmpHeaderParser

end Rtmp
