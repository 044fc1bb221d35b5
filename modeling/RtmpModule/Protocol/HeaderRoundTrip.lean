import RtmpModule.Protocol.ChunkFormat

/-!
# The header encoder against the header parser

`write_payload` and `parse_header` are written apart from each other. They agree on
the three basic header forms up to chunk stream id 6559 and on every field of the
four formats while the time fits in 24 bits. Above 6559 the encoder writes no basic
header at all, and a time of 0xFFFFFF or more is sent without the extended timestamp
the parser then waits for, or with its high byte cut off.
-/

namespace Rtmp

open Bytes StreamUtil NetworkUtil

namespace RtmpHeader

/-- The timestamp or delta the format of a header sends. -/
def sentTime (h : RtmpHeader) : UInt32 :=
  match h.formatType with
  | .full => h.timestamp
  | .sameStream => h.timestampDelta
  | .sameLengthAndStream => h.timestampDelta
  | .continuation => 0
  | .unknown => 0

/-- The message header of the format of a header. -/
def messageHeader (h : RtmpHeader) : MessageHeader :=
  match h.formatType with
  | .full => .full h.timestamp h.msgLength h.msgTypeId h.msgStreamId
  | .sameStream => .sameStream h.timestampDelta h.msgLength h.msgTypeId
  | .sameLengthAndStream => .sameLengthAndStream h.timestampDelta
  | .continuation => .continuation
  | .unknown => .continuation

/-- What the encoder may be given: every chunk stream id the parser can produce, a
length of 24 bits and a known type. -/
structure Sendable (h : RtmpHeader) : Prop where
  format : h.formatType ≠ .unknown
  id_ge : 2 ≤ h.chunkStreamId.toNat
  id_le : h.chunkStreamId.toNat ≤ 65599
  length : h.msgLength.toNat < 2 ^ 24
  type : h.msgTypeId ≠ .unknown

/-- The parsed header has the format, the chunk stream id and every field that
format carries. -/
def Carries (h parsed : RtmpHeader) : Prop :=
  parsed.formatType = h.formatType ∧ parsed.chunkStreamId = h.chunkStreamId ∧
    match h.formatType with
    | .full => parsed.timestamp = h.timestamp ∧ parsed.msgLength = h.msgLength ∧
        parsed.msgTypeId = h.msgTypeId ∧ parsed.msgStreamId = h.msgStreamId
    | .sameStream => parsed.timestampDelta = h.timestampDelta ∧
        parsed.msgLength = h.msgLength ∧ parsed.msgTypeId = h.msgTypeId
    | .sameLengthAndStream => parsed.timestampDelta = h.timestampDelta
    | .continuation => True
    | .unknown => True

/-- What the header parser makes of an encoded header with `rest` behind it, after
having parsed `base` before. -/
def reparsed (h base : RtmpHeader) (rest : List UInt8) : RtmpHeaderParser.Result :=
  (⟨.basicHeader1byte, base⟩ : RtmpHeaderParser).parseHeader (h.writePayload.bytes ++ rest)
    (h.writePayload.bytes ++ rest).length

/-- The header comes back: exactly the reported bytes are consumed and every carried
field is the one sent. -/
def RoundTrips (h base : RtmpHeader) (rest : List UInt8) : Prop :=
  (h.reparsed base rest).result = .true ∧
    (h.reparsed base rest).readedSize = h.writePayload.writed ∧
    (h.reparsed base rest).stream = rest ∧
    h.Carries (h.reparsed base rest).parser.parsedMsg

section Written

variable {h : RtmpHeader}

/-- The low 24 bits of a time. -/
def low24 (time : UInt32) : UInt32 := UInt32.ofNat (time.toNat % 2 ^ 24)

theorem toNat_low24 (time : UInt32) : (low24 time).toNat = time.toNat % 2 ^ 24 := by
  simp [low24]
  omega

/-- The message header as it leaves the encoder, which writes the low 24 bits of
the time and nothing else of it. -/
def truncated (h : RtmpHeader) : MessageHeader := h.messageHeader.withTime (low24 h.sentTime)

theorem timeField_low24 (time : UInt32) :
    MessageHeader.timeField (low24 time) = toBE 3 time.toNat := by
  have hmod : toBE 3 (time.toNat % 2 ^ 24) = toBE 3 time.toNat := toBE_mod 3 time.toNat
  unfold MessageHeader.timeField
  rw [toNat_low24, ← hmod]
  split
  · rfl
  · have hmax : time.toNat % 2 ^ 24 = 0xFFFFFF := by omega
    rw [hmax]

theorem writeMessageHeader_eq (os : Written) :
    h.writeMessageHeader os =
      { bytes := os.bytes ++ h.truncated.fields
        writed := os.writed + h.truncated.fields.length } := by
  unfold writeMessageHeader truncated messageHeader sentTime
  cases h.formatType <;>
    simp [MessageHeader.withTime, MessageHeader.fields, timeField_low24, writeUint3,
      writeUchar, writeUint, toLE_hton3]

theorem writeBasicHeader_eq (hge : 2 ≤ h.chunkStreamId.toNat)
    (hle : h.chunkStreamId.toNat ≤ 6559) :
    h.writeBasicHeader {} =
      { bytes := Chunk.basicHeader h.formatType h.chunkStreamId false
        writed := (Chunk.basicHeader h.formatType h.chunkStreamId false).length } := by
  have hsub : 64 ≤ h.chunkStreamId.toNat →
      (h.chunkStreamId - 64).toNat = h.chunkStreamId.toNat - 64 := fun h64 =>
    UInt32.toNat_sub_of_le _ _ (UInt32.le_iff_toNat_le.mpr h64)
  unfold writeBasicHeader Chunk.basicHeader
  by_cases hone : h.chunkStreamId.toNat ≤ 63
  · have h1 : h.is1byteBasicHeader = true := by
      simp [is1byteBasicHeader, UInt32.le_iff_toNat_le, hge, hone]
    rw [if_pos h1, if_pos hone]
    rfl
  · have h1 : h.is1byteBasicHeader = false := by
      simp [is1byteBasicHeader, UInt32.le_iff_toNat_le]
      omega
    have h64 : 64 ≤ h.chunkStreamId.toNat := by omega
    by_cases htwo : h.chunkStreamId.toNat ≤ 319
    · have h2 : h.is2byteBasicHeader = true := by
        simp [is2byteBasicHeader, UInt32.le_iff_toNat_le, htwo, h64]
      have hid : (h.chunkStreamId - 64).toUInt8 = UInt8.ofNat (h.chunkStreamId.toNat - 64) := by
        rw [← hsub h64]
        rfl
      simp [h1, h2, hone, htwo, hid, writeUchar]
    · have h2 : h.is2byteBasicHeader = false := by
        simp [is2byteBasicHeader, UInt32.le_iff_toNat_le]
        omega
      have h3 : h.is3byteBasicHeader = true := by
        simp [is3byteBasicHeader, UInt32.le_iff_toNat_le, UInt32.lt_iff_toNat_lt, hle]
        omega
      have hhigh : ((h.chunkStreamId - 64) / 256).toUInt8 =
          UInt8.ofNat ((h.chunkStreamId.toNat - 64) / 256) := by
        rw [← hsub h64]
        rfl
      have hlow : ((h.chunkStreamId - 64) % 256).toUInt8 =
          UInt8.ofNat (h.chunkStreamId.toNat - 64) := by
        rw [← hsub h64]
        apply UInt8.toNat_inj.mp
        rw [UInt32.toNat_toUInt8, UInt32.toNat_mod]
        exact Nat.mod_mod _ _
      simp [h1, h2, h3, hone, htwo, writeUchar, hhigh, hlow, toBE, toLE]

theorem writePayload_eq (hge : 2 ≤ h.chunkStreamId.toNat)
    (hle : h.chunkStreamId.toNat ≤ 6559) :
    h.writePayload =
      { bytes := Chunk.basicHeader h.formatType h.chunkStreamId false ++ h.truncated.fields
        writed := (Chunk.basicHeader h.formatType h.chunkStreamId false ++
          h.truncated.fields).length } := by
  rw [writePayload, writeBasicHeader_eq hge hle, writeMessageHeader_eq, List.length_append]

/-- Above 6559 the encoder leaves the basic header out. -/
theorem writePayload_of_lt (hlt : 6559 < h.chunkStreamId.toNat) :
    h.writePayload =
      { bytes := h.truncated.fields, writed := h.truncated.fields.length } := by
  have h1 : h.is1byteBasicHeader = false := by
    simp [is1byteBasicHeader, UInt32.le_iff_toNat_le]
    omega
  have h2 : h.is2byteBasicHeader = false := by
    simp [is2byteBasicHeader, UInt32.le_iff_toNat_le]
    omega
  have h3 : h.is3byteBasicHeader = false := by
    simp [is3byteBasicHeader, UInt32.le_iff_toNat_le]
    omega
  rw [writePayload, writeMessageHeader_eq, writeBasicHeader, h1, h2, h3]
  simp

end Written

end RtmpHeader

namespace RtmpHeaderParser

/-- Bytes the remaining stages take at least, once the format is known. -/
def atLeast (p : RtmpHeaderParser) : Nat :=
  match p.parsingState with
  | .basicHeader1byte => 1
  | .basicHeader2byte => 1 + (getChunkHeaderParsingState p.parsedMsg.formatType).size
  | .basicHeader3byte => 2 + (getChunkHeaderParsingState p.parsedMsg.formatType).size
  | state => state.size

theorem atLeast_getChunkHeaderParsingState (msg : RtmpHeader) (f : FormatType) :
    (⟨getChunkHeaderParsingState f, msg⟩ : RtmpHeaderParser).atLeast =
      (getChunkHeaderParsingState f).size := by
  cases f <;> rfl

theorem getChunkHeaderParsingState_ne (f : FormatType) :
    getChunkHeaderParsingState f ≠ .basicHeader1byte := by
  cases f <;> simp [getChunkHeaderParsingState]

variable {p : RtmpHeaderParser} {stream : List UInt8} {bufSize total : Nat}

/-- Past the first byte, a stage leaves the format and brings the end no closer than
by the bytes it takes. -/
theorem parseInCurrentState_atLeast (hs : p.parsingState ≠ .complete)
    (h1 : p.parsingState ≠ .basicHeader1byte)
    (h : (p.parseInCurrentState stream bufSize).result = .true) :
    let p' := (p.parseInCurrentState stream bufSize).parser
    p'.parsingState ≠ .basicHeader1byte ∧
      p'.parsedMsg.formatType = p.parsedMsg.formatType ∧
      p.atLeast ≤ p.parsingState.size + p'.atLeast := by
  have hsize := size_le_of_true hs h
  have hnext : ∀ (full : Prop) [Decidable full],
      (if full then ParsingState.extendedTimestamp else .complete) ≠ .basicHeader1byte := by
    intro full _
    split <;> simp
  obtain ⟨state, msg⟩ := p
  cases state with
  | basicHeader1byte => exact absurd rfl h1
  | basicHeader2byte =>
      have hbytes : 1 ≤ bufSize := hsize
      simp only [parseInCurrentState, parseBasicHeader2byte, if_pos hbytes]
      refine ⟨getChunkHeaderParsingState_ne _, trivial, ?_⟩
      rw [atLeast_getChunkHeaderParsingState]
      exact Nat.le_refl _
  | basicHeader3byte =>
      have hbytes : 2 ≤ bufSize := hsize
      simp only [parseInCurrentState, parseBasicHeader3byte, if_pos hbytes]
      refine ⟨getChunkHeaderParsingState_ne _, trivial, ?_⟩
      rw [atLeast_getChunkHeaderParsingState]
      exact Nat.le_refl _
  | chunkMsgHeaderType0 =>
      have hbytes : 11 ≤ bufSize := hsize
      simp only [parseInCurrentState, parseChunkHeaderType0, if_pos hbytes] at h ⊢
      split at h
      · simp at h
      · rename_i hknown
        rw [if_neg hknown]
        exact ⟨hnext _, rfl, Nat.le_add_right _ _⟩
  | chunkMsgHeaderType1 =>
      have hbytes : 7 ≤ bufSize := hsize
      simp only [parseInCurrentState, parseChunkHeaderType1, if_pos hbytes] at h ⊢
      split at h
      · simp at h
      · rename_i hknown
        rw [if_neg hknown]
        exact ⟨hnext _, rfl, Nat.le_add_right _ _⟩
  | chunkMsgHeaderType2 =>
      have hbytes : 3 ≤ bufSize := hsize
      simp only [parseInCurrentState, parseChunkHeaderType2, if_pos hbytes]
      exact ⟨hnext _, trivial, Nat.le_add_right _ _⟩
  | chunkMsgHeaderType3 =>
      exact ⟨by simp [parseInCurrentState, parseChunkHeaderType3], rfl, Nat.le_add_right _ _⟩
  | extendedTimestamp =>
      have hbytes : 4 ≤ bufSize := hsize
      simp only [parseInCurrentState, parseExtendedTimestamp, if_pos hbytes] at h ⊢
      cases hf : msg.formatType <;> simp [hf, atLeast] at h ⊢
  | complete => exact absurd rfl hs

/-- A header that is completed from past its first byte keeps its format and has
taken at least the bytes of its remaining stages. -/
theorem parseHeader_atLeast (h1 : p.parsingState ≠ .basicHeader1byte)
    (h : (p.parseHeader stream bufSize total).result = .true) :
    (p.parseHeader stream bufSize total).parser.parsedMsg.formatType = p.parsedMsg.formatType ∧
      total + p.atLeast ≤ (p.parseHeader stream bufSize total).readedSize := by
  induction hn : p.parsingState.rank using Nat.strongRecOn generalizing p stream bufSize total with
  | ind n ih =>
      by_cases hc : p.parsingState = .complete
      · rw [parseHeader_of_complete hc]
        simp [atLeast, hc, ParsingState.size]
      · by_cases hr : (p.parseInCurrentState stream bufSize).result = .true
        · have hrank := (p.parseInCurrentState_takes hc).rank hr
          obtain ⟨hne, hformat, hsize⟩ := parseInCurrentState_atLeast hc h1 hr
          rw [parseHeader_of_true hc hr] at h ⊢
          obtain ⟨hkeep, hle⟩ := ih _ (hn ▸ hrank) hne h rfl
          exact ⟨hkeep.trans hformat, by omega⟩
        · rw [parseHeader_of_ne_true hc hr] at h
          exact absurd h hr

/-- A whole header takes its first byte and the message header of its format. -/
theorem parseHeader_size (h1 : p.parsingState = .basicHeader1byte)
    (h : (p.parseHeader stream bufSize total).result = .true) :
    total + 1 + (getChunkHeaderParsingState
        (p.parseHeader stream bufSize total).parser.parsedMsg.formatType).size ≤
      (p.parseHeader stream bufSize total).readedSize := by
  have hc : p.parsingState ≠ .complete := by simp [h1]
  by_cases hr : (p.parseInCurrentState stream bufSize).result = .true
  · have hfirst : (p.parseInCurrentState stream bufSize).parser.parsingState ≠
          .basicHeader1byte ∧
        (getChunkHeaderParsingState
          (p.parseInCurrentState stream bufSize).parser.parsedMsg.formatType).size ≤
            (p.parseInCurrentState stream bufSize).parser.atLeast := by
      have hsize : 1 ≤ bufSize := by simpa [h1, ParsingState.size] using size_le_of_true hc hr
      simp only [parseInCurrentState, h1, parseBasicHeader1byte, if_pos hsize] at hr ⊢
      split at hr
      · simp at hr
      · rename_i hknown
        rw [if_neg hknown]
        dsimp only
        split
        · exact ⟨by simp, Nat.le_add_left _ _⟩
        · split
          · exact ⟨by simp, Nat.le_add_left _ _⟩
          · rw [atLeast_getChunkHeaderParsingState]
            exact ⟨getChunkHeaderParsingState_ne _, Nat.le_refl _⟩
    rw [parseHeader_of_true hc hr] at h ⊢
    obtain ⟨hkeep, hle⟩ := parseHeader_atLeast hfirst.1 h
    rw [hkeep]
    have hone : p.parsingState.size = 1 := by rw [h1]; rfl
    have hleast := hfirst.2
    omega
  · rw [parseHeader_of_ne_true hc hr] at h
    exact absurd h hr

end RtmpHeaderParser

namespace RtmpHeader

open RtmpHeaderParser

variable {h : RtmpHeader}

theorem valid_truncated (hh : h.Sendable) : h.truncated.Valid := by
  unfold truncated messageHeader
  cases h.formatType <;> simp [MessageHeader.withTime, MessageHeader.Valid, hh.type] <;>
    exact hh.length

theorem formatType_truncated (hformat : h.formatType ≠ .unknown) :
    h.truncated.formatType = h.formatType := by
  unfold truncated messageHeader
  cases hf : h.formatType <;> simp_all [MessageHeader.withTime, MessageHeader.formatType]

theorem time_truncated : h.truncated.time = low24 h.sentTime := by
  unfold truncated messageHeader sentTime
  cases h.formatType <;> rfl

theorem withTime_truncated (time : UInt32) :
    h.truncated.withTime time = h.messageHeader.withTime time := by
  unfold truncated
  cases h.messageHeader <;> rfl

/-- Up to id 6559 the parser reads back the basic header and the truncated fields. -/
theorem reparsed_eq (hh : h.Sendable) (hle : h.chunkStreamId.toNat ≤ 6559) (base : RtmpHeader)
    (rest : List UInt8) :
    h.reparsed base rest =
      (⟨if timeValue (low24 h.sentTime) = 0x00FFFFFF then .extendedTimestamp else .complete,
        (h.messageHeader.withTime (timeValue (low24 h.sentTime))).applyTo { base with
          formatType := h.formatType, chunkStreamId := h.chunkStreamId }⟩ :
        RtmpHeaderParser).parseHeader rest rest.length h.writePayload.writed := by
  have hformat := formatType_truncated hh.format
  have hfields := parseHeader_fields
    { base with formatType := h.formatType, chunkStreamId := h.chunkStreamId }
    (valid_truncated hh) rest
  rw [hformat, time_truncated, withTime_truncated] at hfields
  rw [reparsed, writePayload_eq hh.id_ge hle, List.append_assoc,
    parseHeader_basicHeader base hh.format hh.id_ge hh.id_le, hfields, List.length_append,
    Nat.zero_add]

theorem carries_applyTo (base : RtmpHeader) (time : UInt32) (hformat : h.formatType ≠ .unknown) :
    h.Carries ((h.messageHeader.withTime time).applyTo { base with
        formatType := h.formatType, chunkStreamId := h.chunkStreamId }) ↔
      (h.formatType = .continuation ∨ time = h.sentTime) := by
  unfold Carries messageHeader sentTime
  cases hf : h.formatType <;> simp_all [MessageHeader.withTime, MessageHeader.applyTo]

/-- The header round trip holds exactly for the ids the encoder knows and for times
that need no extended timestamp. -/
theorem roundTrips_iff (hh : h.Sendable) (base : RtmpHeader) (rest : List UInt8) :
    h.RoundTrips base rest ↔
      h.chunkStreamId.toNat ≤ 6559 ∧ h.sentTime.toNat < 0xFFFFFF := by
  by_cases hle : h.chunkStreamId.toNat ≤ 6559
  · have heq := reparsed_eq hh hle base rest
    simp only [hle, true_and]
    by_cases hfull : timeValue (low24 h.sentTime) = 0x00FFFFFF
    · -- the parser goes on to an extended timestamp that has not been sent
      have hlate : ¬ h.sentTime.toNat < 0xFFFFFF := by
        have hlow := (timeValue_eq_iff _).mp hfull
        rw [toNat_low24] at hlow
        omega
      simp only [hlate, iff_false]
      rintro ⟨hresult, hsize, -, -⟩
      rw [heq, if_pos hfull] at hresult hsize
      have hleast := (parseHeader_atLeast (by simp) hresult).2
      rw [hsize] at hleast
      simp [atLeast, ParsingState.size] at hleast
    · have hvalue : timeValue (low24 h.sentTime) = low24 h.sentTime :=
        if_pos (not_not.mp fun hlt => hfull ((timeValue_eq_iff _).mpr hlt))
      rw [if_neg hfull, parseHeader_of_complete rfl, hvalue] at heq
      have hlow : (low24 h.sentTime).toNat < 0xFFFFFF :=
        not_not.mp fun hlt => hfull ((timeValue_eq_iff _).mpr hlt)
      have hcarries : h.Carries (h.reparsed base rest).parser.parsedMsg ↔
          h.sentTime.toNat < 0xFFFFFF := by
        rw [heq, carries_applyTo base _ hh.format]
        constructor
        · rintro (hcont | htime)
          · simp [sentTime, hcont]
          · rwa [← htime]
        · intro hlt
          right
          apply UInt32.toNat_inj.mp
          rw [toNat_low24]
          omega
      rw [RoundTrips, hcarries, heq]
      simp
  · simp only [hle, false_and, iff_false]
    -- without a basic header, even a whole header behind would be too long
    rintro ⟨hresult, hsize, -, hformat, -⟩
    have hleast := parseHeader_size rfl hresult
    have hwrite := writePayload_of_lt (Nat.lt_of_not_le hle)
    have hfields : (getChunkHeaderParsingState h.formatType).size =
        h.truncated.fields.length := by
      unfold truncated messageHeader
      cases hf : h.formatType <;> simp_all [getChunkHeaderParsingState, ParsingState.size,
        MessageHeader.withTime, MessageHeader.fields, MessageHeader.timeField, hh.format]
    change 0 + 1 + (getChunkHeaderParsingState
      (h.reparsed base rest).parser.parsedMsg.formatType).size ≤
        (h.reparsed base rest).readedSize at hleast
    rw [hsize, hformat, hwrite, hfields] at hleast
    dsimp only at hleast
    omega

/-- The largest id the encoder writes, with the longest time it can carry. -/
theorem roundTrips_largest :
    ({ chunkStreamId := 6559, timestamp := 0xFFFFFE, msgTypeId := .videoData } :
      RtmpHeader).RoundTrips {} [1, 2, 3] :=
  (roundTrips_iff ⟨by decide, by decide, by decide, by decide, by decide⟩ {} [1, 2, 3]).mpr
    (by decide)

/-- The first id above 6559 comes out without a basic header, and the first time that
fills the 24-bit field without its extended timestamp: neither comes back. -/
theorem roundTrips_fails :
    (({ chunkStreamId := 6560, msgTypeId := .audioData } : RtmpHeader).Sendable ∧
      ¬ ({ chunkStreamId := 6560, msgTypeId := .audioData } : RtmpHeader).RoundTrips {} []) ∧
    (({ chunkStreamId := 4, timestamp := 0xFFFFFF, msgTypeId := .videoData } :
        RtmpHeader).Sendable ∧
      ¬ ({ chunkStreamId := 4, timestamp := 0xFFFFFF, msgTypeId := .videoData } :
        RtmpHeader).RoundTrips {} []) :=
  ⟨⟨⟨by decide, by decide, by decide, by decide, by decide⟩,
      fun h => absurd h.1 (by decide +kernel)⟩,
    ⟨⟨by decide, by decide, by decide, by decide, by decide⟩,
      fun h => absurd h.1 (by decide +kernel)⟩⟩

end RtmpHeader

end Rtmp
