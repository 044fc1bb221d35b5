import RtmpModule.Protocol.HeaderParser

/-!
# The chunk format

What a peer puts on the wire: a basic header in one of three forms, the message
header of the format, and the extended timestamp when the 24-bit field is full. A
chunk stream id from 64 to 319 has a two-byte and a three-byte form; the three-byte
form is read and written high byte first here. `parse_header` takes every such
header apart again, leaving the fields the format omits as the last header left
them.
-/

namespace Rtmp

open Bytes StreamUtil NetworkUtil

/-- The fields after the basic header, by format. -/
inductive MessageHeader where
  | full (timestamp msgLength : UInt32) (msgTypeId : MsgTypeId) (msgStreamId : UInt32)
  | sameStream (timestampDelta msgLength : UInt32) (msgTypeId : MsgTypeId)
  | sameLengthAndStream (timestampDelta : UInt32)
  | continuation
  deriving DecidableEq, Repr

namespace MessageHeader

def formatType : MessageHeader → FormatType
  | full .. => .full
  | sameStream .. => .sameStream
  | sameLengthAndStream .. => .sameLengthAndStream
  | continuation => .continuation

/-- The 24-bit time field, full when the time is in the extended timestamp. -/
def timeField (time : UInt32) : List UInt8 :=
  toBE 3 (if time.toNat < 0xFFFFFF then time.toNat else 0xFFFFFF)

def extendedTimestamp (time : UInt32) : List UInt8 :=
  if time.toNat < 0xFFFFFF then [] else toBE 4 time.toNat

/-- The timestamp or delta a header carries. -/
def time : MessageHeader → UInt32
  | full timestamp _ _ _ => timestamp
  | sameStream timestampDelta _ _ => timestampDelta
  | sameLengthAndStream timestampDelta => timestampDelta
  | continuation => 0

def withTime (time : UInt32) : MessageHeader → MessageHeader
  | full _ msgLength msgTypeId msgStreamId => full time msgLength msgTypeId msgStreamId
  | sameStream _ msgLength msgTypeId => sameStream time msgLength msgTypeId
  | sameLengthAndStream _ => sameLengthAndStream time
  | continuation => continuation

/-- The fields of a format, up to the extended timestamp. -/
def fields : MessageHeader → List UInt8
  | full timestamp msgLength msgTypeId msgStreamId =>
      timeField timestamp ++ (toBE 3 msgLength.toNat ++ msgTypeId.code :: toLE 4 msgStreamId.toNat)
  | sameStream timestampDelta msgLength msgTypeId =>
      timeField timestampDelta ++ (toBE 3 msgLength.toNat ++ [msgTypeId.code])
  | sameLengthAndStream timestampDelta => timeField timestampDelta
  | continuation => []

def encode (m : MessageHeader) : List UInt8 := m.fields ++ extendedTimestamp m.time

/-- What can be sent: a length of 24 bits and a type the receiver knows. -/
def Valid : MessageHeader → Prop
  | full _ msgLength msgTypeId _ => msgLength.toNat < 2 ^ 24 ∧ msgTypeId ≠ .unknown
  | sameStream _ msgLength msgTypeId => msgLength.toNat < 2 ^ 24 ∧ msgTypeId ≠ .unknown
  | sameLengthAndStream _ => True
  | continuation => True

instance : (h : MessageHeader) → Decidable h.Valid
  | full _ msgLength msgTypeId _ =>
      inferInstanceAs (Decidable (msgLength.toNat < 2 ^ 24 ∧ msgTypeId ≠ .unknown))
  | sameStream _ msgLength msgTypeId =>
      inferInstanceAs (Decidable (msgLength.toNat < 2 ^ 24 ∧ msgTypeId ≠ .unknown))
  | sameLengthAndStream _ => inferInstanceAs (Decidable True)
  | continuation => inferInstanceAs (Decidable True)

/-- The header a message header makes of the one before it. -/
def applyTo (header : RtmpHeader) : MessageHeader → RtmpHeader
  | full timestamp msgLength msgTypeId msgStreamId =>
      { header with timestamp, msgLength, msgTypeId, msgStreamId }
  | sameStream timestampDelta msgLength msgTypeId =>
      { header with timestampDelta, msgLength, msgTypeId }
  | sameLengthAndStream timestampDelta => { header with timestampDelta }
  | continuation => header

end MessageHeader

/-- A chunk as it is sent. `wide` asks for the three-byte form of the chunk stream
id where there is a choice. -/
structure Chunk where
  chunkStreamId : UInt32
  wide : Bool := false
  header : MessageHeader
  payload : List UInt8
  deriving DecidableEq, Repr

namespace Chunk

def basicHeader (format : FormatType) (chunkStreamId : UInt32) (wide : Bool) : List UInt8 :=
  if chunkStreamId.toNat ≤ 63 then [(format.code <<< 6) + chunkStreamId.toUInt8]
  else if chunkStreamId.toNat ≤ 319 ∧ wide = false then
    [format.code <<< 6, UInt8.ofNat (chunkStreamId.toNat - 64)]
  else ((format.code <<< 6) + 1) :: toBE 2 (chunkStreamId.toNat - 64)

def encodeHeader (c : Chunk) : List UInt8 :=
  basicHeader c.header.formatType c.chunkStreamId c.wide ++ c.header.encode

def encode (c : Chunk) : List UInt8 := c.encodeHeader ++ c.payload

structure Valid (c : Chunk) : Prop where
  id_ge : 2 ≤ c.chunkStreamId.toNat
  id_le : c.chunkStreamId.toNat ≤ 65599
  header : c.header.Valid

instance (c : Chunk) : Decidable c.Valid :=
  decidable_of_iff (2 ≤ c.chunkStreamId.toNat ∧ c.chunkStreamId.toNat ≤ 65599 ∧ c.header.Valid)
    ⟨fun ⟨h1, h2, h3⟩ => ⟨h1, h2, h3⟩, fun ⟨h1, h2, h3⟩ => ⟨h1, h2, h3⟩⟩

/-- The parsed header once the chunk header has been read. -/
def applyTo (c : Chunk) (header : RtmpHeader) : RtmpHeader :=
  c.header.applyTo
    { header with formatType := c.header.formatType, chunkStreamId := c.chunkStreamId }

end Chunk

namespace RtmpHeaderParser

variable {p : RtmpHeaderParser} {rest : List UInt8} {total : Nat}

/-- One stage whose bytes are at hand, and the rest of the header after it. -/
theorem parseHeader_step {stream : List UInt8} {p' : RtmpHeaderParser}
    (hs : p.parsingState ≠ .complete)
    (h : p.parseInCurrentState stream stream.length =
      { result := .true, parser := p', stream := rest, readedSize := p.parsingState.size }) :
    p.parseHeader stream stream.length total =
      p'.parseHeader rest rest.length (total + p.parsingState.size) := by
  have htrue : (p.parseInCurrentState stream stream.length).result = .true := by rw [h]
  have hstream := ((p.parseInCurrentState_takes hs).consumes htrue).2
  rw [h] at hstream
  dsimp only at hstream
  rw [parseHeader_of_true hs htrue, h, hstream, List.length_drop]

/-- The first byte of a basic header, taken apart. -/
theorem getType_basic {f : FormatType} (hf : f ≠ .unknown) {n : Nat} (hn : n < 64) :
    FormatType.getType (((f.code <<< 6) + UInt8.ofNat n) >>> 6) = f ∧
      ((f.code <<< 6) + UInt8.ofNat n) &&& 0x3F = UInt8.ofNat n := by
  have hall : ∀ n : Fin 64, ∀ f ∈ [FormatType.full, .sameStream, .sameLengthAndStream,
      .continuation], FormatType.getType (((f.code <<< 6) + UInt8.ofNat n.val) >>> 6) = f ∧
        ((f.code <<< 6) + UInt8.ofNat n.val) &&& 0x3F = UInt8.ofNat n.val := by
    decide +kernel
  exact hall ⟨n, hn⟩ f (by cases f <;> simp at hf ⊢)

theorem parseBasicHeader1byte_encoded (rest : List UInt8) (h : RtmpHeader) {f : FormatType}
    (hf : f ≠ .unknown) {n : Nat} (hn : n < 64) :
    (⟨.basicHeader1byte, h⟩ : RtmpHeaderParser).parseInCurrentState
        (((f.code <<< 6) + UInt8.ofNat n) :: rest) (rest.length + 1) =
      { result := .true
        parser := ⟨
          if UInt8.ofNat n = 0 then .basicHeader2byte
          else if UInt8.ofNat n = 1 then .basicHeader3byte
          else getChunkHeaderParsingState f,
          { h with formatType := f, chunkStreamId := (UInt8.ofNat n).toUInt32 }⟩
        stream := rest
        readedSize := 1 } := by
  obtain ⟨htype, hid⟩ := getType_basic hf hn
  simp only [parseInCurrentState, parseBasicHeader1byte, readUchar_cons, htype, hid, if_neg hf,
    if_pos (Nat.le_add_left 1 rest.length)]

/-- The two id bytes of the three-byte form, high byte first. -/
theorem csId_of_bytes (v : UInt16) :
    ((v &&& 0xFF00) >>> 8).toUInt32 * 256 + (v &&& 0xFF).toUInt32 =
      UInt32.ofNat v.toNat := by
  have hv : v.toNat < 65536 := v.toNat_lt
  have hlow : (v &&& 0xFF).toNat = v.toNat % 256 := by
    simpa using Nat.and_two_pow_sub_one_eq_mod v.toNat 8
  have hhigh : ((v &&& 0xFF00) >>> 8).toNat = v.toNat / 256 := by
    have hshift := Nat.shiftRight_and_distrib (a := v.toNat) (b := 0xFF00) (i := 8)
    have hmask := Nat.and_two_pow_sub_one_eq_mod (v.toNat / 256) 8
    simp [Nat.shiftRight_eq_div_pow] at hshift hmask ⊢
    omega
  apply UInt32.toNat_inj.mp
  rw [UInt32.toNat_add, UInt32.toNat_mul, UInt16.toNat_toUInt32, UInt16.toNat_toUInt32, hlow,
    hhigh, UInt32.toNat_ofNat']
  simp
  omega

section BasicHeader

variable (h : RtmpHeader) {f : FormatType} {id : UInt32}

theorem parseHeader_oneByte (hf : f ≠ .unknown) (hge : 2 ≤ id.toNat) (hle : id.toNat ≤ 63) :
    (⟨.basicHeader1byte, h⟩ : RtmpHeaderParser).parseHeader
        (((f.code <<< 6) + id.toUInt8) :: rest) (rest.length + 1) total =
      (⟨getChunkHeaderParsingState f, { h with formatType := f, chunkStreamId := id }⟩ :
        RtmpHeaderParser).parseHeader rest rest.length (total + 1) := by
  have hid : id.toUInt8 = UInt8.ofNat id.toNat := rfl
  have hback : (UInt8.ofNat id.toNat).toUInt32 = id := by
    apply UInt32.toNat_inj.mp
    simp
    omega
  have h0 : UInt8.ofNat id.toNat ≠ 0 := by
    intro h
    have := congrArg UInt8.toNat h
    simp at this
    omega
  have h1 : UInt8.ofNat id.toNat ≠ 1 := by
    intro h
    have := congrArg UInt8.toNat h
    simp at this
    omega
  have hstage := parseBasicHeader1byte_encoded rest h hf
    (Nat.lt_succ_of_le hle : id.toNat < 64)
  rw [if_neg h0, if_neg h1, hback] at hstage
  rw [hid]
  exact parseHeader_step (by simp) hstage

theorem parseHeader_twoBytes (hf : f ≠ .unknown) (hge : 64 ≤ id.toNat) (hle : id.toNat ≤ 319) :
    (⟨.basicHeader1byte, h⟩ : RtmpHeaderParser).parseHeader
        (f.code <<< 6 :: UInt8.ofNat (id.toNat - 64) :: rest) (rest.length + 2) total =
      (⟨getChunkHeaderParsingState f, { h with formatType := f, chunkStreamId := id }⟩ :
        RtmpHeaderParser).parseHeader rest rest.length (total + 2) := by
  have hfirst := parseBasicHeader1byte_encoded
    (UInt8.ofNat (id.toNat - 64) :: rest) h hf (by decide : 0 < 64)
  have hback : (UInt8.ofNat (id.toNat - 64)).toUInt32 + 64 = id := by
    apply UInt32.toNat_inj.mp
    simp
    omega
  have hsecond : (⟨.basicHeader2byte,
        { h with formatType := f, chunkStreamId := (UInt8.ofNat 0).toUInt32 }⟩ :
          RtmpHeaderParser).parseInCurrentState
        (UInt8.ofNat (id.toNat - 64) :: rest) (rest.length + 1) =
      { result := .true
        parser := ⟨getChunkHeaderParsingState f,
          { h with formatType := f, chunkStreamId := id }⟩
        stream := rest
        readedSize := 1 } := by
    simp only [parseInCurrentState, parseBasicHeader2byte, readUchar_cons, hback,
      if_pos (Nat.le_add_left 1 rest.length)]
  have hzero : (f.code <<< 6) + UInt8.ofNat 0 = f.code <<< 6 := UInt8.add_zero _
  rw [hzero] at hfirst
  exact (parseHeader_step (by simp) hfirst).trans (parseHeader_step (by simp) hsecond)

theorem parseHeader_threeBytes (hf : f ≠ .unknown) (hge : 64 ≤ id.toNat)
    (hle : id.toNat ≤ 65599) :
    (⟨.basicHeader1byte, h⟩ : RtmpHeaderParser).parseHeader
        (((f.code <<< 6) + 1) :: (toBE 2 (id.toNat - 64) ++ rest)) (rest.length + 3) total =
      (⟨getChunkHeaderParsingState f, { h with formatType := f, chunkStreamId := id }⟩ :
        RtmpHeaderParser).parseHeader rest rest.length (total + 3) := by
  have hbytes : (UInt16.ofNat (id.toNat - 64)).toNat = id.toNat - 64 := by
    simp
    omega
  have hmark : UInt8.ofNat 1 = 1 := rfl
  have hback : UInt32.ofNat (id.toNat - 64) + 64 = id := by
    apply UInt32.toNat_inj.mp
    simp
    omega
  have hfirst := parseBasicHeader1byte_encoded
    (toBE 2 (id.toNat - 64) ++ rest) h hf (by decide : 1 < 64)
  have hsecond : (⟨.basicHeader3byte,
        { h with formatType := f, chunkStreamId := (UInt8.ofNat 1).toUInt32 }⟩ :
          RtmpHeaderParser).parseInCurrentState
        (toBE 2 (id.toNat - 64) ++ rest) (toBE 2 (id.toNat - 64) ++ rest).length =
      { result := .true
        parser := ⟨getChunkHeaderParsingState f,
          { h with formatType := f, chunkStreamId := id }⟩
        stream := rest
        readedSize := 2 } := by
    have hread := readUshort_toBE rest (UInt16.ofNat (id.toNat - 64))
    rw [hbytes] at hread
    simp only [parseInCurrentState, parseBasicHeader3byte, hread, csId_of_bytes, hbytes, hback]
    simp
  rw [hmark] at hfirst
  exact (parseHeader_step (by simp) hfirst).trans (parseHeader_step (by simp) hsecond)

/-- The basic header, in whichever form it was written. -/
theorem parseHeader_basicHeader (hf : f ≠ .unknown) (hge : 2 ≤ id.toNat)
    (hle : id.toNat ≤ 65599) (wide : Bool) :
    (⟨.basicHeader1byte, h⟩ : RtmpHeaderParser).parseHeader
        (Chunk.basicHeader f id wide ++ rest) (Chunk.basicHeader f id wide ++ rest).length total =
      (⟨getChunkHeaderParsingState f, { h with formatType := f, chunkStreamId := id }⟩ :
        RtmpHeaderParser).parseHeader rest rest.length
          (total + (Chunk.basicHeader f id wide).length) := by
  unfold Chunk.basicHeader
  split
  · next hone => exact parseHeader_oneByte h hf hge hone
  · next hone =>
    have hlarge : 64 ≤ id.toNat := Nat.lt_of_not_le hone
    split
    · next htwo => exact parseHeader_twoBytes h hf hlarge htwo.1
    · exact parseHeader_threeBytes h hf hlarge hle

end BasicHeader

/-- What the 24-bit time field reads as. -/
def timeValue (time : UInt32) : UInt32 :=
  if time.toNat < 0xFFFFFF then time else 0xFFFFFF

theorem readUint3_of_lt {v : UInt32} (h : v.toNat < 2 ^ 24) :
    readUint3 (toBE 3 v.toNat ++ rest) = (v, rest) := by
  rw [readUint3_toBE, Nat.mod_eq_of_lt h, UInt32.ofNat_toNat]

theorem readUint3_timeField (time : UInt32) :
    readUint3 (MessageHeader.timeField time ++ rest) = (timeValue time, rest) := by
  unfold MessageHeader.timeField timeValue
  split
  · rename_i h
    exact readUint3_of_lt (by omega)
  · exact readUint3_of_lt (v := 0xFFFFFF) (by decide)

theorem timeValue_eq_iff (time : UInt32) :
    timeValue time = 0x00FFFFFF ↔ ¬ time.toNat < 0xFFFFFF := by
  unfold timeValue
  split
  · rename_i h
    simp only [h, not_true_eq_false, iff_false]
    rintro rfl
    exact absurd h (by decide)
  · rename_i h
    simp [h]

theorem timeValue_le (time : UInt32) : ¬ 0x00FFFFFF < timeValue time := by
  unfold timeValue
  split
  · rename_i h
    rw [UInt32.lt_iff_toNat_lt]
    have hmax : (0x00FFFFFF : UInt32).toNat = 0xFFFFFF := rfl
    omega
  · decide

/-- The stages of a message header take its fields and go on to the extended
timestamp when the time field is full. -/
theorem parseInCurrentState_fields (h : RtmpHeader) {m : MessageHeader} (hm : m.Valid)
    (rest : List UInt8) :
    (⟨getChunkHeaderParsingState m.formatType, h⟩ : RtmpHeaderParser).parseInCurrentState
        (m.fields ++ rest) (m.fields ++ rest).length =
      { result := .true
        parser := ⟨if timeValue m.time = 0x00FFFFFF then .extendedTimestamp else .complete,
          (m.withTime (timeValue m.time)).applyTo h⟩
        stream := rest
        readedSize := m.fields.length } := by
  cases m with
  | full timestamp msgLength msgTypeId msgStreamId =>
      have hid : UInt32.ofNat (ofLE ((toLE 4 msgStreamId.toNat ++ rest).take 4)) =
          msgStreamId := by
        rw [List.take_left' (length_toLE _ _), ofLE_toLE_of_lt msgStreamId.toNat_lt,
          UInt32.ofNat_toNat]
      have hsize : (MessageHeader.full timestamp msgLength msgTypeId msgStreamId).fields.length =
          11 := by
        simp [MessageHeader.fields, MessageHeader.timeField]
      simp only [hsize, parseInCurrentState, getChunkHeaderParsingState, MessageHeader.formatType,
        parseChunkHeaderType0, List.length_append, if_pos (Nat.le_add_right 11 rest.length)]
      simp only [MessageHeader.fields, List.append_assoc, List.cons_append, readUint3_timeField,
        readUint3_of_lt hm.1, readUchar_cons, hid, MsgTypeId.getId_code,
        if_neg (timeValue_le timestamp), if_neg hm.2, List.drop_left' (length_toLE 4 _),
        MessageHeader.withTime, MessageHeader.applyTo, MessageHeader.time]
      rfl
  | sameStream timestampDelta msgLength msgTypeId =>
      have hsize : (MessageHeader.sameStream timestampDelta msgLength msgTypeId).fields.length =
          7 := by
        simp [MessageHeader.fields, MessageHeader.timeField]
      simp only [hsize, parseInCurrentState, getChunkHeaderParsingState, MessageHeader.formatType,
        parseChunkHeaderType1, List.length_append, if_pos (Nat.le_add_right 7 rest.length)]
      simp only [MessageHeader.fields, List.append_assoc, List.cons_append, List.nil_append,
        readUint3_timeField, readUint3_of_lt hm.1, readUchar_cons, MsgTypeId.getId_code,
        if_neg hm.2, MessageHeader.withTime, MessageHeader.applyTo, MessageHeader.time]
      rfl
  | sameLengthAndStream timestampDelta =>
      have hsize : (MessageHeader.sameLengthAndStream timestampDelta).fields.length = 3 := by
        simp [MessageHeader.fields, MessageHeader.timeField]
      simp only [hsize, parseInCurrentState, getChunkHeaderParsingState, MessageHeader.formatType,
        parseChunkHeaderType2, List.length_append, if_pos (Nat.le_add_right 3 rest.length)]
      simp only [MessageHeader.fields, readUint3_timeField, MessageHeader.withTime,
        MessageHeader.applyTo, MessageHeader.time]
      rfl
  | continuation => rfl

/-- The last stage, entered when the time field was full: the 32-bit time replaces
what the field read as. -/
theorem parseInCurrentState_extendedTimestamp {h : RtmpHeader} {m : MessageHeader}
    (hformat : h.formatType = m.formatType) (hm : m ≠ .continuation) (time t : UInt32)
    (rest : List UInt8) :
    (⟨.extendedTimestamp, (m.withTime t).applyTo h⟩ : RtmpHeaderParser).parseInCurrentState
        (toBE 4 time.toNat ++ rest) (toBE 4 time.toNat ++ rest).length =
      { result := .true, parser := ⟨.complete, (m.withTime time).applyTo h⟩, stream := rest,
        readedSize := 4 } := by
  have hsize : 4 ≤ (toBE 4 time.toNat ++ rest).length := by simp
  simp only [parseInCurrentState, parseExtendedTimestamp, if_pos hsize, readUint_toBE]
  cases m <;> simp only [MessageHeader.formatType] at hformat <;>
    simp_all [MessageHeader.withTime, MessageHeader.applyTo]

/-- A message header up to the extended timestamp. -/
theorem parseHeader_fields (h : RtmpHeader) {m : MessageHeader} (hm : m.Valid)
    (rest : List UInt8) (total : Nat) :
    (⟨getChunkHeaderParsingState m.formatType, h⟩ : RtmpHeaderParser).parseHeader
        (m.fields ++ rest) (m.fields ++ rest).length total =
      (⟨if timeValue m.time = 0x00FFFFFF then .extendedTimestamp else .complete,
        (m.withTime (timeValue m.time)).applyTo h⟩ : RtmpHeaderParser).parseHeader rest
          rest.length (total + m.fields.length) := by
  have hstate : getChunkHeaderParsingState m.formatType ≠ .complete := by
    cases m <;> simp [getChunkHeaderParsingState, MessageHeader.formatType]
  have hsize : (getChunkHeaderParsingState m.formatType).size = m.fields.length := by
    cases m <;> simp [getChunkHeaderParsingState, MessageHeader.formatType, ParsingState.size,
      MessageHeader.fields, MessageHeader.timeField]
  have hfields := parseInCurrentState_fields h hm rest
  rw [← hsize] at hfields ⊢
  exact parseHeader_step hstate hfields

/-- The message header of each format, from the stage the basic header leads to. -/
theorem parseHeader_messageHeader {h : RtmpHeader} {m : MessageHeader}
    (hformat : h.formatType = m.formatType) (hm : m.Valid) (rest : List UInt8) :
    (⟨getChunkHeaderParsingState m.formatType, h⟩ : RtmpHeaderParser).parseHeader
        (m.encode ++ rest) (m.encode ++ rest).length total =
      { result := .true, parser := ⟨.basicHeader1byte, m.applyTo h⟩, stream := rest,
        readedSize := total + m.encode.length } := by
  have hself : m.withTime m.time = m := by cases m <;> rfl
  have hfull := timeValue_eq_iff m.time
  rw [MessageHeader.encode, List.append_assoc, parseHeader_fields h hm]
  by_cases htime : m.time.toNat < 0xFFFFFF
  · have hvalue : timeValue m.time = m.time := if_pos htime
    rw [if_neg (fun heq => hfull.mp heq htime), hvalue, hself, MessageHeader.extendedTimestamp,
      if_pos htime, parseHeader_of_complete rfl, List.nil_append, List.append_nil]
  · have hm' : m ≠ .continuation := by
      rintro rfl
      exact htime (by decide)
    have hextended := parseInCurrentState_extendedTimestamp hformat hm' m.time
      (timeValue m.time) rest
    rw [if_pos (hfull.mpr htime), MessageHeader.extendedTimestamp, if_neg htime,
      parseHeader_step (by simp) hextended, hself, parseHeader_of_complete rfl]
    simp [ParsingState.size, Nat.add_assoc]

end RtmpHeaderParser

open RtmpHeaderParser in
/-- A header that has been sent is read back whole, and nothing after it is touched. -/
theorem Chunk.parseHeader_encodeHeader {c : Chunk} (hc : c.Valid) (h : RtmpHeader)
    (rest : List UInt8) :
    (⟨.basicHeader1byte, h⟩ : RtmpHeaderParser).parseHeader (c.encodeHeader ++ rest)
        (c.encodeHeader ++ rest).length =
      { result := .true, parser := ⟨.basicHeader1byte, c.applyTo h⟩, stream := rest,
        readedSize := c.encodeHeader.length } := by
  have hf : c.header.formatType ≠ .unknown := by
    cases c.header <;> simp [MessageHeader.formatType]
  rw [Chunk.encodeHeader, List.append_assoc,
    parseHeader_basicHeader h hf hc.id_ge hc.id_le c.wide, parseHeader_messageHeader rfl hc.header,
    List.length_append, Nat.zero_add]
  rfl

end Rtmp
