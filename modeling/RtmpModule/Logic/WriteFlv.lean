import RtmpModule.Library.FlvFile
import RtmpModule.Logic.RtmpHandler

/-!
# Recording media messages

`write_flv` appends every media message of a connection to a file that is named after
the stream, as one tag of the FLV format. The header of the format is written before
the first tag of the connection. A tag is put together byte by byte from the memory
of its fields; what comes out is read back from both ends of the file.
-/

namespace Rtmp

/-- A `MediaMessage` as `MediaMsgParser` makes it: its length fits the 24 bits of a chunk header
and is that of the body. -/
structure MediaMessage where
  header : RtmpHeader
  data : List UInt8
  media : header.isAudioMsg = true ∨ header.isVideoMsg = true
  msgLength : header.msgLength.toNat = data.length
  data_lt : data.length < 2 ^ 24

/-- The part of `MediaPublishEsContext` that recording works on; nothing sets the deltas. -/
structure RecordingContext where
  streamName : List UInt8 := []
  writeFlvHeaderDone : Bool := false
  audioTimestampDelta : UInt32 := 0
  videoTimestampDelta : UInt32 := 0

/-- What is handed to a stream that appends to the file of a name. The stream drops it when the file
does not open. -/
structure FileAppend where
  fileName : List UInt8
  bytes : List UInt8

namespace WriteFlv

/-- The file a stream is recorded in. -/
def flvFileName (streamName : List UInt8) : List UInt8 :=
  let streamName :=
    if streamName.isEmpty then ascii ['a', 'n', 'o', 'n', 'y', 'm', 'o', 'u', 's'] else streamName
  ascii ['d', 'u', 'm', 'p', '/'] ++ streamName ++ ascii ['/'] ++ streamName ++
    ascii ['.', 'f', 'l', 'v']

/-- `write_flv_header`. -/
def writeFlvHeader (fileName : List UInt8) : FileAppend where
  fileName := fileName
  bytes :=
    [0x46, 0x4c, 0x56, 0x01, 0x05, 0x00, 0x00, 0x00, 0x09, 0x00, 0x00, 0x00, 0x00]

/-- The memory of an integer, `p` in the source. -/
def memory (value : UInt32) : List UInt8 := Bytes.toLE 4 value.toNat

/-- The byte `p[i]`. -/
def byteOf (value : UInt32) (i : Nat) : UInt8 := (memory value).getD i 0

/-- The bytes of `hdr`. -/
def tagHeader (header : RtmpHeader) (timestampInMill : UInt32) : List UInt8 :=
  let length := byteOf header.msgLength
  let time := byteOf timestampInMill
  [header.msgTypeId.code, length 2, length 1, length 0, time 2, time 1, time 0, time 3, 0, 0, 0]

/-- The tag of a message, with its size behind it. -/
def writeTag (fileName : List UInt8) (header : RtmpHeader) (data : List UInt8) (delta : UInt32) :
    FileAppend :=
  let hdr := tagHeader header (header.timestamp + delta)
  let size := byteOf (UInt32.ofNat hdr.length + header.msgLength)
  { fileName, bytes := hdr ++ data ++ [size 3, size 2, size 1, size 0] }

variable (context : RecordingContext)

/-- The header is written once in a connection. -/
def headerOnce : RecordingContext × List FileAppend :=
  if context.writeFlvHeaderDone then (context, [])
  else
    ({ context with writeFlvHeaderDone := true },
      [writeFlvHeader (flvFileName context.streamName)])

end WriteFlv

open WriteFlv

/-- `write_flv`, with what it hands to the streams of the file. The branch of video looks for the
header once more. -/
def writeFlv (context : RecordingContext) (header : RtmpHeader) (data : List UInt8) :
    RecordingContext × List FileAppend :=
  let fileName := flvFileName context.streamName
  let (done, first) := headerOnce context
  if header.isAudioMsg then
    (done, first ++ [writeTag fileName header data context.audioTimestampDelta])
  else if header.isVideoMsg then
    let (done, again) := headerOnce done
    (done, first ++ again ++ [writeTag fileName header data context.videoTimestampDelta])
  else (done, first)

/-- `write_flv` on the messages of a connection. -/
def writeMessages : RecordingContext → List MediaMessage → RecordingContext × List FileAppend
  | context, [] => (context, [])
  | context, m :: messages =>
      let (context, appends) := writeFlv context m.header m.data
      let (context, more) := writeMessages context messages
      (context, appends ++ more)

/-- What a message is, as a tag. -/
def MediaMessage.tag (m : MediaMessage) : FlvFile.Tag where
  type := if m.header.isAudioMsg then .audio else .video
  timestamp := m.header.timestamp
  body := m.data
  body_lt := m.data_lt

namespace MediaMessage

variable (m : MediaMessage)

theorem isVideoMsg_of_not_audio (h : ¬m.header.isAudioMsg = true) :
    m.header.isVideoMsg = true := m.media.resolve_left h

theorem tagType_code : m.tag.type.code = m.header.msgTypeId.code := by
  by_cases haudio : m.header.isAudioMsg = true
  · have htype : m.header.msgTypeId = .audioData := by simpa [RtmpHeader.isAudioMsg] using haudio
    rw [tag, if_pos haudio, htype]
    rfl
  · have htype : m.header.msgTypeId = .videoData := by
      simpa [RtmpHeader.isVideoMsg] using m.isVideoMsg_of_not_audio haudio
    rw [tag, if_neg haudio, htype]
    rfl

end MediaMessage

namespace WriteFlv

variable (context : RecordingContext) (m : MediaMessage)

/-- The time that is added to that of a message. -/
def delta : UInt32 :=
  if m.header.isAudioMsg then context.audioTimestampDelta else context.videoTimestampDelta

/-- The tag a message is recorded in. -/
def recordedTag : FlvFile.Tag :=
  { m.tag with timestamp := m.header.timestamp + delta context m }

/-- The pieces a message is recorded in. -/
def recordedPieces : List FlvFile.Piece :=
  if context.writeFlvHeaderDone then [.tag (recordedTag context m)]
  else [.header, .tag (recordedTag context m)]

/-- Three bytes of memory, last one first. -/
theorem byteOf_three (value : UInt32) :
    [byteOf value 2, byteOf value 1, byteOf value 0] = Bytes.toBE 3 value.toNat := rfl

/-- Four bytes of memory, last one first. -/
theorem byteOf_four (value : UInt32) :
    [byteOf value 3, byteOf value 2, byteOf value 1, byteOf value 0] =
      Bytes.toBE 4 value.toNat := rfl

theorem byteOf_high (value : UInt32) : byteOf value 3 = UInt8.ofNat (value.toNat / 2 ^ 24) := by
  have hquot : value.toNat / 256 / 256 / 256 = value.toNat / 2 ^ 24 := by omega
  rw [← hquot]
  rfl

/-- What is written for a message is the encoding of its tag. -/
theorem writeTag_bytes (fileName : List UInt8) :
    (writeTag fileName m.header m.data (delta context m)).bytes =
      (recordedTag context m).encode := by
  have hhead : tagHeader m.header (m.header.timestamp + delta context m) =
      (recordedTag context m).head := by
    have hbody : (recordedTag context m).body.length = m.header.msgLength.toNat :=
      m.msgLength.symm
    have htype : (recordedTag context m).type.code = m.header.msgTypeId.code := m.tagType_code
    rw [FlvFile.Tag.head, hbody, htype, ← byteOf_three, ← byteOf_three, ← byteOf_high]
    rfl
  have hsize : (UInt32.ofNat (tagHeader m.header (m.header.timestamp + delta context m)).length +
      m.header.msgLength).toNat = 11 + m.data.length := by
    have hlt := m.data_lt
    rw [hhead, FlvFile.Tag.length_head, UInt32.toNat_add, m.msgLength, UInt32.toNat_ofNat']
    omega
  have hbody : (recordedTag context m).body = m.data := rfl
  rw [FlvFile.Tag.encode, hbody, ← hsize, ← byteOf_four, ← hhead]
  rfl

/-- The second look for the header finds it written. -/
theorem headerOnce_again :
    headerOnce (headerOnce context).1 = ({ context with writeFlvHeaderDone := true }, []) := by
  cases context with
  | mk streamName done audioDelta videoDelta => cases done <;> rfl

theorem headerOnce_fst :
    (headerOnce context).1 = { context with writeFlvHeaderDone := true } := by
  cases context with
  | mk streamName done audioDelta videoDelta => cases done <;> rfl

theorem writeFlv_eq :
    writeFlv context m.header m.data = ({ context with writeFlvHeaderDone := true },
      (headerOnce context).2 ++
        [writeTag (flvFileName context.streamName) m.header m.data (delta context m)]) := by
  by_cases haudio : m.header.isAudioMsg = true
  · simp only [writeFlv, delta, haudio, ↓reduceIte, headerOnce_fst]
  · have hvideo := m.isVideoMsg_of_not_audio haudio
    simp only [writeFlv, delta, haudio, hvideo, Bool.false_eq_true, ↓reduceIte, headerOnce_again,
      List.append_nil]

/-- A message goes to the file of the stream. -/
theorem writeFlv_fileName {a : FileAppend} (h : a ∈ (writeFlv context m.header m.data).2) :
    a.fileName = flvFileName context.streamName := by
  rw [writeFlv_eq, List.mem_append, List.mem_singleton, headerOnce] at h
  rcases h with hheader | rfl
  · split at hheader
    · cases hheader
    · rw [List.mem_singleton.mp hheader]
      rfl
  · rfl

/-- A message is recorded in its tag, behind the header when that is not yet written. -/
theorem writeFlv_bytes :
    (writeFlv context m.header m.data).2.flatMap (·.bytes) =
      FlvFile.Piece.flatten (recordedPieces context m) := by
  rw [writeFlv_eq, List.flatMap_append, List.flatMap_singleton, writeTag_bytes, headerOnce,
    recordedPieces]
  split
  · rw [FlvFile.Piece.flatten_singleton]
    rfl
  · rw [FlvFile.Piece.flatten_cons, FlvFile.Piece.flatten_singleton]
    rfl

end WriteFlv

theorem writeMessages_cons (context : RecordingContext) (m : MediaMessage)
    (messages : List MediaMessage) :
    (writeMessages context (m :: messages)).2 = (writeFlv context m.header m.data).2 ++
      (writeMessages { context with writeFlvHeaderDone := true } messages).2 := by
  rw [writeMessages, writeFlv_eq]

/-- All messages of a connection go to the file of its stream. -/
theorem writeMessages_fileName (context : RecordingContext) (messages : List MediaMessage)
    {a : FileAppend} (h : a ∈ (writeMessages context messages).2) :
    a.fileName = flvFileName context.streamName := by
  induction messages generalizing context with
  | nil => cases h
  | cons m messages ih =>
      rw [writeMessages_cons, List.mem_append] at h
      exact h.elim (writeFlv_fileName context m) (ih _)

/-- Behind the header, the messages of a connection are their tags one after the other. -/
theorem writeMessages_bytes (context : RecordingContext) (messages : List MediaMessage) :
    (writeMessages context messages).2.flatMap (·.bytes) =
      (if context.writeFlvHeaderDone ∨ messages = [] then [] else FlvFile.header) ++
        FlvFile.encodeTags (messages.map (recordedTag context)) := by
  induction messages generalizing context with
  | nil => rw [if_pos (.inr rfl)]; rfl
  | cons m messages ih =>
      have hrest : recordedTag { context with writeFlvHeaderDone := true } =
        recordedTag context := rfl
      rw [writeMessages_cons, List.flatMap_append, writeFlv_bytes, ih, if_pos (.inl rfl), hrest,
        List.nil_append, List.map_cons, FlvFile.encodeTags_cons, ← List.append_assoc,
        recordedPieces]
      by_cases hdone : context.writeFlvHeaderDone = true
      · rw [if_pos hdone, if_pos (.inl hdone), FlvFile.Piece.flatten_singleton]
        rfl
      · rw [if_neg hdone, if_neg (by simp [hdone]), FlvFile.Piece.flatten_cons,
          FlvFile.Piece.flatten_singleton]
        rfl

open FlvFile in
/-- The messages of a connection are read back from both ends of what it appends to the file of
its stream. -/
theorem recordedTags_decode (streamName : List UInt8) (done : Bool)
    (messages : List MediaMessage) :
    let appends := (writeMessages { streamName, writeFlvHeaderDone := done } messages).2
    (∀ a ∈ appends, a.fileName = flvFileName streamName) ∧
      ∃ bytes, appends.flatMap (·.bytes) =
          (if done ∨ messages = [] then [] else header) ++ bytes ∧
        parseTags bytes = some (messages.map MediaMessage.tag) ∧
        parseTagsBackwards bytes = some (messages.map MediaMessage.tag) := by
  intro appends
  have htag : recordedTag { streamName, writeFlvHeaderDone := done } = MediaMessage.tag := by
    funext m
    have hdelta : delta { streamName, writeFlvHeaderDone := done } m = 0 := ite_self _
    rw [recordedTag, hdelta, UInt32.add_zero]
    rfl
  have hbytes := writeMessages_bytes { streamName, writeFlvHeaderDone := done } messages
  rw [htag] at hbytes
  exact ⟨fun _ => writeMessages_fileName _ messages, _, hbytes, parseTags_encodeTags _,
    parseTagsBackwards_encodeTags _⟩

end Rtmp
