import RtmpModule.Logic.RtmpHandler
import RtmpModule.Protocol.AMF0Values
import RtmpModule.Protocol.AMF0Writer
import RtmpModule.Protocol.HeaderRoundTrip
import RtmpModule.Protocol.MessageWriter

/-!
# The bodies of the replies

Every reply writes some AMF0 values one after the other, an object being its type, its
keys and values and the end marker, and counts what it writes. `write_payload` puts the
count into the header and reports it with the sizes of the headers. What is written is
an encoding of values that `consume_full` knows, the count is its length, and the size
reported is that of everything written.
-/

namespace Rtmp

open AMF0Serializer Amf0

/-- What a reply writes in one go. -/
inductive ReplyItem where
  | scalar (value : Scalar)
  | null
  | object (properties : List (List UInt8 × Scalar))
  deriving DecidableEq, Repr

namespace ReplyItem

/-- Keys and values of an object, the keys without their type. -/
def writeProperties (os : Written) (properties : List (List UInt8 × Scalar)) : Written :=
  properties.foldl (fun os p => p.2.write (writeObjectKey os p.1) true) os

def write (os : Written) : ReplyItem → Written
  | scalar value => value.write os true
  | null => writeNull os
  | object properties =>
      writeEndOfObject (writeProperties (writeType os .object) properties)

/-- The calls of a `write_body_payload`, with its `writed`. -/
def writeAll (items : List ReplyItem) : Written := items.foldl write {}

end ReplyItem

open ReplyItem

/-- The bytes of a text of the source. -/
def text (s : String) : List UInt8 := ascii s.toList

namespace OnStatusCode

def getTypeString : OnStatusCode → List UInt8
  | publishStart => text "NetStream.Publish.Start"
  | playStart => text "NetStream.Play.Start"
  | playReset => text "NetStream.Play.Reset"

/-- `get_description`, which does not look at the name of the stream. -/
def getDescription (code : OnStatusCode) (_streamName : List UInt8) : List UInt8 :=
  match code with
  | publishStart => text "Start publishing"
  | playStart => text "start..."
  | playReset => text "reset..."

end OnStatusCode

inductive MediaMetaDataType where
  | simple
  | detail
  deriving DecidableEq, Repr

/-- `MediaMetaData`; the numbers are the patterns of doubles. -/
structure MediaMetaData where
  dataType : MediaMetaDataType
  width : UInt64
  height : UInt64
  server : List UInt8
  bandwidth : UInt64
  description : List UInt8
  framerate : UInt64
  videoCodecId : List UInt8
  audioCodecId : List UInt8
  creationDate : List UInt8
  audioChannels : UInt64
  audioDataRate : UInt64
  audioDevice : List UInt8
  audioInputVolume : UInt64
  audioSampleRate : UInt64
  author : List UInt8
  avcLevel : UInt64
  avcProfile : UInt64
  copyright : List UInt8
  keywords : List UInt8
  presetName : List UInt8
  rating : List UInt8
  title : List UInt8
  videoDataRate : UInt64
  videoDevice : List UInt8
  videoKeyFrameFrequency : UInt64
  deriving DecidableEq, Repr

namespace MediaMetaData

def simpleItems (data : MediaMetaData) : List ReplyItem :=
  [.object [(text "width", .number data.width), (text "height", .number data.height),
    (text "Server", .shortString data.server), (text "bandwidth", .number data.bandwidth)]]

def detailItems (data : MediaMetaData) : List ReplyItem :=
  [.object [(text "description", .shortString data.description),
    (text "width", .number data.width),
    (text "height", .number data.height),
    (text "framerate", .number data.framerate),
    (text "videocodecid", .shortString data.videoCodecId),
    (text "audiocodecid", .shortString data.audioCodecId),
    (text "creationdate", .shortString data.creationDate),
    (text "audiochannels", .number data.audioChannels),
    (text "audiodatarate", .number data.audioDataRate),
    (text "audiodevice", .shortString data.audioDevice),
    (text "audioinputvolume", .number data.audioInputVolume),
    (text "audiosamplerate", .number data.audioSampleRate),
    (text "author", .shortString data.author),
    (text "avclevel", .number data.avcLevel),
    (text "avcprofile", .number data.avcProfile),
    (text "copyright", .shortString data.copyright),
    (text "keywords", .shortString data.keywords),
    (text "presetname", .shortString data.presetName),
    (text "rating", .shortString data.rating),
    (text "title", .shortString data.title),
    (text "videodatarate", .number data.videoDataRate),
    (text "videodevice", .shortString data.videoDevice),
    (text "videokeyframe_frequency", .number data.videoKeyFrameFrequency)]]

def writePayloadSimple (data : MediaMetaData) : Written := writeAll data.simpleItems

def writePayloadDetail (data : MediaMetaData) : Written := writeAll data.detailItems

def writePayload (data : MediaMetaData) : Written :=
  match data.dataType with
  | .simple => data.writePayloadSimple
  | .detail => data.writePayloadDetail

/-- What the kind of the data writes. -/
def items (data : MediaMetaData) : List ReplyItem :=
  match data.dataType with
  | .simple => data.simpleItems
  | .detail => data.detailItems

theorem writePayload_eq (data : MediaMetaData) : data.writePayload = writeAll data.items := by
  rw [writePayload, items]
  cases data.dataType <;> rfl

end MediaMetaData

/-- The fields of a reply with a body of AMF0 values. -/
inductive ReplyPayload where
  | connectResult (transactionId objectEncoding : UInt64)
  | simpleResult (transactionId : UInt64) (secondObject : Option UInt64)
  | onStatus (transactionId : UInt64) (code : OnStatusCode) (streamName : List UInt8)
  | onFCPublish (transactionId : UInt64) (streamName : List UInt8)
  | callError (transactionId : UInt64)
  | rtmpSampleAccess
  | onMetaData (data : MediaMetaData)
  deriving DecidableEq, Repr

namespace ReplyPayload

/-- The double 31. -/
def capabilitiesNumber : UInt64 := 0x403f000000000000

def connectResultItems (transactionId objectEncoding : UInt64) : List ReplyItem :=
  [.scalar (.shortString (text "_result")), .scalar (.number transactionId),
    .object [(text "fmsVer", .shortString (text "FMS/3,0,1,123")),
      (text "capabilities", .number capabilitiesNumber)],
    .object [(text "level", .shortString (text "status")),
      (text "code", .shortString (text "NetConnection.Connect.Success")),
      (text "description", .shortString (text "Connection succeeded")),
      (text "objectEncoding", .number objectEncoding)]]

def simpleResultItems (transactionId : UInt64) (secondObject : Option UInt64) :
    List ReplyItem :=
  [.scalar (.shortString (text "_result")), .scalar (.number transactionId), .null,
    match secondObject with
    | some secondObject => .scalar (.number secondObject)
    | none => .null]

def onStatusItems (transactionId : UInt64) (code : OnStatusCode) (streamName : List UInt8) :
    List ReplyItem :=
  [.scalar (.shortString (text "onStatus")), .scalar (.number transactionId), .null,
    .object [(text "level", .shortString (text "status")),
      (text "code", .shortString code.getTypeString),
      (text "description", .shortString (code.getDescription streamName))]]

def onFCPublishItems (transactionId : UInt64) (streamName : List UInt8) : List ReplyItem :=
  [.scalar (.shortString (text "onFCPublish")), .scalar (.number transactionId), .null,
    .object [(text "code", .shortString (text "NetStream.Publish.Start")),
      (text "description", .shortString streamName)]]

def callErrorItems (transactionId : UInt64) : List ReplyItem :=
  [.scalar (.shortString (text "_error")), .scalar (.number transactionId), .null,
    .object [(text "level", .shortString (text "error")),
      (text "code", .shortString (text "NetConnection.Call.Failed")),
      (text "description",
        .shortString (text "Specified stream not found in call to releaseStream"))]]

def rtmpSampleAccessItems : List ReplyItem :=
  [.scalar (.shortString (text "|RtmpSampleAccess")), .scalar (.boolean false),
    .scalar (.boolean false)]

/-- The `write_body_payload` of each class. Only `OnMetaData` has its data written and
counted apart. -/
def writeBodyPayload : ReplyPayload → Written
  | connectResult transactionId objectEncoding =>
      writeAll (connectResultItems transactionId objectEncoding)
  | simpleResult transactionId secondObject =>
      writeAll (simpleResultItems transactionId secondObject)
  | onStatus transactionId code streamName =>
      writeAll (onStatusItems transactionId code streamName)
  | onFCPublish transactionId streamName => writeAll (onFCPublishItems transactionId streamName)
  | callError transactionId => writeAll (callErrorItems transactionId)
  | rtmpSampleAccess => writeAll rtmpSampleAccessItems
  | onMetaData data =>
      (writeAll [.scalar (.shortString (text "onMetaData"))]).append data.writePayload

/-- `write_payload` of `CommandMessage` and of `DataMessage`, which are the same: the
message with the length in its header, and what is written. Of `msg` only the header and
the chunk size matter, as of every reply. -/
def writePayload (msg : RtmpMessage) (payload : ReplyPayload) : Option (RtmpMessage × Written) :=
  let body := payload.writeBodyPayload
  let msg := msg.setHeader { msg.header with msgLength := UInt32.ofNat body.writed }
  (msg.writePayloadWithBody body.bytes).map fun written =>
    (msg, msg.header.writePayload.append written)

/-- The texts of the caller, which alone can be long, are short of 32768 bytes. -/
def ShortTexts : ReplyPayload → Prop
  | onFCPublish _ streamName => streamName.length < 32768
  | onMetaData data =>
      ∀ value ∈ [data.server, data.description, data.videoCodecId, data.audioCodecId,
        data.creationDate, data.audioDevice, data.author, data.copyright, data.keywords,
        data.presetName, data.rating, data.title, data.videoDevice], value.length < 32768
  | _ => True

/-- Everything the body of a reply writes. -/
def items : ReplyPayload → List ReplyItem
  | connectResult transactionId objectEncoding => connectResultItems transactionId objectEncoding
  | simpleResult transactionId secondObject => simpleResultItems transactionId secondObject
  | onStatus transactionId code streamName => onStatusItems transactionId code streamName
  | onFCPublish transactionId streamName => onFCPublishItems transactionId streamName
  | callError transactionId => callErrorItems transactionId
  | rtmpSampleAccess => rtmpSampleAccessItems
  | onMetaData data =>
      .scalar (.shortString (text "onMetaData")) :: data.items

end ReplyPayload

namespace ReplyItem

/-- Keys and strings whose lengths are not negative as a `short`. -/
def Short : ReplyItem → Prop
  | scalar value => value.ShortLength
  | null => True
  | object properties => ∀ p ∈ properties, p.1.length < 32768 ∧ p.2.ShortLength

/-- The bytes a short item takes at most. -/
def room : ReplyItem → Nat
  | object properties => 65539 * properties.length + 4
  | _ => 32770

@[simp] theorem short_scalar (value : Scalar) :
    (scalar value).Short ↔ value.ShortLength := Iff.rfl

@[simp] theorem short_null : null.Short := trivial

@[simp] theorem short_object_nil : (object []).Short := fun _ h => by cases h

@[simp] theorem short_object_cons (p : List UInt8 × Scalar)
    (properties : List (List UInt8 × Scalar)) : (object (p :: properties)).Short ↔
      (p.1.length < 32768 ∧ p.2.ShortLength) ∧ (object properties).Short :=
  List.forall_mem_cons

theorem write_scalar {value : Scalar} (h : value.ShortLength) :
    ∃ v : Value, v.Supported ∧ v.encode.length ≤ 32770 ∧
      ∀ os, value.write os true = os.add v.encode := by
  cases value with
  | shortString value =>
      have hlength : value.length < 32768 := h
      refine ⟨.string ⟨value, by omega⟩, hlength, ?_, fun os => writeShortString_eq os value true⟩
      simp only [Value.encode, Text.encode, List.length_cons, List.length_append,
        Bytes.length_toBE]
      omega
  | number bits =>
      refine ⟨.number bits, trivial, ?_, fun os => writeNumber_eq os bits true⟩
      simp [Value.encode]
  | boolean value =>
      exact ⟨.boolean value, trivial, by simp [Value.encode],
        fun os => writeBoolean_eq os value true⟩

theorem writeProperties_cons (os : Written) (p : List UInt8 × Scalar)
    (properties : List (List UInt8 × Scalar)) :
    writeProperties os (p :: properties) =
      writeProperties (p.2.write (writeObjectKey os p.1) true) properties := rfl

/-- Keys and values are the properties of an object. -/
theorem writeProperties_values {properties : List (List UInt8 × Scalar)}
    (h : ∀ p ∈ properties, p.1.length < 32768 ∧ p.2.ShortLength) :
    ∃ ps : Properties, ps.Supported ∧ ps.encode.length ≤ 65539 * properties.length ∧
      ∀ os, writeProperties os properties = os.add ps.encode := by
  induction properties with
  | nil =>
      refine ⟨.nil, trivial, Nat.le_refl _, fun os => ?_⟩
      simp [writeProperties, Written.add, Properties.encode]
  | cons p properties ih =>
      obtain ⟨⟨hkey, hvalue⟩, hothers⟩ := List.forall_mem_cons.mp h
      obtain ⟨v, hv, hvlength, hwrite⟩ := write_scalar hvalue
      obtain ⟨ps, hps, hpslength, hrest⟩ := ih hothers
      refine ⟨.cons ⟨p.1, by omega⟩ v ps, ⟨hkey, hv, hps⟩, ?_, fun os => ?_⟩
      · simp only [Properties.encode, Text.encode, List.length_append, List.length_cons,
          Bytes.length_toBE]
        omega
      · rw [writeProperties_cons, writeObjectKey_eq, hwrite, hrest, Written.add_add,
          Written.add_add, Properties.encode, Text.encode, List.append_assoc,
          List.append_assoc, List.append_assoc]

theorem write_value {item : ReplyItem} (h : item.Short) :
    ∃ v : Value, v.Supported ∧ v.encode.length ≤ item.room ∧
      ∀ os, write os item = os.add v.encode := by
  cases item with
  | scalar value => exact write_scalar h
  | null => exact ⟨.null, trivial, by simp [Value.encode, room], writeNull_eq⟩
  | object properties =>
      obtain ⟨ps, hps, hlength, hwrite⟩ := writeProperties_values h
      refine ⟨.object ps, hps, ?_, fun os => ?_⟩
      · simp only [Value.encode, room, endMarker, List.length_cons, List.length_append,
          List.length_nil]
        omega
      · rw [write, writeType_eq, hwrite, writeEndOfObject_eq, Written.add_add, Written.add_add]
        rfl

/-- Short items are values one after the other. -/
theorem foldl_write {items : List ReplyItem} (h : ∀ item ∈ items, item.Short) :
    ∃ values : List Value, (∀ v ∈ values, v.Supported) ∧
      (values.flatMap Value.encode).length ≤ (items.map room).sum ∧
      ∀ os, items.foldl write os = os.add (values.flatMap Value.encode) := by
  induction items with
  | nil =>
      refine ⟨[], by simp, Nat.le_refl _, fun os => ?_⟩
      simp [Written.add]
  | cons item items ih =>
      obtain ⟨hitem, hothers⟩ := List.forall_mem_cons.mp h
      obtain ⟨v, hv, hvlength, hwrite⟩ := write_value hitem
      obtain ⟨values, hvalues, hlength, hrest⟩ := ih hothers
      refine ⟨v :: values, List.forall_mem_cons.mpr ⟨hv, hvalues⟩, ?_, fun os => ?_⟩
      · rw [List.flatMap_cons, List.length_append, List.map_cons, List.sum_cons]
        omega
      · rw [List.foldl_cons, hwrite, hrest, Written.add_add, List.flatMap_cons]

end ReplyItem

namespace ReplyPayload

/-- The texts of the source are short. -/
theorem items_short {payload : ReplyPayload} (h : payload.ShortTexts) :
    ∀ item ∈ payload.items, item.Short := by
  cases payload with
  | connectResult transactionId objectEncoding =>
      simp +decide [items, connectResultItems]
  | simpleResult transactionId secondObject =>
      cases secondObject <;> simp +decide [items, simpleResultItems]
  | onStatus transactionId code streamName =>
      cases code <;>
        simp +decide [items, onStatusItems, OnStatusCode.getTypeString,
          OnStatusCode.getDescription]
  | onFCPublish transactionId streamName =>
      have hname : streamName.length < 32768 := h
      simp +decide [items, onFCPublishItems, hname]
  | callError transactionId => simp +decide [items, callErrorItems]
  | rtmpSampleAccess => simp +decide [items, rtmpSampleAccessItems]
  | onMetaData data =>
      simp only [ShortTexts, List.forall_mem_cons] at h
      cases hdata : data.dataType with
      | simple =>
          simp +decide [items, MediaMetaData.items, hdata, MediaMetaData.simpleItems, h]
      | detail =>
          simp +decide [items, MediaMetaData.items, hdata, MediaMetaData.detailItems, h]

/-- A body fits in the 24 bits of a length. -/
theorem room_items (payload : ReplyPayload) : (payload.items.map room).sum < 2 ^ 24 := by
  cases payload with
  | connectResult transactionId objectEncoding => simp [items, connectResultItems, room]
  | simpleResult transactionId secondObject =>
      cases secondObject <;> simp [items, simpleResultItems, room]
  | onStatus transactionId code streamName => simp [items, onStatusItems, room]
  | onFCPublish transactionId streamName => simp [items, onFCPublishItems, room]
  | callError transactionId => simp [items, callErrorItems, room]
  | rtmpSampleAccess => simp [items, rtmpSampleAccessItems, room]
  | onMetaData data =>
      cases hdata : data.dataType <;>
        simp [items, MediaMetaData.items, hdata, MediaMetaData.simpleItems,
          MediaMetaData.detailItems, room]

/-- The calls of `write_body_payload` are those of its items in order, also where the
data are written apart. -/
theorem writeBodyPayload_eq {payload : ReplyPayload} (h : payload.ShortTexts) :
    payload.writeBodyPayload = writeAll payload.items := by
  cases payload with
  | onMetaData data =>
      obtain ⟨-, hdata⟩ := List.forall_mem_cons.mp (items_short h)
      obtain ⟨values, -, -, hwrite⟩ := foldl_write hdata
      simp only [writeBodyPayload, data.writePayload_eq, items, writeAll, List.foldl_cons,
        List.foldl_nil, hwrite]
      simp [Written.append, Written.add]
  | _ => rfl

/-- The body is values one after the other, counted to the last byte. -/
theorem writeBodyPayload_values {payload : ReplyPayload} (h : payload.ShortTexts) :
    ∃ values : List Value, (∀ v ∈ values, v.Supported) ∧
      (values.flatMap Value.encode).length < 2 ^ 24 ∧
      payload.writeBodyPayload = ({} : Written).add (values.flatMap Value.encode) := by
  obtain ⟨values, hvalues, hlength, hwrite⟩ := foldl_write (items_short h)
  refine ⟨values, hvalues, Nat.lt_of_le_of_lt hlength payload.room_items, ?_⟩
  rw [writeBodyPayload_eq h, writeAll, hwrite]

end ReplyPayload

/-- The formats with a length have it behind the basic header and the three bytes of the
time. -/
theorem RtmpHeader.writePayload_length {h : RtmpHeader}
    (hformat : h.formatType = .full ∨ h.formatType = .sameStream) :
    ∃ time rest, time.length = 3 ∧ h.writePayload.bytes =
      (h.writeBasicHeader {}).bytes ++ time ++ Bytes.toBE 3 h.msgLength.toNat ++ rest := by
  rw [RtmpHeader.writePayload, RtmpHeader.writeMessageHeader_eq, RtmpHeader.truncated,
    RtmpHeader.messageHeader]
  rcases hformat with hformat | hformat
  · refine ⟨MessageHeader.timeField (RtmpHeader.low24 h.sentTime),
      h.msgTypeId.code :: Bytes.toLE 4 h.msgStreamId.toNat, ?_, ?_⟩
    · rw [RtmpHeader.timeField_low24, Bytes.length_toBE]
    · simp only [hformat, MessageHeader.withTime, MessageHeader.fields, List.append_assoc]
  · refine ⟨MessageHeader.timeField (RtmpHeader.low24 h.sentTime), [h.msgTypeId.code], ?_, ?_⟩
    · rw [RtmpHeader.timeField_low24, Bytes.length_toBE]
    · simp only [hformat, MessageHeader.withTime, MessageHeader.fields, List.append_assoc]

/-- A reply is as its receiver needs it: the body is accepted to the last byte, its
length is in the header, and every byte written is counted. -/
structure WellWritten (uninit : Uninit) (msg : RtmpMessage) (payload : ReplyPayload) : Prop where
  measured : payload.writeBodyPayload.Counted
  fits : payload.writeBodyPayload.writed < 2 ^ 24
  accepted : (consumeFull uninit payload.writeBodyPayload.bytes).ok = true
  consumed : (consumeFull uninit payload.writeBodyPayload.bytes).rest = []
  written : ∃ header os, payload.writePayload msg = some (msg.setHeader header, os) ∧
    header = { msg.header with msgLength := UInt32.ofNat payload.writeBodyPayload.writed } ∧
    header.msgLength.toNat = payload.writeBodyPayload.writed ∧
    (∃ chunks, os.bytes = header.writePayload.bytes ++ chunks) ∧
    (header.formatType = .full ∨ header.formatType = .sameStream → ∃ time rest,
      time.length = 3 ∧ os.bytes = (header.writeBasicHeader {}).bytes ++ time ++
        Bytes.toBE 3 payload.writeBodyPayload.writed ++ rest) ∧ os.Counted

/-- A reply is well written, whatever its numbers and its short texts are. -/
theorem reply_wellWritten (uninit : Uninit) (msg : RtmpMessage)
    (hsize : msg.writeChunkSize.toNat ≠ 0) {payload : ReplyPayload} (h : payload.ShortTexts) :
    WellWritten uninit msg payload := by
  obtain ⟨values, hvalues, hroom, hbody⟩ := ReplyPayload.writeBodyPayload_values h
  have hcounted : payload.writeBodyPayload.Counted := by
    rw [hbody, Written.Counted, Written.add, List.nil_append, Nat.zero_add]
  have hbytes : payload.writeBodyPayload.bytes = values.flatMap Value.encode := by
    rw [hbody, Written.add, List.nil_append]
  obtain ⟨-, haccepted, hconsumed⟩ := consumeAny_encode uninit values hvalues
  have hfits : payload.writeBodyPayload.writed < 2 ^ 24 := by
    rw [hcounted, hbytes]
    exact hroom
  refine ⟨hcounted, hfits, by rw [hbytes]; exact haccepted, by rw [hbytes]; exact hconsumed, ?_⟩
  let header := { msg.header with msgLength := UInt32.ofNat payload.writeBodyPayload.writed }
  obtain ⟨chunks, hchunks, hchunksCounted⟩ :=
    (msg.setHeader header).writePayloadWithBody_counted hsize payload.writeBodyPayload.bytes
  have hlength : header.msgLength.toNat = payload.writeBodyPayload.writed :=
    UInt32.toNat_ofNat_of_lt' (Nat.lt_trans hfits (by decide))
  refine ⟨header, header.writePayload.append chunks, ?_, rfl, hlength, ⟨chunks.bytes, rfl⟩,
    fun hformat => ?_, header.writePayload_counted.append hchunksCounted⟩
  · rw [ReplyPayload.writePayload]
    exact congrArg (Option.map _) hchunks
  · obtain ⟨time, rest, htime, hheader⟩ := RtmpHeader.writePayload_length hformat
    refine ⟨time, rest ++ chunks.bytes, htime, ?_⟩
    rw [Written.append, hheader, hlength, List.append_assoc]

theorem reply_wellWritten_onFCPublish :
    WellWritten (fun _ => 0) { body := .unknownMessage [] } (.onFCPublish 0 (text "live")) :=
  reply_wellWritten _ _ (by decide) (show (text "live").length < 32768 by decide)

end Rtmp
