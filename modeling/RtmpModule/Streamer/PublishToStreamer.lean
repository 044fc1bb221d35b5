import RtmpModule.Streamer.FlvMessage

/-!
# Publishing to the streamer

`publish_to_streamer` takes the publish of one context through its states: it begins
the publish, sends the codec information once there is a frame of each kind, uploads
the frames that wait, and ends the publish when an end flag is set and no frame
waits. One call goes through as many states as it can and returns at the first
request that fails; the next call goes on from there. The HTTP client and the JSON
parser are not part of the repository's own code: an answer to a request may depend
on all calls made before it, and nothing is assumed of either.
-/

namespace Rtmp

namespace Base64

/-- `a3_to_a4`. -/
def a3ToA4 (a b c : UInt8) : List UInt8 :=
  [(a &&& 0xfc) >>> 2, ((a &&& 0x03) <<< 4) + ((b &&& 0xf0) >>> 4),
    ((b &&& 0x0f) <<< 2) + ((c &&& 0xc0) >>> 6), c &&& 0x3f]

/-- `kBase64Alphabet`. -/
def letter (a4 : UInt8) : UInt8 :=
  (ascii ['A', 'B', 'C', 'D', 'E', 'F', 'G', 'H', 'I', 'J', 'K', 'L', 'M', 'N', 'O', 'P', 'Q',
    'R', 'S', 'T', 'U', 'V', 'W', 'X', 'Y', 'Z', 'a', 'b', 'c', 'd', 'e', 'f', 'g', 'h', 'i',
    'j', 'k', 'l', 'm', 'n', 'o', 'p', 'q', 'r', 's', 't', 'u', 'v', 'w', 'x', 'y', 'z', '0',
    '1', '2', '3', '4', '5', '6', '7', '8', '9', '+', '/']).getD a4.toNat 0

/-- The letters `Encode` writes, with the padding behind a last group of one or two bytes. -/
def encodeGroups : List UInt8 → List UInt8
  | a :: b :: c :: rest => (a3ToA4 a b c).map letter ++ encodeGroups rest
  | [a, b] => ((a3ToA4 a b 0).take 3).map letter ++ ascii ['=']
  | [a] => ((a3ToA4 a 0 0).take 2).map letter ++ ascii ['=', '=']
  | [] => []

/-- `EncodedLength`, before it is made an `int`. -/
def encodedLength (length : Nat) : Nat := (length + 2 - (length + 2) % 3) / 3 * 4

/-- `Base64::Encode` where the length of the text is an `int`, as it is for all codec information.
It fails unless it wrote as many letters as it made room for. -/
def encodeShort (input : List UInt8) : Option (List UInt8) :=
  if (encodeGroups input).length = encodedLength input.length then some (encodeGroups input)
  else none

theorem length_encodeGroups (input : List UInt8) :
    (encodeGroups input).length = encodedLength input.length := by
  induction input using encodeGroups.induct with
  | case1 a b c rest ih =>
      simp only [encodeGroups, a3ToA4, List.length_append, List.length_map, List.length_cons,
        List.length_nil, ih, encodedLength]
      omega
  | case2 a b => simp [encodeGroups, a3ToA4, ascii, encodedLength]
  | case3 a => simp [encodeGroups, a3ToA4, ascii, encodedLength]
  | case4 => rfl

theorem encodeShort_eq (input : List UInt8) : encodeShort input = some (encodeGroups input) := by
  rw [encodeShort, if_pos (length_encodeGroups input)]

end Base64

/-- What `SendAndReceive` comes back with. -/
inductive HttpResult where
  | failed
  | response (statusCode : Int) (body : List UInt8)

/-- What the members `id` and `publishAddr` of a JSON document are, where they are strings. -/
inductive JsonDocument where
  | parseError
  | notObject
  | object (id publishAddr : Option (List UInt8))

/-- The requests, with what the source puts into their paths and bodies. -/
inductive HttpRequest where
  | beginPublish (streamName provider : List UInt8) (recording : Bool)
  | initPublish (publishEsAddrPort publishId avc aac : List UInt8)
  | publishEs (publishEsAddrPort publishId : List UInt8) (frameNumber : UInt64)
      (body : List UInt8)
  | endPublish (publishId : List UInt8)
  deriving DecidableEq

/-- A run ends at an unchecked access, or at the assertion of `FindMember` that the document
is an object. -/
inductive StreamerFault where
  | memory (fault : MemoryFault)
  | notObject

/-- The functions of `publish_to_streamer.cpp` that talk to the streamer. -/
inductive PublishFunction where
  | beginPublish
  | initPublish
  | publishEs
  | endPublish
  deriving DecidableEq, Repr

/-- One call of such a function: the context it is given and the `ec` it sets. -/
structure PublishCall where
  function : PublishFunction
  context : MediaPublishEsContext
  ec : Int

/-- The bytes `publish_es` sends of a frame. -/
def MediaPublishEs.esStr (es : MediaPublishEs) : List UInt8 := es.data.take es.size.toNat

/-- The `ec` for an answer: `failed` when there is none, 0 for a status of 2xx, and else the
status itself. -/
def checkResponse (failed : Int) : HttpResult → Int
  | .failed => failed
  | .response statusCode _ => if statusCode < 200 ∨ 300 ≤ statusCode then statusCode else 0

/-- What `begin_publish` sets. -/
structure BeginPublish where
  ec : Int
  publishAddr : List UInt8 := []
  uploadId : List UInt8 := []

section Functions

variable (send : HttpRequest → HttpResult) (json : List UInt8 → JsonDocument)
variable (context : MediaPublishEsContext)

def beginPublish : Except StreamerFault BeginPublish :=
  match send (.beginPublish context.streamName context.provider (context.recording = 1)) with
  | .failed => .ok { ec := -1 }
  | .response statusCode body =>
      if statusCode < 200 ∨ 300 ≤ statusCode then .ok { ec := statusCode }
      else
        match json body with
        | .parseError => .ok { ec := 1 }
        | .notObject => .error .notObject
        | .object none _ => .ok { ec := 2 }
        | .object (some _) none => .ok { ec := 3 }
        | .object (some id) (some addr) => .ok { ec := 0, publishAddr := addr, uploadId := id }

def initPublish : Int :=
  match Base64.encodeShort context.videoInitEs.codecInfo with
  | none => 3
  | some avc =>
      match Base64.encodeShort context.audioInitEs.codecInfo with
      | none => 3
      | some aac =>
          checkResponse 1
            (send (.initPublish context.publishEsAddrPort context.publishId avc aac))

/-- The body of the request `publish_es` makes for a frame. -/
def esBody (es : MediaPublishEs) : List UInt8 :=
  [es.trackId] ++ [es.isKeyFrame] ++ Bytes.toBE 8 es.pts.toNat ++ Bytes.toBE 8 es.dts.toNat ++
    Bytes.toBE 4 es.size.toNat ++ es.esStr

/-- `publish_es` makes no request for a frame without bytes. -/
def publishEs : Int :=
  match context.mediaEs with
  | [] => 0
  | es :: _ =>
      if es.esStr.isEmpty then 0
      else
        checkResponse 1
          (send (.publishEs context.publishEsAddrPort context.publishId es.frameNumber
            (esBody es)))

def endPublish : Int := checkResponse (-1) (send (.endPublish context.publishId))

end Functions

/-- A context and the calls made for it so far, oldest first. -/
structure Publisher where
  context : MediaPublishEsContext := {}
  calls : List PublishCall := []

namespace Publisher

variable (http : List PublishCall → HttpRequest → HttpResult)
variable (json : List UInt8 → JsonDocument) (p : Publisher)

def record (function : PublishFunction) (ec : Int) : Publisher :=
  { p with calls := p.calls ++ [{ function, context := p.context, ec }] }

/-- The first part of `publish_to_streamer`, and whether it goes on. -/
def beginPart : Except StreamerFault (Publisher × Bool) :=
  if p.context.publishState = .begin then
    match beginPublish (http p.calls) json p.context with
    | .error fault => .error fault
    | .ok r =>
        let p := p.record .beginPublish r.ec
        if r.ec ≠ 0 then .ok (p, false)
        else
          .ok ({ p with context := { p.context with
            publishId := r.uploadId, publishEsAddrPort := r.publishAddr, publishState := .init,
            client := true } }, true)
  else .ok (p, true)

/-- The second part, which waits for codec information and a frame of each kind. -/
def initPart : Publisher × Bool :=
  if p.context.publishState = .init ∧ p.context.readyToSend then
    let ec := initPublish (http p.calls) p.context
    let p := p.record .initPublish ec
    if ec ≠ 0 then (p, false)
    else ({ p with context := { p.context with publishState := .publishing } }, true)
  else (p, true)

/-- The loop over the frames that wait. -/
def esLoop (p : Publisher) : Publisher × Bool :=
  if _h : p.context.publishState = .publishing ∧ p.context.mediaEs ≠ [] then
    let ec := publishEs (http p.calls) p.context
    let q := p.record .publishEs ec
    if ec ≠ 0 then (q, false)
    else esLoop { q with context := { q.context with mediaEs := q.context.mediaEs.tail } }
  else (p, true)
termination_by p.context.mediaEs.length
decreasing_by
  have := List.length_pos_iff.mpr _h.2
  simp only [Publisher.record, List.length_tail]
  omega

/-- The last part; it does not look at the state. -/
def endPart : Publisher :=
  if p.context.mediaEs.isEmpty ∧ (p.context.readyToEndOfStream ∨ p.context.endOfVideoEs) then
    let ec := endPublish (http p.calls) p.context
    let p := p.record .endPublish ec
    if ec ≠ 0 then p
    else { p with context := { p.context with publishState := .ended } }
  else p

/-- `publish_to_streamer(context)`. -/
def publishToStreamer : Except StreamerFault Publisher :=
  match p.beginPart http json with
  | .error fault => .error fault
  | .ok (p, false) => .ok p
  | .ok (p, true) =>
      match p.initPart http with
      | (p, false) => .ok p
      | (p, true) =>
          match p.esLoop http with
          | (p, false) => .ok p
          | (p, true) => .ok (p.endPart http)

/-- `publish_to_streamer(context, request)`. -/
def publishMessage (messageType : UInt8) (absTimestamp : UInt64) (data : List UInt8) :
    Except StreamerFault Publisher :=
  match processFlvEsMessage p.context messageType absTimestamp data with
  | .error fault => .error (.memory fault)
  | .ok r =>
      let p := { p with context := r.context }
      if r.ret then p.publishToStreamer http json else .ok p

end Publisher

end Rtmp
