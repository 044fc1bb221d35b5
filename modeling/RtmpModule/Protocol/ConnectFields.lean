import RtmpModule.Protocol.CommandReads

/-!
# The properties of a connect command

What the loop of `parse_connect_msg` does with one property depends on its key: some
fill a field of the message, and the values of all others are skipped. Fields are
filled independently of each other, so the order of the properties does not matter as
long as no key comes twice.
-/

namespace Amf0

/-- The properties of a list, in its order. -/
def Properties.ofList : List (Text × Value) → Properties
  | [] => .nil
  | (key, value) :: properties => .cons key value (ofList properties)

def Value.text? : Value → Option (List UInt8)
  | .string text => some text.bytes
  | _ => none

def Value.boolean? : Value → Option Bool
  | .boolean value => some value
  | _ => none

def Value.number? : Value → Option UInt64
  | .number bits => some bits
  | _ => none

end Amf0

namespace Rtmp

open AMF0Serializer StreamUtil Amf0

/-- `ConnectMsgFieldType`, where the keys whose values are not read are one. -/
inductive ConnectField where
  | app
  | flashver
  | tcUrl
  | fpad
  | capabilities
  | audioCodecs
  | videoCodecs
  | videoFunction
  | objectEncoding
  | skipped
  deriving DecidableEq, Repr

namespace ConnectField

/-- The key of a field. -/
def name : ConnectField → List UInt8
  | app => ascii ['a', 'p', 'p']
  | flashver => ascii ['f', 'l', 'a', 's', 'h', 'V', 'e', 'r']
  | tcUrl => ascii ['t', 'c', 'U', 'r', 'l']
  | fpad => ascii ['f', 'p', 'a', 'd']
  | capabilities => ascii ['c', 'a', 'p', 'a', 'b', 'i', 'l', 'i', 't', 'i', 'e', 's']
  | audioCodecs => ascii ['a', 'u', 'd', 'i', 'o', 'C', 'o', 'd', 'e', 'c', 's']
  | videoCodecs => ascii ['v', 'i', 'd', 'e', 'o', 'C', 'o', 'd', 'e', 'c', 's']
  | videoFunction => ascii ['v', 'i', 'd', 'e', 'o', 'F', 'u', 'n', 'c', 't', 'i', 'o', 'n']
  | objectEncoding =>
      ascii ['o', 'b', 'j', 'e', 'c', 't', 'E', 'n', 'c', 'o', 'd', 'i', 'n', 'g']
  | skipped => []

/-- The comparisons of `get_type`; `swfUrl`, `pageUrl` and any other key are skipped. -/
def ofKey (key : List UInt8) : ConnectField :=
  if key = app.name then app
  else if key = flashver.name then flashver
  else if key = tcUrl.name then tcUrl
  else if key = fpad.name then fpad
  else if key = capabilities.name then capabilities
  else if key = audioCodecs.name then audioCodecs
  else if key = videoCodecs.name then videoCodecs
  else if key = videoFunction.name then videoFunction
  else if key = objectEncoding.name then objectEncoding
  else skipped

/-- A value of the type the field is read with; what is skipped only has to be a value
`consume_any` knows. -/
def Takes : ConnectField → Value → Prop
  | app, v | flashver, v | tcUrl, v => ∃ text, v = .string text ∧ text.bytes.length < 32768
  | fpad, v => ∃ b, v = .boolean b
  | capabilities, v | audioCodecs, v | videoCodecs, v | videoFunction, v | objectEncoding, v =>
      ∃ bits, v = .number bits
  | skipped, v => v.Supported

/-- What a value makes of the message. -/
def set (field : ConnectField) (v : Value) (msg : ConnectMessage) : ConnectMessage :=
  match field with
  | app => { msg with app := v.text?.getD msg.app }
  | flashver => { msg with flashver := v.text?.getD msg.flashver }
  | tcUrl => { msg with tcUrl := v.text?.getD msg.tcUrl }
  | fpad => { msg with fpad := v.boolean?.or msg.fpad }
  | capabilities => { msg with capabilities := v.number?.or msg.capabilities }
  | audioCodecs => { msg with audioCodecs := v.number?.or msg.audioCodecs }
  | videoCodecs => { msg with videoCodecs := v.number?.or msg.videoCodecs }
  | videoFunction => { msg with videoFunction := v.number?.or msg.videoFunction }
  | objectEncoding => { msg with objectEncoding := v.number?.or msg.objectEncoding }
  | skipped => msg

/-- Different fields are filled independently. -/
theorem set_comm {f g : ConnectField} (h : f ≠ g ∨ f = skipped) (v w : Value)
    (msg : ConnectMessage) : f.set v (g.set w msg) = g.set w (f.set v msg) := by
  cases f <;> cases g <;> first | rfl | exact absurd rfl (h.resolve_right (by decide))

theorem ofKey_name {field : ConnectField} (h : field ≠ skipped) : ofKey field.name = field := by
  cases field with
  | skipped => exact absurd rfl h
  | _ => rfl

theorem eq_name {key : List UInt8} (h : ofKey key ≠ skipped) : key = (ofKey key).name := by
  rw [ofKey] at h ⊢
  split_ifs at h ⊢
  all_goals first | assumption | exact absurd rfl h

/-- Two keys of one field are one key. -/
theorem ofKey_inj {key key' : List UInt8} (h : ofKey key = ofKey key')
    (hfield : ofKey key ≠ skipped) : key = key' := by
  rw [eq_name hfield, h, ← eq_name (h ▸ hfield)]

end ConnectField

section Field

variable {uninit : Uninit} {msg : ConnectMessage} {key rest : List UInt8} {v : Value}

theorem connectField_val {stream : List UInt8} {α : Type} {set : α → ConnectMessage} {r : Read α}
    (hrest : r.2 <:+ stream) {value : α} (hr : r = (some value, rest)) :
    (CommandMsgParser.connectField set r hrest).map Subtype.val = some (set value, rest) := by
  subst hr
  rfl

theorem parseConnectField_skipped {stream : List UInt8}
    (h : ConnectField.ofKey key = .skipped) :
    CommandMsgParser.parseConnectField uninit msg key stream =
      CommandMsgParser.connectField (fun _ : Unit => msg)
        (if (consumeAny uninit stream).ok then some () else none, (consumeAny uninit stream).rest)
        (CommandMsgParser.consumeAny_suffix uninit stream) := by
  have hne : ∀ field : ConnectField, field ≠ .skipped → key ≠ field.name := by
    rintro field hfield rfl
    rw [ConnectField.ofKey_name hfield] at h
    exact hfield h
  have happ := hne .app (by decide)
  have hflashver := hne .flashver (by decide)
  have htcUrl := hne .tcUrl (by decide)
  have hfpad := hne .fpad (by decide)
  have hcapabilities := hne .capabilities (by decide)
  have haudio := hne .audioCodecs (by decide)
  have hvideo := hne .videoCodecs (by decide)
  have hfunction := hne .videoFunction (by decide)
  have hencoding := hne .objectEncoding (by decide)
  simp only [ConnectField.name] at *
  simp only [CommandMsgParser.parseConnectField, happ, hflashver, htcUrl, hfpad, hcapabilities,
    haudio, hvideo, hfunction, hencoding, ↓reduceIte]

/-- The five fields that are read as numbers. -/
theorem parseConnectField_number {field : ConnectField} {stream : List UInt8}
    (h : field ∈ [ConnectField.capabilities, .audioCodecs, .videoCodecs, .videoFunction,
      .objectEncoding]) :
    CommandMsgParser.parseConnectField uninit msg field.name stream =
      CommandMsgParser.connectField (fun bits => field.set (.number bits) msg)
        (readNumber stream true) (readNumber_suffix stream true) := by
  cases field with
  | capabilities | audioCodecs | videoCodecs | videoFunction | objectEncoding => rfl
  | _ => exact absurd h (by decide)

/-- A property of the expected type is read exactly and fills its field. -/
theorem parseConnectField_takes (h : (ConnectField.ofKey key).Takes v) :
    (CommandMsgParser.parseConnectField uninit msg key (v.encode ++ rest)).map Subtype.val =
      some ((ConnectField.ofKey key).set v msg, rest) := by
  have hstring : ∀ text : Text, text.bytes.length < 32768 →
      readShortString ((Value.string text).encode ++ rest) true = (some text.bytes, rest) :=
    fun text htext => (readShortString_typed _ true).trans (readShortString_text htext)
  have hnumber : ∀ bits, readNumber ((Value.number bits).encode ++ rest) true =
      (some bits, rest) :=
    fun bits => (readNumber_typed _ true).trans (readNumber_toBE rest bits)
  have hboolean : ∀ b, readBoolean ((Value.boolean b).encode ++ rest) true = (some b, rest) :=
    fun b => (readBoolean_typed _ true).trans (readBoolean_bit rest b)
  have hskip : v.Supported → (if (consumeAny uninit (v.encode ++ rest)).ok then some () else none,
      (consumeAny uninit (v.encode ++ rest)).rest) = (some (), rest) := by
    intro hv
    have hreads : Reads uninit .value (v.encode ++ rest) rest false :=
      reads_value v hv.skippable rest
    obtain ⟨hok, hleft⟩ := Prod.mk.inj hreads.skips
    change (consumeAny uninit (v.encode ++ rest)).ok = true at hok
    change (consumeAny uninit (v.encode ++ rest)).rest = rest at hleft
    rw [hok, hleft]
    rfl
  generalize hfield : ConnectField.ofKey key = field at h
  by_cases hskipped : field = .skipped
  · subst hskipped
    rw [parseConnectField_skipped hfield]
    exact connectField_val _ (hskip h)
  obtain rfl : key = field.name := hfield ▸ ConnectField.eq_name (hfield ▸ hskipped)
  cases field with
  | app | flashver | tcUrl =>
      obtain ⟨text, rfl, htext⟩ := h
      exact connectField_val (readShortString_suffix _ true) (hstring text htext)
  | fpad =>
      obtain ⟨b, rfl⟩ := h
      exact connectField_val (readBoolean_suffix _ true) (hboolean b)
  | capabilities | audioCodecs | videoCodecs | videoFunction | objectEncoding =>
      obtain ⟨bits, rfl⟩ := h
      rw [parseConnectField_number (by decide)]
      exact connectField_val _ (hnumber bits)
  | skipped => exact absurd rfl hskipped

end Field

namespace CommandMsgReader

variable {uninit : Uninit} {msg : ConnectMessage} {rest : List UInt8} {transactionId : UInt64}

/-- One turn of the loop, without the proof that it ends. -/
theorem parseConnectFields_turn {stream : List UInt8} (hlen : 3 ≤ stream.length)
    (hmarker : stream.take 3 ≠ endMarker) :
    parseConnectFields uninit msg stream =
      (readShortString stream false).1.bind fun key =>
        ((CommandMsgParser.parseConnectField uninit msg key
          (readShortString stream false).2).map Subtype.val).bind fun r =>
            parseConnectFields uninit r.1 r.2 := by
  have hcheck : checkRedableLength stream 3 = true := by simpa [checkRedableLength] using hlen
  have hmarker' : ¬ stream.take 3 = [0, 0, 9] := hmarker
  rw [parseConnectFields, dif_pos hcheck, if_neg hmarker']
  cases (readShortString stream false).1 with
  | none => rfl
  | some key =>
      dsimp only [Option.bind_some]
      cases CommandMsgParser.parseConnectField uninit msg key (readShortString stream false).2 with
      | none => rfl
      | some r => rfl

theorem parseConnectFields_end :
    parseConnectFields uninit msg (endMarker ++ rest) = some (msg, rest) := by
  rw [parseConnectFields]
  rfl

/-- A property of the type its field takes is one turn. -/
theorem parseConnectFields_property {key : Text} {v : Value}
    (hkey : key.bytes.length < 32768) (htakes : (ConnectField.ofKey key.bytes).Takes v) :
    parseConnectFields uninit msg (key.encode ++ (v.encode ++ rest)) =
      parseConnectFields uninit ((ConnectField.ofKey key.bytes).set v msg) rest := by
  have hlen : 3 ≤ (key.encode ++ (v.encode ++ rest)).length := by
    obtain ⟨type, body, hvalue, -⟩ := v.encode_eq_cons
    simp only [hvalue, Text.encode, List.length_append, List.length_cons, Bytes.length_toBE]
    omega
  rw [parseConnectFields_turn hlen (take_property_ne key v rest), readShortString_text hkey,
    Option.bind_some, parseConnectField_takes htakes, Option.bind_some]

/-- The message of a list of properties, filled in their order. -/
def connectOf (properties : List (Text × Value)) (msg : ConnectMessage) : ConnectMessage :=
  properties.foldl (fun msg p => (ConnectField.ofKey p.1.bytes).set p.2 msg) msg

/-- What a client may put into the command object: known keys with values of their
types, others with any value that can be skipped. -/
def Readable (p : Text × Value) : Prop :=
  p.1.bytes.length < 32768 ∧ (ConnectField.ofKey p.1.bytes).Takes p.2

theorem parseConnectFields_properties {properties : List (Text × Value)}
    (h : ∀ p ∈ properties, Readable p) :
    parseConnectFields uninit msg
        ((Properties.ofList properties).encode ++ (endMarker ++ rest)) =
      some (connectOf properties msg, rest) := by
  induction properties generalizing msg with
  | nil => exact parseConnectFields_end
  | cons p properties ih =>
      obtain ⟨⟨hkey, htakes⟩, hothers⟩ := List.forall_mem_cons.mp h
      rw [Properties.ofList, Properties.encode, List.append_assoc, List.append_assoc,
        parseConnectFields_property hkey htakes, ih hothers]
      rfl

/-- With different keys the order of the properties does not matter. -/
theorem connectOf_perm {properties properties' : List (Text × Value)}
    (hkeys : (properties.map fun p => p.1.bytes).Nodup) (h : properties.Perm properties') :
    connectOf properties msg = connectOf properties' msg := by
  refine h.foldl_eq' (fun p hp q hq msg => ?_) msg
  by_cases hfield : ConnectField.ofKey p.1.bytes = ConnectField.ofKey q.1.bytes
  · by_cases hskipped : ConnectField.ofKey p.1.bytes = .skipped
    · exact (ConnectField.set_comm (.inr (hfield ▸ hskipped)) q.2 p.2 msg)
    · have hname := ConnectField.ofKey_inj hfield hskipped
      obtain rfl : p = q := List.inj_on_of_nodup_map hkeys hp hq hname
      rfl
  · exact ConnectField.set_comm (.inl (Ne.symm hfield)) q.2 p.2 msg

/-- A property fills its field last of all, for what it is worth. -/
theorem connectOf_mem (msg : ConnectMessage) {properties : List (Text × Value)} {p : Text × Value}
    (hkeys : (properties.map fun p => p.1.bytes).Nodup) (hp : p ∈ properties) :
    ∃ msg', connectOf properties msg = (ConnectField.ofKey p.1.bytes).set p.2 msg' := by
  obtain ⟨before, after, rfl⟩ := List.append_of_mem hp
  have hperm : (before ++ p :: after).Perm ((before ++ after) ++ [p]) := by
    refine List.perm_middle.trans ?_
    exact (List.perm_append_singleton p (before ++ after)).symm
  refine ⟨connectOf (before ++ after) msg, ?_⟩
  rw [connectOf_perm hkeys hperm, connectOf, List.foldl_append]
  rfl

theorem parseConnectMsg_object (uninit : Uninit) (rest : List UInt8) (transactionId : UInt64)
    {properties : List (Text × Value)} (h : ∀ p ∈ properties, Readable p) :
    parseConnectMsg uninit ((Value.object (.ofList properties)).encode ++ rest) transactionId =
      some (.connectMessage transactionId (connectOf properties {}), rest) := by
  have htype : expectType .object true ((Value.object (.ofList properties)).encode ++ rest) =
      (some (), (Properties.ofList properties).encode ++ (endMarker ++ rest)) := by
    rw [← List.append_assoc]
    exact @expectType_typeBytes _ .object rfl true
  rw [parseConnectMsg, htype]
  dsimp only
  rw [parseConnectFields_properties h]
  rfl

/-- The command object of any properties with different keys is read exactly, in any
order, into one and the same message, which has the values of its properties. -/
theorem parseConnectMsg_properties (uninit : Uninit) (transactionId : UInt64)
    {properties : List (Text × Value)} (hkeys : (properties.map fun p => p.1.bytes).Nodup)
    (hreadable : ∀ p ∈ properties, Readable p) :
    ∃ msg : ConnectMessage,
      (∀ order : List (Text × Value), order.Perm properties → ∀ rest,
        parseConnectMsg uninit ((Value.object (.ofList order)).encode ++ rest) transactionId =
            some (.connectMessage transactionId msg, rest) ∧
          CommandMsgParser.parseConnectMsg uninit
              ((Value.object (.ofList order)).encode ++ rest) transactionId =
            some (.connectMessage transactionId msg)) ∧
      (∀ key text, (key, Value.string text) ∈ properties →
        (key.bytes = ConnectField.name .app → msg.app = text.bytes) ∧
        (key.bytes = ConnectField.name .flashver → msg.flashver = text.bytes) ∧
        (key.bytes = ConnectField.name .tcUrl → msg.tcUrl = text.bytes)) ∧
      (∀ key b, (key, Value.boolean b) ∈ properties →
        key.bytes = ConnectField.name .fpad → msg.fpad = some b) := by
  refine ⟨connectOf properties {}, ?_, ?_, ?_⟩
  · intro order horder rest
    have hread := parseConnectMsg_object uninit rest transactionId
      fun p hp => hreadable p (horder.mem_iff.mp hp)
    rw [← connectOf_perm hkeys horder.symm] at hread
    exact ⟨hread, by rw [← parseConnectMsg_fst, hread]; rfl⟩
  · intro key text hmem
    obtain ⟨msg', hmsg⟩ := connectOf_mem {} hkeys hmem
    rw [hmsg]
    refine ⟨?_, ?_, ?_⟩
    all_goals
      intro hkey
      rw [hkey, ConnectField.ofKey_name (by decide)]
      rfl
  · intro key b hmem hkey
    obtain ⟨msg', hmsg⟩ := connectOf_mem {} hkeys hmem
    rw [hmsg, hkey, ConnectField.ofKey_name (by decide)]
    rfl

/-- The properties of a client that sends an undefined `swfUrl` before its `app`. -/
def liveApp : List (Text × Value) :=
  [(⟨ascii ['s', 'w', 'f', 'U', 'r', 'l'], by decide⟩, .undefined),
    (⟨ascii ['f', 'p', 'a', 'd'], by decide⟩, .boolean false),
    (⟨ascii ['a', 'p', 'p'], by decide⟩, .string ⟨ascii ['l', 'i', 'v', 'e'], by decide⟩)]

theorem liveApp_readable : ∀ p ∈ liveApp, Readable p := by
  intro p hp
  simp only [liveApp, List.mem_cons, List.not_mem_nil, or_false] at hp
  rcases hp with rfl | rfl | rfl
  · exact ⟨by decide, trivial⟩
  · exact ⟨by decide, false, rfl⟩
  · exact ⟨by decide, _, rfl, by decide⟩

theorem parseConnectMsg_liveApp :
    (liveApp.map fun p => p.1.bytes).Nodup ∧ (∀ p ∈ liveApp, Readable p) ∧
    ∃ msg : ConnectMessage,
      (∀ order : List (Text × Value), order.Perm liveApp → ∀ rest,
        parseConnectMsg (fun _ => 0) ((Value.object (.ofList order)).encode ++ rest) 1 =
            some (.connectMessage 1 msg, rest) ∧
          CommandMsgParser.parseConnectMsg (fun _ => 0)
              ((Value.object (.ofList order)).encode ++ rest) 1 =
            some (.connectMessage 1 msg)) ∧
      (∀ key text, (key, Value.string text) ∈ liveApp →
        (key.bytes = ConnectField.name .app → msg.app = text.bytes) ∧
        (key.bytes = ConnectField.name .flashver → msg.flashver = text.bytes) ∧
        (key.bytes = ConnectField.name .tcUrl → msg.tcUrl = text.bytes)) ∧
      (∀ key b, (key, Value.boolean b) ∈ liveApp →
        key.bytes = ConnectField.name .fpad → msg.fpad = some b) :=
  ⟨by decide, liveApp_readable,
    parseConnectMsg_properties (fun _ => 0) 1 (by decide) liveApp_readable⟩

end CommandMsgReader

end Rtmp
