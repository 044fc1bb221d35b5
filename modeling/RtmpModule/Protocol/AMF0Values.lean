import RtmpModule.Protocol.AMF0Grammar

/-!
# Skipping over values of AMF0

The values of the types that `consume_any` knows, with texts whose length is not
negative as a `short`, are in the grammar of what it accepts, and so it stops right
behind them. It does so behind a value of another type, too, when that ends with an
end marker and has no other one in it, as an object of a class can.
-/

namespace Amf0

mutual

/-- The values that `consume_any` is made for. -/
def Value.Supported : Value → Prop
  | .number _ | .boolean _ | .null | .undefined => True
  | .string text => text.bytes.length < 32768
  | .object properties | .ecmaArray _ properties => properties.Supported
  | .strictArray _ items => ∀ i, (items i).Supported
  | _ => False

def Properties.Supported : Properties → Prop
  | .nil => True
  | .cons key value properties =>
      key.bytes.length < 32768 ∧ value.Supported ∧ properties.Supported

end

mutual

/-- The values of known types in which those of other types end with their first end marker. -/
def Value.Skippable : Value → Prop
  | .number _ | .boolean _ | .null | .undefined => True
  | .string text => text.bytes.length < 32768
  | .object properties | .ecmaArray _ properties => properties.Skippable
  | .strictArray _ items => ∀ i, (items i).Skippable
  | v => UpToMarker v.encode.tail

def Properties.Skippable : Properties → Prop
  | .nil => True
  | .cons key value properties =>
      key.bytes.length < 32768 ∧ value.Skippable ∧ properties.Skippable

end

mutual

theorem Value.Supported.skippable {v : Value} (h : v.Supported) : v.Skippable := by
  match v with
  | .number _ | .boolean _ | .null | .undefined => exact trivial
  | .string _ => exact h
  | .object properties | .ecmaArray _ properties =>
      have hproperties : properties.Supported := h
      exact hproperties.skippable
  | .strictArray _ items => exact fun i => (h i).skippable

theorem Properties.Supported.skippable {properties : Properties} (h : properties.Supported) :
    properties.Skippable := by
  match properties with
  | .nil => exact trivial
  | .cons key value properties => exact ⟨h.1, h.2.1.skippable, h.2.2.skippable⟩

end

end Amf0

namespace Rtmp

namespace AMF0Serializer

open StreamUtil Bytes Amf0

variable {uninit : Uninit}

/-- Values one after the other are the items of an array. -/
theorem reads_items {count : Nat} {items : Fin count → List UInt8}
    (h : ∀ i rest, Reads uninit .value (items i ++ rest) rest false) (rest : List UInt8) :
    Reads uninit (.items count) ((List.ofFn items).flatten ++ rest) rest false := by
  induction count with
  | zero =>
      rw [List.ofFn_zero]
      exact .noItems
  | succ count ih =>
      have hitems := ih fun i => h i.succ
      rw [List.ofFn_succ, List.flatten_cons, List.append_assoc]
      exact .item (h 0 _) hitems

mutual

theorem reads_value (v : Value) (h : v.Skippable) (rest : List UInt8) :
    Reads uninit .value (v.encode ++ rest) rest false := by
  match v with
  | .number bits => exact .number (length_toBE 8 _)
  | .boolean true => exact .boolean (.inr rfl)
  | .boolean false => exact .boolean (.inl rfl)
  | .string text => exact .string h
  | .null | .undefined => exact .bare rfl
  | .object properties =>
      have hproperties := reads_properties properties h rest
      rw [Value.encode, List.cons_append, List.append_assoc]
      exact .object hproperties
  | .ecmaArray count properties =>
      have hproperties := reads_properties properties h rest
      rw [Value.encode, List.cons_append, List.append_assoc, List.append_assoc]
      exact .mixedArray hproperties
  | .strictArray count items =>
      have hitems := reads_items (fun i => reads_value (items i) (h i)) rest
      rw [Value.encode, List.cons_append, List.append_assoc]
      exact .array hitems
  | .movieClip _ | .reference _ | .date _ _ | .longString _ | .unsupported | .recordSet _
  | .xmlDocument _ | .typedObject _ _ | .avmPlus _ => exact .unknown rfl h

theorem reads_properties (properties : Properties) (h : properties.Skippable)
    (rest : List UInt8) :
    Reads uninit .properties (properties.encode ++ (endMarker ++ rest)) rest false := by
  match properties with
  | .nil => exact .ended
  | .cons key value properties =>
      obtain ⟨hkey, hvalue, hproperties⟩ := h
      have hfirst := reads_value value hvalue (properties.encode ++ (endMarker ++ rest))
      have hothers := reads_properties properties hproperties rest
      rw [Properties.encode, List.append_assoc, List.append_assoc]
      exact .property hkey (take_property_ne key value _) hfirst hothers

end

theorem reads_values (values : List Value) (h : ∀ v ∈ values, v.Skippable) :
    Reads uninit .values (values.flatMap Value.encode) [] false := by
  induction values with
  | nil => exact .noValues
  | cons v values ih =>
      rw [List.flatMap_cons]
      exact .values (reads_value v (h v List.mem_cons_self) _)
        (ih fun u hu => h u (List.mem_cons_of_mem v hu))

/-- Of some values, each is skipped over exactly, whatever follows it, and a message of all of them
is used up. -/
theorem consumeAny_encode (uninit : Uninit) (values : List Value)
    (h : ∀ v ∈ values, v.Supported) :
    (∀ v ∈ values, ∀ rest, (consumeAny uninit (v.encode ++ rest)).ok = true ∧
        (consumeAny uninit (v.encode ++ rest)).rest = rest) ∧
      (consumeFull uninit (values.flatMap Value.encode)).ok = true ∧
        (consumeFull uninit (values.flatMap Value.encode)).rest = [] := by
  constructor
  · intro v hv rest
    have hread : Reads uninit .value (v.encode ++ rest) rest false :=
      reads_value v (h v hv).skippable rest
    exact Prod.mk.inj hread.skips
  · have hread : Reads uninit .values (values.flatMap Value.encode) [] false :=
      reads_values values fun v hv => (h v hv).skippable
    exact Prod.mk.inj hread.skips

/-- An object with an array in it, and a number. -/
def objectAndNumber : List Value :=
  [.object (.cons ⟨[97], by decide⟩ (.strictArray 1 fun _ => .null) .nil), .number 0]

theorem consumeAny_encode_objectAndNumber :
    (∀ v ∈ objectAndNumber, v.Supported) ∧
      (∀ v ∈ objectAndNumber, ∀ rest,
        (consumeAny (fun _ => 0) (v.encode ++ rest)).ok = true ∧
          (consumeAny (fun _ => 0) (v.encode ++ rest)).rest = rest) ∧
      (consumeFull (fun _ => 0) (objectAndNumber.flatMap Value.encode)).ok = true ∧
        (consumeFull (fun _ => 0) (objectAndNumber.flatMap Value.encode)).rest = [] := by
  have h : ∀ v ∈ objectAndNumber, v.Supported := by
    simp [objectAndNumber, Value.Supported, Properties.Supported]
  exact ⟨h, consumeAny_encode (fun _ => 0) objectAndNumber h⟩

end AMF0Serializer

end Rtmp
