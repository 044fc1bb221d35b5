import RtmpModule.Library.Bytes

/-!
# AMF0 values

The values of the Action Message Format, version 0, and their encoding: a byte for
the type, and what the type asks for behind it. The properties of an object end with
an end marker, which looks like an empty key with a value of a type of its own.
-/

namespace Amf0

open Bytes

/-- A text whose length is a number of 16 bits. -/
structure Text where
  bytes : List UInt8
  length_lt : bytes.length < 2 ^ 16

/-- A text whose length is a number of 32 bits. -/
structure LongText where
  bytes : List UInt8
  length_lt : bytes.length < 2 ^ 32

mutual

/-- A value of each type. The formats of movie clips and record sets are not public, and that of
the values of AMF3 is another one. -/
inductive Value where
  | number (bits : UInt64)
  | boolean (value : Bool)
  | string (text : Text)
  | object (properties : Properties)
  | movieClip (body : List UInt8)
  | null
  | undefined
  | reference (index : UInt16)
  | ecmaArray (count : UInt32) (properties : Properties)
  | strictArray (count : UInt32) (items : Fin count.toNat → Value)
  | date (bits : UInt64) (timeZone : UInt16)
  | longString (text : LongText)
  | unsupported
  | recordSet (body : List UInt8)
  | xmlDocument (text : LongText)
  | typedObject (className : Text) (properties : Properties)
  | avmPlus (body : List UInt8)

/-- The properties of an object, each a key and a value. -/
inductive Properties where
  | nil
  | cons (key : Text) (value : Value) (properties : Properties)

end

def Text.encode (text : Text) : List UInt8 := toBE 2 text.bytes.length ++ text.bytes

def LongText.encode (text : LongText) : List UInt8 := toBE 4 text.bytes.length ++ text.bytes

def endMarker : List UInt8 := [0x00, 0x00, 0x09]

mutual

def Value.encode : Value → List UInt8
  | .number bits => 0x00 :: toBE 8 bits.toNat
  | .boolean value => [0x01, if value then 1 else 0]
  | .string text => 0x02 :: text.encode
  | .object properties => 0x03 :: (properties.encode ++ endMarker)
  | .movieClip body => 0x04 :: body
  | .null => [0x05]
  | .undefined => [0x06]
  | .reference index => 0x07 :: toBE 2 index.toNat
  | .ecmaArray count properties => 0x08 :: (toBE 4 count.toNat ++ properties.encode ++ endMarker)
  | .strictArray count items =>
      0x0a :: (toBE 4 count.toNat ++ (List.ofFn fun i => (items i).encode).flatten)
  | .date bits timeZone => 0x0b :: (toBE 8 bits.toNat ++ toBE 2 timeZone.toNat)
  | .longString text => 0x0c :: text.encode
  | .unsupported => [0x0d]
  | .recordSet body => 0x0e :: body
  | .xmlDocument text => 0x0f :: text.encode
  | .typedObject className properties =>
      0x10 :: (className.encode ++ properties.encode ++ endMarker)
  | .avmPlus body => 0x11 :: body

def Properties.encode : Properties → List UInt8
  | .nil => []
  | .cons key value properties => key.encode ++ value.encode ++ properties.encode

end

/-- A value begins with its type, which is not that of an end marker. -/
theorem Value.encode_eq_cons (v : Value) :
    ∃ type body, v.encode = type :: body ∧ type ≠ 0x09 := by
  cases v with
  | _ => exact ⟨_, _, by rw [Value.encode], by decide⟩

/-- A text that begins like the end marker is empty, and the value behind it has the type of one. -/
theorem eq_cons_of_marker {text : Text} {stream : List UInt8}
    (h : (text.encode ++ stream).take 3 = endMarker) : ∃ rest, stream = 0x09 :: rest := by
  have hsplit := List.take_append_drop 3 (text.encode ++ stream)
  have hlength : toBE 2 text.bytes.length = [0, 0] := by
    have htake := congrArg (List.take 2) h
    rw [List.take_take, Text.encode, List.append_assoc] at htake
    exact (List.take_left' (length_toBE 2 _)).symm.trans htake
  have htext : text.bytes = [] := by
    apply List.eq_nil_of_length_eq_zero
    rw [← ofBE_toBE_of_lt (n := 2) text.length_lt, hlength]
    rfl
  rw [h, Text.encode, htext] at hsplit
  exact ⟨_, (List.cons.inj (List.cons.inj hsplit).2).2.symm⟩

/-- No property looks like the end marker. -/
theorem take_property_ne (key : Text) (v : Value) (rest : List UInt8) :
    (key.encode ++ (v.encode ++ rest)).take 3 ≠ endMarker := by
  intro h
  obtain ⟨type, body, hvalue, htype⟩ := v.encode_eq_cons
  obtain ⟨rest', hrest⟩ := eq_cons_of_marker h
  rw [hvalue, List.cons_append] at hrest
  exact htype (List.cons.inj hrest).1

/-- Bytes that reach up to the first end marker in them. -/
inductive UpToMarker : List UInt8 → Prop where
  | marker : UpToMarker endMarker
  | cons {b : UInt8} {bytes : List UInt8} (h : (b :: bytes).take 3 ≠ endMarker)
      (rest : UpToMarker bytes) : UpToMarker (b :: bytes)

theorem UpToMarker.length_le {bytes : List UInt8} (h : UpToMarker bytes) : 3 ≤ bytes.length := by
  induction h with
  | marker => exact le_rfl
  | cons _ _ ih => exact Nat.le_succ_of_le ih

theorem upToMarker_iff_length {b : UInt8} {bytes : List UInt8}
    (h : (b :: bytes).take 3 = endMarker) : UpToMarker (b :: bytes) ↔ bytes.length = 2 := by
  constructor
  · rintro (_ | ⟨hne, -⟩)
    · rfl
    · exact absurd h hne
  · intro hlength
    rw [List.take_of_length_le (by rw [List.length_cons, hlength])] at h
    rw [h]
    exact .marker

theorem upToMarker_cons_iff {b : UInt8} {bytes : List UInt8}
    (h : (b :: bytes).take 3 ≠ endMarker) : UpToMarker (b :: bytes) ↔ UpToMarker bytes := by
  constructor
  · rintro (_ | ⟨-, hrest⟩)
    · exact absurd rfl h
    · exact hrest
  · exact .cons h

instance UpToMarker.decidable : (bytes : List UInt8) → Decidable (UpToMarker bytes)
  | [] => isFalse nofun
  | b :: bytes =>
      if h : (b :: bytes).take 3 = endMarker then
        decidable_of_iff' _ (upToMarker_iff_length h)
      else
        have := UpToMarker.decidable bytes
        decidable_of_iff' _ (upToMarker_cons_iff h)

end Amf0
