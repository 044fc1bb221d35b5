import RtmpModule.Protocol.AMF0Skipping

/-!
# Writing AMF0 values

The writers of `AMF0Serializer` put their bytes behind those written so far and count
them. All return true. The length of a string goes into the stream as a `short`: its
bits are the length up to 65535, but the reader takes it for a signed number, so that
a string from 32768 bytes on does not read back.
-/

namespace Rtmp

/-- Bytes written, and counted. -/
def Written.add (os : Written) (bytes : List UInt8) : Written :=
  { bytes := os.bytes ++ bytes, writed := os.writed + bytes.length }

@[simp] theorem Written.add_add (os : Written) (first second : List UInt8) :
    (os.add first).add second = os.add (first ++ second) := by
  simp [Written.add, Nat.add_assoc]

/-- The byte `write_type` casts a type to. -/
def AMF0Type.toByte : AMF0Type → UInt8
  | number => 0x00
  | boolean => 0x01
  | shortString => 0x02
  | object => 0x03
  | null => 0x05
  | undefined => 0x06
  | mixedArray => 0x08
  | objectEnd => 0x09
  | array => 0x0a
  | other value => value

namespace AMF0Serializer

open StreamUtil NetworkUtil Bytes

def writeType (os : Written) (typeValue : AMF0Type) : Written :=
  { bytes := os.bytes ++ [typeValue.toByte], writed := os.writed + 1 }

def writeShortString (os : Written) (value : List UInt8) (writesType : Bool) : Written :=
  let os := if writesType then writeType os .shortString else os
  let os := writeShort os (Int16.ofNat value.length) true
  { bytes := os.bytes ++ value, writed := os.writed + value.length }

def writeNumber (os : Written) (value : UInt64) (writesType : Bool) : Written :=
  let os := if writesType then writeType os .number else os
  writeDouble os value true

def writeBoolean (os : Written) (value : Bool) (writesType : Bool) : Written :=
  let os := if writesType then writeType os .boolean else os
  { bytes := os.bytes ++ [if value then 1 else 0], writed := os.writed + 1 }

def endOfObject : List UInt8 := [0, 0, 9]

def writeEndOfObject (os : Written) : Written :=
  { bytes := os.bytes ++ endOfObject, writed := os.writed + endOfObject.length }

def writeObjectKey (os : Written) (value : List UInt8) : Written :=
  writeShortString os value false

def writeNull (os : Written) : Written := writeType os .null

section Writes

variable (os : Written)

theorem writeType_eq (typeValue : AMF0Type) :
    writeType os typeValue = os.add [typeValue.toByte] := rfl

/-- The type byte in front of a value, when it is written. -/
def typeBytes (typeValue : AMF0Type) (writesType : Bool) : List UInt8 :=
  if writesType then [typeValue.toByte] else []

theorem add_typeBytes (typeValue : AMF0Type) (writesType : Bool) :
    (if writesType then writeType os typeValue else os) =
      os.add (typeBytes typeValue writesType) := by
  cases writesType with
  | true => rfl
  | false => simp [typeBytes, Written.add]

theorem writeShort_ofNat (length : Nat) :
    writeShort os (Int16.ofNat length) true = os.add (toBE 2 length) := by
  have hbytes : toLE 2 (hton2 (Int16.ofNat length).toUInt16.toNat) = toBE 2 length := by
    rw [toLE_hton2, Int16.toUInt16_ofNat', UInt16.toNat_ofNat']
    exact toBE_mod 2 length
  simp only [writeShort, ↓reduceIte, hbytes, Written.add, length_toBE]

theorem writeShortString_eq (value : List UInt8) (writesType : Bool) :
    writeShortString os value writesType =
      os.add (typeBytes .shortString writesType ++ (toBE 2 value.length ++ value)) := by
  have hvalue : writeShortString os value writesType =
      (writeShort (if writesType then writeType os .shortString else os)
        (Int16.ofNat value.length) true).add value := rfl
  rw [hvalue, add_typeBytes, writeShort_ofNat, Written.add_add, Written.add_add]

theorem writeNumber_eq (value : UInt64) (writesType : Bool) :
    writeNumber os value writesType =
      os.add (typeBytes .number writesType ++ toBE 8 value.toNat) := by
  rw [writeNumber, add_typeBytes, ← Written.add_add]
  simp only [writeDouble, ↓reduceIte, toLE_ntoh8, Written.add, length_toBE]

theorem writeBoolean_eq (value : Bool) (writesType : Bool) :
    writeBoolean os value writesType =
      os.add (typeBytes .boolean writesType ++ [if value then 1 else 0]) := by
  rw [writeBoolean, add_typeBytes, ← Written.add_add]
  rfl

theorem writeEndOfObject_eq : writeEndOfObject os = os.add endOfObject := rfl

theorem writeObjectKey_eq (value : List UInt8) :
    writeObjectKey os value = os.add (toBE 2 value.length ++ value) := by
  rw [writeObjectKey, writeShortString_eq]
  rfl

theorem writeNull_eq : writeNull os = os.add [AMF0Type.null.toByte] := rfl

end Writes

section Reads

variable (stream : List UInt8)

/-- Where the type is written, the reader of the type takes it. -/
theorem expectType_typeBytes {typeValue : AMF0Type}
    (htype : AMF0Type.ofByte typeValue.toByte = typeValue) (reads : Bool) :
    expectType typeValue reads (typeBytes typeValue reads ++ stream) = (some (), stream) := by
  cases reads with
  | false => rfl
  | true =>
      have hcheck : checkRedableLength (typeValue.toByte :: stream) 1 = true := by
        simp [checkRedableLength]
      simp only [typeBytes, expectType, readType, ↓reduceIte, List.singleton_append, hcheck,
        readUchar_cons, htype, List.drop_succ_cons, List.drop_zero]

theorem readShortString_typed (reads : Bool) :
    readShortString (typeBytes .shortString reads ++ stream) reads =
      readShortString stream false := by
  rw [readShortString, expectType_typeBytes stream rfl]
  rfl

theorem readNumber_typed (reads : Bool) :
    readNumber (typeBytes .number reads ++ stream) reads = readNumber stream false := by
  rw [readNumber, expectType_typeBytes stream rfl]
  rfl

theorem readBoolean_typed (reads : Bool) :
    readBoolean (typeBytes .boolean reads ++ stream) reads = readBoolean stream false := by
  rw [readBoolean, expectType_typeBytes stream rfl]
  rfl

variable (rest : List UInt8)

theorem readShortString_written {value : List UInt8} (h : value.length < 32768) :
    readShortString (toBE 2 value.length ++ value ++ rest) false = (some value, rest) :=
  @readShortString_text rest ⟨value, by omega⟩ h

/-- From 32768 on the length is negative, and nothing more of the string is read. -/
theorem readShortString_negative {value : List UInt8} (hge : 32768 ≤ value.length)
    (hlt : value.length < 65536) :
    readShortString (toBE 2 value.length ++ value ++ rest) false = (none, value ++ rest) := by
  have hlength : ofBE (toBE 2 value.length) = value.length := ofBE_toBE_of_lt hlt
  obtain ⟨hi, lo, hbytes⟩ : ∃ hi lo, toBE 2 value.length = [hi, lo] := ⟨_, _, rfl⟩
  rw [hbytes] at hlength
  rw [hbytes, List.append_assoc]
  refine readShortString_bad (.inl ?_)
  rwa [hlength]

theorem readNumber_toBE (bits : UInt64) :
    readNumber (toBE 8 bits.toNat ++ rest) false = (some bits, rest) := by
  have hlength : (toBE 8 bits.toNat).length = 8 := length_toBE 8 _
  have hcheck : checkRedableLength (toBE 8 bits.toNat ++ rest) 8 = true := by
    simp [checkRedableLength]
  have hbits : ofBE (toBE 8 bits.toNat) = bits.toNat :=
    ofBE_toBE_of_lt (n := 8) (lt_of_lt_of_eq bits.toNat_lt (by norm_num))
  simp only [readNumber, expectType, Bool.false_eq_true, ↓reduceIte, hcheck,
    List.take_left' hlength, List.drop_left' hlength, hbits, UInt64.ofNat_toNat]

theorem readBoolean_bit (value : Bool) :
    readBoolean ((if value then 1 else 0) :: rest) false = (some value, rest) := by
  have hcheck : ∀ b, checkRedableLength (b :: rest) 1 = true := by simp [checkRedableLength]
  cases value with
  | true => simp [readBoolean, expectType, hcheck]
  | false => simp [readBoolean, expectType, hcheck]

end Reads

/-- A value of one of the types that are read into variables. -/
inductive Scalar where
  | shortString (value : List UInt8)
  | number (bits : UInt64)
  | boolean (value : Bool)
  deriving DecidableEq, Repr

namespace Scalar

/-- A string as AMF0 has it. -/
def InRange : Scalar → Prop
  | shortString value => value.length < 65536
  | _ => True

/-- A string whose length is not negative as a `short`. -/
def ShortLength : Scalar → Prop
  | shortString value => value.length < 32768
  | _ => True

@[simp] theorem shortLength_shortString (value : List UInt8) :
    (shortString value).ShortLength ↔ value.length < 32768 := Iff.rfl

@[simp] theorem shortLength_number (bits : UInt64) : (number bits).ShortLength := trivial

@[simp] theorem shortLength_boolean (value : Bool) : (boolean value).ShortLength := trivial

def write (os : Written) (writesType : Bool) : Scalar → Written
  | shortString value => writeShortString os value writesType
  | number bits => writeNumber os bits writesType
  | boolean value => writeBoolean os value writesType

/-- The reader of the type of a value, on any stream. -/
def readLike (stream : List UInt8) (readsType : Bool) : Scalar → Read Scalar
  | shortString _ => (readShortString stream readsType).map (Option.map shortString) id
  | number _ => (readNumber stream readsType).map (Option.map number) id
  | boolean _ => (readBoolean stream readsType).map (Option.map boolean) id

/-- What is written is counted, and read back whatever stands behind it. -/
def RoundTrips (os : Written) (withType : Bool) (rest : List UInt8) (s : Scalar) : Prop :=
  ∃ written, s.write os withType = os.add written ∧
    s.readLike (written ++ rest) withType = (some s, rest)

variable {os : Written} {withType : Bool} {rest : List UInt8}

theorem roundTrips_of_write {s : Scalar} {written : List UInt8}
    (h : s.write os withType = os.add written) :
    s.RoundTrips os withType rest ↔
      s.readLike (written ++ rest) withType = (some s, rest) := by
  constructor
  · rintro ⟨written', hwrite, hread⟩
    have hbytes := congrArg Written.bytes (h.symm.trans hwrite)
    obtain rfl : written = written' := List.append_cancel_left hbytes
    exact hread
  · intro hread
    exact ⟨written, h, hread⟩

/-- A scalar comes back exactly when it is not a string whose length is negative. -/
theorem readsBack_iff (os : Written) (withType : Bool) (rest : List UInt8) {s : Scalar}
    (hrange : s.InRange) : s.RoundTrips os withType rest ↔ s.ShortLength := by
  cases s with
  | shortString value =>
      rw [roundTrips_of_write (s := shortString value) (writeShortString_eq os value withType),
        readLike, List.append_assoc, readShortString_typed]
      by_cases hlength : value.length < 32768
      · rw [readShortString_written rest hlength]
        exact iff_of_true rfl hlength
      · rw [readShortString_negative rest (Nat.le_of_not_lt hlength) hrange]
        exact iff_of_false (fun h => nomatch h) hlength
  | number bits =>
      rw [roundTrips_of_write (s := number bits) (writeNumber_eq os bits withType), readLike,
        List.append_assoc, readNumber_typed, readNumber_toBE]
      exact iff_of_true rfl trivial
  | boolean value =>
      rw [roundTrips_of_write (s := boolean value) (writeBoolean_eq os value withType), readLike,
        List.append_assoc, readBoolean_typed, List.singleton_append, readBoolean_bit]
      exact iff_of_true rfl trivial

theorem readsBack_iff_app :
    (shortString [0x61, 0x70, 0x70]).InRange ∧
      (shortString [0x61, 0x70, 0x70]).RoundTrips {} true [7] := by
  have hrange : (shortString [0x61, 0x70, 0x70]).InRange := by
    rw [InRange]
    decide
  have hshort : (shortString [0x61, 0x70, 0x70]).ShortLength := by
    rw [ShortLength]
    decide
  exact ⟨hrange, (readsBack_iff {} true [7] hrange).mpr hshort⟩

/-- The shortest string whose length is negative is not read back. -/
theorem not_readsBack_negative :
    ¬ ∀ (os : Written) (withType : Bool) (rest : List UInt8) (s : Scalar), s.InRange →
      s.RoundTrips os withType rest := by
  intro hall
  have hlength : (List.replicate 32768 (0 : UInt8)).length = 32768 := List.length_replicate
  have htrip := hall {} true [] (shortString (List.replicate 32768 0))
    (by rw [InRange, hlength]; decide)
  rw [roundTrips_of_write (s := shortString _) (writeShortString_eq {} _ true), readLike,
    List.append_assoc, readShortString_typed,
    readShortString_negative [] (by rw [hlength]) (by rw [hlength]; decide)] at htrip
  exact nomatch htrip

end Scalar

end AMF0Serializer

end Rtmp
