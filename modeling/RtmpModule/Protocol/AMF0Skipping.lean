import RtmpModule.Library.Amf0
import RtmpModule.Protocol.AMF0Serializer

/-!
# What the skipping functions of AMF0 do

Each of the functions that skip over values is given as the result and the rest of the
stream, with one equation for each way it can go.
-/

namespace Rtmp

namespace AMF0Serializer

open StreamUtil Bytes Amf0

/-- Whether a part of the stream was skipped as it should be, and what is left. -/
abbrev Skip := Bool × List UInt8

def Taken.skip {stream : List UInt8} (t : Taken stream) : Skip := (t.ok, t.rest)

section Equations

variable (uninit : Uninit) (stream : List UInt8)

def skipAny : Skip := (consumeAny uninit stream).skip

def skipProperty : Skip := (consumeAnyProperty uninit stream).skip

def skipProperties : Skip := (consumeProperties uninit stream).skip

def skipItems (count : Nat) : Skip := (consumeItems uninit count stream).skip

def skipFull : Skip := (consumeFull uninit stream).skip

/-- What a reader did, without its value. -/
def Read.skip {α : Type} (r : Read α) : Skip := (r.1.isSome, r.2)

theorem skipAny_nil : skipAny uninit [] = (false, []) := by
  rw [skipAny, consumeAny]
  rfl

theorem skipAny_boolean :
    skipAny uninit (0x01 :: stream) = Read.skip (readBoolean stream false) := by
  rw [skipAny, consumeAny]
  rfl

theorem skipAny_number :
    skipAny uninit (0x00 :: stream) = Read.skip (readNumber stream false) := by
  rw [skipAny, consumeAny]
  rfl

theorem skipAny_string :
    skipAny uninit (0x02 :: stream) = Read.skip (readShortString stream false) := by
  rw [skipAny, consumeAny]
  rfl

theorem skipAny_object :
    skipAny uninit (0x03 :: stream) = skipProperties uninit stream := by
  rw [skipAny, consumeAny]
  rfl

theorem skipAny_mixedArray :
    skipAny uninit (0x08 :: stream) = skipProperties uninit (readNumber4byte stream).2 := by
  rw [skipAny, consumeAny]
  rfl

theorem skipAny_array :
    skipAny uninit (0x0a :: stream) =
      skipItems uninit (readNumber4byte stream).2
        ((readNumber4byte stream).1.getD (uninit stream.length)).toNat := by
  rw [skipAny, consumeAny]
  rfl

/-- The types that have nothing behind them. -/
def isBare (type : UInt8) : Bool := type = 0x05 || type = 0x06 || type = 0x09

/-- The types that `consume_any` does not know. -/
def isUnknown (type : UInt8) : Bool := type = 0x04 || type = 0x07 || 0x0b ≤ type

theorem skipAny_bare {type : UInt8} (h : isBare type = true) :
    skipAny uninit (type :: stream) = (true, stream) := by
  simp only [isBare, Bool.or_eq_true, decide_eq_true_eq] at h
  rcases h with (rfl | rfl) | rfl <;> (rw [skipAny, consumeAny]; rfl)

theorem ofByte_unknown (type : UInt8) (h : isUnknown type = true) :
    AMF0Type.ofByte type = .other type := by
  simp only [isUnknown, Bool.or_eq_true, decide_eq_true_eq] at h
  rcases h with (rfl | rfl) | h
  · rfl
  · rfl
  · have hne : ∀ known < 0x0b, type ≠ known := by
      intro known hlt heq
      exact absurd h (UInt8.not_le.mpr (heq ▸ hlt))
    simp [AMF0Type.ofByte, hne]

theorem skipAny_unknown {type : UInt8} (h : isUnknown type = true) :
    skipAny uninit (type :: stream) = (true, consumeUntilEndOfObject stream) := by
  rw [skipAny, consumeAny, ofByte_unknown type h]
  rfl

theorem type_cases (type : UInt8) :
    type = 0x00 ∨ type = 0x01 ∨ type = 0x02 ∨ type = 0x03 ∨ type = 0x08 ∨ type = 0x0a ∨
      isBare type = true ∨ isUnknown type = true := by
  simp only [isBare, isUnknown, Bool.or_eq_true, decide_eq_true_eq, ← UInt8.toNat_inj,
    UInt8.le_iff_toNat_le, UInt8.reduceToNat]
  omega

/-- A property without a key ends where the reading of the key does. -/
theorem skipProperty_none (h : (readShortString stream false).1 = none) :
    skipProperty uninit stream = (false, (readShortString stream false).2) := by
  rw [skipProperty, consumeAnyProperty]
  split
  · rfl
  · next hkey =>
    rw [h] at hkey
    cases hkey

/-- A property with a key is the value behind it. -/
theorem skipProperty_some {key : List UInt8} (h : (readShortString stream false).1 = some key) :
    skipProperty uninit stream = skipAny uninit (readShortString stream false).2 := by
  rw [skipProperty, consumeAnyProperty]
  split
  · next hkey =>
    rw [h] at hkey
    cases hkey
  · rfl

theorem skipProperties_short (h : stream.length < 3) :
    skipProperties uninit stream = (false, stream) := by
  rw [skipProperties, consumeProperties, dif_neg (by simpa [checkRedableLength] using h)]
  rfl

theorem skipProperties_ended (rest : List UInt8) :
    skipProperties uninit (0x00 :: 0x00 :: 0x09 :: rest) = (true, rest) := by
  have hmarker : (0x00 :: 0x00 :: 0x09 :: rest : List UInt8).take 3 = [0, 0, 9] := rfl
  rw [skipProperties, consumeProperties, dif_pos (by simp [checkRedableLength]), if_pos hmarker]
  rfl

theorem skipProperties_next (hlength : 3 ≤ stream.length) (h : stream.take 3 ≠ [0, 0, 9]) :
    skipProperties uninit stream = skipProperties uninit (skipProperty uninit stream).2 := by
  rw [skipProperties, consumeProperties, dif_pos (by simpa [checkRedableLength] using hlength),
    if_neg h]
  rfl

theorem skipItems_zero : skipItems uninit stream 0 = (true, stream) := by
  rw [skipItems, consumeItems]
  rfl

theorem skipItems_ok {count : Nat} (h : (skipAny uninit stream).1 = true) :
    skipItems uninit stream (count + 1) =
      skipItems uninit (skipAny uninit stream).2 count := by
  rw [skipItems, consumeItems]
  split
  · rfl
  · next hok => exact absurd h hok

theorem skipItems_failed {count : Nat} (h : (skipAny uninit stream).1 = false) :
    skipItems uninit stream (count + 1) = (false, (skipAny uninit stream).2) := by
  rw [skipItems, consumeItems]
  split
  · next hok => exact absurd hok (Bool.eq_false_iff.mp h)
  · rfl

theorem skipFull_nil : skipFull uninit [] = (true, []) := by
  rw [skipFull, consumeFull]
  rfl

theorem skipFull_ok (hne : stream ≠ []) (h : (skipAny uninit stream).1 = true) :
    skipFull uninit stream = skipFull uninit (skipAny uninit stream).2 := by
  obtain ⟨b, stream, rfl⟩ := List.exists_cons_of_ne_nil hne
  rw [skipFull, consumeFull]
  split
  · rfl
  · next hok => exact absurd h hok

theorem skipFull_failed (hne : stream ≠ []) (h : (skipAny uninit stream).1 = false) :
    skipFull uninit stream = (false, (skipAny uninit stream).2) := by
  obtain ⟨b, stream, rfl⟩ := List.exists_cons_of_ne_nil hne
  rw [skipFull, consumeFull]
  split
  · next hok => exact absurd hok (Bool.eq_false_iff.mp h)
  · rfl

end Equations

/-- Two bytes that are no length of a string in front of the others: as a `short` it is negative,
or there are not that many bytes. -/
def BadLength (hi lo : UInt8) (rest : List UInt8) : Prop :=
  32768 ≤ ofBE [hi, lo] ∨ rest.length < ofBE [hi, lo]

/-- The three ways of reading a string. -/
inductive StringRead : List UInt8 → Read (List UInt8) → Prop where
  | short {stream : List UInt8} (h : stream.length < 2) : StringRead stream (none, stream)
  | bad {hi lo : UInt8} {rest : List UInt8} (h : BadLength hi lo rest) :
      StringRead (hi :: lo :: rest) (none, rest)
  | text (text : Amf0.Text) (rest : List UInt8) (h : text.bytes.length < 32768) :
      StringRead (text.encode ++ rest) (some text.bytes, rest)

section Readers

variable {stream rest : List UInt8} {hi lo : UInt8} {text : Amf0.Text}

theorem readShortString_short (h : stream.length < 2) :
    readShortString stream false = (none, stream) := by
  have hcheck : ¬checkRedableLength stream 2 = true := by simpa [checkRedableLength] using h
  simp only [readShortString, expectType, Bool.false_eq_true, ↓reduceIte, if_neg hcheck]

theorem readUshort_two : (readUshort (hi :: lo :: rest)).1.toNat = ofBE [hi, lo] := by
  have hlt := ofBE_lt [hi, lo]
  rw [readUshort, List.take_succ_cons, List.take_succ_cons, List.take_zero,
    NetworkUtil.ntoh2_ofLE rfl, UInt16.toNat_ofNat']
  exact Nat.mod_eq_of_lt (lt_of_lt_of_eq hlt (by norm_num))

theorem readShortString_two :
    readShortString (hi :: lo :: rest) false =
      if ofBE [hi, lo] < 32768 ∧ ofBE [hi, lo] ≤ rest.length then
        (some (rest.take (ofBE [hi, lo])), rest.drop (ofBE [hi, lo]))
      else (none, rest) := by
  have hlength : 2 ≤ (hi :: lo :: rest).length := Nat.le_add_left 2 rest.length
  simp only [readShortString, expectType, Bool.false_eq_true, ↓reduceIte, readUshort_two,
    checkRedableLength, decide_eq_true_eq, if_pos hlength, List.drop_succ_cons, List.drop_zero]

theorem readShortString_bad (h : BadLength hi lo rest) :
    readShortString (hi :: lo :: rest) false = (none, rest) := by
  rw [readShortString_two, if_neg]
  rw [BadLength] at h
  omega

theorem readShortString_text (h : text.bytes.length < 32768) :
    readShortString (text.encode ++ rest) false = (some text.bytes, rest) := by
  have hlength : ofBE (toBE 2 text.bytes.length) = text.bytes.length :=
    ofBE_toBE_of_lt text.length_lt
  obtain ⟨hi, lo, hbytes⟩ : ∃ hi lo, toBE 2 text.bytes.length = [hi, lo] := ⟨_, _, rfl⟩
  rw [hbytes] at hlength
  rw [Amf0.Text.encode, hbytes, List.append_assoc]
  change readShortString (hi :: lo :: (text.bytes ++ rest)) false = _
  rw [readShortString_two, hlength, if_pos ⟨h, by simp⟩, List.take_left, List.drop_left]

theorem readShortString_read (stream : List UInt8) :
    StringRead stream (readShortString stream false) := by
  match stream with
  | [] =>
      rw [readShortString_short (by simp)]
      exact .short (by simp)
  | [b] =>
      rw [readShortString_short (by simp)]
      exact .short (by simp)
  | hi :: lo :: rest =>
      by_cases hbad : BadLength hi lo rest
      · rw [readShortString_bad hbad]
        exact .bad hbad
      · rw [BadLength, not_or, not_le, not_lt] at hbad
        have htake : (rest.take (ofBE [hi, lo])).length = ofBE [hi, lo] :=
          List.length_take_of_le hbad.2
        obtain ⟨text, htext⟩ : ∃ text : Amf0.Text, text.bytes = rest.take (ofBE [hi, lo]) :=
          ⟨⟨rest.take (ofBE [hi, lo]), by omega⟩, rfl⟩
        have hstream : hi :: lo :: rest = text.encode ++ rest.drop (ofBE [hi, lo]) := by
          rw [Amf0.Text.encode, htext, htake, List.append_assoc, List.take_append_drop]
          exact congrArg (· ++ rest) (toBE_ofBE [hi, lo]).symm
        have hlength : text.bytes.length < 32768 := by
          rw [htext, htake]
          exact hbad.1
        rw [hstream, readShortString_text hlength]
        exact .text text _ hlength

theorem readNumber_short (h : stream.length < 8) :
    readNumber stream false = (none, stream) := by
  have hcheck : ¬checkRedableLength stream 8 = true := by simpa [checkRedableLength] using h
  simp only [readNumber, expectType, Bool.false_eq_true, ↓reduceIte, if_neg hcheck]

theorem readNumber_append {body : List UInt8} (h : body.length = 8) :
    Read.skip (readNumber (body ++ rest) false) = (true, rest) := by
  have hcheck : checkRedableLength (body ++ rest) 8 = true := by simp [checkRedableLength, h]
  simp only [readNumber, expectType, Bool.false_eq_true, ↓reduceIte, hcheck, List.drop_left' h]
  rfl

theorem readBoolean_nil : readBoolean [] false = (none, []) := rfl

theorem readBoolean_cons (b : UInt8) :
    Read.skip (readBoolean (b :: rest) false) = (decide (b = 0 ∨ b = 1), rest) := by
  have hlength : 1 ≤ (b :: rest).length := Nat.le_add_left 1 rest.length
  simp only [readBoolean, expectType, Bool.false_eq_true, ↓reduceIte, checkRedableLength,
    decide_eq_true_eq, if_pos hlength, readUchar_cons, List.drop_succ_cons, List.drop_zero]
  by_cases hb : b = 1 ∨ b = 0
  · rw [if_pos hb, decide_eq_true hb.symm]
    rfl
  · rw [if_neg hb, decide_eq_false fun h => hb h.symm]
    rfl

theorem readNumber4byte_short (h : stream.length < 4) :
    readNumber4byte stream = (none, stream) := by
  have hcheck : ¬checkRedableLength stream 4 = true := by simpa [checkRedableLength] using h
  rw [readNumber4byte, if_neg hcheck]

theorem readNumber4byte_append (count : UInt32) :
    readNumber4byte (toBE 4 count.toNat ++ rest) = (some count, rest) := by
  have hcheck : checkRedableLength (toBE 4 count.toNat ++ rest) 4 = true := by
    simp [checkRedableLength]
  rw [readNumber4byte, if_pos hcheck, List.drop_left' (length_toBE 4 _), readUint_toBE]

end Readers

section Lengths

variable {uninit : Uninit} {stream rest : List UInt8}

theorem skipAny_length_le : (skipAny uninit stream).2.length ≤ stream.length :=
  (consumeAny uninit stream).suffix.length_le

theorem skipAny_length_lt (h : stream ≠ []) :
    (skipAny uninit stream).2.length < stream.length :=
  (consumeAny uninit stream).progress h

theorem length_lt_of_skipAny {ok : Bool} (h : skipAny uninit stream = (ok, rest))
    (hrest : 0 < rest.length) : rest.length < stream.length := by
  have hlt : stream ≠ [] → (skipAny uninit stream).2.length < stream.length := skipAny_length_lt
  rw [h] at hlt
  apply hlt
  rintro rfl
  rw [skipAny_nil] at h
  cases h
  exact Nat.lt_irrefl 0 hrest

theorem ne_nil_of_skipAny (h : (skipAny uninit stream).1 = true) : stream ≠ [] :=
  (consumeAny uninit stream).nonempty h

end Lengths

section Scanning

variable {stream : List UInt8}

theorem scan_short (h : stream.length < 3) : consumeUntilEndOfObject stream = stream := by
  cases stream with
  | nil => rfl
  | cons b stream =>
      have hcheck : ¬3 ≤ (b :: stream).length := Nat.not_le.mpr h
      simp only [consumeUntilEndOfObject, isEndOfObject, checkRedableLength, decide_eq_true_eq,
        if_neg hcheck]

theorem scan_marker (rest : List UInt8) :
    consumeUntilEndOfObject (endMarker ++ rest) = rest := by
  change consumeUntilEndOfObject (0x00 :: (0x00 :: 0x09 :: rest)) = rest
  rw [consumeUntilEndOfObject]
  rfl

theorem scan_next {b : UInt8} (hlength : 3 ≤ (b :: stream).length)
    (h : (b :: stream).take 3 ≠ endMarker) :
    consumeUntilEndOfObject (b :: stream) = consumeUntilEndOfObject stream := by
  have hmarker : ¬(b :: stream).take 3 = [0, 0, 9] := h
  simp only [consumeUntilEndOfObject, isEndOfObject, checkRedableLength, decide_eq_true_eq,
    if_pos hlength, if_neg hmarker]

end Scanning

end AMF0Serializer

end Rtmp
