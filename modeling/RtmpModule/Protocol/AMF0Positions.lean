import RtmpModule.Protocol.AMF0Skipping

/-!
# Skipping AMF0 in a stream with positions

The functions that skip over values once more, as they work on a stream: a payload and
a position in it that reading moves on and `change_relative_position_istream` moves to and
fro. They have fuel instead of a measure, and there is no result when it runs out or when
the stream fails. With enough fuel the results are those of the functions on lists.
-/

namespace Rtmp

open AMF0Serializer (EndOfObject Uninit)

/-- An `istringstream`. -/
structure IStream where
  data : List UInt8
  pos : Nat
  deriving DecidableEq, Repr

namespace IStream

/-- `get_readable_length`. -/
def getReadableLength (stream : IStream) : Nat := stream.data.length - stream.pos

/-- `istream::read`, which fails when there are not enough bytes. -/
def read (stream : IStream) (size : Nat) : Option (List UInt8 × IStream) :=
  if size ≤ stream.getReadableLength then
    some ((stream.data.drop stream.pos).take size, { stream with pos := stream.pos + size })
  else none

/-- `change_relative_position_istream`, which fails outside of the payload. -/
def changeRelativePosition (stream : IStream) (relativePosition : Int) : Option IStream :=
  let target := (stream.pos : Int) + relativePosition
  if 0 ≤ target ∧ target ≤ stream.data.length then
    some { stream with pos := target.toNat }
  else none

def readType (stream : IStream) : Option (Option AMF0Type × IStream) :=
  if stream.getReadableLength < 1 then some (none, stream)
  else do
    let (readed, stream) ← stream.read 1
    return (some (AMF0Type.ofByte (readed.headD 0)), stream)

/-- `read_short_string` without a type. -/
def readShortString (stream : IStream) : Option (Bool × IStream) :=
  if stream.getReadableLength < 2 then some (false, stream)
  else do
    let (readed, stream) ← stream.read 2
    let strLen := Bytes.ofBE readed
    -- a negative `short` is a size that no stream has
    if 32768 ≤ strLen ∨ stream.getReadableLength < strLen then return (false, stream)
    let (_, stream) ← stream.read strLen
    return (true, stream)

def readNumber4byte (stream : IStream) : Option (Option UInt32 × IStream) :=
  if stream.getReadableLength < 4 then some (none, stream)
  else do
    let (readed, stream) ← stream.read 4
    return (some (UInt32.ofNat (Bytes.ofBE readed)), stream)

/-- `read_number` without a type. -/
def readNumber (stream : IStream) : Option (Bool × IStream) :=
  if stream.getReadableLength < 8 then some (false, stream)
  else do
    let (_, stream) ← stream.read 8
    return (true, stream)

/-- `read_boolean` without a type. -/
def readBoolean (stream : IStream) : Option (Bool × IStream) :=
  if stream.getReadableLength < 1 then some (false, stream)
  else do
    let (readed, stream) ← stream.read 1
    return (readed.headD 0 = 1 || readed.headD 0 = 0, stream)

def isEndOfObject (stream : IStream) : Option (EndOfObject × IStream) :=
  if stream.getReadableLength < 3 then some (.notSufficient, stream)
  else do
    let (buf, stream) ← stream.read 3
    if buf = [0, 0, 9] then return (.ended, stream)
    let stream ← stream.changeRelativePosition (-3)
    return (.notEnded, stream)

def consumeUntilEndOfObject : Nat → IStream → Option IStream
  | 0, _ => none
  | fuel + 1, stream => do
      match ← isEndOfObject stream with
      | (.notEnded, stream) =>
          let stream ← stream.changeRelativePosition 1
          consumeUntilEndOfObject fuel stream
      | (_, stream) => return stream

variable (uninit : Uninit)

mutual

def consumeAny : Nat → IStream → Option (Bool × IStream)
  | 0, _ => none
  | fuel + 1, stream => do
      match ← readType stream with
      | (none, stream) => return (false, stream)
      | (some dataType, stream) =>
          match dataType with
          | .boolean => readBoolean stream
          | .null => return (true, stream)
          | .number => readNumber stream
          | .shortString => readShortString stream
          | .undefined => return (true, stream)
          | .object => consumeProperties fuel stream
          | .mixedArray =>
              let (_, stream) ← readNumber4byte stream
              consumeProperties fuel stream
          | .array =>
              let (arraySize, rest) ← readNumber4byte stream
              consumeItems fuel 0 (arraySize.getD (uninit stream.getReadableLength)) rest
          | .objectEnd => return (true, stream)
          | .other _ =>
              let stream ← consumeUntilEndOfObject fuel stream
              return (true, stream)

def consumeAnyProperty : Nat → IStream → Option (Bool × IStream)
  | 0, _ => none
  | fuel + 1, stream => do
      match ← readShortString stream with
      | (false, stream) => return (false, stream)
      | (true, stream) => consumeAny fuel stream

/-- The loop over the properties of an object. -/
def consumeProperties : Nat → IStream → Option (Bool × IStream)
  | 0, _ => none
  | fuel + 1, stream => do
      match ← isEndOfObject stream with
      | (.notSufficient, stream) => return (false, stream)
      | (.ended, stream) => return (true, stream)
      | (.notEnded, stream) =>
          let (_, stream) ← consumeAnyProperty fuel stream
          consumeProperties fuel stream

/-- The loop over the items of an array, from the item `i` on. -/
def consumeItems : Nat → Nat → UInt32 → IStream → Option (Bool × IStream)
  | 0, _, _, _ => none
  | fuel + 1, i, arraySize, stream =>
      if i < arraySize.toNat then do
        match ← consumeAny fuel stream with
        | (false, stream) => return (false, stream)
        | (true, stream) => consumeItems fuel (i + 1) arraySize stream
      else some (true, stream)

end

def consumeFull : Nat → IStream → Option (Bool × IStream)
  | 0, _ => none
  | fuel + 1, stream =>
      if stream.getReadableLength = 0 then some (true, stream)
      else do
        match ← consumeAny uninit fuel stream with
        | (false, stream) => return (false, stream)
        | (true, stream) => consumeFull fuel stream

section Remaining

/-- What is left to read. -/
def remaining (stream : IStream) : List UInt8 := stream.data.drop stream.pos

/-- A stream some bytes further on. -/
def skip (stream : IStream) (size : Nat) : IStream :=
  { stream with pos := stream.pos + size }

variable {s : IStream} {size : Nat}

theorem getReadableLength_eq : s.getReadableLength = s.remaining.length := by
  rw [getReadableLength, remaining, List.length_drop]

@[simp] theorem remaining_skip : (s.skip size).remaining = s.remaining.drop size := by
  rw [remaining, remaining, List.drop_drop]
  rfl

@[simp] theorem skip_data : (s.skip size).data = s.data := rfl

@[simp] theorem skip_pos : (s.skip size).pos = s.pos + size := rfl

theorem length_remaining_skip_le : (s.skip size).remaining.length ≤ s.remaining.length := by
  rw [remaining_skip, List.length_drop]
  exact Nat.sub_le _ _

theorem skip_skip {more : Nat} : (s.skip size).skip more = s.skip (size + more) := by
  rw [skip, skip, skip, Nat.add_assoc]

theorem read_eq (h : size ≤ s.remaining.length) :
    s.read size = some (s.remaining.take size, s.skip size) := by
  rw [read, getReadableLength_eq, if_pos h]
  rfl

theorem pos_lt (h : 0 < s.remaining.length) : s.pos < s.data.length := by
  rw [remaining, List.length_drop] at h
  omega

/-- Moving back by what was read. -/
theorem changeRelativePosition_back (h : 0 < s.remaining.length) :
    (s.skip 3).changeRelativePosition (-3) = some s := by
  have hpos := pos_lt h
  have htarget : ((s.skip 3).pos : Int) + -3 = s.pos := by
    rw [skip_pos]
    omega
  rw [changeRelativePosition, htarget, skip_data, if_pos (by omega), Int.toNat_natCast]

theorem changeRelativePosition_next (h : 0 < s.remaining.length) :
    s.changeRelativePosition 1 = some (s.skip 1) := by
  have hpos := pos_lt h
  rw [changeRelativePosition, if_pos (by omega)]
  rfl

/-- A result on a stream is that on the bytes that are left. -/
def Follows (s : IStream) (result : Option (Bool × IStream)) (skipped : AMF0Serializer.Skip) :
    Prop :=
  ∃ size ≤ s.remaining.length,
    result = some (skipped.1, s.skip size) ∧ skipped.2 = s.remaining.drop size

/-- What follows a stream further on. -/
theorem Follows.after {result : Option (Bool × IStream)} {skipped : AMF0Serializer.Skip}
    (hsize : size ≤ s.remaining.length) (h : Follows (s.skip size) result skipped) :
    Follows s result skipped := by
  obtain ⟨more, hmore, hresult, hrest⟩ := h
  rw [remaining_skip, List.length_drop] at hmore
  rw [remaining_skip, List.drop_drop] at hrest
  exact ⟨size + more, by omega, by rw [hresult, skip_skip], hrest⟩

theorem follows_stay (ok : Bool) : Follows s (some (ok, s)) (ok, s.remaining) :=
  ⟨0, Nat.zero_le _, rfl, rfl⟩

end Remaining

section Readers

open AMF0Serializer (Read.skip)

variable {s : IStream}

theorem readType_nil (h : s.remaining = []) : readType s = some (none, s) := by
  rw [readType, getReadableLength_eq, h]
  rfl

theorem readType_cons {type : UInt8} {rest : List UInt8} (h : s.remaining = type :: rest) :
    readType s = some (some (AMF0Type.ofByte type), s.skip 1) := by
  have hlength : 1 ≤ s.remaining.length := by rw [h]; exact Nat.le_add_left 1 _
  rw [readType, getReadableLength_eq, if_neg (Nat.not_lt.mpr hlength), read_eq hlength, h]
  rfl

theorem readBoolean_follows (s : IStream) :
    Follows s (readBoolean s) (Read.skip (AMF0Serializer.readBoolean s.remaining false)) := by
  rw [readBoolean, getReadableLength_eq]
  cases hs : s.remaining with
  | nil =>
      rw [AMF0Serializer.readBoolean_nil]
      exact ⟨0, Nat.zero_le _, rfl, by rw [hs]; rfl⟩
  | cons b rest =>
      have hlength : 1 ≤ s.remaining.length := by rw [hs]; exact Nat.le_add_left 1 _
      rw [AMF0Serializer.readBoolean_cons]
      refine ⟨1, hlength, ?_, by rw [hs]; rfl⟩
      rw [← hs, if_neg (Nat.not_lt.mpr hlength), read_eq hlength, hs]
      change some (decide (b = 1) || decide (b = 0), s.skip 1) = _
      rw [Bool.or_comm, ← Bool.decide_or]

theorem readNumber_follows (s : IStream) :
    Follows s (readNumber s) (Read.skip (AMF0Serializer.readNumber s.remaining false)) := by
  rw [readNumber, getReadableLength_eq]
  rcases Nat.lt_or_ge s.remaining.length 8 with hshort | hlong
  · rw [if_pos hshort, AMF0Serializer.readNumber_short hshort]
    exact follows_stay false
  · have hread := @AMF0Serializer.readNumber_append (s.remaining.drop 8) _
      (List.length_take_of_le hlong)
    rw [List.take_append_drop] at hread
    rw [if_neg (Nat.not_lt.mpr hlong), read_eq hlong, hread]
    exact ⟨8, hlong, rfl, rfl⟩

theorem readShortString_follows (s : IStream) :
    Follows s (readShortString s)
      (Read.skip (AMF0Serializer.readShortString s.remaining false)) := by
  rw [readShortString, getReadableLength_eq]
  rcases Nat.lt_or_ge s.remaining.length 2 with hshort | hlong
  · rw [if_pos hshort, AMF0Serializer.readShortString_short hshort]
    exact follows_stay false
  · obtain ⟨hi, more, hmore⟩ := List.exists_cons_of_length_pos (Nat.zero_lt_two.trans_le hlong)
    obtain ⟨lo, rest, rfl⟩ : ∃ lo rest, more = lo :: rest := by
      apply List.exists_cons_of_length_pos
      rw [hmore, List.length_cons] at hlong
      omega
    have hrest : (s.skip 2).remaining = rest := by rw [remaining_skip, hmore]; rfl
    rw [if_neg (Nat.not_lt.mpr hlong), read_eq hlong, hmore, AMF0Serializer.readShortString_two]
    apply Follows.after hlong
    change Follows (s.skip 2) (if 32768 ≤ Bytes.ofBE [hi, lo] ∨
      (s.skip 2).getReadableLength < Bytes.ofBE [hi, lo] then some (false, s.skip 2)
      else do
        let (_, stream) ← (s.skip 2).read (Bytes.ofBE [hi, lo])
        return (true, stream)) _
    rw [getReadableLength_eq, hrest]
    by_cases hbad : 32768 ≤ Bytes.ofBE [hi, lo] ∨ rest.length < Bytes.ofBE [hi, lo]
    · rw [if_pos hbad, if_neg (by omega), ← hrest]
      exact follows_stay false
    · have hlength : Bytes.ofBE [hi, lo] ≤ (s.skip 2).remaining.length := by
        rw [hrest]
        omega
      rw [if_neg hbad, if_pos (by omega), read_eq hlength, ← hrest]
      exact ⟨_, hlength, rfl, rfl⟩

theorem readNumber4byte_follows (s : IStream) :
    ∃ size ≤ s.remaining.length, readNumber4byte s =
        some ((AMF0Serializer.readNumber4byte s.remaining).1, s.skip size) ∧
      (AMF0Serializer.readNumber4byte s.remaining).2 = s.remaining.drop size := by
  rw [readNumber4byte, getReadableLength_eq]
  rcases Nat.lt_or_ge s.remaining.length 4 with hshort | hlong
  · rw [if_pos hshort, AMF0Serializer.readNumber4byte_short hshort]
    exact ⟨0, Nat.zero_le _, rfl, rfl⟩
  · have hcheck : StreamUtil.checkRedableLength s.remaining 4 = true := decide_eq_true hlong
    have hvalue : Bytes.ofBE (s.remaining.take 4) =
        NetworkUtil.ntoh4 (Bytes.ofLE (s.remaining.take 4)) :=
      (NetworkUtil.ntoh4_ofLE (List.length_take_of_le hlong)).symm
    rw [if_neg (Nat.not_lt.mpr hlong), read_eq hlong, AMF0Serializer.readNumber4byte,
      if_pos hcheck]
    refine ⟨4, hlong, ?_, rfl⟩
    change some (some (UInt32.ofNat (Bytes.ofBE (s.remaining.take 4))), s.skip 4) = _
    rw [hvalue]
    rfl

end Readers

section Marker

variable {s : IStream}

theorem isEndOfObject_short (h : s.remaining.length < 3) :
    isEndOfObject s = some (.notSufficient, s) := by
  rw [isEndOfObject, getReadableLength_eq, if_pos h]

theorem isEndOfObject_ended (hlength : 3 ≤ s.remaining.length)
    (h : s.remaining.take 3 = [0, 0, 9]) : isEndOfObject s = some (.ended, s.skip 3) := by
  rw [isEndOfObject, getReadableLength_eq, if_neg (Nat.not_lt.mpr hlength), read_eq hlength, h]
  rfl

/-- What is no end marker is read again. -/
theorem isEndOfObject_notEnded (hlength : 3 ≤ s.remaining.length)
    (h : s.remaining.take 3 ≠ [0, 0, 9]) : isEndOfObject s = some (.notEnded, s) := by
  have hback := changeRelativePosition_back (Nat.zero_lt_of_lt hlength)
  rw [isEndOfObject, getReadableLength_eq, if_neg (Nat.not_lt.mpr hlength), read_eq hlength]
  change (if s.remaining.take 3 = [0, 0, 9] then some (EndOfObject.ended, s.skip 3)
    else do
      let stream ← (s.skip 3).changeRelativePosition (-3)
      return (EndOfObject.notEnded, stream)) = _
  rw [if_neg h, hback]
  rfl

/-- The search for an end marker ends after a turn for each byte. -/
theorem consumeUntilEndOfObject_follows {fuel : Nat} (h : s.remaining.length < fuel) :
    ∃ size ≤ s.remaining.length, consumeUntilEndOfObject fuel s = some (s.skip size) ∧
      AMF0Serializer.consumeUntilEndOfObject s.remaining = s.remaining.drop size := by
  induction fuel generalizing s with
  | zero => exact absurd h (Nat.not_lt_zero _)
  | succ fuel ih =>
      rw [consumeUntilEndOfObject]
      rcases Nat.lt_or_ge s.remaining.length 3 with hshort | hlong
      · rw [isEndOfObject_short hshort, AMF0Serializer.scan_short hshort]
        exact ⟨0, Nat.zero_le _, rfl, rfl⟩
      · by_cases hmarker : s.remaining.take 3 = [0, 0, 9]
        · have hscan := AMF0Serializer.scan_marker (s.remaining.drop 3)
          have hsplit := List.take_append_drop 3 s.remaining
          rw [hmarker] at hsplit
          rw [isEndOfObject_ended hlong hmarker]
          exact ⟨3, hlong, rfl, by rw [← hscan]; exact congrArg _ hsplit.symm⟩
        · obtain ⟨b, rest, hs⟩ := List.exists_cons_of_length_pos (Nat.zero_lt_of_lt hlong)
          have hrest : (s.skip 1).remaining = rest := by rw [remaining_skip, hs]; rfl
          have hlt : (s.skip 1).remaining.length < fuel := by
            rw [hs, List.length_cons] at h
            rw [hrest]
            omega
          obtain ⟨size, hsize, hresult, hscan⟩ := ih hlt
          have hnext := AMF0Serializer.scan_next (hs ▸ hlong) (hs ▸ hmarker)
          have hmove := changeRelativePosition_next (Nat.zero_lt_of_lt hlong)
          rw [hrest] at hsize hscan
          rw [isEndOfObject_notEnded hlong hmarker]
          refine ⟨1 + size, by rw [hs, List.length_cons]; omega, ?_, ?_⟩
          · rw [← skip_skip, ← hresult]
            exact congrArg (Option.bind · _) hmove
          · rw [hs, hnext, hscan, Nat.add_comm, List.drop_succ_cons]

end Marker

section Equations

variable {uninit : Uninit} {fuel : Nat} {s t : IStream} {rest : List UInt8}

theorem consumeAny_number (h : s.remaining = 0x00 :: rest) :
    consumeAny uninit (fuel + 1) s = readNumber (s.skip 1) := by
  exact congrArg (Option.bind · _) (readType_cons h)

theorem consumeAny_boolean (h : s.remaining = 0x01 :: rest) :
    consumeAny uninit (fuel + 1) s = readBoolean (s.skip 1) := by
  exact congrArg (Option.bind · _) (readType_cons h)

theorem consumeAny_string (h : s.remaining = 0x02 :: rest) :
    consumeAny uninit (fuel + 1) s = readShortString (s.skip 1) := by
  exact congrArg (Option.bind · _) (readType_cons h)

theorem consumeAny_object (h : s.remaining = 0x03 :: rest) :
    consumeAny uninit (fuel + 1) s = consumeProperties uninit fuel (s.skip 1) := by
  exact congrArg (Option.bind · _) (readType_cons h)

theorem consumeAny_mixedArray {count : Option UInt32} (h : s.remaining = 0x08 :: rest)
    (hcount : readNumber4byte (s.skip 1) = some (count, t)) :
    consumeAny uninit (fuel + 1) s = consumeProperties uninit fuel t := by
  refine Eq.trans (congrArg (Option.bind · _) (readType_cons h)) ?_
  exact congrArg (Option.bind · _) hcount

theorem consumeAny_array {count : Option UInt32} (h : s.remaining = 0x0a :: rest)
    (hcount : readNumber4byte (s.skip 1) = some (count, t)) :
    consumeAny uninit (fuel + 1) s =
      consumeItems uninit fuel 0 (count.getD (uninit (s.skip 1).getReadableLength)) t := by
  refine Eq.trans (congrArg (Option.bind · _) (readType_cons h)) ?_
  exact congrArg (Option.bind · _) hcount

theorem consumeAny_bare {type : UInt8} (h : s.remaining = type :: rest)
    (htype : AMF0Serializer.isBare type = true) :
    consumeAny uninit (fuel + 1) s = some (true, s.skip 1) := by
  rw [consumeAny, readType_cons h]
  simp only [AMF0Serializer.isBare, Bool.or_eq_true, decide_eq_true_eq] at htype
  rcases htype with (rfl | rfl) | rfl
  · rfl
  · rfl
  · rfl

theorem consumeAny_unknown {type : UInt8} (h : s.remaining = type :: rest)
    (htype : AMF0Serializer.isUnknown type = true)
    (hscan : consumeUntilEndOfObject fuel (s.skip 1) = some t) :
    consumeAny uninit (fuel + 1) s = some (true, t) := by
  rw [consumeAny, readType_cons h, AMF0Serializer.ofByte_unknown _ htype]
  exact congrArg (Option.bind · _) hscan

end Equations

section Termination

variable {uninit : Uninit}

open AMF0Serializer (skipAny skipProperty skipProperties skipItems skipFull)

/-- With some fuel, the functions have a result, which is that on lists. -/
structure Enough (uninit : Uninit) (fuel : Nat) : Prop where
  any : ∀ {s : IStream}, 3 * s.remaining.length < fuel →
    Follows s (consumeAny uninit fuel s) (skipAny uninit s.remaining)
  property : ∀ {s : IStream}, 3 * s.remaining.length + 1 < fuel →
    Follows s (consumeAnyProperty uninit fuel s) (skipProperty uninit s.remaining)
  properties : ∀ {s : IStream}, 3 * s.remaining.length + 2 < fuel →
    Follows s (consumeProperties uninit fuel s) (skipProperties uninit s.remaining)
  items : ∀ {s : IStream} {i : Nat} {arraySize : UInt32}, 3 * s.remaining.length + 1 < fuel →
    Follows s (consumeItems uninit fuel i arraySize s)
      (skipItems uninit s.remaining (arraySize.toNat - i))

theorem Enough.any_succ {fuel : Nat} (h : Enough uninit fuel) {s : IStream}
    (hfuel : 3 * s.remaining.length < fuel + 1) :
    Follows s (consumeAny uninit (fuel + 1) s) (skipAny uninit s.remaining) := by
  cases hs : s.remaining with
  | nil =>
      rw [consumeAny, readType_nil hs, AMF0Serializer.skipAny_nil]
      exact ⟨0, Nat.zero_le _, rfl, by rw [hs]; rfl⟩
  | cons type rest =>
      have hrest : (s.skip 1).remaining = rest := by rw [remaining_skip, hs]; rfl
      have hlength : s.remaining.length = rest.length + 1 := by rw [hs, List.length_cons]
      have hsize : 1 ≤ s.remaining.length := by omega
      rcases AMF0Serializer.type_cases type with
        rfl | rfl | rfl | rfl | rfl | rfl | hbare | hunknown
      · rw [consumeAny_number hs, AMF0Serializer.skipAny_number, ← hrest]
        exact .after hsize (readNumber_follows _)
      · rw [consumeAny_boolean hs, AMF0Serializer.skipAny_boolean, ← hrest]
        exact .after hsize (readBoolean_follows _)
      · rw [consumeAny_string hs, AMF0Serializer.skipAny_string, ← hrest]
        exact .after hsize (readShortString_follows _)
      · rw [consumeAny_object hs, AMF0Serializer.skipAny_object, ← hrest]
        exact .after hsize (h.properties (by rw [hrest]; omega))
      · obtain ⟨size, hcount, hnumber, hbehind⟩ := readNumber4byte_follows (s.skip 1)
        have hle := @length_remaining_skip_le (s.skip 1) size
        rw [consumeAny_mixedArray hs hnumber, AMF0Serializer.skipAny_mixedArray, ← hrest, hbehind,
          ← remaining_skip]
        rw [hrest] at hle
        exact .after hsize (.after hcount (h.properties (by omega)))
      · obtain ⟨size, hcount, hnumber, hbehind⟩ := readNumber4byte_follows (s.skip 1)
        have hle := @length_remaining_skip_le (s.skip 1) size
        rw [consumeAny_array hs hnumber, getReadableLength_eq, AMF0Serializer.skipAny_array,
          ← hrest, hbehind, ← remaining_skip]
        rw [hrest] at hle
        exact .after hsize (.after hcount (h.items (by omega)))
      · rw [consumeAny_bare hs hbare, AMF0Serializer.skipAny_bare uninit _ hbare, ← hrest]
        exact .after hsize (follows_stay true)
      · have hfuel' : (s.skip 1).remaining.length < fuel := by
          rw [hrest]
          omega
        obtain ⟨size, hle, hscan, hbehind⟩ := consumeUntilEndOfObject_follows hfuel'
        rw [consumeAny_unknown hs hunknown hscan, AMF0Serializer.skipAny_unknown uninit _ hunknown,
          ← hrest]
        exact .after hsize ⟨size, hle, rfl, hbehind⟩

theorem Enough.property_succ {fuel : Nat} (h : Enough uninit fuel) {s : IStream}
    (hfuel : 3 * s.remaining.length + 1 < fuel + 1) :
    Follows s (consumeAnyProperty uninit (fuel + 1) s) (skipProperty uninit s.remaining) := by
  obtain ⟨size, hsize, hresult, hrest⟩ := readShortString_follows s
  rw [AMF0Serializer.Read.skip] at hresult
  cases hkey : (AMF0Serializer.readShortString s.remaining false).1 with
  | none =>
      rw [hkey] at hresult
      rw [AMF0Serializer.skipProperty_none uninit _ hkey, consumeAnyProperty, hresult]
      exact ⟨size, hsize, rfl, hrest⟩
  | some key =>
      rw [hkey] at hresult
      have hproperty : consumeAnyProperty uninit (fuel + 1) s =
          consumeAny uninit fuel (s.skip size) := by
        rw [consumeAnyProperty, hresult]
        rfl
      have hbehind : (AMF0Serializer.readShortString s.remaining false).2 =
          (s.skip size).remaining := hrest.trans remaining_skip.symm
      have hle : (s.skip size).remaining.length ≤ s.remaining.length := length_remaining_skip_le
      rw [AMF0Serializer.skipProperty_some uninit _ hkey, hproperty, hbehind]
      exact .after hsize (h.any (by omega))

theorem Enough.properties_succ {fuel : Nat} (h : Enough uninit fuel) {s : IStream}
    (hfuel : 3 * s.remaining.length + 2 < fuel + 1) :
    Follows s (consumeProperties uninit (fuel + 1) s)
      (skipProperties uninit s.remaining) := by
  rcases Nat.lt_or_ge s.remaining.length 3 with hshort | hlong
  · rw [consumeProperties, isEndOfObject_short hshort,
      AMF0Serializer.skipProperties_short uninit _ hshort]
    exact follows_stay false
  · by_cases hmarker : s.remaining.take 3 = [0, 0, 9]
    · have hsplit := List.take_append_drop 3 s.remaining
      have hended := AMF0Serializer.skipProperties_ended uninit (s.remaining.drop 3)
      rw [hmarker] at hsplit
      rw [consumeProperties, isEndOfObject_ended hlong hmarker]
      refine ⟨3, hlong, ?_, ?_⟩
      · rw [← hsplit]
        exact congrArg (fun r => some (r, s.skip 3)) (congrArg Prod.fst hended).symm
      · rw [← hsplit]
        exact congrArg Prod.snd hended
    · obtain ⟨size, hsize, hresult, hrest⟩ := h.property (s := s) (by omega)
      have hnext : consumeProperties uninit (fuel + 1) s =
          consumeProperties uninit fuel (s.skip size) := by
        rw [consumeProperties, isEndOfObject_notEnded hlong hmarker]
        exact congrArg (Option.bind · _) hresult
      have hlt : (skipProperty uninit s.remaining).2.length < s.remaining.length :=
        (AMF0Serializer.consumeAnyProperty uninit s.remaining).progress (by omega)
      rw [AMF0Serializer.skipProperties_next uninit _ hlong hmarker, hnext]
      rw [hrest, ← remaining_skip] at hlt ⊢
      exact .after hsize (h.properties (by omega))

theorem Enough.items_succ {fuel : Nat} (h : Enough uninit fuel) {s : IStream} {i : Nat}
    {arraySize : UInt32} (hfuel : 3 * s.remaining.length + 1 < fuel + 1) :
    Follows s (consumeItems uninit (fuel + 1) i arraySize s)
      (skipItems uninit s.remaining (arraySize.toNat - i)) := by
  rw [consumeItems]
  by_cases hi : i < arraySize.toNat
  · obtain ⟨size, hsize, hresult, hrest⟩ := h.any (s := s) (by omega)
    have hcount : arraySize.toNat - i = arraySize.toNat - (i + 1) + 1 := by omega
    rw [if_pos hi, hcount]
    cases hok : (skipAny uninit s.remaining).1 with
    | false =>
        rw [hok] at hresult
        rw [AMF0Serializer.skipItems_failed uninit _ hok, hresult]
        exact ⟨size, hsize, rfl, hrest⟩
    | true =>
        have hlt : (skipAny uninit s.remaining).2.length < s.remaining.length :=
          AMF0Serializer.skipAny_length_lt (AMF0Serializer.ne_nil_of_skipAny hok)
        rw [hok] at hresult
        rw [AMF0Serializer.skipItems_ok uninit _ hok, hresult]
        rw [hrest, ← remaining_skip] at hlt ⊢
        exact .after hsize (h.items (by omega))
  · rw [if_neg hi, Nat.sub_eq_zero_of_le (Nat.le_of_not_lt hi),
      AMF0Serializer.skipItems_zero]
    exact follows_stay true

theorem enough (uninit : Uninit) (fuel : Nat) : Enough uninit fuel := by
  induction fuel with
  | zero => exact ⟨nofun, nofun, nofun, nofun⟩
  | succ fuel ih => exact ⟨ih.any_succ, ih.property_succ, ih.properties_succ, ih.items_succ⟩

theorem consumeFull_follows {fuel : Nat} {s : IStream}
    (hfuel : 3 * s.remaining.length + 1 < fuel) :
    Follows s (consumeFull uninit fuel s) (skipFull uninit s.remaining) := by
  induction fuel generalizing s with
  | zero => exact absurd hfuel (Nat.not_lt_zero _)
  | succ fuel ih =>
      rw [consumeFull, getReadableLength_eq]
      by_cases hnil : s.remaining = []
      · rw [if_pos (by rw [hnil, List.length_nil]), hnil, AMF0Serializer.skipFull_nil, ← hnil]
        exact follows_stay true
      · obtain ⟨size, hsize, hresult, hrest⟩ := (enough uninit fuel).any (s := s) (by omega)
        rw [if_neg fun hlength => hnil (List.eq_nil_of_length_eq_zero hlength)]
        cases hok : (skipAny uninit s.remaining).1 with
        | false =>
            rw [hok] at hresult
            rw [AMF0Serializer.skipFull_failed uninit _ hnil hok, hresult]
            exact ⟨size, hsize, rfl, hrest⟩
        | true =>
            have hlt : (skipAny uninit s.remaining).2.length < s.remaining.length :=
              AMF0Serializer.skipAny_length_lt hnil
            rw [hok] at hresult
            rw [AMF0Serializer.skipFull_ok uninit _ hnil hok, hresult]
            rw [hrest, ← remaining_skip] at hlt ⊢
            exact .after hsize (ih (by omega))

/-- A stream is not moved back, and not behind its end. -/
def Advances (s t : IStream) : Prop :=
  t.data = s.data ∧ s.pos ≤ t.pos ∧ t.pos ≤ s.data.length

theorem advances_skip {s : IStream} {size : Nat} (h : s.pos ≤ s.data.length)
    (hsize : size ≤ s.remaining.length) : s.Advances (s.skip size) := by
  rw [remaining, List.length_drop] at hsize
  exact ⟨rfl, Nat.le_add_right _ _, by rw [skip_pos]; omega⟩

theorem Follows.advances {s : IStream} {result : Option (Bool × IStream)}
    {skipped : AMF0Serializer.Skip} (hpos : s.pos ≤ s.data.length)
    (h : Follows s result skipped) : ∃ ok t, result = some (ok, t) ∧ s.Advances t := by
  obtain ⟨size, hsize, hresult, -⟩ := h
  exact ⟨_, _, hresult, advances_skip hpos hsize⟩

/-- From every position, the functions that skip over values end after at most so many calls and
turns, with the position between the one they started from and the end; `consume_any` takes a byte
when there is one. -/
theorem skipping_terminates (uninit : Uninit) (s : IStream) (h : s.pos ≤ s.data.length) :
    ∀ fuel ≥ 3 * s.getReadableLength + 2,
      (∃ ok t, consumeAny uninit fuel s = some (ok, t) ∧ s.Advances t ∧
        (s.pos < s.data.length → s.pos < t.pos)) ∧
      (∃ ok t, consumeAnyProperty uninit fuel s = some (ok, t) ∧ s.Advances t) ∧
      (∃ ok t, consumeFull uninit fuel s = some (ok, t) ∧ s.Advances t) ∧
      ∃ t, consumeUntilEndOfObject fuel s = some t ∧ s.Advances t := by
  intro fuel hfuel
  rw [getReadableLength_eq] at hfuel
  refine ⟨?_, ?_, ?_, ?_⟩
  · obtain ⟨size, hsize, hresult, hrest⟩ := (enough uninit fuel).any (s := s) (by omega)
    refine ⟨_, _, hresult, advances_skip h hsize, fun hlt => ?_⟩
    have hne : s.remaining ≠ [] := by
      intro hnil
      exact absurd hlt (Nat.not_lt.mpr (List.drop_eq_nil_iff.mp hnil))
    have hshorter : (skipAny uninit s.remaining).2.length < s.remaining.length :=
      AMF0Serializer.skipAny_length_lt hne
    rw [hrest, List.length_drop] at hshorter
    rw [skip_pos]
    omega
  · exact ((enough uninit fuel).property (by omega)).advances h
  · exact (consumeFull_follows (by omega)).advances h
  · have hscan : s.remaining.length < fuel := by omega
    obtain ⟨size, hsize, hresult, -⟩ := consumeUntilEndOfObject_follows hscan
    exact ⟨_, hresult, advances_skip h hsize⟩

/-- An array whose count is cut off. -/
def cutArray : IStream := { data := [0x0a, 0x05], pos := 0 }

theorem skipping_terminates_cutArray :
    cutArray.pos ≤ cutArray.data.length ∧
    ∀ fuel ≥ 3 * cutArray.getReadableLength + 2,
      (∃ ok t, consumeAny (fun _ => 7) fuel cutArray = some (ok, t) ∧ cutArray.Advances t ∧
        (cutArray.pos < cutArray.data.length → cutArray.pos < t.pos)) ∧
      (∃ ok t, consumeAnyProperty (fun _ => 7) fuel cutArray = some (ok, t) ∧
        cutArray.Advances t) ∧
      (∃ ok t, consumeFull (fun _ => 7) fuel cutArray = some (ok, t) ∧ cutArray.Advances t) ∧
      ∃ t, consumeUntilEndOfObject fuel cutArray = some t ∧ cutArray.Advances t :=
  ⟨by decide, skipping_terminates (fun _ => 7) cutArray (by decide)⟩

end Termination

end IStream

end Rtmp
