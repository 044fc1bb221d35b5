import RtmpModule.Common.StreamUtil

/-!
# Reading and skipping AMF0 values

The readers of `AMF0Serializer` work on the unread part of the payload, which
they return shortened. A reader that fails may already have taken bytes, and
`consume_any` goes on from there when a property of an object fails, so every
reader returns the rest of the stream along with its result.

The skipping functions are mutually recursive. They return the rest as a suffix
of what they were given, which is what makes them terminate.
-/

namespace Rtmp

/-- The bytes of an ASCII name. -/
def ascii (name : List Char) : List UInt8 := name.map fun c => UInt8.ofNat c.toNat

/-- `AMF0Type::type`, a byte; only the values the readers name are listed. -/
inductive AMF0Type where
  | number
  | boolean
  | shortString
  | object
  | null
  | undefined
  | mixedArray
  | objectEnd
  | array
  | other (value : UInt8)
  deriving DecidableEq, Repr

namespace AMF0Type

def ofByte (value : UInt8) : AMF0Type :=
  if value = 0x00 then number
  else if value = 0x01 then boolean
  else if value = 0x02 then shortString
  else if value = 0x03 then object
  else if value = 0x05 then null
  else if value = 0x06 then undefined
  else if value = 0x08 then mixedArray
  else if value = 0x09 then objectEnd
  else if value = 0x0a then array
  else other value

end AMF0Type

namespace AMF0Serializer

open StreamUtil Bytes

/-- A read: what it produced, if anything, and the unread rest. -/
abbrev Read (α : Type) := Option α × List UInt8

def readType (stream : List UInt8) : Read AMF0Type :=
  if checkRedableLength stream 1 then
    (some (AMF0Type.ofByte (readUchar stream).1), stream.drop 1)
  else (none, stream)

/-- The type byte a reader expects in front of its value when `reads_type` is set. -/
def expectType (expected : AMF0Type) (readsType : Bool) (stream : List UInt8) : Read Unit :=
  if readsType then
    match readType stream with
    | (some dataType, rest) => (if dataType = expected then some () else none, rest)
    | (none, rest) => (none, rest)
  else (some (), stream)

/-- The length is a `short`: from 32768 on it is negative, hence a length no
stream can hold once it is converted to `size_t`. -/
def readShortString (stream : List UInt8) (readsType : Bool) : Read (List UInt8) :=
  match expectType .shortString readsType stream with
  | (none, rest) => (none, rest)
  | (some (), stream) =>
      if checkRedableLength stream 2 then
        let strLen := (readUshort stream).1.toNat
        let stream := stream.drop 2
        if strLen < 32768 ∧ checkRedableLength stream strLen then
          (some (stream.take strLen), stream.drop strLen)
        else (none, stream)
      else (none, stream)

def readNumber4byte (stream : List UInt8) : Read UInt32 :=
  if checkRedableLength stream 4 then (some (readUint stream).1, stream.drop 4)
  else (none, stream)

/-- A double, as its 64-bit pattern. -/
def readNumber (stream : List UInt8) (readsType : Bool) : Read UInt64 :=
  match expectType .number readsType stream with
  | (none, rest) => (none, rest)
  | (some (), stream) =>
      if checkRedableLength stream 8 then
        (some (UInt64.ofNat (ofBE (stream.take 8))), stream.drop 8)
      else (none, stream)

def readBoolean (stream : List UInt8) (readsType : Bool) : Read Bool :=
  match expectType .boolean readsType stream with
  | (none, rest) => (none, rest)
  | (some (), stream) =>
      if checkRedableLength stream 1 then
        let readed := (readUchar stream).1
        if readed = 1 ∨ readed = 0 then (some (decide (readed = 1)), stream.drop 1)
        else (none, stream.drop 1)
      else (none, stream)

def readNull (stream : List UInt8) : Read Unit := expectType .null true stream

/-- `is_end_of_object`: the marker is consumed, anything else is put back. -/
inductive EndOfObject where
  | notSufficient
  | ended
  | notEnded
  deriving DecidableEq, Repr

def isEndOfObject (stream : List UInt8) : EndOfObject × List UInt8 :=
  if checkRedableLength stream 3 then
    if stream.take 3 = [0, 0, 9] then (.ended, stream.drop 3) else (.notEnded, stream)
  else (.notSufficient, stream)

def consumeUntilEndOfObject (stream : List UInt8) : List UInt8 :=
  match stream with
  | [] => []
  | b :: rest =>
      match isEndOfObject (b :: rest) with
      | (.notEnded, _) => consumeUntilEndOfObject rest
      | (_, left) => left

theorem expectType_suffix (expected : AMF0Type) (readsType : Bool) (stream : List UInt8) :
    (expectType expected readsType stream).2 <:+ stream := by
  unfold expectType readType
  split
  · split <;> rename_i h <;> split at h <;> cases h <;>
      first | exact List.drop_suffix _ _ | exact List.suffix_refl _
  · exact List.suffix_refl _

theorem expectType_rest {expected : AMF0Type} {readsType : Bool} {stream rest : List UInt8}
    {value : Option Unit} (h : expectType expected readsType stream = (value, rest)) :
    rest <:+ stream := by
  have hsuffix := expectType_suffix expected readsType stream
  rwa [h] at hsuffix

theorem readShortString_suffix (stream : List UInt8) (readsType : Bool) :
    (readShortString stream readsType).2 <:+ stream := by
  unfold readShortString
  split
  · rename_i h
    exact expectType_rest h
  · rename_i h
    refine List.IsSuffix.trans ?_ (expectType_rest h)
    split
    · dsimp only
      split
      · rw [List.drop_drop]
        exact List.drop_suffix _ _
      · exact List.drop_suffix _ _
    · exact List.suffix_refl _

/-- Even a string that is cut short costs its two length bytes. -/
theorem readShortString_lt {stream : List UInt8} (h : 2 ≤ stream.length) :
    (readShortString stream false).2.length < stream.length := by
  simp only [readShortString, expectType, Bool.false_eq_true, ↓reduceIte, checkRedableLength,
    decide_eq_true_eq, if_pos h]
  split
  · simp only [List.length_drop]
    omega
  · simp only [List.length_drop]
    omega

theorem readNumber_suffix (stream : List UInt8) (readsType : Bool) :
    (readNumber stream readsType).2 <:+ stream := by
  unfold readNumber
  split
  · rename_i h
    exact expectType_rest h
  · rename_i h
    refine List.IsSuffix.trans ?_ (expectType_rest h)
    split
    · exact List.drop_suffix _ _
    · exact List.suffix_refl _

theorem readBoolean_suffix (stream : List UInt8) (readsType : Bool) :
    (readBoolean stream readsType).2 <:+ stream := by
  unfold readBoolean
  split
  · rename_i h
    exact expectType_rest h
  · rename_i h
    refine List.IsSuffix.trans ?_ (expectType_rest h)
    split
    · dsimp only
      split <;> exact List.drop_suffix _ _
    · exact List.suffix_refl _

theorem readNumber4byte_suffix (stream : List UInt8) :
    (readNumber4byte stream).2 <:+ stream := by
  rw [readNumber4byte]
  split
  · exact List.drop_suffix _ _
  · exact List.suffix_refl _

theorem consumeUntilEndOfObject_suffix (stream : List UInt8) :
    consumeUntilEndOfObject stream <:+ stream := by
  induction stream with
  | nil => exact List.suffix_refl _
  | cons b rest ih =>
      unfold consumeUntilEndOfObject isEndOfObject
      split
      · exact ih.trans (List.suffix_cons b rest)
      · rename_i left _ h
        split at h
        · split at h <;> cases h
          · exact List.drop_suffix _ _
          · exact List.suffix_refl _
        · cases h
          exact List.suffix_refl _

/-- The outcome of skipping over part of a stream. -/
structure Taken (stream : List UInt8) where
  ok : Bool
  rest : List UInt8
  suffix : rest <:+ stream

/-- The outcome of `consume_any`, which takes a type byte whenever there is one. -/
structure Skipped (stream : List UInt8) extends Taken stream where
  progress : stream ≠ [] → rest.length < stream.length
  nonempty : ok = true → stream ≠ []

/-- The outcome of `consume_any_property`, which takes a key length first. -/
structure PropertyTaken (stream : List UInt8) extends Taken stream where
  progress : 2 ≤ stream.length → rest.length < stream.length

/-- A value that follows its type byte. -/
def Skipped.afterType (value : UInt8) {stream rest : List UInt8} (ok : Bool)
    (h : rest <:+ stream) : Skipped (value :: stream) where
  ok := ok
  rest := rest
  suffix := h.trans (List.suffix_cons value stream)
  progress _ := Nat.lt_succ_of_le h.length_le
  nonempty _ := List.cons_ne_nil _ _

/-- An `array_size` that could not be read is uninitialised: `uninit` stands for
what the stack holds then, and is only ever asked in that case. -/
abbrev Uninit := Nat → UInt32

mutual

/-- `consume_any`: skip one value, type byte included. -/
def consumeAny (uninit : Uninit) (stream : List UInt8) : Skipped stream :=
  match stream with
  | [] => ⟨⟨false, [], List.suffix_refl _⟩, fun h => absurd rfl h, nofun⟩
  | value :: stream =>
      match AMF0Type.ofByte value with
      | .boolean =>
          .afterType value (readBoolean stream false).1.isSome (readBoolean_suffix stream false)
      | .null => .afterType value true (List.suffix_refl stream)
      | .number =>
          .afterType value (readNumber stream false).1.isSome (readNumber_suffix stream false)
      | .shortString =>
          .afterType value (readShortString stream false).1.isSome
            (readShortString_suffix stream false)
      | .undefined => .afterType value true (List.suffix_refl stream)
      | .object =>
          let properties := consumeProperties uninit stream
          .afterType value properties.ok properties.suffix
      | .mixedArray =>
          -- the announced count is read and ignored
          let properties := consumeProperties uninit (readNumber4byte stream).2
          .afterType value properties.ok
            (properties.suffix.trans (readNumber4byte_suffix stream))
      | .array =>
          let arraySize := (readNumber4byte stream).1.getD (uninit stream.length)
          let items := consumeItems uninit arraySize.toNat (readNumber4byte stream).2
          .afterType value items.ok (items.suffix.trans (readNumber4byte_suffix stream))
      | .objectEnd => .afterType value true (List.suffix_refl stream)
      | .other _ => .afterType value true (consumeUntilEndOfObject_suffix stream)
termination_by 3 * stream.length
decreasing_by
  · simp only [List.length_cons]
    omega
  · have := (readNumber4byte_suffix stream).length_le
    simp only [List.length_cons]
    omega
  · have := (readNumber4byte_suffix stream).length_le
    simp only [List.length_cons]
    omega

/-- `consume_any_property`: a key without its type byte, then a value. -/
def consumeAnyProperty (uninit : Uninit) (stream : List UInt8) : PropertyTaken stream :=
  match (readShortString stream false).1 with
  | none =>
      { ok := false, rest := (readShortString stream false).2,
        suffix := readShortString_suffix stream false, progress := readShortString_lt }
  | some _ =>
      let value := consumeAny uninit (readShortString stream false).2
      { ok := value.ok, rest := value.rest,
        suffix := value.suffix.trans (readShortString_suffix stream false),
        progress := fun h => lt_of_le_of_lt value.suffix.length_le (readShortString_lt h) }
termination_by 3 * stream.length + 1
decreasing_by
  have := (readShortString_suffix stream false).length_le
  omega

/-- The loop over the properties of an object, up to its end marker. What
`consume_any_property` returns is ignored. -/
def consumeProperties (uninit : Uninit) (stream : List UInt8) : Taken stream :=
  if _hlen : checkRedableLength stream 3 then
    if stream.take 3 = [0, 0, 9] then ⟨true, stream.drop 3, List.drop_suffix 3 stream⟩
    else
      let property := consumeAnyProperty uninit stream
      let properties := consumeProperties uninit property.rest
      ⟨properties.ok, properties.rest, properties.suffix.trans property.suffix⟩
  else ⟨false, stream, List.suffix_refl stream⟩
termination_by 3 * stream.length + 2
decreasing_by
  · omega
  · have h : 3 ≤ stream.length := by simpa [checkRedableLength] using _hlen
    have := property.progress (by omega)
    change 3 * property.rest.length + 2 < 3 * stream.length + 2
    omega

/-- The loop over the items of a strict array. -/
def consumeItems (uninit : Uninit) (count : Nat) (stream : List UInt8) : Taken stream :=
  match count with
  | 0 => ⟨true, stream, List.suffix_refl stream⟩
  | count + 1 =>
      let item := consumeAny uninit stream
      if _hok : item.ok then
        let items := consumeItems uninit count item.rest
        ⟨items.ok, items.rest, items.suffix.trans item.suffix⟩
      else ⟨false, item.rest, item.suffix⟩
termination_by 3 * stream.length + 1
decreasing_by
  · omega
  · have := item.progress (item.nonempty _hok)
    change 3 * item.rest.length + 1 < 3 * stream.length + 1
    omega

end

/-- `consume_full`: skip values until the payload is used up. -/
def consumeFull (uninit : Uninit) (stream : List UInt8) : Taken stream :=
  match stream with
  | [] => ⟨true, [], List.suffix_refl _⟩
  | b :: stream =>
      let value := consumeAny uninit (b :: stream)
      if value.ok then
        let left := consumeFull uninit value.rest
        ⟨left.ok, left.rest, left.suffix.trans value.suffix⟩
      else ⟨false, value.rest, value.suffix⟩
termination_by stream.length
decreasing_by exact value.progress (List.cons_ne_nil _ _)

end AMF0Serializer

end Rtmp
