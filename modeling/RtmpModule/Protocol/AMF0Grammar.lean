import RtmpModule.Protocol.AMF0Skipping
import Mathlib.Data.List.Infix

/-!
# What is skipped as AMF0

The grammar of the bytes that `consume_any`, its loops and `consume_full` accept. It is
wider than AMF0: a value of an unknown type reaches up to the next end marker, and in an
object a key or a value that is broken is passed over.
-/

namespace Rtmp

namespace AMF0Serializer

open StreamUtil Bytes Amf0

/-- What the grammar describes: a value, some items of an array, the properties of an object with
their end marker, a value that is given up, and the values of a message. -/
inductive Form where
  | value
  | items (count : Nat)
  | properties
  | broken
  | values

/-- The first bytes are of a form and the others come behind it. The flag tells whether a property
in them is broken. -/
inductive Reads (uninit : Uninit) : Form → List UInt8 → List UInt8 → Bool → Prop where
  | number {body rest : List UInt8} (h : body.length = 8) :
      Reads uninit .value (0x00 :: (body ++ rest)) rest false
  | boolean {b : UInt8} {rest : List UInt8} (h : b = 0 ∨ b = 1) :
      Reads uninit .value (0x01 :: b :: rest) rest false
  | string {text : Text} {rest : List UInt8} (h : text.bytes.length < 32768) :
      Reads uninit .value (0x02 :: (text.encode ++ rest)) rest false
  | bare {type : UInt8} {rest : List UInt8} (h : isBare type = true) :
      Reads uninit .value (type :: rest) rest false
  | unknown {type : UInt8} {payload rest : List UInt8} (htype : isUnknown type = true)
      (h : UpToMarker payload) : Reads uninit .value (type :: (payload ++ rest)) rest false
  | unknownToEnd {type : UInt8} {stream : List UInt8} (htype : isUnknown type = true)
      (h : ¬ endMarker <:+: stream) :
      Reads uninit .value (type :: stream) (stream.drop (stream.length - 2)) false
  | object {stream rest : List UInt8} {damaged : Bool}
      (h : Reads uninit .properties stream rest damaged) :
      Reads uninit .value (0x03 :: stream) rest damaged
  | mixedArray {count : UInt32} {stream rest : List UInt8} {damaged : Bool}
      (h : Reads uninit .properties stream rest damaged) :
      Reads uninit .value (0x08 :: (toBE 4 count.toNat ++ stream)) rest damaged
  | mixedArrayToEnd {stream rest : List UInt8} {damaged : Bool} (hlength : stream.length < 4)
      (h : Reads uninit .properties stream rest damaged) :
      Reads uninit .value (0x08 :: stream) rest damaged
  | array {count : UInt32} {stream rest : List UInt8} {damaged : Bool}
      (h : Reads uninit (.items count.toNat) stream rest damaged) :
      Reads uninit .value (0x0a :: (toBE 4 count.toNat ++ stream)) rest damaged
  | arrayToEnd {stream rest : List UInt8} {damaged : Bool} (hlength : stream.length < 4)
      (h : Reads uninit (.items (uninit stream.length).toNat) stream rest damaged) :
      Reads uninit .value (0x0a :: stream) rest damaged
  | noItems {rest : List UInt8} : Reads uninit (.items 0) rest rest false
  | item {count : Nat} {stream middle rest : List UInt8} {damaged others : Bool}
      (h : Reads uninit .value stream middle damaged)
      (hitems : Reads uninit (.items count) middle rest others) :
      Reads uninit (.items (count + 1)) stream rest (damaged || others)
  | ended {rest : List UInt8} : Reads uninit .properties (endMarker ++ rest) rest false
  | property {key : Text} {stream middle rest : List UInt8} {damaged others : Bool}
      (hkey : key.bytes.length < 32768) (hmarker : (key.encode ++ stream).take 3 ≠ endMarker)
      (h : Reads uninit .value stream middle damaged)
      (hproperties : Reads uninit .properties middle rest others) :
      Reads uninit .properties (key.encode ++ stream) rest (damaged || others)
  | badKey {hi lo : UInt8} {stream rest : List UInt8} {others : Bool}
      (h : BadLength hi lo stream)
      (hproperties : Reads uninit .properties stream rest others) :
      Reads uninit .properties (hi :: lo :: stream) rest true
  | badValue {key : Text} {stream middle rest : List UInt8} {damaged others : Bool}
      (hkey : key.bytes.length < 32768) (h : Reads uninit .broken stream middle damaged)
      (hproperties : Reads uninit .properties middle rest others) :
      Reads uninit .properties (key.encode ++ stream) rest true
  | badBoolean {b : UInt8} {rest : List UInt8} (h : ¬(b = 0 ∨ b = 1)) :
      Reads uninit .broken (0x01 :: b :: rest) rest true
  | badNumber {rest : List UInt8} (h : rest.length < 8) :
      Reads uninit .broken (0x00 :: rest) rest true
  | badString {hi lo : UInt8} {rest : List UInt8} (h : BadLength hi lo rest) :
      Reads uninit .broken (0x02 :: hi :: lo :: rest) rest true
  | badArray {count : UInt32} {before : Nat} {stream middle rest : List UInt8}
      {damaged others : Bool} (hlt : before < count.toNat)
      (hitems : Reads uninit (.items before) stream middle damaged)
      (h : Reads uninit .broken middle rest others) :
      Reads uninit .broken (0x0a :: (toBE 4 count.toNat ++ stream)) rest true
  | noValues : Reads uninit .values [] [] false
  | values {stream middle rest : List UInt8} {damaged others : Bool}
      (h : Reads uninit .value stream middle damaged)
      (hvalues : Reads uninit .values middle rest others) :
      Reads uninit .values stream rest (damaged || others)

section Scanning

variable {stream : List UInt8}

/-- The search for the end marker stops behind the first one. -/
theorem scan_upToMarker {payload : List UInt8} (h : UpToMarker payload)
    (rest : List UInt8) : consumeUntilEndOfObject (payload ++ rest) = rest := by
  induction h with
  | marker => exact scan_marker rest
  | @cons b bytes hmarker hbytes ih =>
      have hlength := hbytes.length_le
      have htake : (b :: (bytes ++ rest)).take 3 = (b :: bytes).take 3 := by
        rw [← List.cons_append, List.take_append_of_le_length (Nat.le_succ_of_le hlength)]
      have hlong : 3 ≤ (b :: (bytes ++ rest)).length := by
        simp only [List.length_cons, List.length_append]
        omega
      rw [List.cons_append, scan_next hlong (by rwa [htake]), ih]

/-- Without one, it stops when two bytes are left. -/
theorem scan_none (h : ¬ endMarker <:+: stream) :
    consumeUntilEndOfObject stream = stream.drop (stream.length - 2) := by
  induction stream with
  | nil => rfl
  | cons b stream ih =>
      by_cases hlength : 3 ≤ (b :: stream).length
      · have hmarker : (b :: stream).take 3 ≠ endMarker :=
          fun heq => h (heq ▸ (List.take_prefix 3 _).isInfix)
        have hnone : ¬ endMarker <:+: stream :=
          fun hsub => h (hsub.trans (List.infix_cons (List.infix_refl stream)))
        have hdrop : (b :: stream).length - 2 = stream.length - 2 + 1 := by
          rw [List.length_cons] at hlength ⊢
          omega
        rw [scan_next hlength hmarker, ih hnone, hdrop, List.drop_succ_cons]
      · rw [scan_short (Nat.lt_of_not_le hlength), Nat.sub_eq_zero_of_le (by omega),
          List.drop_zero]

/-- There is a first end marker, or there is none. -/
theorem upToMarker_or_none (stream : List UInt8) :
    (∃ payload rest, UpToMarker payload ∧ stream = payload ++ rest) ∨
      ¬ endMarker <:+: stream := by
  induction stream with
  | nil => exact .inr (by simp [endMarker])
  | cons b stream ih =>
      by_cases hmarker : (b :: stream).take 3 = endMarker
      · refine .inl ⟨endMarker, (b :: stream).drop 3, .marker, ?_⟩
        rw [← hmarker, List.take_append_drop]
      · rcases ih with ⟨payload, rest, hpayload, rfl⟩ | hnone
        · have htake : (b :: payload).take 3 ≠ endMarker := by
            have hle : 3 ≤ (b :: payload).length := Nat.le_succ_of_le hpayload.length_le
            rwa [← List.cons_append, List.take_append_of_le_length hle] at hmarker
          exact .inl ⟨b :: payload, rest, .cons htake hpayload, rfl⟩
        · refine .inr fun hsub => ?_
          rcases List.infix_cons_iff.mp hsub with hprefix | hrest
          · exact hmarker (List.prefix_iff_eq_take.mp hprefix).symm
          · exact hnone hrest

end Scanning

section Soundness

variable {uninit : Uninit} {stream rest : List UInt8}

/-- What the functions make of a form: they skip over it, or give up a broken value. -/
def Form.Skips (uninit : Uninit) (stream rest : List UInt8) : Form → Prop
  | value => skipAny uninit stream = (true, rest)
  | items count => skipItems uninit stream count = (true, rest)
  | properties => skipProperties uninit stream = (true, rest)
  | broken => skipAny uninit stream = (false, rest)
  | values => skipFull uninit stream = (true, rest)

/-- There are no properties without an end marker. -/
theorem length_of_skipProperties (h : skipProperties uninit stream = (true, rest)) :
    3 ≤ stream.length := by
  by_contra hshort
  rw [skipProperties_short uninit stream (Nat.lt_of_not_le hshort)] at h
  cases h

/-- The loop goes on behind a property. -/
theorem skipProperties_property {skip : Skip} (hproperty : skipProperty uninit stream = skip)
    (hlength : skip.2.length ≤ stream.length) (hmarker : stream.take 3 ≠ endMarker)
    (h : skipProperties uninit skip.2 = (true, rest)) :
    skipProperties uninit stream = (true, rest) := by
  have hlong := (length_of_skipProperties h).trans hlength
  rw [skipProperties_next uninit stream hlong hmarker, hproperty, h]

theorem skipProperty_value {key : Text} (hkey : key.bytes.length < 32768) :
    skipProperty uninit (key.encode ++ stream) = skipAny uninit stream := by
  have hread : readShortString (key.encode ++ stream) false = (some key.bytes, stream) :=
    readShortString_text hkey
  rw [skipProperty_some uninit _ (congrArg Prod.fst hread), hread]

theorem skipProperty_badKey {hi lo : UInt8} (h : BadLength hi lo stream) :
    skipProperty uninit (hi :: lo :: stream) = (false, stream) := by
  have hread := readShortString_bad h
  rw [skipProperty_none uninit _ (congrArg Prod.fst hread), hread]

/-- The loop goes on behind a key and what was made of its value. -/
theorem skipProperties_key {key : Text} {middle : List UInt8} {ok : Bool}
    (hkey : key.bytes.length < 32768) (h : skipAny uninit stream = (ok, middle))
    (hmarker : (key.encode ++ stream).take 3 ≠ endMarker)
    (hproperties : skipProperties uninit middle = (true, rest)) :
    skipProperties uninit (key.encode ++ stream) = (true, rest) := by
  apply skipProperties_property ((skipProperty_value hkey).trans h) _ hmarker hproperties
  have hle : (skipAny uninit stream).2.length ≤ stream.length := skipAny_length_le
  rw [h] at hle
  rw [List.length_append]
  exact Nat.le_add_left_of_le hle

/-- The length of the empty string is not a bad one. -/
theorem take_ne_of_badLength {hi lo : UInt8} (h : BadLength hi lo stream) :
    (hi :: lo :: stream).take 3 ≠ endMarker := by
  intro htake
  simp only [List.take_succ_cons, endMarker, List.cons.injEq] at htake
  obtain ⟨rfl, rfl, -⟩ := htake
  have hzero : ofBE [0x00, 0x00] = 0 := rfl
  rw [BadLength, hzero] at h
  omega

/-- A value whose type is that of the end marker is not given up. -/
theorem take_ne_of_broken {key : Text} (h : skipAny uninit stream = (false, rest)) :
    (key.encode ++ stream).take 3 ≠ endMarker := by
  intro htake
  obtain ⟨behind, rfl⟩ := eq_cons_of_marker htake
  rw [skipAny_bare uninit _ rfl] at h
  cases h

theorem skipAny_array_count (count : UInt32) :
    skipAny uninit (0x0a :: (toBE 4 count.toNat ++ stream)) =
      skipItems uninit stream count.toNat := by
  rw [skipAny_array, readNumber4byte_append]
  rfl

theorem skipAny_array_short (h : stream.length < 4) :
    skipAny uninit (0x0a :: stream) =
      skipItems uninit stream (uninit stream.length).toNat := by
  rw [skipAny_array, readNumber4byte_short h]
  rfl

/-- The first items of an array, and then the others. -/
theorem skipItems_add {count : Nat} (others : Nat)
    (h : skipItems uninit stream count = (true, rest)) :
    skipItems uninit stream (count + others) = skipItems uninit rest others := by
  induction count generalizing stream with
  | zero =>
      rw [skipItems_zero] at h
      cases h
      rw [Nat.zero_add]
  | succ count ih =>
      cases hok : (skipAny uninit stream).1 with
      | false =>
          rw [skipItems_failed uninit _ hok] at h
          cases h
      | true =>
          rw [skipItems_ok uninit _ hok] at h
          rw [Nat.succ_add, skipItems_ok uninit _ hok, ih h]

/-- What the grammar describes is skipped. -/
theorem Reads.skips {form : Form} {damaged : Bool}
    (h : Reads uninit form stream rest damaged) : form.Skips uninit stream rest := by
  induction h with
  | number h => rw [Form.Skips, skipAny_number, readNumber_append h]
  | boolean h => rw [Form.Skips, skipAny_boolean, readBoolean_cons, decide_eq_true h]
  | string h => rw [Form.Skips, skipAny_string, readShortString_text h]; rfl
  | bare h => exact skipAny_bare uninit _ h
  | unknown htype h => rw [Form.Skips, skipAny_unknown uninit _ htype, scan_upToMarker h]
  | unknownToEnd htype h => rw [Form.Skips, skipAny_unknown uninit _ htype, scan_none h]
  | object h ih => rw [Form.Skips, skipAny_object, ih]
  | mixedArray h ih => rw [Form.Skips, skipAny_mixedArray, readNumber4byte_append, ih]
  | mixedArrayToEnd hlength h ih =>
      rw [Form.Skips, skipAny_mixedArray, readNumber4byte_short hlength, ih]
  | array h ih => rw [Form.Skips, skipAny_array_count, ih]
  | arrayToEnd hlength h ih => rw [Form.Skips, skipAny_array_short hlength, ih]
  | noItems => exact skipItems_zero uninit _
  | item h hitems ih ihitems =>
      rw [Form.Skips, skipItems_ok uninit _ (congrArg Prod.fst ih), ih]
      exact ihitems
  | ended => exact skipProperties_ended uninit _
  | property hkey hmarker h hproperties ih ihproperties =>
      exact skipProperties_key hkey ih hmarker ihproperties
  | badKey h hproperties ih =>
      exact skipProperties_property (skipProperty_badKey h) (Nat.le_add_right _ 2)
        (take_ne_of_badLength h) ih
  | badValue hkey h hproperties ih ihproperties =>
      exact skipProperties_key hkey ih (take_ne_of_broken ih) ihproperties
  | badBoolean h => rw [Form.Skips, skipAny_boolean, readBoolean_cons, decide_eq_false h]
  | badNumber h => rw [Form.Skips, skipAny_number, readNumber_short h]; rfl
  | badString h => rw [Form.Skips, skipAny_string, readShortString_bad h]; rfl
  | badArray hlt hitems h ihitems ih =>
      obtain ⟨others, hcount⟩ := Nat.exists_eq_add_of_lt hlt
      rw [Form.Skips, skipAny_array_count, hcount, Nat.add_assoc, skipItems_add _ ihitems,
        skipItems_failed uninit _ (congrArg Prod.fst ih), ih]
  | noValues => exact skipFull_nil uninit
  | values h hvalues ih ihvalues =>
      have hok := congrArg Prod.fst ih
      rw [Form.Skips, skipFull_ok uninit _ (ne_nil_of_skipAny hok) hok, ih]
      exact ihvalues

end Soundness

section Completeness

variable {uninit : Uninit} {stream rest : List UInt8}

/-- The grammar covers the streams that are shorter than a bound. -/
structure Covered (uninit : Uninit) (bound : Nat) : Prop where
  value : ∀ {stream rest}, stream.length < bound → skipAny uninit stream = (true, rest) →
    ∃ damaged, Reads uninit .value stream rest damaged
  broken : ∀ {stream rest}, stream.length < bound → skipAny uninit stream = (false, rest) →
    3 ≤ rest.length → Reads uninit .broken stream rest true
  items : ∀ {count stream rest}, stream.length < bound →
    skipItems uninit stream count = (true, rest) →
    ∃ damaged, Reads uninit (.items count) stream rest damaged
  brokenItem : ∀ {count stream rest}, stream.length < bound →
    skipItems uninit stream count = (false, rest) → 3 ≤ rest.length →
    ∃ before < count, ∃ middle damaged, Reads uninit (.items before) stream middle damaged ∧
      Reads uninit .broken middle rest true
  properties : ∀ {stream rest}, stream.length < bound →
    skipProperties uninit stream = (true, rest) →
    ∃ damaged, Reads uninit .properties stream rest damaged

/-- Four bytes are there, or they are not. -/
theorem count_or_short (stream : List UInt8) :
    stream.length < 4 ∨ ∃ (count : UInt32) (rest : List UInt8),
      stream = toBE 4 count.toNat ++ rest := by
  rcases Nat.lt_or_ge stream.length 4 with hshort | hlong
  · exact .inl hshort
  · have htake : (stream.take 4).length = 4 := List.length_take_of_le hlong
    have hlt := ofBE_lt (stream.take 4)
    rw [htake] at hlt
    refine .inr ⟨UInt32.ofNat (ofBE (stream.take 4)), stream.drop 4, ?_⟩
    have hbytes := toBE_ofBE (stream.take 4)
    rw [htake] at hbytes
    rw [UInt32.toNat_ofNat_of_lt' hlt, hbytes, List.take_append_drop]

theorem length_lt_count (type : UInt8) (count : UInt32) :
    stream.length < (type :: (toBE 4 count.toNat ++ stream)).length := by
  simp only [List.length_cons, List.length_append, length_toBE]
  omega

theorem number_of_skip (h : Read.skip (readNumber stream false) = (true, rest)) :
    ∃ body rest', body.length = 8 ∧ stream = body ++ rest' := by
  rcases Nat.lt_or_ge stream.length 8 with hshort | hlong
  · rw [readNumber_short hshort] at h
    cases h
  · exact ⟨_, _, List.length_take_of_le hlong, (List.take_append_drop 8 stream).symm⟩

/-- Properties are only given up when no end marker can follow. -/
theorem length_of_failed (h : skipProperties uninit stream = (false, rest)) : rest.length < 3 := by
  induction hn : stream.length using Nat.strongRecOn generalizing stream with
  | ind n ih =>
      rcases Nat.lt_or_ge stream.length 3 with hshort | hlong
      · rw [skipProperties_short uninit _ hshort] at h
        cases h
        exact hshort
      · by_cases hmarker : stream.take 3 = endMarker
        · rw [← List.take_append_drop 3 stream, hmarker] at h
          cases (skipProperties_ended uninit _).symm.trans h
        · rw [skipProperties_next uninit _ hlong hmarker] at h
          have hlt : (skipProperty uninit stream).2.length < stream.length :=
            (consumeAnyProperty uninit stream).progress (by omega)
          exact ih _ (hn ▸ hlt) h rfl

theorem Covered.value_step (h : Covered uninit stream.length)
    (hskip : skipAny uninit stream = (true, rest)) :
    ∃ damaged, Reads uninit .value stream rest damaged := by
  cases stream with
  | nil =>
      rw [skipAny_nil] at hskip
      cases hskip
  | cons type stream =>
      have hlt : stream.length < (type :: stream).length := Nat.lt_succ_self _
      rcases type_cases type with rfl | rfl | rfl | rfl | rfl | rfl | hbare | hunknown
      · rw [skipAny_number] at hskip
        obtain ⟨body, rest', hbody, rfl⟩ := number_of_skip hskip
        rw [readNumber_append hbody] at hskip
        cases hskip
        exact ⟨_, .number hbody⟩
      · rw [skipAny_boolean] at hskip
        cases stream with
        | nil => cases hskip
        | cons b stream =>
            rw [readBoolean_cons] at hskip
            obtain ⟨hb, rfl⟩ := Prod.mk.inj hskip
            exact ⟨_, .boolean (of_decide_eq_true hb)⟩
      · rw [skipAny_string] at hskip
        have hread := readShortString_read stream
        generalize readShortString stream false = read at hskip hread
        cases hread with
        | short hshort => cases hskip
        | bad hbad => cases hskip
        | text text rest' htext =>
            cases hskip
            exact ⟨_, .string htext⟩
      · rw [skipAny_object] at hskip
        obtain ⟨damaged, hproperties⟩ := h.properties hlt hskip
        exact ⟨damaged, .object hproperties⟩
      · rw [skipAny_mixedArray] at hskip
        rcases count_or_short stream with hshort | ⟨count, body, rfl⟩
        · rw [readNumber4byte_short hshort] at hskip
          obtain ⟨damaged, hproperties⟩ := h.properties hlt hskip
          exact ⟨damaged, .mixedArrayToEnd hshort hproperties⟩
        · rw [readNumber4byte_append] at hskip
          obtain ⟨damaged, hproperties⟩ := h.properties (length_lt_count 0x08 count) hskip
          exact ⟨damaged, .mixedArray hproperties⟩
      · rcases count_or_short stream with hshort | ⟨count, body, rfl⟩
        · rw [skipAny_array_short hshort] at hskip
          obtain ⟨damaged, hitems⟩ := h.items hlt hskip
          exact ⟨damaged, .arrayToEnd hshort hitems⟩
        · rw [skipAny_array_count] at hskip
          obtain ⟨damaged, hitems⟩ := h.items (length_lt_count 0x0a count) hskip
          exact ⟨damaged, .array hitems⟩
      · rw [skipAny_bare uninit _ hbare] at hskip
        cases hskip
        exact ⟨_, .bare hbare⟩
      · rw [skipAny_unknown uninit _ hunknown] at hskip
        rcases upToMarker_or_none stream with ⟨payload, rest', hpayload, rfl⟩ | hnone
        · rw [scan_upToMarker hpayload] at hskip
          cases hskip
          exact ⟨_, .unknown hunknown hpayload⟩
        · rw [scan_none hnone] at hskip
          cases hskip
          exact ⟨_, .unknownToEnd hunknown hnone⟩

theorem skipItems_length_le {count : Nat} (h : skipItems uninit stream count = (true, rest)) :
    rest.length ≤ stream.length := by
  have hle := (consumeItems uninit count stream).suffix.length_le
  have hrest : (consumeItems uninit count stream).rest = rest := congrArg Prod.snd h
  rwa [hrest] at hle

theorem Covered.broken_step (h : Covered uninit stream.length)
    (hskip : skipAny uninit stream = (false, rest)) (hrest : 3 ≤ rest.length) :
    Reads uninit .broken stream rest true := by
  cases stream with
  | nil =>
      rw [skipAny_nil] at hskip
      cases hskip
      cases hrest
  | cons type stream =>
      have hlt : stream.length < (type :: stream).length := Nat.lt_succ_self _
      rcases type_cases type with rfl | rfl | rfl | rfl | rfl | rfl | hbare | hunknown
      · rw [skipAny_number] at hskip
        rcases Nat.lt_or_ge stream.length 8 with hshort | hlong
        · rw [readNumber_short hshort] at hskip
          cases hskip
          exact .badNumber hshort
        · rw [← List.take_append_drop 8 stream,
            readNumber_append (List.length_take_of_le hlong)] at hskip
          cases hskip
      · rw [skipAny_boolean] at hskip
        cases stream with
        | nil =>
            cases hskip
            cases hrest
        | cons b stream =>
            rw [readBoolean_cons] at hskip
            obtain ⟨hb, rfl⟩ := Prod.mk.inj hskip
            exact .badBoolean (of_decide_eq_false hb)
      · rw [skipAny_string] at hskip
        have hread := readShortString_read stream
        generalize readShortString stream false = read at hskip hread
        cases hread with
        | short hshort =>
            cases hskip
            change 3 ≤ stream.length at hrest
            omega
        | bad hbad =>
            cases hskip
            exact .badString hbad
        | text text rest' htext => cases hskip
      · rw [skipAny_object] at hskip
        exact absurd hrest (Nat.not_le.mpr (length_of_failed hskip))
      · rw [skipAny_mixedArray] at hskip
        exact absurd hrest (Nat.not_le.mpr (length_of_failed hskip))
      · rcases count_or_short stream with hshort | ⟨count, body, rfl⟩
        · rw [skipAny_array_short hshort] at hskip
          obtain ⟨before, hbefore, middle, damaged, hitems, hbroken⟩ :=
            h.brokenItem hlt hskip hrest
          have hmiddle := skipItems_length_le hitems.skips
          have hshorter := length_lt_of_skipAny hbroken.skips (by omega)
          omega
        · rw [skipAny_array_count] at hskip
          obtain ⟨before, hbefore, middle, damaged, hitems, hbroken⟩ :=
            h.brokenItem (length_lt_count 0x0a count) hskip hrest
          exact .badArray hbefore hitems hbroken
      · rw [skipAny_bare uninit _ hbare] at hskip
        cases hskip
      · rw [skipAny_unknown uninit _ hunknown] at hskip
        cases hskip

theorem skip_eq_of_fst {ok : Bool} (h : (skipAny uninit stream).1 = ok) :
    skipAny uninit stream = (ok, (skipAny uninit stream).2) := Prod.ext h rfl

theorem Covered.items_step {count : Nat} (h : Covered uninit stream.length)
    (hskip : skipItems uninit stream count = (true, rest)) :
    ∃ damaged, Reads uninit (.items count) stream rest damaged := by
  cases count with
  | zero =>
      rw [skipItems_zero] at hskip
      cases hskip
      exact ⟨_, .noItems⟩
  | succ count =>
      cases hok : (skipAny uninit stream).1 with
      | false =>
          rw [skipItems_failed uninit _ hok] at hskip
          cases hskip
      | true =>
          rw [skipItems_ok uninit _ hok] at hskip
          obtain ⟨damaged, hvalue⟩ := h.value_step (skip_eq_of_fst hok)
          obtain ⟨others, hitems⟩ :=
            h.items (skipAny_length_lt (ne_nil_of_skipAny hok)) hskip
          exact ⟨_, .item hvalue hitems⟩

theorem Covered.brokenItem_step {count : Nat} (h : Covered uninit stream.length)
    (hskip : skipItems uninit stream count = (false, rest)) (hrest : 3 ≤ rest.length) :
    ∃ before < count, ∃ middle damaged, Reads uninit (.items before) stream middle damaged ∧
      Reads uninit .broken middle rest true := by
  cases count with
  | zero =>
      rw [skipItems_zero] at hskip
      cases hskip
  | succ count =>
      cases hok : (skipAny uninit stream).1 with
      | false =>
          rw [skipItems_failed uninit _ hok] at hskip
          have hfailed := skip_eq_of_fst hok
          rw [(Prod.mk.inj hskip).2] at hfailed
          exact ⟨0, Nat.succ_pos count, stream, false, .noItems, h.broken_step hfailed hrest⟩
      | true =>
          rw [skipItems_ok uninit _ hok] at hskip
          obtain ⟨damaged, hvalue⟩ := h.value_step (skip_eq_of_fst hok)
          obtain ⟨before, hbefore, middle, others, hitems, hbroken⟩ :=
            h.brokenItem (skipAny_length_lt (ne_nil_of_skipAny hok)) hskip hrest
          exact ⟨before + 1, Nat.succ_lt_succ hbefore, middle, _, .item hvalue hitems, hbroken⟩

theorem Covered.properties_step (h : Covered uninit stream.length)
    (hskip : skipProperties uninit stream = (true, rest)) :
    ∃ damaged, Reads uninit .properties stream rest damaged := by
  have hlength := length_of_skipProperties hskip
  by_cases hmarker : stream.take 3 = endMarker
  · have hstream : stream = endMarker ++ stream.drop 3 := by
      rw [← hmarker, List.take_append_drop]
    rw [hstream] at hskip ⊢
    cases (skipProperties_ended uninit _).symm.trans hskip
    exact ⟨_, .ended⟩
  · rw [skipProperties_next uninit _ hlength hmarker] at hskip
    have hread := readShortString_read stream
    generalize readShortString stream false = read at hread
    cases hread with
    | short hshort => omega
    | @bad hi lo stream hbad =>
        have hlt : stream.length < (hi :: lo :: stream).length :=
          Nat.lt_add_of_pos_right Nat.two_pos
        rw [skipProperty_badKey hbad] at hskip
        obtain ⟨others, hproperties⟩ := h.properties hlt hskip
        exact ⟨_, .badKey hbad hproperties⟩
    | text key stream hkey =>
        have hlt : stream.length < (key.encode ++ stream).length := by
          rw [Text.encode, List.length_append, List.length_append, length_toBE]
          omega
        rw [skipProperty_value hkey] at hskip
        obtain ⟨others, hproperties⟩ := h.properties (skipAny_length_le.trans_lt hlt) hskip
        cases hok : (skipAny uninit stream).1 with
        | false =>
            have hbroken := h.broken hlt (skip_eq_of_fst hok) (length_of_skipProperties hskip)
            exact ⟨_, .badValue hkey hbroken hproperties⟩
        | true =>
            obtain ⟨damaged, hvalue⟩ := h.value hlt (skip_eq_of_fst hok)
            exact ⟨_, .property hkey hmarker hvalue hproperties⟩

theorem covered (uninit : Uninit) (bound : Nat) : Covered uninit bound := by
  induction bound with
  | zero => exact ⟨nofun, nofun, nofun, nofun, nofun⟩
  | succ bound ih =>
      have hle : ∀ {length : Nat}, length < bound + 1 → Covered uninit length := by
        intro length hlt
        have hmono : ∀ {n : Nat}, n < length → n < bound := fun hn => by omega
        exact ⟨fun hn => ih.value (hmono hn), fun hn => ih.broken (hmono hn),
          fun hn => ih.items (hmono hn), fun hn => ih.brokenItem (hmono hn),
          fun hn => ih.properties (hmono hn)⟩
      exact ⟨fun hlt => (hle hlt).value_step, fun hlt => (hle hlt).broken_step,
        fun hlt => (hle hlt).items_step, fun hlt => (hle hlt).brokenItem_step,
        fun hlt => (hle hlt).properties_step⟩

/-- `consume_any` skips over what the grammar takes for a value. -/
theorem skipAny_iff :
    skipAny uninit stream = (true, rest) ↔ ∃ damaged, Reads uninit .value stream rest damaged := by
  constructor
  · exact (covered uninit stream.length).value_step
  · rintro ⟨damaged, h⟩
    exact h.skips

/-- `consume_full` skips over what the grammar takes for the values of a message. -/
theorem skipFull_iff :
    skipFull uninit stream = (true, rest) ↔
      ∃ damaged, Reads uninit .values stream rest damaged := by
  constructor
  · intro h
    induction hn : stream.length using Nat.strongRecOn generalizing stream with
    | ind n ih =>
        by_cases hnil : stream = []
        · rw [hnil, skipFull_nil] at h
          cases h
          rw [hnil]
          exact ⟨_, .noValues⟩
        · cases hok : (skipAny uninit stream).1 with
          | false =>
              rw [skipFull_failed uninit _ hnil hok] at h
              cases h
          | true =>
              rw [skipFull_ok uninit _ hnil hok] at h
              obtain ⟨damaged, hvalue⟩ := skipAny_iff.mp (skip_eq_of_fst hok)
              obtain ⟨others, hvalues⟩ := ih _ (hn ▸ skipAny_length_lt hnil) h rfl
              exact ⟨_, .values hvalue hvalues⟩
  · rintro ⟨damaged, h⟩
    exact h.skips

end Completeness

end AMF0Serializer

end Rtmp
