import RtmpModule.Library.Bits
import RtmpModule.Media.CheckedRead
import RtmpModule.Media.ParsingFlv

/-!
# The AudioSpecificConfig

`get_aac_header` reads a configuration in four layouts, by shifts and masks on two,
three, five or six bytes. The configuration itself is a bit string, decoded here
field by field. The two agree on every configuration but one kind: with an explicit
frequency behind a short object type, the source asks for one byte more than there
are bits in.
-/

namespace Rtmp

namespace ParsingFlv

open FlvUtil FlvUtil.Cursor

/-- What an AudioSpecificConfig says. -/
structure ConfigFields where
  objectType : Nat
  samplingFrequency : Nat
  channelConfiguration : Nat
  deriving DecidableEq, Repr

/-- Five bits, and six more behind a value of 31. -/
def objectTypeField : Bits.Decoder Nat := do
  let objectType ← Bits.field 5
  if objectType = 31 then
    let extension ← Bits.field 6
    return 32 + extension
  else return objectType

/-- An index into the table of frequencies, and 24 bits behind an index of 15. -/
def samplingFrequencyField : Bits.Decoder Nat := do
  let index ← Bits.field 4
  if index = 15 then Bits.field 24 else return (samplingRates.getD index 0).toNat

/-- The AudioSpecificConfig as a bit string, one field after the other. -/
def configFields : Bits.Decoder ConfigFields := do
  let objectType ← objectTypeField
  let samplingFrequency ← samplingFrequencyField
  let channelConfiguration ← Bits.field 4
  return { objectType, samplingFrequency, channelConfiguration }

namespace ConfigFields

theorem decoder_bind {α β : Type} (x : Bits.Decoder α) (f : α → Bits.Decoder β)
    (bits : List Bool) : (x >>= f) bits = (x bits).bind fun p => f p.1 p.2 := rfl

theorem decoder_pure {α : Type} (a : α) (bits : List Bool) :
    (pure a : Bits.Decoder α) bits = some (a, bits) := rfl

variable {v m : Nat} {more : List Bool}

theorem objectType_plain (h : v / 2 ^ m % 2 ^ 5 ≠ 31) :
    objectTypeField (Bits.toBits (5 + m) v ++ more) =
      some (v / 2 ^ m % 2 ^ 5, Bits.toBits m v ++ more) := by
  simp only [objectTypeField, decoder_bind, Bits.field_toBits, Option.bind_some, h, if_false,
    decoder_pure]

theorem objectType_escaped (h : v / 2 ^ (6 + m) % 2 ^ 5 = 31) :
    objectTypeField (Bits.toBits (5 + (6 + m)) v ++ more) =
      some (32 + v / 2 ^ m % 2 ^ 6, Bits.toBits m v ++ more) := by
  simp only [objectTypeField, decoder_bind, Bits.field_toBits, Option.bind_some, h, if_true,
    decoder_pure]

theorem samplingFrequency_table (h : v / 2 ^ m % 2 ^ 4 ≠ 15) :
    samplingFrequencyField (Bits.toBits (4 + m) v ++ more) =
      some ((samplingRates.getD (v / 2 ^ m % 2 ^ 4) 0).toNat, Bits.toBits m v ++ more) := by
  simp only [samplingFrequencyField, decoder_bind, Bits.field_toBits, Option.bind_some, h,
    if_false, decoder_pure]

theorem samplingFrequency_explicit (h : v / 2 ^ (24 + m) % 2 ^ 4 = 15) :
    samplingFrequencyField (Bits.toBits (4 + (24 + m)) v ++ more) =
      some (v / 2 ^ m % 2 ^ 24, Bits.toBits m v ++ more) := by
  simp only [samplingFrequencyField, decoder_bind, Bits.field_toBits, Option.bind_some, h,
    if_true]

/-- An explicit frequency that is cut off, or has no channel configuration behind it. -/
theorem samplingFrequency_short (h : v / 2 ^ m % 2 ^ 4 = 15) (hlen : m + more.length < 28) :
    (samplingFrequencyField (Bits.toBits (4 + m) v ++ more)).bind
      (fun p => Bits.field 4 p.2) = none := by
  simp only [samplingFrequencyField, decoder_bind, Bits.field_toBits, Option.bind_some, h,
    if_true]
  apply Bits.field_field_short
  rw [List.length_append, Bits.length_toBits]
  omega

theorem configFields_eq (bits : List Bool) :
    configFields.run' bits =
      (objectTypeField bits).bind fun p => (samplingFrequencyField p.2).bind fun q =>
        (Bits.field 4 q.2).map fun r => ⟨p.1, q.1, r.1⟩ := by
  change (configFields bits).map Prod.fst = _
  simp only [configFields, decoder_bind, decoder_pure]
  cases objectTypeField bits with
  | none => rfl
  | some p =>
      simp only [Option.bind_some]
      cases samplingFrequencyField p.2 with
      | none => rfl
      | some q =>
          simp only [Option.bind_some]
          cases Bits.field 4 q.2 <;> rfl

/-- Without room for the channel configuration there is no configuration. -/
theorem configFields_none {bits rest : List Bool} {objectType : Nat}
    (htype : objectTypeField bits = some (objectType, rest))
    (hshort : (samplingFrequencyField rest).bind (fun q => Bits.field 4 q.2) = none) :
    configFields.run' bits = none := by
  rw [configFields_eq, htype, Option.bind_some]
  cases hfrequency : samplingFrequencyField rest with
  | none => rfl
  | some q =>
      rw [hfrequency, Option.bind_some] at hshort
      rw [Option.bind_some, hshort, Option.map_none]

theorem objectType_length {bits rest : List Bool} {objectType : Nat}
    (h : objectTypeField bits = some (objectType, rest)) : 5 + rest.length ≤ bits.length := by
  rw [objectTypeField, decoder_bind] at h
  obtain ⟨p, hp, h⟩ := Option.bind_eq_some_iff.mp h
  have hfive := (Bits.field_some hp).1
  split at h
  · rw [decoder_bind] at h
    obtain ⟨q, hq, h⟩ := Option.bind_eq_some_iff.mp h
    have hsix := (Bits.field_some hq).1
    cases h
    omega
  · cases h
    omega

theorem samplingFrequency_length {bits rest : List Bool} {frequency : Nat}
    (h : samplingFrequencyField bits = some (frequency, rest)) :
    4 + rest.length ≤ bits.length := by
  rw [samplingFrequencyField, decoder_bind] at h
  obtain ⟨p, hp, h⟩ := Option.bind_eq_some_iff.mp h
  have hfour := (Bits.field_some hp).1
  split at h
  · have hlong := (Bits.field_some h).1
    omega
  · cases h
    omega

/-- Even the shortest configuration takes thirteen bits. -/
theorem configFields_short {bits : List Bool} (h : bits.length < 13) :
    configFields.run' bits = none := by
  cases htype : objectTypeField bits with
  | none => rw [configFields_eq, htype, Option.bind_none]
  | some p =>
      obtain ⟨objectType, rest⟩ := p
      apply configFields_none htype
      cases hfrequency : samplingFrequencyField rest with
      | none => rfl
      | some q =>
          have htypeLength := objectType_length htype
          have hfrequencyLength := samplingFrequency_length hfrequency
          exact Bits.field_short (by omega)

section Layouts

variable {b0 b1 b2 b3 b4 b5 : UInt8} {rest : List UInt8}

theorem plain_table (ht : b0.toNat / 8 ≠ 31) (hi : b0.toNat % 8 * 2 + b1.toNat / 128 ≠ 15) :
    configFields.run' (Bits.ofBytes (b0 :: b1 :: rest)) =
      some ⟨b0.toNat / 8, (samplingRates.getD (b0.toNat % 8 * 2 + b1.toNat / 128) 0).toNat,
        b1.toNat / 8 % 16⟩ := by
  have h0 := UInt8.toNat_lt b0
  have h1 := UInt8.toNat_lt b1
  have hbits : Bits.ofBytes (b0 :: b1 :: rest) =
      Bits.toBits (5 + (4 + (4 + 3))) (b0.toNat * 256 + b1.toNat) ++ Bits.ofBytes rest :=
    Bits.ofBytes_two b0 b1 rest
  have ht' : (b0.toNat * 256 + b1.toNat) / 2 ^ (4 + (4 + 3)) % 2 ^ 5 = b0.toNat / 8 := by omega
  have hi' : (b0.toNat * 256 + b1.toNat) / 2 ^ (4 + 3) % 2 ^ 4 =
      b0.toNat % 8 * 2 + b1.toNat / 128 := by omega
  have hc : (b0.toNat * 256 + b1.toNat) / 2 ^ 3 % 2 ^ 4 = b1.toNat / 8 % 16 := by omega
  rw [configFields_eq, hbits, objectType_plain (by rw [ht']; exact ht), Option.bind_some,
    samplingFrequency_table (by rw [hi']; exact hi), Option.bind_some, Bits.field_toBits,
    Option.map_some, ht', hi', hc]

theorem plain_explicit (ht : b0.toNat / 8 ≠ 31) (hi : b0.toNat % 8 * 2 + b1.toNat / 128 = 15) :
    configFields.run' (Bits.ofBytes (b0 :: b1 :: b2 :: b3 :: b4 :: rest)) =
      some ⟨b0.toNat / 8, b1.toNat % 128 * 2 ^ 17 + (toUInt24 b2 b3 b4).toNat / 128,
        b4.toNat / 8 % 16⟩ := by
  have h0 := UInt8.toNat_lt b0
  have h2 := UInt8.toNat_lt b2
  have h3 := UInt8.toNat_lt b3
  have h4 := UInt8.toNat_lt b4
  obtain ⟨v, hv⟩ : ∃ v, v = ((((b0.toNat * 256 + b1.toNat) * 256 + b2.toNat) * 256 +
      b3.toNat) * 256 + b4.toNat) := ⟨_, rfl⟩
  have hnumber : Bytes.ofBE [b0, b1, b2, b3, b4] = v := by
    rw [hv]
    simp only [Bytes.ofBE_cons, Bytes.ofBE_nil, List.length_cons, List.length_nil]
    ring
  have hbits : Bits.ofBytes (b0 :: b1 :: b2 :: b3 :: b4 :: rest) =
      Bits.toBits (5 + (4 + (24 + (4 + 3)))) v ++ Bits.ofBytes rest :=
    hnumber ▸ Bits.ofBytes_append [b0, b1, b2, b3, b4] rest
  have ht' : v / 2 ^ (4 + (24 + (4 + 3))) % 2 ^ 5 = b0.toNat / 8 := by omega
  have hi' : v / 2 ^ (24 + (4 + 3)) % 2 ^ 4 = b0.toNat % 8 * 2 + b1.toNat / 128 := by omega
  have hf : v / 2 ^ (4 + 3) % 2 ^ 24 =
      b1.toNat % 128 * 2 ^ 17 + (toUInt24 b2 b3 b4).toNat / 128 := by
    rw [toUInt24_toNat]
    omega
  have hc : v / 2 ^ 3 % 2 ^ 4 = b4.toNat / 8 % 16 := by omega
  rw [configFields_eq, hbits, objectType_plain (by rw [ht']; exact ht), Option.bind_some,
    samplingFrequency_explicit (by rw [hi']; exact hi), Option.bind_some, Bits.field_toBits,
    Option.map_some, ht', hf, hc]

/-- The last of the five bytes above holds the rest of the channel configuration. -/
theorem plain_short (ht : b0.toNat / 8 ≠ 31) (hi : b0.toNat % 8 * 2 + b1.toNat / 128 = 15)
    (hlen : rest.length < 3) : configFields.run' (Bits.ofBytes (b0 :: b1 :: rest)) = none := by
  have h0 := UInt8.toNat_lt b0
  have hbits : Bits.ofBytes (b0 :: b1 :: rest) =
      Bits.toBits (5 + (4 + 7)) (b0.toNat * 256 + b1.toNat) ++ Bits.ofBytes rest :=
    Bits.ofBytes_two b0 b1 rest
  have ht' : (b0.toNat * 256 + b1.toNat) / 2 ^ (4 + 7) % 2 ^ 5 = b0.toNat / 8 := by omega
  have hi' : (b0.toNat * 256 + b1.toNat) / 2 ^ 7 % 2 ^ 4 =
      b0.toNat % 8 * 2 + b1.toNat / 128 := by omega
  rw [hbits]
  apply configFields_none (objectType_plain (by rw [ht']; exact ht))
  apply samplingFrequency_short (by rw [hi']; exact hi)
  rw [Bits.length_ofBytes]
  omega

theorem escaped_table (ht : b0.toNat / 8 = 31) (hi : b1.toNat / 2 % 16 ≠ 15) :
    configFields.run' (Bits.ofBytes (b0 :: b1 :: b2 :: rest)) =
      some ⟨32 + (b0.toNat % 8 * 8 + b1.toNat / 32),
        (samplingRates.getD (b1.toNat / 2 % 16) 0).toNat,
        b1.toNat % 2 * 8 + b2.toNat / 32⟩ := by
  have h1 := UInt8.toNat_lt b1
  have h2 := UInt8.toNat_lt b2
  obtain ⟨v, hv⟩ : ∃ v, v = (b0.toNat * 256 + b1.toNat) * 256 + b2.toNat := ⟨_, rfl⟩
  have hnumber : Bytes.ofBE [b0, b1, b2] = v := by
    rw [hv]
    simp only [Bytes.ofBE_cons, Bytes.ofBE_nil, List.length_cons, List.length_nil]
    ring
  have hbits : Bits.ofBytes (b0 :: b1 :: b2 :: rest) =
      Bits.toBits (5 + (6 + (4 + (4 + 5)))) v ++ Bits.ofBytes rest :=
    hnumber ▸ Bits.ofBytes_append [b0, b1, b2] rest
  have ht' : v / 2 ^ (6 + (4 + (4 + 5))) % 2 ^ 5 = 31 := by omega
  have hext : v / 2 ^ (4 + (4 + 5)) % 2 ^ 6 = b0.toNat % 8 * 8 + b1.toNat / 32 := by omega
  have hi' : v / 2 ^ (4 + 5) % 2 ^ 4 = b1.toNat / 2 % 16 := by omega
  have hc : v / 2 ^ 5 % 2 ^ 4 = b1.toNat % 2 * 8 + b2.toNat / 32 := by omega
  rw [configFields_eq, hbits, objectType_escaped ht', Option.bind_some,
    samplingFrequency_table (by rw [hi']; exact hi), Option.bind_some, Bits.field_toBits,
    Option.map_some, hext, hi', hc]

/-- The bits of two bytes behind an escaped object type. -/
theorem escaped_bits (ht : b0.toNat / 8 = 31) :
    objectTypeField (Bits.ofBytes (b0 :: b1 :: rest)) =
      some (32 + (b0.toNat * 256 + b1.toNat) / 2 ^ 5 % 2 ^ 6,
        Bits.toBits (4 + 1) (b0.toNat * 256 + b1.toNat) ++ Bits.ofBytes rest) := by
  have h1 := UInt8.toNat_lt b1
  have hbits : Bits.ofBytes (b0 :: b1 :: rest) =
      Bits.toBits (5 + (6 + 5)) (b0.toNat * 256 + b1.toNat) ++ Bits.ofBytes rest :=
    Bits.ofBytes_two b0 b1 rest
  rw [hbits]
  exact objectType_escaped (by omega)

theorem escaped_table_short (ht : b0.toNat / 8 = 31) (hi : b1.toNat / 2 % 16 ≠ 15) :
    configFields.run' (Bits.ofBytes [b0, b1]) = none := by
  have hi' : (b0.toNat * 256 + b1.toNat) / 2 ^ 1 % 2 ^ 4 = b1.toNat / 2 % 16 := by omega
  apply configFields_none (escaped_bits ht)
  rw [samplingFrequency_table (by rw [hi']; exact hi), Option.bind_some]
  exact Bits.field_short (by simp)

theorem escaped_explicit_short (ht : b0.toNat / 8 = 31) (hi : b1.toNat / 2 % 16 = 15)
    (hlen : rest.length < 4) : configFields.run' (Bits.ofBytes (b0 :: b1 :: rest)) = none := by
  have hi' : (b0.toNat * 256 + b1.toNat) / 2 ^ 1 % 2 ^ 4 = b1.toNat / 2 % 16 := by omega
  apply configFields_none (escaped_bits ht)
  apply samplingFrequency_short (by rw [hi']; exact hi)
  rw [Bits.length_ofBytes]
  omega

theorem escaped_explicit (ht : b0.toNat / 8 = 31) (hi : b1.toNat / 2 % 16 = 15) :
    configFields.run' (Bits.ofBytes (b0 :: b1 :: b2 :: b3 :: b4 :: b5 :: rest)) =
      some ⟨32 + (b0.toNat % 8 * 8 + b1.toNat / 32),
        b1.toNat % 2 * 2 ^ 23 + (toUInt24 b2 b3 b4).toNat / 2,
        b4.toNat % 2 * 8 + b5.toNat / 32⟩ := by
  have h1 := UInt8.toNat_lt b1
  have h2 := UInt8.toNat_lt b2
  have h3 := UInt8.toNat_lt b3
  have h4 := UInt8.toNat_lt b4
  have h5 := UInt8.toNat_lt b5
  obtain ⟨v, hv⟩ : ∃ v, v = ((((b0.toNat * 256 + b1.toNat) * 256 + b2.toNat) * 256 +
      b3.toNat) * 256 + b4.toNat) * 256 + b5.toNat := ⟨_, rfl⟩
  have hnumber : Bytes.ofBE [b0, b1, b2, b3, b4, b5] = v := by
    rw [hv]
    simp only [Bytes.ofBE_cons, Bytes.ofBE_nil, List.length_cons, List.length_nil]
    ring
  have hbits : Bits.ofBytes (b0 :: b1 :: b2 :: b3 :: b4 :: b5 :: rest) =
      Bits.toBits (5 + (6 + (4 + (24 + (4 + 5))))) v ++ Bits.ofBytes rest :=
    hnumber ▸ Bits.ofBytes_append [b0, b1, b2, b3, b4, b5] rest
  have ht' : v / 2 ^ (6 + (4 + (24 + (4 + 5)))) % 2 ^ 5 = 31 := by omega
  have hext : v / 2 ^ (4 + (24 + (4 + 5))) % 2 ^ 6 = b0.toNat % 8 * 8 + b1.toNat / 32 := by omega
  have hi' : v / 2 ^ (24 + (4 + 5)) % 2 ^ 4 = b1.toNat / 2 % 16 := by omega
  have hf : v / 2 ^ (4 + 5) % 2 ^ 24 =
      b1.toNat % 2 * 2 ^ 23 + (toUInt24 b2 b3 b4).toNat / 2 := by
    rw [toUInt24_toNat]
    omega
  have hc : v / 2 ^ 5 % 2 ^ 4 = b4.toNat % 2 * 8 + b5.toNat / 32 := by omega
  rw [configFields_eq, hbits, objectType_escaped ht', Option.bind_some,
    samplingFrequency_explicit (by rw [hi']; exact hi), Option.bind_some, Bits.field_toBits,
    Option.map_some, hext, hf, hc]

end Layouts

end ConfigFields

/-- The fields in the types of `get_aac_header`. -/
def AacHeader.ofFields (fields : ConfigFields) : AacHeader :=
  ⟨UInt32.ofNat fields.objectType, UInt32.ofNat fields.samplingFrequency,
    UInt32.ofNat fields.channelConfiguration⟩

namespace AacHeader

variable {hb lb b2 b3 b4 b5 : UInt8} {front rest : List UInt8} {c : Cursor}

theorem index_plain (hb lb : UInt8) :
    (((hb <<< 1) &&& (0x0f : UInt8)) ||| ((lb &&& 0x80) >>> 7)).toNat =
      hb.toNat % 8 * 2 + lb.toNat / 128 := by
  have h1 := UInt8.toNat_lt lb
  have hlow : ((lb &&& 0x80) >>> 7).toNat = lb.toNat / 128 := by
    rw [Bits.uint8_and_shiftRight (j := 1) (by decide) (by decide)]
    change lb.toNat / 128 % 2 = _
    omega
  have hhigh : ((hb <<< 1) &&& (0x0f : UInt8)).toNat = 2 ^ 1 * (hb.toNat % 8) := by
    rw [UInt8.toNat_and, UInt8.toNat_shiftLeft]
    change hb.toNat <<< 1 % 256 &&& 2 ^ 4 - 1 = _
    rw [Nat.and_two_pow_sub_one_eq_mod, Nat.shiftLeft_eq]
    omega
  rw [UInt8.toNat_or, hhigh, hlow, ← Nat.two_pow_add_eq_or_of_lt (by omega)]
  omega

theorem index_escaped (lb : UInt8) :
    ((lb >>> 1) &&& (0x0f : UInt8)).toNat = lb.toNat / 2 % 16 :=
  Bits.uint8_shiftRight_and (j := 4) (by decide) (by decide)

theorem index_eq_iff {index : UInt8} {n : Nat} (h : index.toNat = n) :
    index = 0x0f ↔ n = 15 := by
  rw [← UInt8.toNat_inj, h]
  rfl

theorem index_plain_iff (hb lb : UInt8) :
    ((hb <<< 1) &&& (0x0f : UInt8)) ||| ((lb &&& 0x80) >>> 7) = 0x0f ↔
      hb.toNat % 8 * 2 + lb.toNat / 128 = 15 :=
  index_eq_iff (index_plain hb lb)

theorem index_escaped_iff (lb : UInt8) :
    (lb >>> 1) &&& (0x0f : UInt8) = 0x0f ↔ lb.toNat / 2 % 16 = 15 :=
  index_eq_iff (index_escaped lb)

/-- A number of up to five bits in front of the three high bits of a byte. -/
theorem highBits_eq {x : UInt8} (hx : x.toNat < 32) (b : UInt8) :
    ((x <<< 3) ||| (b >>> 5)).toNat = x.toNat * 8 + b.toNat / 32 := by
  have hb := UInt8.toNat_lt b
  have hlow : (b >>> 5).toNat = b.toNat / 32 := by
    rw [UInt8.toNat_shiftRight, Nat.shiftRight_eq_div_pow]
    rfl
  rw [Bits.uint8_shiftLeft_or (by decide) hx, hlow]
  · rfl
  · rw [hlow]
    change b.toNat / 32 < 8
    omega

theorem eq_ofFields {objectType sampleRate channelCount : UInt32} {t f n : Nat}
    (ht : objectType.toNat = t) (hf : sampleRate.toNat = f) (hn : channelCount.toNat = n) :
    (⟨objectType, sampleRate, channelCount⟩ : AacHeader) = ofFields ⟨t, f, n⟩ := by
  simp only [ofFields, ← ht, ← hf, ← hn, UInt32.ofNat_toNat]

theorem objectType_plain (hb : UInt8) : (hb >>> 3).toUInt32.toNat = hb.toNat / 8 := by
  rw [UInt8.toNat_toUInt32, UInt8.toNat_shiftRight, Nat.shiftRight_eq_div_pow]
  rfl

theorem objectType_escaped (hb lb : UInt8) :
    ((((hb &&& 0x07) <<< 3) ||| (lb >>> 5)) + 32).toUInt32.toNat =
      32 + (hb.toNat % 8 * 8 + lb.toNat / 32) := by
  have h1 := UInt8.toNat_lt lb
  have hmask : (hb &&& 0x07).toNat = hb.toNat % 8 :=
    Nat.and_two_pow_sub_one_eq_mod hb.toNat 3
  have hor : (((hb &&& 0x07) <<< 3) ||| (lb >>> 5)).toNat = hb.toNat % 8 * 8 + lb.toNat / 32 := by
    rw [highBits_eq (by rw [hmask]; omega), hmask]
  rw [UInt8.toNat_toUInt32, UInt8.toNat_add, hor]
  change (hb.toNat % 8 * 8 + lb.toNat / 32 + 32) % 256 = _
  omega

/-- A frequency put together from the low bits of a byte and the high bits of three more. -/
theorem frequency_eq {a b k : UInt32} {high low : Nat} (hk : k.toNat < 24) (ha : a.toNat = high)
    (hb : b.toNat = low) (hhigh : high < 2 ^ (24 - k.toNat)) (hlow : low < 2 ^ k.toNat) :
    ((a <<< k) ||| b).toNat = high * 2 ^ k.toNat + low := by
  have hle : 2 ^ (24 - k.toNat) ≤ 2 ^ (32 - k.toNat) :=
    Nat.pow_le_pow_right (by decide) (by omega)
  rw [Bits.uint32_shiftLeft_or (by omega) (by omega) (by omega), ha, hb]

theorem plain_table (hi : hb.toNat % 8 * 2 + lb.toNat / 128 ≠ 15) :
    (getPlainAacHeader hb lb).run' c =
      .ok (some (ofFields ⟨hb.toNat / 8,
        (samplingRates.getD (hb.toNat % 8 * 2 + lb.toNat / 128) 0).toNat,
        lb.toNat / 8 % 16⟩)) := by
  have hi' := mt (index_plain_iff hb lb).mp hi
  have hc : ((lb >>> 3) &&& 0x0f).toUInt32.toNat = lb.toNat / 8 % 16 := by
    rw [UInt8.toNat_toUInt32, Bits.uint8_shiftRight_and (j := 4) (by decide) (by decide)]
    rfl
  rw [getPlainAacHeader]
  simp only [hi', if_false]
  rw [samplingRate, index_plain, eq_ofFields (objectType_plain hb) rfl hc]
  rfl

theorem plain_explicit (hi : hb.toNat % 8 * 2 + lb.toNat / 128 = 15) :
    (getPlainAacHeader hb lb).run' (between front (b2 :: b3 :: b4 :: rest)) =
      .ok (if rest = [] then none
        else some (ofFields ⟨hb.toNat / 8,
          lb.toNat % 128 * 2 ^ 17 + (toUInt24 b2 b3 b4).toNat / 128, b4.toNat / 8 % 16⟩)) := by
  have hi' := (index_plain_iff hb lb).mpr hi
  have h2 := UInt8.toNat_lt b2
  have h3 := UInt8.toNat_lt b3
  have h4 := UInt8.toNat_lt b4
  have hx := toUInt24_toNat b2 b3 b4
  have hmask : (lb &&& 0x7f).toUInt32.toNat = lb.toNat % 128 :=
    Nat.and_two_pow_sub_one_eq_mod lb.toNat 7
  have hlow : ((toUInt24 b2 b3 b4 &&& 0xffff80) >>> 7).toNat = (toUInt24 b2 b3 b4).toNat / 128 := by
    rw [Bits.uint32_and_shiftRight (j := 17) (by decide) (by decide), hx]
    change (b2.toNat * 65536 + b3.toNat * 256 + b4.toNat) / 128 % 131072 = _
    omega
  have hf := @frequency_eq _ _ 17 _ _ (by decide) hmask hlow
    (show lb.toNat % 128 < 128 by omega) (show _ < 131072 by omega)
  have hc : ((toUInt24 b2 b3 b4 >>> 3) &&& 0x0f).toNat = b4.toNat / 8 % 16 := by
    rw [Bits.uint32_shiftRight_and (j := 4) (by decide) (by decide), hx]
    change (b2.toNat * 65536 + b3.toNat * 256 + b4.toNat) / 8 % 16 = _
    omega
  rw [getPlainAacHeader]
  simp only [hi', if_true]
  by_cases hrest : rest = []
  · subst hrest
    rfl
  · have hpos := List.length_pos_iff.mpr hrest
    have hlen : ¬ (between front (b2 :: b3 :: b4 :: rest)).len ≤ 3 := by
      simp only [between_len, List.length_cons]
      omega
    apply run'_ok.mpr
    refine ⟨between (front ++ [b2, b3, b4]) rest, ?_⟩
    simp only [read_bind, read_get, hlen, if_false, read3byte_between, read_pure, hrest]
    rw [eq_ofFields (objectType_plain hb) hf hc]
    rfl

theorem plain_explicit_short (hi : hb.toNat % 8 * 2 + lb.toNat / 128 = 15)
    (hlen : rest.length < 3) :
    (getPlainAacHeader hb lb).run' (between front rest) = .ok none := by
  have hi' := (index_plain_iff hb lb).mpr hi
  have hshort : (between front rest).len ≤ 3 := by
    rw [between_len]
    omega
  rw [getPlainAacHeader]
  simp only [hi', if_true]
  apply run'_ok.mpr
  refine ⟨between front rest, ?_⟩
  simp only [read_bind, read_get, hshort, if_true, read_pure]

theorem escaped_table (hi : lb.toNat / 2 % 16 ≠ 15) :
    (getEscapedAacHeader hb lb).run' (between front (b2 :: rest)) =
      .ok (some (ofFields ⟨32 + (hb.toNat % 8 * 8 + lb.toNat / 32),
        (samplingRates.getD (lb.toNat / 2 % 16) 0).toNat, lb.toNat % 2 * 8 + b2.toNat / 32⟩)) := by
  have hi' := mt (index_escaped_iff lb).mp hi
  have hmask : (lb &&& 0x01).toNat = lb.toNat % 2 := Nat.and_two_pow_sub_one_eq_mod lb.toNat 1
  have hc : (((lb &&& 0x01) <<< 3) ||| (b2 >>> 5)).toUInt32.toNat =
      lb.toNat % 2 * 8 + b2.toNat / 32 := by
    rw [UInt8.toNat_toUInt32, highBits_eq (by rw [hmask]; omega), hmask]
  have hlen : ¬ (between front (b2 :: rest)).len < 1 := by simp
  rw [getEscapedAacHeader]
  simp only [hi', if_false]
  apply run'_ok.mpr
  refine ⟨between (front ++ [b2]) rest, ?_⟩
  simp only [read_bind, read_get, hlen, if_false, read1byte_between, read_pure]
  rw [samplingRate, index_escaped, eq_ofFields (objectType_escaped hb lb) rfl hc]

theorem escaped_table_short (hi : lb.toNat / 2 % 16 ≠ 15) :
    (getEscapedAacHeader hb lb).run' (between front []) = .ok none := by
  have hi' := mt (index_escaped_iff lb).mp hi
  rw [getEscapedAacHeader]
  simp only [hi', if_false]
  rfl

theorem escaped_explicit_short (hi : lb.toNat / 2 % 16 = 15) (hlen : rest.length < 4) :
    (getEscapedAacHeader hb lb).run' (between front rest) = .ok none := by
  have hi' := (index_escaped_iff lb).mpr hi
  rw [getEscapedAacHeader]
  simp only [hi', if_true]
  match rest, hlen with
  | [], _ => rfl
  | [_], _ => rfl
  | [_, _], _ => rfl
  | [b2, b3, b4], _ =>
      apply run'_ok.mpr
      refine ⟨between (front ++ [b2, b3, b4]) [], ?_⟩
      have hlen : ¬ (between front [b2, b3, b4]).len < 3 := by simp
      simp only [read_bind, read_get, hlen, if_false, read3byte_between]
      rfl

theorem escaped_explicit (hi : lb.toNat / 2 % 16 = 15) :
    (getEscapedAacHeader hb lb).run' (between front (b2 :: b3 :: b4 :: b5 :: rest)) =
      .ok (some (ofFields ⟨32 + (hb.toNat % 8 * 8 + lb.toNat / 32),
        lb.toNat % 2 * 2 ^ 23 + (toUInt24 b2 b3 b4).toNat / 2,
        b4.toNat % 2 * 8 + b5.toNat / 32⟩)) := by
  have hi' := (index_escaped_iff lb).mpr hi
  have h2 := UInt8.toNat_lt b2
  have h3 := UInt8.toNat_lt b3
  have h4 := UInt8.toNat_lt b4
  have hx := toUInt24_toNat b2 b3 b4
  have hmask : (lb &&& 0x01).toUInt32.toNat = lb.toNat % 2 :=
    Nat.and_two_pow_sub_one_eq_mod lb.toNat 1
  have hlow : (toUInt24 b2 b3 b4 >>> 1).toNat = (toUInt24 b2 b3 b4).toNat / 2 := by
    rw [UInt32.toNat_shiftRight, Nat.shiftRight_eq_div_pow]
    rfl
  have hf := @frequency_eq _ _ 23 _ _ (by decide) hmask hlow
    (show lb.toNat % 2 < 2 by omega) (show _ < 8388608 by omega)
  have hbit : (toUInt24 b2 b3 b4 &&& 0x01).toUInt8.toNat = b4.toNat % 2 := by
    rw [UInt32.toNat_toUInt8, UInt32.toNat_and, hx]
    change ((b2.toNat * 65536 + b3.toNat * 256 + b4.toNat) &&& 2 ^ 1 - 1) % 256 = _
    rw [Nat.and_two_pow_sub_one_eq_mod]
    omega
  have hc : (((toUInt24 b2 b3 b4 &&& 0x01).toUInt8 <<< 3) ||| (b5 >>> 5)).toUInt32.toNat =
      b4.toNat % 2 * 8 + b5.toNat / 32 := by
    rw [UInt8.toNat_toUInt32, highBits_eq (by rw [hbit]; omega), hbit]
  have hthree : ¬ (between front (b2 :: b3 :: b4 :: b5 :: rest)).len < 3 := by simp
  have hone : ¬ (between (front ++ [b2, b3, b4]) (b5 :: rest)).len < 1 := by simp
  rw [getEscapedAacHeader]
  simp only [hi', if_true]
  apply run'_ok.mpr
  refine ⟨between (front ++ [b2, b3, b4] ++ [b5]) rest, ?_⟩
  simp only [read_bind, read_get, hthree, hone, if_false, read3byte_between, read1byte_between,
    read_pure]
  rw [eq_ofFields (objectType_escaped hb lb) hf hc]
  rfl

end AacHeader

/-- A configuration with an explicit frequency behind a short object type that ends with the
byte in which its channel configuration ends. -/
def ExplicitInFiveBytes (config : List UInt8) : Prop :=
  config.length = 5 ∧ (config.getD 0 0).toNat / 8 ≠ 31 ∧
    (config.getD 0 0).toNat % 8 * 2 + (config.getD 1 0).toNat / 128 = 15

instance (config : List UInt8) : Decidable (ExplicitInFiveBytes config) :=
  inferInstanceAs (Decidable (_ ∧ _ ∧ _))

/-- The first byte of an AAC tag. -/
def aacTag (rate : Fin 4) (size type : Fin 2) : UInt8 :=
  UInt8.ofNat (0xa0 + 4 * rate + 2 * size + type)

theorem aacTag_soundFormat :
    ∀ (rate : Fin 4) (size type : Fin 2), (aacTag rate size type &&& 0xf0) >>> 4 = flvAac := by
  decide

section GetAacHeader

variable {fmt b0 b1 : UInt8} {rest : List UInt8}

theorem getAacHeader_short {config : List UInt8} (h : config.length < 2) :
    getAacHeader.run' (ofData (fmt :: flvAacSequenceHeader :: config)) = .ok none := by
  have htwo : ¬ (between [] (fmt :: flvAacSequenceHeader :: config)).len < 2 := by simp
  have hlen : (between ([] ++ [fmt, flvAacSequenceHeader]) config).len < 2 := h
  apply run'_ok.mpr
  refine ⟨between ([] ++ [fmt, flvAacSequenceHeader]) config, ?_⟩
  rw [getAacHeader, ofData_eq]
  simp only [read_bind, read_get, htwo, if_false, read2byte_between]
  split
  · rfl
  · simp only [read_bind, read_get, hlen, if_true, read_pure]

/-- The object type in the first byte decides which layout is read behind two bytes. -/
theorem getAacHeader_run (hfmt : (fmt &&& 0xf0) >>> 4 = flvAac) :
    getAacHeader.run' (ofData (fmt :: flvAacSequenceHeader :: b0 :: b1 :: rest)) =
      if b0.toNat / 8 = 31 then
        (getEscapedAacHeader b0 b1).run' (between [fmt, flvAacSequenceHeader, b0, b1] rest)
      else (getPlainAacHeader b0 b1).run' (between [fmt, flvAacSequenceHeader, b0, b1] rest) := by
  have htwo : ¬ (between [] (fmt :: flvAacSequenceHeader :: b0 :: b1 :: rest)).len < 2 := by simp
  have hconfig : ¬ (between ([] ++ [fmt, flvAacSequenceHeader]) (b0 :: b1 :: rest)).len < 2 := by
    simp
  have htag : ¬ (soundFormat (toUInt16 fmt flvAacSequenceHeader) ≠ flvAac ∨
      packetType (toUInt16 fmt flvAacSequenceHeader) ≠ flvAacSequenceHeader) := by
    simp [soundFormat, packetType, hfmt]
  have htype : b0 >>> 3 = 31 ↔ b0.toNat / 8 = 31 := by
    rw [← UInt8.toNat_inj, UInt8.toNat_shiftRight, Nat.shiftRight_eq_div_pow]
    rfl
  have hrun : getAacHeader (ofData (fmt :: flvAacSequenceHeader :: b0 :: b1 :: rest)) =
      (if b0 >>> 3 = 31 then getEscapedAacHeader b0 b1 else getPlainAacHeader b0 b1)
        (between [fmt, flvAacSequenceHeader, b0, b1] rest) := by
    rw [getAacHeader, ofData_eq]
    simp only [read_bind, read_get, htwo, if_false, read2byte_between, htag, hconfig,
      toUInt16_high, toUInt16_low]
    rfl
  rw [StateT.run', hrun]
  by_cases h : b0.toNat / 8 = 31
  · rw [if_pos (htype.mpr h), if_pos h]
    rfl
  · rw [if_neg (fun h' => h (htype.mp h')), if_neg h]
    rfl

/-- What `get_aac_header` makes of any configuration. -/
theorem getAacHeader_eq (hfmt : (fmt &&& 0xf0) >>> 4 = flvAac) (config : List UInt8) :
    getAacHeader.run' (ofData (fmt :: flvAacSequenceHeader :: config)) =
      .ok (if ExplicitInFiveBytes config then none
        else (configFields.run' (Bits.ofBytes config)).map AacHeader.ofFields) := by
  by_cases hlen : config.length < 2
  · have hnone := @ConfigFields.configFields_short (Bits.ofBytes config)
      (by rw [Bits.length_ofBytes]; omega)
    rw [getAacHeader_short hlen, hnone, Option.map_none, ite_self]
  obtain ⟨b0, b1, rest, rfl⟩ := @two_le_length config (by omega)
  rw [getAacHeader_run hfmt]
  by_cases ht : b0.toNat / 8 = 31
  · have hnot : ¬ ExplicitInFiveBytes (b0 :: b1 :: rest) := fun h => h.2.1 ht
    rw [if_pos ht, if_neg hnot]
    by_cases hi : b1.toNat / 2 % 16 = 15
    · by_cases hrest : rest.length < 4
      · rw [AacHeader.escaped_explicit_short hi hrest,
          ConfigFields.escaped_explicit_short ht hi hrest, Option.map_none]
      · match rest, Nat.le_of_not_lt hrest with
        | b2 :: b3 :: b4 :: b5 :: rest, _ =>
            rw [AacHeader.escaped_explicit hi, ConfigFields.escaped_explicit ht hi,
              Option.map_some]
    · match rest with
      | [] =>
          rw [AacHeader.escaped_table_short hi, ConfigFields.escaped_table_short ht hi,
            Option.map_none]
      | b2 :: rest =>
          rw [AacHeader.escaped_table hi, ConfigFields.escaped_table ht hi, Option.map_some]
  · rw [if_neg ht]
    by_cases hi : b0.toNat % 8 * 2 + b1.toNat / 128 = 15
    · by_cases hrest : rest.length < 3
      · rw [AacHeader.plain_explicit_short hi hrest, ConfigFields.plain_short ht hi hrest,
          Option.map_none, ite_self]
      · match rest, Nat.le_of_not_lt hrest with
        | b2 :: b3 :: b4 :: rest, _ =>
            have hfive : ExplicitInFiveBytes (b0 :: b1 :: b2 :: b3 :: b4 :: rest) ↔ rest = [] := by
              simp [ExplicitInFiveBytes, ht, hi]
            rw [AacHeader.plain_explicit hi, ConfigFields.plain_explicit ht hi, Option.map_some]
            simp only [hfive]
    · have hnot : ¬ ExplicitInFiveBytes (b0 :: b1 :: rest) := fun h => hi h.2.2
      rw [if_neg hnot, AacHeader.plain_table hi, ConfigFields.plain_table ht hi, Option.map_some]

/-- In five bytes with an explicit frequency there is a configuration. -/
theorem configFields_of_explicit {config : List UInt8} (h : ExplicitInFiveBytes config) :
    (configFields.run' (Bits.ofBytes config)).isSome = true := by
  obtain ⟨hlen, ht, hi⟩ := h
  match config, hlen with
  | [b0, b1, b2, b3, b4], _ =>
      have hsome := @ConfigFields.plain_explicit b0 b1 b2 b3 b4 [] ht hi
      rw [hsome]
      rfl

/-- The fifteen in such a configuration, as the second field of its bits. -/
theorem index_of_explicit {config : List UInt8} (h : ExplicitInFiveBytes config)
    {objectType index : Nat} {bits rest : List Bool}
    (htype : Bits.field 5 (Bits.ofBytes config) = some (objectType, bits))
    (hindex : Bits.field 4 bits = some (index, rest)) : index = 15 := by
  obtain ⟨hlen, -, hi⟩ := h
  match config, hlen with
  | [b0, b1, b2, b3, b4], _ =>
      have hi' : b0.toNat % 8 * 2 + b1.toNat / 128 = 15 := hi
      have hbits : Bits.ofBytes [b0, b1, b2, b3, b4] =
          Bits.toBits (5 + (4 + 7)) (b0.toNat * 256 + b1.toNat) ++ Bits.ofBytes [b2, b3, b4] :=
        Bits.ofBytes_two b0 b1 [b2, b3, b4]
      rw [hbits, Bits.field_toBits] at htype
      cases htype
      rw [Bits.field_toBits] at hindex
      cases hindex
      omega

end GetAacHeader

/-- `get_aac_header` returns the configuration of a sequence header, and false where the buffer
ends inside its bits. -/
def DecodesConfig (rate : Fin 4) (size type : Fin 2) (config : List UInt8) : Prop :=
  getAacHeader.run' (ofData (aacTag rate size type :: flvAacSequenceHeader :: config)) =
    .ok ((configFields.run' (Bits.ofBytes config)).map AacHeader.ofFields)

/-- An explicit frequency that ends the buffer in its fifth byte is the only one missed. -/
theorem decodesConfig_iff (rate : Fin 4) (size type : Fin 2) (config : List UInt8) :
    DecodesConfig rate size type config ↔ ¬ ExplicitInFiveBytes config := by
  rw [DecodesConfig, getAacHeader_eq (aacTag_soundFormat rate size type)]
  constructor
  · intro h hfive
    rw [if_pos hfive, Except.ok.injEq] at h
    have hsome := configFields_of_explicit hfive
    rw [Option.isSome_iff_exists] at hsome
    obtain ⟨fields, hfields⟩ := hsome
    rw [hfields] at h
    cases h
  · intro hfive
    rw [if_neg hfive]

/-- AAC LC at 44100 Hz in stereo, the frequency written out. -/
theorem not_decodesConfig_fiveBytes :
    ¬ DecodesConfig 3 1 1 [0x17, 0x80, 0x56, 0x22, 0x10] := by
  have hheader : getAacHeader.run' (ofData (aacTag 3 1 1 :: flvAacSequenceHeader ::
      [0x17, 0x80, 0x56, 0x22, 0x10])) = .ok none := rfl
  have hfields : configFields.run' (Bits.ofBytes [0x17, 0x80, 0x56, 0x22, 0x10]) =
      some ⟨2, 44100, 2⟩ := rfl
  rw [DecodesConfig, hheader, hfields]
  rintro ⟨⟩

end ParsingFlv

end Rtmp
