import RtmpModule.Media.AudioSpecificConfig
import RtmpModule.Media.BitReader

/-!
# AAC tags and their AudioSpecificConfig

An AAC sequence header is taken apart twice, by `get_aac_header` with shifts and
masks and by `ParseAACSequenceHeader` with a bit reader; only the first feeds the
stream. Both are compared with the bit string the AudioSpecificConfig is. The tag in
front of it is decoded by `ParseAACSequenceHeader` and `ParseAACRaw` in the same way.
-/

namespace Rtmp

namespace ParsingFlv

open FlvUtil FlvUtil.Cursor

/-- `flv::AACAudioData`. -/
structure AACAudioData where
  soundFormat : UInt8
  soundRate : UInt8
  soundSize : UInt8
  soundType : UInt8
  aacPacketType : UInt8
  deriving DecidableEq, Repr

/-- `flv::AudioSpecificConfig`, whose first field is spelled so in the source. -/
structure AudioSpecificConfig where
  auioObjectType : UInt32
  samplingFrequency : UInt32
  channelCount : UInt32
  samplingFrequencyIndex : UInt8
  channelConfiguration : UInt8
  deriving DecidableEq, Repr

/-- The tag as both parsers decode it; `fmt & 0x0c >> 2` shifts the mask. -/
def aacAudioData (tag : UInt16) : AACAudioData :=
  let fmt := (tag >>> 8).toUInt8
  { soundFormat := (fmt &&& 0xf0) >>> 4
    soundRate := fmt &&& ((0x0c : UInt8) >>> 2)
    soundSize := fmt &&& ((0x02 : UInt8) >>> 1)
    soundType := fmt &&& 0x01
    aacPacketType := tag.toUInt8 }

/-- `kChannelConfigTable`. -/
def channelConfigTable : List UInt32 := [0, 1, 2, 3, 4, 5, 6, 8]

/-- The frequency `ParseAACSequenceHeader` reads behind its index. -/
def parseSamplingFrequency (bufferLen : Nat) (samplingFrequencyIndex : UInt8) :
    Checked BitReader UInt32 :=
  if samplingFrequencyIndex = 0x0f then do
    guard (8 ≤ bufferLen)
    BitReader.readBits 24
  else pure (samplingRate samplingFrequencyIndex)

/-- The part of `ParseAACSequenceHeader` that reads from its bit reader. -/
def parseAudioSpecificConfig (bufferLen : Nat) : Checked BitReader AudioSpecificConfig := do
  let audioObjectType := (← BitReader.readBits 5).toUInt8
  guard (1 ≤ audioObjectType ∧ audioObjectType < 31)
  let samplingFrequencyIndex := (← BitReader.readBits 4).toUInt8
  let samplingFrequency ← parseSamplingFrequency bufferLen samplingFrequencyIndex
  let channelConfigurations := (← BitReader.readBits 4).toUInt8
  guard (1 ≤ channelConfigurations ∧ channelConfigurations < 8)
  return { auioObjectType := audioObjectType.toUInt32
           samplingFrequencyIndex
           samplingFrequency
           channelConfiguration := channelConfigurations
           channelCount := channelConfigTable.getD channelConfigurations.toNat 0 }

/-- The bytes `buffer, buffer + buffer_len` delimit. -/
def copyLeft : Read (List UInt8) := fun c =>
  match readNbyte c.len c with
  | .error fault => .error fault
  | .ok (bs, _) => .ok (bs, c)

/-- `ParseAACSequenceHeader`. -/
def parseAACSequenceHeader : Checked Cursor (AACAudioData × AudioSpecificConfig) := do
  checkLen 2
  let fmtAacType ← read2byte
  let audioData := aacAudioData fmtAacType
  guard (audioData.soundFormat = flvAac)
  guard (audioData.aacPacketType = flvAacSequenceHeader)
  checkLen 4
  let buf ← copyLeft
  match ← (parseAudioSpecificConfig (← get).len).run.run' (.ofData buf) with
  | none => failure
  | some audioSpecConfig => return (audioData, audioSpecConfig)

/-- `ParseAACRaw`. -/
def parseAACRaw : Checked Cursor (AACAudioData × List UInt8) := do
  checkLen 2
  let fmtAacType ← read2byte
  let audioData := aacAudioData fmtAacType
  guard (audioData.soundFormat = flvAac)
  guard (audioData.aacPacketType = flvAacRaw)
  let audioEs ← readNbyte (← get).len
  return (audioData, audioEs)

section Tags

variable {fmt : UInt8} {payload : List UInt8}

theorem aacAudioData_eq (fmt packet : UInt8) :
    aacAudioData (toUInt16 fmt packet) =
      ⟨(fmt &&& 0xf0) >>> 4, fmt &&& 0x03, fmt &&& 0x01, fmt &&& 0x01, packet⟩ := by
  simp only [aacAudioData, toUInt16_high, toUInt16_low]
  rfl

/-- `ParseAACRaw` takes the payload whole. -/
theorem parseAACRaw_eq (hfmt : (fmt &&& 0xf0) >>> 4 = flvAac) (payload : List UInt8) :
    parseAACRaw.run (ofData (fmt :: flvAacRaw :: payload)) =
      .ok (some (aacAudioData (toUInt16 fmt flvAacRaw), payload),
        between (fmt :: flvAacRaw :: payload) []) := by
  have hread := @readNbyte_between [fmt, flvAacRaw] [] payload
  rw [List.append_nil] at hread
  simp only [parseAACRaw, ofData_eq, Checked.run_bind, run_checkLen, Checked.run_lift,
    read2byte_between, aacAudioData_eq, Checked.run_guard, Checked.run_get, hfmt,
    List.length_cons, Nat.le_add_left, if_true, List.nil_append, between_len, hread]
  rfl

theorem copyLeft_between {front left : List UInt8} :
    copyLeft (between front left) = .ok (left, between front left) := by
  have hread := @readNbyte_between front [] left
  rw [List.append_nil] at hread
  rw [copyLeft, between_len, hread]

/-- A buffer that `ParseAACSequenceHeader` accepts is a tag in front of a configuration the bit
reader accepts. -/
theorem parseAACSequenceHeader_some {buffer : List UInt8} {audioData : AACAudioData}
    {audioSpecConfig : AudioSpecificConfig} {c : Cursor}
    (h : parseAACSequenceHeader.run (ofData buffer) =
      .ok (some (audioData, audioSpecConfig), c)) :
    ∃ fmt config reader, buffer = fmt :: flvAacSequenceHeader :: config ∧
      (fmt &&& 0xf0) >>> 4 = flvAac ∧ 4 ≤ config.length ∧
      audioData = aacAudioData (toUInt16 fmt flvAacSequenceHeader) ∧
      (parseAudioSpecificConfig config.length).run (.ofData config) =
        .ok (some audioSpecConfig, reader) := by
  rw [parseAACSequenceHeader, ofData_eq] at h
  obtain ⟨htwo, h⟩ := checkLen_bind_some.mp h
  obtain ⟨fmt, packet, config, rfl⟩ := two_le_length htwo
  replace h := (Checked.lift_bind_some read2byte_between).mp h
  rw [aacAudioData_eq] at h
  obtain ⟨hformat, h⟩ := Checked.guard_bind_some.mp h
  obtain ⟨hpacket, h⟩ := Checked.guard_bind_some.mp h
  obtain ⟨hfour, h⟩ := checkLen_bind_some.mp h
  replace h := Checked.get_bind_some.mp ((Checked.lift_bind_some copyLeft_between).mp h)
  obtain ⟨parsed, _, hparse, h⟩ := Checked.bind_some.mp h
  obtain ⟨hparse', rfl⟩ := Checked.liftExcept_some.mp hparse
  cases parsed with
  | none => exact absurd h Checked.failure_some
  | some config' =>
      cases h
      obtain ⟨reader, hreader⟩ := run'_ok.mp hparse'
      exact ⟨fmt, config, reader, by rw [← hpacket], hformat, hfour,
        by rw [aacAudioData_eq, ← hpacket], hreader⟩

end Tags

section BitReaders

variable {bufferLen : Nat} {reader reader' : BitReader} {config : AudioSpecificConfig}

theorem toUInt8_toUInt32 {n : Nat} (h : n < 256) :
    (UInt32.ofNat n).toUInt8.toUInt32 = UInt32.ofNat n := by
  apply UInt32.toNat_inj.mp
  rw [UInt8.toNat_toUInt32, UInt32.toNat_toUInt8, UInt32.toNat_ofNat']
  omega

/-- The table or the 24 bits behind the index are read as the bit string has them. -/
theorem parseSamplingFrequency_some {i : Nat} {frequency : UInt32} (hi : i < 2 ^ 4)
    (h : (parseSamplingFrequency bufferLen (UInt32.ofNat i).toUInt8).run reader =
      .ok (some frequency, reader')) :
    (i = 15 → 8 ≤ bufferLen) ∧
      ∃ f, (if i = 15 then Bits.field 24 else pure (samplingRates.getD i 0).toNat) reader.bits =
        some (f, reader'.bits) ∧ frequency = UInt32.ofNat f := by
  have hindex : (UInt32.ofNat i).toUInt8.toNat = i := by
    rw [UInt32.toNat_toUInt8, UInt32.toNat_ofNat']
    omega
  rw [parseSamplingFrequency] at h
  by_cases h15 : i = 15
  · rw [if_pos ((AacHeader.index_eq_iff hindex).mpr h15)] at h
    obtain ⟨hlen, h⟩ := Checked.guard_bind_some.mp h
    have hread := Checked.lift_some.mp h
    obtain ⟨f, hf, rfl, -, -⟩ := BitReader.readBits_some hread
    exact ⟨fun _ => hlen, f, by rw [if_pos h15, hf], rfl⟩
  · rw [if_neg (fun h' => h15 ((AacHeader.index_eq_iff hindex).mp h'))] at h
    cases h
    refine ⟨fun h' => absurd h' h15, _, by rw [if_neg h15]; rfl, ?_⟩
    rw [samplingRate, hindex, UInt32.ofNat_toNat]

/-- What the bit reader accepts is the configuration the bits denote, whose object type takes
five bits; an explicit frequency needs eight bytes. -/
theorem parseAudioSpecificConfig_some
    (h : (parseAudioSpecificConfig bufferLen).run reader = .ok (some config, reader')) :
    ∃ fields objectType index rest rest', configFields.run' reader.bits = some fields ∧
      AacHeader.ofFields fields = ⟨config.auioObjectType, config.samplingFrequency,
        config.channelConfiguration.toUInt32⟩ ∧
      Bits.field 5 reader.bits = some (objectType, rest) ∧
      Bits.field 4 rest = some (index, rest') ∧ (index = 15 → 8 ≤ bufferLen) := by
  rw [parseAudioSpecificConfig] at h
  obtain ⟨_, r₁, hread₁, h⟩ := Checked.bind_some.mp h
  replace hread₁ := Checked.lift_some.mp hread₁
  obtain ⟨t, ht, rfl, htlt, -⟩ := BitReader.readBits_some hread₁
  obtain ⟨htype, h⟩ := Checked.guard_bind_some.mp h
  obtain ⟨_, r₂, hread₂, h⟩ := Checked.bind_some.mp h
  replace hread₂ := Checked.lift_some.mp hread₂
  obtain ⟨i, hi, rfl, hilt, -⟩ := BitReader.readBits_some hread₂
  obtain ⟨_, r₃, hfrequency, h⟩ := Checked.bind_some.mp h
  obtain ⟨hlen, f, hf, rfl⟩ := parseSamplingFrequency_some hilt hfrequency
  obtain ⟨_, r₄, hread₄, h⟩ := Checked.bind_some.mp h
  replace hread₄ := Checked.lift_some.mp hread₄
  obtain ⟨n, hn, rfl, hnlt, -⟩ := BitReader.readBits_some hread₄
  obtain ⟨-, h⟩ := Checked.guard_bind_some.mp h
  cases h
  have hne : t ≠ 31 := by
    rintro rfl
    exact absurd htype.2 (by decide)
  have htypeField : objectTypeField reader.bits = some (t, r₁.bits) := by
    simp only [objectTypeField, ConfigFields.decoder_bind, ht, Option.bind_some, hne, if_false,
      ConfigFields.decoder_pure]
  have hfrequencyField : samplingFrequencyField r₁.bits = some (f, r₃.bits) := by
    simp only [samplingFrequencyField, ConfigFields.decoder_bind, hi, Option.bind_some]
    exact hf
  refine ⟨⟨t, f, n⟩, t, i, _, _, ?_, ?_, ht, hi, hlen⟩
  · rw [ConfigFields.configFields_eq, htypeField, Option.bind_some, hfrequencyField,
      Option.bind_some, hn, Option.map_some]
  · simp only [AacHeader.ofFields, toUInt8_toUInt32 (show t < 256 by omega),
      toUInt8_toUInt32 (show n < 256 by omega)]

theorem parseSamplingFrequency_isOk {index : UInt8} (h : 8 ≤ bufferLen → 24 ≤ reader.bitsLeft) :
    ((parseSamplingFrequency bufferLen index).run reader).isOk = true := by
  rw [parseSamplingFrequency]
  split
  · apply Checked.guard_bind_isOk
    intro hlen
    rw [Checked.run_lift, BitReader.readBits_of_le (h hlen)]
    rfl
  · rfl

/-- Behind a frequency four more bits are left. -/
theorem parseSamplingFrequency_left {i : Nat} {frequency : UInt32} (hi : i < 2 ^ 4)
    (h : (parseSamplingFrequency bufferLen (UInt32.ofNat i).toUInt8).run reader =
      .ok (some frequency, reader'))
    (hfour : 4 ≤ reader.bitsLeft) (hlong : 8 ≤ bufferLen → 28 ≤ reader.bitsLeft) :
    4 ≤ reader'.bitsLeft := by
  obtain ⟨hlen, f, hf, -⟩ := parseSamplingFrequency_some hi h
  split at hf
  · next h15 =>
    have hlength := (Bits.field_some hf).1
    have := hlong (hlen h15)
    rw [BitReader.length_bits, BitReader.length_bits] at hlength
    omega
  · rw [ConfigFields.decoder_pure, Option.some.injEq, Prod.mk.injEq] at hf
    rw [← BitReader.length_bits, ← hf.2, BitReader.length_bits]
    exact hfour

/-- Data of four bytes, and of eight for an explicit frequency, has all the bits that are read. -/
theorem parseAudioSpecificConfig_isOk {data : List UInt8} (hlen : 4 ≤ data.length) :
    ((parseAudioSpecificConfig data.length).run (.ofData data)).isOk = true := by
  have hstart : (BitReader.ofData data).bitsLeft = 8 * data.length := rfl
  have h5 : 5 ≤ (BitReader.ofData data).bitsLeft := by omega
  have h4 : 4 ≤ ((BitReader.ofData data).advance 5 h5).bitsLeft := by
    rw [BitReader.bitsLeft_advance]
    omega
  have hleft : (((BitReader.ofData data).advance 5 h5).advance 4 h4).bitsLeft =
      8 * data.length - 9 := by
    rw [BitReader.bitsLeft_advance, BitReader.bitsLeft_advance, hstart]
    omega
  rw [parseAudioSpecificConfig]
  apply Checked.lift_bind_isOk (BitReader.readBits_of_le h5)
  apply Checked.guard_bind_isOk
  intro htype
  apply Checked.lift_bind_isOk (BitReader.readBits_of_le h4)
  apply Checked.bind_isOk
  · apply parseSamplingFrequency_isOk
    omega
  · intro frequency reader' hfrequency
    have hindex := Bits.ofBits_lt ((((BitReader.ofData data).advance 5 h5).bits).take 4)
    rw [BitReader.length_take_bits h4] at hindex
    have hfour : 4 ≤ reader'.bitsLeft :=
      parseSamplingFrequency_left hindex hfrequency (by omega) (by omega)
    apply Checked.lift_bind_isOk (BitReader.readBits_of_le hfour)
    apply Checked.guard_bind_isOk
    intro hchannel
    rfl

/-- No buffer makes `ParseAACSequenceHeader` read beyond its end. -/
theorem parseAACSequenceHeader_isOk (buffer : List UInt8) :
    (parseAACSequenceHeader.run (ofData buffer)).isOk = true := by
  rw [parseAACSequenceHeader, ofData_eq]
  apply checkLen_bind_isOk
  intro htwo
  obtain ⟨fmt, packet, config, rfl⟩ := two_le_length htwo
  apply Checked.lift_bind_isOk read2byte_between
  apply Checked.guard_bind_isOk
  intro hformat
  apply Checked.guard_bind_isOk
  intro hpacket
  apply checkLen_bind_isOk
  intro hfour
  apply Checked.lift_bind_isOk copyLeft_between
  apply Checked.bind_isOk rfl
  rintro _ _ ⟨⟩
  apply Checked.bind_isOk
  · apply Checked.liftExcept_isOk
    exact run'_isOk (parseAudioSpecificConfig_isOk hfour)
  · intro parsed c hparse
    cases parsed <;> rfl

/-- Where `ParseAACSequenceHeader` returns true, `get_aac_header` does with the same values, and
no `ReadBits` asks for more than `BitsLeft`: such a call would be a fault. -/
theorem parsers_agree (buffer : List UInt8) :
    (∀ audioData config c,
      parseAACSequenceHeader.run (ofData buffer) = .ok (some (audioData, config), c) →
        getAacHeader.run' (ofData buffer) =
          .ok (some ⟨config.auioObjectType, config.samplingFrequency,
            config.channelConfiguration.toUInt32⟩)) ∧
      (parseAACSequenceHeader.run (ofData buffer)).isOk = true ∧
      ∀ (reader : BitReader) (n : Nat),
        (BitReader.readBits n reader).isOk = true ↔ n ≤ reader.bitsLeft := by
  refine ⟨?_, parseAACSequenceHeader_isOk buffer, BitReader.readBits_ok_iff⟩
  intro audioData config c h
  obtain ⟨fmt, data, reader, rfl, hfmt, -, -, hparse⟩ := parseAACSequenceHeader_some h
  obtain ⟨fields, objectType, index, bits, rest, hfields, hconfig, htype, hindex, hlen⟩ :=
    parseAudioSpecificConfig_some hparse
  rw [BitReader.bits_ofData] at hfields htype
  have hnot : ¬ ExplicitInFiveBytes data := by
    intro hfive
    have height := hlen (index_of_explicit hfive htype hindex)
    have hlength := hfive.1
    omega
  rw [getAacHeader_eq hfmt, if_neg hnot, hfields, Option.map_some, hconfig]

end BitReaders

/-- `ParseAACRaw` and, in front of a configuration it accepts, `ParseAACSequenceHeader` report
the rate, size and type of a tag. -/
structure TagDecoded (rate : Fin 4) (size type : Fin 2) (payload config : List UInt8) : Prop where
  raw : parseAACRaw.run (ofData (aacTag rate size type :: flvAacRaw :: payload)) =
    .ok (some (⟨flvAac, UInt8.ofNat rate, UInt8.ofNat size, UInt8.ofNat type, flvAacRaw⟩, payload),
      between (aacTag rate size type :: flvAacRaw :: payload) [])
  header : ∀ audioData audioSpecConfig c,
    parseAACSequenceHeader.run
        (ofData (aacTag rate size type :: flvAacSequenceHeader :: config)) =
      .ok (some (audioData, audioSpecConfig), c) →
    audioData = ⟨flvAac, UInt8.ofNat rate, UInt8.ofNat size, UInt8.ofNat type,
      flvAacSequenceHeader⟩

/-- The shifted masks take the rate from the bits of size and type, and the size from that of
the type. -/
theorem aacTag_audioData :
    ∀ (rate : Fin 4) (size type : Fin 2),
      (aacTag rate size type &&& 0x03 = UInt8.ofNat rate ∧
        aacTag rate size type &&& 0x01 = UInt8.ofNat size ∧
        aacTag rate size type &&& 0x01 = UInt8.ofNat type) ↔
      size = type ∧ rate.val = 2 * size + type := by
  decide

theorem tagDecoded_iff (rate : Fin 4) (size type : Fin 2) (payload config : List UInt8) :
    TagDecoded rate size type payload config ↔ size = type ∧ rate.val = 2 * size + type := by
  have hformat := aacTag_soundFormat rate size type
  rw [← aacTag_audioData]
  constructor
  · rintro ⟨hraw, -⟩
    rw [parseAACRaw_eq hformat, aacAudioData_eq] at hraw
    simp only [Except.ok.injEq, Prod.mk.injEq, Option.some.injEq, AACAudioData.mk.injEq] at hraw
    obtain ⟨⟨⟨-, hrate, hsize, htype, -⟩, -⟩, -⟩ := hraw
    exact ⟨hrate, hsize, htype⟩
  · rintro ⟨hrate, hsize, htype⟩
    constructor
    · rw [parseAACRaw_eq hformat, aacAudioData_eq, hformat, hrate, hsize, ← hsize, htype]
    · intro audioData audioSpecConfig c h
      obtain ⟨fmt, data, reader, hbuffer, -, -, haudio, -⟩ := parseAACSequenceHeader_some h
      cases hbuffer
      rw [haudio, aacAudioData_eq, hformat, hrate, htype, ← hsize.symm.trans htype]

/-- A mono tag is reported with a size of 8 bits and a rate of 11 kHz. -/
theorem not_tagDecoded_mono : ¬ TagDecoded 3 1 0 [0x21] [0x12, 0x08, 0x00, 0x00] := by
  rintro ⟨hraw, -⟩
  rw [parseAACRaw_eq (by decide)] at hraw
  simp only [Except.ok.injEq, Prod.mk.injEq, Option.some.injEq] at hraw
  exact absurd hraw.1.1 (by decide)

end ParsingFlv

end Rtmp
