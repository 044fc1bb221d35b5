import RtmpModule.Media.CheckedRead
import RtmpModule.Media.NalStartCodes
import RtmpModule.Media.ParsingFlv

/-!
# AVC sequence headers

An AVC sequence header carries an AVCDecoderConfigurationRecord: a few fixed fields
and two lists of parameter sets, each set behind its length. `ParseAVCSequenceHeader`
goes through both lists; it decodes every record, and what it takes for true is one,
except that the list of PPS may be empty. The live path uses another parser, which
reads one SPS and takes what stands behind it for the number of PPS.
-/

namespace Rtmp

namespace ParsingFlv

open FlvUtil FlvUtil.Cursor

/-- `flv::AVCVideoData`. -/
structure AVCVideoData where
  frameType : UInt8
  codecId : UInt8
  avcPacketType : UInt8
  compositionTimeOffset : UInt32
  deriving DecidableEq, Repr

/-- `flv::AVCDecoderConfigurationRecord`; only its lists are initialized. -/
structure AVCDecoderConfigurationRecord where
  version : UInt8
  profileIndication : UInt8
  profileCompatibility : UInt8
  avcLevel : UInt8
  nalStartCodeLength : UInt8
  numOfSps : UInt8
  numOfPps : UInt8
  spsList : List UInt8 := []
  ppsList : List UInt8 := []
  deriving DecidableEq, Repr

/-- `kDelimeter`. -/
def delimiter : List UInt8 := [0x00, 0x00, 0x00, 0x01]

/-- The two loops of `ParseAVCSequenceHeader`, with the sets still to be read. -/
def parseParameterSets : Nat → List UInt8 → Checked Cursor (List UInt8)
  | 0, list => return list
  | n + 1, list => do
      checkLen 2
      let length ← read2byte
      guard (length.toNat ≤ 0xffff)
      checkLen length.toNat
      let set ← readNbyte length.toNat
      parseParameterSets n (list ++ delimiter ++ set)

/-- `ParseAVCSequenceHeader`. Behind the number of PPS it tests that of the SPS again. -/
def parseAVCSequenceHeader (avcDecoderConfig : AVCDecoderConfigurationRecord) :
    Checked Cursor (AVCVideoData × AVCDecoderConfigurationRecord) := do
  checkLen 1
  let fmt ← read1byte
  let frameType := (fmt &&& 0xf0) >>> 4
  let codecId := fmt &&& 0x0f
  guard (codecId = flvAvc)
  checkLen 1
  let avcPacketType ← read1byte
  guard (avcPacketType = flvAvcSequenceHeader)
  checkLen 3
  let compositionTimeOffset ← read3byte
  guard (compositionTimeOffset = 0)
  checkLen 4
  let version ← read1byte
  let profileIndication ← read1byte
  let profileCompatibility ← read1byte
  let avcLevel ← read1byte
  checkLen 1
  let nalStartCodeLength ← read1byte
  guard (nalStartCodeLength &&& 0x03 ≠ 2)
  checkLen 1
  let numberOfSps ← read1byte
  let numOfSps := numberOfSps &&& 0x1f
  guard (1 ≤ numOfSps)
  let spsList ← parseParameterSets numOfSps.toNat avcDecoderConfig.spsList
  checkLen 1
  let numOfPps ← read1byte
  guard (1 ≤ numOfSps)
  let ppsList ← parseParameterSets numOfPps.toNat avcDecoderConfig.ppsList
  return ({ frameType, codecId, avcPacketType, compositionTimeOffset },
    { version, profileIndication, profileCompatibility, avcLevel,
      nalStartCodeLength := (nalStartCodeLength &&& 0x03) + 1, numOfSps, numOfPps, spsList,
      ppsList })

/-- An AVC sequence header with its reserved bits. -/
structure AvcRecord where
  frameType : Fin 16
  version : UInt8
  profileIndication : UInt8
  profileCompatibility : UInt8
  avcLevel : UInt8
  lengthReserved : Fin 64
  lengthSizeMinusOne : Fin 4
  countReserved : Fin 8
  sps : List (List UInt8)
  pps : List (List UInt8)
  lengthSize : lengthSizeMinusOne ≠ 2
  sps_count : 1 ≤ sps.length ∧ sps.length ≤ 31
  pps_count : pps.length ≤ 255
  sps_length : ∀ set ∈ sps, set.length ≤ 0xffff
  pps_length : ∀ set ∈ pps, set.length ≤ 0xffff

namespace AvcRecord

variable (record : AvcRecord)

/-- The byte with the frame type and the codec. -/
def fmt : UInt8 := UInt8.ofNat (record.frameType * 16 + 7)

def lengthByte : UInt8 := UInt8.ofNat (record.lengthReserved * 4 + record.lengthSizeMinusOne)

def countByte : UInt8 := UInt8.ofNat (record.countReserved * 32 + record.sps.length)

/-- The bytes in front of the parameter sets. -/
def fixedPart : List UInt8 :=
  [record.fmt, flvAvcSequenceHeader, 0, 0, 0, record.version, record.profileIndication,
    record.profileCompatibility, record.avcLevel, record.lengthByte, record.countByte]

/-- The bytes of the record, from the number of PPS on. -/
def ppsPart : List UInt8 := UInt8.ofNat record.pps.length :: mp4Nals 2 record.pps

/-- The sequence header: parameter sets stand behind two bytes of length. -/
def encode : List UInt8 := record.fixedPart ++ (mp4Nals 2 record.sps ++ record.ppsPart)

/-- What the tag of the record says. -/
def videoData : AVCVideoData where
  frameType := UInt8.ofNat record.frameType
  codecId := flvAvc
  avcPacketType := flvAvcSequenceHeader
  compositionTimeOffset := 0

/-- What the record says, its parameter sets behind start codes. -/
def decoded : AVCDecoderConfigurationRecord where
  version := record.version
  profileIndication := record.profileIndication
  profileCompatibility := record.profileCompatibility
  avcLevel := record.avcLevel
  nalStartCodeLength := UInt8.ofNat (record.lengthSizeMinusOne + 1)
  numOfSps := UInt8.ofNat record.sps.length
  numOfPps := UInt8.ofNat record.pps.length
  spsList := tsNals 4 record.sps
  ppsList := tsNals 4 record.pps

end AvcRecord

section ParameterSets

variable {front left rest : List UInt8}

theorem toBE_two (n : Nat) : Bytes.toBE 2 n = [UInt8.ofNat (n / 256), UInt8.ofNat n] := rfl

theorem toUInt16_toBE {n : Nat} (h : n ≤ 0xffff) :
    (toUInt16 (UInt8.ofNat (n / 256)) (UInt8.ofNat n)).toNat = n := by
  rw [toUInt16_toNat, UInt8.toNat_ofNat', UInt8.toNat_ofNat']
  omega

theorem ofNat_toUInt16 (b0 b1 : UInt8) :
    UInt8.ofNat ((toUInt16 b0 b1).toNat / 256) = b0 ∧
      UInt8.ofNat (toUInt16 b0 b1).toNat = b1 := by
  have h0 := UInt8.toNat_lt b0
  have h1 := UInt8.toNat_lt b1
  rw [toUInt16_toNat]
  constructor <;> apply UInt8.toNat_inj.mp <;> rw [UInt8.toNat_ofNat'] <;> omega

theorem mp4Nals_cons (set : List UInt8) (sets : List (List UInt8)) :
    mp4Nals 2 (set :: sets) =
      UInt8.ofNat (set.length / 256) :: UInt8.ofNat set.length :: (set ++ mp4Nals 2 sets) := by
  rw [mp4Nals, List.flatMap_cons, toBE_two, mp4Nals]
  simp

theorem tsNals_cons (set : List UInt8) (sets : List (List UInt8)) :
    tsNals 4 (set :: sets) = delimiter ++ set ++ tsNals 4 sets := by
  rw [tsNals, List.flatMap_cons, tsNals]
  rfl

/-- The loop goes over as many sets as there are, whatever follows them. -/
theorem parseParameterSets_mp4Nals {sets : List (List UInt8)}
    (h : ∀ set ∈ sets, set.length ≤ 0xffff) (list : List UInt8) :
    (parseParameterSets sets.length list).run (between front (mp4Nals 2 sets ++ rest)) =
      .ok (some (list ++ tsNals 4 sets), between (front ++ mp4Nals 2 sets) rest) := by
  induction sets generalizing front list with
  | nil => simp [parseParameterSets, mp4Nals, tsNals]
  | cons set sets ih =>
      have hset : set.length ≤ 0xffff := h set (by simp)
      have hrest : ∀ set ∈ sets, set.length ≤ 0xffff := fun s hs => h s (by simp [hs])
      have hvalue := toUInt16_toBE hset
      rw [mp4Nals_cons, tsNals_cons, List.length_cons, parseParameterSets]
      simp only [List.cons_append, List.append_assoc]
      apply checkLen_bind_some.mpr
      refine ⟨by simp, ?_⟩
      apply (Checked.lift_bind_some read2byte_between).mpr
      rw [hvalue]
      apply Checked.guard_bind_some.mpr
      refine ⟨hset, ?_⟩
      apply checkLen_bind_some.mpr
      refine ⟨by simp, ?_⟩
      apply (Checked.lift_bind_some readNbyte_between).mpr
      rw [ih hrest]
      simp

/-- Whatever the loop gets through is as many sets behind their lengths. -/
theorem parseParameterSets_some {n : Nat} {list list' : List UInt8} {c : Cursor}
    (h : (parseParameterSets n list).run (between front left) = .ok (some list', c)) :
    ∃ (sets : List (List UInt8)) (rest : List UInt8), sets.length = n ∧
      (∀ set ∈ sets, set.length ≤ 0xffff) ∧ left = mp4Nals 2 sets ++ rest ∧
      list' = list ++ tsNals 4 sets ∧ c = between (front ++ mp4Nals 2 sets) rest := by
  induction n generalizing front left list with
  | zero =>
      cases h
      exact ⟨[], left, rfl, by simp, by simp [mp4Nals], by simp [tsNals], by simp [mp4Nals]⟩
  | succ n ih =>
      rw [parseParameterSets] at h
      obtain ⟨htwo, h⟩ := checkLen_bind_some.mp h
      obtain ⟨b0, b1, rest, rfl⟩ := two_le_length htwo
      replace h := (Checked.lift_bind_some read2byte_between).mp h
      obtain ⟨hle, h⟩ := Checked.guard_bind_some.mp h
      obtain ⟨hlen, h⟩ := checkLen_bind_some.mp h
      generalize hn : (toUInt16 b0 b1).toNat = length at *
      obtain ⟨set, rest, rfl, rfl⟩ : ∃ set rest', set.length = length ∧ rest = set ++ rest' :=
        ⟨rest.take length, rest.drop length, List.length_take_of_le hlen, by simp⟩
      replace h := (Checked.lift_bind_some readNbyte_between).mp h
      obtain ⟨sets, rest', hsets, hall, rfl, rfl, rfl⟩ := ih h
      obtain ⟨hb0, hb1⟩ := ofNat_toUInt16 b0 b1
      rw [hn] at hb0 hb1
      have hcons : mp4Nals 2 (set :: sets) = b0 :: b1 :: (set ++ mp4Nals 2 sets) := by
        rw [mp4Nals_cons, hb0, hb1]
      refine ⟨set :: sets, rest', by rw [List.length_cons, hsets], ?_, ?_, ?_, ?_⟩
      · intro s hs
        rcases List.mem_cons.mp hs with rfl | hs
        · exact hle
        · exact hall s hs
      · rw [hcons]
        simp
      · rw [tsNals_cons]
        simp
      · rw [hcons]
        simp

end ParameterSets

namespace AvcRecord

variable (record : AvcRecord)

theorem fmt_fields :
    ∀ frameType : Fin 16,
      (UInt8.ofNat (frameType * 16 + 7) &&& 0xf0) >>> 4 = UInt8.ofNat frameType ∧
      UInt8.ofNat (frameType * 16 + 7) &&& 0x0f = flvAvc := by
  decide

theorem lengthByte_fields :
    ∀ (reserved : Fin 64) (size : Fin 4),
      (UInt8.ofNat (reserved * 4 + size) &&& 0x03) + 1 = UInt8.ofNat (size + 1) ∧
        (UInt8.ofNat (reserved * 4 + size) &&& 0x03 = 2 ↔ size = 2) := by
  decide

theorem countByte_field :
    ∀ (reserved : Fin 8) (count : Fin 32),
      UInt8.ofNat (reserved * 32 + count) &&& 0x1f = UInt8.ofNat count := by
  decide

theorem fmt_and : (record.fmt &&& 0xf0) >>> 4 = UInt8.ofNat record.frameType ∧
    record.fmt &&& 0x0f = flvAvc :=
  fmt_fields record.frameType

theorem lengthByte_and :
    (record.lengthByte &&& 0x03) + 1 = UInt8.ofNat (record.lengthSizeMinusOne + 1) ∧
      record.lengthByte &&& 0x03 ≠ 2 := by
  obtain ⟨hlength, htwo⟩ := lengthByte_fields record.lengthReserved record.lengthSizeMinusOne
  exact ⟨hlength, fun h => record.lengthSize (htwo.mp h)⟩

theorem countByte_and : record.countByte &&& 0x1f = UInt8.ofNat record.sps.length :=
  countByte_field record.countReserved ⟨record.sps.length, Nat.lt_succ_of_le record.sps_count.2⟩

theorem sps_toNat : (UInt8.ofNat record.sps.length).toNat = record.sps.length := by
  have hle := record.sps_count.2
  rw [UInt8.toNat_ofNat']
  omega

theorem pps_toNat : (UInt8.ofNat record.pps.length).toNat = record.pps.length := by
  have hle := record.pps_count
  rw [UInt8.toNat_ofNat']
  omega

theorem one_le_sps : 1 ≤ UInt8.ofNat record.sps.length := by
  rw [UInt8.le_iff_toNat_le, sps_toNat]
  exact record.sps_count.1

end AvcRecord

/-- `ParseAVCSequenceHeader` decodes every record, and stops behind it. -/
theorem parseAVCSequenceHeader_run (record : AvcRecord) (config : AVCDecoderConfigurationRecord)
    (rest : List UInt8) :
    (parseAVCSequenceHeader { config with spsList := [], ppsList := [] }).run
        (ofData (record.encode ++ rest)) =
      .ok (some (record.videoData, record.decoded), between record.encode rest) := by
  obtain ⟨hframe, hcodec⟩ := record.fmt_and
  obtain ⟨hlength, htwo⟩ := record.lengthByte_and
  have hcount := record.countByte_and
  have hone := record.one_le_sps
  have hthree : toUInt24 0 0 0 = 0 := rfl
  rw [parseAVCSequenceHeader, ofData_eq, AvcRecord.encode, AvcRecord.fixedPart]
  simp only [List.cons_append, List.nil_append, List.append_assoc]
  refine read1byte_bind_some.mpr ⟨_, _, rfl, Checked.guard_bind_some.mpr ⟨hcodec, ?_⟩⟩
  refine read1byte_bind_some.mpr ⟨_, _, rfl, Checked.guard_bind_some.mpr ⟨rfl, ?_⟩⟩
  refine read3byte_bind_some.mpr ⟨_, _, _, _, rfl, Checked.guard_bind_some.mpr ⟨hthree, ?_⟩⟩
  refine checkLen_bind_some.mpr ⟨by simp, ?_⟩
  apply (Checked.lift_bind_some read1byte_between).mpr
  apply (Checked.lift_bind_some read1byte_between).mpr
  apply (Checked.lift_bind_some read1byte_between).mpr
  apply (Checked.lift_bind_some read1byte_between).mpr
  refine read1byte_bind_some.mpr ⟨_, _, rfl, Checked.guard_bind_some.mpr ⟨htwo, ?_⟩⟩
  refine read1byte_bind_some.mpr ⟨_, _, rfl, ?_⟩
  rw [hcount]
  refine Checked.guard_bind_some.mpr ⟨hone, ?_⟩
  rw [record.sps_toNat]
  refine Checked.bind_some.mpr ⟨_, _, parseParameterSets_mp4Nals record.sps_length [], ?_⟩
  refine read1byte_bind_some.mpr ⟨_, _, rfl, Checked.guard_bind_some.mpr ⟨hone, ?_⟩⟩
  rw [record.pps_toNat]
  refine Checked.bind_some.mpr ⟨_, _, parseParameterSets_mp4Nals record.pps_length [], ?_⟩
  rw [hframe, hcodec, hlength, hthree]
  simp only [Checked.run_pure, List.nil_append, List.append_assoc, List.cons_append]
  rfl

/-- A byte with the codec is a frame type in front of it. -/
theorem avcTag_split {fmt : UInt8} (h : fmt &&& 0x0f = flvAvc) :
    ∃ frameType : Fin 16, fmt = UInt8.ofNat (frameType * 16 + 7) := by
  have hmod : fmt.toNat % 16 = 7 := by
    have hand : (fmt &&& 0x0f).toNat = fmt.toNat % 16 :=
      Nat.and_two_pow_sub_one_eq_mod fmt.toNat 4
    rw [h] at hand
    exact hand.symm
  have hlt := UInt8.toNat_lt fmt
  refine ⟨⟨fmt.toNat / 16, by omega⟩, UInt8.toNat_inj.mp ?_⟩
  rw [UInt8.toNat_ofNat']
  change fmt.toNat = (fmt.toNat / 16 * 16 + 7) % 256
  omega

theorem lengthByte_split (b : UInt8) :
    ∃ (reserved : Fin 64) (size : Fin 4), b = UInt8.ofNat (reserved * 4 + size) := by
  have hlt := UInt8.toNat_lt b
  refine ⟨⟨b.toNat / 4, by omega⟩, ⟨b.toNat % 4, by omega⟩, UInt8.toNat_inj.mp ?_⟩
  rw [UInt8.toNat_ofNat']
  change b.toNat = (b.toNat / 4 * 4 + b.toNat % 4) % 256
  omega

theorem countByte_split (b : UInt8) :
    ∃ (reserved : Fin 8) (count : Fin 32), b = UInt8.ofNat (reserved * 32 + count) := by
  have hlt := UInt8.toNat_lt b
  refine ⟨⟨b.toNat / 32, by omega⟩, ⟨b.toNat % 32, by omega⟩, UInt8.toNat_inj.mp ?_⟩
  rw [UInt8.toNat_ofNat']
  change b.toNat = (b.toNat / 32 * 32 + b.toNat % 32) % 256
  omega

theorem toUInt24_zero {b0 b1 b2 : UInt8} (h : toUInt24 b0 b1 b2 = 0) :
    b0 = 0 ∧ b1 = 0 ∧ b2 = 0 := by
  have hvalue := toUInt24_toNat b0 b1 b2
  rw [h] at hvalue
  have hsum : 0 = b0.toNat * 65536 + b1.toNat * 256 + b2.toNat := hvalue
  refine ⟨?_, ?_, ?_⟩ <;> apply UInt8.toNat_inj.mp
  · change b0.toNat = 0
    omega
  · change b1.toNat = 0
    omega
  · change b2.toNat = 0
    omega

/-- What `ParseAVCSequenceHeader` takes for true begins with a record. -/
theorem parseAVCSequenceHeader_encoded {config : AVCDecoderConfigurationRecord}
    {result : AVCVideoData × AVCDecoderConfigurationRecord} {buffer : List UInt8} {c : Cursor}
    (h : (parseAVCSequenceHeader config).run (ofData buffer) = .ok (some result, c)) :
    ∃ (record : AvcRecord) (rest : List UInt8), buffer = record.encode ++ rest := by
  rw [parseAVCSequenceHeader, ofData_eq] at h
  obtain ⟨fmt, left₁, rfl, hfmt⟩ := read1byte_bind_some.mp h
  obtain ⟨hcodec, hfmt⟩ := Checked.guard_bind_some.mp hfmt
  obtain ⟨packet, left₂, rfl, hpacket⟩ := read1byte_bind_some.mp hfmt
  obtain ⟨rfl, hpacket⟩ := Checked.guard_bind_some.mp hpacket
  obtain ⟨c0, c1, c2, left₃, rfl, hcts⟩ := read3byte_bind_some.mp hpacket
  obtain ⟨hzero, hcts⟩ := Checked.guard_bind_some.mp hcts
  obtain ⟨rfl, rfl, rfl⟩ := toUInt24_zero hzero
  obtain ⟨hlen, hfour⟩ := checkLen_bind_some.mp hcts
  obtain ⟨version, profile, compatibility, level, left₄, rfl⟩ := four_le_length hlen
  have hversion := (Checked.lift_bind_some read1byte_between).mp hfour
  have hprofile := (Checked.lift_bind_some read1byte_between).mp hversion
  have hcompatibility := (Checked.lift_bind_some read1byte_between).mp hprofile
  have hlevel := (Checked.lift_bind_some read1byte_between).mp hcompatibility
  obtain ⟨lengthByte, left₅, rfl, hlength⟩ := read1byte_bind_some.mp hlevel
  obtain ⟨htwo, hlength⟩ := Checked.guard_bind_some.mp hlength
  obtain ⟨countByte, left₆, rfl, hcount⟩ := read1byte_bind_some.mp hlength
  obtain ⟨hone, hcount⟩ := Checked.guard_bind_some.mp hcount
  obtain ⟨spsList, c₁, hsps, hcount⟩ := Checked.bind_some.mp hcount
  obtain ⟨sps, left₇, hspsCount, hspsLength, rfl, rfl, rfl⟩ := parseParameterSets_some hsps
  obtain ⟨numOfPps, left₈, rfl, hnumOfPps⟩ := read1byte_bind_some.mp hcount
  obtain ⟨-, hnumOfPps⟩ := Checked.guard_bind_some.mp hnumOfPps
  obtain ⟨ppsList, c₂, hpps, hlast⟩ := Checked.bind_some.mp hnumOfPps
  obtain ⟨pps, rest, hppsCount, hppsLength, rfl, rfl, rfl⟩ := parseParameterSets_some hpps
  obtain ⟨frameType, rfl⟩ := avcTag_split hcodec
  obtain ⟨reserved, size, rfl⟩ := lengthByte_split lengthByte
  obtain ⟨reserved', count, rfl⟩ := countByte_split countByte
  rw [AvcRecord.countByte_field] at hone hspsCount
  have hcountValue : (UInt8.ofNat count).toNat = count := by
    rw [UInt8.toNat_ofNat']
    omega
  rw [hcountValue] at hspsCount
  rw [UInt8.le_iff_toNat_le, hcountValue] at hone
  have hsize : size ≠ 2 := by
    intro hsize
    exact htwo ((AvcRecord.lengthByte_fields reserved size).2.mpr hsize)
  have hppsByte : UInt8.ofNat pps.length = numOfPps := by rw [hppsCount, UInt8.ofNat_toNat]
  have hppsLt := UInt8.toNat_lt numOfPps
  refine ⟨⟨frameType, version, profile, compatibility, level, reserved, size, reserved', sps, pps,
    hsize, ⟨?_, by omega⟩, by omega, hspsLength, hppsLength⟩, rest, ?_⟩
  · rw [hspsCount]
    exact hone
  · simp only [AvcRecord.encode, AvcRecord.fixedPart, AvcRecord.ppsPart, AvcRecord.fmt,
      AvcRecord.lengthByte, AvcRecord.countByte, hspsCount, hppsByte, List.cons_append,
      List.nil_append, List.append_assoc]

/-- What it takes for true is a record, decoded as it is. -/
theorem parseAVCSequenceHeader_some {config decoded : AVCDecoderConfigurationRecord}
    {video : AVCVideoData} {buffer : List UInt8} {c : Cursor}
    (h : (parseAVCSequenceHeader { config with spsList := [], ppsList := [] }).run
        (ofData buffer) = .ok (some (video, decoded), c)) :
    ∃ (record : AvcRecord) (rest : List UInt8), buffer = record.encode ++ rest ∧
      video = record.videoData ∧ decoded = record.decoded ∧ c = between record.encode rest := by
  obtain ⟨record, rest, rfl⟩ := parseAVCSequenceHeader_encoded h
  rw [parseAVCSequenceHeader_run] at h
  cases h
  exact ⟨record, rest, rfl, rfl, rfl, rfl⟩

/-- Every sequence header is decoded, and the cursor stands behind it. -/
theorem avcRecord_decoded (record : AvcRecord) (config : AVCDecoderConfigurationRecord)
    (rest : List UInt8) :
    ∃ c, (parseAVCSequenceHeader { config with spsList := [], ppsList := [] }).run
        (ofData (record.encode ++ rest)) = .ok (some (record.videoData, record.decoded), c) ∧
      c.pos = record.encode.length ∧ c.len = rest.length :=
  ⟨_, parseAVCSequenceHeader_run record config rest, rfl, rfl⟩

/-- What is accepted is a sequence header with an SPS and a PPS at least, and its encoding the
bytes that were consumed. -/
def AcceptsUsable (buffer : List UInt8) : Prop :=
  ∀ (config : AVCDecoderConfigurationRecord) (video : AVCVideoData)
    (decoded : AVCDecoderConfigurationRecord) (c : Cursor),
    (parseAVCSequenceHeader { config with spsList := [], ppsList := [] }).run (ofData buffer) =
      .ok (some (video, decoded), c) →
    ∃ (record : AvcRecord) (rest : List UInt8), record.pps ≠ [] ∧
      buffer = record.encode ++ rest ∧ c = between record.encode rest ∧
      video = record.videoData ∧ decoded = record.decoded

/-- The number of PPS is not among what two records with the same decoding may differ in. -/
theorem AvcRecord.pps_of_decoded {record record' : AvcRecord}
    (h : record.decoded = record'.decoded) : record.pps.length = record'.pps.length := by
  have hcount : UInt8.ofNat record.pps.length = UInt8.ofNat record'.pps.length :=
    congrArg AVCDecoderConfigurationRecord.numOfPps h
  rw [← record.pps_toNat, hcount, record'.pps_toNat]

/-- A header without a PPS is what the test behind the number of PPS lets through. -/
theorem acceptsUsable_iff (buffer : List UInt8) :
    AcceptsUsable buffer ↔
      ¬ ∃ (record : AvcRecord) (rest : List UInt8),
        record.pps = [] ∧ buffer = record.encode ++ rest := by
  constructor
  · rintro h ⟨record, rest, hpps, rfl⟩
    obtain ⟨record', -, hne, -, -, -, hdecoded⟩ :=
      h record.decoded _ _ _ (parseAVCSequenceHeader_run record record.decoded rest)
    have hlength := AvcRecord.pps_of_decoded hdecoded
    rw [hpps] at hlength
    exact hne (List.length_eq_zero_iff.mp hlength.symm)
  · intro h config video decoded c hparse
    obtain ⟨record, rest, hbuffer, hvideo, hdecoded, hc⟩ := parseAVCSequenceHeader_some hparse
    exact ⟨record, rest, fun hpps => h ⟨record, rest, hpps, hbuffer⟩, hbuffer, hc, hvideo,
      hdecoded⟩

/-- A baseline record with the sets given, its reserved bits set. -/
def recordOf (sps pps : List (List UInt8)) (hsps : 1 ≤ sps.length ∧ sps.length ≤ 31)
    (hpps : pps.length ≤ 255) (hspsLength : ∀ set ∈ sps, set.length ≤ 0xffff)
    (hppsLength : ∀ set ∈ pps, set.length ≤ 0xffff) : AvcRecord where
  frameType := 1
  version := 0x01
  profileIndication := 0x42
  profileCompatibility := 0x00
  avcLevel := 0x1e
  lengthReserved := 63
  lengthSizeMinusOne := 3
  countReserved := 7
  sps := sps
  pps := pps
  lengthSize := fun h => absurd h (by decide)
  sps_count := hsps
  pps_count := hpps
  sps_length := hspsLength
  pps_length := hppsLength

/-- A record with one SPS of one byte and no PPS. -/
def spsOnly : AvcRecord :=
  recordOf [[0x67]] [] (by decide) (by decide) (by decide) (by decide)

theorem not_acceptsUsable_spsOnly :
    ¬ AcceptsUsable [0x17, 0x00, 0x00, 0x00, 0x00, 0x01, 0x42, 0x00, 0x1e, 0xff, 0xe1, 0x00, 0x01,
      0x67, 0x00] := by
  intro h
  obtain ⟨record, -, hne, -, -, -, hdecoded⟩ :=
    h spsOnly.decoded _ _ _ (parseAVCSequenceHeader_run spsOnly spsOnly.decoded [])
  have hlength := AvcRecord.pps_of_decoded hdecoded
  exact hne (List.length_eq_zero_iff.mp hlength.symm)

section FirstSets

variable {front left rest set : List UInt8} {count : UInt8}

theorem readFirstSet_short (hcount : count ≠ 0) (h : left.length < 2) :
    readFirstSet 0xFFFF count (between front left) = .ok (none, between front left) := by
  have hlen : (between front left).len < 2 := h
  rw [readFirstSet, if_neg hcount]
  simp only [read_bind, read_get, hlen, if_true, read_pure]

/-- A set is read when as many bytes are left as its length says. -/
theorem readFirstSet_two {b0 b1 : UInt8} (hcount : count ≠ 0) :
    (readFirstSet 0xFFFF count).run' (between front (b0 :: b1 :: left)) =
      .ok (if left.length < (toUInt16 b0 b1).toNat then none
        else some (left.take (toUInt16 b0 b1).toNat)) := by
  have htwo : ¬ (between front (b0 :: b1 :: left)).len < 2 := by simp
  have hmax : ¬ 0xFFFF < (toUInt16 b0 b1).toNat := Nat.not_lt.mpr (by
    have := UInt16.toNat_lt (toUInt16 b0 b1)
    omega)
  apply run'_ok.mpr
  rw [readFirstSet, if_neg hcount]
  simp only [read_bind, read_get, htwo, if_false, read2byte_between, hmax]
  by_cases hlen : left.length < (toUInt16 b0 b1).toNat
  · have hshort : (between (front ++ [b0, b1]) left).len < (toUInt16 b0 b1).toNat := hlen
    simp only [hshort, hlen, if_true, read_pure]
    exact ⟨_, rfl⟩
  · have hlong : ¬ (between (front ++ [b0, b1]) left).len < (toUInt16 b0 b1).toNat := hlen
    have hread := readNbyte_of_le between_inside (Nat.le_of_not_lt hlong)
    rw [between_drop] at hread
    simp only [hlong, hlen, if_false, read_bind, hread, read_pure]
    exact ⟨_, rfl⟩

/-- What the loop that stops after one set takes for it stands behind its length. -/
theorem readFirstSet_some (hcount : count ≠ 0) :
    (readFirstSet 0xFFFF count).run' (between front left) = .ok (some set) ↔
      set.length ≤ 0xffff ∧ mp4Nals 2 [set] <+: left := by
  rw [mp4Nals_cons]
  change _ ↔ _ ∧ _ :: _ :: (set ++ []) <+: left
  rw [List.append_nil]
  by_cases h : left.length < 2
  · rw [run'_ok, readFirstSet_short hcount h]
    constructor
    · rintro ⟨c, ⟨⟩⟩
    · rintro ⟨-, hprefix⟩
      have hlen := hprefix.length_le
      simp only [List.length_cons] at hlen
      omega
  obtain ⟨b0, b1, t, rfl⟩ := @two_le_length left (by omega)
  rw [readFirstSet_two hcount, List.cons_prefix_cons, List.cons_prefix_cons]
  have hlt := UInt16.toNat_lt (toUInt16 b0 b1)
  obtain ⟨hb0, hb1⟩ := ofNat_toUInt16 b0 b1
  constructor
  · intro hread
    split at hread
    · cases hread
    · next hlen =>
      cases hread
      rw [List.length_take_of_le (by omega)]
      exact ⟨by omega, hb0, hb1, List.take_prefix _ _⟩
  · rintro ⟨hle, rfl, rfl, hprefix⟩
    have hlen := hprefix.length_le
    rw [toUInt16_toBE hle, if_neg (by omega), ← List.prefix_iff_eq_take.mp hprefix]

/-- A set in front of the cursor is read whole. -/
theorem readFirstSet_first (hcount : count ≠ 0) (hset : set.length ≤ 0xffff) :
    readFirstSet 0xFFFF count (between front (mp4Nals 2 [set] ++ rest)) =
      .ok (some set, between (front ++ mp4Nals 2 [set]) rest) := by
  have hcons : mp4Nals 2 [set] =
      UInt8.ofNat (set.length / 256) :: UInt8.ofNat set.length :: set := by
    rw [mp4Nals_cons]
    exact congrArg _ (congrArg _ (List.append_nil set))
  have hvalue := toUInt16_toBE hset
  have htwo : ¬ (between front (UInt8.ofNat (set.length / 256) :: UInt8.ofNat set.length ::
      (set ++ rest))).len < 2 := by simp
  have hmax : ¬ 0xFFFF < set.length := Nat.not_lt.mpr hset
  have hlen : ¬ (between (front ++ [UInt8.ofNat (set.length / 256), UInt8.ofNat set.length])
      (set ++ rest)).len < set.length := by simp
  rw [hcons, readFirstSet, if_neg hcount]
  simp only [List.cons_append, read_bind, read_get, htwo, if_false, read2byte_between, hvalue,
    hmax, hlen, readNbyte_between, read_pure]
  rw [List.append_assoc]
  rfl

variable (record : AvcRecord)

/-- Behind the first SPS, whatever byte comes next is taken for the number of PPS. -/
theorem getFirst_run {first : List UInt8} {more : List (List UInt8)} {b : UInt8}
    (hsps : record.sps = first :: more)
    (hafter : mp4Nals 2 more ++ (record.ppsPart ++ rest) = b :: left) :
    ∃ front, (getFirstSpsAndFirstPpsFromAvcSequenceHeader 0xFFFF 0xFFFF).run'
        (ofData (record.encode ++ rest)) =
      ((readFirstSet 0xFFFF b).run' (between front left)).map fun set =>
        set.map fun pps => ⟨first, pps, record.decoded.nalStartCodeLength⟩ := by
  obtain ⟨hlength, -⟩ := record.lengthByte_and
  have hcount := record.countByte_and
  have hne : UInt8.ofNat record.sps.length ≠ 0 := by
    intro hzero
    have hvalue := record.sps_toNat
    rw [hzero, hsps] at hvalue
    cases hvalue
  have hsplit : mp4Nals 2 record.sps ++ record.ppsPart ++ rest =
      mp4Nals 2 [first] ++ b :: left := by
    rw [hsps, ← hafter]
    simp [mp4Nals]
  have hfirst : first.length ≤ 0xffff := record.sps_length first (by rw [hsps]; simp)
  have hbytes : record.encode ++ rest = record.fixedPart ++ (mp4Nals 2 [first] ++ b :: left) := by
    rw [AvcRecord.encode, List.append_assoc, hsplit]
  refine ⟨record.fixedPart ++ mp4Nals 2 [first] ++ [b], ?_⟩
  rw [ofData_eq, hbytes]
  change (fun p => p.1) <$> getFirstSpsAndFirstPpsFromAvcSequenceHeader 0xFFFF 0xFFFF _ =
    Except.map _ ((fun p => p.1) <$> readFirstSet 0xFFFF b _)
  rw [AvcRecord.fixedPart, getFirstSpsAndFirstPpsFromAvcSequenceHeader]
  have havc : ¬ (flvAvcSequenceHeader ≠ 0) := fun h => h rfl
  simp only [List.cons_append, List.nil_append, read_bind, read_get, between_not_lt_one,
    between_not_lt_three, between_not_lt_four, if_false, read1byte_between, read3byte_between,
    readNbyte_four, havc, hcount]
  rw [readFirstSet_first hne hfirst]
  simp only [read_bind, read_get, between_not_lt_one, if_false, read1byte_between, hlength]
  simp only [List.cons_append, List.nil_append]
  cases readFirstSet 0xFFFF b (between _ left) with
  | error fault => rfl
  | ok result =>
      obtain ⟨pps, c⟩ := result
      cases pps <;> rfl

/-- The announced size of the NAL lengths is the only use of the tenth byte. -/
theorem getFirst_lengthSize {spsMaxLen ppsMaxLen : Nat} {body : List UInt8}
    {header : AvcSequenceHeader}
    (h : (getFirstSpsAndFirstPpsFromAvcSequenceHeader spsMaxLen ppsMaxLen).run' (ofData body) =
      .ok (some header)) :
    header.nalStartcodeLen = (body.getD 9 0 &&& 0x03) + 1 := by
  obtain ⟨c, h⟩ := run'_ok.mp h
  rw [ofData_eq] at h
  match body with
  | [] => cases h
  | [_] => cases h
  | fmt :: avcType :: left =>
    simp only [getFirstSpsAndFirstPpsFromAvcSequenceHeader, read_bind, read_get,
      between_not_lt_one, if_false, read1byte_between] at h
    split at h
    · cases h
    simp only [read_bind, read_get] at h
    split at h
    · cases h
    next hcts =>
    obtain ⟨c0, c1, c2, left, rfl⟩ := three_le_length (Nat.le_of_not_lt hcts)
    simp only [read_bind, read_get, read3byte_between] at h
    split at h
    · cases h
    next hvpcl =>
    obtain ⟨v, p, c', l, left, rfl⟩ := four_le_length (Nat.le_of_not_lt hvpcl)
    simp only [read_bind, read_get, readNbyte_four] at h
    split at h
    · cases h
    next hsize =>
    match left with
    | [] => exact absurd hsize (by simp)
    | size :: left =>
    simp only [read_bind, read_get, read1byte_between] at h
    split at h
    · cases h
    next hcount =>
    match left with
    | [] => exact absurd hcount (by simp)
    | count :: left =>
    simp only [read_bind, read1byte_between] at h
    split at h
    · cases h
    next sps c₁ _ =>
    cases sps with
    | none => cases h
    | some sps =>
    simp only [read_bind, read_get] at h
    split at h
    · cases h
    simp only [read_bind] at h
    split at h
    · cases h
    next pps c₂ _ =>
    split at h
    · cases h
    next pps c₃ _ =>
    cases pps with
    | none => cases h
    | some pps =>
    cases h
    rfl

end FirstSets

end ParsingFlv

end Rtmp
