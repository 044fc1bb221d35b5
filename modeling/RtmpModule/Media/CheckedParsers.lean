import RtmpModule.Library.History
import RtmpModule.Media.AacHeaders
import RtmpModule.Media.AvcHeaders
import RtmpModule.Media.ReadSafety

/-!
# The length-checked parsers and their destinations

`read_nbyte` checks neither the bytes left nor the room in its destination. The
parsers that test the length in front of every read are given here with the
capacities of their destinations, and a write behind a capacity is a fault. They end
inside the buffer they are given a part of, with the pointer and the length in step.
-/

namespace Rtmp

namespace FlvUtil

/-- `read_nbyte` into a destination with room for `maxLen` bytes, `written` of which are used. -/
def readNbyteLoop (maxLen written : Nat) : Nat → Read (List UInt8)
  | 0 => return []
  | n + 1 => do
      if maxLen ≤ written then throw (.outOfBounds written)
      let b ← read1byte
      let rest ← readNbyteLoop maxLen (written + 1) n
      return b :: rest

/-- `read_nbyte(unsigned char*&, size_t, buffer_t&, size_t&)`. -/
def readNbyteInto (maxLen n : Nat) : Read (List UInt8) := readNbyteLoop maxLen 0 n

theorem readNbyteLoop_eq {maxLen written n : Nat} (h : written + n ≤ maxLen) :
    readNbyteLoop maxLen written n = readNbyte n := by
  induction n generalizing written with
  | zero => rfl
  | succ n ih =>
      have hroom : ¬ maxLen ≤ written := by omega
      have hrest := @ih (written + 1) (by omega)
      funext c
      simp only [readNbyteLoop, readNbyte, hroom, if_false, read_bind, read_pure, hrest]

/-- With enough room the destination makes no difference. -/
theorem readNbyteInto_eq {maxLen n : Nat} (h : n ≤ maxLen) :
    readNbyteInto maxLen n = readNbyte n :=
  readNbyteLoop_eq (by omega)

/-- A destination adds faults and nothing else. -/
theorem agrees_readNbyteLoop (maxLen written n : Nat) :
    Agrees (readNbyteLoop maxLen written n) (readNbyte n) := by
  induction n generalizing written with
  | zero => exact .refl _
  | succ n ih =>
      intro c r h
      by_cases hroom : maxLen ≤ written
      · simp only [readNbyteLoop, hroom, if_true] at h
        cases h
      · simp only [readNbyteLoop, hroom, if_false] at h
        exact (Agrees.refl read1byte).bind (fun b => (ih _).bind fun rest => .refl _) c r h

theorem takes_readNbyteInto {maxLen n : Nat} (h : n ≤ maxLen) :
    Takes n (readNbyteInto maxLen n) := by
  rw [readNbyteInto_eq h]
  exact takes_readNbyte n

end FlvUtil

namespace ParsingFlv

open FlvUtil

/-- `get_first_sps_and_first_pps_from_avc_sequence_header`, one of its two loops. -/
def readFirstSetInto (maxLen : Nat) (count : UInt8) : Read (Option (List UInt8)) := do
  if count = 0 then return some []
  if (← get).len < 2 then return none
  let length ← read2byte
  if maxLen < length.toNat then return none
  if (← get).len < length.toNat then return none
  return some (← readNbyteInto maxLen length.toNat)

/-- `get_first_sps_and_first_pps_from_avc_sequence_header`, with the capacities of `sps` and
`pps`; `vpcl` has room for four bytes. -/
def getFirstSpsAndFirstPpsInto (spsMaxLen ppsMaxLen : Nat) : Read (Option AvcSequenceHeader) := do
  if (← get).len < 1 then return none
  let _fmt ← read1byte
  if (← get).len < 1 then return none
  let avcType ← read1byte
  if avcType ≠ 0 then return none
  if (← get).len < 3 then return none
  let _cts ← read3byte
  if (← get).len < 4 then return none
  let _vpcl ← readNbyteInto 4 4
  if (← get).len < 1 then return none
  let nalStartCodeLength ← read1byte
  let nalStartcodeLen := (nalStartCodeLength &&& 0x03) + 1
  if (← get).len < 1 then return none
  let numberOfSps ← read1byte
  match ← readFirstSetInto spsMaxLen (numberOfSps &&& 0x1f) with
  | none => return none
  | some sps =>
      if (← get).len < 1 then return none
      let numberOfPps ← read1byte
      match ← readFirstSetInto ppsMaxLen numberOfPps with
      | none => return none
      | some pps => return some { sps, pps, nalStartcodeLen }

/-- `get_video`, with the capacity of `video_es`. -/
def getVideoInto (maxLen : Nat) : Read (Option VideoFrame) := do
  if (← get).len < 1 then return none
  let fmt ← read1byte
  let frameType := (fmt &&& 0xf0) >>> 4
  let codecId := fmt &&& 0x0f
  if (← get).len < 1 then return none
  let avcType ← read1byte
  if avcType ≠ 1 then return none
  if (← get).len < 3 then return none
  let cts ← read3byte
  let videoEs ← readNbyteInto maxLen (← get).len
  return some { cts := cts.toUInt64, keyframe := frameType, codecId, videoEs }

/-- `ParseAACRaw`, with the capacity of `audio_es`. -/
def parseAACRawInto (maxLen : Nat) : Checked Cursor (AACAudioData × List UInt8) := do
  checkLen 2
  let fmtAacType ← read2byte
  let audioData := aacAudioData fmtAacType
  guard (audioData.soundFormat = flvAac)
  guard (audioData.aacPacketType = flvAacRaw)
  let audioEs ← readNbyteInto maxLen (← get).len
  return (audioData, audioEs)

/-- The loops of `ParseAVCSequenceHeader`, whose `sps` and `pps` are as long as what is read. -/
def parseParameterSetsInto : Nat → List UInt8 → Checked Cursor (List UInt8)
  | 0, list => return list
  | n + 1, list => do
      checkLen 2
      let length ← read2byte
      guard (length.toNat ≤ 0xffff)
      checkLen length.toNat
      let set ← readNbyteInto length.toNat length.toNat
      parseParameterSetsInto n (list ++ delimiter ++ set)

/-- `ParseAVCSequenceHeader`. -/
def parseAVCSequenceHeaderInto (avcDecoderConfig : AVCDecoderConfigurationRecord) :
    Checked Cursor (AVCVideoData × AVCDecoderConfigurationRecord) := do
  checkLen 1
  let fmt ← read1byte
  let frameType := (fmt &&& 0xf0) >>> 4
  let codecId := fmt &&& 0x0f
  guard (codecId = flvAvc)
  checkLen 1
  let avcPacketType ← read1byte
  guard (avcPacketType = flvAvcSequenceHeader)
  checkLen 3
  let compositionTimeOffset ← read3byte
  guard (compositionTimeOffset = 0)
  checkLen 4
  let version ← read1byte
  let profileIndication ← read1byte
  let profileCompatibility ← read1byte
  let avcLevel ← read1byte
  checkLen 1
  let nalStartCodeLength ← read1byte
  guard (nalStartCodeLength &&& 0x03 ≠ 2)
  checkLen 1
  let numberOfSps ← read1byte
  let numOfSps := numberOfSps &&& 0x1f
  guard (1 ≤ numOfSps)
  let spsList ← parseParameterSetsInto numOfSps.toNat avcDecoderConfig.spsList
  checkLen 1
  let numOfPps ← read1byte
  guard (1 ≤ numOfSps)
  let ppsList ← parseParameterSetsInto numOfPps.toNat avcDecoderConfig.ppsList
  return ({ frameType, codecId, avcPacketType, compositionTimeOffset },
    { version, profileIndication, profileCompatibility, avcLevel,
      nalStartCodeLength := (nalStartCodeLength &&& 0x03) + 1, numOfSps, numOfPps, spsList,
      ppsList })

/-- The two bytes that `ParseAVCNALU` and `ParseAVCEndOfSequence` read first. -/
def parseAVCTag (packetType : UInt8) : Checked Cursor AVCVideoData := do
  checkLen 1
  let fmt ← read1byte
  let frameType := (fmt &&& 0xf0) >>> 4
  let codecId := fmt &&& 0x0f
  guard (codecId = flvAvc)
  checkLen 1
  let avcPacketType ← read1byte
  guard (avcPacketType = packetType)
  return { frameType, codecId, avcPacketType, compositionTimeOffset := 0 }

/-- `ParseAVCNALU`, with the capacity of `video_es`. -/
def parseAVCNALU (maxLen : Nat) : Checked Cursor (AVCVideoData × List UInt8) := do
  let videoData ← parseAVCTag flvAvcNalu
  checkLen 3
  let compositionTimeOffset ← read3byte
  let videoEs ← readNbyteInto maxLen (← get).len
  return ({ videoData with compositionTimeOffset }, videoEs)

/-- `ParseAVCEndOfSequence`, with the capacity of `eos`; it leaves the composition time at 0. -/
def parseAVCEndOfSequence (maxLen : Nat) : Checked Cursor (AVCVideoData × List UInt8) := do
  let videoData ← parseAVCTag flvAvcEos
  let eos ← readNbyteInto maxLen (← get).len
  return (videoData, eos)

section Safety

variable {lo hi maxLen : Nat}

theorem safe_getEscapedAacHeader (hb lb : UInt8) : Safe lo hi (getEscapedAacHeader hb lb) := by
  apply Safe.ite
  · apply Safe.check (Safe.pure none)
    apply Safe.takes takes_read3byte (Nat.le_refl 3)
    intro sampleRateChannelConfig
    apply Safe.check (Safe.pure none)
    exact Safe.takes takes_read1byte (Nat.le_refl 1) fun b3 => Safe.pure _
  · apply Safe.check (Safe.pure none)
    exact Safe.takes takes_read1byte (Nat.le_refl 1) fun b3 => Safe.pure _

theorem safe_getPlainAacHeader (hb lb : UInt8) : Safe lo hi (getPlainAacHeader hb lb) := by
  apply Safe.ite
  · apply Safe.get
    intro c hlo hhi
    by_cases h : c.len ≤ 3
    · rw [if_pos h]
      exact Safe.pure none
    · rw [if_neg h]
      exact Safe.takes takes_read3byte (by omega) fun sampleRateChannelConfig => Safe.pure _
  · exact Safe.pure _

theorem safe_getAacHeader : Safe 0 hi getAacHeader := by
  apply Safe.check (Safe.pure none)
  apply Safe.takes takes_read2byte (Nat.le_refl 2)
  intro tag
  apply Safe.ite (Safe.pure none)
  apply Safe.check (Safe.pure none)
  apply Safe.takes takes_read2byte (Nat.le_refl 2)
  intro aacHeader
  exact Safe.ite (safe_getEscapedAacHeader _ _) (safe_getPlainAacHeader _ _)

theorem safe_readFirstSetInto (maxLen : Nat) (count : UInt8) :
    Safe 0 hi (readFirstSetInto maxLen count) := by
  apply Safe.ite (Safe.pure (some []))
  apply Safe.check (Safe.pure none)
  apply Safe.takes takes_read2byte (Nat.le_refl 2)
  intro length
  by_cases hroom : maxLen < length.toNat
  · rw [if_pos hroom]
    exact Safe.pure none
  · rw [if_neg hroom]
    apply Safe.check (Safe.pure none)
    exact Safe.takes (takes_readNbyteInto (Nat.le_of_not_lt hroom)) (Nat.le_refl _)
      fun set => Safe.pure (some set)

theorem safe_getFirstSpsAndFirstPpsInto (spsMaxLen ppsMaxLen : Nat) :
    Safe 0 hi (getFirstSpsAndFirstPpsInto spsMaxLen ppsMaxLen) := by
  apply Safe.check (Safe.pure none)
  apply Safe.takes takes_read1byte (Nat.le_refl 1)
  intro fmt
  apply Safe.check (Safe.pure none)
  apply Safe.takes takes_read1byte (Nat.le_refl 1)
  intro avcType
  apply Safe.ite (Safe.pure none)
  apply Safe.check (Safe.pure none)
  apply Safe.takes takes_read3byte (Nat.le_refl 3)
  intro cts
  apply Safe.check (Safe.pure none)
  apply Safe.takes (takes_readNbyteInto (Nat.le_refl 4)) (Nat.le_refl 4)
  intro vpcl
  apply Safe.check (Safe.pure none)
  apply Safe.takes takes_read1byte (Nat.le_refl 1)
  intro nalStartCodeLength
  apply Safe.check (Safe.pure none)
  apply Safe.takes takes_read1byte (Nat.le_refl 1)
  intro numberOfSps
  apply Safe.bind (safe_readFirstSetInto _ _)
  intro sps
  cases sps with
  | none => exact Safe.pure none
  | some sps =>
      apply Safe.check (Safe.pure none)
      apply Safe.takes takes_read1byte (Nat.le_refl 1)
      intro numberOfPps
      apply Safe.bind (safe_readFirstSetInto _ _)
      intro pps
      cases pps <;> exact Safe.pure _

theorem safe_getVideoInto (h : hi ≤ maxLen) : Safe 0 hi (getVideoInto maxLen) := by
  apply Safe.check (Safe.pure none)
  apply Safe.takes takes_read1byte (Nat.le_refl 1)
  intro fmt
  apply Safe.check (Safe.pure none)
  apply Safe.takes takes_read1byte (Nat.le_refl 1)
  intro avcType
  apply Safe.ite (Safe.pure none)
  apply Safe.check (Safe.pure none)
  apply Safe.takes takes_read3byte (Nat.le_refl 3)
  intro cts
  apply Safe.get
  intro c hlo hhi
  exact Safe.takes (takes_readNbyteInto (Nat.le_trans hhi h)) (Nat.le_refl _)
    fun videoEs => Safe.pure _

/-- The end of three parsers: all that is left goes into the destination. -/
theorem safe_readRest {α : Type} {f : List UInt8 → α} (h : hi ≤ maxLen) :
    Safe lo hi (get >>= fun c : Cursor => liftM (readNbyteInto maxLen c.len) >>= fun bs =>
      pure (f bs) : Checked Cursor α).run := by
  apply Safe.run_get
  intro c hlo hhi
  exact Safe.run_takes (takes_readNbyteInto (Nat.le_trans hhi h)) (Nat.le_refl _)
    fun bs => Safe.run_pure (f bs)

theorem safe_parseAACRawInto (h : hi ≤ maxLen) : Safe 0 hi (parseAACRawInto maxLen).run := by
  apply Safe.run_checkLen
  apply Safe.run_takes takes_read2byte (Nat.le_refl 2)
  intro fmtAacType
  apply Safe.run_guard
  intro hformat
  apply Safe.run_guard
  intro hpacket
  exact safe_readRest h

/-- The copy the bit reader is given holds the bytes left. -/
theorem copyLeft_ok {c : Cursor} (hc : c.Fits) :
    ∃ buf, copyLeft c = .ok (buf, c) ∧ buf.length = c.len := by
  obtain ⟨buf, hread⟩ := takes_readNbyte c.len c hc (Nat.le_refl _)
  refine ⟨buf, ?_, readNbyte_length hread⟩
  rw [copyLeft, hread]

theorem safe_parseAACSequenceHeader : Safe 0 hi parseAACSequenceHeader.run := by
  apply Safe.run_checkLen
  apply Safe.run_takes takes_read2byte (Nat.le_refl 2)
  intro fmtAacType
  apply Safe.run_guard
  intro hformat
  apply Safe.run_guard
  intro hpacket
  apply Safe.run_checkLen
  intro c hc hfour hhi
  obtain ⟨buf, hcopy, hlength⟩ := copyLeft_ok hc
  obtain ⟨parsed, hparsed⟩ := History.exists_ok
    (run'_isOk (@parseAudioSpecificConfig_isOk buf (by omega)))
  rw [hlength] at hparsed
  have hlift : (liftM ((parseAudioSpecificConfig c.len).run.run' (BitReader.ofData buf)) :
      Checked Cursor (Option AudioSpecificConfig)).run c = .ok (some parsed, c) :=
    Checked.liftExcept_some.mpr ⟨hparsed, rfl⟩
  refine ⟨parsed.map fun config => (aacAudioData fmtAacType, config), c, ?_, .refl c⟩
  simp only [Checked.run_bind, Checked.run_lift, hcopy, Checked.run_get, hlift]
  cases parsed <;> rfl

theorem safe_parseParameterSetsInto (n : Nat) (list : List UInt8) :
    Safe 0 hi (parseParameterSetsInto n list).run := by
  induction n generalizing list with
  | zero => exact Safe.run_pure list
  | succ n ih =>
      apply Safe.run_checkLen
      apply Safe.run_takes takes_read2byte (Nat.le_refl 2)
      intro length
      apply Safe.run_guard
      intro hmax
      apply Safe.run_checkLen
      apply Safe.run_takes (takes_readNbyteInto (Nat.le_refl _)) (Nat.le_refl _)
      intro set
      exact (ih _).mono (Nat.zero_le _)

theorem safe_parseAVCTag (packetType : UInt8) : Safe 0 hi (parseAVCTag packetType).run := by
  apply Safe.run_checkLen
  apply Safe.run_takes takes_read1byte (Nat.le_refl 1)
  intro fmt
  apply Safe.run_guard
  intro hcodec
  apply Safe.run_checkLen
  apply Safe.run_takes takes_read1byte (Nat.le_refl 1)
  intro avcPacketType
  apply Safe.run_guard
  intro hpacket
  exact Safe.run_pure _

theorem safe_parseAVCNALU (h : hi ≤ maxLen) : Safe 0 hi (parseAVCNALU maxLen).run := by
  apply Safe.run_bind (safe_parseAVCTag _)
  intro videoData
  apply Safe.run_checkLen
  apply Safe.run_takes takes_read3byte (Nat.le_refl 3)
  intro compositionTimeOffset
  exact safe_readRest h

theorem safe_parseAVCEndOfSequence (h : hi ≤ maxLen) :
    Safe 0 hi (parseAVCEndOfSequence maxLen).run := by
  apply Safe.run_bind (safe_parseAVCTag _)
  intro videoData
  exact safe_readRest h

theorem safe_parseAVCSequenceHeaderInto (config : AVCDecoderConfigurationRecord) :
    Safe 0 hi (parseAVCSequenceHeaderInto config).run := by
  apply Safe.run_checkLen
  apply Safe.run_takes takes_read1byte (Nat.le_refl 1)
  intro fmt
  apply Safe.run_guard
  intro hcodec
  apply Safe.run_checkLen
  apply Safe.run_takes takes_read1byte (Nat.le_refl 1)
  intro avcPacketType
  apply Safe.run_guard
  intro hpacket
  apply Safe.run_checkLen
  apply Safe.run_takes takes_read3byte (Nat.le_refl 3)
  intro compositionTimeOffset
  apply Safe.run_guard
  intro hzero
  apply Safe.run_checkLen
  apply Safe.run_takes takes_read1byte (Nat.le_add_left 1 3)
  intro version
  apply Safe.run_takes takes_read1byte (Nat.le_add_left 1 2)
  intro profileIndication
  apply Safe.run_takes takes_read1byte (Nat.le_add_left 1 1)
  intro profileCompatibility
  apply Safe.run_takes takes_read1byte (Nat.le_refl 1)
  intro avcLevel
  apply Safe.run_checkLen
  apply Safe.run_takes takes_read1byte (Nat.le_refl 1)
  intro nalStartCodeLength
  apply Safe.run_guard
  intro hsize
  apply Safe.run_checkLen
  apply Safe.run_takes takes_read1byte (Nat.le_refl 1)
  intro numberOfSps
  apply Safe.run_guard
  intro hone
  apply Safe.run_bind (safe_parseParameterSetsInto _ _)
  intro spsList
  apply Safe.run_checkLen
  apply Safe.run_takes takes_read1byte (Nat.le_refl 1)
  intro numOfPps
  apply Safe.run_guard
  intro hone'
  apply Safe.run_bind (safe_parseParameterSetsInto _ _)
  intro ppsList
  exact Safe.run_pure _

end Safety

section Agreement

theorem readFirstSetInto_eq (maxLen : Nat) (count : UInt8) :
    readFirstSetInto maxLen count = readFirstSet maxLen count := by
  have hset : ∀ length : UInt16,
      (if maxLen < length.toNat then pure none else do
        if (← get).len < length.toNat then return none
        return some (← readNbyteInto maxLen length.toNat) : Read (Option (List UInt8))) =
      (if maxLen < length.toNat then pure none else do
        if (← get).len < length.toNat then return none
        return some (← readNbyte length.toNat)) := by
    intro length
    by_cases h : maxLen < length.toNat
    · rw [if_pos h, if_pos h]
    · rw [if_neg h, if_neg h, readNbyteInto_eq (Nat.le_of_not_lt h)]
  simp only [readFirstSetInto, readFirstSet, hset]

theorem getFirstSpsAndFirstPpsInto_eq (spsMaxLen ppsMaxLen : Nat) :
    getFirstSpsAndFirstPpsInto spsMaxLen ppsMaxLen =
      getFirstSpsAndFirstPpsFromAvcSequenceHeader spsMaxLen ppsMaxLen := by
  have hset : readFirstSetInto = readFirstSet := by
    funext maxLen count
    exact readFirstSetInto_eq maxLen count
  have hstartCode : readNbyteInto 4 4 = readNbyte 4 := readNbyteInto_eq (Nat.le_refl 4)
  rw [getFirstSpsAndFirstPpsInto, hset, hstartCode]
  rfl

theorem agrees_getVideoInto (maxLen : Nat) : Agrees (getVideoInto maxLen) getVideo := by
  refine (Agrees.refl get).bind fun c => .ite ?_
  refine (Agrees.refl read1byte).bind fun fmt => ?_
  refine (Agrees.refl get).bind fun c => .ite ?_
  refine (Agrees.refl read1byte).bind fun avcType => .ite ?_
  refine (Agrees.refl get).bind fun c => .ite ?_
  refine (Agrees.refl read3byte).bind fun cts => ?_
  refine (Agrees.refl get).bind fun c => ?_
  exact (agrees_readNbyteLoop maxLen 0 c.len).bind fun videoEs => .refl _

theorem agrees_parseAACRawInto (maxLen : Nat) :
    Agrees (parseAACRawInto maxLen).run parseAACRaw.run := by
  refine (Agrees.refl (checkLen 2).run).run_bind fun _ => ?_
  refine (Agrees.refl (liftM read2byte : Checked Cursor UInt16).run).run_bind fun tag => ?_
  refine (Agrees.refl (guard _ : Checked Cursor Unit).run).run_bind fun _ => ?_
  refine (Agrees.refl (guard _ : Checked Cursor Unit).run).run_bind fun _ => ?_
  refine (Agrees.refl (get : Checked Cursor Cursor).run).run_bind fun c => ?_
  exact (agrees_readNbyteLoop maxLen 0 c.len).run_lift.run_bind fun audioEs => .refl _

theorem parseParameterSetsInto_eq (n : Nat) (list : List UInt8) :
    parseParameterSetsInto n list = parseParameterSets n list := by
  induction n generalizing list with
  | zero => rfl
  | succ n ih =>
      simp only [parseParameterSetsInto, parseParameterSets, readNbyteInto_eq (Nat.le_refl _), ih]

theorem parseAVCSequenceHeaderInto_eq (config : AVCDecoderConfigurationRecord) :
    parseAVCSequenceHeaderInto config = parseAVCSequenceHeader config := by
  simp only [parseAVCSequenceHeaderInto, parseAVCSequenceHeader, parseParameterSetsInto_eq]

end Agreement

/-- The eight parsers on a part of any buffer, with destinations as large as this part. -/
theorem checkedParsers_endInside (buffer : List UInt8) (bufferLen maxLen : Nat)
    (config : AVCDecoderConfigurationRecord) (hlen : bufferLen ≤ buffer.length)
    (hmax : bufferLen ≤ maxLen) :
    EndsInside buffer bufferLen getAacHeader ∧
      EndsInside buffer bufferLen (getFirstSpsAndFirstPpsInto 0xFFFF 0xFFFF) ∧
      EndsInside buffer bufferLen (getVideoInto maxLen) ∧
      EndsInside buffer bufferLen parseAACSequenceHeader.run ∧
      EndsInside buffer bufferLen (parseAACRawInto maxLen).run ∧
      EndsInside buffer bufferLen (parseAVCSequenceHeaderInto config).run ∧
      EndsInside buffer bufferLen (parseAVCNALU maxLen).run ∧
      EndsInside buffer bufferLen (parseAVCEndOfSequence maxLen).run := by
  have hnone : 0 ≤ bufferLen := Nat.zero_le _
  refine ⟨?_, ?_, ?_, ?_, ?_, ?_, ?_, ?_⟩
  · exact safe_getAacHeader.endsInside hnone hlen
  · exact (safe_getFirstSpsAndFirstPpsInto _ _).endsInside hnone hlen
  · exact (safe_getVideoInto hmax).endsInside hnone hlen
  · exact safe_parseAACSequenceHeader.endsInside hnone hlen
  · exact (safe_parseAACRawInto hmax).endsInside hnone hlen
  · exact (safe_parseAVCSequenceHeaderInto config).endsInside hnone hlen
  · exact (safe_parseAVCNALU hmax).endsInside hnone hlen
  · exact (safe_parseAVCEndOfSequence hmax).endsInside hnone hlen

/-- A record before it is parsed. -/
def emptyConfig : AVCDecoderConfigurationRecord := ⟨0, 0, 0, 0, 0, 0, 0, [], []⟩

/-- A key frame of one byte in a buffer of seven. -/
theorem checkedParsers_endInside_keyFrame :
    EndsInside [0x17, 0x01, 0, 0, 0, 0x65, 0xFF] 6 getAacHeader ∧
      EndsInside [0x17, 0x01, 0, 0, 0, 0x65, 0xFF] 6 (getFirstSpsAndFirstPpsInto 0xFFFF 0xFFFF) ∧
      EndsInside [0x17, 0x01, 0, 0, 0, 0x65, 0xFF] 6 (getVideoInto 6) ∧
      EndsInside [0x17, 0x01, 0, 0, 0, 0x65, 0xFF] 6 parseAACSequenceHeader.run ∧
      EndsInside [0x17, 0x01, 0, 0, 0, 0x65, 0xFF] 6 (parseAACRawInto 6).run ∧
      EndsInside [0x17, 0x01, 0, 0, 0, 0x65, 0xFF] 6
        (parseAVCSequenceHeaderInto emptyConfig).run ∧
      EndsInside [0x17, 0x01, 0, 0, 0, 0x65, 0xFF] 6 (parseAVCNALU 6).run ∧
      EndsInside [0x17, 0x01, 0, 0, 0, 0x65, 0xFF] 6 (parseAVCEndOfSequence 6).run :=
  checkedParsers_endInside _ 6 6 emptyConfig (by decide) (Nat.le_refl 6)

end ParsingFlv

end Rtmp
