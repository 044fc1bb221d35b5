import RtmpModule.Media.FlvUtil

/-!
# FLV audio and video bodies

The parsers of `parsingflv.cpp` that live media runs through: which packet a body
holds, the AAC and AVC sequence headers, and the audio and video packets. The pairs
of length-checked tests differ only in codec and packet type. The parsers whose
results are only logged have modules of their own.
-/

namespace Rtmp

namespace ParsingFlv

open FlvUtil

def flvAvc : UInt8 := 7
def flvAvcSequenceHeader : UInt8 := 0
def flvAvcNalu : UInt8 := 1
def flvAvcEos : UInt8 := 2
def flvAac : UInt8 := 10
def flvAacSequenceHeader : UInt8 := 0
def flvAacRaw : UInt8 := 1

/-- `(fmt & 0xf0) >> 4` of a two-byte tag header. -/
def soundFormat (tag : UInt16) : UInt8 := ((tag >>> 8).toUInt8 &&& 0xf0) >>> 4

/-- `fmt & 0x0f` of a two-byte tag header. -/
def codecId (tag : UInt16) : UInt8 := (tag >>> 8).toUInt8 &&& 0x0f

/-- The packet type of a two-byte tag header. -/
def packetType (tag : UInt16) : UInt8 := tag.toUInt8

/-- The tests that check the length of the body before they look at its tag header. -/
def isTag (codec : UInt16 → UInt8) (codecValue packetValue : UInt8) : Read Bool := do
  if (← get).len < 2 then return false
  let tag ← get2byte
  return decide (codec tag = codecValue ∧ packetType tag = packetValue)

/-- `IsAACSequenceHeader`. -/
def isAACSequenceHeader : Read Bool := isTag soundFormat flvAac flvAacSequenceHeader

/-- `IsAACRaw`. -/
def isAACRaw : Read Bool := isTag soundFormat flvAac flvAacRaw

/-- `IsAVCSequenceHeader`. -/
def isAVCSequenceHeader : Read Bool := isTag codecId flvAvc flvAvcSequenceHeader

/-- `IsAVCNALU`. -/
def isAVCNALU : Read Bool := isTag codecId flvAvc flvAvcNalu

/-- `is_avc_end_of_sequence`, which is not given the length of the body. -/
def isAvcEndOfSequence : Read Bool := do
  let tag ← get2byte
  return decide (codecId tag = flvAvc ∧ packetType tag = flvAvcEos)

/-- The results of `get_aac_header`. -/
structure AacHeader where
  objectType : UInt32
  sampleRate : UInt32
  channelCount : UInt32
  deriving DecidableEq, Repr

def samplingRates : List UInt32 :=
  [96000, 88200, 64000, 48000, 44100, 32000, 24000, 22050, 16000, 12000, 11025, 8000, 7350,
    0, 0, 0]

def samplingRate (index : UInt8) : UInt32 := samplingRates.getD index.toNat 0

/-- The part of `get_aac_header` behind an object type of 31, whose six extension bits end
inside the low byte. -/
def getEscapedAacHeader (hb lb : UInt8) : Read (Option AacHeader) := do
  let audioObjectType := (((hb &&& 0x07) <<< 3) ||| (lb >>> 5)) + 32
  let sampleRateIndex := (lb >>> 1) &&& (0x0f : UInt8)
  if sampleRateIndex = 0x0f then
    if (← get).len < 3 then return none
    let sampleRateChannelConfig ← read3byte
    let sampleRate := ((lb &&& 0x01).toUInt32 <<< 23) ||| (sampleRateChannelConfig >>> 1)
    if (← get).len < 1 then return none
    let b3 ← read1byte
    let channelConfig := ((sampleRateChannelConfig &&& 0x01).toUInt8 <<< 3) ||| (b3 >>> 5)
    return some ⟨audioObjectType.toUInt32, sampleRate, channelConfig.toUInt32⟩
  else
    let sampleRate := samplingRate sampleRateIndex
    if (← get).len < 1 then return none
    let b3 ← read1byte
    let channelConfig := ((lb &&& 0x01) <<< 3) ||| (b3 >>> 5)
    return some ⟨audioObjectType.toUInt32, sampleRate, channelConfig.toUInt32⟩

/-- The part of `get_aac_header` behind an object type below 31. -/
def getPlainAacHeader (hb lb : UInt8) : Read (Option AacHeader) := do
  let audioObjectType := hb >>> 3
  let sampleRateIndex := ((hb <<< 1) &&& (0x0f : UInt8)) ||| ((lb &&& 0x80) >>> 7)
  if sampleRateIndex = 0x0f then
    if (← get).len ≤ 3 then return none
    let sampleRateChannelConfig ← read3byte
    let sampleRate :=
      ((lb &&& 0x7f).toUInt32 <<< 17) ||| ((sampleRateChannelConfig &&& 0xffff80) >>> 7)
    let channelConfig := (sampleRateChannelConfig >>> 3) &&& 0x0f
    return some ⟨audioObjectType.toUInt32, sampleRate, channelConfig⟩
  else
    let channelConfig := (lb >>> 3) &&& 0x0f
    return some ⟨audioObjectType.toUInt32, samplingRate sampleRateIndex, channelConfig.toUInt32⟩

/-- `get_aac_header`. -/
def getAacHeader : Read (Option AacHeader) := do
  if (← get).len < 2 then return none
  let tag ← read2byte
  if soundFormat tag ≠ flvAac ∨ packetType tag ≠ flvAacSequenceHeader then return none
  if (← get).len < 2 then return none
  let aacHeader ← read2byte
  let hb := (aacHeader >>> 8).toUInt8
  let lb := aacHeader.toUInt8
  if hb >>> 3 = 31 then getEscapedAacHeader hb lb else getPlainAacHeader hb lb

/-- `get_audio`: the body behind the tag header. -/
def getAudio : Read (Option (List UInt8)) := do
  let tag ← read2byte
  if soundFormat tag ≠ flvAac ∨ packetType tag ≠ flvAacRaw then return none
  return some (← readNbyte (← get).len)

/-- What `get_first_sps_and_first_pps_from_avc_sequence_header` hands back. -/
structure AvcSequenceHeader where
  sps : List UInt8
  pps : List UInt8
  nalStartcodeLen : UInt8
  deriving DecidableEq, Repr

/-- One of the two loops over parameter sets, which stop after the first set; `maxLen` is
the capacity of the destination. -/
def readFirstSet (maxLen : Nat) (count : UInt8) : Read (Option (List UInt8)) := do
  if count = 0 then return some []
  if (← get).len < 2 then return none
  let length ← read2byte
  if maxLen < length.toNat then return none
  if (← get).len < length.toNat then return none
  return some (← readNbyte length.toNat)

/-- `get_first_sps_and_first_pps_from_avc_sequence_header`. -/
def getFirstSpsAndFirstPpsFromAvcSequenceHeader (spsMaxLen ppsMaxLen : Nat) :
    Read (Option AvcSequenceHeader) := do
  if (← get).len < 1 then return none
  let _fmt ← read1byte
  if (← get).len < 1 then return none
  let avcType ← read1byte
  if avcType ≠ 0 then return none
  if (← get).len < 3 then return none
  let _cts ← read3byte
  if (← get).len < 4 then return none
  let _vpcl ← readNbyte 4
  if (← get).len < 1 then return none
  let nalStartCodeLength ← read1byte
  let nalStartcodeLen := (nalStartCodeLength &&& 0x03) + 1
  if (← get).len < 1 then return none
  let numberOfSps ← read1byte
  match ← readFirstSet spsMaxLen (numberOfSps &&& 0x1f) with
  | none => return none
  | some sps =>
      if (← get).len < 1 then return none
      let numberOfPps ← read1byte
      match ← readFirstSet ppsMaxLen numberOfPps with
      | none => return none
      | some pps => return some { sps, pps, nalStartcodeLen }

/-- The fields of `video_frame_t` that `get_video` sets, with the elementary stream. -/
structure VideoFrame where
  cts : UInt64
  keyframe : UInt8
  codecId : UInt8
  videoEs : List UInt8
  deriving DecidableEq, Repr

/-- `get_video`. -/
def getVideo : Read (Option VideoFrame) := do
  if (← get).len < 1 then return none
  let fmt ← read1byte
  let frameType := (fmt &&& 0xf0) >>> 4
  let codecId := fmt &&& 0x0f
  if (← get).len < 1 then return none
  let avcType ← read1byte
  if avcType ≠ 1 then return none
  if (← get).len < 3 then return none
  let cts ← read3byte
  let videoEs ← readNbyte (← get).len
  return some { cts := cts.toUInt64, keyframe := frameType, codecId, videoEs }

/-- `get_avc_end_of_sequence`. -/
def getAvcEndOfSequence : Read (List UInt8) := do readNbyte (← get).len

end ParsingFlv

end Rtmp
