import RtmpModule.Common.StreamUtil
import RtmpModule.Library.Block

/-!
# The digest handshake

S1 and S2 are filled with random bytes in one buffer. The digest of S1 goes into S1, at a
place that four of its bytes name, and the digest of S2 to its end. Both are cut and
hashed in buffers of their own; what such a buffer holds before it is written is whatever
the heap has there.
-/

namespace Rtmp

open Bytes NetworkUtil

/-- `HMACSha256_util`, of which only the length of the result is known. -/
structure HMACSha256Util where
  hmac : (key text : List UInt8) → List UInt8
  length_hmac : ∀ key text, (hmac key text).length = 32

/-- `HMACSha256_util::encrypt`; `text` and `key` are the bytes behind their pointers. -/
def HMACSha256Util.encrypt {n : ℕ} (sha256Util : HMACSha256Util) (text key : List UInt8)
    (digest : Block UInt8 n) : Option (Block UInt8 n) :=
  digest.write 0 (sha256Util.hmac key text)

/-- The handshake of one connection, as far as digests are concerned. -/
structure HandshakeManager where
  handshakeC1 : Block UInt8 1536
  handshakeS1S2 : Block UInt8 3072
  digestScheme : UInt8 := 99

namespace HandshakeManager

def handshakeMsgLength : UInt32 := 1536

def FMSKeyInSha256 : Block UInt8 68 :=
  ⟨[0x47, 0x65, 0x6e, 0x75, 0x69, 0x6e, 0x65, 0x20, 0x41, 0x64, 0x6f, 0x62,
    0x65, 0x20, 0x46, 0x6c, 0x61, 0x73, 0x68, 0x20, 0x4d, 0x65, 0x64, 0x69,
    0x61, 0x20, 0x53, 0x65, 0x72, 0x76, 0x65, 0x72, 0x20, 0x30, 0x30, 0x31,
    0xf0, 0xee, 0xc2, 0x4a, 0x80, 0x68, 0xbe, 0xe8, 0x2e, 0x00, 0xd0, 0xd1,
    0x02, 0x9e, 0x7e, 0x57, 0x6e, 0xec, 0x5d, 0x2d, 0x29, 0x80, 0x6f, 0xab,
    0x93, 0xb8, 0xe6, 0x36, 0xcf, 0xeb, 0x31, 0xae], rfl⟩

def FPKeyInSha256 : Block UInt8 62 :=
  ⟨[0x47, 0x65, 0x6e, 0x75, 0x69, 0x6e, 0x65, 0x20, 0x41, 0x64, 0x6f,
    0x62, 0x65, 0x20, 0x46, 0x6c, 0x61, 0x73, 0x68, 0x20, 0x50, 0x6c,
    0x61, 0x79, 0x65, 0x72, 0x20, 0x30, 0x30, 0x31,
    0xf0, 0xee, 0xc2, 0x4a, 0x80, 0x68, 0xbe, 0xe8, 0x2e, 0x00, 0xd0,
    0xd1, 0x02, 0x9e, 0x7e, 0x57, 0x6e, 0xec, 0x5d, 0x2d, 0x29, 0x80,
    0x6f, 0xab, 0x93, 0xb8, 0xe6, 0x36, 0xcf, 0xeb, 0x31, 0xae], rfl⟩

variable {n : ℕ}

/-- The sum both offsets start from. -/
def sumBytes (buf : Block UInt8 n) (i : ℕ) : Option UInt32 := do
  return (← buf.get i).toUInt32 + (← buf.get (i + 1)).toUInt32 + (← buf.get (i + 2)).toUInt32 +
    (← buf.get (i + 3)).toUInt32

/-- `get_digest_offset_0`. An offset too large is only logged. -/
def getDigestOffset0 (buf : Block UInt8 n) : Option UInt32 := do
  let offset ← sumBytes buf 8
  let offset := offset % 728
  return offset + 12

def getDigestOffset1 (buf : Block UInt8 n) : Option UInt32 := do
  let offset ← sumBytes buf 772
  let offset := offset % 728
  return offset + 776

/-- `get_digest_offset`, with `DIGEST_MODE_0` and `DIGEST_MODE_1`. -/
def getDigestOffset (buf : Block UInt8 n) (scheme : UInt8) : Option UInt32 :=
  if scheme = 0 then getDigestOffset0 buf
  else if scheme = 1 then getDigestOffset1 buf
  else getDigestOffset0 buf

/-- The two copies around a digest, into the `new` array `pTempBuffer`. -/
def cutDigest (pTempBuffer : Block UInt8 1504) (buf : Block UInt8 n) (digestOffset : UInt32) :
    Option (Block UInt8 1504) := do
  let pTempBuffer ← pTempBuffer.copy 0 buf 0 digestOffset.toNat
  pTempBuffer.copy digestOffset.toNat buf (digestOffset.toNat + 32)
    (handshakeMsgLength - digestOffset - 32).toNat

/-- The comparison of `validate_client_scheme`, which ends at the first difference. -/
def sameDigest (buf : Block UInt8 n) (digestOffset : UInt32) (pTempHash : Block UInt8 512)
    (i : ℕ) : Option Bool := do
  if i < 32 then
    if (← buf.get (digestOffset + UInt32.ofNat i).toNat) ≠ (← pTempHash.get i) then return false
    else sameDigest buf digestOffset pTempHash (i + 1)
  else return true
termination_by 32 - i

/-- `validate_client_scheme`; `heap` is what its arrays hold when they are new. -/
def validateClientScheme (sha256Util : HMACSha256Util) (heap : ℕ → ℕ → UInt8)
    (buf : Block UInt8 1536) (scheme : UInt8) : Option Bool := do
  let digestOffset ← getDigestOffset buf scheme
  let pTempBuffer ← cutDigest (.ofFn 1504 (heap 0)) buf digestOffset
  let pTempHash ← sha256Util.encrypt (← pTempBuffer.read 0 1504) (← FPKeyInSha256.read 0 30)
    (.ofFn 512 (heap 1))
  sameDigest buf digestOffset pTempHash 0

/-- The loop that fills the buffer; `rand i` is the call of `rand` for index `i`. -/
def fillRandom (rand : ℕ → ℕ) (buf : Block UInt8 3072) (i : ℕ) : Option (Block UInt8 3072) := do
  if i < 3072 then
    let buf ← buf.write i [UInt8.ofNat (rand i % 256)]
    fillRandom rand buf (i + 1)
  else return buf
termination_by 3072 - i

/-- The buffer before anything is hashed: the time, zero and random bytes. -/
def fillS1S2 (time : UInt32) (rand : ℕ → ℕ) (buf : Block UInt8 3072) :
    Option (Block UInt8 3072) := do
  let buf ← buf.write 0 (toLE 4 (hton4 time.toNat))
  let buf ← buf.write 4 (toLE 4 0)
  fillRandom rand buf 8

/-- `get_S0_S1_S2`, and what it writes to the stream. -/
def getS0S1S2 (m : HandshakeManager) (sha256Util : HMACSha256Util) (heap : ℕ → ℕ → UInt8)
    (time : UInt32) (rand : ℕ → ℕ) : Option (HandshakeManager × List UInt8) := do
  let buf ← fillS1S2 time rand m.handshakeS1S2
  -- generate S1
  let serverDigestOffset ← getDigestOffset buf m.digestScheme
  let pTempBuffer ← cutDigest (.ofFn 1504 (heap 0)) buf serverDigestOffset
  let pTempHash ← sha256Util.encrypt (← pTempBuffer.read 0 1504) (← FMSKeyInSha256.read 0 36)
    (.ofFn 512 (heap 1))
  let buf ← buf.copy serverDigestOffset.toNat pTempHash 0 32
  -- generate S2
  let keyChallengeIndex ← getDigestOffset m.handshakeC1 m.digestScheme
  let pTempHash ← sha256Util.encrypt (← m.handshakeC1.read keyChallengeIndex.toNat 32)
    (← FMSKeyInSha256.read 0 68) (.ofFn 512 (heap 2))
  let pLastHash ← sha256Util.encrypt (← buf.read 1536 1504) (← pTempHash.read 0 32)
    (.ofFn 512 (heap 3))
  let buf ← buf.copy (1536 * 2 - 32) pLastHash 0 32
  return ({ m with handshakeS1S2 := buf }, 3 :: buf.cells)

end HandshakeManager

end Rtmp
