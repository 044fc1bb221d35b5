import RtmpModule.Protocol.HeaderRoundTrip
import RtmpModule.Protocol.Message

/-!
# Writing a message in chunks

`write_payload_with_body` writes the full chunks of a body in a loop and the last one,
which is never empty, after it. The loop takes the bytes of a chunk by its index, the
tail by an index of its own. Every chunk but the first has a type 3 header in front,
whose size is added to the length of the body for the size reported.
-/

namespace Rtmp

open StreamUtil

/-- One write after the other into the same stream. -/
def Written.append (first second : Written) : Written :=
  { bytes := first.bytes ++ second.bytes, writed := first.writed + second.writed }

namespace RtmpMessage

/-- The header in front of every chunk but the first. -/
def writeContinuation (msg : RtmpMessage) : Written :=
  ({ formatType := .continuation, chunkStreamId := msg.header.chunkStreamId } :
    RtmpHeader).writePayload

/-- The loop of `write_payload_with_body`: what it has written, and the `len` it ends
with. A chunk size of zero never ends it. -/
def writeChunks (msg : RtmpMessage) (body : List UInt8) (i len : Nat) (out : Written) :
    Option (Written × Nat) :=
  if msg.writeChunkSize.toNat < len then
    if _hsize : msg.writeChunkSize.toNat = 0 then none
    else
      let out := if i ≠ 0 then out.append msg.writeContinuation else out
      let out := { out with
        bytes := out.bytes ++
          (body.drop (i * msg.writeChunkSize.toNat)).take msg.writeChunkSize.toNat }
      msg.writeChunks body (i + 1) (len - msg.writeChunkSize.toNat) out
  else some (out, len)
termination_by len
decreasing_by omega

/-- The end of `write_payload_with_body`: the chunk the loop leaves over. -/
def writeLast (msg : RtmpMessage) (body : List UInt8) (out : Written) (len : Nat) : Written :=
  if 0 < len then
    let divideByChunk := decide (msg.writeChunkSize.toNat < body.length)
    let index := (body.length - 1) / msg.writeChunkSize.toNat
    let out := if divideByChunk then out.append msg.writeContinuation else out
    { out with bytes := out.bytes ++ (body.drop (index * msg.writeChunkSize.toNat)).take len }
  else out

/-- `RtmpMessage::write_payload_with_body`. -/
def writePayloadWithBody (msg : RtmpMessage) (body : List UInt8) : Option Written :=
  (msg.writeChunks body 0 body.length { writed := body.length }).map fun (out, len) =>
    msg.writeLast body out len

/-- `MediaMessage::write_payload`, which first sets the length in the header. -/
def writePayload (msg : RtmpMessage) (data : List UInt8) : Option Written :=
  let msg := msg.setHeader { msg.header with msgLength := UInt32.ofNat data.length }
  (msg.writePayloadWithBody data).map msg.header.writePayload.append

end RtmpMessage

/-- The size reported is the number of bytes written. -/
def Written.Counted (os : Written) : Prop := os.writed = os.bytes.length

theorem Written.Counted.append {first second : Written} (hfirst : first.Counted)
    (hsecond : second.Counted) : (first.append second).Counted := by
  simp only [Counted, Written.append, List.length_append] at *
  rw [hfirst, hsecond]

theorem RtmpHeader.writePayload_counted (h : RtmpHeader) : h.writePayload.Counted := by
  have hbasic : (h.writeBasicHeader {}).Counted := by
    rw [RtmpHeader.writeBasicHeader]
    split
    · rfl
    split
    · rfl
    split
    · rfl
    · rfl
  rw [Written.Counted] at *
  rw [RtmpHeader.writePayload, RtmpHeader.writeMessageHeader_eq, List.length_append, hbasic]

namespace RtmpMessage

variable {msg : RtmpMessage} {body : List UInt8}

/-- The loop takes whole chunks off the front of the body, of which the size reported
counts every byte from the start, and leaves at most one chunk. -/
theorem writeChunks_counted (hsize : msg.writeChunkSize.toNat ≠ 0) {i len : Nat} {out : Written}
    (hbody : i * msg.writeChunkSize.toNat + len = body.length)
    (hout : out.bytes.length + len = out.writed) :
    ∃ i' len' out', msg.writeChunks body i len out = some (out', len') ∧
      len' ≤ msg.writeChunkSize.toNat ∧ (0 < len → 0 < len') ∧
      i' * msg.writeChunkSize.toNat + len' = body.length ∧
      out'.bytes.length + len' = out'.writed := by
  induction len using Nat.strongRecOn generalizing i out with
  | ind len ih =>
      rw [writeChunks]
      by_cases hmore : msg.writeChunkSize.toNat < len
      · rw [if_pos hmore, dif_neg hsize]
        have hnext : (i + 1) * msg.writeChunkSize.toNat + (len - msg.writeChunkSize.toNat) =
            body.length := by
          rw [Nat.add_mul]
          omega
        have hchunk : ((body.drop (i * msg.writeChunkSize.toNat)).take
            msg.writeChunkSize.toNat).length = msg.writeChunkSize.toNat := by
          rw [List.length_take, List.length_drop]
          omega
        have hheader : msg.writeContinuation.writed = msg.writeContinuation.bytes.length :=
          RtmpHeader.writePayload_counted _
        have hcount : ∀ front : Written, front.bytes.length + len = front.writed →
            { front with
              bytes := front.bytes ++ (body.drop (i * msg.writeChunkSize.toNat)).take
                msg.writeChunkSize.toNat : Written }.bytes.length +
              (len - msg.writeChunkSize.toNat) = front.writed := by
          intro front hfront
          dsimp only
          rw [List.length_append, hchunk]
          omega
        have hfront : (if i ≠ 0 then out.append msg.writeContinuation else out).bytes.length + len =
            (if i ≠ 0 then out.append msg.writeContinuation else out).writed := by
          split
          · simp only [Written.append, List.length_append]
            omega
          · exact hout
        obtain ⟨i', len', out', hchunks, hlen', hpos, hbody', hout'⟩ :=
          ih (len - msg.writeChunkSize.toNat) (by omega) hnext (hcount _ hfront)
        exact ⟨i', len', out', hchunks, hlen', fun _ => hpos (by omega), hbody', hout'⟩
      · rw [if_neg hmore]
        exact ⟨i, len, out, rfl, Nat.le_of_not_lt hmore, id, hbody, hout⟩

/-- The last chunk is the one the loop left. -/
theorem writeLast_counted {i len : Nat} {out : Written}
    (hlen : len ≤ msg.writeChunkSize.toNat)
    (hbody : i * msg.writeChunkSize.toNat + len = body.length)
    (hout : out.bytes.length + len = out.writed) : (msg.writeLast body out len).Counted := by
  rw [writeLast]
  by_cases hpos : 0 < len
  · have hindex : (body.length - 1) / msg.writeChunkSize.toNat = i := by
      have hlast : body.length - 1 = len - 1 + i * msg.writeChunkSize.toNat := by omega
      rw [hlast, Nat.add_mul_div_right _ _ (by omega), Nat.div_eq_of_lt (by omega), Nat.zero_add]
    have hheader : msg.writeContinuation.writed = msg.writeContinuation.bytes.length :=
      RtmpHeader.writePayload_counted _
    have hlast : ((body.drop (i * msg.writeChunkSize.toNat)).take len).length = len := by
      rw [List.length_take, List.length_drop]
      omega
    rw [if_pos hpos, Written.Counted, hindex]
    dsimp only
    rw [List.length_append, hlast]
    split
    · simp only [Written.append, List.length_append]
      omega
    · omega
  · rw [if_neg hpos, Written.Counted]
    omega

/-- With a chunk size every body is written out and counted. -/
theorem writePayloadWithBody_counted (hsize : msg.writeChunkSize.toNat ≠ 0) (body : List UInt8) :
    ∃ written, msg.writePayloadWithBody body = some written ∧ written.Counted := by
  obtain ⟨i, len, out, hchunks, hlen, -, hbody, hout⟩ :=
    @writeChunks_counted msg body hsize 0 body.length { writed := body.length } (by omega)
      (Nat.zero_add _)
  exact ⟨msg.writeLast body out len, by rw [writePayloadWithBody, hchunks]; rfl,
    writeLast_counted hlen hbody hout⟩

end RtmpMessage

end Rtmp
