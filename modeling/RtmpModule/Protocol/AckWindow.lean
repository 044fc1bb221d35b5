import RtmpModule.Library.History
import RtmpModule.Protocol.Progress

/-!
# The acknowledgement window

`parse` counts the bytes it reports and queues an Acknowledgement when the count has
reached a threshold. The threshold is kept by adding and subtracting window sizes, and
every message that sets the window moves it in the middle of a call. With `acked` for
the count at the last Acknowledgement, the threshold is `acked` plus the window size
after every round of every call, as long as the 64-bit sum does not wrap around.
-/

namespace Rtmp

open AMF0Serializer

namespace RtmpParser

/-- The accounting of a parser that last queued an Acknowledgement at a count `acked`. -/
structure Windowed (p : RtmpParser) (acked : UInt64) : Prop where
  next : p.nextAckSendSize.toNat = acked.toNat + p.winAckSize.toNat
  le : acked.toNat ≤ p.readedBytesCount.toNat
  inWindow : p.readBytesCountInWindow.toNat = p.readedBytesCount.toNat - acked.toNat
  fits : p.readedBytesCount.toNat ≤ 2 ^ 64 - 2 ^ 32

variable {p : RtmpParser} {acked : UInt64}

namespace Windowed

theorem initial : Windowed {} 0 where
  next := rfl
  le := le_rfl
  inWindow := rfl
  fits := by decide

/-- Taking the window off the threshold does not underflow. -/
theorem win_le (h : Windowed p acked) :
    p.winAckSize.toUInt64.toNat ≤ p.nextAckSendSize.toNat := by
  rw [h.next, UInt32.toNat_toUInt64]
  exact Nat.le_add_left _ _

theorem setWinAckSize (h : Windowed p acked) (size : UInt32) :
    Windowed (p.setWinAckSize size) acked where
  next := by
    have hsub : (p.nextAckSendSize - p.winAckSize.toUInt64).toNat = acked.toNat := by
      rw [UInt64.toNat_sub_of_le _ _ (UInt64.le_iff_toNat_le.mpr h.win_le), h.next,
        UInt32.toNat_toUInt64, Nat.add_sub_cancel]
    have hle := h.le
    have hfits := h.fits
    have hsize := size.toNat_lt
    show (p.nextAckSendSize - p.winAckSize.toUInt64 + size.toUInt64).toNat =
      acked.toNat + size.toNat
    rw [UInt64.toNat_add, hsub, UInt32.toNat_toUInt64, Nat.mod_eq_of_lt (by omega)]
  le := h.le
  inWindow := h.inWindow
  fits := h.fits

theorem core (h : Windowed p acked) (c : ParserCore) :
    Windowed { p with toParserCore := c } acked where
  next := h.next
  le := h.le
  inWindow := h.inWindow
  fits := h.fits

/-- A round may change the window; it leaves the counts alone. -/
theorem afterRound (h : Windowed p acked) (r : ParserCore.Round) :
    Windowed (p.afterRound r) acked := by
  unfold RtmpParser.afterRound
  split
  · exact (h.core r.core).setWinAckSize _
  · exact h.core r.core

theorem readedBytesCount_afterRound (r : ParserCore.Round) :
    (p.afterRound r).readedBytesCount = p.readedBytesCount := by
  unfold RtmpParser.afterRound
  split <;> rfl

theorem readedBytesCount_parsePrivate (uninit : Uninit) (stream : List UInt8)
    (bufSize total : Nat) :
    (p.parsePrivate uninit stream bufSize total).parser.readedBytesCount = p.readedBytesCount := by
  fun_induction RtmpParser.parsePrivate p uninit stream bufSize total with
  | case1 p stream bufSize total r hr ih =>
      rw [ih]
      exact readedBytesCount_afterRound r
  | case2 p stream bufSize total r result hr => exact readedBytesCount_afterRound r

theorem parsePrivate (h : Windowed p acked) (uninit : Uninit) (stream : List UInt8)
    (bufSize total : Nat) :
    Windowed (p.parsePrivate uninit stream bufSize total).parser acked := by
  fun_induction RtmpParser.parsePrivate p uninit stream bufSize total with
  | case1 p stream bufSize total r hr ih => exact ih (h.afterRound r)
  | case2 p stream bufSize total r result hr => exact h.afterRound r

/-- The count at the last Acknowledgement after what a call pushed. -/
def ackedAfter (acked : UInt64) (p : RtmpParser) (pushed : List RtmpMessage) : UInt64 :=
  if pushed = [] then acked else p.readedBytesCount

section CountReaded

variable {n : Nat}

theorem toNat_add_ofNat {count : UInt64} (h : count.toNat + n < 2 ^ 64) :
    (count + UInt64.ofNat n).toNat = count.toNat + n := by
  rw [UInt64.toNat_add, UInt64.toNat_ofNat', Nat.mod_eq_of_lt (show n < 2 ^ 64 by omega),
    Nat.mod_eq_of_lt h]

theorem readedBytesCount_countReaded (hfits : p.readedBytesCount.toNat + n < 2 ^ 64) :
    (p.countReaded n).1.readedBytesCount.toNat = p.readedBytesCount.toNat + n := by
  unfold RtmpParser.countReaded
  split
  · dsimp only
    split <;> exact toNat_add_ofNat hfits
  · rename_i hzero
    obtain rfl : n = 0 := by omega
    rfl

theorem winAckSize_countReaded : (p.countReaded n).1.winAckSize = p.winAckSize := by
  unfold RtmpParser.countReaded
  split
  · dsimp only
    split <;> rfl
  · rfl

theorem pushed_countReaded :
    (p.countReaded n).2 = [] ∨ (p.countReaded n).2 = [.acknowledgement p.winAckSize] := by
  unfold RtmpParser.countReaded
  split
  · dsimp only
    split
    · exact .inr rfl
    · exact .inl rfl
  · exact .inl rfl

/-- The threshold is reached when the bytes since the last Acknowledgement fill the window. -/
theorem next_le_iff (h : Windowed p acked)
    (hfits : p.readedBytesCount.toNat + n ≤ 2 ^ 64 - 2 ^ 32) :
    p.nextAckSendSize ≤ p.readedBytesCount + UInt64.ofNat n ↔
      p.winAckSize.toNat ≤ p.readedBytesCount.toNat + n - acked.toNat := by
  have hle := h.le
  rw [UInt64.le_iff_toNat_le, toNat_add_ofNat (by omega), h.next]
  omega

/-- An Acknowledgement is queued when bytes were counted and the window is full. -/
theorem pushed_ne_nil_iff (h : Windowed p acked)
    (hfits : p.readedBytesCount.toNat + n ≤ 2 ^ 64 - 2 ^ 32) :
    (p.countReaded n).2 ≠ [] ↔
      0 < n ∧ p.winAckSize.toNat ≤ p.readedBytesCount.toNat + n - acked.toNat := by
  rw [← h.next_le_iff hfits]
  unfold RtmpParser.countReaded
  split
  · rename_i hn
    dsimp only
    split <;> simp_all
  · rename_i hn
    simp [hn]

theorem countReaded (h : Windowed p acked)
    (hfits : p.readedBytesCount.toNat + n ≤ 2 ^ 64 - 2 ^ 32) :
    Windowed (p.countReaded n).1
      (ackedAfter acked (p.countReaded n).1 (p.countReaded n).2) := by
  have hcount : (p.readedBytesCount + UInt64.ofNat n).toNat = p.readedBytesCount.toNat + n :=
    toNat_add_ofNat (by omega)
  have hle := h.le
  have hin := h.inWindow
  unfold RtmpParser.countReaded
  split
  · dsimp only
    split
    · -- the Acknowledgement is queued
      have hwin := p.winAckSize.toNat_lt
      refine ⟨?_, le_rfl, ?_, ?_⟩
      · show (p.readedBytesCount + UInt64.ofNat n + p.winAckSize.toUInt64).toNat =
          (p.readedBytesCount + UInt64.ofNat n).toNat + p.winAckSize.toNat
        rw [UInt64.toNat_add, hcount, UInt32.toNat_toUInt64, Nat.mod_eq_of_lt (by omega)]
      · show (0 : UInt64).toNat = _ - _
        exact (Nat.sub_self _).symm
      · show (p.readedBytesCount + UInt64.ofNat n).toNat ≤ 2 ^ 64 - 2 ^ 32
        omega
    · refine ⟨h.next, ?_, ?_, ?_⟩
      · show acked.toNat ≤ (p.readedBytesCount + UInt64.ofNat n).toNat
        omega
      · show (p.readBytesCountInWindow + UInt64.ofNat n).toNat =
          (p.readedBytesCount + UInt64.ofNat n).toNat - acked.toNat
        rw [toNat_add_ofNat (by omega), hcount]
        omega
      · show (p.readedBytesCount + UInt64.ofNat n).toNat ≤ 2 ^ 64 - 2 ^ 32
        omega
  · exact h

end CountReaded

end Windowed

/-- A call that returns has counted what `parse_private` reports. -/
theorem parse_of_ok {uninit : Uninit} {stream : List UInt8} {bufSize : Nat} {result : Tribool}
    (h : (p.parse uninit stream bufSize).result = .ok result) :
    p.parse uninit stream bufSize =
      { p.parsePrivate uninit stream bufSize with
        parser := ((p.parsePrivate uninit stream bufSize).parser.countReaded
          (p.parsePrivate uninit stream bufSize).totalReadedSize).1
        pushed := ((p.parsePrivate uninit stream bufSize).parser.countReaded
          (p.parsePrivate uninit stream bufSize).totalReadedSize).2 } := by
  rw [(p.parse_eq uninit stream bufSize).1] at h
  unfold parse
  dsimp only
  rw [h]

/-- A call that returns ends with counting, on a parser with the same accounting. -/
theorem Windowed.parse (h : Windowed p acked) {uninit : Uninit} {stream : List UInt8}
    {bufSize : Nat} {result : Tribool}
    (hresult : (p.parse uninit stream bufSize).result = .ok result) :
    ∃ q, Windowed q acked ∧ q.readedBytesCount = p.readedBytesCount ∧
      (p.parse uninit stream bufSize).parser =
        (q.countReaded (p.parse uninit stream bufSize).totalReadedSize).1 ∧
      (p.parse uninit stream bufSize).pushed =
        (q.countReaded (p.parse uninit stream bufSize).totalReadedSize).2 := by
  rw [parse_of_ok hresult]
  exact ⟨_, h.parsePrivate uninit stream bufSize 0,
    readedBytesCount_parsePrivate uninit stream bufSize 0, rfl, rfl⟩

/-- The parser before a round of a call. -/
inductive AtRound (uninit : Uninit) : RtmpParser → List UInt8 → Nat → RtmpParser → Prop
  | first (p : RtmpParser) (stream : List UInt8) (bufSize : Nat) :
      AtRound uninit p stream bufSize p
  | later {p q : RtmpParser} {stream : List UInt8} {bufSize : Nat}
      (hr : (p.round uninit stream bufSize).returns = none)
      (h : AtRound uninit (p.afterRound (p.round uninit stream bufSize))
        (p.round uninit stream bufSize).stream
        (bufSize - (p.round uninit stream bufSize).readedSize) q) :
      AtRound uninit p stream bufSize q

theorem Windowed.atRound (h : Windowed p acked) {uninit : Uninit} {stream : List UInt8}
    {bufSize : Nat} {q : RtmpParser} (hq : AtRound uninit p stream bufSize q) :
    Windowed q acked := by
  induction hq with
  | first p stream bufSize => exact h
  | later hr _ ih => exact ih (h.afterRound _)

end RtmpParser

/-- A run of calls of `parse`: the parser, its count when it last queued an Acknowledgement,
and the bytes all calls have counted. -/
structure AckRun where
  parser : RtmpParser := {}
  acked : UInt64 := 0
  counted : Nat := 0

namespace AckRun

/-- A call of `parse` with a stream and a `buf_size`; an exception ends the run. -/
def call (uninit : Uninit) (s : AckRun) (input : List UInt8 × Nat) : Except Fault AckRun :=
  let r := s.parser.parse uninit input.1 input.2
  match r.result with
  | .error fault => .error fault
  | .ok _ => .ok
      { parser := r.parser
        acked := RtmpParser.Windowed.ackedAfter s.acked r.parser r.pushed
        counted := s.counted + r.totalReadedSize }

def run (uninit : Uninit) (inputs : List (List UInt8 × Nat)) : Except Fault AckRun :=
  History.run (call uninit) {} inputs

variable {uninit : Uninit} {s s' : AckRun} {input : List UInt8 × Nat}

theorem call_ok (h : s.call uninit input = .ok s') :
    ∃ result, (s.parser.parse uninit input.1 input.2).result = .ok result ∧
      s' =
        { parser := (s.parser.parse uninit input.1 input.2).parser
          acked := RtmpParser.Windowed.ackedAfter s.acked
            (s.parser.parse uninit input.1 input.2).parser
            (s.parser.parse uninit input.1 input.2).pushed
          counted := s.counted + (s.parser.parse uninit input.1 input.2).totalReadedSize } := by
  unfold call at h
  dsimp only at h
  split at h
  · cases h
  · rename_i result hresult
    cases h
    exact ⟨result, hresult, rfl⟩

/-- The accounting of a run that has not counted too much. -/
def Sound (s : AckRun) : Prop :=
  s.counted ≤ 2 ^ 64 - 2 ^ 32 →
    s.parser.Windowed s.acked ∧ s.parser.readedBytesCount.toNat = s.counted

theorem Sound.call (hs : s.Sound) (h : s.call uninit input = .ok s') : s'.Sound := by
  obtain ⟨result, hresult, rfl⟩ := call_ok h
  intro hfits
  obtain ⟨hwindowed, hcount⟩ := hs (Nat.le_trans (Nat.le_add_right _ _) hfits)
  obtain ⟨q, hq, hreaded, hparser, hpushed⟩ := hwindowed.parse hresult
  dsimp only at hfits ⊢
  rw [← hcount, ← hreaded] at hfits ⊢
  rw [hparser, hpushed]
  constructor
  · exact hq.countReaded hfits
  · exact RtmpParser.Windowed.readedBytesCount_countReaded (by omega)

theorem run_sound {inputs : List (List UInt8 × Nat)} (h : run uninit inputs = .ok s) : s.Sound :=
  History.run_invariant (fun _ _ _ hs hcall => hs.call hcall)
    (fun _ => ⟨RtmpParser.Windowed.initial, rfl⟩) h

end AckRun

section Window

variable (uninit : Uninit)

/-- While at most 2^64 - 2^32 bytes have been counted, the threshold is the count at the last
Acknowledgement plus the window, no change of the window underflows it, the count in the window
starts at the last Acknowledgement, and a call queues an Acknowledgement exactly when it
counted a byte and the window it leaves is full. -/
theorem ack_window (inputs : List (List UInt8 × Nat)) (s : AckRun)
    (hrun : AckRun.run uninit inputs = .ok s) (hfits : s.counted ≤ 2 ^ 64 - 2 ^ 32) :
    s.parser.nextAckSendSize.toNat = s.acked.toNat + s.parser.winAckSize.toNat ∧
    s.acked.toNat ≤ s.parser.readedBytesCount.toNat ∧
    s.parser.readBytesCountInWindow.toNat =
      s.parser.readedBytesCount.toNat - s.acked.toNat ∧
    ∀ stream bufSize,
      (∀ q, RtmpParser.AtRound uninit s.parser stream bufSize q →
        q.winAckSize.toUInt64 ≤ q.nextAckSendSize) ∧
      ∀ s', s.call uninit (stream, bufSize) = .ok s' → s'.counted ≤ 2 ^ 64 - 2 ^ 32 →
        ((s.parser.parse uninit stream bufSize).pushed = [] ∨
          (s.parser.parse uninit stream bufSize).pushed =
            [.acknowledgement s'.parser.winAckSize]) ∧
        ((s.parser.parse uninit stream bufSize).pushed ≠ [] ↔
          0 < (s.parser.parse uninit stream bufSize).totalReadedSize ∧
            s'.parser.winAckSize.toNat ≤
              s'.parser.readedBytesCount.toNat - s.acked.toNat) := by
  obtain ⟨hwindowed, hcount⟩ := AckRun.run_sound hrun hfits
  refine ⟨hwindowed.next, hwindowed.le, hwindowed.inWindow, ?_⟩
  intro stream bufSize
  constructor
  · intro q hq
    exact UInt64.le_iff_toNat_le.mpr (hwindowed.atRound hq).win_le
  · intro s' hcall hfits'
    obtain ⟨result, hresult, rfl⟩ := AckRun.call_ok hcall
    obtain ⟨q, hq, hreaded, hparser, hpushed⟩ := hwindowed.parse hresult
    dsimp only at hfits' hparser hpushed ⊢
    rw [← hcount, ← hreaded] at hfits'
    rw [hparser, hpushed, RtmpParser.Windowed.winAckSize_countReaded,
      RtmpParser.Windowed.readedBytesCount_countReaded (by omega)]
    constructor
    · exact RtmpParser.Windowed.pushed_countReaded
    · exact hq.pushed_ne_nil_iff hfits'

/-- A WindowAcknowledgementSize message with a window of ten bytes. -/
def tenByteWindow : List UInt8 := [0x02, 0, 0, 0, 0, 0, 4, 0x05, 0, 0, 0, 0, 0, 0, 0, 10]

/-- The message that sets the window fills it. -/
theorem ack_window_ten :
    ∃ s, AckRun.run (fun _ => 0) [(tenByteWindow, 16)] = .ok s ∧
      s.parser.nextAckSendSize.toNat = s.acked.toNat + s.parser.winAckSize.toNat ∧
      (s.parser.winAckSize, s.acked) = (10, 16) := by
  obtain ⟨s, hs⟩ : ∃ s, AckRun.run (fun _ => 0) [(tenByteWindow, 16)] = .ok s :=
    History.exists_ok (by decide +kernel)
  have hview : (AckRun.run (fun _ => 0) [(tenByteWindow, 16)]).toOption.map (fun s =>
      (s.counted, s.parser.winAckSize, s.acked)) = some (16, 10, 16) := by
    decide +kernel
  rw [hs] at hview
  simp only [Except.toOption, Option.map_some, Option.some.injEq, Prod.mk.injEq] at hview
  obtain ⟨hcounted, hwin, hacked⟩ := hview
  have hwindow := ack_window (fun _ => 0) _ s hs (by rw [hcounted]; decide)
  exact ⟨s, hs, hwindow.1, by rw [hwin, hacked]⟩

end Window

/-- In the middle of a message on chunk stream 4, with a chunk size of 0. -/
structure ParserCore.Idle (c : ParserCore) : Prop where
  parsingState : c.parsingState = .payloadParsing
  header : c.headerParser.parsingState = .basicHeader1byte
  chunkStreamId : c.parsedHeader.chunkStreamId = 4
  chunkSize : c.payloadParser.recvChunkSize = 0
  message : ∃ info, c.payloadParser.incompleteInfos 4 = some info ∧
    RtmpPayloadParser.needSize info ≠ 0

namespace ParserCore

variable {c : ParserCore} {bufSize : Nat}

/-- A chunk of the message brings nothing and leaves the parser idle but for its state. -/
theorem Idle.payloadRound (h : c.Idle) (uninit : Uninit) (hbuf : bufSize ≠ 0)
    (stream : List UInt8) :
    ∃ payloadParser, c.round uninit stream bufSize =
        { core := { c with payloadParser, parsingState := .headerParsing }, stream } ∧
      payloadParser.recvChunkSize = 0 ∧
      ∃ info, payloadParser.incompleteInfos 4 = some info ∧
        RtmpPayloadParser.needSize info ≠ 0 := by
  obtain ⟨info, hinfo, hneed⟩ := h.message
  have hfind : c.payloadParser.findOrStart c.parsedHeader = (.ok info, c.payloadParser) := by
    rw [RtmpPayloadParser.findOrStart, h.chunkStreamId, hinfo]
  have hsize : c.payloadParser.thisMsgSize info = 0 := by
    rw [RtmpPayloadParser.thisMsgSize, h.chunkSize]
    split
    · rfl
    · rename_i hle
      exact UInt32.le_zero_iff.mp (UInt32.not_lt.mp hle)
  have hlast : ¬ (0 = RtmpPayloadParser.needSize info) := fun hzero => hneed hzero.symm
  refine ⟨c.payloadParser.setInfo 4 (some info), ?_, h.chunkSize, info, ?_, hneed⟩
  · rw [round_payloadParsing h.parsingState, ParserCore.payloadRound, if_neg hbuf,
      RtmpPayloadParser.parsePayload_of_le hfind (by simp [hsize])]
    simp [hsize, hlast, RtmpPayloadParser.finishChunk, h.chunkStreamId]
  · simp [RtmpPayloadParser.setInfo]

/-- The header of the next chunk is one byte. -/
theorem headerRound_continuation (hc : c.parsingState = .headerParsing)
    (hheader : c.headerParser.parsingState = .basicHeader1byte) (uninit : Uninit)
    (stream : List UInt8) (bufSize : Nat) :
    ∃ parsedMsg, c.round uninit (0xC4 :: stream) (bufSize + 1) =
        { core := { c with
            headerParser := ⟨.basicHeader1byte, parsedMsg⟩
            parsingState := .payloadParsing }
          stream, readedSize := 1 } ∧
      parsedMsg.chunkStreamId = 4 := by
  have hfirst : c.headerParser.parseInCurrentState (0xC4 :: stream) (bufSize + 1) =
      { result := .true
        parser := ⟨.chunkMsgHeaderType3, { c.headerParser.parsedMsg with
          formatType := .continuation, chunkStreamId := 4 }⟩
        stream, readedSize := 1 } := by
    simp only [RtmpHeaderParser.parseInCurrentState, hheader]
    rw [RtmpHeaderParser.parseBasicHeader1byte, if_pos (by omega), StreamUtil.readUchar_cons]
    rfl
  refine ⟨{ c.headerParser.parsedMsg with formatType := .continuation, chunkStreamId := 4 },
    ?_, rfl⟩
  have hparse : c.headerParser.parseHeader (0xC4 :: stream) (bufSize + 1) =
      { result := .true
        parser := ⟨.basicHeader1byte, { c.headerParser.parsedMsg with
          formatType := .continuation, chunkStreamId := 4 }⟩
        stream, readedSize := 1 } := by
    rw [RtmpHeaderParser.parseHeader_of_true (by simp [hheader]) (by rw [hfirst]), hfirst]
    dsimp only
    rw [RtmpHeaderParser.parseHeader_of_true (by simp) rfl]
    show RtmpHeaderParser.parseHeader ⟨.complete, _⟩ _ _ _ = _
    rw [RtmpHeaderParser.parseHeader_of_complete rfl]
    simp [hheader, RtmpHeaderParser.ParsingState.size]
  rw [round_headerParsing hc, headerRound, if_neg (by omega), hparse]

end ParserCore

/-- Idle chunks are read to the end, one byte each. -/
theorem RtmpParser.parsePrivate_idle (uninit : Uninit) {p : RtmpParser} (h : p.Idle)
    (n total : Nat) :
    ∃ core : ParserCore, core.Idle ∧
      p.parsePrivate uninit (List.replicate n 0xC4) n total =
        { result := .ok .indeterminate, parser := { p with toParserCore := core }, stream := [],
          totalReadedSize := total + n } := by
  induction n generalizing p total with
  | zero =>
      have hround : p.round uninit [] 0 =
          { returns := some (.ok .indeterminate), core := p.toParserCore, stream := [] } := by
        rw [ParserCore.round, h.parsingState]
        rfl
      refine ⟨p.toParserCore, h, ?_⟩
      rw [List.replicate_zero, parsePrivate_of_some (by rw [hround]), hround]
      rfl
  | succ n ih =>
      obtain ⟨payloadParser, hpayload, hsize, hmessage⟩ :=
        h.payloadRound uninit (Nat.succ_ne_zero n) (List.replicate (n + 1) 0xC4)
      let p₁ : RtmpParser := { p with
        toParserCore := { p.toParserCore with payloadParser, parsingState := .headerParsing } }
      obtain ⟨parsedMsg, hheader, hid⟩ := ParserCore.headerRound_continuation
        (show p₁.parsingState = .headerParsing from rfl) h.header uninit (List.replicate n 0xC4) n
      let p₂ : RtmpParser := { p₁ with
        toParserCore := { p₁.toParserCore with
          headerParser := ⟨.basicHeader1byte, parsedMsg⟩, parsingState := .payloadParsing } }
      have hidle : p₂.Idle := ⟨rfl, rfl, hid, hsize, hmessage⟩
      obtain ⟨core, hcore, hrest⟩ := ih hidle (total + 1)
      refine ⟨core, hcore, ?_⟩
      calc p.parsePrivate uninit (List.replicate (n + 1) 0xC4) (n + 1) total
          = p₁.parsePrivate uninit (List.replicate (n + 1) 0xC4) (n + 1) total := by
            rw [parsePrivate_of_none (by rw [hpayload]), hpayload]
            rfl
        _ = p₂.parsePrivate uninit (List.replicate n 0xC4) n (total + 1) := by
            rw [List.replicate_succ, parsePrivate_of_none (by rw [hheader]), hheader]
            rfl
        _ = _ := by
            rw [hrest, Nat.add_assoc, Nat.add_comm 1 n]

/-- A call that reaches the threshold. -/
theorem RtmpParser.countReaded_of_le {p : RtmpParser} {n : Nat} (hn : 0 < n)
    (h : p.nextAckSendSize ≤ p.readedBytesCount + UInt64.ofNat n) :
    p.countReaded n =
      ({ p with
          readedBytesCount := p.readedBytesCount + UInt64.ofNat n
          nextAckSendSize := p.readedBytesCount + UInt64.ofNat n + p.winAckSize.toUInt64
          readBytesCountInWindow := 0 },
        [.acknowledgement p.winAckSize]) := by
  unfold countReaded
  rw [if_pos hn]
  dsimp only
  rw [if_pos h]

/-- A call that reads idle chunks counts them. -/
theorem RtmpParser.parse_idle (uninit : Uninit) {p : RtmpParser} (h : p.Idle) (n : Nat) :
    ∃ core : ParserCore, core.Idle ∧
      p.parse uninit (List.replicate n 0xC4) n =
        { result := .ok .indeterminate
          parser := (({ p with toParserCore := core } : RtmpParser).countReaded n).1, stream := []
          totalReadedSize := n
          pushed := (({ p with toParserCore := core } : RtmpParser).countReaded n).2 } := by
  obtain ⟨core, hcore, hprivate⟩ := parsePrivate_idle uninit h n 0
  rw [Nat.zero_add] at hprivate
  refine ⟨core, hcore, ?_⟩
  have hresult : (p.parse uninit (List.replicate n 0xC4) n).result = .ok .indeterminate := by
    rw [(p.parse_eq uninit _ n).1, hprivate]
  rw [parse_of_ok hresult, hprivate]

/-- A SetChunkSize message with the size 0, the header of an audio message of one byte, and
the header of its second chunk. -/
def idleReads : List (List UInt8 × Nat) :=
  [([0x02, 0, 0, 0, 0, 0, 4, 0x01, 0, 0, 0, 0, 0, 0, 0, 0], 16),
    ([0x04, 0, 0, 0, 0, 0, 1, 0x08, 1, 0, 0, 0], 12), ([0xC4], 1)]

theorem idleReads_run :
    ∃ s, AckRun.run (fun _ => 0) idleReads = .ok s ∧ s.parser.Idle ∧
      s.parser.readedBytesCount = 29 ∧ s.parser.winAckSize = 5000000 ∧
      s.parser.nextAckSendSize = 5000000 := by
  obtain ⟨s, hs⟩ : ∃ s, AckRun.run (fun _ => 0) idleReads = .ok s :=
    History.exists_ok (by decide +kernel)
  have hcounts : (AckRun.run (fun _ => 0) idleReads).toOption.map (fun s =>
      (s.parser.readedBytesCount, s.parser.winAckSize, s.parser.nextAckSendSize)) =
      some (29, 5000000, 5000000) := by
    decide +kernel
  have hstates : (AckRun.run (fun _ => 0) idleReads).toOption.map (fun s =>
      (s.parser.parsingState, s.parser.headerParser.parsingState)) =
      some (.payloadParsing, .basicHeader1byte) := by
    decide +kernel
  have hchunk : (AckRun.run (fun _ => 0) idleReads).toOption.map (fun s =>
      (s.parser.parsedHeader.chunkStreamId, s.parser.payloadParser.recvChunkSize,
        (s.parser.payloadParser.incompleteInfos 4).map RtmpPayloadParser.needSize)) =
      some (4, 0, some 1) := by
    decide +kernel
  rw [hs] at hcounts hstates hchunk
  simp only [Except.toOption, Option.map_some, Option.some.injEq, Prod.mk.injEq] at hcounts
  simp only [Except.toOption, Option.map_some, Option.some.injEq, Prod.mk.injEq] at hstates
  simp only [Except.toOption, Option.map_some, Option.some.injEq, Prod.mk.injEq] at hchunk
  obtain ⟨hreaded, hwin, hnext⟩ := hcounts
  obtain ⟨hstate, hheader⟩ := hstates
  obtain ⟨hid, hsize, hmessage⟩ := hchunk
  obtain ⟨info, hinfo, hneed⟩ := Option.map_eq_some_iff.mp hmessage
  exact ⟨s, hs, ⟨hstate, hheader, hid, hsize, info, hinfo, by rw [hneed]; decide⟩,
    hreaded, hwin, hnext⟩

/-- Past 2^64 - 5000000 counted bytes an Acknowledgement is queued with every byte. -/
theorem ack_before_window :
    ∃ inputs s, AckRun.run (fun _ => 0) inputs = .ok s ∧
      (s.parser.parse (fun _ => 0) [0xC4] 1).pushed ≠ [] ∧
      (s.parser.parse (fun _ => 0) [0xC4] 1).parser.readedBytesCount.toNat - s.acked.toNat <
        (s.parser.parse (fun _ => 0) [0xC4] 1).parser.winAckSize.toNat := by
  obtain ⟨s, hs, hidle, hreaded, hwin, hnext⟩ := idleReads_run
  obtain ⟨n, hn⟩ : ∃ n, UInt64.ofNat n = 18446744073709551577 := ⟨18446744073709551577, rfl⟩
  have hpos : 0 < n := by
    rcases Nat.eq_zero_or_pos n with rfl | hpos
    · exact absurd hn (by decide)
    · exact hpos
  obtain ⟨core, hcore, hparse⟩ := RtmpParser.parse_idle (fun _ => 0) hidle n
  have hle : s.parser.nextAckSendSize ≤ s.parser.readedBytesCount + UInt64.ofNat n := by
    rw [hn, hreaded, hnext]
    decide
  have hcount := @RtmpParser.countReaded_of_le { s.parser with toParserCore := core } n hpos hle
  have hcall : s.call (fun _ => 0) (List.replicate n 0xC4, n) =
      .ok { parser := { toParserCore := core, readedBytesCount := 29 + 18446744073709551577
                        winAckSize := 5000000
                        nextAckSendSize := 29 + 18446744073709551577 + UInt32.toUInt64 5000000
                        readBytesCountInWindow := 0 }
            acked := 29 + 18446744073709551577, counted := s.counted + n } := by
    unfold AckRun.call
    dsimp only
    rw [hparse, hcount]
    dsimp only
    rw [hn, hreaded, hwin]
    rfl
  refine ⟨_, _, History.run_concat_ok.mpr ⟨s, hs, hcall⟩, ?_⟩
  obtain ⟨core', -, hlast⟩ := RtmpParser.parse_idle (fun _ => 0)
    (show ParserCore.Idle (RtmpParser.toParserCore
      { toParserCore := core, readedBytesCount := 29 + 18446744073709551577
        winAckSize := 5000000
        nextAckSendSize := 29 + 18446744073709551577 + UInt32.toUInt64 5000000
        readBytesCountInWindow := 0 }) from hcore) 1
  have hwrapped : 29 + 18446744073709551577 + UInt32.toUInt64 5000000 ≤
      29 + 18446744073709551577 + UInt64.ofNat 1 := by
    decide
  have hshort : (29 + 18446744073709551577 + UInt64.ofNat 1).toNat -
      (29 + 18446744073709551577 : UInt64).toNat < (5000000 : UInt32).toNat := by
    decide
  dsimp only at hlast ⊢
  rw [List.replicate_one, RtmpParser.countReaded_of_le Nat.one_pos hwrapped] at hlast
  rw [hlast]
  exact ⟨List.cons_ne_nil _ _, hshort⟩

end Rtmp
