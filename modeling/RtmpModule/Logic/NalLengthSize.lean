import RtmpModule.Logic.EsRuns

/-!
# The announced size of NAL lengths

An AVC sequence header announces in how many bytes the NAL units of its stream have
their lengths. The size is kept in the context and stays there until the next header,
but the conversion to start codes is always called with a size of 4. So a stream with
shorter lengths comes out wrong: what is read as the first length ends inside a NAL
unit, or covers several of them.
-/

namespace Rtmp

open FlvUtil ParsingFlv EsCall
open RtmpHandler (granting grantingJson)

/-- NAL units unchanged and in order, each behind a start code in place of a length of `n`
bytes, which may be longer than the length was. -/
inductive StartCoded (n : Nat) : List (List UInt8) → List UInt8 → Prop
  | nil : StartCoded n [] []
  | cons {zeros : Nat} {nal data : List UInt8} {nals : List (List UInt8)}
      (hzeros : n ≤ zeros + 1) (h : StartCoded n nals data) :
      StartCoded n (nal :: nals) (List.replicate zeros 0x00 ++ [0x01] ++ (nal ++ data))

namespace StartCoded

variable {n k : Nat} {nal data : List UInt8} {nals : List (List UInt8)}

theorem tsNals (nals : List (List UInt8)) :
    StartCoded (k + 1) nals (ParsingFlv.tsNals (k + 1) nals) := by
  induction nals with
  | nil => exact .nil
  | cons nal nals ih =>
      have h := @StartCoded.cons (k + 1) k nal _ nals (Nat.le_refl _) ih
      rw [← List.append_assoc] at h
      exact h

theorem length_mp4Nals_cons :
    (mp4Nals n (nal :: nals)).length = n + nal.length + (mp4Nals n nals).length := by
  simp only [mp4Nals, List.flatMap_cons, List.length_append, Bytes.length_toBE]

/-- Start codes are not shorter than the lengths were. -/
theorem length_le (h : StartCoded n nals data) : (mp4Nals n nals).length ≤ data.length := by
  induction h with
  | nil => exact Nat.zero_le _
  | cons hzeros _ ih =>
      rw [length_mp4Nals_cons]
      simp only [List.length_append, List.length_replicate, List.length_singleton]
      omega

theorem three_le_zeros {zeros : Nat} {left : List UInt8}
    (h : 0 :: 0 :: 0 :: 1 :: data = List.replicate zeros 0x00 ++ [0x01] ++ left) : 3 ≤ zeros := by
  match zeros with
  | 0 => cases h
  | 1 => cases h
  | 2 => cases h
  | zeros + 3 => omega

/-- A first start code of four bytes in place of a shorter length. -/
theorem length_lt (hn : n < 4) (h : StartCoded n (nal :: nals) (0 :: 0 :: 0 :: 1 :: data)) :
    (mp4Nals n (nal :: nals)).length < (0 :: 0 :: 0 :: 1 :: data).length := by
  generalize hcoded : 0 :: 0 :: 0 :: 1 :: data = coded at h
  cases h with
  | cons _ h =>
      have hzeros := three_le_zeros hcoded
      have hle := h.length_le
      rw [length_mp4Nals_cons]
      simp only [List.length_append, List.length_replicate, List.length_singleton]
      omega

end StartCoded

/-- What the conversion accepts is a list of NAL units behind lengths of four bytes. -/
theorem replaceNalu_four_ok {es data : List UInt8}
    (h : replaceNaluStartCodeFromMp4ToTs 4 es = .ok data) :
    ∃ nals, es = mp4Nals 4 nals ∧ data = tsNals 4 nals ∧ data.length = es.length := by
  have hfrom := h
  rw [@replaceNalu_succ 3 4 rfl] at hfrom
  obtain ⟨nals, hnals, rfl⟩ := nals_of_replaceFrom (by decide) hfrom
  obtain rfl : data = tsNals 4 nals := Except.ok.inj (h.symm.trans (replaceNalu_four hnals))
  exact ⟨nals, rfl, rfl, length_tsNals 3 nals⟩

/-- The conversion with a size of 4 is right for no other size. -/
theorem converted_iff {n : Nat} {nals : List (List UInt8)} (hpos : 1 ≤ n) (hn : n ≤ 4)
    (hnals : ∀ nal ∈ nals, nal.length < 256 ^ n) :
    (∃ data, replaceNaluStartCodeFromMp4ToTs 4 (mp4Nals n nals) = .ok data ∧
      StartCoded n nals data) ↔ n = 4 ∨ nals = [] := by
  constructor
  · rintro ⟨data, hdata, hcoded⟩
    match nals with
    | [] => exact .inr rfl
    | nal :: nals =>
      obtain ⟨nals', hes, rfl, hlength⟩ := replaceNalu_four_ok hdata
      left
      by_contra hne
      match nals' with
      | [] =>
          have hempty := congrArg List.length hes
          rw [StartCoded.length_mp4Nals_cons] at hempty
          change _ = 0 at hempty
          omega
      | nal' :: nals' =>
          have hlt := hcoded.length_lt (by omega)
          exact absurd hlength (Nat.ne_of_gt hlt)
  · rintro (rfl | rfl)
    · exact ⟨_, replaceNalu_four hnals, StartCoded.tsNals nals⟩
    · exact ⟨[], @replaceNalu_four [] (by simp), .nil⟩

/-- A NALU message is queued with its NAL units behind start codes, their lengths of `n` bytes
replaced. -/
def QueuedStartCoded (context : MediaPublishEsContext) (timestamp : UInt64) (frameType : Fin 16)
    (cts : Fin (2 ^ 24)) (n : Nat) (nals : List (List UInt8)) : Prop :=
  ∃ r es, processFlvEsMessage context 9 timestamp (naluMessage frameType cts (mp4Nals n nals)) =
      .ok r ∧
    r.ret = true ∧ r.context.mediaEs = context.mediaEs ++ [es] ∧ es.type = .video ∧
    StartCoded n nals es.data

section Messages

variable {context : MediaPublishEsContext} {timestamp : UInt64} {frameType : Fin 16}
variable {cts : Fin (2 ^ 24)} {n : Nat} {nals : List (List UInt8)}

/-- Behind the gate the conversion decides. -/
theorem queuedStartCoded_iff (hgate : PassesGate context frameType) :
    QueuedStartCoded context timestamp frameType cts n nals ↔
      ∃ data, replaceNaluStartCodeFromMp4ToTs 4 (mp4Nals n nals) = .ok data ∧
        StartCoded n nals data := by
  constructor
  · rintro ⟨r, es, hr, -, hes, -, hcoded⟩
    match hdata : replaceNaluStartCodeFromMp4ToTs 4 (mp4Nals n nals) with
    | .error fault =>
        rw [process_naluMessage, FlvMessage.processNalu, hdata] at hr
        cases hr
    | .ok data =>
        obtain ⟨r', hr', happends⟩ := @process_gate context timestamp frameType cts _ _ hgate hdata
        obtain ⟨es', hes', -, -, hdata', -⟩ := happends.mediaEs
        rw [hr] at hr'
        cases hr'
        rw [hes] at hes'
        obtain rfl := List.singleton_inj.mp (List.append_cancel_left hes')
        exact ⟨data, rfl, hdata' ▸ hcoded⟩
  · rintro ⟨data, hdata, hcoded⟩
    obtain ⟨r, hr, happends⟩ := @process_gate context timestamp frameType cts _ _ hgate hdata
    obtain ⟨es, hes, htype, -, rfl, -⟩ := happends.mediaEs
    exact ⟨r, es, hr, happends.ret, hes, htype, hcoded⟩

end Messages

section Runs

variable {http : List PublishCall → HttpRequest → HttpResult} {json : List UInt8 → JsonDocument}
variable {p q : Publisher}

theorem lengthSize_toNat (m : EsMessage) : 1 ≤ m.lengthSize.toNat ∧ m.lengthSize.toNat ≤ 4 := by
  have hmod : (m.body.getD 9 0 &&& 0x03).toNat ≤ 3 := by
    rw [UInt8.toNat_and]
    exact Nat.and_le_right
  rw [EsMessage.lengthSize, UInt8.toNat_add]
  change 1 ≤ (_ + 1) % 256 ∧ (_ + 1) % 256 ≤ 4
  omega

/-- Only an AVC sequence header changes the remembered size. -/
theorem EsEffect.nalStartcodeLen {context : MediaPublishEsContext} {m : EsMessage}
    {r : Processed} (heffect : EsEffect context m r) (hm : ¬ m.IsAvcHeader) :
    r.context.nalStartcodeLen = context.nalStartcodeLen := by
  cases heffect with
  | videoInit init size hheader => exact absurd hheader hm
  | _ => rfl

theorem PublishAct.nalStartcodeLen (hact : PublishAct p q) :
    q.context.nalStartcodeLen = p.context.nalStartcodeLen := by
  cases hact <;> rfl

theorem EsCall.step_nalStartcodeLen {call : EsCall}
    (hcall : ∀ m, call = .process m → ¬ m.IsAvcHeader) (hstep : call.step http json p = .ok q) :
    q.context.nalStartcodeLen = p.context.nalStartcodeLen := by
  cases call with
  | process m =>
      obtain ⟨r, hr, rfl⟩ := step_process.mp hstep
      exact (processFlvEsMessage_effect hr).nalStartcodeLen (hcall m rfl)
  | publish =>
      have hact : ∀ s s' : Publisher, s.context.nalStartcodeLen = p.context.nalStartcodeLen →
          PublishAct s s' → s'.context.nalStartcodeLen = p.context.nalStartcodeLen := by
        intro s s' hs hact
        exact hact.nalStartcodeLen.trans hs
      have hkept := PublishAct.run_invariant hact rfl (Publisher.publishToStreamer_acts hstep)
      exact hkept

/-- An accepted header leaves the size it announces in the context. -/
theorem process_lengthSize {context : MediaPublishEsContext} {m : EsMessage} {r : Processed}
    (hm : m.IsAvcHeader)
    (hr : processFlvEsMessage context m.messageType m.timestamp m.body = .ok r)
    (hret : r.ret = true) : r.context.nalStartcodeLen = m.lengthSize := by
  rw [process_avcHeader context m.timestamp hm] at hr
  match hfirst : (getFirstSpsAndFirstPpsFromAvcSequenceHeader 0xFFFF 0xFFFF).run'
      (Cursor.ofData m.body) with
  | .error fault =>
      rw [hfirst] at hr
      cases hr
  | .ok none =>
      rw [hfirst] at hr
      cases hr
      cases hret
  | .ok (some header) =>
      rw [hfirst] at hr
      cases hr
      exact getFirst_lengthSize hfirst

/-- A run from `p` to `q` that starts with an accepted AVC sequence header and has no other. -/
structure BehindHeader (http : List PublishCall → HttpRequest → HttpResult)
    (json : List UInt8 → JsonDocument) (p q : Publisher) (header : EsMessage)
    (later : List EsCall) : Prop where
  isAvcHeader : header.IsAvcHeader
  accepted : ∃ r, processFlvEsMessage p.context header.messageType header.timestamp header.body =
    .ok r ∧ r.ret = true
  only : ∀ m, .process m ∈ later → ¬ m.IsAvcHeader
  run : run http json p (.process header :: later) = .ok q

theorem BehindHeader.nalStartcodeLen {header : EsMessage} {later : List EsCall}
    (h : BehindHeader http json p q header later) :
    q.context.nalStartcodeLen = header.lengthSize := by
  obtain ⟨p', hstep, hrun⟩ := History.run_cons_ok.mp h.run
  obtain ⟨r, hr, rfl⟩ := step_process.mp hstep
  obtain ⟨r', hr', hret⟩ := h.accepted
  obtain rfl : r = r' := Except.ok.inj (hr.symm.trans hr')
  have hkept : ∀ call ∈ later, ∀ s s' : Publisher,
      s.context.nalStartcodeLen = header.lengthSize → step http json s call = .ok s' →
        s'.context.nalStartcodeLen = header.lengthSize := by
    intro call hcall s s' hs hstep
    exact (step_nalStartcodeLen (fun m hm => h.only m (hm ▸ hcall)) hstep).trans hs
  have hsize := process_lengthSize h.isAvcHeader hr hret
  have hlast := History.run_invariant_of_mem hkept hsize hrun
  exact hlast

/-- The size a header announces is remembered, and of no use: only lengths of four bytes are
replaced. -/
theorem lengthSize_iff (http : List PublishCall → HttpRequest → HttpResult)
    (json : List UInt8 → JsonDocument) (p q : Publisher) (header : EsMessage)
    (later : List EsCall) (h : BehindHeader http json p q header later) (timestamp : UInt64)
    (frameType : Fin 16) (cts : Fin (2 ^ 24)) (nals : List (List UInt8))
    (hnals : ∀ nal ∈ nals, nal.length < 256 ^ header.lengthSize.toNat)
    (hgate : PassesGate q.context frameType) :
    q.context.nalStartcodeLen = header.lengthSize ∧
      (QueuedStartCoded q.context timestamp frameType cts header.lengthSize.toNat nals ↔
        header.lengthSize = 4 ∨ nals = []) := by
  obtain ⟨hpos, hle⟩ := lengthSize_toNat header
  refine ⟨h.nalStartcodeLen, ?_⟩
  rw [queuedStartCoded_iff hgate, converted_iff hpos hle hnals]
  change header.lengthSize.toNat = UInt8.toNat 4 ∨ nals = [] ↔ _
  rw [UInt8.toNat_inj]

end Runs

/-- A header that announces lengths of two bytes. -/
def twoByteHeader : EsMessage where
  messageType := 9
  timestamp := 0
  body := [0x17, 0x00, 0x00, 0x00, 0x00, 0x01, 0x42, 0x00, 0x1E, 0xFD, 0xE1, 0x00, 0x02, 0x67,
    0x42, 0x01, 0x00, 0x01, 0x68]

theorem behind_twoByteHeader :
    ∃ q, BehindHeader granting grantingJson {} q twoByteHeader [rawPacket] := by
  obtain ⟨q, hrun⟩ : ∃ q,
      run granting grantingJson {} [.process twoByteHeader, rawPacket] = .ok q :=
    History.exists_ok (by decide +kernel)
  refine ⟨q, ⟨rfl, rfl⟩, ⟨_, rfl, rfl⟩, ?_, hrun⟩
  intro m hm
  rw [List.mem_singleton.mp hm |> EsCall.process.inj]
  rintro ⟨⟨⟩, -⟩

theorem lengthSize_iff_twoByteHeader :
    ∃ q : Publisher, q.context.nalStartcodeLen = twoByteHeader.lengthSize ∧
      (QueuedStartCoded q.context 40 1 0 twoByteHeader.lengthSize.toNat [[], [0x65, 0x88]] ↔
        twoByteHeader.lengthSize = 4 ∨ [[], [0x65, 0x88]] = ([] : List (List UInt8))) := by
  obtain ⟨q, h⟩ := behind_twoByteHeader
  exact ⟨q, lengthSize_iff granting grantingJson {} q twoByteHeader [rawPacket] h 40 1 0
    [[], [0x65, 0x88]] (by decide) (.inl rfl)⟩

/-- Lengths of 0 and 2 in two bytes each are taken for one length of 2. -/
theorem not_queuedStartCoded_twoByteHeader :
    ∃ q, BehindHeader granting grantingJson {} q twoByteHeader [rawPacket] ∧
      twoByteHeader.lengthSize = 2 ∧ PassesGate q.context 1 ∧
      ¬ QueuedStartCoded q.context 40 1 0 2 [[], [0x65, 0x88]] := by
  obtain ⟨q, h⟩ := behind_twoByteHeader
  refine ⟨q, h, rfl, .inl rfl, ?_⟩
  rw [queuedStartCoded_iff (.inl rfl), converted_iff (by decide) (by decide) (by decide)]
  decide

end Rtmp
