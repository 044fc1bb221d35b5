import RtmpModule.Streamer.EsMessages

/-!
# Codec information of an AVC stream

The codec information of a stream is the first SPS and the first PPS of its sequence
header. The parser on the live path reads one SPS and goes on with the number of
PPS, which stands there only when the header has no other SPS. Behind a header with
more, the high byte of the length of the second SPS is taken for it.
-/

namespace Rtmp

open FlvUtil FlvUtil.Cursor ParsingFlv

/-- The first sets of a header are found, and become the codec information. -/
structure FirstSetsTaken (record : AvcRecord) (rest sps pps : List UInt8) : Prop where
  found : ∃ size, (getFirstSpsAndFirstPpsFromAvcSequenceHeader 0xFFFF 0xFFFF).run'
    (ofData (record.encode ++ rest)) = .ok (some ⟨sps, pps, size⟩)
  codecInfo : ∀ (context : MediaPublishEsContext) (timestamp : UInt64),
    ∃ r, processFlvEsMessage context 9 timestamp (record.encode ++ rest) = .ok r ∧
      r.ret = true ∧ r.context.videoInitEs.codecInfo = delimiter ++ sps ++ delimiter ++ pps

/-- What makes up for a second SPS: short ones read as no PPS at all, and behind the high byte
of a long one's length the first PPS would have to follow. -/
def FirstPpsInPlace (record : AvcRecord) (rest pps : List UInt8) : Prop :=
  match record.sps with
  | _ :: second :: more =>
      if second.length < 256 then pps = []
      else mp4Nals 2 [pps] <+:
        UInt8.ofNat second.length :: (second ++ mp4Nals 2 more ++ record.ppsPart ++ rest)
  | _ => True

section

variable {record : AvcRecord} {rest sps pps : List UInt8} {more morePps : List (List UInt8)}

/-- The second part follows from the first. -/
theorem firstSetsTaken_of_found {size : UInt8}
    (h : (getFirstSpsAndFirstPpsFromAvcSequenceHeader 0xFFFF 0xFFFF).run'
      (ofData (record.encode ++ rest)) = .ok (some ⟨sps, pps, size⟩)) :
    FirstSetsTaken record rest sps pps := by
  refine ⟨⟨size, h⟩, ?_⟩
  intro context timestamp
  rw [process_avcHeader context timestamp (isAvcHeader_encode timestamp record rest), h]
  exact ⟨_, rfl, rfl, rfl⟩

/-- The first SPS is always found; the PPS is what is read behind the byte after it. -/
theorem firstSetsTaken_of_run {b : UInt8} {left : List UInt8} (hsps : record.sps = sps :: more)
    (hafter : mp4Nals 2 more ++ (record.ppsPart ++ rest) = b :: left) :
    ∃ front, FirstSetsTaken record rest sps pps ↔
      (readFirstSet 0xFFFF b).run' (between front left) = .ok (some pps) := by
  obtain ⟨front, hrun⟩ := getFirst_run record hsps hafter
  refine ⟨front, ?_, ?_⟩
  · rintro ⟨⟨size, hfound⟩, -⟩
    rw [hrun] at hfound
    match hread : (readFirstSet 0xFFFF b).run' (between front left) with
    | .error fault =>
        rw [hread] at hfound
        cases hfound
    | .ok none =>
        rw [hread] at hfound
        cases hfound
    | .ok (some set) =>
        rw [hread] at hfound
        cases hfound
        rfl
  · intro hread
    rw [hread] at hrun
    exact firstSetsTaken_of_found hrun

end

theorem firstSetsTaken_iff (record : AvcRecord) (rest sps pps : List UInt8)
    (more morePps : List (List UInt8)) (hsps : record.sps = sps :: more)
    (hpps : record.pps = pps :: morePps) :
    FirstSetsTaken record rest sps pps ↔ FirstPpsInPlace record rest pps := by
  have hppsLength : pps.length ≤ 0xffff := record.pps_length pps (by rw [hpps]; simp)
  cases more with
  | nil =>
      have hne : UInt8.ofNat record.pps.length ≠ 0 := by
        intro hzero
        have hvalue := record.pps_toNat
        rw [hzero, hpps] at hvalue
        cases hvalue
      obtain ⟨front, hiff⟩ := @firstSetsTaken_of_run record rest sps pps [] _ _ hsps rfl
      have hprefix : mp4Nals 2 [pps] <+: mp4Nals 2 record.pps ++ rest := by
        rw [hpps]
        exact ⟨mp4Nals 2 morePps ++ rest, by simp [mp4Nals]⟩
      rw [hiff, readFirstSet_some hne, FirstPpsInPlace, hsps]
      exact iff_of_true ⟨hppsLength, hprefix⟩ trivial
  | cons second more =>
      have hsecond : second.length ≤ 0xffff := record.sps_length second (by rw [hsps]; simp)
      obtain ⟨front, hiff⟩ := @firstSetsTaken_of_run record rest sps pps (second :: more) _ _ hsps
        (by rw [mp4Nals_cons]; rfl)
      have hhigh : (UInt8.ofNat (second.length / 256)).toNat = second.length / 256 := by
        rw [UInt8.toNat_ofNat']
        omega
      rw [hiff, FirstPpsInPlace, hsps]
      by_cases hshort : second.length < 256
      · have hzero : UInt8.ofNat (second.length / 256) = 0 := by
          rw [Nat.div_eq_of_lt hshort]
          rfl
        have hread : (readFirstSet 0xFFFF 0).run' (between front (UInt8.ofNat second.length ::
            (second ++ mp4Nals 2 more ++ (record.ppsPart ++ rest)))) = .ok (some []) := rfl
        simp only [hshort, if_true]
        rw [hzero]
        constructor
        · intro h
          have hsome := hread.symm.trans h
          cases hsome
          rfl
        · rintro rfl
          exact hread
      · have hne : UInt8.ofNat (second.length / 256) ≠ 0 := by
          intro hzero
          rw [hzero] at hhigh
          have hdiv : 0 = second.length / 256 := hhigh
          omega
        simp only [hshort, if_false]
        rw [readFirstSet_some hne, List.append_assoc (second ++ mp4Nals 2 more)]
        exact and_iff_right hppsLength

/-- A record with an SPS and a PPS. -/
def oneSps : AvcRecord :=
  recordOf [[0x67, 0x42]] [[0x68]] (by decide) (by decide) (by decide) (by decide)

theorem firstSetsTaken_iff_oneSps :
    FirstSetsTaken oneSps [] [0x67, 0x42] [0x68] ↔ FirstPpsInPlace oneSps [] [0x68] :=
  firstSetsTaken_iff oneSps [] [0x67, 0x42] [0x68] [] [] rfl rfl

/-- A record with two SPS and a PPS. -/
def twoSps : AvcRecord :=
  recordOf [[0x67, 0x42], [0x67, 0x43]] [[0x68]] (by decide) (by decide) (by decide) (by decide)

/-- A second SPS of two bytes makes the first PPS an empty one. -/
theorem not_firstSetsTaken_twoSps : ¬ FirstSetsTaken twoSps [] [0x67, 0x42] [0x68] := by
  have hrun : (getFirstSpsAndFirstPpsFromAvcSequenceHeader 0xFFFF 0xFFFF).run'
      (ofData (twoSps.encode ++ [])) = .ok (some ⟨[0x67, 0x42], [], 4⟩) := rfl
  rintro ⟨⟨size, hfound⟩, -⟩
  rw [hrun] at hfound
  cases hfound

end Rtmp
