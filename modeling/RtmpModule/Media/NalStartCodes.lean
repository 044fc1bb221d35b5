import RtmpModule.Media.FlvUtil

/-!
# From NAL lengths to NAL start codes

`replace_nalu_start_code_from_mp4_to_ts` rewrites an elementary stream in place: a
reading and a writing pointer walk the same memory, and each length of the MP4 form
is overwritten by a start code of the same size. On a list of NAL units with their
lengths the result is the same list with start codes. The lengths are believed: on
anything else the reading pointer leaves the buffer or the count of bytes left
wraps below zero.
-/

namespace Rtmp

namespace ParsingFlv

open FlvUtil

variable {k : Nat}

/-- `ts_nal_start_code`, filled by `put_same_nbyte` and `put_last_byte`. -/
def tsNalStartCode (nalStartCodeLength : Nat) : List UInt8 :=
  List.replicate (nalStartCodeLength - 1) 0x00 ++ [0x01]

@[simp] theorem length_tsNalStartCode (k : Nat) : (tsNalStartCode (k + 1)).length = k + 1 := by
  simp [tsNalStartCode]

theorem readNbyte_len {n : Nat} {c c' : Cursor} {bs : List UInt8}
    (h : readNbyte n c = .ok (bs, c')) : c'.len + n = c.len := by
  induction n generalizing c bs c' with
  | zero =>
      cases h
      rfl
  | succ n ih =>
      rw [readNbyte_succ, read1byte_eq] at h
      split at h
      · simp at h
      · next b c₁ hread =>
        split at hread
        · simp at hread
        · split at hread
          · next hlen =>
            cases hread
            split at h
            · simp at h
            · next hrest =>
              cases h
              have := ih hrest
              rw [Cursor.advance_len] at this
              omega
          · simp at hread

/-- The loop of `replace_nalu_start_code_from_mp4_to_ts` for a code of `k + 1` bytes:
`mp4` is `mp4_es_ptr` with `left_mp4_es_len`, and `ts_es_written` is left out. -/
def replaceLoop (k : Nat) (mp4 : Cursor) (tsEsPtr : Nat) : Except MemoryFault (List UInt8) :=
  if mp4.len = 0 then .ok mp4.data
  else
    match _hread : readNbyte (k + 1) mp4 with
    | .error fault => .error fault
    | .ok (nalStartCode, mp4') =>
        let nalLength := (readValue nalStartCode).toNat
        match writeNbyte (tsNalStartCode (k + 1)) mp4'.data tsEsPtr with
        | .error fault => .error fault
        | .ok (data, tsEsPtr') =>
            if nalLength ≤ mp4'.len then
              replaceLoop k ({ mp4' with data }.advance nalLength) (tsEsPtr' + nalLength)
            else .error .lengthUnderflow
termination_by mp4.len
decreasing_by
  have := readNbyte_len _hread
  change mp4'.len - (readValue nalStartCode).toNat < mp4.len
  omega

/-- `replace_nalu_start_code_from_mp4_to_ts`: what `video_es` holds below `len_` afterwards.
A length of 0 makes `put_same_nbyte` fill a buffer of no bytes. -/
def replaceNaluStartCodeFromMp4ToTs (nalStartCodeLength : UInt8) (videoEs : List UInt8) :
    Except MemoryFault (List UInt8) :=
  match nalStartCodeLength.toNat with
  | 0 => .error (.outOfBounds 0)
  | k + 1 => replaceLoop k (Cursor.ofData videoEs) 0

/-- NAL units as MP4 stores them, each behind its length in `n` bytes. -/
def mp4Nals (n : Nat) (nals : List (List UInt8)) : List UInt8 :=
  nals.flatMap fun nal => Bytes.toBE n nal.length ++ nal

/-- NAL units as a transport stream stores them, each behind a start code of `n` bytes. -/
def tsNals (n : Nat) (nals : List (List UInt8)) : List UInt8 :=
  nals.flatMap fun nal => List.replicate (n - 1) 0x00 ++ [0x01] ++ nal

/-- The state at the head of the loop: both pointers stand behind `front`, which is rewritten
already, and `left` still has its lengths. -/
def replaceFrom (k : Nat) (front left : List UInt8) : Except MemoryFault (List UInt8) :=
  replaceLoop k { data := front ++ left, pos := front.length, len := left.length } front.length

theorem replaceFrom_nil (front : List UInt8) : replaceFrom k front [] = .ok front := by
  simp [replaceFrom, replaceLoop]

theorem inside_front (front left : List UInt8) :
    Cursor.Inside { data := front ++ left, pos := front.length, len := left.length } := by
  simp [Cursor.Inside]

/-- A remainder too short for a length is read past its end. -/
theorem replaceFrom_short {front left : List UInt8} (hne : left ≠ []) (hlen : left.length < k + 1) :
    replaceFrom k front left = .error (.outOfBounds (front ++ left).length) := by
  have hpos : left.length ≠ 0 := by
    intro h
    exact hne (List.length_eq_zero_iff.mp h)
  have hread := readNbyte_of_lt (inside_front front left) hlen
  rw [replaceFrom, replaceLoop, if_neg hpos]
  split
  · next fault h =>
    rw [hread] at h
    cases h
    rfl
  · next h =>
    rw [hread] at h
    cases h

/-- One turn of the loop: the length is overwritten by the start code, and both pointers
move over as many bytes as it says. -/
theorem replaceFrom_code {front code left : List UInt8} (hcode : code.length = k + 1) :
    replaceFrom k front (code ++ left) =
      if (readValue code).toNat ≤ left.length then
        replaceFrom k (front ++ (tsNalStartCode (k + 1) ++ left.take (readValue code).toNat))
          (left.drop (readValue code).toNat)
      else .error .lengthUnderflow := by
  have hpos : (code ++ left).length ≠ 0 := by
    rw [List.length_append]
    omega
  have hread : readNbyte (k + 1)
      { data := front ++ (code ++ left), pos := front.length, len := (code ++ left).length } =
      .ok (code, ⟨front ++ (code ++ left), front.length + (k + 1), left.length⟩) := by
    have hle : k + 1 ≤ (code ++ left).length := by
      rw [List.length_append]
      omega
    have hlen : (code ++ left).length - code.length = left.length := by simp
    rw [readNbyte_of_le (inside_front front _) hle]
    simp only [Cursor.advance, List.drop_left, ← hcode, List.take_left, hlen]
  have hwrite : writeNbyte (tsNalStartCode (k + 1)) (front ++ (code ++ left)) front.length =
      .ok (front ++ (tsNalStartCode (k + 1) ++ left), front.length + (k + 1)) := by
    have h := @writeNbyte_append (tsNalStartCode (k + 1)) code front left
      (by rw [length_tsNalStartCode, hcode])
    rw [length_tsNalStartCode, List.append_assoc, List.append_assoc] at h
    exact h
  rw [replaceFrom, replaceLoop, if_neg hpos]
  split
  · next h =>
    rw [hread] at h
    cases h
  · next h =>
    rw [hread] at h
    cases h
    simp only [hwrite]
    split
    · next hle =>
      have hdata : front ++ (tsNalStartCode (k + 1) ++ left) =
          front ++ (tsNalStartCode (k + 1) ++ left.take (readValue code).toNat) ++
            left.drop (readValue code).toNat := by
        rw [List.append_assoc, List.append_assoc, List.take_append_drop]
      have hlen : (front ++ (tsNalStartCode (k + 1) ++ left.take (readValue code).toNat)).length =
          front.length + (k + 1) + (readValue code).toNat := by
        rw [List.length_append, List.length_append, length_tsNalStartCode, List.length_take]
        omega
      rw [replaceFrom, hlen, List.length_drop, ← hdata]
      rfl
    · rfl

theorem replaceFrom_nals {front : List UInt8} {nals : List (List UInt8)} (hk : k < 4)
    (h : ∀ nal ∈ nals, nal.length < 256 ^ (k + 1)) :
    replaceFrom k front (mp4Nals (k + 1) nals) = .ok (front ++ tsNals (k + 1) nals) := by
  induction nals generalizing front with
  | nil => simpa [mp4Nals, tsNals] using replaceFrom_nil front
  | cons nal nals ih =>
      have hcode : (Bytes.toBE (k + 1) nal.length).length = k + 1 := Bytes.length_toBE _ _
      have hvalue : (readValue (Bytes.toBE (k + 1) nal.length)).toNat = nal.length := by
        rw [readValue_toNat (by omega), Bytes.ofBE_toBE_of_lt (h nal (by simp))]
      have hcons : mp4Nals (k + 1) (nal :: nals) =
          Bytes.toBE (k + 1) nal.length ++ (nal ++ mp4Nals (k + 1) nals) := by
        simp [mp4Nals]
      rw [hcons, replaceFrom_code hcode, hvalue, if_pos (by simp), List.take_left, List.drop_left,
        ih fun nal' hnal' => h nal' (by simp [hnal'])]
      simp [tsNals, tsNalStartCode]

/-- Whatever the loop gets through is a list of NAL units behind their lengths. -/
theorem nals_of_replaceFrom {front left es : List UInt8} (hk : k < 4)
    (h : replaceFrom k front left = .ok es) :
    ∃ nals : List (List UInt8), (∀ nal ∈ nals, nal.length < 256 ^ (k + 1)) ∧
      left = mp4Nals (k + 1) nals := by
  induction hn : left.length using Nat.strongRecOn generalizing front left with
  | ind n ih =>
      by_cases hne : left = []
      · exact ⟨[], by simp, by simp [hne, mp4Nals]⟩
      by_cases hshort : left.length < k + 1
      · rw [replaceFrom_short hne hshort] at h
        cases h
      obtain ⟨code, rest, hcode, rfl⟩ :
          ∃ code rest : List UInt8, code.length = k + 1 ∧ left = code ++ rest :=
        ⟨left.take (k + 1), left.drop (k + 1), by rw [List.length_take]; omega, by simp⟩
      rw [replaceFrom_code hcode] at h
      split at h
      · next hle =>
        rw [readValue_toNat (by omega)] at h hle
        obtain ⟨nals, hnals, hrest⟩ := ih (rest.drop (Bytes.ofBE code)).length (by
          rw [← hn, List.length_append, List.length_drop]
          omega) h rfl
        have hlt : Bytes.ofBE code < 256 ^ (k + 1) := hcode ▸ Bytes.ofBE_lt code
        have hlen : (rest.take (Bytes.ofBE code)).length = Bytes.ofBE code := by
          rw [List.length_take]
          omega
        refine ⟨rest.take (Bytes.ofBE code) :: nals, ?_, ?_⟩
        · intro nal hnal
          rcases List.mem_cons.mp hnal with rfl | hnal
          · rwa [hlen]
          · exact hnals nal hnal
        · have hcons : mp4Nals (k + 1) (rest.take (Bytes.ofBE code) :: nals) =
              Bytes.toBE (k + 1) (Bytes.ofBE code) ++
                (rest.take (Bytes.ofBE code) ++ mp4Nals (k + 1) nals) := by
            simp [mp4Nals, hlen]
          have hback : Bytes.toBE (k + 1) (Bytes.ofBE code) = code := by
            rw [← hcode, Bytes.toBE_ofBE]
          rw [hcons, hback, ← hrest, List.take_append_drop]
      · cases h

theorem replaceNalu_succ {n : UInt8} (h : n.toNat = k + 1) (videoEs : List UInt8) :
    replaceNaluStartCodeFromMp4ToTs n videoEs = replaceFrom k [] videoEs := by
  rw [replaceNaluStartCodeFromMp4ToTs, h]
  rfl

/-- The conversion comes to its end on nothing but NAL units behind their lengths. -/
theorem replaceNalu_ok_iff {n : UInt8} {videoEs : List UInt8} (hn : n.toNat = k + 1) (hk : k < 4) :
    (∃ videoEs', replaceNaluStartCodeFromMp4ToTs n videoEs = .ok videoEs') ↔
      ∃ nals : List (List UInt8), (∀ nal ∈ nals, nal.length < 256 ^ (k + 1)) ∧
        videoEs = mp4Nals (k + 1) nals := by
  rw [replaceNalu_succ hn]
  constructor
  · rintro ⟨videoEs', h⟩
    exact nals_of_replaceFrom hk h
  · rintro ⟨nals, hnals, rfl⟩
    exact ⟨_, replaceFrom_nals hk hnals⟩

theorem pow_code (k : Nat) : 2 ^ (8 * (k + 1)) = 256 ^ (k + 1) := by rw [Nat.pow_mul]

theorem length_tsNals (k : Nat) (nals : List (List UInt8)) :
    (tsNals (k + 1) nals).length = (mp4Nals (k + 1) nals).length := by
  simp only [tsNals, mp4Nals, List.length_flatMap, List.length_append, List.length_replicate,
    List.length_singleton, Bytes.length_toBE, Nat.add_sub_cancel]

/-- A list of NAL units behind their lengths becomes the same list behind start codes, in as
many bytes. -/
theorem replaceNalu_mp4Nals (n : UInt8) (hpos : 1 ≤ n.toNat) (hle : n.toNat ≤ 4)
    (nals : List (List UInt8)) (hnals : ∀ nal ∈ nals, nal.length < 2 ^ (8 * n.toNat)) :
    replaceNaluStartCodeFromMp4ToTs n (mp4Nals n.toNat nals) = .ok (tsNals n.toNat nals) ∧
      (tsNals n.toNat nals).length = (mp4Nals n.toNat nals).length := by
  obtain ⟨k, hk⟩ : ∃ k, n.toNat = k + 1 := ⟨n.toNat - 1, by omega⟩
  rw [hk, pow_code] at hnals
  constructor
  · rw [replaceNalu_succ hk, hk, replaceFrom_nals (by omega) hnals]
    simp
  · rw [hk]
    exact length_tsNals k nals

theorem replaceNalu_twoNals :
    replaceNaluStartCodeFromMp4ToTs 2 (mp4Nals 2 [[0xD9, 0x40], []]) =
        .ok (tsNals 2 [[0xD9, 0x40], []]) ∧
      (tsNals 2 [[0xD9, 0x40], []]).length = (mp4Nals 2 [[0xD9, 0x40], []]).length :=
  replaceNalu_mp4Nals 2 (by decide) (by decide) [[0xD9, 0x40], []] (by decide)

/-- The conversion comes to its end with every access below `len_` and no wrap of
`left_mp4_es_len`. -/
def StaysInBounds (nalStartCodeLength : UInt8) (videoEs : List UInt8) : Prop :=
  ∃ videoEs', replaceNaluStartCodeFromMp4ToTs nalStartCodeLength videoEs = .ok videoEs'

/-- The conversion is safe on nothing but NAL units behind their lengths. -/
theorem staysInBounds_iff (n : UInt8) (hpos : 1 ≤ n.toNat) (hle : n.toNat ≤ 4)
    (videoEs : List UInt8) :
    StaysInBounds n videoEs ↔
      ∃ nals : List (List UInt8), (∀ nal ∈ nals, nal.length < 2 ^ (8 * n.toNat)) ∧
        videoEs = mp4Nals n.toNat nals := by
  obtain ⟨k, hk⟩ : ∃ k, n.toNat = k + 1 := ⟨n.toNat - 1, by omega⟩
  rw [StaysInBounds, hk, pow_code]
  exact replaceNalu_ok_iff hk (by omega)

theorem staysInBounds_twoNals :
    StaysInBounds 4 [0x00, 0x00, 0x00, 0x02, 0xD9, 0x40, 0x00, 0x00, 0x00, 0x00] :=
  (staysInBounds_iff 4 (by decide) (by decide) _).mpr ⟨[[0xD9, 0x40], []], by decide, by decide⟩

/-- A length of 9 with one byte behind it. -/
theorem not_staysInBounds_longNal : ¬ StaysInBounds 4 [0x00, 0x00, 0x00, 0x09, 0x65] := by
  have h : replaceNaluStartCodeFromMp4ToTs 4 [0x00, 0x00, 0x00, 0x09, 0x65] =
      .error .lengthUnderflow := by decide +kernel
  rintro ⟨videoEs', h'⟩
  rw [h] at h'
  cases h'

end ParsingFlv

end Rtmp
