import RtmpModule.Protocol.ParserMachine

/-!
# When the parser can fail other than by returning false

Two things leave `parse` other than by a return: the overflow error `add` throws,
and a null `parsed_msg_`. Both are decided where a chunk is read, from the chunk
and the state before it. A call of `parse` returns exactly when every chunk it
gets to is safe in that sense, and a whole run returns exactly when every call does.
-/

namespace Rtmp

open AMF0Serializer

namespace RtmpPayloadParser

/-- A body that does not make its parser fall back on a message it does not have. -/
def SafeBody (p : RtmpPayloadParser) (firstHeader : RtmpHeader) (payload : List UInt8) : Prop :=
  (firstHeader.isControlMsg = true →
    ControlMsgParser.parseBody firstHeader.msgTypeId payload ≠ none ∨
      p.controlMsgParser.parsedMsg ≠ none) ∧
  (firstHeader.isDataMsg = true → ∀ command rest,
    readShortString payload true = (some command, rest) →
      command = DataMsgParser.setDataFrame ∨ p.dataMsgParser.parsedMsg ≠ none)

/-- A chunk that can be read without a fault: if it starts a message its delta is
no larger than `add` takes, and if it completes one the body is safe. -/
def SafeChunk (p : RtmpPayloadParser) (header : RtmpHeader) (stream : List UInt8) : Prop :=
  (p.incompleteInfos header.chunkStreamId = none →
    (messageDelta header (p.channels header.chunkStreamId)).toNat ≤ 2147483647) ∧
  ((p.thisMsgSize (p.messageOf header)).toNat ≤ stream.length →
    p.thisMsgSize (p.messageOf header) = needSize (p.messageOf header) →
      p.SafeBody (p.messageOf header).firstChunkHeader
        ((p.messageOf header).recvBuf ++
          stream.take (p.thisMsgSize (p.messageOf header)).toNat))

variable {p : RtmpPayloadParser} {uninit : Uninit} {header : RtmpHeader}
  {stream payload : List UInt8}

theorem parseDataMsg_error_iff (q : DataMsgParser) (uninit : Uninit) (header : RtmpHeader)
    (payload : List UInt8) :
    (∃ fault, (q.parseDataMsg uninit header payload).1 = .error fault) ↔
      ¬ ∀ command rest, readShortString payload true = (some command, rest) →
        command = DataMsgParser.setDataFrame ∨ q.parsedMsg ≠ none := by
  unfold DataMsgParser.parseDataMsg
  rcases hread : readShortString payload true with ⟨command, rest⟩
  cases command with
  | none => simp
  | some command =>
      by_cases hcmd : command = DataMsgParser.setDataFrame
      · cases hfull : (consumeFull uninit rest).ok <;> simp [hcmd, hfull]
      · cases q.parsedMsg <;> simp [hcmd]

/-- A completed message is a fault exactly when its body is not safe. -/
theorem parseMessage_error_iff :
    (∃ fault, (p.parseMessage uninit header payload).1 = .error fault) ↔
      ¬ p.SafeBody header payload := by
  unfold parseMessage SafeBody
  by_cases hcontrol : header.isControlMsg = true
  · have hdata : header.isDataMsg ≠ true := fun h => by
      simp [(isDataMsg_not_command h).1] at hcontrol
    rw [if_pos hcontrol]
    cases hbody : ControlMsgParser.parseBody header.msgTypeId payload with
    | none =>
        cases hmsg : p.controlMsgParser.parsedMsg <;>
          simp [hcontrol, hdata, ControlMsgParser.parseControlMsg, hbody, hmsg]
    | some msg => simp [hcontrol, hdata, ControlMsgParser.parseControlMsg, hbody]
  · rw [if_neg hcontrol]
    by_cases hdata : header.isDataMsg = true
    · have hcommand := (isDataMsg_not_command hdata).2
      rw [if_neg (by simp [hcommand]), if_pos hdata]
      simp only [hcontrol, hdata, Bool.false_eq_true, IsEmpty.forall_iff, forall_const, true_and]
      rw [← parseDataMsg_error_iff p.dataMsgParser uninit header payload]
      split <;> rename_i hr <;> simp [hr]
    · simp only [hcontrol, hdata, Bool.false_eq_true, IsEmpty.forall_iff, and_self,
        not_true_eq_false, iff_false, ↓reduceIte]
      split
      · split <;> simp
      split
      · split <;> simp
      · simp

/-- Only the type of the message and two of the parsers matter to the body. -/
theorem safeBody_congr {q : RtmpPayloadParser} {firstHeader : RtmpHeader}
    (hcontrol : q.controlMsgParser = p.controlMsgParser)
    (hdata : q.dataMsgParser = p.dataMsgParser)
    (htype : firstHeader.msgTypeId = header.msgTypeId) :
    q.SafeBody firstHeader payload ↔ p.SafeBody header payload := by
  simp only [SafeBody, RtmpHeader.isControlMsg, RtmpHeader.isDataMsg, hcontrol, hdata, htype]

theorem finishChunk_true_error_iff {csId : UInt32} {recvInfo : ReceivedPayloadInfo} :
    (∃ fault, (p.finishChunk uninit csId recvInfo true).1 = .error fault) ↔
      ¬ p.SafeBody recvInfo.firstChunkHeader recvInfo.recvBuf := by
  have hsafe : ∀ q : RtmpPayloadParser, q.controlMsgParser = p.controlMsgParser →
      q.dataMsgParser = p.dataMsgParser →
      ((∃ fault, (q.parseMessage uninit recvInfo.firstChunkHeader recvInfo.recvBuf).1 =
        .error fault) ↔ ¬ p.SafeBody recvInfo.firstChunkHeader recvInfo.recvBuf) := by
    intro q hcontrol hdata
    rw [parseMessage_error_iff, safeBody_congr hcontrol hdata rfl]
  rw [← hsafe (if (p.incompleteInfos csId).isSome then p.setInfo csId (some recvInfo) else p)
    (by split <;> rfl) (by split <;> rfl)]
  simp only [finishChunk, ↓reduceIte]
  split
  · rename_i hr
    simp [hr]
  · rename_i hr
    rw [hr]

/-- A chunk is a fault exactly when it is not safe. -/
theorem parsePayload_error_iff (uninit : Uninit) :
    (∃ fault, (p.parsePayload uninit header stream stream.length).result = .error fault) ↔
      ¬ p.SafeChunk header stream := by
  rcases hf : p.findOrStart header with ⟨result, p'⟩
  cases result with
  | error fault =>
      obtain ⟨hnone, hlt⟩ := findOrStart_error_iff.mp ⟨fault, congrArg Prod.fst hf⟩
      rw [parsePayload_of_error hf]
      simp only [Except.error.injEq, exists_eq', true_iff]
      intro hsafe
      have hle := hsafe.1 hnone
      omega
  | ok recvInfo =>
      obtain ⟨hframe, hinfo⟩ := findOrStart_frame hf
      have hdelta : p.incompleteInfos header.chunkStreamId = none →
          (messageDelta header (p.channels header.chunkStreamId)).toNat ≤ 2147483647 := by
        intro hnone
        by_contra hlt
        obtain ⟨fault, herr⟩ := findOrStart_error_iff.mpr ⟨hnone, Nat.lt_of_not_le hlt⟩
        rw [hf] at herr
        cases herr
      have hneed : needSize recvInfo = needSize (p.messageOf header) := by
        rw [hinfo]
        rfl
      have hsize : p'.thisMsgSize recvInfo = p.thisMsgSize (p.messageOf header) := by
        rw [thisMsgSize, thisMsgSize, hneed, hframe]
      by_cases hle : (p'.thisMsgSize recvInfo).toNat ≤ stream.length
      · rw [parsePayload_of_le hf hle]
        dsimp only
        by_cases hlast : p'.thisMsgSize recvInfo = needSize recvInfo
        · have hbody : p'.SafeBody recvInfo.firstChunkHeader
                (recvInfo.recvBuf ++ stream.take (p'.thisMsgSize recvInfo).toNat) ↔
              p.SafeBody (p.messageOf header).firstChunkHeader
                ((p.messageOf header).recvBuf ++
                  stream.take (p.thisMsgSize (p.messageOf header)).toNat) := by
            rw [hsize, hinfo]
            exact safeBody_congr (by rw [hframe]) (by rw [hframe]) rfl
          rw [decide_eq_true hlast, finishChunk_true_error_iff, hbody]
          exact not_congr ⟨fun h => ⟨hdelta, fun _ _ => h⟩,
            fun h => h.2 (by rwa [← hsize]) (by rw [← hsize, ← hneed, hlast])⟩
        · rw [decide_eq_false hlast]
          simp only [finishChunk, Bool.false_eq_true, ↓reduceIte, reduceCtorEq, exists_false,
            false_iff, not_not]
          exact ⟨hdelta, fun _ h => absurd (by rw [hsize, hneed, h]) hlast⟩
      · rw [parsePayload_of_short hf (Nat.lt_of_not_le hle)]
        simp only [reduceCtorEq, exists_false, false_iff, not_not]
        exact ⟨hdelta, fun h => absurd (by rwa [hsize]) hle⟩

theorem finishChunk_complete_parsedMsg {csId : UInt32} {recvInfo : ReceivedPayloadInfo}
    {isLast : Bool} (h : (p.finishChunk uninit csId recvInfo isLast).1 = .ok .complete) :
    (p.finishChunk uninit csId recvInfo isLast).2.parsedMsg ≠ none := by
  unfold finishChunk at h ⊢
  split
  · rename_i hlast
    rw [if_pos hlast] at h
    dsimp only at h ⊢
    generalize (if (p.incompleteInfos csId).isSome then p.setInfo csId (some recvInfo) else p) = q
      at h ⊢
    have hcomplete : (q.parseMessage uninit recvInfo.firstChunkHeader recvInfo.recvBuf).1 =
        .ok .complete →
        (q.parseMessage uninit recvInfo.firstChunkHeader recvInfo.recvBuf).2.parsedMsg.isSome :=
      parseMessage_complete q uninit recvInfo.recvBuf
    rcases hr : q.parseMessage uninit recvInfo.firstChunkHeader recvInfo.recvBuf with ⟨result, q'⟩
    rw [hr] at h hcomplete
    split at h
    · rename_i q'' heq
      cases heq
      simpa [setInfo, Option.isSome_iff_ne_none] using hcomplete rfl
    · rename_i hne heq
      cases heq
      exact absurd h (by simpa using hne)
  · rename_i hlast
    rw [if_neg hlast] at h
    cases h

/-- A completed message is there to be looked at. -/
theorem parsePayload_complete_parsedMsg {bufSize : Nat}
    (h : (p.parsePayload uninit header stream bufSize).result = .ok .complete) :
    (p.parsePayload uninit header stream bufSize).parser.parsedMsg ≠ none := by
  obtain ⟨recvInfo, p', hf, hle⟩ := parsePayload_read (.inl h)
  rw [parsePayload_of_le hf hle] at h ⊢
  exact finishChunk_complete_parsedMsg h

end RtmpPayloadParser

namespace ParserCore

variable {uninit : Uninit}

/-- A payload round is safe when there is nothing to read, or a safe chunk. -/
def SafeRound (c : ParserCore) (stream : List UInt8) : Prop :=
  c.parsingState = .payloadParsing → stream ≠ [] →
    c.payloadParser.SafeChunk c.parsedHeader stream

theorem round_error_iff (uninit : Uninit) {c : ParserCore} {stream : List UInt8} :
    (∃ fault, (c.round uninit stream stream.length).returns = some (.error fault)) ↔
      ¬ c.SafeRound stream := by
  cases hc : c.parsingState with
  | headerParsing =>
      simp only [round, hc, SafeRound, reduceCtorEq, IsEmpty.forall_iff, not_true_eq_false,
        iff_false, headerRound]
      split
      · simp
      · split <;> simp
  | complete => simp [round, hc, SafeRound]
  | payloadParsing =>
      by_cases hne : stream = []
      · simp [round, hc, SafeRound, hne, payloadRound]
      · have hlen : stream.length ≠ 0 := by simpa using hne
        have hsafe : c.SafeRound stream ↔ c.payloadParser.SafeChunk c.parsedHeader stream :=
          ⟨fun h => h hc hne, fun h _ _ => h⟩
        rw [hsafe, ← RtmpPayloadParser.parsePayload_error_iff uninit]
        simp only [round, hc, payloadRound, if_neg hlen]
        split
        · rename_i hr
          have hmsg := RtmpPayloadParser.parsePayload_complete_parsedMsg hr
          split
          · simp [hr]
          · contradiction
        all_goals
          rename_i hr
          simp [hr]

/-- The rounds a call of `parse_private` goes through. -/
inductive Visits (uninit : Uninit) : ParserCore → List UInt8 → ParserCore → List UInt8 → Prop
  | here (c : ParserCore) (stream : List UInt8) : Visits uninit c stream c stream
  | next {c c' : ParserCore} {stream stream' : List UInt8}
      (hround : (c.round uninit stream stream.length).returns = none)
      (hvisits : Visits uninit (c.round uninit stream stream.length).core
        (c.round uninit stream stream.length).stream c' stream') :
      Visits uninit c stream c' stream'

/-- Every round of the call is safe. -/
def SafeCall (uninit : Uninit) (c : ParserCore) (stream : List UInt8) : Prop :=
  ∀ c' stream', Visits uninit c stream c' stream' → c'.SafeRound stream'

/-- A round after which the loop goes on has taken what it reports. -/
theorem round_none_length {c : ParserCore} {stream : List UInt8}
    (h : (c.round uninit stream stream.length).returns = none) :
    (c.round uninit stream stream.length).readedSize ≤ stream.length ∧
      (c.round uninit stream stream.length).stream.length =
        stream.length - (c.round uninit stream stream.length).readedSize := by
  unfold round at h ⊢
  cases hc : c.parsingState with
  | complete => simp [hc] at h
  | payloadParsing =>
      simp only [hc] at h ⊢
      obtain ⟨-, hstream, hle⟩ := payloadRound_none h
      exact ⟨hle, by rw [hstream, List.length_drop]⟩
  | headerParsing =>
      simp only [hc, headerRound] at h ⊢
      split
      · simp_all
      · rename_i hne
        rw [if_neg hne] at h
        split
        · rename_i hr
          obtain ⟨-, -, hle, hstream⟩ := RtmpHeaderParser.parseHeader_true hr
          rw [Nat.zero_add] at hle
          exact ⟨hle, by rw [hstream, List.length_drop, Nat.sub_zero]⟩
        · simp_all
        · simp_all

end ParserCore

namespace RtmpParser

variable {uninit : Uninit}

/-- A call of `parse_private` faults exactly when one of its rounds is not safe. -/
theorem parsePrivate_error_iff {p : RtmpParser} {stream : List UInt8} {total : Nat} :
    (∃ fault, (p.parsePrivate uninit stream stream.length total).result = .error fault) ↔
      ¬ p.SafeCall uninit stream := by
  induction hn : p.measure stream.length using Nat.strongRecOn generalizing p stream total with
  | ind n ih =>
      cases hr : (p.round uninit stream stream.length).returns with
      | none =>
          obtain ⟨-, hlen⟩ := ParserCore.round_none_length hr
          have hlt := ParserCore.round_measure hr
          rw [← hlen] at hlt
          have hnext := @ih _ (hn ▸ hlt) (p.afterRound (p.round uninit stream stream.length))
            (p.round uninit stream stream.length).stream
            (total + (p.round uninit stream stream.length).readedSize)
            (by rw [afterRound_core])
          rw [parsePrivate_of_none hr, ← hlen, hnext, afterRound_core]
          refine not_congr ⟨fun hsafe c' stream' hvisits => ?_,
            fun hsafe c' stream' hvisits => hsafe c' stream' (.next hr hvisits)⟩
          cases hvisits with
          | here =>
              by_contra hunsafe
              obtain ⟨fault, hfault⟩ := (ParserCore.round_error_iff uninit).mpr hunsafe
              rw [hr] at hfault
              cases hfault
          | next _ hvisits => exact hsafe c' stream' hvisits
      | some result =>
          have hvisits : ∀ c' stream', ParserCore.Visits uninit p.toParserCore stream c' stream' →
              c' = p.toParserCore ∧ stream' = stream := by
            intro c' stream' hvisits
            cases hvisits with
            | here => exact ⟨rfl, rfl⟩
            | next hround _ =>
                rw [hr] at hround
                cases hround
          have hcall : p.SafeCall uninit stream ↔ p.SafeRound stream := by
            refine ⟨fun h => h _ _ (.here _ _), fun h c' stream' hv => ?_⟩
            obtain ⟨rfl, rfl⟩ := hvisits c' stream' hv
            exact h
          rw [parsePrivate_of_some hr, hcall, ← ParserCore.round_error_iff uninit, hr]
          simp

theorem parse_error_iff (uninit : Uninit) (p : RtmpParser) (stream : List UInt8) :
    (∃ fault, (p.parse uninit stream stream.length).result = .error fault) ↔
      ¬ p.SafeCall uninit stream := by
  rw [(p.parse_eq uninit stream stream.length).1]
  exact parsePrivate_error_iff

/-- The results of successive calls of `parse`, each on what was left unread and one
more piece, up to the first call that does not return. -/
def parseCalls (uninit : Uninit) (p : RtmpParser) (unread : List UInt8) :
    List (List UInt8) → List (Except Fault Tribool)
  | [] => []
  | piece :: pieces =>
      let r := p.parse uninit (unread ++ piece) (unread ++ piece).length
      r.result :: match r.result with
        | .ok _ => parseCalls uninit r.parser r.stream pieces
        | .error _ => []

/-- Every call of the run is safe. -/
def SafeRun (uninit : Uninit) (p : RtmpParser) (unread : List UInt8) :
    List (List UInt8) → Prop
  | [] => True
  | piece :: pieces =>
      let r := p.parse uninit (unread ++ piece) (unread ++ piece).length
      p.SafeCall uninit (unread ++ piece) ∧ SafeRun uninit r.parser r.stream pieces

/-- Every call of a run returns true, false or indeterminate exactly when every chunk
the run gets to is safe. -/
theorem parseCalls_return_iff (uninit : Uninit) (p : RtmpParser) (unread : List UInt8)
    (pieces : List (List UInt8)) :
    (∀ result ∈ parseCalls uninit p unread pieces, ∃ value, result = .ok value) ↔
      SafeRun uninit p unread pieces := by
  induction pieces generalizing p unread with
  | nil => simp [parseCalls, SafeRun]
  | cons piece pieces ih =>
      have herror := parse_error_iff uninit p (unread ++ piece)
      simp only [parseCalls, SafeRun, List.forall_mem_cons]
      cases hr : (p.parse uninit (unread ++ piece) (unread ++ piece).length).result with
      | ok value =>
          rw [hr] at herror
          have hsafe : p.SafeCall uninit (unread ++ piece) := by
            by_contra h
            obtain ⟨fault, hfault⟩ := herror.mpr h
            cases hfault
          simp only [ih, hsafe, true_and]
          simp
      | error fault =>
          rw [hr] at herror
          have hsafe : ¬ p.SafeCall uninit (unread ++ piece) := herror.mp ⟨fault, rfl⟩
          simp [hsafe]

/-- Two first messages that end the server: a data message of type 18 that starts with
a string other than `@setDataFrame`, and an audio message with an extended delta of
`2 ^ 31`. -/
theorem parseCalls_fault :
    parseCalls (fun _ => 0) {} []
        [[0x04, 0, 0, 0, 0, 0, 6, 18, 1, 0, 0, 0], [0x02, 0x00, 0x03, 0x66, 0x6F, 0x6F]] =
      [.ok .indeterminate, .error .nullMessage] ∧
    parseCalls (fun _ => 0) {} []
        [[0x44, 0xFF, 0xFF, 0xFF, 0, 0, 1, 8, 0x80, 0, 0, 0, 0xAF]] =
      [.error .overflowError] := by
  decide +kernel

end RtmpParser

end Rtmp
