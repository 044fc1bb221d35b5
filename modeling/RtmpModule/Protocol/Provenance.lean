import RtmpModule.Protocol.ChunkEffects
import RtmpModule.Protocol.RecvBuffer

/-!
# Where a delivered message comes from

The body parsers keep the last message they built. A control body that is rejected leaves
it there, and `parse_payload`, which does not look at the result, delivers it once more.
An accepted body is delivered as what it says, and a data message has no content that
could come from elsewhere.
-/

namespace Rtmp

open AMF0Serializer StreamUtil

namespace ControlMsgParser

/-- What a control body has to look like, by the type of the message: its fields are
there, and the event or limit type is one that is known. -/
def WellFormedBody (msgTypeId : MsgTypeId) (payload : List UInt8) : Prop :=
  match msgTypeId with
  | .chunkSize => 4 ≤ payload.length
  | .abortMessage => 4 ≤ payload.length
  | .ack => 4 ≤ payload.length
  | .winAckSize => 4 ≤ payload.length
  | .peerBandwidth => 5 ≤ payload.length ∧ (readUchar (payload.drop 4)).1 ≤ 2
  | .usrCtrl =>
      2 ≤ payload.length ∧ match EventType.getEventType (readUshort payload).1 with
        | .setBufferLength => 10 ≤ payload.length
        | .unknown => False
        | _ => 6 ≤ payload.length
  | _ => False

theorem parseField_isSome (make : UInt32 → RtmpMessage) (stream : List UInt8) :
    (parseField make stream).isSome ↔ 4 ≤ stream.length := by
  unfold parseField checkRedableLength
  split <;> simp_all

/-- The body parsers accept just the well-formed bodies. -/
theorem parseBody_isSome_iff (msgTypeId : MsgTypeId) (payload : List UInt8) :
    (parseBody msgTypeId payload).isSome ↔ WellFormedBody msgTypeId payload := by
  cases msgTypeId with
  | chunkSize => exact parseField_isSome _ _
  | abortMessage => exact parseField_isSome _ _
  | ack => exact parseField_isSome _ _
  | winAckSize => exact parseField_isSome _ _
  | usrCtrl =>
      have hdrop : (readUshort payload).2.length = payload.length - 2 := by
        simp [readUshort]
      simp only [parseBody, parseUserCtrl, WellFormedBody, checkRedableLength]
      by_cases hlen : 2 ≤ payload.length
      · simp only [hlen, decide_true, ↓reduceIte, true_and]
        split <;> rename_i hevent <;> simp only [hevent]
        all_goals
          try
            simp only [parseUsrctrlStreamBegin, parseUsrctrlStreamEof, parseUsrctrlStreamDry,
              parseUsrctrlStreamIsRecorded, parseUsrctrlPingRequest, parseUsrctrlPingResponse,
              parseField_isSome, hdrop]
            omega
        · unfold parseUsrctrlSetBufferLength checkRedableLength
          rw [hdrop]
          by_cases hlong : 10 ≤ payload.length
          · rw [if_pos (by simpa using by omega)]
            simpa using hlong
          · rw [if_neg (by simpa using by omega)]
            simpa using hlong
        · simp
      · simp [hlen]
  | peerBandwidth =>
      have hlimit : ∀ v : UInt8, LimitType.getLimitType v = .unknown ↔ ¬ v ≤ 2 := by
        have hall : ∀ n : Fin 256, LimitType.getLimitType (UInt8.ofNat n.val) = .unknown ↔
            ¬ UInt8.ofNat n.val ≤ 2 := by
          decide +kernel
        intro v
        simpa using hall ⟨v.toNat, v.toNat_lt⟩
      simp only [parseBody, parsePeerBandwidth, WellFormedBody, checkRedableLength]
      by_cases hlen : 5 ≤ payload.length
      · simp only [hlen, decide_true, ↓reduceIte, true_and]
        change (if LimitType.getLimitType (readUchar (payload.drop 4)).1 = .unknown then none
          else some _ : Option RtmpMessage).isSome ↔ _
        split
        · rename_i h
          simpa using (hlimit _).mp h
        · rename_i h
          simpa using (not_congr (hlimit _)).mp h
      · simp [hlen]
  | _ => simp [parseBody, WellFormedBody]

end ControlMsgParser

namespace RtmpPayloadParser

/-- The data message kept by the parser, if there is one, has no content. -/
def DataEmpty (p : RtmpPayloadParser) : Prop :=
  ∀ msg, p.dataMsgParser.parsedMsg = some msg → msg.body = .unknownMessage []

variable {p p' : RtmpPayloadParser} {uninit : Uninit} {header firstHeader : RtmpHeader}
  {payload stream : List UInt8} {bufSize : Nat} {msg : RtmpMessage}

theorem DataEmpty.parseDataMsg {d : DataMsgParser}
    (hd : ∀ msg, d.parsedMsg = some msg → msg.body = .unknownMessage []) :
    ∀ msg, (d.parseDataMsg uninit header stream).2.parsedMsg = some msg →
      msg.body = .unknownMessage [] := by
  intro msg hmsg
  unfold DataMsgParser.parseDataMsg at hmsg
  rcases hread : readShortString stream true with ⟨command, rest⟩
  rw [hread] at hmsg
  cases command with
  | none => exact hd msg hmsg
  | some command =>
      dsimp only at hmsg
      by_cases hfail : command = DataMsgParser.setDataFrame ∧ (consumeFull uninit rest).ok = false
      · rw [if_pos hfail] at hmsg
        exact hd msg hmsg
      · rw [if_neg hfail] at hmsg
        by_cases hcommand : command = DataMsgParser.setDataFrame
        · rw [if_pos hcommand] at hmsg
          cases hmsg
          rfl
        · rw [if_neg hcommand] at hmsg
          cases hkept : d.parsedMsg with
          | none =>
              rw [hkept] at hmsg
              exact hd msg hmsg
          | some kept =>
              rw [hkept] at hmsg
              cases hmsg
              exact hd kept hkept

theorem DataEmpty.parseMessage (hp : p.DataEmpty) :
    (p.parseMessage uninit firstHeader payload).2.DataEmpty := by
  unfold RtmpPayloadParser.parseMessage
  split
  · exact hp
  split
  · dsimp only
    split <;> exact hp
  split
  · dsimp only
    split <;> exact DataEmpty.parseDataMsg hp
  split
  · dsimp only
    split <;> exact hp
  · exact hp

theorem DataEmpty.parsePayload (hp : p.DataEmpty) :
    (p.parsePayload uninit header stream bufSize).parser.DataEmpty := by
  have hfind : (p.findOrStart header).2.dataMsgParser = p.dataMsgParser := by
    unfold findOrStart
    split
    · rfl
    · unfold startMessage
      dsimp only
      split <;> rename_i hr <;> split at hr <;> cases hr <;> rfl
  rcases hf : p.findOrStart header with ⟨result, p'⟩
  rw [hf] at hfind
  have hp' : p'.DataEmpty := by
    intro msg hmsg
    rw [hfind] at hmsg
    exact hp msg hmsg
  cases result with
  | error fault =>
      rw [parsePayload_of_error hf]
      exact hp'
  | ok recvInfo =>
      by_cases hle : (p'.thisMsgSize recvInfo).toNat ≤ bufSize
      · rw [parsePayload_of_le hf hle]
        generalize ({ recvInfo with
          recvBuf := recvInfo.recvBuf ++ stream.take (p'.thisMsgSize recvInfo).toNat } :
            ReceivedPayloadInfo) = info
        unfold finishChunk
        split
        · dsimp only
          have hkept : (if (p'.incompleteInfos header.chunkStreamId).isSome = true then
              p'.setInfo header.chunkStreamId (some info) else p').DataEmpty := by
            split <;> exact hp'
          have hparsed := @DataEmpty.parseMessage _ uninit info.firstChunkHeader info.recvBuf hkept
          split <;> rename_i hr <;> rw [hr] at hparsed <;> exact hparsed
        · exact hp'
      · rw [parsePayload_of_short hf (Nat.lt_of_not_le hle)]
        exact hp'

/-- A data message has a content of its own, which is none. -/
theorem parseMessage_data_body
    (h : p.parseMessage uninit firstHeader payload = (.ok .complete, p'))
    (hmsg : p'.parsedMsg = some msg) (hdata : firstHeader.isDataMsg = true) (hp : p.DataEmpty) :
    msg.body = .unknownMessage [] := by
  rw [parseMessage_data p uninit payload hdata] at h
  cases hr : (p.dataMsgParser.parseDataMsg uninit firstHeader payload).1 with
  | error fault =>
      rw [hr] at h
      cases h
  | ok accepted =>
      rw [hr] at h
      cases accepted with
      | false => cases h
      | true =>
          cases h
          exact DataEmpty.parseDataMsg hp msg hmsg

/-- An accepted control body is delivered as what it says. -/
theorem parseMessage_control_body {expected : RtmpMessage}
    (h : p.parseMessage uninit firstHeader payload = (.ok .complete, p'))
    (hmsg : p'.parsedMsg = some msg) (hcontrol : firstHeader.isControlMsg = true)
    (hbody : ControlMsgParser.parseBody firstHeader.msgTypeId payload = some expected) :
    msg = expected := by
  rw [parseMessage_control p uninit payload hcontrol] at h
  simp only [ControlMsgParser.parseControlMsg, hbody] at h
  cases h
  exact (Option.some.inj hmsg).symm

/-- A rejected control body is delivered as the last control message before it. -/
theorem parseMessage_control_stale (hcontrol : firstHeader.isControlMsg = true)
    (hbody : ControlMsgParser.parseBody firstHeader.msgTypeId payload = none)
    (hkept : p.controlMsgParser.parsedMsg = some msg) :
    p.parseMessage uninit firstHeader payload =
      (.ok .complete, { p with parsedMsg := some msg }) := by
  rw [parseMessage_control p uninit payload hcontrol]
  simp only [ControlMsgParser.parseControlMsg, hbody, hkept, Option.isSome_some, ↓reduceIte]

end RtmpPayloadParser

namespace ParserCore

/-- The states a connection can be in: any rounds of the loop, on any bytes, that did not
end in an exception. -/
inductive Reachable (uninit : Uninit) : ParserCore → Prop
  | start (epoch : UInt32) :
      Reachable uninit (Connection.afterHandshake epoch).parser.toParserCore
  | round {c : ParserCore} (stream : List UInt8) (hreach : Reachable uninit c)
      (hreturns : ∀ fault, (c.round uninit stream stream.length).returns ≠ some (.error fault)) :
      Reachable uninit (c.round uninit stream stream.length).core

/-- `parse_payload` reports a message of this type and payload complete, and `msg` is
what `get_parsed_msg` returns then. -/
def Delivers (uninit : Uninit) (c : ParserCore) (msgTypeId : MsgTypeId) (payload : List UInt8)
    (msg : RtmpMessage) : Prop :=
  c.parsingState = .payloadParsing ∧ ∃ stream recvInfo p,
    c.payloadParser.findOrStart c.parsedHeader = (.ok recvInfo, p) ∧
      recvInfo.firstChunkHeader.msgTypeId = msgTypeId ∧
      (p.thisMsgSize recvInfo).toNat ≤ stream.length ∧
      recvInfo.recvBuf ++ stream.take (p.thisMsgSize recvInfo).toNat = payload ∧
      (c.payloadParser.parsePayload uninit c.parsedHeader stream stream.length).result =
        .ok .complete ∧
      (c.payloadParser.parsePayload uninit c.parsedHeader stream stream.length).parser.parsedMsg =
        some msg

variable {uninit : Uninit} {c : ParserCore} {msgTypeId : MsgTypeId} {payload : List UInt8}
  {msg : RtmpMessage}

theorem Reachable.dataEmpty (h : Reachable uninit c) : c.payloadParser.DataEmpty := by
  induction h with
  | start epoch => exact fun _ h => nomatch h
  | @round c stream _ _ ih =>
      unfold ParserCore.round
      split
      · unfold headerRound
        split
        · exact ih
        · dsimp only
          split <;> exact ih
      · unfold payloadRound
        split
        · exact ih
        · dsimp only
          have hparsed := @RtmpPayloadParser.DataEmpty.parsePayload c.payloadParser uninit
            c.parsedHeader stream stream.length ih
          split
          · split
            · obtain ⟨recvChunkSize, happly⟩ := applyMessage_tables _ _
              rw [happly]
              exact hparsed
            · exact hparsed
          all_goals exact hparsed
      · exact ih

/-- A complete message has been parsed from its own payload. -/
theorem Delivers.parsed (h : c.Delivers uninit msgTypeId payload msg)
    (hc : c.payloadParser.DataEmpty) :
    ∃ q q' firstHeader, firstHeader.msgTypeId = msgTypeId ∧
      RtmpPayloadParser.DataEmpty q ∧
      q.parseMessage uninit firstHeader payload = (.ok .complete, q') ∧
      q'.parsedMsg = some msg := by
  obtain ⟨-, stream, recvInfo, p, hfind, htype, hle, rfl, hresult, hmsg⟩ := h
  have hframe := (RtmpPayloadParser.findOrStart_frame hfind).1
  have hp : p.DataEmpty := by
    rw [hframe]
    exact hc
  rw [RtmpPayloadParser.parsePayload_of_le hfind hle] at hresult hmsg
  by_cases hlast : p.thisMsgSize recvInfo = RtmpPayloadParser.needSize recvInfo
  · rw [decide_eq_true hlast] at hresult hmsg
    obtain ⟨q, q', ⟨infos, hq⟩, hparse, hfinish⟩ :=
      RtmpPayloadParser.finishChunk_complete hresult
    rw [hfinish] at hmsg
    exact ⟨q, q', recvInfo.firstChunkHeader, htype, by rw [hq]; exact hp, hparse, hmsg⟩
  · rw [decide_eq_false hlast] at hresult
    cases hresult

/-- Two deliveries of an accepted control message, or of a data message, agree. -/
theorem Delivers.body_eq {c₁ c₂ : ParserCore} {msg₁ msg₂ : RtmpMessage}
    (hc₁ : Reachable uninit c₁) (hc₂ : Reachable uninit c₂)
    (h₁ : c₁.Delivers uninit msgTypeId payload msg₁)
    (h₂ : c₂.Delivers uninit msgTypeId payload msg₂)
    (h : msgTypeId = .dataAmf0 ∨ ControlMsgParser.WellFormedBody msgTypeId payload) :
    msg₁.body = msg₂.body := by
  obtain ⟨q₁, q₁', firstHeader₁, htype₁, hq₁, hparse₁, hmsg₁⟩ := h₁.parsed hc₁.dataEmpty
  obtain ⟨q₂, q₂', firstHeader₂, htype₂, hq₂, hparse₂, hmsg₂⟩ := h₂.parsed hc₂.dataEmpty
  rcases h with hdata | hbody
  · have hisData : ∀ firstHeader : RtmpHeader, firstHeader.msgTypeId = msgTypeId →
        firstHeader.isDataMsg = true := by
      intro firstHeader htype
      simp [RtmpHeader.isDataMsg, htype, hdata]
    rw [RtmpPayloadParser.parseMessage_data_body hparse₁ hmsg₁ (hisData _ htype₁) hq₁,
      RtmpPayloadParser.parseMessage_data_body hparse₂ hmsg₂ (hisData _ htype₂) hq₂]
  · obtain ⟨expected, hexpected⟩ :=
      Option.isSome_iff_exists.mp ((ControlMsgParser.parseBody_isSome_iff _ _).mpr hbody)
    have hcontrol : ∀ firstHeader : RtmpHeader, firstHeader.msgTypeId = msgTypeId →
        firstHeader.isControlMsg = true := by
      intro firstHeader htype
      rw [RtmpHeader.isControlMsg, htype]
      cases msgTypeId <;> first | cases hexpected | decide
    rw [RtmpPayloadParser.parseMessage_control_body hparse₁ hmsg₁ (hcontrol _ htype₁)
        (by rw [htype₁]; exact hexpected),
      RtmpPayloadParser.parseMessage_control_body hparse₂ hmsg₂ (hcontrol _ htype₂)
        (by rw [htype₂]; exact hexpected)]

section Stale

/-- A control message in one chunk. -/
def controlChunk (msgTypeId : MsgTypeId) (payload : List UInt8) : Chunk :=
  { chunkStreamId := 2
    header := .full 0 (UInt32.ofNat payload.length) msgTypeId 0
    payload }

theorem valid_controlChunk (hlen : payload.length < 2 ^ 24) (htype : msgTypeId ≠ .unknown) :
    (controlChunk msgTypeId payload).Valid where
  id_ge := (by decide : 2 ≤ (2 : UInt32).toNat)
  id_le := (by decide : (2 : UInt32).toNat ≤ 65599)
  header := by
    refine ⟨?_, htype⟩
    rw [UInt32.toNat_ofNat', Nat.mod_eq_of_lt (by omega)]
    exact hlen

/-- A message in one chunk of a size the parser goes by is looked up with nothing
received and everything needed. -/
theorem findOrStart_controlChunk (hidle : c.payloadParser.incompleteInfos 2 = none)
    (hlen : payload.length < 2 ^ 24)
    (hsize : payload.length ≤ c.payloadParser.recvChunkSize.toNat) :
    ∃ firstChunkHeader p, c.payloadParser.findOrStart
        ((controlChunk msgTypeId payload).applyTo c.parsedHeader) =
          (.ok { firstChunkHeader }, p) ∧
      firstChunkHeader.msgTypeId = msgTypeId ∧
      (p.thisMsgSize { firstChunkHeader }).toNat = payload.length ∧
      p.thisMsgSize { firstChunkHeader } = RtmpPayloadParser.needSize { firstChunkHeader } ∧
      p.incompleteInfos = c.payloadParser.incompleteInfos ∧
      p.controlMsgParser = c.payloadParser.controlMsgParser := by
  have hnone : c.payloadParser.incompleteInfos
      ((controlChunk msgTypeId payload).applyTo c.parsedHeader).chunkStreamId = none := hidle
  obtain ⟨firstChunkHeader, p, hfind, hheader⟩ := RtmpPayloadParser.findOrStart_full hnone rfl
  have hframe := (RtmpPayloadParser.findOrStart_frame hfind).1
  have hneed : (RtmpPayloadParser.needSize { firstChunkHeader }).toNat = payload.length := by
    have hlength : firstChunkHeader.msgLength.toNat = payload.length := by
      rw [hheader]
      change (UInt32.ofNat payload.length).toNat = payload.length
      rw [UInt32.toNat_ofNat', Nat.mod_eq_of_lt (by omega)]
    rw [RtmpPayloadParser.toNat_needSize (Nat.zero_le _), hlength]
    rfl
  have hthis := p.toNat_thisMsgSize { firstChunkHeader }
  have hrecv : p.recvChunkSize = c.payloadParser.recvChunkSize := by rw [hframe]
  rw [hneed, hrecv] at hthis
  refine ⟨firstChunkHeader, p, hfind, by rw [hheader]; rfl, by omega, ?_, by rw [hframe],
    by rw [hframe]⟩
  rw [← UInt32.toNat_inj]
  omega

/-- A rejected control message is delivered as the control message kept by the parser. -/
theorem delivers_stale (uninit : Uninit) (hidle : c.payloadParser.incompleteInfos 2 = none)
    (hkept : c.payloadParser.controlMsgParser.parsedMsg = some msg)
    (hlen : payload.length < 2 ^ 24)
    (hsize : payload.length ≤ c.payloadParser.recvChunkSize.toNat)
    (hcontrol : ∀ firstHeader : RtmpHeader, firstHeader.msgTypeId = msgTypeId →
      firstHeader.isControlMsg = true)
    (hbody : ControlMsgParser.parseBody msgTypeId payload = none) :
    (c.afterHeader (controlChunk msgTypeId payload)).Delivers uninit msgTypeId payload msg := by
  obtain ⟨firstChunkHeader, p, hfind, htype, hthis, hlast, hinfos, hparser⟩ :=
    @findOrStart_controlChunk c msgTypeId payload hidle hlen hsize
  have hcall := RtmpPayloadParser.parsePayload_followed uninit hfind hthis [0]
  have hnone : p.incompleteInfos
      ((controlChunk msgTypeId payload).applyTo c.parsedHeader).chunkStreamId = none := by
    rw [hinfos]
    exact hidle
  have hstale := @RtmpPayloadParser.parseMessage_control_stale p uninit firstChunkHeader payload
    msg (hcontrol _ htype) (by rw [htype]; exact hbody) (hparser ▸ hkept)
  rw [decide_eq_true hlast] at hcall
  simp only [RtmpPayloadParser.finishChunk, ↓reduceIte, hnone, Option.isSome_none,
    Bool.false_eq_true, List.nil_append, hstale] at hcall
  refine ⟨rfl, payload ++ [0], _, p, hfind, htype, ?_, ?_, ?_, ?_⟩
  · rw [hthis, List.length_append]
    omega
  · rw [hthis, List.take_left]
    rfl
  · exact congrArg RtmpPayloadParser.PayloadCall.result hcall
  · exact congrArg (fun r => r.parser.parsedMsg) hcall

theorem Visits.reachable {c' : ParserCore} {stream stream' : List UInt8}
    (h : Visits uninit c stream c' stream') (hc : Reachable uninit c) : Reachable uninit c' := by
  induction h with
  | here => exact hc
  | @next c _ stream _ hround _ ih =>
      exact ih (.round stream hc (by rw [hround]; intro fault hfault; cases hfault))

/-- Reading the header of a chunk leads from a reachable state to a reachable state. -/
theorem afterHeader_reachable {chunk : Chunk} (hc : Reachable uninit c) (hbetween : c.Between)
    (hchunk : chunk.Valid) : Reachable uninit (c.afterHeader chunk) := by
  have hround := @round_encodeHeader uninit c chunk hbetween hchunk []
  have hnext := Reachable.round (chunk.encodeHeader ++ []) hc (by
    rw [hround]
    intro fault hfault
    cases hfault)
  rwa [hround] at hnext

/-- So does reading the chunk whole. -/
theorem receive_reachable {c' : ParserCore} {chunk : Chunk} {out : List RtmpMessage}
    (hc : Reachable uninit c) (hbetween : c.Between) (hchunk : chunk.Valid)
    (h : c.receive uninit chunk = some (c', out)) : Reachable uninit c' := by
  obtain ⟨hreturns, hstream, rfl, -⟩ := receive_eq_some h
  have hvisits := visits_chunk hbetween hchunk hreturns hstream []
  have hreach := hvisits.reachable hc
  cases hs : (c.chunkRound uninit chunk).core.parsingState with
  | headerParsing =>
      rw [← hs]
      exact hreach
  | payloadParsing => exact absurd hs (payloadRound_none hreturns).1
  | complete =>
      have hround := @RtmpParser.round_complete (c.chunkRound uninit chunk).core uninit [] 0 hs
      have hnext := Reachable.round [] hreach (by
        rw [List.length_nil, hround]
        intro fault hfault
        cases hfault)
      rwa [List.length_nil, hround] at hnext

/-- A connection whose peer has announced a chunk size. -/
theorem exists_chunkSize (uninit : Uninit) (chunkSize : UInt32) :
    ∃ c, Reachable uninit c ∧ c.Between ∧ c.payloadParser.incompleteInfos 2 = none ∧
      c.payloadParser.controlMsgParser.parsedMsg = some (.setChunkSize chunkSize) ∧
      c.payloadParser.recvChunkSize = chunkSize := by
  obtain ⟨firstChunkHeader, p, hfind, htype, hthis, hlast, hinfos, -⟩ :=
    @findOrStart_controlChunk (Connection.afterHandshake 0).parser.toParserCore .chunkSize
      (Bytes.toBE 4 chunkSize.toNat) rfl (by simp) (by simp [Connection.afterHandshake,
        Connection.setBaseTimestamp])
  have hne : (controlChunk .chunkSize (Bytes.toBE 4 chunkSize.toNat)).payload ≠ [] :=
    List.ne_nil_of_length_pos (by simp [controlChunk])
  have hreceive := receive_chunkSize uninit hne hfind hthis hlast htype rfl
  refine ⟨_, receive_reachable (.start 0) ⟨rfl, rfl⟩ (valid_controlChunk (by simp) (by simp))
    hreceive, receive_between hreceive, ?_, rfl, rfl⟩
  simp [afterChunk, RtmpPayloadParser.setInfo, controlChunk]

end Stale

end ParserCore

open ParserCore in
/-- For a control or AMF0 data message, what is delivered depends on its type and payload
alone exactly when it is a data message or its body is one the control parser accepts.
Otherwise the control message before it is delivered once more. -/
theorem delivered_by_payload_iff (uninit : Uninit) {msgTypeId : MsgTypeId}
    {payload : List UInt8} (hlen : payload.length < 2 ^ 24)
    (htype : msgTypeId = .dataAmf0 ∨ 1 ≤ msgTypeId.code ∧ msgTypeId.code ≤ 6) :
    (∀ c₁ c₂ msg₁ msg₂, Reachable uninit c₁ → Reachable uninit c₂ →
        c₁.Delivers uninit msgTypeId payload msg₁ → c₂.Delivers uninit msgTypeId payload msg₂ →
        msg₁.body = msg₂.body) ↔
      msgTypeId = .dataAmf0 ∨ ControlMsgParser.WellFormedBody msgTypeId payload := by
  constructor
  · intro hsame
    by_contra hrejected
    rw [not_or] at hrejected
    have hbody : ControlMsgParser.parseBody msgTypeId payload = none := by
      rw [← Option.not_isSome_iff_eq_none, ControlMsgParser.parseBody_isSome_iff]
      exact hrejected.2
    have hcontrol : ∀ firstHeader : RtmpHeader, firstHeader.msgTypeId = msgTypeId →
        firstHeader.isControlMsg = true := by
      intro firstHeader hheader
      obtain ⟨hle, hge⟩ := htype.resolve_left hrejected.1
      simp only [RtmpHeader.isControlMsg, hheader, decide_eq_true_eq]
      exact ⟨hle, UInt8.le_trans hge (by decide)⟩
    -- two connections that differ in the chunk size their peer has announced
    obtain ⟨c₁, hreach₁, hbetween₁, hidle₁, hkept₁, hsize₁⟩ := exists_chunkSize uninit 16777216
    obtain ⟨c₂, hreach₂, hbetween₂, hidle₂, hkept₂, hsize₂⟩ := exists_chunkSize uninit 16777217
    have hknown : msgTypeId ≠ .unknown := by
      rintro rfl
      obtain ⟨-, hge⟩ := htype.resolve_left hrejected.1
      revert hge
      decide
    have hvalid := valid_controlChunk hlen hknown
    have hlen₁ : payload.length ≤ c₁.payloadParser.recvChunkSize.toNat := by
      rw [hsize₁]
      exact Nat.le_of_lt hlen
    have hlen₂ : payload.length ≤ c₂.payloadParser.recvChunkSize.toNat := by
      rw [hsize₂]
      exact Nat.le_succ_of_le (Nat.le_of_lt hlen)
    have heq := hsame _ _ _ _ (afterHeader_reachable hreach₁ hbetween₁ hvalid)
      (afterHeader_reachable hreach₂ hbetween₂ hvalid)
      (delivers_stale uninit hidle₁ hkept₁ hlen hlen₁ hcontrol hbody)
      (delivers_stale uninit hidle₂ hkept₂ hlen hlen₂ hcontrol hbody)
    revert heq
    decide
  · intro h c₁ c₂ msg₁ msg₂ hc₁ hc₂ h₁ h₂
    exact Delivers.body_eq hc₁ hc₂ h₁ h₂ h

open ParserCore in
theorem truncatedWindow_by_payload_iff :
    (∀ c₁ c₂ msg₁ msg₂, Reachable (fun _ => 0) c₁ → Reachable (fun _ => 0) c₂ →
        c₁.Delivers (fun _ => 0) .winAckSize [0, 0] msg₁ →
        c₂.Delivers (fun _ => 0) .winAckSize [0, 0] msg₂ → msg₁.body = msg₂.body) ↔
      MsgTypeId.winAckSize = .dataAmf0 ∨
        ControlMsgParser.WellFormedBody .winAckSize [0, 0] :=
  delivered_by_payload_iff (fun _ => 0) (by decide) (by decide)

/-- A SetChunkSize message and a WindowAcknowledgementSize message cut to two bytes. -/
def truncatedWindow (chunkSize : UInt32) : List UInt8 :=
  (ParserCore.controlChunk .chunkSize (Bytes.toBE 4 chunkSize.toNat)).encode ++
    (ParserCore.controlChunk .winAckSize [0, 0]).encode

/-- The cut message is delivered as the SetChunkSize message before it, whichever it was. -/
theorem truncatedWindow_repeats :
    ((Connection.afterHandshake 0).run (fun _ => 0) [truncatedWindow 4096]).handled.map
        (·.body) = [.setChunkSize 4096, .setChunkSize 4096] ∧
      ((Connection.afterHandshake 0).run (fun _ => 0) [truncatedWindow 8192]).handled.map
        (·.body) = [.setChunkSize 8192, .setChunkSize 8192] := by
  decide +kernel

end Rtmp
