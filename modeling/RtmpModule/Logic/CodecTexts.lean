import RtmpModule.Logic.PublishOrder
import RtmpModule.Streamer.Base64
import RtmpModule.Streamer.BodySafety

/-!
# The texts of the codec information

`init_publish` sends the codec information of both tracks as Base64. What is kept of
a sequence header is short, since a parameter set has at most 65535 bytes, and it is
there when the request is made; so in every run `Base64::Decode` reads the rate and
the channels, and the parameter sets, back from the texts.
-/

namespace Rtmp

open FlvUtil FlvUtil.Cursor ParsingFlv

/-- Whatever a parser returns has a property. -/
def Gives {α : Type} (P : α → Prop) (x : Read α) : Prop :=
  ∀ c a c', x c = .ok (a, c') → P a

namespace Gives

variable {α β : Type} {P : β → Prop}

theorem pure {b : β} (h : P b) : Gives P (Pure.pure b) := by
  intro c a c' hread
  rw [read_pure] at hread
  cases hread
  exact h

/-- The property is one of the last step. -/
theorem bind {x : Read α} {f : α → Read β} (hf : ∀ a, Gives P (f a)) : Gives P (x >>= f) := by
  intro c b c' hread
  rw [read_bind] at hread
  split at hread
  · cases hread
  · exact hf _ _ _ _ hread

theorem bind_of {Q : α → Prop} {x : Read α} {f : α → Read β} (hx : Gives Q x)
    (hf : ∀ a, Q a → Gives P (f a)) : Gives P (x >>= f) := by
  intro c b c' hread
  rw [read_bind] at hread
  split at hread
  · cases hread
  · next a c₁ hfirst => exact hf a (hx _ _ _ hfirst) _ _ _ hread

theorem ite {p : Prop} [Decidable p] {x y : Read β} (hx : p → Gives P x)
    (hy : ¬ p → Gives P y) : Gives P (if p then x else y) := by
  split
  · next h => exact hx h
  · next h => exact hy h

theorem run' {x : Read β} (h : Gives P x) {c : Cursor} {b : β} (hrun : x.run' c = .ok b) :
    P b := by
  obtain ⟨c', hread⟩ := run'_ok.mp hrun
  exact h _ _ _ hread

end Gives

section Sets

theorem gives_readNbyte (n : Nat) : Gives (fun bs : List UInt8 => bs.length = n) (readNbyte n) := by
  induction n with
  | zero => exact .pure rfl
  | succ n ih =>
      refine .bind fun b => .bind_of ih fun rest hrest => .pure ?_
      rw [List.length_cons, hrest]

variable {spsMaxLen ppsMaxLen : Nat}

/-- A set fits into its destination. -/
theorem gives_readFirstSet (maxLen : Nat) (count : UInt8) :
    Gives (fun set : Option (List UInt8) => ∀ bs ∈ set, bs.length ≤ maxLen)
      (readFirstSet maxLen count) := by
  refine .ite (fun _ => .pure (by simp)) fun _ => ?_
  refine .bind fun c => .ite (fun _ => .pure (by simp)) fun _ => .bind fun length => ?_
  refine .ite (fun _ => .pure (by simp)) fun hfits => ?_
  refine .bind fun c => .ite (fun _ => .pure (by simp)) fun _ => ?_
  refine .bind_of (gives_readNbyte length.toNat) fun bs hbs => .pure ?_
  rintro _ ⟨⟩
  omega

theorem gives_getFirst :
    Gives (fun header : Option AvcSequenceHeader =>
        ∀ h ∈ header, h.sps.length ≤ spsMaxLen ∧ h.pps.length ≤ ppsMaxLen)
      (getFirstSpsAndFirstPpsFromAvcSequenceHeader spsMaxLen ppsMaxLen) := by
  refine .bind fun c => .ite (fun _ => .pure (by simp)) fun _ => .bind fun fmt => ?_
  refine .bind fun c => .ite (fun _ => .pure (by simp)) fun _ => .bind fun avcType => ?_
  refine .ite (fun _ => .pure (by simp)) fun _ => ?_
  refine .bind fun c => .ite (fun _ => .pure (by simp)) fun _ => .bind fun cts => ?_
  refine .bind fun c => .ite (fun _ => .pure (by simp)) fun _ => .bind fun vpcl => ?_
  refine .bind fun c => .ite (fun _ => .pure (by simp)) fun _ => .bind fun size => ?_
  refine .bind fun c => .ite (fun _ => .pure (by simp)) fun _ => .bind fun count => ?_
  refine .bind_of (gives_readFirstSet spsMaxLen _) fun sps hsps => ?_
  cases sps with
  | none => exact .pure (by simp)
  | some sps =>
      refine .bind fun c => .ite (fun _ => .pure (by simp)) fun _ => .bind fun count => ?_
      refine .bind_of (gives_readFirstSet ppsMaxLen _) fun pps hpps => ?_
      cases pps with
      | none => exact .pure (by simp)
      | some pps =>
          apply Gives.pure
          rintro _ ⟨⟩
          exact ⟨hsps sps rfl, hpps pps rfl⟩

end Sets

/-- The codec information a context keeps is that of the last sequence headers, if any. -/
structure InfoKept (context : MediaPublishEsContext) : Prop where
  audio : context.audioInitEs.codecInfo = [] ∨ ∃ rate channels,
    context.audioInitEs.sampleRate = some rate ∧
      context.audioInitEs.channelCount = some channels ∧
      context.audioInitEs.codecInfo = Bytes.toBE 4 rate.toNat ++ Bytes.toBE 4 channels.toNat
  video : context.videoInitEs.codecInfo = [] ∨
    (context.videoInitEs.codecInfo =
        delimiter ++ context.videoInitEs.sps ++ delimiter ++ context.videoInitEs.pps ∧
      context.videoInitEs.sps.length ≤ 0xFFFF ∧ context.videoInitEs.pps.length ≤ 0xFFFF)

namespace InfoKept

variable {context context' : MediaPublishEsContext}

theorem congr (h : InfoKept context) (haudio : context'.audioInitEs = context.audioInitEs)
    (hvideo : context'.videoInitEs = context.videoInitEs) : InfoKept context' where
  audio := by
    rw [haudio]
    exact h.audio
  video := by
    rw [hvideo]
    exact h.video

/-- Only sequence headers touch the codec information. -/
theorem processNalu (h : InfoKept context) {timestamp : UInt64} {frame : VideoFrame}
    {r : Processed} (hr : FlvMessage.processNalu context timestamp frame = .ok r) :
    InfoKept r.context := by
  obtain ⟨videoEs, hes, -⟩ := except_bind_ok.mp hr
  by_cases hgate : frame.keyframe = 1 ∨ context.firstVideoKeyFrameSent = true
  · rw [processNalu_queued hes hgate] at hr
    cases hr
    exact h.congr rfl rfl
  · rw [processNalu_refused hes hgate] at hr
    cases hr
    exact h

theorem process (h : InfoKept context) {timestamp : UInt64} {buffer : List UInt8}
    {packet : Option FlvPacket} {r : Processed}
    (hr : FlvPacket.process context timestamp buffer packet = .ok r) : InfoKept r.context := by
  cases packet with
  | none =>
      cases hr
      exact h
  | some packet =>
      cases packet with
      | aacSequenceHeader =>
          obtain ⟨header, -, hr⟩ := except_bind_ok.mp hr
          cases header with
          | none =>
              cases hr
              exact h
          | some header =>
              cases hr
              exact ⟨.inr ⟨_, _, rfl, rfl, rfl⟩, h.video⟩
      | aacRaw =>
          obtain ⟨audioEs, -, hr⟩ := except_bind_ok.mp hr
          cases audioEs with
          | none =>
              cases hr
              exact h
          | some audioEs =>
              cases hr
              exact h.congr rfl rfl
      | avcSequenceHeader =>
          obtain ⟨header, hheader, hr⟩ := except_bind_ok.mp hr
          cases header with
          | none =>
              cases hr
              exact h
          | some header =>
              cases hr
              exact ⟨h.audio, .inr ⟨rfl, gives_getFirst.run' hheader header rfl⟩⟩
      | avcNalu =>
          obtain ⟨frame, -, hr⟩ := except_bind_ok.mp hr
          cases frame with
          | none =>
              cases hr
              exact h
          | some frame => exact h.processNalu hr
      | avcEndOfSequence =>
          obtain ⟨eos, -, hr⟩ := except_bind_ok.mp hr
          cases hr
          exact h.congr rfl rfl

end InfoKept

/-- `init_publish` is no more than its request, since nothing fails to be encoded. -/
theorem initPublish_eq (send : HttpRequest → HttpResult) (context : MediaPublishEsContext) :
    initPublish send context =
      checkResponse 1 (send (.initPublish context.publishEsAddrPort context.publishId
        (Base64.encodeGroups context.videoInitEs.codecInfo)
        (Base64.encodeGroups context.audioInitEs.codecInfo))) := by
  simp only [initPublish, Base64.encodeShort_eq]

/-- The texts of a request, as `Base64::Encode` returns them for the codec information of its
context, and as they are decoded to the headers. -/
structure Described (context : MediaPublishEsContext) (avc aac : List UInt8) : Prop where
  videoText : Base64.encode context.videoInitEs.codecInfo = .ok (true, avc)
  audioText : Base64.encode context.audioInitEs.codecInfo = .ok (true, aac)
  sets : context.videoInitEs.sps.length ≤ 0xFFFF ∧ context.videoInitEs.pps.length ≤ 0xFFFF
  video : Base64.decode avc =
    .ok (true, delimiter ++ context.videoInitEs.sps ++ delimiter ++ context.videoInitEs.pps)
  audio : ∃ rate channels, context.audioInitEs.sampleRate = some rate ∧
    context.audioInitEs.channelCount = some channels ∧
    Base64.decode aac = .ok (true, Bytes.toBE 4 rate.toNat ++ Bytes.toBE 4 channels.toNat)

/-- Nothing but size is in the way of encoding, and nothing but that and emptiness in the way of
decoding what was encoded. -/
theorem Base64.encode_decode {input : List UInt8} (hne : input ≠ []) (h : input.length < 2 ^ 20) :
    Base64.encode input = .ok (true, Base64.encodeGroups input) ∧
      Base64.decode (Base64.encodeGroups input) = .ok (true, input) := by
  constructor
  · exact (Base64.encode_iff input).mpr (by omega)
  · rw [Base64.decode_encodeGroups, if_neg hne]
    rw [Base64.length_encodeGroups, Base64.encodedLength]
    omega

theorem InfoKept.described {context : MediaPublishEsContext} (h : InfoKept context)
    (haudio : context.audioInitEs.codecInfo ≠ []) (hvideo : context.videoInitEs.codecInfo ≠ []) :
    Described context (Base64.encodeGroups context.videoInitEs.codecInfo)
      (Base64.encodeGroups context.audioInitEs.codecInfo) := by
  obtain ⟨hvideoInfo, hsps, hpps⟩ := h.video.resolve_left hvideo
  obtain ⟨rate, channels, hrate, hchannels, haudioInfo⟩ := h.audio.resolve_left haudio
  have hvideoShort : context.videoInitEs.codecInfo.length < 2 ^ 20 := by
    rw [hvideoInfo]
    simp only [delimiter, List.length_append, List.length_cons, List.length_nil]
    omega
  have haudioShort : context.audioInitEs.codecInfo.length < 2 ^ 20 := by
    rw [haudioInfo, List.length_append, Bytes.length_toBE, Bytes.length_toBE]
    decide
  obtain ⟨hvideoText, hvideoDecoded⟩ := Base64.encode_decode hvideo hvideoShort
  obtain ⟨haudioText, haudioDecoded⟩ := Base64.encode_decode haudio haudioShort
  exact ⟨hvideoText, haudioText, ⟨hsps, hpps⟩, hvideoInfo ▸ hvideoDecoded,
    rate, channels, hrate, hchannels, haudioInfo ▸ haudioDecoded⟩

namespace RtmpHandler

variable {http : List PublishCall → HttpRequest → HttpResult} {json : List UInt8 → JsonDocument}
variable {events : List Event} {p : Publisher} {e : Event}
variable {context context' : MediaPublishEsContext} {publishes : Bool}

theorem prepareMedia_info {header : RtmpHeader} {data : List UInt8} (hp : InfoKept context)
    (h : prepareMedia context header data = .ok (context', publishes)) : InfoKept context' := by
  rw [prepareMedia, processFlvEsMessage_classify] at h
  split at h
  · cases h
  · next hprocessed =>
    cases h
    obtain ⟨packet, -, hr⟩ := except_bind_ok.mp hprocessed
    exact hp.process hr

theorem answer_info (hp : InfoKept context) (header : RtmpHeader) (body : MessageBody) :
    InfoKept (answer context header body).1 := by
  cases body <;> exact hp.congr rfl rfl

theorem prepare_info (hp : InfoKept context)
    (h : prepare context e = .ok (context', publishes)) : InfoKept context' := by
  cases e with
  | disconnect =>
      cases h
      exact hp.congr rfl rfl
  | request request =>
      rw [prepare] at h
      split at h
      · exact prepareMedia_info hp h
      · exact prepareMedia_info hp h
      · cases h
        exact answer_info hp _ _

/-- The codec information of a context, and of the contexts of all calls made before. -/
def InfoEverywhere (p : Publisher) : Prop :=
  InfoKept p.context ∧ ∀ c ∈ p.calls, InfoKept c.context

/-- An act records the context it finds, and leaves the codec information alone. -/
theorem act_info {p q : Publisher} (hp : InfoEverywhere p) (hact : PublishAct p q) :
    InfoEverywhere q := by
  obtain ⟨hcontext, hcalls⟩ := hp
  have hrecord : ∀ function ec, ∀ c ∈ (p.record function ec).calls, InfoKept c.context := by
    intro function ec c hc
    rcases List.mem_append.mp hc with hc | hc
    · exact hcalls c hc
    · rw [List.mem_singleton.mp hc]
      exact hcontext
  cases hact with
  | beginFailed _ _ => exact ⟨hcontext, hrecord _ _⟩
  | begun _ => exact ⟨hcontext.congr rfl rfl, hrecord _ _⟩
  | initFailed _ _ _ => exact ⟨hcontext, hrecord _ _⟩
  | inited _ _ => exact ⟨hcontext.congr rfl rfl, hrecord _ _⟩
  | esFailed _ _ _ => exact ⟨hcontext, hrecord _ _⟩
  | uploaded _ _ => exact ⟨hcontext.congr rfl rfl, hrecord _ _⟩
  | endFailed _ _ _ => exact ⟨hcontext, hrecord _ _⟩
  | ended _ _ => exact ⟨hcontext.congr rfl rfl, hrecord _ _⟩

theorem run_info (h : run http json events = .ok p) : InfoEverywhere p := by
  refine History.run_invariant ?_ ⟨⟨.inl rfl, .inl rfl⟩, by simp⟩ h
  intro p e q hp hstep
  obtain ⟨context, publishes, hprepare, hacts⟩ := onEvent_acts hstep
  refine PublishAct.run_invariant (fun _ _ => act_info) ?_ hacts
  exact ⟨prepare_info hp.1 hprepare, hp.2⟩

/-- In every run the texts each `init_publish` sends are read back by `Base64::Decode`, as the
rate and the channels of the AAC header and the parameter sets of the AVC header. -/
theorem codec_texts (h : run http json events = .ok p) :
    ∀ c ∈ p.calls, c.function = .initPublish →
      ∃ avc aac, Described c.context avc aac ∧
        ∀ send, initPublish send c.context =
          checkResponse 1 (send (.initPublish c.context.publishEsAddrPort c.context.publishId
            avc aac)) := by
  intro c hc hfunction
  obtain ⟨before, after, hsplit⟩ := List.append_of_mem hc
  have hallowed := (run_ordered h).lawful before c after hsplit
  rw [PublishCall.Allowed, hfunction] at hallowed
  obtain ⟨-, -, -, haudio, hvideo, -⟩ := hallowed
  exact ⟨_, _, ((run_info h).2 c hc).described haudio hvideo,
    fun send => initPublish_eq send c.context⟩

theorem codec_texts_shortStream :
    ∃ p, run granting grantingJson shortStream = .ok p ∧
      (∃ c ∈ p.calls, c.function = .initPublish) ∧
      ∀ c ∈ p.calls, c.function = .initPublish →
        ∃ avc aac, Described c.context avc aac ∧
          ∀ send, initPublish send c.context =
            checkResponse 1 (send (.initPublish c.context.publishEsAddrPort c.context.publishId
              avc aac)) := by
  obtain ⟨p, h⟩ : ∃ p, run granting grantingJson shortStream = .ok p :=
    History.exists_ok (by decide +kernel)
  have hinit : (run granting grantingJson shortStream).toOption.any
      (fun p => p.calls.any fun c => c.function = .initPublish) = true := by decide +kernel
  rw [h] at hinit
  refine ⟨p, h, ?_, codec_texts h⟩
  simpa [Except.toOption] using hinit

end RtmpHandler

end Rtmp
