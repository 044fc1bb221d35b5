import RtmpModule.Library.Resumable
import RtmpModule.Network.Connection

/-!
# The parser as a resumable machine

The rounds of the parser, cut down to the stages of a header and the chunks of a
payload, form a machine in the sense of `Resumable`: each step takes its bytes or
waits. The machine differs from the code in one point only. It waits for the
payload of a chunk without touching anything, where the code has by then started
the message; `settle` is what the code's state is at such a point.
-/

namespace Rtmp

open AMF0Serializer Resumable

/-- The state of the machine: the core of the parser, and whether it goes on. -/
structure MachineState where
  core : ParserCore
  status : ReadStatus := .reading

namespace MachineState

/-- One stage of a header, or the handover of a finished header. -/
def headerStep (c : ParserCore) (unread : List UInt8) :
    Option (MachineState × List UInt8 × List RtmpMessage) :=
  if c.headerParser.parsingState = .complete then
    some ({ core := { c with
      parsingState := .payloadParsing
      headerParser := { c.headerParser with parsingState := .basicHeader1byte } } }, unread, [])
  else
    let r := c.headerParser.parseInCurrentState unread unread.length
    let c := { c with headerParser := r.parser }
    match r.result with
    | .true => some ({ core := c }, r.stream, [])
    | .false => some ({ core := c, status := .disconnected }, r.stream, [])
    | .indeterminate => none

/-- One chunk of payload. -/
def payloadStep (uninit : Uninit) (c : ParserCore) (unread : List UInt8) :
    Option (MachineState × List UInt8 × List RtmpMessage) :=
  let r := c.payloadRound uninit unread unread.length
  match r.returns with
  | none => some ({ core := r.core }, r.stream, [])
  | some (.ok .indeterminate) => none
  | some (.ok _) => some ({ core := r.core, status := .disconnected }, r.stream, [])
  | some (.error fault) => some ({ core := r.core, status := .aborted fault }, r.stream, [])

def step (uninit : Uninit) (s : MachineState) (unread : List UInt8) :
    Option (MachineState × List UInt8 × List RtmpMessage) :=
  if s.status = .reading then
    match s.core.parsingState with
    | .headerParsing => headerStep s.core unread
    | .payloadParsing => payloadStep uninit s.core unread
    | .complete =>
        some ({ core := { s.core with parsingState := .headerParsing } }, unread,
          s.core.parsedMsg.toList)
  else none

/-- Steps that can follow without reading a byte. -/
def stepWeight (c : ParserCore) : Nat :=
  (match c.parsingState with
    | .headerParsing => 1
    | .complete => 2
    | .payloadParsing => 3) +
  (match c.headerParser.parsingState with
    | .complete => 3
    | .chunkMsgHeaderType3 => 6
    | _ => 0)

def measure (s : MachineState) (unread : List UInt8) : Nat :=
  if s.status = .reading then 16 * unread.length + stepWeight s.core else 0

theorem stepWeight_pos (c : ParserCore) : 0 < stepWeight c := by
  unfold stepWeight
  split <;> omega

/-- A stage pays for the next one with the bytes it takes, or with its own weight. -/
theorem stageWeight_lt (stage next : RtmpHeaderParser.ParsingState) :
    next.rank < stage.rank →
      (match next with
        | .complete => 3
        | .chunkMsgHeaderType3 => 6
        | _ => 0) <
      16 * stage.size +
        match stage with
        | .complete => 3
        | .chunkMsgHeaderType3 => 6
        | _ => 0 := by
  intro hrank
  cases stage with
  | complete => cases hrank
  | chunkMsgHeaderType3 =>
      -- it takes no bytes, and no stage of its rank comes behind it
      cases next <;> first | decide | exact absurd hrank (by decide)
  | _ => split <;> decide

theorem headerStep_measure {c : ParserCore} {unread rest : List UInt8} {s' : MachineState}
    {out : List RtmpMessage} (hc : c.parsingState = .headerParsing)
    (h : headerStep c unread = some (s', rest, out)) :
    s'.measure rest < 16 * unread.length + stepWeight c := by
  have hpos := stepWeight_pos c
  unfold headerStep at h
  split at h
  · rename_i hcomplete
    cases h
    simp [measure, stepWeight, hc, hcomplete]
  · rename_i hcomplete
    have htakes := c.headerParser.parseInCurrentState_takes hcomplete
    dsimp only at h
    split at h
    · rename_i hr
      cases h
      have hsize := RtmpHeaderParser.size_le_of_true hcomplete hr
      have hrank := htakes.rank hr
      have hweight := stageWeight_lt _ _ hrank
      simp only [measure, ↓reduceIte, (htakes.consumes hr).2, List.length_drop, stepWeight, hc]
      omega
    · cases h
      simp only [measure]
      split <;> simp_all
    · cases h

theorem payloadStep_measure {uninit : Uninit} {c : ParserCore} {unread rest : List UInt8}
    {s' : MachineState} {out : List RtmpMessage} (hc : c.parsingState = .payloadParsing)
    (h : payloadStep uninit c unread = some (s', rest, out)) :
    s'.measure rest < 16 * unread.length + stepWeight c := by
  have hpos := stepWeight_pos c
  unfold payloadStep at h
  dsimp only at h
  split at h
  · rename_i hr
    cases h
    have hheader := c.payloadRound_headerParser uninit unread unread.length
    obtain ⟨hstate, hstream, hle⟩ := ParserCore.payloadRound_none hr
    simp only [measure, ↓reduceIte, hstream, List.length_drop, stepWeight, hheader, hc]
    split <;> first | omega | contradiction
  · cases h
  · cases h
    simpa [measure] using by omega
  · cases h
    simpa [measure] using by omega

theorem step_measure {uninit : Uninit} {s s' : MachineState} {unread rest : List UInt8}
    {out : List RtmpMessage} (h : step uninit s unread = some (s', rest, out)) :
    s'.measure rest < s.measure unread := by
  unfold step at h
  split at h
  · rename_i hs
    simp only [measure, hs, ↓reduceIte]
    change s'.measure rest < _
    split at h
    · rename_i hc
      exact headerStep_measure hc h
    · rename_i hc
      exact payloadStep_measure hc h
    · rename_i hc
      cases h
      simp [measure, stepWeight, hc]
  · cases h

theorem headerStep_append {c : ParserCore} {unread rest : List UInt8} {s' : MachineState}
    {out : List RtmpMessage} (more : List UInt8)
    (h : headerStep c unread = some (s', rest, out)) :
    headerStep c (unread ++ more) = some (s', rest ++ more, out) := by
  unfold headerStep at h ⊢
  split
  · simp_all
  · rename_i hcomplete
    rw [if_neg hcomplete] at h
    have htakes := c.headerParser.parseInCurrentState_takes hcomplete
    have hsize : c.headerParser.parsingState.size ≤ unread.length := by
      by_contra hlt
      simp [htakes.short (Nat.lt_of_not_le hlt), RtmpHeaderParser.needMore] at h
    rw [List.length_append, htakes.append hsize hsize]
    dsimp only at h ⊢
    split at h <;> simp_all

theorem payloadStep_append {uninit : Uninit} {c : ParserCore} {unread rest : List UInt8}
    {s' : MachineState} {out : List RtmpMessage} (more : List UInt8)
    (h : payloadStep uninit c unread = some (s', rest, out)) :
    payloadStep uninit c (unread ++ more) = some (s', rest ++ more, out) := by
  unfold payloadStep at h ⊢
  have hne : (c.payloadRound uninit unread unread.length).returns ≠
      some (.ok .indeterminate) := by
    intro hr
    simp [hr] at h
  rw [ParserCore.payloadRound_append more hne]
  dsimp only at h ⊢
  split at h <;> simp_all

theorem step_append {uninit : Uninit} {s s' : MachineState} {unread rest : List UInt8}
    {out : List RtmpMessage} (more : List UInt8)
    (h : step uninit s unread = some (s', rest, out)) :
    step uninit s (unread ++ more) = some (s', rest ++ more, out) := by
  unfold step at h ⊢
  split at h
  · split at h
    · simp_all [headerStep_append more h]
    · simp_all [payloadStep_append more h]
    · simp_all
  · cases h

end MachineState

/-- The machine of one connection. -/
def parserMachine (uninit : Uninit) : Machine MachineState UInt8 RtmpMessage where
  step := MachineState.step uninit
  measure := MachineState.measure
  step_measure := MachineState.step_measure
  step_append := MachineState.step_append

namespace MachineState

/-- The core the code is left with where the machine has drained its stream: with
part of a payload there, the message of the chunk has been started. -/
def settle (uninit : Uninit) (d : Drained MachineState UInt8 RtmpMessage) : ParserCore :=
  if d.state.status = .reading ∧ d.state.core.parsingState = .payloadParsing then
    (d.state.core.payloadRound uninit d.unread d.unread.length).core
  else d.state.core

end MachineState

/-- The header parser is at a stage that takes bytes, as it always is when a call
of `parse_header` begins. -/
def ParserCore.Resting (c : ParserCore) : Prop := c.headerParser.parsingState.size ≠ 0

section Refinement

variable {uninit : Uninit} {c : ParserCore} {unread : List UInt8}

/-- The drained machine the call ended in, as told by what the call returned. -/
def Agrees (uninit : Uninit) (d : Drained MachineState UInt8 RtmpMessage)
    (result : Except Fault Tribool) (core : ParserCore) (stream : List UInt8) : Prop :=
  match result with
  | .ok .true =>
      d = Machine.emit core.parsedMsg.toList ((parserMachine uninit).drain { core } stream) ∧
        core.Resting ∧ core.parsingState = .headerParsing
  | .ok .false => d = { state := { core, status := .disconnected }, unread := stream, out := [] }
  | .ok .indeterminate =>
      d.state.status = .reading ∧ d.out = [] ∧ d.unread = stream ∧
        MachineState.settle uninit d = core
  | .error fault =>
      d = { state := { core, status := .aborted fault }, unread := stream, out := [] }

theorem step_reading (hc : c.parsingState = .headerParsing) :
    (parserMachine uninit).step { core := c } unread = MachineState.headerStep c unread := by
  simp [parserMachine, MachineState.step, hc]

theorem headerStep_short (h : unread.length < c.headerParser.parsingState.size) :
    MachineState.headerStep c unread = none := by
  have hs : c.headerParser.parsingState ≠ .complete := by
    intro hs
    simp [hs, RtmpHeaderParser.ParsingState.size] at h
  rw [MachineState.headerStep, if_neg hs, (c.headerParser.parseInCurrentState_takes hs).short h]
  rfl

theorem drain_stopped {s : MachineState} (h : s.status ≠ .reading) :
    (parserMachine uninit).drain s unread = { state := s, unread, out := [] } :=
  (parserMachine uninit).drain_of_none (by simp [parserMachine, MachineState.step, h])

/-- A header stage that fails or waits decides what the machine does. -/
theorem drain_headerStage (hc : c.parsingState = .headerParsing)
    (hs : c.headerParser.parsingState ≠ .complete)
    (hr : (c.headerParser.parseInCurrentState unread unread.length).result ≠ .true) :
    (parserMachine uninit).drain { core := c } unread =
      { state := {
          core := { c with headerParser :=
            (c.headerParser.parseInCurrentState unread unread.length).parser }
          status := if (c.headerParser.parseInCurrentState unread unread.length).result =
            .indeterminate then .reading else .disconnected }
        unread := (c.headerParser.parseInCurrentState unread unread.length).stream
        out := [] } := by
  have htakes := c.headerParser.parseInCurrentState_takes hs
  cases hresult : (c.headerParser.parseInCurrentState unread unread.length).result with
  | true => exact absurd hresult hr
  | false =>
      have hstep : (parserMachine uninit).step { core := c } unread =
          some ({
              core := { c with headerParser :=
                (c.headerParser.parseInCurrentState unread unread.length).parser }
              status := .disconnected },
            (c.headerParser.parseInCurrentState unread unread.length).stream, []) := by
        rw [step_reading hc, MachineState.headerStep, if_neg hs]
        simp [hresult]
      rw [(parserMachine uninit).drain_of_some hstep, drain_stopped (by simp)]
      rfl
  | indeterminate =>
      have hstep : (parserMachine uninit).step { core := c } unread = none := by
        rw [step_reading hc, MachineState.headerStep, if_neg hs]
        simp [hresult]
      have hshort : unread.length < c.headerParser.parsingState.size := by
        by_contra hsize
        exact htakes.decides (Nat.le_of_not_lt hsize) hresult
      rw [(parserMachine uninit).drain_of_none hstep, htakes.short hshort]
      rfl

/-- `parse_header` is the machine run through the stages of the header. -/
theorem parseHeader_drain (uninit : Uninit) (unread : List UInt8) (total : Nat)
    (hc : c.parsingState = .headerParsing) :
    match (c.headerParser.parseHeader unread unread.length total).result with
    | .true =>
        (parserMachine uninit).drain { core := c } unread =
          (parserMachine uninit).drain
            { core := { c with
                parsingState := .payloadParsing
                headerParser := (c.headerParser.parseHeader unread unread.length total).parser } }
            (c.headerParser.parseHeader unread unread.length total).stream
    | .false =>
        (parserMachine uninit).drain { core := c } unread =
          { state := {
              core := { c with
                headerParser := (c.headerParser.parseHeader unread unread.length total).parser }
              status := .disconnected }
            unread := (c.headerParser.parseHeader unread unread.length total).stream, out := [] }
    | .indeterminate =>
        (parserMachine uninit).drain { core := c } unread =
          { state := { core := { c with
              headerParser := (c.headerParser.parseHeader unread unread.length total).parser } }
            unread := (c.headerParser.parseHeader unread unread.length total).stream
            out := [] } := by
  induction hn : c.headerParser.parsingState.rank using Nat.strongRecOn
      generalizing c unread total with
  | ind n ih =>
      by_cases hs : c.headerParser.parsingState = .complete
      · have hstep : (parserMachine uninit).step { core := c } unread =
            some ({ core := { c with
                      parsingState := .payloadParsing
                      headerParser := { c.headerParser with
                        parsingState := .basicHeader1byte } } },
              unread, []) := by
          rw [step_reading hc, MachineState.headerStep, if_pos hs]
        rw [RtmpHeaderParser.parseHeader_of_complete hs]
        exact (parserMachine uninit).drain_of_some hstep
      · by_cases hr : (c.headerParser.parseInCurrentState unread unread.length).result = .true
        · have htakes := c.headerParser.parseInCurrentState_takes hs
          have hstream := (htakes.consumes hr).2
          have hstep : (parserMachine uninit).step { core := c } unread =
              some ({ core := { c with headerParser :=
                (c.headerParser.parseInCurrentState unread unread.length).parser } },
                unread.drop c.headerParser.parsingState.size, []) := by
            rw [step_reading hc, MachineState.headerStep, if_neg hs]
            simp [hr, hstream]
          have hnext := @ih _ (hn ▸ htakes.rank hr)
            { c with headerParser :=
              (c.headerParser.parseInCurrentState unread unread.length).parser }
            (unread.drop c.headerParser.parsingState.size)
            (total + c.headerParser.parsingState.size) hc rfl
          rw [List.length_drop] at hnext
          rw [RtmpHeaderParser.parseHeader_of_true hs hr,
            (parserMachine uninit).drain_of_some hstep]
          exact hnext
        · rw [RtmpHeaderParser.parseHeader_of_ne_true hs hr, drain_headerStage hc hs hr]
          dsimp only
          split <;> simp_all

theorem headerRound_drain (uninit : Uninit) (unread : List UInt8) (hrest : c.Resting)
    (hc : c.parsingState = .headerParsing) :
    match (c.headerRound unread unread.length).returns with
    | none =>
        (parserMachine uninit).drain { core := c } unread =
            (parserMachine uninit).drain { core := (c.headerRound unread unread.length).core }
              (c.headerRound unread unread.length).stream ∧
          (c.headerRound unread unread.length).stream.length =
            unread.length - (c.headerRound unread unread.length).readedSize ∧
          (c.headerRound unread unread.length).core.Resting
    | some result =>
        Agrees uninit ((parserMachine uninit).drain { core := c } unread) result
          (c.headerRound unread unread.length).core
          (c.headerRound unread unread.length).stream := by
  by_cases hempty : unread.length = 0
  · have hshort : unread.length < c.headerParser.parsingState.size := by
      rw [hempty]
      exact Nat.pos_of_ne_zero hrest
    have hstep : (parserMachine uninit).step { core := c } unread = none := by
      rw [step_reading hc, headerStep_short hshort]
    rw [(parserMachine uninit).drain_of_none hstep, ParserCore.headerRound, if_pos hempty]
    simp [Agrees, MachineState.settle, hc]
  · have hdrain := parseHeader_drain uninit unread 0 hc
    rw [ParserCore.headerRound, if_neg hempty]
    dsimp only
    cases hr : (c.headerParser.parseHeader unread unread.length).result with
    | true =>
        rw [hr] at hdrain
        obtain ⟨hstate, -, -, hstream⟩ := RtmpHeaderParser.parseHeader_true hr
        refine ⟨hdrain, ?_, ?_⟩
        · dsimp only
          rw [hstream, List.length_drop, Nat.sub_zero]
        · simp [ParserCore.Resting, hstate, RtmpHeaderParser.ParsingState.size]
    | false =>
        rw [hr] at hdrain
        exact hdrain
    | indeterminate =>
        rw [hr] at hdrain
        dsimp only at hdrain ⊢
        rw [hdrain]
        simp [Agrees, MachineState.settle, hc]

theorem payloadRound_drain (uninit : Uninit) (unread : List UInt8) (hrest : c.Resting)
    (hc : c.parsingState = .payloadParsing) :
    match (c.payloadRound uninit unread unread.length).returns with
    | none =>
        (parserMachine uninit).drain { core := c } unread =
            (parserMachine uninit).drain
              { core := (c.payloadRound uninit unread unread.length).core }
              (c.payloadRound uninit unread unread.length).stream ∧
          (c.payloadRound uninit unread unread.length).stream.length =
            unread.length - (c.payloadRound uninit unread unread.length).readedSize ∧
          (c.payloadRound uninit unread unread.length).core.Resting
    | some result =>
        Agrees uninit ((parserMachine uninit).drain { core := c } unread) result
          (c.payloadRound uninit unread unread.length).core
          (c.payloadRound uninit unread unread.length).stream := by
  have hmachine : (parserMachine uninit).step { core := c } unread =
      MachineState.payloadStep uninit c unread := by
    simp [parserMachine, MachineState.step, hc]
  rw [MachineState.payloadStep] at hmachine
  cases hr : (c.payloadRound uninit unread unread.length).returns with
  | none =>
      rw [hr] at hmachine
      have hheader := c.payloadRound_headerParser uninit unread unread.length
      obtain ⟨-, hstream, -⟩ := ParserCore.payloadRound_none hr
      refine ⟨(parserMachine uninit).drain_of_some hmachine, ?_, ?_⟩
      · rw [hstream, List.length_drop]
      · rwa [ParserCore.Resting, hheader]
  | some result =>
      rw [hr] at hmachine
      cases result with
      | error fault =>
          change _ = _
          rw [(parserMachine uninit).drain_of_some hmachine, drain_stopped (by simp)]
          rfl
      | ok value =>
          cases value with
          | true => exact absurd hr ParserCore.payloadRound_ne_true
          | false =>
              change _ = _
              rw [(parserMachine uninit).drain_of_some hmachine, drain_stopped (by simp)]
              rfl
          | indeterminate =>
              rw [(parserMachine uninit).drain_of_none hmachine]
              refine ⟨rfl, rfl, ?_, ?_⟩
              · exact (ParserCore.payloadRound_indeterminate hr).symm
              · simp [MachineState.settle, hc]

/-- One round of the loop against the machine. -/
theorem round_drain (uninit : Uninit) (unread : List UInt8) (hrest : c.Resting) :
    match (c.round uninit unread unread.length).returns with
    | none =>
        (parserMachine uninit).drain { core := c } unread =
            (parserMachine uninit).drain { core := (c.round uninit unread unread.length).core }
              (c.round uninit unread unread.length).stream ∧
          (c.round uninit unread unread.length).stream.length =
            unread.length - (c.round uninit unread unread.length).readedSize ∧
          (c.round uninit unread unread.length).core.Resting
    | some result =>
        Agrees uninit ((parserMachine uninit).drain { core := c } unread) result
          (c.round uninit unread unread.length).core
          (c.round uninit unread unread.length).stream := by
  cases hc : c.parsingState with
  | headerParsing =>
      simpa only [ParserCore.round, hc] using headerRound_drain uninit unread hrest hc
  | payloadParsing =>
      simpa only [ParserCore.round, hc] using payloadRound_drain uninit unread hrest hc
  | complete =>
      have hstep : (parserMachine uninit).step { core := c } unread =
          some ({ core := { c with parsingState := .headerParsing } }, unread,
            c.parsedMsg.toList) := by
        simp [parserMachine, MachineState.step, hc]
      rw [RtmpParser.round_complete hc]
      exact ⟨(parserMachine uninit).drain_of_some hstep, hrest, rfl⟩

/-- A call of `parse_private` against the machine. -/
theorem parsePrivate_drain (uninit : Uninit) (unread : List UInt8) {p : RtmpParser} (total : Nat)
    (hrest : p.Resting) :
    Agrees uninit ((parserMachine uninit).drain { core := p.toParserCore } unread)
        (p.parsePrivate uninit unread unread.length total).result
        (p.parsePrivate uninit unread unread.length total).parser.toParserCore
        (p.parsePrivate uninit unread unread.length total).stream ∧
      ((p.parsePrivate uninit unread unread.length total).result = .ok .true →
        (p.parsePrivate uninit unread unread.length total).stream.length =
          unread.length -
            ((p.parsePrivate uninit unread unread.length total).totalReadedSize - total)) := by
  induction hn : p.measure unread.length using Nat.strongRecOn
      generalizing p unread total with
  | ind n ih =>
      have hround := round_drain uninit unread hrest
      cases hr : (p.round uninit unread unread.length).returns with
      | none =>
          rw [hr] at hround
          obtain ⟨hdrain, hlen, hrest'⟩ := hround
          have hlt := ParserCore.round_measure hr
          rw [← hlen] at hlt
          obtain ⟨hagrees, hlength⟩ := @ih _ (hn ▸ hlt)
            (p.round uninit unread unread.length).stream
            (p.afterRound (p.round uninit unread unread.length))
            (total + (p.round uninit unread unread.length).readedSize)
            (by rwa [RtmpParser.afterRound_core]) (by rw [RtmpParser.afterRound_core])
          rw [RtmpParser.parsePrivate_of_none hr, ← hlen, hdrain]
          rw [RtmpParser.afterRound_core] at hagrees
          refine ⟨hagrees, fun htrue => ?_⟩
          have hmono := (RtmpParser.parsePrivate_measure htrue).1
          rw [hlength htrue]
          omega
      | some result =>
          rw [hr] at hround
          rw [RtmpParser.parsePrivate_of_some hr]
          refine ⟨by simpa only [RtmpParser.afterRound_core] using hround, fun htrue => ?_⟩
          obtain rfl : result = .ok .true := htrue
          rw [RtmpParser.round_complete (RtmpParser.round_true_state hr)]
          simp

/-- A call of `parse` against the machine: the accounting takes no part in it. -/
theorem parse_drain (uninit : Uninit) (unread : List UInt8) {p : RtmpParser}
    (hrest : p.Resting) :
    Agrees uninit ((parserMachine uninit).drain { core := p.toParserCore } unread)
        (p.parse uninit unread unread.length).result
        (p.parse uninit unread unread.length).parser.toParserCore
        (p.parse uninit unread unread.length).stream ∧
      ((p.parse uninit unread unread.length).result = .ok .true →
        (p.parse uninit unread unread.length).stream.length =
          unread.length - (p.parse uninit unread unread.length).totalReadedSize) := by
  obtain ⟨hresult, hcore, hstream, htotal⟩ := p.parse_eq uninit unread unread.length
  rw [hresult, hcore, hstream, htotal]
  exact parsePrivate_drain uninit unread 0 hrest

end Refinement

end Rtmp
