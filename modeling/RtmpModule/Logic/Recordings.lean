import RtmpModule.Library.History
import RtmpModule.Logic.WriteFlv

/-!
# Recordings

Connections are served one after another. Each has a context of its own, in which the
server keeps whether it has written the header of a recording. The file is that of the
name of the stream, which a connection can change and other connections can use again,
and what is in it stays there.
-/

namespace Rtmp

/-- A connection is accepted, or a request of the last one is handled. -/
inductive RecordingEvent where
  | connect
  | publish (streamName : List UInt8)
  | media (m : MediaMessage)

/-- The context of the connection, what the files hold and what came before. -/
structure Recordings (File : Type*) where
  context : RecordingContext := {}
  files : File → List UInt8 := fun _ => []
  events : List RecordingEvent := []

namespace Recordings

variable {File φ : Type*} [DecidableEq File]

/-- The file of a name after some events, once its directory is made: there is none when it
cannot be opened, and making the directory can fail. -/
abbrev FileSystem (File φ : Type*) :=
  List RecordingEvent → List UInt8 → Except φ (Option File)

/-- Bytes are written to the end of a file. -/
def append (opened : Option File) (files : File → List UInt8) (bytes : List UInt8) :
    File → List UInt8 :=
  fun f => if opened = some f then files f ++ bytes else files f

variable (fileSystem : FileSystem File φ)

/-- What the server does to the recordings in one event. -/
def step (s : Recordings File) (e : RecordingEvent) : Except φ (Recordings File) :=
  match e with
  | .connect => .ok { s with context := {}, events := s.events ++ [e] }
  | .publish streamName =>
      .ok { s with context := { s.context with streamName }, events := s.events ++ [e] }
  | .media m =>
      match fileSystem s.events (WriteFlv.flvFileName s.context.streamName) with
      | .error fault => .error fault
      | .ok opened =>
          -- `writeFlv_fileName`: every append is to the file of that name
          let (context, appends) := writeFlv s.context m.header m.data
          .ok { context
                files := (appends.map (·.bytes)).foldl (append opened) s.files
                events := s.events ++ [e] }

/-- Every file that is not empty is the header with tags behind it. -/
def Playable (s : Recordings File) : Prop := ∀ f, s.files f ≠ [] → FlvFile.IsFile (s.files f)

/-- A message goes to a file that is already there, except the first one of its connection, which
goes to a new file. -/
def Continues (s : Recordings File) : RecordingEvent → Prop
  | .media _ => ∀ f,
      fileSystem s.events (WriteFlv.flvFileName s.context.streamName) = .ok (some f) →
        (s.context.writeFlvHeaderDone = true ↔ s.files f ≠ [])
  | _ => True

/-- Every file is made of headers and tags. -/
def InPieces (s : Recordings File) : Prop :=
  ∀ f, ∃ pieces, s.files f = FlvFile.Piece.flatten pieces

section Append

variable (opened : Option File) (files : File → List UInt8)

theorem foldl_append (chunks : List (List UInt8)) :
    chunks.foldl (append opened) files = append opened files chunks.flatten := by
  induction chunks generalizing files with
  | nil =>
      funext f
      simp [append]
  | cons bytes chunks ih =>
      funext f
      rw [List.foldl_cons, ih]
      by_cases hf : opened = some f
      · simp [append, hf]
      · simp [append, hf]

end Append

variable {fileSystem : FileSystem File φ} {s s' : Recordings File} {m : MediaMessage}

/-- A message puts its pieces to the end of the file it goes to. -/
theorem step_media (h : step fileSystem s (.media m) = .ok s') :
    ∃ opened, fileSystem s.events (WriteFlv.flvFileName s.context.streamName) = .ok opened ∧
      s'.files = append opened s.files
        (FlvFile.Piece.flatten (WriteFlv.recordedPieces s.context m)) := by
  rw [step] at h
  split at h
  · cases h
  · next opened hopened =>
    have hbytes := WriteFlv.writeFlv_bytes s.context m
    generalize writeFlv s.context m.header m.data = written at h hbytes
    cases h
    exact ⟨opened, hopened, by rw [foldl_append, ← List.flatMap_def, hbytes]⟩

theorem step_inPieces {e : RecordingEvent} (hs : s.InPieces)
    (h : step fileSystem s e = .ok s') : s'.InPieces := by
  cases e with
  | connect => cases h; exact hs
  | publish streamName => cases h; exact hs
  | media m =>
      intro f
      obtain ⟨pieces, hf⟩ := hs f
      obtain ⟨opened, -, hfiles⟩ := step_media h
      rw [hfiles, append]
      split
      · rw [hf, ← FlvFile.Piece.flatten_append]
        exact ⟨_, rfl⟩
      · exact ⟨pieces, hf⟩

theorem ne_nil_of_isFile {bytes : List UInt8} (h : FlvFile.IsFile bytes) : bytes ≠ [] := by
  obtain ⟨tags, rfl⟩ := h
  exact List.cons_ne_nil _ _

/-- What a message makes of the file it goes to. -/
theorem isFile_recorded {context : RecordingContext} {pieces : List FlvFile.Piece} :
    FlvFile.IsFile (FlvFile.Piece.flatten (pieces ++ WriteFlv.recordedPieces context m)) ↔
      (FlvFile.Piece.flatten pieces ≠ [] → FlvFile.IsFile (FlvFile.Piece.flatten pieces)) ∧
        (context.writeFlvHeaderDone = true ↔ FlvFile.Piece.flatten pieces ≠ []) := by
  by_cases hdone : context.writeFlvHeaderDone = true
  · rw [WriteFlv.recordedPieces, if_pos hdone, FlvFile.Piece.isFile_concat_tag,
      iff_true_left hdone]
    exact ⟨fun h => ⟨fun _ => h, ne_nil_of_isFile h⟩, fun h => h.1 h.2⟩
  · rw [WriteFlv.recordedPieces, if_neg hdone, FlvFile.Piece.isFile_header_tag,
      iff_false_left hdone, not_ne_iff, FlvFile.Piece.flatten_eq_nil]
    exact ⟨fun h => ⟨fun hne => absurd (FlvFile.Piece.flatten_eq_nil.mpr h) hne, h⟩, fun h => h.2⟩

/-- The files stay playable exactly when the message continues its recording. -/
theorem step_playable {e : RecordingEvent} (hs : s.InPieces)
    (h : step fileSystem s e = .ok s') :
    s'.Playable ↔ s.Playable ∧ Continues fileSystem s e := by
  cases e with
  | connect => cases h; exact (and_iff_left trivial).symm
  | publish streamName => cases h; exact (and_iff_left trivial).symm
  | media m =>
      obtain ⟨opened, hopened, hfiles⟩ := step_media h
      have hother : ∀ f, opened ≠ some f → s'.files f = s.files f := by
        intro f hf
        rw [hfiles, append, if_neg hf]
      have hone : ∀ f, opened = some f →
          ((s'.files f ≠ [] → FlvFile.IsFile (s'.files f)) ↔
            (s.files f ≠ [] → FlvFile.IsFile (s.files f)) ∧
              (s.context.writeFlvHeaderDone = true ↔ s.files f ≠ [])) := by
        intro f hf
        obtain ⟨pieces, hpieces⟩ := hs f
        have hne : WriteFlv.recordedPieces s.context m ≠ [] := by
          rw [WriteFlv.recordedPieces]
          split <;> exact List.cons_ne_nil _ _
        rw [hfiles, append, if_pos hf, hpieces, ← FlvFile.Piece.flatten_append,
          ← isFile_recorded, forall_prop_of_true]
        rw [ne_eq, FlvFile.Piece.flatten_eq_nil]
        exact List.append_ne_nil_of_right_ne_nil _ hne
      constructor
      · intro hplayable
        constructor
        · intro f
          by_cases hf : opened = some f
          · exact ((hone f hf).mp (hplayable f)).1
          · rw [← hother f hf]
            exact hplayable f
        · intro f hf
          rw [hopened] at hf
          exact ((hone f (Except.ok.inj hf)).mp (hplayable f)).2
      · rintro ⟨hplayable, hcontinues⟩ f
        by_cases hf : opened = some f
        · exact (hone f hf).mpr ⟨hplayable f, hcontinues f (hopened.trans (congrArg _ hf))⟩
        · rw [hother f hf]
          exact hplayable f

theorem run_inPieces {events : List RecordingEvent}
    (h : History.run (step fileSystem) {} events = .ok s) : s.InPieces :=
  History.run_invariant (fun _ _ _ hs h => step_inPieces hs h) (fun _ => ⟨[], rfl⟩) h

/-- After every run, all files are playable exactly when each message went to a file that was
already there, and the first one of a connection to a new file. -/
theorem playable_iff (fileSystem : FileSystem File φ) (events : List RecordingEvent)
    (s : Recordings File) (h : History.run (step fileSystem) {} events = .ok s) :
    s.Playable ↔ History.Lawful (fun before e => ∀ t,
      History.run (step fileSystem) {} before = .ok t → Continues fileSystem t e) events := by
  refine History.run_lawful_iff (fun f hne => absurd rfl hne) ?_ h
  intro before e s s' hrun hstep
  rw [step_playable (run_inPieces hrun) hstep]
  refine and_congr_right fun _ => ⟨?_, fun hall => hall s hrun⟩
  intro hcontinues t ht
  rw [hrun] at ht
  cases ht
  exact hcontinues

/-- Every name is that of a file of its own. -/
def ownFiles : FileSystem (List UInt8) Empty := fun _ fileName => .ok (some fileName)

/-- The header of a stream of sound. -/
def soundMessage : MediaMessage where
  header := { msgTypeId := .audioData, msgLength := 2 }
  data := [0xaf, 0x00]
  media := .inl rfl
  msgLength := rfl
  data_lt := by decide

/-- A connection that publishes one stream. -/
def oneName : List RecordingEvent :=
  [.connect, .publish [97], .media soundMessage, .media soundMessage]

theorem playable_iff_oneName :
    ∃ s, History.run (step ownFiles) {} oneName = .ok s ∧
      (s.Playable ↔ History.Lawful (fun before e => ∀ t,
        History.run (step ownFiles) {} before = .ok t → Continues ownFiles t e) oneName) := by
  obtain ⟨s, h⟩ : ∃ s, History.run (step ownFiles) {} oneName = .ok s := ⟨_, rfl⟩
  exact ⟨s, h, playable_iff ownFiles oneName s h⟩

/-- A connection that publishes one stream and then another. -/
def twoNames : List RecordingEvent :=
  [.connect, .publish [97], .media soundMessage, .publish [98], .media soundMessage]

/-- The file of the second stream has no header. -/
theorem not_playable_twoNames :
    ¬ ∀ (events : List RecordingEvent) (s : Recordings (List UInt8)),
      History.run (step ownFiles) {} events = .ok s → s.Playable := by
  intro h
  obtain ⟨s, hrun, hfirst⟩ : ∃ s, History.run (step ownFiles) {} twoNames = .ok s ∧
      (s.files (WriteFlv.flvFileName [98])).head? = some 8 := ⟨_, rfl, by decide +kernel⟩
  have hne : s.files (WriteFlv.flvFileName [98]) ≠ [] := by
    intro hnil
    rw [hnil] at hfirst
    cases hfirst
  obtain ⟨tags, hfile⟩ := h twoNames s hrun (WriteFlv.flvFileName [98]) hne
  rw [hfile] at hfirst
  cases hfirst

end Recordings

end Rtmp
