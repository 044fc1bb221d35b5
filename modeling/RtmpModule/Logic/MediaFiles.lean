import RtmpModule.Logic.ContextLog
import RtmpModule.Logic.WriteFlv
import RtmpModule.Streamer.FlvDump

/-!
# The files of a connection

`handle_media_message` writes a message to the recording of its stream, and then to files
that are numbered through the connection: the whole message to one, its header and its
data to two more. A recording is appended to. Of the names of the numbered files each is
used once, whatever names the streams are given, as long as the numbers do not run out. The
file system decides which of the names can be opened: with a `/` in the name of a stream,
its directory is not the one that is made.
-/

namespace Rtmp

/-- The numbered files. -/
inductive DumpKind where
  | media
  | audioHeader
  | audioData
  | videoHeader
  | videoData
  deriving DecidableEq, Repr

namespace DumpKind

def directory : DumpKind → List UInt8
  | media => text "media_message_header_and_data"
  | audioHeader => text "audio_message_header"
  | audioData => text "audio_message_data"
  | videoHeader => text "video_message_header"
  | videoData => text "video_message_data"

def suffix : DumpKind → List UInt8
  | media => text ".av.header.data."
  | audioHeader => text ".audio.header."
  | audioData => text ".audio.data."
  | videoHeader => text ".video.header."
  | videoData => text ".video.data."

/-- The file of a kind with a number. -/
def fileName (kind : DumpKind) (streamName : List UInt8) (index : UInt32) : List UInt8 :=
  let streamName := if streamName.isEmpty then text "anonymous" else streamName
  text "dump/" ++ streamName ++ text "/" ++ kind.directory ++ text "/" ++ streamName ++
    kind.suffix ++ decimal index.toUInt64

end DumpKind

section Names

/-- The bytes of the ten digits. -/
def IsDigit (b : UInt8) : Prop := 48 ≤ b.toNat ∧ b.toNat ≤ 57

instance (b : UInt8) : Decidable (IsDigit b) := inferInstanceAs (Decidable (_ ∧ _))

theorem toNat_of_isDigit {c : Char} (h : c.isDigit = true) : 48 ≤ c.toNat ∧ c.toNat ≤ 57 := by
  rw [Char.isDigit, Bool.and_eq_true, decide_eq_true_iff, decide_eq_true_iff] at h
  exact h

theorem toDigits_toNat {n : Nat} {c : Char} (h : c ∈ Nat.toDigits 10 n) :
    48 ≤ c.toNat ∧ c.toNat ≤ 57 :=
  toNat_of_isDigit (Nat.isDigit_of_mem_toDigits (by decide) (by decide) h)

theorem isDigit_of_mem_decimal {n : UInt64} {b : UInt8} (h : b ∈ decimal n) : IsDigit b := by
  obtain ⟨c, hc, rfl⟩ := List.mem_map.mp h
  obtain ⟨hlow, hhigh⟩ := toDigits_toNat hc
  rw [IsDigit, UInt8.toNat_ofNat']
  omega

theorem decimal_ne_nil (n : UInt64) : decimal n ≠ [] :=
  fun h => Nat.toDigits_ne_nil (List.map_eq_nil_iff.mp h)

/-- A number is read off its text. -/
theorem decimal_injective {n n' : UInt64} (h : decimal n = decimal n') : n = n' := by
  have hread (m : UInt64) :
      Nat.ofDigitChars 10 ((decimal m).map fun b => Char.ofNat b.toNat) 0 = m.toNat := by
    have hchars : (decimal m).map (fun b => Char.ofNat b.toNat) = Nat.toDigits 10 m.toNat := by
      rw [decimal, ascii, List.map_map]
      refine (List.map_congr_left fun c hc => ?_).trans (List.map_id _)
      obtain ⟨hlow, hhigh⟩ := toDigits_toNat hc
      change Char.ofNat (UInt8.ofNat c.toNat).toNat = c
      rw [UInt8.toNat_ofNat', Nat.mod_eq_of_lt (by omega), Char.ofNat_toNat]
    rw [hchars, Nat.ofDigitChars_ten_toDigits]
  rw [← UInt64.toNat_inj, ← hread n, ← hread n', h]

namespace DumpKind

/-- The digits at the end of a name, and what is in front of them. -/
theorem fileName_ends (kind : DumpKind) (streamName : List UInt8) (index : UInt32) :
    ((kind.fileName streamName index).reverse.takeWhile fun b => decide (IsDigit b)) =
        (decimal index.toUInt64).reverse ∧
      ((kind.fileName streamName index).reverse.dropWhile fun b => decide (IsDigit b)).take 10 =
        kind.suffix.reverse.take 10 := by
  have hdigits : ∀ b ∈ (decimal index.toUInt64).reverse, decide (IsDigit b) = true := fun b hb =>
    decide_eq_true (isDigit_of_mem_decimal (List.mem_reverse.mp hb))
  rw [fileName, List.reverse_append, List.reverse_append, List.takeWhile_append_of_pos hdigits,
    List.dropWhile_append_of_pos hdigits]
  generalize (text "dump/" ++ _ ++ _ ++ _ ++ _ ++ _).reverse = front
  cases kind with
  | _ => exact ⟨List.append_nil _, rfl⟩

/-- A name tells the kind of a file and its number, whatever the stream is called. -/
theorem fileName_injective {kind kind' : DumpKind} {streamName streamName' : List UInt8}
    {index index' : UInt32}
    (h : kind.fileName streamName index = kind'.fileName streamName' index') :
    kind = kind' ∧ index = index' := by
  obtain ⟨hdigits, hfront⟩ := kind.fileName_ends streamName index
  obtain ⟨hdigits', hfront'⟩ := kind'.fileName_ends streamName' index'
  rw [← h] at hdigits' hfront'
  constructor
  · have hsuffix := hfront.symm.trans hfront'
    cases kind <;> cases kind' <;> first | rfl | exact absurd hsuffix (by decide)
  · have hdecimal := decimal_injective (List.reverse_injective (hdigits.symm.trans hdigits'))
    exact UInt32.toNat_inj.mp (congrArg UInt64.toNat hdecimal)

/-- It is not that of a recording. -/
theorem fileName_ne_flv (kind : DumpKind) (streamName streamName' : List UInt8)
    (index : UInt32) : kind.fileName streamName index ≠ WriteFlv.flvFileName streamName' := by
  intro h
  obtain ⟨hdigits, -⟩ := kind.fileName_ends streamName index
  rw [h, WriteFlv.flvFileName, List.reverse_append] at hdigits
  exact decimal_ne_nil _ (List.reverse_eq_nil_iff.mp hdigits.symm)

end DumpKind

end Names

/-- What the files of a connection depend on. -/
structure DumpContext extends RecordingContext where
  audioIndex : UInt32 := 0
  videoIndex : UInt32 := 0
  mediaIndex : UInt32 := 0

/-- `write_flv_media_message_dump`. What is no audio is taken for video. -/
def writeFlvMediaMessageDump (context : DumpContext) (header : RtmpHeader) (data : List UInt8) :
    DumpContext × List FileAppend :=
  let append (kind : DumpKind) (index : UInt32) (bytes : List UInt8) : FileAppend :=
    ⟨kind.fileName context.streamName index, bytes⟩
  let headerBytes := mediaMessageDump header []
  let mediaIndex := context.mediaIndex + 1
  if header.isAudioMsg then
    let audioIndex := context.audioIndex + 1
    ({ context with mediaIndex, audioIndex },
      [append .media mediaIndex (headerBytes ++ data), append .audioHeader audioIndex headerBytes,
        append .audioData audioIndex data])
  else
    let videoIndex := context.videoIndex + 1
    ({ context with mediaIndex, videoIndex },
      [append .media mediaIndex (headerBytes ++ data), append .videoHeader videoIndex headerBytes,
        append .videoData videoIndex data])

namespace DumpContext

variable (context : DumpContext)

/-- The files of `handle_media_message`. -/
def writeMedia (header : RtmpHeader) (data : List UInt8) : DumpContext × List FileAppend :=
  let (recording, recorded) := writeFlv context.toRecordingContext header data
  let (context, dumped) :=
    writeFlvMediaMessageDump { context with toRecordingContext := recording } header data
  (context, recorded ++ dumped)

/-- The files of `handle_request`; `handle_publish` names the stream. -/
def onRequest (request : RtmpMessage) : DumpContext × List FileAppend :=
  match request.body with
  | .audioMessage data => context.writeMedia request.header data
  | .videoMessage data => context.writeMedia request.header data
  | .publish _ streamName _ => ({ context with streamName }, [])
  | _ => (context, [])

/-- The files of a run of requests. -/
def onRequests : DumpContext → List RtmpMessage → DumpContext × List FileAppend
  | context, [] => (context, [])
  | context, request :: requests =>
      let (context, appends) := context.onRequest request
      let (context, more) := context.onRequests requests
      (context, appends ++ more)

end DumpContext

/-- The header and the data of a media message. -/
def RtmpMessage.media? (message : RtmpMessage) : Option (RtmpHeader × List UInt8) :=
  match message.body with
  | .audioMessage data => some (message.header, data)
  | .videoMessage data => some (message.header, data)
  | _ => none

namespace DumpKind

/-- The messages of which there is a file of a kind. -/
def keeps : DumpKind → RtmpHeader → Bool
  | media, _ => true
  | audioHeader, header => header.isAudioMsg
  | audioData, header => header.isAudioMsg
  | videoHeader, header => !header.isAudioMsg
  | videoData, header => !header.isAudioMsg

/-- What is in it. -/
def bytes : DumpKind → RtmpHeader × List UInt8 → List UInt8
  | media, (header, data) => mediaMessageDump header data
  | audioHeader, (header, _) => mediaMessageDump header []
  | audioData, (_, data) => data
  | videoHeader, (header, _) => mediaMessageDump header []
  | videoData, (_, data) => data

def messages (kind : DumpKind) (media : List (RtmpHeader × List UInt8)) :
    List (RtmpHeader × List UInt8) :=
  media.filter fun m => kind.keeps m.1

theorem messages_concat (kind : DumpKind) (media : List (RtmpHeader × List UInt8))
    (m : RtmpHeader × List UInt8) :
    kind.messages (media ++ [m]) = kind.messages media ++ if kind.keeps m.1 then [m] else [] := by
  rw [messages, List.filter_append, List.filter_singleton]
  cases kind.keeps m.1 <;> rfl

theorem length_messages_le (kind : DumpKind) (media : List (RtmpHeader × List UInt8)) :
    (kind.messages media).length ≤ media.length := List.length_filter_le _ _

end DumpKind

namespace DumpContext

/-- The number of the last file of a kind. -/
def index (context : DumpContext) : DumpKind → UInt32
  | .media => context.mediaIndex
  | .audioHeader => context.audioIndex
  | .audioData => context.audioIndex
  | .videoHeader => context.videoIndex
  | .videoData => context.videoIndex

end DumpContext

section Step

variable (context : DumpContext) (header : RtmpHeader) (data : List UInt8)

/-- The kinds of files a message is written to, in their order. -/
def dumpKinds : List DumpKind :=
  DumpKind.media ::
    if header.isAudioMsg then [.audioHeader, .audioData] else [.videoHeader, .videoData]

theorem mem_dumpKinds {kind : DumpKind} : kind ∈ dumpKinds header ↔ kind.keeps header = true := by
  cases haudio : header.isAudioMsg <;> cases kind <;> simp [dumpKinds, DumpKind.keeps, haudio]

theorem nodup_dumpKinds : (dumpKinds header).Nodup := by
  rw [dumpKinds]
  split <;> decide

/-- Each file of a message has the next number of its kind. -/
theorem writeFlvMediaMessageDump_eq :
    (writeFlvMediaMessageDump context header data).2 = (dumpKinds header).map (fun kind =>
        ⟨kind.fileName context.streamName (context.index kind + 1), kind.bytes (header, data)⟩) ∧
      (∀ kind, (writeFlvMediaMessageDump context header data).1.index kind =
        context.index kind + if kind.keeps header then 1 else 0) ∧
      (writeFlvMediaMessageDump context header data).1.toRecordingContext =
        context.toRecordingContext := by
  rw [writeFlvMediaMessageDump, dumpKinds]
  have hbytes : mediaMessageDump header [] ++ data = mediaMessageDump header data := by
    rw [mediaMessageDump, mediaMessageDump, List.append_nil]
  by_cases haudio : header.isAudioMsg = true
  · rw [if_pos haudio, if_pos haudio, hbytes]
    refine ⟨rfl, fun kind => ?_, rfl⟩
    cases kind <;> simp [DumpContext.index, DumpKind.keeps, haudio]
  · rw [if_neg haudio, if_neg haudio, hbytes]
    refine ⟨rfl, fun kind => ?_, rfl⟩
    cases kind <;> simp [DumpContext.index, DumpKind.keeps, haudio]

/-- `write_flv` writes to the recording of the stream and keeps its name. -/
theorem writeFlv_files (context : RecordingContext) :
    (writeFlv context header data).1 = { context with writeFlvHeaderDone := true } ∧
      ∀ a ∈ (writeFlv context header data).2,
        a.fileName = WriteFlv.flvFileName context.streamName := by
  obtain ⟨streamName, done, audioDelta, videoDelta⟩ := context
  rw [writeFlv]
  cases done <;> cases header.isAudioMsg <;> cases header.isVideoMsg <;>
    simp [WriteFlv.headerOnce, WriteFlv.writeFlvHeader, WriteFlv.writeTag]

/-- A message goes to the recording of its stream and to its numbered files. -/
theorem DumpContext.writeMedia_eq :
    (context.writeMedia header data).2 = (writeFlv context.toRecordingContext header data).2 ++
        (dumpKinds header).map (fun kind =>
          ⟨kind.fileName context.streamName (context.index kind + 1), kind.bytes (header, data)⟩) ∧
      (∀ kind, (context.writeMedia header data).1.index kind =
        context.index kind + if kind.keeps header then 1 else 0) ∧
      (context.writeMedia header data).1.toRecordingContext =
        { context.toRecordingContext with writeFlvHeaderDone := true } := by
  obtain ⟨hdone, -⟩ := writeFlv_files header data context.toRecordingContext
  rw [writeMedia]
  generalize writeFlv context.toRecordingContext header data = recorded at *
  obtain ⟨recording, recorded⟩ := recorded
  obtain ⟨hdumped, hindex, hsame⟩ := writeFlvMediaMessageDump_eq
    { context with toRecordingContext := recording } header data
  obtain rfl : recording = { context.toRecordingContext with writeFlvHeaderDone := true } := hdone
  refine ⟨congrArg (recorded ++ ·) hdumped, fun kind => (hindex kind).trans ?_, hsame⟩
  cases kind <;> rfl

end Step

/-- What is appended to a recording. -/
def InRecording (a : FileAppend) : Prop :=
  ∃ streamName, a.fileName = WriteFlv.flvFileName streamName

/-- What is handed to the streams of a file name. -/
def handed (appends : List FileAppend) (fileName : List UInt8) : List UInt8 :=
  (appends.filter fun a => a.fileName = fileName).flatMap (·.bytes)

theorem handed_append (appends more : List FileAppend) (fileName : List UInt8) :
    handed (appends ++ more) fileName = handed appends fileName ++ handed more fileName := by
  rw [handed, List.filter_append, List.flatMap_append, handed, handed]

theorem handed_of_forall_ne {appends : List FileAppend} {fileName : List UInt8}
    (h : ∀ a ∈ appends, a.fileName ≠ fileName) : handed appends fileName = [] := by
  rw [handed, List.filter_eq_nil_iff.mpr]
  · rfl
  · intro a ha
    simpa using h a ha

/-- No file name but that of a recording is used twice. -/
def WrittenOnce (appends : List FileAppend) : Prop :=
  appends.Pairwise fun a b => a.fileName = b.fileName → InRecording a

/-- What is handed to a name that is used once. -/
theorem WrittenOnce.handed {appends : List FileAppend} (h : WrittenOnce appends)
    {a : FileAppend} (ha : a ∈ appends) (hnumbered : ¬ InRecording a) :
    handed appends a.fileName = a.bytes := by
  obtain ⟨before, after, rfl⟩ := List.append_of_mem ha
  rw [WrittenOnce, List.pairwise_append, List.pairwise_cons] at h
  obtain ⟨-, ⟨hafter, -⟩, hbefore⟩ := h
  have hnone : Rtmp.handed before a.fileName = [] := by
    refine handed_of_forall_ne fun b hb hname => hnumbered ?_
    obtain ⟨streamName, hrecording⟩ := hbefore b hb a List.mem_cons_self hname
    exact ⟨streamName, hname.symm.trans hrecording⟩
  have hnone' : Rtmp.handed after a.fileName = [] :=
    handed_of_forall_ne fun b hb hname => hnumbered (hafter b hb hname.symm)
  have hone : Rtmp.handed [a] a.fileName = a.bytes := by simp [Rtmp.handed]
  rw [handed_append, ← List.singleton_append, handed_append, hnone, hone, hnone',
    List.nil_append, List.append_nil]

section Files

variable {File φ : Type}

/-- The file of a name behind some appends, once its directory is made: there is none when it
cannot be opened, and making the directory can fail. -/
abbrev DumpFiles (File φ : Type) := List FileAppend → List UInt8 → Except φ (Option File)

/-- The appends that reach a file, behind others. -/
def reach (files : DumpFiles File φ) (before : List FileAppend) :
    List FileAppend → Except φ (List (File × FileAppend))
  | [] => .ok []
  | a :: appends => do
      let opened ← files before a.fileName
      let others ← reach files (before ++ [a]) appends
      return opened.toList.map (fun f => (f, a)) ++ others

/-- What is appended to a file. -/
def contents [DecidableEq File] (written : List (File × FileAppend)) (f : File) : List UInt8 :=
  (written.filter fun w => w.1 = f).flatMap (·.2.bytes)

/-- A file is what a name opens whenever it is appended to, and no other name in use. -/
def IsFileOf (files : DumpFiles File φ) (before : List FileAppend) (f : File)
    (fileName : List UInt8) : List FileAppend → Prop
  | [] => True
  | a :: appends =>
      (files before a.fileName = .ok (some f) ↔ a.fileName = fileName) ∧
        IsFileOf files (before ++ [a]) f fileName appends

/-- The file of a name holds what is handed to the name. -/
theorem contents_reach [DecidableEq File] {files : DumpFiles File φ}
    {before appends : List FileAppend} {written : List (File × FileAppend)} {f : File}
    {fileName : List UInt8} (h : reach files before appends = .ok written)
    (hf : IsFileOf files before f fileName appends) :
    contents written f = handed appends fileName := by
  induction appends generalizing before written with
  | nil =>
      cases h
      rfl
  | cons a appends ih =>
      obtain ⟨hname, hrest⟩ := hf
      obtain ⟨opened, hopened, h⟩ := except_bind_ok.mp h
      obtain ⟨others, hothers, h⟩ := except_bind_ok.mp h
      cases h
      have hhead : contents (opened.toList.map fun f => (f, a)) f = handed [a] fileName := by
        rw [hopened] at hname
        cases opened with
        | none =>
            have hother : a.fileName ≠ fileName := fun heq => nomatch hname.mpr heq
            simp [contents, handed, hother]
        | some g =>
            have hsame : g = f ↔ a.fileName = fileName := by simpa using hname
            by_cases heq : a.fileName = fileName
            · simp [contents, handed, heq, hsame.mpr heq]
            · simp [contents, handed, heq, mt hsame.mp heq]
      rw [← List.singleton_append, handed_append, ← hhead, ← ih hothers hrest, contents,
        List.filter_append, List.flatMap_append]
      rfl

end Files

/-- The files of the media so far: their numbers are those of the messages they are about. -/
structure Dumped (media : List (RtmpHeader × List UInt8)) (context : DumpContext)
    (appends : List FileAppend) : Prop where
  index : ∀ kind, (context.index kind).toNat = (DumpKind.messages kind media).length
  place : ∀ a ∈ appends, InRecording a ∨ ∃ (kind : DumpKind) (streamName : List UInt8) (i : Nat),
    i < (kind.messages media).length ∧ a.fileName = kind.fileName streamName (UInt32.ofNat (i + 1))
  once : WrittenOnce appends
  held : ∀ (kind : DumpKind) (i : Nat) (m : RtmpHeader × List UInt8),
    (kind.messages media)[i]? = some m →
      ∃ streamName, ⟨kind.fileName streamName (UInt32.ofNat (i + 1)), kind.bytes m⟩ ∈ appends

namespace Dumped

variable {media : List (RtmpHeader × List UInt8)} {context : DumpContext}
  {appends : List FileAppend}

theorem initial : Dumped [] {} [] where
  index kind := by cases kind <;> rfl
  place _ h := nomatch h
  once := .nil
  held _ _ _ h := by simp [DumpKind.messages] at h

/-- A request without media at most names the stream. -/
theorem other (h : Dumped media context appends) {context' : DumpContext}
    (hindex : ∀ kind, context'.index kind = context.index kind) :
    Dumped media context' appends where
  index kind := by rw [hindex, h.index]
  place := h.place
  once := h.once
  held := h.held

section WriteMedia

variable (h : Dumped media context appends) (header : RtmpHeader) (data : List UInt8)

include h

theorem index_add_one (kind : DumpKind) :
    context.index kind + 1 = UInt32.ofNat ((kind.messages media).length + 1) := by
  rw [← UInt32.toNat_inj, UInt32.toNat_add, h.index, UInt32.toNat_ofNat']
  rfl

/-- Nothing has been written yet to the files of the next message. -/
theorem fresh (hcount : media.length + 1 < 2 ^ 32) {a : FileAppend} (ha : a ∈ appends)
    {kind : DumpKind} {streamName : List UInt8}
    (hname : a.fileName = kind.fileName streamName (context.index kind + 1)) :
    InRecording a := by
  rcases h.place a ha with hrecording | ⟨kind', streamName', i, hi, hname'⟩
  · exact hrecording
  · rw [h.index_add_one, hname'] at hname
    obtain ⟨rfl, hindex⟩ := DumpKind.fileName_injective hname
    have hle := kind'.length_messages_le media
    have hindex' := congrArg UInt32.toNat hindex
    rw [UInt32.toNat_ofNat', UInt32.toNat_ofNat'] at hindex'
    omega

/-- One more message, as long as there is a number for it. -/
theorem writeMedia (hcount : media.length + 1 < 2 ^ 32) :
    Dumped (media ++ [(header, data)]) (context.writeMedia header data).1
      (appends ++ (context.writeMedia header data).2) := by
  obtain ⟨-, hrecording⟩ := writeFlv_files header data context.toRecordingContext
  obtain ⟨hwritten, hindex, -⟩ := context.writeMedia_eq header data
  generalize hdumped : (dumpKinds header).map _ = dumped at hwritten
  have hmem : ∀ b ∈ dumped, ∃ kind : DumpKind, kind.keeps header = true ∧
      b = ⟨kind.fileName context.streamName (context.index kind + 1),
        kind.bytes (header, data)⟩ := by
    intro b hb
    rw [← hdumped] at hb
    obtain ⟨kind, hkind, rfl⟩ := List.mem_map.mp hb
    exact ⟨kind, (mem_dumpKinds header).mp hkind, rfl⟩
  have hrecorded : ∀ a ∈ (writeFlv context.toRecordingContext header data).2, InRecording a :=
    fun a ha => ⟨_, hrecording a ha⟩
  rw [hwritten]
  refine ⟨fun kind => ?_, fun a ha => ?_, ?_, fun kind i m hm => ?_⟩
  · have hle := kind.length_messages_le media
    rw [hindex, kind.messages_concat]
    split
    · rw [h.index_add_one, UInt32.toNat_ofNat', List.length_append, List.length_singleton]
      omega
    · rw [UInt32.add_zero, h.index, List.append_nil]
  · rw [List.mem_append, List.mem_append] at ha
    rcases ha with ha | ha | ha
    · refine (h.place a ha).imp_right ?_
      rintro ⟨kind, streamName, i, hi, hname⟩
      refine ⟨kind, streamName, i, ?_, hname⟩
      rw [kind.messages_concat, List.length_append]
      omega
    · exact .inl (hrecorded a ha)
    · obtain ⟨kind, hkeeps, rfl⟩ := hmem a ha
      refine .inr ⟨kind, context.streamName, (kind.messages media).length, ?_, ?_⟩
      · rw [kind.messages_concat, if_pos hkeeps, List.length_append, List.length_singleton]
        omega
      · rw [h.index_add_one]
  · rw [WrittenOnce, List.pairwise_append, List.pairwise_append]
    refine ⟨h.once, ⟨?_, ?_, ?_⟩, ?_⟩
    · exact List.pairwise_of_forall_mem_list fun a ha _ _ _ => hrecorded a ha
    · rw [← hdumped, List.pairwise_map]
      refine (nodup_dumpKinds header).imp fun hne hname => ?_
      exact absurd (DumpKind.fileName_injective hname).1 hne
    · exact fun a ha _ _ _ => hrecorded a ha
    · intro a ha b hb hname
      rcases List.mem_append.mp hb with hb | hb
      · exact ⟨_, hname.trans (hrecording b hb)⟩
      · obtain ⟨kind, -, rfl⟩ := hmem b hb
        exact h.fresh hcount ha hname
  · rw [kind.messages_concat] at hm
    rw [List.getElem?_append] at hm
    split at hm
    · obtain ⟨streamName, hheld⟩ := h.held kind i m hm
      exact ⟨streamName, List.mem_append_left _ hheld⟩
    · next hlast =>
      split at hm
      · next hkeeps =>
        have hi := (List.getElem?_eq_some_iff.mp hm).1
        rw [List.length_singleton] at hi
        obtain rfl : i = (kind.messages media).length := by omega
        rw [Nat.sub_self] at hm
        cases hm
        refine ⟨context.streamName, List.mem_append_right _ (List.mem_append_right _ ?_)⟩
        rw [← h.index_add_one, ← hdumped]
        exact List.mem_map.mpr ⟨kind, (mem_dumpKinds header).mpr hkeeps, rfl⟩
      · cases hm

end WriteMedia

theorem onRequest (h : Dumped media context appends) (request : RtmpMessage)
    (hcount : media.length + request.media?.toList.length < 2 ^ 32) :
    Dumped (media ++ request.media?.toList) (context.onRequest request).1
      (appends ++ (context.onRequest request).2) := by
  obtain ⟨header, body, writeChunkSize⟩ := request
  cases body with
  | audioMessage data => exact h.writeMedia header data hcount
  | videoMessage data => exact h.writeMedia header data hcount
  | publish transactionId streamName streamType =>
      change Dumped (media ++ []) { context with streamName } (appends ++ [])
      rw [List.append_nil, List.append_nil]
      exact h.other fun kind => by cases kind <;> rfl
  | _ =>
      change Dumped (media ++ []) context (appends ++ [])
      rw [List.append_nil, List.append_nil]
      exact h

theorem onRequests (h : Dumped media context appends) {requests : List RtmpMessage}
    (hcount : media.length + (requests.filterMap (·.media?)).length < 2 ^ 32) :
    Dumped (media ++ requests.filterMap (·.media?)) (context.onRequests requests).1
      (appends ++ (context.onRequests requests).2) := by
  induction requests generalizing media context appends with
  | nil =>
      rw [List.filterMap_nil, DumpContext.onRequests, List.append_nil, List.append_nil]
      exact h
  | cons request requests ih =>
      have hcons : (request :: requests).filterMap (·.media?) =
          request.media?.toList ++ requests.filterMap (·.media?) := by
        rw [List.filterMap_cons]
        cases request.media? <;> rfl
      rw [hcons, List.length_append] at hcount
      have hfirst := h.onRequest request (by omega)
      have hrest := ih hfirst (by rw [List.length_append]; omega)
      rw [hcons, DumpContext.onRequests, ← List.append_assoc, ← List.append_assoc]
      exact hrest

end Dumped

/-- Through a connection every media message has file names of its own, numbered in the order of
the messages they are about: one for the record that can be replayed, and two for its header and
its data. Where such a name opens a file of its own, the file gets just that, whatever names the
streams are given. -/
theorem media_files {File φ : Type} [DecidableEq File] (files : DumpFiles File φ)
    (requests : List RtmpMessage) (hcount : (requests.filterMap (·.media?)).length < 2 ^ 32) :
    let appends := (DumpContext.onRequests {} requests).2
    WrittenOnce appends ∧
      ∀ (kind : DumpKind) (i : Nat) (m : RtmpHeader × List UInt8),
        (kind.messages (requests.filterMap (·.media?)))[i]? = some m →
          ∃ streamName, let fileName := kind.fileName streamName (UInt32.ofNat (i + 1))
            ⟨fileName, kind.bytes m⟩ ∈ appends ∧
              ∀ written f, reach files [] appends = .ok written →
                IsFileOf files [] f fileName appends → contents written f = kind.bytes m := by
  intro appends
  have hdumped := @Dumped.onRequests [] {} [] Dumped.initial requests (by simpa using hcount)
  rw [List.nil_append, List.nil_append] at hdumped
  refine ⟨hdumped.once, fun kind i m hm => ?_⟩
  obtain ⟨streamName, hheld⟩ := hdumped.held kind i m hm
  refine ⟨streamName, hheld, fun written f hreach hfile => ?_⟩
  rw [contents_reach hreach hfile]
  refine hdumped.once.handed hheld ?_
  rintro ⟨streamName', hname⟩
  exact kind.fileName_ne_flv _ _ _ hname

/-- Two packets of sound, the second under another name. -/
def renamedStream : List RtmpMessage :=
  [⟨{ msgTypeId := .commandAmf0 }, .publish 0 [97] [], 128⟩,
    ⟨{ msgTypeId := .audioData, msgLength := 2 }, .audioMessage [0xaf, 0x00], 128⟩,
    ⟨{ msgTypeId := .commandAmf0 }, .publish 0 [98] [], 128⟩,
    ⟨{ msgTypeId := .audioData, msgLength := 2 }, .audioMessage [0xaf, 0x01], 128⟩]

/-- Every name opens a file of its own. -/
def openAll : DumpFiles (List UInt8) Empty := fun _ fileName => .ok (some fileName)

theorem reach_openAll (before appends : List FileAppend) :
    ∃ written, reach openAll before appends = .ok written := by
  induction appends generalizing before with
  | nil => exact ⟨[], rfl⟩
  | cons a appends ih =>
      obtain ⟨others, hothers⟩ := ih (before ++ [a])
      exact ⟨_, except_bind_ok.mpr ⟨_, rfl, except_bind_ok.mpr ⟨others, hothers, rfl⟩⟩⟩

theorem isFileOf_openAll (before appends : List FileAppend) (fileName : List UInt8) :
    IsFileOf openAll before fileName fileName appends := by
  induction appends generalizing before with
  | nil => trivial
  | cons a appends ih =>
      refine ⟨?_, ih _⟩
      rw [openAll, Except.ok.injEq, Option.some.injEq]

theorem media_files_renamedStream :
    let appends := (DumpContext.onRequests {} renamedStream).2
    WrittenOnce appends ∧ ∃ streamName written,
      reach openAll [] appends = .ok written ∧
        contents written (DumpKind.audioData.fileName streamName 2) = [0xaf, 0x01] := by
  intro appends
  obtain ⟨honce, hcontents⟩ := media_files openAll renamedStream (by decide)
  obtain ⟨streamName, -, hfile⟩ := hcontents .audioData 1 _ rfl
  obtain ⟨written, hreach⟩ := reach_openAll [] appends
  exact ⟨honce, streamName, written, hreach,
    hfile written _ hreach (isFileOf_openAll [] appends _)⟩

section Recording

namespace DumpContext

variable {context : DumpContext} {request : RtmpMessage} {requests : List RtmpMessage}

end DumpContext

end Recording

end Rtmp
