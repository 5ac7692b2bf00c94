import Mathlib.Order.Bounds.Basic
import VeritasSync.Library.Bitmap
import VeritasSync.Sync.SyncHandler
import VeritasSync.Sync.UploadOrder

/-
  Resuming a download: the receiver asks for the first chunk
  that it lacks, and the upload that serves the request sends
  that chunk and all that follow it.

  Main declarations:
    * `TransferManager.isLeast_contiguous`
    * `TransferManager.Upload.Undisturbed`
    * `TransferManager.Upload.accepted_of_stuck`
    * `TransferManager.resume_complete`
-/

namespace VeritasSync

namespace TransferManager

open PathUtils StateManager

namespace Upload

------------------------------------------------------------
-- Undisturbed Uploads
------------------------------------------------------------

/-
  The file is there and stays as it is, the peer is
  connected, and timers expire.
-/
def Undisturbed
    (content : Content) : Event → Prop
| .openFile found => found = some content
| .sendChunk file pending => file = content ∧ 0 ≤ pending
| .finish _ => True
| .wake expired => expired = true

theorem unchanged_of_undisturbed
    {content : Content}
    {e : Event}
    (hQuiet : Undisturbed content e) :
    Unchanged content e := by
  cases e with
  | openFile found =>
      cases found with
      | none => trivial
      | some file => exact Option.some.inj hQuiet
  | sendChunk file pending => exact hQuiet.1
  | finish managed => trivial
  | wake expired => trivial

/- How many steps an undisturbed upload has left at most. -/
def stepsLeft
    (config : TransferConfig)
    (content : Content)
    (u : Upload) : ℕ :=
  let left :=
    chunkCount config.chunkDataSize content.length -
      u.currentChunk
  match u.phase with
  | .ended _ => 0
  | .waiting => 3 * left + 3
  | .ready => 3 * left + if u.file = none then 2 else 1

/- It has not been given up. -/
def OnCourse (u : Upload) : Prop :=
  ∀ ending, u.phase = .ended ending → ending = .complete

section Undisturbed

variable
  {config : TransferConfig}
  {content : Content}
  {u₀ u u' : Upload}

theorem onCourse_of_ready
    (hReady : u.phase = .ready) :
    OnCourse u := by
  intro ending hEnded
  rw [hReady] at hEnded
  cases hEnded

theorem onCourse_of_waiting
    (hWaiting : u.phase = .waiting) :
    OnCourse u := by
  intro ending hEnded
  rw [hWaiting] at hEnded
  cases hEnded

theorem phase_openFile_some (file : Content) :
    (u.openFile config (some file)).phase = u.phase := by
  unfold Upload.openFile
  dsimp only
  split <;> rfl

theorem currentChunk_openFile (found : Option Content) :
    (u.openFile config found).currentChunk =
      u.currentChunk := by
  unfold Upload.openFile
  cases found with
  | none =>
      dsimp only
      split <;> rfl
  | some file =>
      dsimp only
      split <;> rfl

theorem file_openFile_some (file : Content) :
    (u.openFile config (some file)).file ≠ none := by
  unfold Upload.openFile
  simp

/- After a chunk was taken the upload waits or goes on. -/
theorem phase_handChunk
    (hReady : u.phase = .ready)
    {file : Content}
    {stream : ReadStream}
    {pending : ℤ}
    (hTaken : 0 ≤ pending) :
    let u' := u.handChunk config file stream pending
    u'.phase = .waiting ∨
      (u'.phase = .ready ∧ u'.file ≠ none) := by
  have hNot : ¬ pending < 0 := by omega
  unfold Upload.handChunk
  dsimp only
  rw [if_neg hNot]
  split
  · exact Or.inl rfl
  · exact Or.inr ⟨hReady, by simp⟩

/- One step less is left after each step. -/
theorem step_undisturbed
    {e : Event}
    (hOrder : InOrder config content u₀ u)
    (hQuiet : Undisturbed content e)
    (hStep : u.step config e = some u') :
    OnCourse u' ∧
      stepsLeft config content u' <
        stepsLeft config content u := by
  rcases step_cases hStep with
    ⟨found, rfl, hReady, hClosed, rfl⟩ |
    ⟨file, pending, stream, rfl, hReady, hFile, hLess, rfl⟩ |
    ⟨managed, rfl, hReady, hOpen, -, rfl⟩ |
    ⟨expired, rfl, hWaiting, rfl⟩
  · have hFound : found = some content := hQuiet
    subst hFound
    have hPhase := @phase_openFile_some config u content
    rw [hReady] at hPhase
    refine ⟨onCourse_of_ready hPhase, ?_⟩
    have hFile := @file_openFile_some config u content
    simp only [stepsLeft, hPhase, hReady, hClosed, if_true,
      currentChunk_openFile, if_neg hFile]
    omega
  · have hTaken : 0 ≤ pending := hQuiet.2
    have hNot : ¬ pending < 0 := by omega
    have hOpened : u.size ≠ none := by
      intro hNone
      rw [(hOrder.sound.unopened hNone).2] at hFile
      cases hFile
    rcases Option.ne_none_iff_exists'.mp hOpened with
      ⟨n, hN⟩
    have hTotal := hOrder.sound.total n hN
    rw [hOrder.size n hN] at hTotal
    rcases @phase_handChunk config u hReady file stream
      pending hTaken with hPhase | ⟨hPhase, hOpen⟩
    · refine ⟨onCourse_of_waiting hPhase, ?_⟩
      simp only [stepsLeft, hPhase, hReady, hFile,
        currentChunk_handChunk, if_neg hNot, reduceCtorEq,
        if_false]
      omega
    · refine ⟨onCourse_of_ready hPhase, ?_⟩
      simp only [stepsLeft, hPhase, hReady, hFile,
        currentChunk_handChunk, if_neg hNot, if_neg hOpen,
        reduceCtorEq, if_false]
      omega
  · constructor
    · intro ending hEnded
      exact (Phase.ended.inj hEnded).symm
    · simp only [stepsLeft, Upload.finish, hReady,
        if_neg hOpen]
      omega
  · have hExpired : expired = true := hQuiet
    subst hExpired
    refine ⟨onCourse_of_ready rfl, ?_⟩
    simp only [stepsLeft, hWaiting, if_true]
    split <;> omega

/- Undisturbed, an upload goes on until it has ended. -/
theorem exists_step
    (hGoing : ∀ ending, u.phase ≠ .ended ending) :
    ∃ e, Undisturbed content e ∧
      u.step config e ≠ none := by
  cases hPhase : u.phase with
  | ready =>
      cases hFile : u.file with
      | none =>
          refine ⟨.openFile (some content), rfl, ?_⟩
          simp [Upload.step, hPhase, hFile]
      | some stream =>
          by_cases hLess : u.currentChunk < u.totalChunks
          · refine ⟨.sendChunk content 0,
              ⟨rfl, Int.le_refl 0⟩, ?_⟩
            simp [Upload.step, hPhase, hFile, hLess]
          · refine ⟨.finish true, trivial, ?_⟩
            have hDone : u.totalChunks ≤ u.currentChunk := by
              omega
            simp [Upload.step, hPhase, hFile, hDone]
  | waiting =>
      refine ⟨.wake true, rfl, ?_⟩
      simp [Upload.step, hPhase]
  | ended ending => exact absurd hPhase (hGoing ending)

/- What an undisturbed upload sends when it has ended. -/
theorem accepted_of_stuck
    (hOrder : InOrder config content u₀ u)
    (hCourse : OnCourse u)
    (hStuck : ∀ e, Undisturbed content e →
      u.step config e = none) :
    u.accepted =
      (List.range' u₀.currentChunk
        (chunkCount config.chunkDataSize content.length -
          u₀.currentChunk)).map
            (chunkOf config u₀.path content) := by
  have hEnded : ∃ ending, u.phase = .ended ending := by
    by_contra hGoing
    rw [not_exists] at hGoing
    rcases @exists_step config content u hGoing with
      ⟨e, hQuiet, hStep⟩
    exact hStep (hStuck e hQuiet)
  rcases hEnded with ⟨ending, hPhase⟩
  have hComplete := hCourse ending hPhase
  subst hComplete
  rcases hOrder.sound.complete hPhase with ⟨hOpened, hDone⟩
  rcases Option.ne_none_iff_exists'.mp hOpened with ⟨n, hN⟩
  have hTotal := hOrder.sound.total n hN
  rw [hOrder.size n hN] at hTotal
  have hWithin := hOrder.sound.within
  have hStarted := hOrder.sound.started
  have hLeft : u.currentChunk - u₀.currentChunk =
      chunkCount config.chunkDataSize content.length -
        u₀.currentChunk := by
    omega
  rw [hOrder.accepted_eq, hLeft]

/-
  Whatever undisturbed steps it takes, the upload comes to
  an end, and then these are the chunks that were taken.
-/
def Sends
    (config : TransferConfig)
    (content : Content)
    (u₀ : Upload)
    (sent : List ChunkHeader) : Prop :=
  ∀ events u,
    (∀ e ∈ events, Undisturbed content e) →
      Transition.run (step config) u₀ events = some u →
        events.length ≤ stepsLeft config content u₀ ∧
          ((∀ e, Undisturbed content e →
              u.step config e = none) →
            u.accepted = sent)

theorem sends_of_queued
    {H : Host}
    {peerId : String}
    {payload : Json}
    {s : LocalState}
    (config : TransferConfig)
    (content : Content)
    (hQueued : queueUpload H peerId payload s = some u₀) :
    Sends config content u₀
      ((List.range' u₀.currentChunk
        (chunkCount config.chunkDataSize content.length -
          u₀.currentChunk)).map
            (chunkOf config u₀.path content)) := by
  intro events u hQuiet hRun
  have hBegin : InOrder config content u₀ u₀ := by
    have hNone : ∀ e ∈ ([] : List Event),
        Unchanged content e := by simp
    exact inOrder_of_run hQueued hNone rfl
  have hReady : u₀.phase = .ready := by
    rcases exists_beginUpload hQueued with ⟨request, -, rfl⟩
    rfl
  have hKeep : ∀ u e u',
      InOrder config content u₀ u ∧ OnCourse u →
        Undisturbed content e → u.step config e = some u' →
          (InOrder config content u₀ u' ∧ OnCourse u') ∧
            stepsLeft config content u' <
              stepsLeft config content u := by
    intro u e u' hInv hQuiet hStep
    rcases step_undisturbed hInv.1 hQuiet hStep with
      ⟨hCourse, hLess⟩
    exact ⟨⟨hInv.1.step (unchanged_of_undisturbed hQuiet)
      hStep, hCourse⟩, hLess⟩
  have hStart : InOrder config content u₀ u₀ ∧ OnCourse u₀ :=
    ⟨hBegin, onCourse_of_ready hReady⟩
  refine ⟨Transition.length_le_measure hKeep hStart hQuiet
    hRun, ?_⟩
  intro hStuck
  have hEnd : InOrder config content u₀ u ∧ OnCourse u :=
    Transition.invariant_of_run
      (fun u e u' hInv hQuiet hStep =>
        (hKeep u e u' hInv hQuiet hStep).1)
      hStart (Transition.meets_of_forall hQuiet) hRun
  exact accepted_of_stuck hEnd.1 hEnd.2 hStuck

end Undisturbed

end Upload

------------------------------------------------------------
-- Resuming A Download
------------------------------------------------------------

/- The chunk to go on from is the first that is missing. -/
theorem isLeast_contiguous (bitmap : List Bool) :
    IsLeast {i | i ∉ Bitmap.marked bitmap}
      (contiguous bitmap) := by
  unfold contiguous
  induction bitmap with
  | nil =>
      refine ⟨?_, fun i _ => Nat.zero_le i⟩
      simp [Bitmap.mem_marked_iff]
  | cons bit bitmap ih =>
      cases bit with
      | false =>
          refine ⟨?_, fun i _ => Nat.zero_le i⟩
          simp [Bitmap.mem_marked_iff]
      | true =>
          have hHead : (List.takeWhile id
              (true :: bitmap)).length =
                (List.takeWhile id bitmap).length + 1 := by
            simp
          rw [hHead]
          refine ⟨?_, ?_⟩
          · have hFree := ih.1
            simpa [Bitmap.mem_marked_iff] using hFree
          · intro i hFree
            cases i with
            | zero => simp [Bitmap.mem_marked_iff] at hFree
            | succ i =>
                apply Nat.succ_le_succ
                apply ih.2
                simpa [Bitmap.mem_marked_iff] using hFree

/-
  A download that stopped halfway, whose file is announced
  again as it was.
-/
structure Halfway
    (H : Host)
    (path remoteHash : String)
    (remoteSize : ℕ)
    (entry : ReceivingFile)
    (s : LocalState) : Prop where
  found : s.receiving.lookup path = some entry
  bitmap : entry.receivedBitmap.length = entry.totalChunks
  received : 0 < entry.receivedChunks
  incomplete : entry.receivedChunks < entry.totalChunks
  temp : Filesystem.exists? s.disk
    (H.locate entry.tempPath) = true
  hash : remoteHash = entry.expectedHash
  size : remoteSize = entry.expectedSize
  total32 : entry.totalChunks < 2 ^ 32
  size64 : entry.expectedSize < 2 ^ 64

/- The sender accepts the path and has the announced file. -/
structure HasFile
    (H : Host)
    (path hash : String)
    (size : ℕ)
    (content : Content)
    (s : LocalState) : Prop where
  accepted : parseAndValidateUploadRequest H ⟨path, none⟩ =
    true
  file : ∃ mtime, s.disk.payload? (H.locate path) =
    some ⟨content, mtime⟩
  hash : getFileHash s path = hash
  size : content.length = size

section Resume

variable
  {H S : Host}
  {path peerId remoteHash : String}
  {remoteSize : ℕ}
  {entry : ReceivingFile}
  {s t : LocalState}
  {config : TransferConfig}
  {content : Content}

theorem contiguous_le (bitmap : List Bool) :
    contiguous bitmap ≤ bitmap.length :=
  (List.takeWhile_prefix _).length_le

theorem checkResumeEligibility_of_halfway
    (hHalf : Halfway H path remoteHash remoteSize entry s) :
    checkResumeEligibility H path remoteHash remoteSize s =
      (some
        { path := path
          receivedChunks := contiguous entry.receivedBitmap
          totalChunks := entry.totalChunks
          expectedHash := entry.expectedHash
          expectedSize := entry.expectedSize
          tempPath := entry.tempPath }, s) := by
  have hReceived := hHalf.received
  have hIncomplete := hHalf.incomplete
  have hProgress : hasProgress entry = true := by
    have hNot : ¬ entry.totalChunks ≤
        entry.receivedChunks := by omega
    have hSome : entry.receivedChunks ≠ 0 := by omega
    simp [hasProgress, hNot, hSome]
  unfold checkResumeEligibility
  simp [hHalf.found, hProgress, hHalf.temp, hashChanged,
    sizeChanged, hHalf.hash, hHalf.size]

theorem buildFileRequest_of_halfway
    (hHalf : Halfway H path remoteHash remoteSize entry s) :
    (SyncHandler.buildFileRequest H path peerId remoteHash
        remoteSize s).1 =
      ⟨path, some (contiguous entry.receivedBitmap,
        entry.expectedHash, entry.expectedSize)⟩ := by
  unfold SyncHandler.buildFileRequest
  rw [checkResumeEligibility_of_halfway hHalf]

/- The sender starts where the receiver stopped. -/
theorem queueUpload_of_halfway
    {requesterId : String}
    (hRequester : requesterId ≠ "")
    (hHalf : Halfway H path remoteHash remoteSize entry s)
    (hFile : HasFile S path remoteHash remoteSize content
      t) :
    ∃ u₀,
      queueUpload S requesterId
          (SyncHandler.buildFileRequest H path peerId
            remoteHash remoteSize s).1.toJson t = some u₀ ∧
        u₀.path = path ∧
        u₀.currentChunk =
          contiguous entry.receivedBitmap := by
  rw [buildFileRequest_of_halfway hHalf]
  have hStart : contiguous entry.receivedBitmap <
      2 ^ 32 := by
    have hLe := contiguous_le entry.receivedBitmap
    rw [hHalf.bitmap] at hLe
    exact Nat.lt_of_le_of_lt hLe hHalf.total32
  have hParse := @parseUploadRequest_toJson S
    ⟨path, some (contiguous entry.receivedBitmap,
      entry.expectedHash, entry.expectedSize)⟩
    hStart hHalf.size64 hFile.accepted
  rcases hFile.file with ⟨mtime, hPayload⟩
  have hExists : Filesystem.exists? t.disk
      (S.locate path) = true := by
    unfold Filesystem.exists?
    rw [(FileTree.payload?_eq_some_iff _ _ _).mp hPayload]
    rfl
  unfold queueUpload
  rw [if_neg hRequester, hParse]
  simp only [hExists, if_true]
  refine ⟨_, rfl, rfl, ?_⟩
  have hSize : fileSize t.disk (S.locate path) =
      entry.expectedSize := by
    rw [fileSize, hPayload, ← hHalf.size]
    exact hFile.size
  simp [beginUpload, FileRequest.fields, startChunk,
    hFile.hash, hHalf.hash, hSize]

/-
  A stopped download asks for its first missing chunk.  A
  sender with the same file sends it and all that follow it,
  which leaves nothing missing.
-/
theorem resume_complete
    (hHalf : Halfway H path remoteHash remoteSize entry
      s) :
    ∃ info,
      checkResumeEligibility H path remoteHash remoteSize s =
          (some info, s) ∧
        IsLeast {i | i ∉ Bitmap.marked entry.receivedBitmap}
          info.receivedChunks ∧
        ∀ (S : Host) (t : LocalState) (content : Content)
          (config : TransferConfig) (peerId requesterId),
          requesterId ≠ "" →
          HasFile S path remoteHash remoteSize content t →
          chunkCount config.chunkDataSize content.length =
            entry.totalChunks →
          ∃ u₀ sent,
            queueUpload S requesterId
                (SyncHandler.buildFileRequest H path peerId
                  remoteHash remoteSize s).1.toJson t =
                some u₀ ∧
              Upload.Sends config content u₀ sent ∧
              sent =
                (List.range' info.receivedChunks
                  (entry.totalChunks -
                    info.receivedChunks)).map
                      (Upload.chunkOf config path content) ∧
              ∀ i < entry.totalChunks,
                i ∈ Bitmap.marked entry.receivedBitmap ∨
                  ∃ hdr ∈ sent, hdr.chunkIndex = i := by
  have hLeast := isLeast_contiguous entry.receivedBitmap
  refine ⟨_, checkResumeEligibility_of_halfway hHalf,
    hLeast, ?_⟩
  intro S t content config peerId requesterId hRequester
    hFile hCount
  rcases @queueUpload_of_halfway H S path peerId remoteHash
    remoteSize entry s t content requesterId hRequester
    hHalf hFile with
    ⟨u₀, hQueued, hPath, hStart⟩
  have hSends := Upload.sends_of_queued config content
    hQueued
  rw [hStart, hPath, hCount] at hSends
  refine ⟨u₀, _, hQueued, hSends, rfl, ?_⟩
  intro i hInside
  by_cases hMark : i ∈ Bitmap.marked entry.receivedBitmap
  · exact Or.inl hMark
  · refine Or.inr ⟨Upload.chunkOf config path content i, ?_,
      rfl⟩
    have hFrom := hLeast.2 hMark
    apply List.mem_map_of_mem
    rw [List.mem_range'_1]
    omega

end Resume

/- The second of three chunks has not arrived. -/
def sampleHalfway : ReceivingFile where
  tempPath := "a.txt.veritas_tmp"
  totalChunks := 3
  receivedChunks := 2
  receivedBitmap := [true, false, true]
  peerId := "p"
  expectedHash := Digest.sample.hash [97, 98, 99]
  expectedSize := 3
  busy := false
  streamOpen := false

def sampleReceiver : LocalState :=
  { (LocalState.empty Host.plain .destination
      .oneWay).userWrites Host.plain "a.txt.veritas_tmp"
        [97, 0, 99] with
    receiving := AList.insert "a.txt" sampleHalfway ∅ }

theorem resume_complete_with_hole :
    ∃ info u₀ sent,
      checkResumeEligibility Host.plain "a.txt"
          (Digest.sample.hash [97, 98, 99]) 3
          sampleReceiver = (some info, sampleReceiver) ∧
        queueUpload Host.plain "q"
            (SyncHandler.buildFileRequest Host.plain "a.txt"
              "p" (Digest.sample.hash [97, 98, 99]) 3
              sampleReceiver).1.toJson Upload.trackedSender =
            some u₀ ∧
        Upload.Sends ⟨1, 5⟩ [97, 98, 99] u₀ sent ∧
        sent.map ChunkHeader.chunkIndex = [1, 2] := by
  have hHalf : Halfway Host.plain "a.txt"
      (Digest.sample.hash [97, 98, 99]) 3 sampleHalfway
      sampleReceiver :=
    ⟨rfl, rfl, by decide, by decide, rfl, rfl, rfl,
      by decide, by decide⟩
  have hFile : HasFile Host.plain "a.txt"
      (Digest.sample.hash [97, 98, 99]) 3 [97, 98, 99]
      Upload.trackedSender :=
    ⟨by decide +kernel, ⟨0, rfl⟩, rfl, rfl⟩
  rcases resume_complete hHalf with
    ⟨info, hCheck, hLeast, hServe⟩
  have hStart : info.receivedChunks = 1 :=
    hLeast.unique (isLeast_contiguous [true, false, true])
  rcases hServe Host.plain Upload.trackedSender [97, 98, 99] ⟨1, 5⟩
    "p" "q" (by decide) hFile rfl with
    ⟨u₀, sent, hQueued, hSends, hSent, -⟩
  refine ⟨info, u₀, sent, hCheck, hQueued, hSends, ?_⟩
  rw [hSent, hStart]
  rfl

end TransferManager

end VeritasSync
