import VeritasSync.Sync.UploadLoop

/-
  The upload of a file that does not change: what the
  transport takes is the file's chunks, one after the other
  from the first one asked for.

  Main declarations:
    * `TransferManager.Upload.chunkOf`
    * `TransferManager.Upload.InOrder`
    * `TransferManager.Upload.accepted_in_order`
-/

namespace VeritasSync

namespace TransferManager

open StateManager

namespace Upload

------------------------------------------------------------
-- The Chunks Of A File
------------------------------------------------------------

/- The file is, at each look at it, the same. -/
def Unchanged
    (content : Content) : Event → Prop
| .openFile (some file) => file = content
| .sendChunk file _ => file = content
| _ => True

/- The chunk with the given number of an upload. -/
def chunkOf
    (config : TransferConfig)
    (path : String)
    (content : Content)
    (i : ℕ) : ChunkHeader where
  filePath := path
  chunkIndex := i
  totalChunks :=
    chunkCount config.chunkDataSize content.length
  uncompressedData :=
    Reassembly.piece config.chunkDataSize content i
  valid := true

/-
  An upload of an unchanged file.  Its stream stands at the
  next chunk as long as there is one.
-/
structure InOrder
    (config : TransferConfig)
    (content : Content)
    (u₀ u : Upload) : Prop where
  sound : Sound config u₀ u
  size : ∀ n, u.size = some n → n = content.length
  chunks : ∀ sent ∈ u.handed, sent.1.uncompressedData =
    Reassembly.piece config.chunkDataSize content
      sent.1.chunkIndex
  stream : ∀ stream, u.file = some stream →
    u.currentChunk < u.totalChunks →
      stream =
        ⟨u.currentChunk * config.chunkDataSize, false⟩

theorem chunkCount_eq_mod (chunkDataSize size : ℕ) :
    chunkCount chunkDataSize size =
      Reassembly.pieceCount chunkDataSize size % 2 ^ 32 := by
  unfold chunkCount Reassembly.pieceCount
  split <;> simp

/- Every chunk but the last is full. -/
theorem length_piece_of_lt
    {chunkDataSize i : ℕ}
    {content : Content}
    (hLess : i + 1 <
      chunkCount chunkDataSize content.length) :
    (Reassembly.piece chunkDataSize content i).length =
      chunkDataSize := by
  have hInside : i + 1 < Reassembly.pieceCount chunkDataSize
      content.length := by
    rw [chunkCount_eq_mod] at hLess
    exact Nat.lt_of_lt_of_le hLess (Nat.mod_le _ _)
  have hWhole : 0 < content.length := by
    by_contra hEmpty
    rw [Reassembly.pieceCount, if_neg hEmpty] at hInside
    omega
  rw [Reassembly.length_piece]
  by_cases hSize : 0 < chunkDataSize
  · have hNext := Reassembly.mul_lt_of_lt_pieceCount hSize
      hWhole hInside
    rw [Nat.succ_mul] at hNext
    omega
  · have hZero : chunkDataSize = 0 := by omega
    simp [hZero]

section InOrder

variable
  {config : TransferConfig}
  {content : Content}
  {u₀ u u' : Upload}

theorem InOrder.openFile
    (hOrder : InOrder config content u₀ u)
    (hReady : u.phase = .ready)
    (hClosed : u.file = none)
    {found : Option Content}
    (hSame : Unchanged content (.openFile found)) :
    InOrder config content u₀ (u.openFile config found) := by
  have hSound := hOrder.sound.openFile hReady hClosed found
  cases found with
  | none =>
      refine ⟨hSound, ?_, ?_, ?_⟩
      · unfold Upload.openFile
        dsimp only
        split <;> exact hOrder.size
      · unfold Upload.openFile
        dsimp only
        split <;> exact hOrder.chunks
      · unfold Upload.openFile
        dsimp only
        split <;> exact hOrder.stream
  | some file =>
      have hFile : file = content := hSame
      subst hFile
      refine ⟨hSound, ?_, ?_, ?_⟩
      · unfold Upload.openFile
        dsimp only
        split
        · intro n hSize
          exact (Option.some.inj hSize).symm
        · exact hOrder.size
      · unfold Upload.openFile
        dsimp only
        split <;> exact hOrder.chunks
      · intro stream hStream _
        unfold Upload.openFile at hStream ⊢
        dsimp only at hStream ⊢
        rw [← Option.some.inj hStream]
        split <;> rfl

theorem InOrder.handChunk
    (hOrder : InOrder config content u₀ u)
    (hReady : u.phase = .ready)
    {stream : ReadStream}
    (hFile : u.file = some stream)
    (hLess : u.currentChunk < u.totalChunks)
    (pending : ℤ) :
    InOrder config content u₀
      (u.handChunk config content stream pending) := by
  have hSound := hOrder.sound.handChunk hReady hLess content
    stream pending
  have hStream := hOrder.stream stream hFile hLess
  rcases @handChunk_frame config content stream pending u
    hReady with
    ⟨-, -, hTotal, hSize, -⟩
  have hPiece : (u.sendOneChunk config content
      stream).1.uncompressedData =
        Reassembly.piece config.chunkDataSize content
          u.currentChunk := by
    rw [hStream]
    rfl
  refine ⟨hSound, ?_, ?_, ?_⟩
  · rw [hSize]
    exact hOrder.size
  · rw [handed_handChunk]
    intro sent hMem
    rcases List.mem_append.mp hMem with hOld | hNew
    · exact hOrder.chunks sent hOld
    · rw [List.mem_singleton.mp hNew]
      exact hPiece
  · intro next hNext hInside
    unfold Upload.handChunk at hNext hInside ⊢
    split at hNext
    next => cases hNext
    next hTaken =>
      rw [if_neg hTaken] at hInside ⊢
      dsimp only at hNext hInside ⊢
      split at hNext
      next => cases hNext
      next hFew =>
        rw [if_neg hFew] at hInside ⊢
        have hFull : (Reassembly.piece config.chunkDataSize
            content u.currentChunk).length =
              config.chunkDataSize := by
          have hOpened : u.size ≠ none := by
            intro hNone
            rw [(hOrder.sound.unopened hNone).2] at hFile
            cases hFile
          rcases Option.ne_none_iff_exists'.mp hOpened with
            ⟨n, hN⟩
          apply length_piece_of_lt
          rw [← hOrder.size n hN, ← hOrder.sound.total n hN]
          exact hInside
        rw [← Option.some.inj hNext, sendOneChunk, hStream]
        unfold Reassembly.piece at hFull
        simp only [ReadStream.read, Bool.false_eq_true,
          if_false, hFull, lt_self_iff_false, decide_false,
          Nat.succ_mul]

theorem InOrder.step
    {e : Event}
    (hOrder : InOrder config content u₀ u)
    (hSame : Unchanged content e)
    (hStep : u.step config e = some u') :
    InOrder config content u₀ u' := by
  have hSound := hOrder.sound.step hStep
  rcases step_cases hStep with
    ⟨found, rfl, hReady, hClosed, rfl⟩ |
    ⟨file, pending, stream, rfl, hReady, hFile, hLess, rfl⟩ |
    ⟨managed, rfl, -, -, -, rfl⟩ |
    ⟨expired, rfl, -, rfl⟩
  · exact hOrder.openFile hReady hClosed hSame
  · have hContent : file = content := hSame
    subst hContent
    exact hOrder.handChunk hReady hFile hLess pending
  · exact ⟨hSound, hOrder.size, hOrder.chunks,
      by simp [Upload.finish]⟩
  · exact ⟨hSound, hOrder.size, hOrder.chunks,
      hOrder.stream⟩

theorem inOrder_of_run
    {H : Host}
    {peerId : String}
    {payload : Json}
    {s : LocalState}
    {events : List Event}
    (hQueued : queueUpload H peerId payload s = some u₀)
    (hSame : ∀ e ∈ events, Unchanged content e)
    (hRun : Transition.run (step config) u₀ events =
      some u) :
    InOrder config content u₀ u := by
  rcases exists_beginUpload hQueued with ⟨request, -, rfl⟩
  have hBegin : InOrder config content
      (beginUpload request (getFileHash s request.path)
        (fileSize s.disk (H.locate request.path)))
      (beginUpload request (getFileHash s request.path)
        (fileSize s.disk (H.locate request.path))) :=
    { sound := sound_beginUpload config request _ _
      size := by simp [beginUpload]
      chunks := by simp [beginUpload]
      stream := by simp [beginUpload] }
  exact Transition.invariant_of_run
    (fun _ _ _ hOrder hSame hStep => hOrder.step hSame hStep)
    hBegin (Transition.meets_of_forall hSame) hRun

/- The accepted chunks, by their numbers. -/
theorem InOrder.accepted_eq
    (hOrder : InOrder config content u₀ u) :
    u.accepted =
      (List.range' u₀.currentChunk
        (u.currentChunk - u₀.currentChunk)).map
          (chunkOf config u₀.path content) := by
  rw [← hOrder.sound.indexes, List.map_map]
  symm
  calc
    _ = u.accepted.map id := ?_
    _ = u.accepted := List.map_id _
  apply List.map_congr_left
  intro hdr hMem
  unfold accepted at hMem
  rcases List.mem_map.mp hMem with ⟨sent, hSent, rfl⟩
  have hHanded := (List.mem_filter.mp hSent).1
  rcases hOrder.sound.headers sent hHanded with
    ⟨hPath, hTotal, hIndex, hValid⟩
  have hData := hOrder.chunks sent hHanded
  have hOpened : u.size ≠ none := by
    intro hNone
    have hZero := (hOrder.sound.unopened hNone).1
    omega
  rcases Option.ne_none_iff_exists'.mp hOpened with ⟨n, hN⟩
  have hCount := hOrder.sound.total n hN
  rw [hOrder.size n hN] at hCount
  rw [hCount] at hTotal
  rw [hOrder.sound.path] at hPath
  rcases sent with ⟨⟨path, index, total, data, valid⟩, pending⟩
  simp only at hPath hTotal hValid hData
  simp only [Function.comp_apply, chunkOf, hPath, hTotal,
    hValid, hData, id_eq]

/-
  While its file does not change, an upload that starts
  inside it sends each chunk once and in order, and is
  complete only when the last one was taken.
-/
theorem accepted_in_order
    {H : Host}
    {peerId : String}
    {payload : Json}
    {s : LocalState}
    {events : List Event}
    (hQueued : queueUpload H peerId payload s = some u₀)
    (hStart : u₀.currentChunk <
      chunkCount config.chunkDataSize content.length)
    (hSame : ∀ e ∈ events, Unchanged content e)
    (hRun : Transition.run (step config) u₀ events =
      some u) :
    ∃ sent,
      u.accepted =
          (List.range' u₀.currentChunk sent).map
            (chunkOf config u₀.path content) ∧
        u₀.currentChunk + sent ≤
          chunkCount config.chunkDataSize content.length ∧
        (u.phase = .ended .complete →
          u₀.currentChunk + sent =
            chunkCount config.chunkDataSize
              content.length) ∧
        (u.recorded = true → u.phase = .ended .complete) := by
  have hOrder := inOrder_of_run hQueued hSame hRun
  have hStarted := hOrder.sound.started
  have hWithin := hOrder.sound.within
  have hTotal : ∀ n, u.size = some n → u.totalChunks =
      chunkCount config.chunkDataSize content.length := by
    intro n hN
    rw [hOrder.sound.total n hN, hOrder.size n hN]
  refine ⟨u.currentChunk - u₀.currentChunk,
    hOrder.accepted_eq, ?_, ?_, ?_⟩
  · cases hSize : u.size with
    | none =>
        have hZero := (hOrder.sound.unopened hSize).1
        omega
    | some n =>
        have hCount := hTotal n hSize
        omega
  · intro hComplete
    rcases hOrder.sound.complete hComplete with
      ⟨hOpened, hDone⟩
    rcases Option.ne_none_iff_exists'.mp hOpened with
      ⟨n, hN⟩
    have hCount := hTotal n hN
    omega
  · exact fun hRecorded => (hOrder.sound.recorded hRecorded).1

end InOrder

/- A sender with a file of three bytes. -/
def sampleSender : LocalState :=
  (LocalState.empty Host.plain .source
    .oneWay).userWrites Host.plain "a.txt" [97, 98, 99]

/- The sender with the digest of its file in the map. -/
def trackedSender : LocalState :=
  { sampleSender with
    fileMap := AList.insert "a.txt"
      ⟨"a.txt", Digest.sample.hash [97, 98, 99], 0, 3⟩ ∅ }

/- The transport is full after the first chunk. -/
def pausedRun : List Event :=
  [.openFile (some [97, 98, 99]),
    .sendChunk [97, 98, 99] 300, .wake true,
    .openFile none, .wake true,
    .openFile (some [97, 98, 99]),
    .sendChunk [97, 98, 99] 0, .finish true]

theorem accepted_in_order_paused :
    ∃ u₀ u,
      queueUpload Host.plain "p"
          (FileRequest.toJson ⟨"a.txt", none⟩) sampleSender =
            some u₀ ∧
        Transition.run (step ⟨2, 5⟩) u₀ pausedRun =
          some u ∧
        ∃ sent, u.accepted =
            (List.range' u₀.currentChunk sent).map
              (chunkOf ⟨2, 5⟩ u₀.path [97, 98, 99]) ∧
          (u.phase = .ended .complete →
            u₀.currentChunk + sent = 2) := by
  have hQueued : queueUpload Host.plain "p"
      (FileRequest.toJson ⟨"a.txt", none⟩) sampleSender =
        some (beginUpload ⟨"a.txt", some (0, "", 0)⟩ "" 3) :=
    rfl
  have hRuns : (Transition.run (step ⟨2, 5⟩)
      (beginUpload ⟨"a.txt", some (0, "", 0)⟩ "" 3)
        pausedRun).isSome = true := by
    decide +kernel
  rcases Option.isSome_iff_exists.mp hRuns with ⟨u, hRun⟩
  have hSame : ∀ e ∈ pausedRun,
      Unchanged [97, 98, 99] e := by
    simp [Unchanged, pausedRun]
  rcases accepted_in_order hQueued (by decide) hSame hRun with
    ⟨sent, hAccepted, -, hComplete, -⟩
  exact ⟨_, u, hQueued, hRun, sent, hAccepted, hComplete⟩

end Upload

end TransferManager

end VeritasSync
