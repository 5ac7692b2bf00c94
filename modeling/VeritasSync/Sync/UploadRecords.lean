import VeritasSync.Common.Config
import VeritasSync.Sync.UploadOrder

/-
  What a finished upload is recorded as, and whether the
  receiver can take its chunks.

  The start of an upload comes from the peer, and nothing
  compares it with the number of chunks.

  Main declarations:
    * `TransferManager.Upload.exists_recording_run`
    * `TransferManager.WasSent`,
      `TransferManager.SkipsOnlySent`
    * `TransferManager.recordsOnlySent_iff`
    * `TransferManager.framesAcceptable_iff`
-/

namespace VeritasSync

namespace TransferManager

open PathUtils StateManager

namespace Upload

------------------------------------------------------------
-- Runs To The End
------------------------------------------------------------

section Runs

variable
  {config : TransferConfig}
  {u₀ u : Upload}

/- As many chunks are taken as there is room for. -/
theorem exists_sends
    (file : Content)
    {count : ℕ}
    (hReady : u.phase = .ready)
    (hOpen : u.file ≠ none)
    (hRoom : u.currentChunk + count ≤ u.totalChunks) :
    ∃ u',
      Transition.run (step config) u
          (List.replicate count (.sendChunk file 0)) =
            some u' ∧
        u'.phase = .ready ∧ u'.file ≠ none ∧
        u'.currentChunk = u.currentChunk + count ∧
        u'.totalChunks = u.totalChunks ∧
        u'.size = u.size ∧ u'.fileHash = u.fileHash := by
  induction count generalizing u with
  | zero => exact ⟨u, rfl, hReady, hOpen, rfl, rfl, rfl, rfl⟩
  | succ count ih =>
      rcases Option.ne_none_iff_exists'.mp hOpen with
        ⟨stream, hFile⟩
      have hLess : u.currentChunk < u.totalChunks := by omega
      have hStep : u.step config (.sendChunk file 0) =
          some (u.handChunk config file stream 0) := by
        simp [step, hFile, hReady, hLess]
      have hCurrent := @currentChunk_handChunk config file
        stream 0 u
      rw [if_neg (by decide)] at hCurrent
      rcases @handChunk_frame config file stream 0 u hReady
        with ⟨-, hHash, hTotal, hSize, -⟩
      have hNext : (u.handChunk config file stream 0).phase =
          .ready ∧
            (u.handChunk config file stream 0).file ≠
              none := by
        simp [Upload.handChunk, congestionThreshold, hReady]
      have hRoom' :
          (u.handChunk config file stream 0).currentChunk +
            count ≤
              (u.handChunk config file stream
                0).totalChunks := by
        rw [hCurrent, hTotal]
        omega
      rcases ih hNext.1 hNext.2 hRoom' with
        ⟨u', hRun, hReady', hOpen', hCurrent', hTotal',
          hSize', hHash'⟩
      refine ⟨u', ?_, hReady', hOpen', ?_, ?_, ?_, ?_⟩
      · rw [List.replicate_succ, Transition.run, hStep]
        exact hRun
      · rw [hCurrent', hCurrent]
        omega
      · rw [hTotal', hTotal]
      · rw [hSize', hSize]
      · rw [hHash', hHash]

/- The first open tells how many chunks there are. -/
theorem step_openFile_first
    (file : Content)
    (hReady : u.phase = .ready)
    (hClosed : u.file = none)
    (hFirst : u.totalChunks = 0) :
    ∃ u',
      u.step config (.openFile (some file)) = some u' ∧
        u'.phase = .ready ∧ u'.file ≠ none ∧
        u'.currentChunk = u.currentChunk ∧
        u'.totalChunks =
          chunkCount config.chunkDataSize file.length ∧
        u'.size = some file.length ∧
        u'.fileHash = u.fileHash := by
  refine ⟨u.openFile config (some file), ?_, ?_⟩
  · simp [step, hReady, hClosed]
  · simp [Upload.openFile, hFirst, hReady]

/- Any upload can run to its end and be recorded. -/
theorem exists_recording_run
    {H : Host}
    {peerId : String}
    {payload : Json}
    {s : LocalState}
    (config : TransferConfig)
    (file : Content)
    (hQueued : queueUpload H peerId payload s = some u₀)
    (hHash : u₀.fileHash ≠ "") :
    ∃ events u,
      Transition.run (step config) u₀ events = some u ∧
        u.size = some file.length ∧ u.recorded = true := by
  have hBegin : u₀.phase = .ready ∧ u₀.file = none ∧
      u₀.totalChunks = 0 := by
    rcases exists_beginUpload hQueued with ⟨request, -, rfl⟩
    exact ⟨rfl, rfl, rfl⟩
  rcases @step_openFile_first config u₀ file hBegin.1
    hBegin.2.1 hBegin.2.2 with
    ⟨u₁, hStep₁, hReady₁, hOpen₁, hCurrent₁, hTotal₁, hSize₁,
      hHash₁⟩
  by_cases hInside : u₁.currentChunk ≤ u₁.totalChunks
  · rcases @exists_sends config u₁ file
      (u₁.totalChunks - u₁.currentChunk) hReady₁ hOpen₁
      (by omega) with
      ⟨u₂, hRun₂, hReady₂, hOpen₂, hCurrent₂, hTotal₂, hSize₂,
        hHash₂⟩
    refine ⟨.openFile (some file) ::
      (List.replicate (u₁.totalChunks - u₁.currentChunk)
        (.sendChunk file 0) ++ [.finish true]),
      u₂.finish true, ?_, ?_, ?_⟩
    · have hDone : u₂.totalChunks ≤ u₂.currentChunk := by
        omega
      rw [Transition.run, hStep₁, Option.bind_some,
        Transition.run_append, hRun₂]
      simp [Transition.run, step, hReady₂, hOpen₂, hDone]
    · exact hSize₂.trans hSize₁
    · simp [Upload.finish, hHash₂, hHash₁, hHash]
  · refine ⟨[.openFile (some file), .finish true],
      u₁.finish true, ?_, hSize₁, ?_⟩
    · have hDone : u₁.totalChunks ≤ u₁.currentChunk := by
        omega
      rw [Transition.run, hStep₁, Option.bind_some]
      simp [Transition.run, step, hReady₁, hOpen₁, hDone]
    · simp [Upload.finish, hHash₁, hHash]

end Runs

end Upload

------------------------------------------------------------
-- Recorded Files
------------------------------------------------------------

/- The request names a digest or a size that is not met. -/
def Mismatch
    (request : FileRequest)
    (fileHash : String)
    (size : ℕ) : Prop :=
  (request.fields.2.1 ≠ "" ∧
      request.fields.2.1 ≠ fileHash) ∨
    (request.fields.2.2 ≠ 0 ∧ request.fields.2.2 ≠ size)

/-
  Every chunk of a file of `found` bytes was taken: in this
  upload, or, before its start, in one of the file whose
  digest and size the request names.  `earlier` are the
  chunks that were taken in such uploads.
-/
def WasSent
    (chunkDataSize : ℕ)
    (request : FileRequest)
    (fileHash : String)
    (size : ℕ)
    (earlier : Set ℕ)
    (found : ℕ)
    (u : Upload) : Prop :=
  let start := startChunk request fileHash size
  let total := Reassembly.pieceCount chunkDataSize found
  start < total ∧
    ∀ i < total,
      i ∈ u.accepted.map ChunkHeader.chunkIndex ∨
        (i < start ∧ request.fields.2.1 = fileHash ∧
          request.fields.2.2 = size ∧ i ∈ earlier)

/- What is recorded in any run was sent. -/
def RecordsOnlySent
    (config : TransferConfig)
    (request : FileRequest)
    (fileHash : String)
    (size : ℕ)
    (earlier : Set ℕ)
    (found : ℕ)
    (u₀ : Upload) : Prop :=
  ∀ events u,
    Transition.run (Upload.step config) u₀ events = some u →
      u.size = some found → u.recorded = true →
        WasSent config.chunkDataSize request fileHash size
          earlier found u

/-
  The chunks can be counted in 32 bits, and those that the
  request skips are chunks of this file and were taken.
-/
def SkipsOnlySent
    (chunkDataSize : ℕ)
    (request : FileRequest)
    (fileHash : String)
    (size : ℕ)
    (earlier : Set ℕ)
    (found : ℕ) : Prop :=
  let start := request.fields.1
  let total := Reassembly.pieceCount chunkDataSize found
  total < 2 ^ 32 ∧
    (start = 0 ∨ Mismatch request fileHash size ∨
      (request.fields.2.1 = fileHash ∧
        request.fields.2.2 = size ∧ start < total ∧
        ∀ i < start, i ∈ earlier))

theorem startChunk_of_mismatch
    {request : FileRequest}
    {fileHash : String}
    {size : ℕ}
    (hMismatch : Mismatch request fileHash size) :
    startChunk request fileHash size = 0 := by
  rcases request with ⟨path, _ | ⟨start, hash, expected⟩⟩
  · rfl
  · refine if_neg ?_
    rintro ⟨hHash, hSize⟩
    rcases hMismatch with ⟨hGiven, hOther⟩ | ⟨hGiven, hOther⟩
    · rcases hHash with hNone | hSame
      · exact hGiven hNone
      · exact hOther hSame.symm
    · rcases hSize with hNone | hSame
      · exact hGiven hNone
      · exact hOther hSame.symm

theorem startChunk_of_not_mismatch
    {request : FileRequest}
    {fileHash : String}
    {size : ℕ}
    (hMatch : ¬ Mismatch request fileHash size) :
    startChunk request fileHash size = request.fields.1 := by
  rcases request with ⟨path, _ | ⟨start, hash, expected⟩⟩
  · rfl
  · refine if_pos ?_
    simp only [Mismatch, FileRequest.fields, Option.getD_some,
      not_or, not_and, not_not] at hMatch
    constructor
    · by_cases hNone : hash = ""
      · exact Or.inl hNone
      · exact Or.inr (hMatch.1 hNone).symm
    · by_cases hNone : expected = 0
      · exact Or.inl hNone
      · exact Or.inr (hMatch.2 hNone).symm

section Records

variable
  {H : Host}
  {peerId : String}
  {payload : Json}
  {s : LocalState}
  {config : TransferConfig}
  {request : FileRequest}
  {u₀ : Upload}

/- How far an upload that was recorded has come. -/
theorem recorded_indexes
    {events : List Upload.Event}
    {u : Upload}
    {found : ℕ}
    (hQueued : queueUpload H peerId payload s = some u₀)
    (hRun : Transition.run (Upload.step config) u₀ events =
      some u)
    (hFound : u.size = some found)
    (hRecorded : u.recorded = true)
    (i : ℕ) :
    i ∈ u.accepted.map ChunkHeader.chunkIndex ↔
      u₀.currentChunk ≤ i ∧
        i < chunkCount config.chunkDataSize found := by
  have hSound := Upload.sound_of_run hQueued hRun
  have hDone := (hSound.complete
    (hSound.recorded hRecorded).1).2
  have hTotal := hSound.total found hFound
  have hWithin := hSound.within
  have hStarted := hSound.started
  rw [hSound.indexes, List.mem_range'_1]
  omega

/-
  A run that is recorded shows whether the start that the
  peer chose was right.
-/
theorem wasSent_iff_skipsOnlySent
    (hChunk : 0 < config.chunkDataSize)
    (hParse : parseUploadRequest H payload = some request)
    (hQueued : queueUpload H peerId payload s = some u₀)
    {earlier : Set ℕ}
    {found : ℕ}
    {events : List Upload.Event}
    {u : Upload}
    (hRun : Transition.run (Upload.step config) u₀ events =
      some u)
    (hFound : u.size = some found)
    (hRecorded : u.recorded = true) :
    WasSent config.chunkDataSize request
        (getFileHash s request.path)
        (fileSize s.disk (H.locate request.path)) earlier
        found u ↔
      SkipsOnlySent config.chunkDataSize request
        (getFileHash s request.path)
        (fileSize s.disk (H.locate request.path)) earlier
        found := by
  have hIndexes := recorded_indexes hQueued hRun hFound
    hRecorded
  rcases Upload.exists_beginUpload hQueued with
    ⟨request', hParse', rfl⟩
  rw [hParse, Option.some.injEq] at hParse'
  subst hParse'
  have hPositive := Reassembly.pieceCount_pos hChunk found
  have hMod := Upload.chunkCount_eq_mod config.chunkDataSize
    found
  simp only [beginUpload] at hIndexes
  unfold WasSent SkipsOnlySent
  simp only [hIndexes]
  generalize hHashEq : getFileHash s request.path = fileHash
  generalize hSizeEq :
    fileSize s.disk (H.locate request.path) = size
  generalize hCount :
    Reassembly.pieceCount config.chunkDataSize found = total
    at *
  constructor
  · rintro ⟨hStart, hAll⟩
    have hLess : total < 2 ^ 32 := by
      by_contra hMany
      have hShort : total % 2 ^ 32 < total := by
        have hMod := Nat.mod_lt total
          (show 2 ^ 32 > 0 by decide)
        omega
      have hLast := hAll (total - 1) (by omega)
      omega
    refine ⟨hLess, ?_⟩
    by_cases hMismatch : Mismatch request fileHash size
    · exact Or.inr (Or.inl hMismatch)
    rw [startChunk_of_not_mismatch hMismatch] at hStart hAll
    by_cases hZero : request.fields.1 = 0
    · exact Or.inl hZero
    · have hSkipped : ∀ i < request.fields.1,
          request.fields.2.1 = fileHash ∧
            request.fields.2.2 = size ∧ i ∈ earlier := by
        intro i hBefore
        rcases hAll i (by omega) with hNow | hEarlier
        · omega
        · exact hEarlier.2
      have hFirst := hSkipped 0 (by omega)
      exact Or.inr (Or.inr ⟨hFirst.1, hFirst.2.1, hStart,
        fun i hBefore => (hSkipped i hBefore).2.2⟩)
  · rintro ⟨hLess, hSkips⟩
    have hExact : chunkCount config.chunkDataSize found =
        total := by
      rw [hMod, Nat.mod_eq_of_lt hLess]
    rw [hExact]
    by_cases hMismatch : Mismatch request fileHash size
    · rw [startChunk_of_mismatch hMismatch]
      exact ⟨hPositive,
        fun i hInside => Or.inl ⟨Nat.zero_le i, hInside⟩⟩
    rw [startChunk_of_not_mismatch hMismatch]
    rcases hSkips with hZero | hOther | hEarlier
    · rw [hZero]
      exact ⟨hPositive,
        fun i hInside => Or.inl ⟨Nat.zero_le i, hInside⟩⟩
    · exact absurd hOther hMismatch
    · rcases hEarlier with ⟨hHash, hSize, hStart, hTaken⟩
      refine ⟨hStart, ?_⟩
      intro i hInside
      by_cases hBefore : i < request.fields.1
      · exact Or.inr ⟨hBefore, hHash, hSize,
          hTaken i hBefore⟩
      · exact Or.inl ⟨by omega, hInside⟩

/-
  A file is recorded only if it was sent exactly when it has
  no digest in the map, so that nothing is recorded, or the
  request skips only chunks that were sent.
-/
theorem recordsOnlySent_iff
    (hChunk : 0 < config.chunkDataSize)
    (hParse : parseUploadRequest H payload = some request)
    (hQueued : queueUpload H peerId payload s = some u₀)
    (earlier : Set ℕ)
    (found : ℕ) :
    RecordsOnlySent config request
        (getFileHash s request.path)
        (fileSize s.disk (H.locate request.path)) earlier
        found u₀ ↔
      getFileHash s request.path = "" ∨
        SkipsOnlySent config.chunkDataSize request
          (getFileHash s request.path)
          (fileSize s.disk (H.locate request.path)) earlier
          found := by
  have hHash : u₀.fileHash = getFileHash s request.path := by
    rcases Upload.exists_beginUpload hQueued with
      ⟨request', hParse', rfl⟩
    rw [hParse, Option.some.injEq] at hParse'
    rw [hParse']
    rfl
  constructor
  · intro hRecords
    by_cases hNone : getFileHash s request.path = ""
    · exact Or.inl hNone
    · refine Or.inr ?_
      rcases Upload.exists_recording_run config
        (List.replicate found 0) hQueued
        (by rw [hHash]; exact hNone) with
        ⟨events, u, hRun, hFound, hRecorded⟩
      rw [List.length_replicate] at hFound
      exact (wasSent_iff_skipsOnlySent hChunk hParse hQueued
        hRun hFound hRecorded).mp
          (hRecords events u hRun hFound hRecorded)
  · intro hWhen events u hRun hFound hRecorded
    rcases hWhen with hNone | hSkips
    · have hSound := Upload.sound_of_run hQueued hRun
      have hSome := (hSound.recorded hRecorded).2
      rw [hSound.fileHash, hHash] at hSome
      exact absurd hNone hSome
    · exact (wasSent_iff_skipsOnlySent hChunk hParse hQueued
        hRun hFound hRecorded).mpr hSkips

end Records

/- A request from the fifth chunk of a file that has one. -/
def startBeyondEnd : Json :=
  .obj [("path", .str "a.txt"), ("start_chunk", .num 5)]

/- Nothing is sent, and the file is recorded as sent. -/
theorem unsent_recorded :
    ∃ u₀ u,
      queueUpload Host.plain "p" startBeyondEnd
          Upload.trackedSender = some u₀ ∧
        Transition.run (Upload.step ⟨16384, 5⟩) u₀
          [.openFile (some [97, 98, 99]), .finish true] =
            some u ∧
        u.size = some 3 ∧ u.recorded = true ∧
        u.handed = [] ∧
        ¬ WasSent 16384 ⟨"a.txt", some (5, "", 0)⟩
          (getFileHash Upload.trackedSender "a.txt")
          (fileSize Upload.trackedSender.disk
            (Host.plain.locate "a.txt")) ∅ 3 u := by
  have hQueued : queueUpload Host.plain "p" startBeyondEnd
      Upload.trackedSender = some (beginUpload
        ⟨"a.txt", some (5, "", 0)⟩
        (getFileHash Upload.trackedSender "a.txt") 3) := rfl
  refine ⟨_, _, hQueued, rfl, rfl, by decide +kernel, rfl, ?_⟩
  rintro ⟨hStart, -⟩
  exact absurd hStart (by decide +kernel)

/- A resumed upload whose first chunk had been taken. -/
theorem recordsOnlySent_resumed :
    RecordsOnlySent ⟨1, 5⟩
      ⟨"a.txt", some (1, Digest.sample.hash [97, 98, 99], 3)⟩
      (getFileHash Upload.trackedSender "a.txt")
      (fileSize Upload.trackedSender.disk
        (Host.plain.locate "a.txt"))
      {0} 3
      (beginUpload ⟨"a.txt", some (1, Digest.sample.hash
        [97, 98, 99], 3)⟩
        (getFileHash Upload.trackedSender "a.txt") 3) := by
  have hParse : parseUploadRequest Host.plain
      (FileRequest.toJson ⟨"a.txt", some (1,
        Digest.sample.hash [97, 98, 99], 3)⟩) =
          some ⟨"a.txt", some (1,
            Digest.sample.hash [97, 98, 99], 3)⟩ :=
    rfl
  refine (recordsOnlySent_iff (by decide) hParse
    (show queueUpload Host.plain "p" _ Upload.trackedSender =
      some _ from rfl) {0} 3).mpr (Or.inr ?_)
  refine ⟨by decide, Or.inr (Or.inr ⟨rfl, rfl, by decide,
    ?_⟩)⟩
  intro i hBefore
  have hZero : i = 0 := Nat.lt_one_iff.mp hBefore
  rw [hZero]
  rfl

------------------------------------------------------------
-- Acceptable Frames
------------------------------------------------------------

/-
  Whatever is handed to the transport for a file of `size`
  bytes passes the receiver's check and carries the number
  of chunks that the file has.
-/
def FramesAcceptable
    (H : Host)
    (config : TransferConfig)
    (path : String)
    (size : ℕ) : Prop :=
  ∀ peerId payload s u₀ events u,
    queueUpload H peerId payload s = some u₀ →
      u₀.path = path →
        Transition.run (Upload.step config) u₀ events =
            some u →
          u.size = some size →
            ∀ sent ∈ u.handed,
              validateChunkHeader sent.1 = true ∧
                sent.1.totalChunks =
                  Reassembly.pieceCount config.chunkDataSize
                    size

section Frames

variable
  {H : Host}
  {config : TransferConfig}
  {path : String}

/- A node with one file and nothing tracked. -/
def holding
    (H : Host)
    (path : String)
    (content : Content) : LocalState :=
  { LocalState.empty H .source .oneWay with
    disk := AList.insert (H.locate path)
      (.file ⟨content, 0⟩) ∅ }

/- The request for a file that is there is served. -/
theorem exists_queued
    (hPath : parseAndValidateUploadRequest H ⟨path, none⟩ =
      true)
    (content : Content) :
    ∃ payload s u₀,
      queueUpload H "p" payload s = some u₀ ∧
        u₀.path = path ∧ u₀.currentChunk = 0 := by
  have hZero : FileRequest.fields ⟨path, none⟩ =
      (0, "", 0) := rfl
  have hParse := @parseUploadRequest_toJson H ⟨path, none⟩
    (by simp [hZero]) (by simp [hZero]) hPath
  have hExists : Filesystem.exists?
      (holding H path content).disk (H.locate path) =
        true := by
    rw [Filesystem.exists?, holding, AList.lookup_insert]
    rfl
  refine ⟨FileRequest.toJson ⟨path, none⟩,
    holding H path content,
    beginUpload ⟨path, some (0, "", 0)⟩
      (getFileHash (holding H path content) path)
      (fileSize (holding H path content).disk
        (H.locate path)), ?_, rfl, ?_⟩
  · unfold queueUpload
    rw [if_neg (by decide), hParse]
    simp only [hExists, if_true]
    rfl
  · simp [beginUpload, startChunk]

/- An upload from the start hands its first chunk over. -/
theorem exists_frame
    (hPath : parseAndValidateUploadRequest H ⟨path, none⟩ =
      true)
    {size : ℕ}
    (hSome : 0 < chunkCount config.chunkDataSize size) :
    ∃ peerId payload s u₀ events u sent,
      queueUpload H peerId payload s = some u₀ ∧
        u₀.path = path ∧
        Transition.run (Upload.step config) u₀ events =
          some u ∧
        u.size = some size ∧ sent ∈ u.handed ∧
        sent.1.totalChunks =
          chunkCount config.chunkDataSize size := by
  rcases exists_queued hPath (List.replicate size 0) with
    ⟨payload, s, u₀, hQueued, hSame, hZero⟩
  have hBegin : u₀.phase = .ready ∧ u₀.file = none ∧
      u₀.totalChunks = 0 := by
    rcases Upload.exists_beginUpload hQueued with
      ⟨request, -, rfl⟩
    exact ⟨rfl, rfl, rfl⟩
  rcases @Upload.step_openFile_first config u₀
    (List.replicate size 0) hBegin.1 hBegin.2.1 hBegin.2.2
    with ⟨u₁, hStep₁, hReady₁, hOpen₁, hCurrent₁, hTotal₁,
      hSize₁, -⟩
  rw [List.length_replicate] at hTotal₁ hSize₁
  rcases Option.ne_none_iff_exists'.mp hOpen₁ with
    ⟨stream, hFile⟩
  have hLess : u₁.currentChunk < u₁.totalChunks := by omega
  have hStep₂ : u₁.step config
      (.sendChunk (List.replicate size 0) 0) =
        some (u₁.handChunk config (List.replicate size 0)
          stream 0) := by
    simp [Upload.step, hFile, hReady₁, hLess]
  rcases @Upload.handChunk_frame config
    (List.replicate size 0) stream 0 u₁ hReady₁ with
    ⟨-, -, -, hSize₂, -⟩
  refine ⟨"p", payload, s, u₀,
    [.openFile (some (List.replicate size 0)),
      .sendChunk (List.replicate size 0) 0], _,
    ((u₁.sendOneChunk config (List.replicate size 0)
      stream).1, 0), hQueued, hSame, ?_,
    hSize₂.trans hSize₁, ?_, hTotal₁⟩
  · rw [Transition.run, hStep₁, Option.bind_some,
      Transition.run, hStep₂]
    rfl
  · rw [Upload.handed_handChunk]
    exact List.mem_append_right _ List.mem_cons_self

/-
  The frames are acceptable exactly when the file has no
  more chunks than the receiver allows, or its chunks are
  counted as none, so that nothing is sent.
-/
theorem framesAcceptable_iff
    (hConfig : Config.validateChunkSize
      config.chunkDataSize = [])
    (hPath : parseAndValidateUploadRequest H ⟨path, none⟩ =
      true)
    (size : ℕ) :
    FramesAcceptable H config path size ↔
      Reassembly.pieceCount config.chunkDataSize size ≤
          maxAllowedTotalChunks ∨
        2 ^ 32 ∣ Reassembly.pieceCount config.chunkDataSize
          size := by
  have hMod := Upload.chunkCount_eq_mod config.chunkDataSize
    size
  constructor
  · intro hAll
    by_cases hNone : 2 ^ 32 ∣ Reassembly.pieceCount
        config.chunkDataSize size
    · exact Or.inr hNone
    · refine Or.inl ?_
      have hSome : 0 < chunkCount config.chunkDataSize
          size := by
        rw [hMod]
        exact Nat.emod_pos_of_not_dvd hNone
      rcases exists_frame hPath hSome with
        ⟨peerId, payload, s, u₀, events, u, sent, hQueued,
          hSame, hRun, hSize, hMem, hTotal⟩
      rcases hAll peerId payload s u₀ events u hQueued hSame
        hRun hSize sent hMem with ⟨hValid, hExact⟩
      simp only [validateChunkHeader, Bool.and_eq_true,
        decide_eq_true_eq] at hValid
      rw [← hExact]
      exact hValid.1.2
  · intro hWhen peerId payload s u₀ events u hQueued hSame
      hRun hSize sent hMem
    have hSound := Upload.sound_of_run hQueued hRun
    rcases hSound.headers sent hMem with
      ⟨hFile, hTotal, hIndex, hValid⟩
    have hCount := hSound.total size hSize
    have hFew : Reassembly.pieceCount config.chunkDataSize
        size ≤ maxAllowedTotalChunks := by
      rcases hWhen with hFew | hNone
      · exact hFew
      · rw [hMod, Nat.mod_eq_zero_of_dvd hNone] at hCount
        omega
    have hExact : u.totalChunks = Reassembly.pieceCount
        config.chunkDataSize size := by
      rw [hCount, hMod, Nat.mod_eq_of_lt]
      exact Nat.lt_of_le_of_lt hFew (by decide)
    refine ⟨?_, hTotal.trans hExact⟩
    rw [hSound.path, hSame] at hFile
    have hOk : path.isEmpty = false ∧
        path.utf8ByteSize ≤ maxAllowedRelativePathLen := by
      simp only [parseAndValidateUploadRequest,
        Bool.and_eq_true, Bool.not_eq_true',
        decide_eq_true_eq] at hPath
      exact hPath.1
    have hPositive := Reassembly.pieceCount_pos
      (Config.pos_of_validateChunkSize hConfig) size
    simp only [validateChunkHeader, hFile, hTotal, hExact]
    simp [hValid, hOk, hFew]
    omega

end Frames

/- One byte more than 8 GiB, in the smallest chunks. -/
theorem too_many_chunks :
    ¬ FramesAcceptable Host.plain ⟨1024, 5⟩ "a.txt"
      (2 ^ 33 + 1) := by
  intro hAll
  have hSome : 0 < chunkCount 1024 (2 ^ 33 + 1) := by
    decide +kernel
  rcases @exists_frame Host.plain ⟨1024, 5⟩ "a.txt"
    (by decide +kernel) (2 ^ 33 + 1) hSome with
    ⟨peerId, payload, s, u₀, events, u, sent, hQueued, hSame,
      hRun, hSize, hMem, hTotal⟩
  have hValid := (hAll peerId payload s u₀ events u hQueued
    hSame hRun hSize sent hMem).1
  simp only [validateChunkHeader, Bool.and_eq_true,
    decide_eq_true_eq] at hValid
  rw [hTotal] at hValid
  exact absurd hValid.1.2 (by decide +kernel)

theorem framesAcceptable_of_small_file :
    FramesAcceptable Host.plain ⟨16384, 5⟩ "a.txt" 3 :=
  (framesAcceptable_iff (by decide +kernel)
    (by decide +kernel) 3).mpr (Or.inl (by decide +kernel))

end TransferManager

end VeritasSync
