import VeritasSync.Common.Json
import VeritasSync.Library.Transition
import VeritasSync.Sync.Upload

/-
  The upload loop: it reads chunks and hands them to the
  transport, pauses with its file closed when too much is
  pending, and goes on from its chunk counter.

  Main declarations:
    * `TransferManager.queueUpload`
    * `TransferManager.Upload.step`
    * `TransferManager.Upload.Sound`
    * `TransferManager.Upload.sound_of_run`
-/

namespace VeritasSync

------------------------------------------------------------
-- Requests
------------------------------------------------------------

namespace Json

/- A number read as an unsigned 32-bit one. -/
def uint32? : Json → Option ℕ
| .num value => some (value % 2 ^ 32).toNat
| .real value => some (truncate value % 2 ^ 32).toNat
| .bool value => some value.toNat
| _ => none

/- `value(name, 0u)`. -/
def uint32D
    (json : Json)
    (name : String) : Option ℕ :=
  if json.isObj then
    match json.find? name with
    | none => some 0
    | some member => member.uint32?
  else
    none

theorem uint32?_num
    {value : ℕ}
    (hLess : value < 2 ^ 32) :
    (Json.num value).uint32? = some value := by
  rw [uint32?]
  congr 1
  omega

theorem uint64?_num
    {value : ℕ}
    (hLess : value < 2 ^ 64) :
    (Json.num value).uint64? = some value := by
  rw [uint64?]
  congr 1
  omega

end Json

namespace FileRequest

/- The start, digest and size; absent ones have defaults. -/
def fields (request : FileRequest) : ℕ × String × ℕ :=
  request.resume.getD (0, "", 0)

/- The payload of the request. -/
def toJson (request : FileRequest) : Json :=
  match request.resume with
  | none => .obj [("path", .str request.path)]
  | some (start, expectedHash, expectedSize) =>
      .obj
        [("expected_hash", .str expectedHash),
          ("expected_size", .num expectedSize),
          ("path", .str request.path),
          ("start_chunk", .num start)]

end FileRequest

namespace TransferManager

open PathUtils StateManager

/- A payload that throws or is not valid is refused. -/
def parseUploadRequest
    (H : Host)
    (payload : Json) : Option FileRequest := do
  let path ← payload.strAt? "path"
  let start ← payload.uint32D "start_chunk"
  let expectedHash ← payload.strD "expected_hash"
  let expectedSize ← payload.uint64D "expected_size"
  let request : FileRequest :=
    ⟨path, some (start, expectedHash, expectedSize)⟩
  if parseAndValidateUploadRequest H request then
    some request
  else
    none

/- What a sent request says is what is read from it. -/
theorem parseUploadRequest_toJson
    {H : Host}
    {request : FileRequest}
    (hStart : request.fields.1 < 2 ^ 32)
    (hSize : request.fields.2.2 < 2 ^ 64)
    (hValid : parseAndValidateUploadRequest H request =
      true) :
    parseUploadRequest H request.toJson =
      some ⟨request.path, some request.fields⟩ := by
  have hSame : parseAndValidateUploadRequest H
      ⟨request.path, some request.fields⟩ = true := hValid
  rcases request with ⟨path, resume⟩
  cases resume with
  | none =>
      have hFields : (⟨path, none⟩ : FileRequest).fields =
          (0, "", 0) := rfl
      rw [hFields] at hSame ⊢
      simpa [parseUploadRequest, FileRequest.toJson,
        Json.strAt?, Json.uint32D, Json.uint64D, Json.strD,
        Json.find?, Json.isObj, Json.str?] using hSame
  | some fields =>
      rcases fields with ⟨start, expectedHash, expectedSize⟩
      have hFields : (⟨path, some (start, expectedHash,
          expectedSize)⟩ : FileRequest).fields =
            (start, expectedHash, expectedSize) := rfl
      rw [hFields] at hStart hSize hSame ⊢
      have hStart' := Json.uint32?_num hStart
      have hSize' := Json.uint64?_num hSize
      simpa [parseUploadRequest, FileRequest.toJson,
        Json.strAt?, Json.uint32D, Json.uint64D, Json.strD,
        Json.find?, Json.isObj, Json.str?, hStart',
        hSize'] using hSame

------------------------------------------------------------
-- The State Of An Upload
------------------------------------------------------------

/-
  An open file: where it is read next, and whether a read
  fell short.
-/
structure ReadStream where
  position : ℕ
  failed : Bool
deriving DecidableEq, Repr

namespace ReadStream

def opened : ReadStream := ⟨0, false⟩

def seekg
    (position : ℕ)
    (stream : ReadStream) : ReadStream :=
  if stream.failed then
    stream
  else
    { stream with position := position }

/- The bytes that a read gets, and the stream after it. -/
def read
    (file : Content)
    (count : ℕ)
    (stream : ReadStream) : Content × ReadStream :=
  if stream.failed then
    ([], stream)
  else
    let bytes := (file.drop stream.position).take count
    (bytes, ⟨stream.position + bytes.length,
      bytes.length < count⟩)

end ReadStream

inductive Ending where
| complete
| disconnected
| gaveUp
| cancelled
deriving DecidableEq, Repr

/- The loop is about to run, or its timer is set. -/
inductive Phase where
| ready
| waiting
| ended : Ending → Phase
deriving DecidableEq, Repr

/-
  `size` is what the first open found, `handed` are the
  chunks given to the transport with its answers, and
  `recorded` tells that the file was recorded as sent.
-/
structure Upload extends UploadContext where
  size : Option ℕ
  openRetryCount : ℕ
  file : Option ReadStream
  handed : List (ChunkHeader × ℤ)
  phase : Phase
  recorded : Bool
deriving DecidableEq, Repr

structure TransferConfig where
  chunkDataSize : ℕ
  fileOpenMaxRetries : ℕ

def congestionThreshold : ℤ := 256

/- An upload before the first turn of its loop. -/
def beginUpload
    (request : FileRequest)
    (fileHash : String)
    (size : ℕ) : Upload where
  path := request.path
  fileHash := fileHash
  currentChunk := startChunk request fileHash size
  totalChunks := 0
  size := none
  openRetryCount := 0
  file := none
  handed := []
  phase := .ready
  recorded := false

/- An error gives the largest 64-bit number. -/
def fileSize
    (disk : Disk)
    (loc : Loc) : ℕ :=
  match disk.payload? loc with
  | none => 2 ^ 64 - 1
  | some file => file.content.length

def queueUpload
    (H : Host)
    (peerId : String)
    (payload : Json)
    (s : LocalState) : Option Upload :=
  if peerId = "" then
    none
  else
    match parseUploadRequest H payload with
    | none => none
    | some request =>
        let loc := H.locate request.path
        if Filesystem.exists? s.disk loc then
          some (beginUpload request
            (getFileHash s request.path)
            (fileSize s.disk loc))
        else
          none

namespace Upload

/- The chunks that the transport took. -/
def accepted (u : Upload) : List ChunkHeader :=
  (u.handed.filter (fun sent => 0 ≤ sent.2)).map Prod.fst

------------------------------------------------------------
-- The Loop
------------------------------------------------------------

section Loop

variable
  (config : TransferConfig)

/- Too many failures to open the file end the upload. -/
def openFile
    (found : Option Content)
    (u : Upload) : Upload :=
  match found with
  | none =>
      if u.openRetryCount < config.fileOpenMaxRetries then
        { u with
          openRetryCount := u.openRetryCount + 1
          phase := .waiting }
      else
        { u with phase := .ended .gaveUp }
  | some file =>
      let u := { u with openRetryCount := 0 }
      let u :=
        if u.totalChunks = 0 then
          { u with
            size := some file.length
            totalChunks :=
              chunkCount config.chunkDataSize file.length }
        else
          u
      { u with
        file := some (ReadStream.opened.seekg
          (u.currentChunk * config.chunkDataSize)) }

/- The chunk that is read, and the stream after it. -/
def sendOneChunk
    (file : Content)
    (stream : ReadStream)
    (u : Upload) : ChunkHeader × ReadStream :=
  let got := stream.read file config.chunkDataSize
  ({ filePath := u.path
     chunkIndex := u.currentChunk
     totalChunks := u.totalChunks
     uncompressedData := got.1
     valid := true }, got.2)

/- A negative answer means that the peer is gone. -/
def handChunk
    (file : Content)
    (stream : ReadStream)
    (pending : ℤ)
    (u : Upload) : Upload :=
  let sent := sendOneChunk config file stream u
  let u := { u with handed := u.handed ++ [(sent.1, pending)] }
  if pending < 0 then
    { u with file := none, phase := .ended .disconnected }
  else
    let u := { u with currentChunk := u.currentChunk + 1 }
    if pending > congestionThreshold then
      { u with file := none, phase := .waiting }
    else
      { u with file := some sent.2 }

/- The state manager may be gone by then. -/
def finish
    (managed : Bool)
    (u : Upload) : Upload :=
  { u with
    file := none
    phase := .ended .complete
    recorded := u.fileHash != "" && managed }

/-
  What happens next: an attempt to open the file, a chunk
  read from the file as it is then and the transport's
  answer, the end of the loop, or the timer.
-/
inductive Event where
| openFile : Option Content → Event
| sendChunk : Content → ℤ → Event
| finish : Bool → Event
| wake : Bool → Event
deriving DecidableEq

def step
    (u : Upload) : Event → Option Upload
| .openFile found =>
    if u.phase = .ready ∧ u.file = none then
      some (u.openFile config found)
    else
      none
| .sendChunk file pending =>
    match u.file with
    | none => none
    | some stream =>
        if u.phase = .ready ∧
            u.currentChunk < u.totalChunks then
          some (u.handChunk config file stream pending)
        else
          none
| .finish managed =>
    if u.phase = .ready ∧ u.file ≠ none ∧
        u.totalChunks ≤ u.currentChunk then
      some (u.finish managed)
    else
      none
| .wake expired =>
    if u.phase = .waiting then
      some { u with
        phase :=
          if expired then .ready else .ended .cancelled }
    else
      none

/- Everything one step can do. -/
theorem step_cases
    {config : TransferConfig}
    {u u' : Upload}
    {e : Event}
    (hStep : u.step config e = some u') :
    (∃ found, e = .openFile found ∧ u.phase = .ready ∧
        u.file = none ∧ u' = u.openFile config found) ∨
      (∃ file pending stream, e = .sendChunk file pending ∧
        u.phase = .ready ∧ u.file = some stream ∧
        u.currentChunk < u.totalChunks ∧
        u' = u.handChunk config file stream pending) ∨
      (∃ managed, e = .finish managed ∧ u.phase = .ready ∧
        u.file ≠ none ∧ u.totalChunks ≤ u.currentChunk ∧
        u' = u.finish managed) ∨
      (∃ expired, e = .wake expired ∧ u.phase = .waiting ∧
        u' = { u with
          phase := if expired then .ready
            else .ended .cancelled }) := by
  cases e with
  | openFile found =>
      simp only [step, Option.ite_none_right_eq_some,
        Option.some.injEq] at hStep
      rcases hStep with ⟨⟨hReady, hClosed⟩, hNext⟩
      exact Or.inl ⟨found, rfl, hReady, hClosed, hNext.symm⟩
  | sendChunk file pending =>
      simp only [step] at hStep
      cases hFile : u.file with
      | none => simp [hFile] at hStep
      | some stream =>
          simp only [hFile, Option.ite_none_right_eq_some,
            Option.some.injEq] at hStep
          rcases hStep with ⟨⟨hReady, hLess⟩, hNext⟩
          exact Or.inr (Or.inl ⟨file, pending, stream, rfl,
            hReady, rfl, hLess, hNext.symm⟩)
  | finish managed =>
      simp only [step, Option.ite_none_right_eq_some,
        Option.some.injEq] at hStep
      rcases hStep with ⟨⟨hReady, hOpen, hDone⟩, hNext⟩
      exact Or.inr (Or.inr (Or.inl ⟨managed, rfl, hReady,
        hOpen, hDone, hNext.symm⟩))
  | wake expired =>
      simp only [step, Option.ite_none_right_eq_some,
        Option.some.injEq] at hStep
      rcases hStep with ⟨hWaiting, hNext⟩
      exact Or.inr (Or.inr (Or.inr ⟨expired, rfl, hWaiting,
        hNext.symm⟩))

end Loop

------------------------------------------------------------
-- What Every Upload Keeps
------------------------------------------------------------

section Handing

variable
  {config : TransferConfig}
  {file : Content}
  {stream : ReadStream}
  {pending : ℤ}
  {u : Upload}

theorem handed_handChunk :
    (u.handChunk config file stream pending).handed =
      u.handed ++
        [((u.sendOneChunk config file stream).1, pending)] := by
  unfold handChunk
  split
  · rfl
  · dsimp only
    split <;> rfl

theorem currentChunk_handChunk :
    (u.handChunk config file stream pending).currentChunk =
      if pending < 0 then
        u.currentChunk
      else
        u.currentChunk + 1 := by
  unfold handChunk
  split
  · rfl
  · dsimp only
    split <;> rfl

/- Handing a chunk over leaves the rest as it was. -/
theorem handChunk_frame (hReady : u.phase = .ready) :
    let u' := u.handChunk config file stream pending
    u'.path = u.path ∧ u'.fileHash = u.fileHash ∧
      u'.totalChunks = u.totalChunks ∧ u'.size = u.size ∧
      u'.recorded = u.recorded ∧
      u'.phase ≠ .ended .complete ∧
      (u'.phase = .ready → u'.file ≠ none) := by
  unfold handChunk
  split
  · exact ⟨rfl, rfl, rfl, rfl, rfl, by simp, by simp⟩
  · dsimp only
    split
    · exact ⟨rfl, rfl, rfl, rfl, rfl, by simp, by simp⟩
    · exact ⟨rfl, rfl, rfl, rfl, rfl, by simp [hReady],
        by simp⟩

theorem accepted_handChunk :
    (u.handChunk config file stream pending).accepted =
      if pending < 0 then
        u.accepted
      else
        u.accepted ++
          [(u.sendOneChunk config file stream).1] := by
  unfold accepted
  rw [handed_handChunk, List.filter_append]
  split
  next hGone =>
    have hNot : ¬ 0 ≤ pending := by omega
    simp [hNot]
  next hTaken =>
    have hAccept : 0 ≤ pending := by omega
    simp [hAccept]

end Handing

/-
  What holds of an upload that began as `u₀`, whatever
  happens to its file.
-/
structure Sound
    (config : TransferConfig)
    (u₀ u : Upload) : Prop where
  path : u.path = u₀.path
  fileHash : u.fileHash = u₀.fileHash
  started : u₀.currentChunk ≤ u.currentChunk
  indexes : u.accepted.map ChunkHeader.chunkIndex =
    List.range' u₀.currentChunk
      (u.currentChunk - u₀.currentChunk)
  within : u.currentChunk ≤
    max u₀.currentChunk u.totalChunks
  total : ∀ n, u.size = some n →
    u.totalChunks = chunkCount config.chunkDataSize n
  unopened : u.size = none →
    u.totalChunks = 0 ∧ u.file = none
  opened : u.totalChunks = 0 → u.size ≠ none →
    u.phase = .ready → u.file ≠ none
  paused : u.phase = .waiting →
    u.size = none ∨ 0 < u.totalChunks
  headers : ∀ sent ∈ u.handed,
    sent.1.filePath = u.path ∧
      sent.1.totalChunks = u.totalChunks ∧
      sent.1.chunkIndex < u.totalChunks ∧
      sent.1.valid = true
  complete : u.phase = .ended .complete →
    u.size ≠ none ∧ u.totalChunks ≤ u.currentChunk
  recorded : u.recorded = true →
    u.phase = .ended .complete ∧ u.fileHash ≠ ""

section Sound

variable
  {config : TransferConfig}
  {u₀ u u' : Upload}

theorem sound_beginUpload
    (config : TransferConfig)
    (request : FileRequest)
    (fileHash : String)
    (size : ℕ) :
    let u := beginUpload request fileHash size
    Sound config u u where
  path := rfl
  fileHash := rfl
  started := Nat.le_refl _
  indexes := by simp [beginUpload, accepted]
  within := Nat.le_max_left _ _
  total := by simp [beginUpload]
  unopened _ := ⟨rfl, rfl⟩
  opened := by simp [beginUpload]
  paused := by simp [beginUpload]
  headers := by simp [beginUpload]
  complete := by simp [beginUpload]
  recorded := by simp [beginUpload]

/- Nothing was handed over while the file was not opened. -/
theorem Sound.handed_of_total_zero
    (hSound : Sound config u₀ u)
    (hZero : u.totalChunks = 0) :
    u.handed = [] := by
  apply List.eq_nil_iff_forall_not_mem.mpr
  intro sent hMem
  have hLess := (hSound.headers sent hMem).2.2.1
  omega

theorem Sound.openFile
    (hSound : Sound config u₀ u)
    (hReady : u.phase = .ready)
    (hClosed : u.file = none)
    (found : Option Content) :
    Sound config u₀ (u.openFile config found) := by
  have hPaused : u.size = none ∨ 0 < u.totalChunks := by
    by_cases hZero : u.totalChunks = 0
    · refine Or.inl ?_
      by_contra hSize
      exact hSound.opened hZero hSize hReady hClosed
    · exact Or.inr (by omega)
  have hNotRecorded : u.recorded = false := by
    by_contra hRecorded
    have hComplete := (hSound.recorded (by simpa
      using hRecorded)).1
    rw [hReady] at hComplete
    cases hComplete
  unfold Upload.openFile
  cases found with
  | none =>
      dsimp only
      split
      · exact { hSound with
          opened := by simp
          paused := fun _ => hPaused
          complete := by simp
          recorded := by simp [hNotRecorded] }
      · exact { hSound with
          opened := by simp
          paused := by simp
          complete := by simp
          recorded := by simp [hNotRecorded] }
  | some file =>
      dsimp only
      split
      next hZero =>
        have hHanded := hSound.handed_of_total_zero hZero
        have hFirst : u.currentChunk = u₀.currentChunk := by
          have hWithin := hSound.within
          have hStarted := hSound.started
          rw [hZero] at hWithin
          omega
        exact { hSound with
          within := by
            rw [hFirst]
            exact Nat.le_max_left _ _
          total := by simp
          unopened := by simp
          opened := by simp
          paused := by simp [hReady]
          headers := by simp [hHanded]
          complete := by simp [hReady]
          recorded := by simp [hNotRecorded] }
      next hPositive =>
        exact { hSound with
          unopened := fun hSize =>
            absurd (hSound.unopened hSize).1 hPositive
          opened := by simp
          paused := by simp [hReady]
          complete := by simp [hReady]
          recorded := by simp [hNotRecorded] }

theorem Sound.handChunk
    (hSound : Sound config u₀ u)
    (hReady : u.phase = .ready)
    (hLess : u.currentChunk < u.totalChunks)
    (file : Content)
    (stream : ReadStream)
    (pending : ℤ) :
    Sound config u₀
      (u.handChunk config file stream pending) := by
  rcases @handChunk_frame config file stream pending u
    hReady with
    ⟨hPath, hHash, hTotal, hSize, hRecorded, hComplete,
      hOpen⟩
  have hCurrent := @currentChunk_handChunk config file stream
    pending u
  have hStarted := hSound.started
  refine
    { path := hPath.trans hSound.path
      fileHash := hHash.trans hSound.fileHash
      started := ?_
      indexes := ?_
      within := ?_
      total := ?_
      unopened := ?_
      opened := ?_
      paused := ?_
      headers := ?_
      complete := fun hEnd => absurd hEnd hComplete
      recorded := ?_ }
  · rw [hCurrent]
    split <;> omega
  · rw [accepted_handChunk, hCurrent]
    split
    next => exact hSound.indexes
    next =>
      have hNext : u.currentChunk + 1 - u₀.currentChunk =
          u.currentChunk - u₀.currentChunk + 1 := by omega
      rw [List.map_append, hSound.indexes, hNext,
        List.range'_concat]
      have hLast : u₀.currentChunk +
          1 * (u.currentChunk - u₀.currentChunk) =
            u.currentChunk := by omega
      rw [hLast]
      rfl
  · rw [hCurrent, hTotal]
    split <;> omega
  · rw [hSize, hTotal]
    exact hSound.total
  · rw [hSize]
    intro hNone
    have hZero := (hSound.unopened hNone).1
    omega
  · rw [hTotal]
    intro hZero
    omega
  · rw [hTotal]
    exact fun _ => Or.inr (by omega)
  · rw [handed_handChunk, hPath, hTotal]
    intro sent hMem
    rcases List.mem_append.mp hMem with hOld | hNew
    · exact hSound.headers sent hOld
    · rw [List.mem_singleton.mp hNew]
      exact ⟨rfl, rfl, hLess, rfl⟩
  · rw [hRecorded]
    intro hTrue
    have hEnd := (hSound.recorded hTrue).1
    rw [hReady] at hEnd
    cases hEnd

theorem Sound.finish
    (hSound : Sound config u₀ u)
    (hOpen : u.file ≠ none)
    (hDone : u.totalChunks ≤ u.currentChunk)
    (managed : Bool) :
    Sound config u₀ (u.finish managed) :=
  have hSize : u.size ≠ none := fun hNone =>
    hOpen (hSound.unopened hNone).2
  { hSound with
    unopened := fun hNone => absurd hNone hSize
    opened := by simp [Upload.finish]
    paused := by simp [Upload.finish]
    complete := fun _ => ⟨hSize, hDone⟩
    recorded := by
      intro hRecorded
      simp only [Upload.finish, Bool.and_eq_true,
        bne_iff_ne] at hRecorded
      exact ⟨rfl, hRecorded.1⟩ }

theorem Sound.step
    {e : Event}
    (hSound : Sound config u₀ u)
    (hStep : u.step config e = some u') :
    Sound config u₀ u' := by
  rcases step_cases hStep with
    ⟨found, -, hReady, hClosed, rfl⟩ |
    ⟨file, pending, stream, -, hReady, -, hLess, rfl⟩ |
    ⟨managed, -, -, hOpen, hDone, rfl⟩ |
    ⟨expired, -, hWaiting, rfl⟩
  · exact hSound.openFile hReady hClosed found
  · exact hSound.handChunk hReady hLess file stream pending
  · exact hSound.finish hOpen hDone managed
  · have hPaused := hSound.paused hWaiting
    have hNotRecorded : u.recorded = true → False := by
      intro hRecorded
      have hEnd := (hSound.recorded hRecorded).1
      rw [hWaiting] at hEnd
      cases hEnd
    exact { hSound with
      opened := by
        intro hZero hSize
        rcases hPaused with hNone | hPositive
        · exact absurd hNone hSize
        · exact absurd hZero (Nat.ne_of_gt hPositive)
      paused := fun _ => hPaused
      complete := by
        intro hEnd
        cases expired <;> cases hEnd
      recorded := fun hRecorded =>
        (hNotRecorded hRecorded).elim }

/- An upload that was queued has not begun. -/
theorem exists_beginUpload
    {H : Host}
    {peerId : String}
    {payload : Json}
    {s : LocalState}
    (hQueued : queueUpload H peerId payload s = some u₀) :
    ∃ request,
      parseUploadRequest H payload = some request ∧
        u₀ = beginUpload request (getFileHash s request.path)
          (fileSize s.disk (H.locate request.path)) := by
  unfold queueUpload at hQueued
  split at hQueued
  · cases hQueued
  · split at hQueued
    · cases hQueued
    next request hParse =>
      dsimp only at hQueued
      split at hQueued
      · exact ⟨request, hParse, (Option.some.inj
          hQueued).symm⟩
      · cases hQueued

theorem sound_of_run
    {H : Host}
    {peerId : String}
    {payload : Json}
    {s : LocalState}
    {events : List Event}
    (hQueued : queueUpload H peerId payload s = some u₀)
    (hRun : Transition.run (step config) u₀ events =
      some u) :
    Sound config u₀ u := by
  rcases exists_beginUpload hQueued with ⟨request, -, rfl⟩
  exact Transition.invariant_of_run
    (fun _ _ _ hSound _ hStep => hSound.step hStep)
    (sound_beginUpload config request _ _)
    (Transition.meets_of_forall (fun _ _ => trivial)) hRun

end Sound

end Upload

end TransferManager

end VeritasSync
