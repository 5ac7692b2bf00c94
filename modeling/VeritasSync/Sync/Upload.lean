import VeritasSync.Sync.TransferManager

/-
  Uploads: how a requested file is cut into chunks, and when
  the sending side records that the peer has it.

  Main declarations:
    * `TransferManager.UploadContext`
    * `TransferManager.startUpload`
    * `TransferManager.finishUpload`
-/

namespace VeritasSync

namespace TransferManager

open PathUtils StateManager

/-
  One running upload.  `fileHash` is the digest that the map
  held when the upload started.
-/
structure UploadContext where
  path : String
  fileHash : String
  currentChunk : ℕ
  totalChunks : ℕ
deriving DecidableEq, Repr

/- A request that is served at all. -/
def parseAndValidateUploadRequest
    (H : Host)
    (request : FileRequest) : Bool :=
  !request.path.isEmpty &&
    request.path.utf8ByteSize ≤ maxAllowedRelativePathLen &&
    isPathSafe H request.path

/-
  An empty file still has one chunk.  The count is kept in
  32 bits.
-/
def chunkCount (chunkDataSize size : ℕ) : ℕ :=
  if size > 0 then
    (size + chunkDataSize - 1) / chunkDataSize % 2 ^ 32
  else
    1

/-
  A resumed upload skips chunks only when the local file is
  still the one that the peer was promised.
-/
def startChunk
    (request : FileRequest)
    (fileHash : String)
    (size : ℕ) : ℕ :=
  match request.resume with
  | none => 0
  | some (start, expectedHash, expectedSize) =>
      if (expectedHash = "" ∨ fileHash = expectedHash) ∧
          (expectedSize = 0 ∨ size = expectedSize) then
        start
      else
        0

/- A file that cannot be opened is given up. -/
def startUpload
    (H : Host)
    (chunkDataSize : ℕ)
    (request : FileRequest)
    (s : LocalState) : Option UploadContext :=
  let loc := H.locate request.path
  if !parseAndValidateUploadRequest H request then
    none
  else if H.openFails loc then
    none
  else
    match s.disk.payload? loc with
    | none => none
    | some file =>
        let fileHash := getFileHash s request.path
        let size := file.content.length
        some
          { path := request.path
            fileHash := fileHash
            currentChunk :=
              startChunk request fileHash size
            totalChunks := chunkCount chunkDataSize size }

/- The next chunk, read from the disk as it is now. -/
def nextChunk
    (H : Host)
    (chunkDataSize : ℕ)
    (ctx : UploadContext)
    (s : LocalState) : ChunkHeader where
  filePath := ctx.path
  chunkIndex := ctx.currentChunk
  totalChunks := ctx.totalChunks
  uncompressedData :=
    match s.disk.payload? (H.locate ctx.path) with
    | none => []
    | some file =>
        (file.content.drop
          (ctx.currentChunk * chunkDataSize)).take
            chunkDataSize
  valid := true

/-
  Once the last chunk was handed over, the file counts as
  sent, whether or not the chunks have arrived.
-/
def finishUpload
    (H : Host)
    (peerId : String)
    (ctx : UploadContext)
    (s : LocalState) : LocalState :=
  if ctx.fileHash = "" then
    s
  else
    recordFileSent H peerId ctx.path ctx.fileHash s

/- A request whose upload, if it starts, runs to its end. -/
def serveRequest
    (H : Host)
    (chunkDataSize : ℕ)
    (peerId : String)
    (request : FileRequest)
    (s : LocalState) : LocalState :=
  match startUpload H chunkDataSize request s with
  | none => s
  | some ctx => finishUpload H peerId ctx s

end TransferManager

end VeritasSync
