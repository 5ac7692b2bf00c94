import VeritasSync.Library.Transition
import VeritasSync.Sync.DownloadFrame

/-
  Downloads across crashes.  What a stream has written is in
  the file for the running program; after a crash the file
  has only what had left the stream's buffer, and the
  downloads are those of the table.

  Main declarations:
    * `TransferManager.Unflushed`
    * `DownloadCrash.System`, `DownloadCrash.step`
    * `DownloadCrash.ResumesOnDisk`
-/

namespace VeritasSync

namespace TransferManager

------------------------------------------------------------
-- Buffered Writes
------------------------------------------------------------

/-
  The last write of a stream, some of which may still be in
  its buffer.  An earlier write is not: moving the stream's
  position empties the buffer.
-/
structure Unflushed where
  index : ℕ
  before : Content
  bytes : Content
deriving DecidableEq, Repr

/- The file once `n` bytes of the write have reached it. -/
def Unflushed.reached
    (chunkDataSize : ℕ)
    (u : Unflushed)
    (n : ℕ) : Content :=
  writeAt u.before (u.index * chunkDataSize)
    (u.bytes.take n)

/-
  The entry of a chunk and the disk, once the entry's stream
  is open, if the chunk gets that far.
-/
def openedEntry
    (H : Host)
    (hdr : ChunkHeader)
    (peerId : String)
    (s : LocalState) : Option (ReceivingFile × Disk) :=
  if !validateChunkHeader hdr then
    none
  else
    match lookupOrCreateReceiving H hdr.filePath
        hdr.totalChunks peerId s with
    | (none, _) => none
    | (some found, s) =>
        match prepareStream H hdr.filePath found s.disk with
        | (disk, true) =>
            some ({ found.entry with streamOpen := true },
              disk)
        | (_, false) => none

def contentAt
    (disk : Disk)
    (loc : Loc) : Content :=
  match disk.payload? loc with
  | none => []
  | some file => file.content

/- What the stream of the chunk's entry has written last. -/
def bufferAfter
    (H : Host)
    (hdr : ChunkHeader)
    (opened : Option (ReceivingFile × Disk))
    (old : Option Unflushed) : Option Unflushed :=
  match opened with
  | none => old
  | some (entry, disk) =>
      if isDuplicate hdr entry then
        old
      else
        some
          { index := hdr.chunkIndex
            before :=
              contentAt disk (H.locate entry.tempPath)
            bytes := hdr.uncompressedData }

/- The bytes of the chunks that set the entry's bits. -/
def storedAfter
    (hdr : ChunkHeader)
    (opened : Option (ReceivingFile × Disk))
    (old : ℕ → Content) : ℕ → Content :=
  match opened with
  | none => old
  | some (entry, _) => noteStored hdr entry old

/- Closing a stream empties its buffer. -/
def keepOpen
    (s : LocalState)
    (unflushed : String → Option Unflushed)
    (path : String) : Option Unflushed :=
  match s.receiving.lookup path with
  | none => none
  | some recv =>
      if recv.streamOpen then unflushed path else none

end TransferManager

namespace DownloadCrash

open TransferManager

------------------------------------------------------------
-- The System
------------------------------------------------------------

/-
  `stored` and `saved` are kept for the statements only: the
  bytes of the chunk that set a bit of the entry of a path,
  and the same for the bits of its row.
-/
structure System where
  downloads : Downloads
  unflushed : String → Option Unflushed
  stored : String → ℕ → Content
  saved : String → ℕ → Content

def start (node : LocalState) : System where
  downloads :=
    { node := { node with receiving := ∅ }
      tasks := ∅
      attached := true }
  unflushed := fun _ => none
  stored := fun _ _ => []
  saved := fun _ _ => []

/-
  `cleanup` tells which entries timed out, and `crash` how
  many bytes of each unflushed write have reached the file.
-/
inductive Event where
| register : String → String → String → ℕ → Event
| checkResume : Refusals → String → String → ℕ → Event
| chunk : Refusals → ChunkHeader → String → Event
| flush : String → Event
| cleanup : Refusals → (String → Bool) → Event
| cancel : String → Event
| crash : (String → ℕ) → Event

/- The system once the map of entries was changed. -/
def refresh
    (m : Downloads)
    (sys : System) : System :=
  { sys with
    downloads := m
    unflushed := keepOpen m.node sys.unflushed }

def withNode
    (node : LocalState)
    (sys : System) : System :=
  refresh { sys.downloads with node := node } sys

def chunkStep
    (H : Host)
    (chunkDataSize : ℕ)
    (hdr : ChunkHeader)
    (peerId : String)
    (sys : System) : System :=
  let path := hdr.filePath
  let opened := openedEntry H hdr peerId sys.downloads.node
  refresh
    (handleChunkTask H chunkDataSize hdr peerId
      sys.downloads)
    { sys with
      unflushed := Function.update sys.unflushed path
        (bufferAfter H hdr opened (sys.unflushed path))
      stored := Function.update sys.stored path
        (storedAfter hdr opened (sys.stored path)) }

def cleanupStep
    (H : Host)
    (expired : String → Bool)
    (sys : System) : System :=
  let m := cleanupStaleBuffers H expired sys.downloads
  refresh m
    { sys with
      saved := fun path =>
        if (m.node.receiving.lookup path).isSome then
          sys.stored path
        else
          sys.saved path }

/- One unflushed write, cut short. -/
def cutWrite
    (H : Host)
    (chunkDataSize : ℕ)
    (reached : String → ℕ)
    (unflushed : String → Option Unflushed)
    (disk : Disk)
    (recv : Σ _ : String, ReceivingFile) : Disk :=
  match unflushed recv.1 with
  | none => disk
  | some u =>
      Filesystem.writeFile H disk (H.locate recv.2.tempPath)
        (u.reached chunkDataSize (reached recv.1))

/- The disk that a crash leaves. -/
def durableDisk
    (H : Host)
    (chunkDataSize : ℕ)
    (reached : String → ℕ)
    (sys : System) : Disk :=
  sys.downloads.node.receiving.entries.foldl
    (cutWrite H chunkDataSize reached sys.unflushed)
    sys.downloads.node.disk

/- A crash, and the start after it. -/
def crashStep
    (H : Host)
    (chunkDataSize : ℕ)
    (reached : String → ℕ)
    (sys : System) : System where
  downloads := loadDownloadState H
    { node := { sys.downloads.node with
        disk := durableDisk H chunkDataSize reached sys
        receiving := ∅ }
      tasks := sys.downloads.tasks
      attached := true }
  unflushed := fun _ => none
  stored := sys.saved
  saved := sys.saved

section Steps

variable
  (H : Host)
  (chunkDataSize : ℕ)

def step
    (sys : System) : Event → Option System
| .register path peerId hash size =>
    some (withNode
      (registerExpectedMetadata path peerId hash size
        sys.downloads.node) sys)
| .checkResume refusals path hash size =>
    some (withNode
      (checkResumeEligibility (H.during refusals) path hash
        size sys.downloads.node).2 sys)
| .chunk refusals hdr peerId =>
    some (chunkStep (H.during refusals) chunkDataSize hdr
      peerId sys)
| .flush path =>
    some { sys with
      unflushed :=
        Function.update sys.unflushed path none }
| .cleanup refusals expired =>
    some (cleanupStep (H.during refusals) expired sys)
| .cancel peerId =>
    some (refresh
      (cancelReceivesForPeer peerId sys.downloads) sys)
| .crash reached =>
    some (crashStep H chunkDataSize reached sys)

/-
  Whenever the program crashes and starts again, a restored
  bit has the bytes of its chunk in the temporary file that
  the download goes on with.
-/
def ResumesOnDisk (sys : System) : Prop :=
  ∀ reached path recv,
    (crashStep H chunkDataSize reached
        sys).downloads.node.receiving.lookup path =
      some recv →
    (Bitmap.marked recv.receivedBitmap).Nonempty →
    ∃ file,
      (crashStep H chunkDataSize reached
          sys).downloads.node.disk.payload?
        (H.locate recv.tempPath) = some file ∧
      Reassembly.Holds chunkDataSize (sys.saved path)
        (Bitmap.marked recv.receivedBitmap) file.content

end Steps

end DownloadCrash

end VeritasSync
