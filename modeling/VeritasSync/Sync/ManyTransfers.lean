import VeritasSync.Sync.ConflictCopies
import VeritasSync.Sync.FileTransfer
import VeritasSync.Sync.SharedFrame
import Mathlib.Data.List.Perm.Basic

/-
  Many files on their way at once.  Their packets arrive in
  any order, mixed with each other; the downloads share the
  disk and the directories above their files.

  Main declarations:
    * `TransferManager.Apart`
    * `TransferManager.Pending`, `TransferManager.Arrived`
    * `TransferManager.inTransit_handleChunks`
    * `TransferManager.Sent`
    * `TransferManager.received_are_sent`
-/

namespace VeritasSync

namespace TransferManager

open PathUtils
open ConflictCopies (OwnTemps OwnTemps.chunk)

------------------------------------------------------------
-- One Download
------------------------------------------------------------

/-
  The download of `other` has nothing to do with the files
  of `path`, and does not stand in the way of its
  directories.
-/
structure Apart
    (H : Host)
    (path other : String) : Prop where
  final : Clear H other (H.locate path)
  temp : Clear H other (H.locate (tempPathOf path))
  parent : Beside H other
    (H.locate (Filesystem.parentText path))

theorem Apart.ne
    {H : Host}
    {path other : String}
    (hApart : Apart H path other) :
    path ≠ other := by
  rintro rfl
  exact hApart.final.final (List.prefix_refl _)

section Download

variable
  (H : Host)
  (size : ℕ)
  (path expected : String)
  (content : Content)

/- The number of the file's chunks. -/
def pieces : ℕ :=
  Reassembly.pieceCount size content.length

/- One chunk of the file. -/
def piece (i : ℕ) : ChunkHeader :=
  blockChunk path (pieces size content)
    (Reassembly.piece size content) i

/- A download that waits for chunks. -/
structure Pending
    (arrived : Set ℕ)
    (s : LocalState) : Prop where
  expected : expectedHashOf s path = expected
  opens : H.openFails (H.locate (tempPathOf path)) = false
  placeable : Placeable H path s.disk
  state : (arrived = ∅ ∧ Unstarted H path s ∧
      Storable H path s.disk) ∨
    ∃ entry, s.receiving.lookup path = some entry ∧
      Working H path (pieces size content)
        (Assembling size content) arrived entry s.disk ∧
      Filesystem.writable s.disk
        (H.locate (tempPathOf path)) = true

/- The file is in its place, and nothing else is left. -/
structure Arrived (s : LocalState) : Prop where
  file : ∃ time, s.disk.lookup (H.locate path) =
    some (.file ⟨content, time⟩)
  temp : s.disk.lookup (H.locate (tempPathOf path)) = none
  entry : s.receiving.lookup path = none

/- What the chunks in `arrived` have led to. -/
def InTransit
    (arrived : Set ℕ)
    (s : LocalState) : Prop :=
  (∀ k < pieces size content, k ∈ arrived) ∧
      Arrived H path content s ∨
    (¬ ∀ k < pieces size content, k ∈ arrived) ∧
      Pending H size path expected content arrived s

variable
  {H size path expected content}
  {arrived : Set ℕ}
  {s : LocalState}

------------------------------------------------------------
-- Chunks of Other Files
------------------------------------------------------------

section Other

variable
  {hdr : ChunkHeader}
  (hApart : Apart H path hdr.filePath)
  (hTemps : OwnTemps s)
  (chunkDataSize : ℕ)
  (peerId : String)

include hApart hTemps

theorem Arrived.other
    (hArrived : Arrived H path content s) :
    Arrived H path content
      (handleChunk H chunkDataSize hdr peerId s) := by
  refine ⟨?_, ?_, ?_⟩
  · rw [lookup_handleChunk_of_clear hApart.final (hTemps _)]
    exact hArrived.file
  · rw [lookup_handleChunk_of_clear hApart.temp (hTemps _)]
    exact hArrived.temp
  · rw [receiving_handleChunk_of_ne hApart.ne]
    exact hArrived.entry

/- What is above the temporary file stays. -/
theorem writable_other
    (hWritable : Filesystem.writable s.disk
      (H.locate (tempPathOf path)) = true) :
    Filesystem.writable
      (handleChunk H chunkDataSize hdr peerId s).disk
      (H.locate (tempPathOf path)) = true := by
  have hAbove := lasts_handleChunk
    (hApart.temp.beside.above (List.dropLast_prefix _))
    (hTemps _) chunkDataSize peerId
  unfold Filesystem.writable at hWritable ⊢
  rw [Bool.and_eq_true, beq_iff_eq] at hWritable ⊢
  rw [lookup_handleChunk_of_clear hApart.temp (hTemps _)]
  exact ⟨hAbove.dir hWritable.1, hWritable.2⟩

theorem Unstarted.other
    (hUnstarted : Unstarted H path s) :
    Unstarted H path
      (handleChunk H chunkDataSize hdr peerId s) := by
  refine ⟨?_, ?_⟩
  · rw [receiving_handleChunk_of_ne hApart.ne]
    exact hUnstarted.entry
  · unfold Filesystem.exists?
    rw [lookup_handleChunk_of_clear hApart.temp (hTemps _)]
    exact hUnstarted.temp

theorem Storable.other
    (hStorable : Storable H path s.disk) :
    Storable H path
      (handleChunk H chunkDataSize hdr peerId s).disk := by
  refine ⟨hStorable.opens, ?_⟩
  rcases hStorable.parent with ⟨made, hMade, hWritable⟩
  have hLasts : ∀ key, Beside H hdr.filePath key →
      Filesystem.Lasts key s.disk
        (handleChunk H chunkDataSize hdr peerId s).disk :=
    fun key hBeside => lasts_handleChunk hBeside (hTemps _)
      chunkDataSize peerId
  rcases Filesystem.exists_createDirectories
    (fun key hAbove =>
      hLasts key (hApart.parent.above hAbove)) hMade with
    ⟨made', hMade', hAlike⟩
  refine ⟨made', hMade', ?_⟩
  have hSame : made'.lookup (H.locate (tempPathOf path)) =
      made.lookup (H.locate (tempPathOf path)) := by
    rw [Filesystem.lookup_createDirectories hMade,
      Filesystem.lookup_createDirectories hMade',
      lookup_handleChunk_of_clear hApart.temp (hTemps _)]
  unfold Filesystem.writable at hWritable ⊢
  rw [Bool.and_eq_true, beq_iff_eq] at hWritable ⊢
  rw [hSame]
  refine ⟨?_, hWritable.2⟩
  exact (hAlike _ (hLasts _ (hApart.temp.beside.above
    (List.dropLast_prefix _)))).dir hWritable.1

theorem Pending.other
    (hPending : Pending H size path expected content arrived
      s) :
    Pending H size path expected content arrived
      (handleChunk H chunkDataSize hdr peerId s) := by
  rcases hPending with
    ⟨hExpected, hOpens, hPlaceable, hState⟩
  refine ⟨?_, hOpens, ?_, ?_⟩
  · unfold expectedHashOf at hExpected ⊢
    rwa [receiving_handleChunk_of_ne hApart.ne]
  · refine ⟨hPlaceable.parent, hPlaceable.apart,
      hPlaceable.below, ?_, hPlaceable.moves,
      hPlaceable.reads⟩
    rw [lookup_handleChunk_of_clear hApart.final (hTemps _)]
    exact hPlaceable.file
  · rcases hState with ⟨hNone, hUnstarted, hStorable⟩ |
      ⟨entry, hEntry, hWorking, hWritable⟩
    · exact Or.inl ⟨hNone,
        hUnstarted.other hApart hTemps chunkDataSize peerId,
        hStorable.other hApart hTemps chunkDataSize peerId⟩
    · refine Or.inr ⟨entry, ?_, ?_,
        writable_other hApart hTemps chunkDataSize peerId
          hWritable⟩
      · rw [receiving_handleChunk_of_ne hApart.ne]
        exact hEntry
      · refine ⟨hWorking.temp, hWorking.total,
          hWorking.counted, hWorking.stream, hWorking.marks,
          ?_⟩
        rcases hWorking.file with ⟨file, hFile, hHolds⟩
        refine ⟨file, ?_, hHolds⟩
        rw [FileTree.payload?_eq_some_iff] at hFile ⊢
        rw [lookup_handleChunk_of_clear hApart.temp
          (hTemps _)]
        exact hFile

theorem InTransit.other
    (hTransit : InTransit H size path expected content
      arrived s) :
    InTransit H size path expected content arrived
      (handleChunk H chunkDataSize hdr peerId s) := by
  rcases hTransit with ⟨hAll, hArrived⟩ | ⟨hRest, hPending⟩
  · exact Or.inl ⟨hAll,
      hArrived.other hApart hTemps chunkDataSize peerId⟩
  · exact Or.inr ⟨hRest,
      hPending.other hApart hTemps chunkDataSize peerId⟩

end Other

------------------------------------------------------------
-- Chunks of the File
------------------------------------------------------------

/- The download as its own chunks see it. -/
theorem Pending.receiving
    (hPending : Pending H size path expected content arrived
      s) :
    ∃ base,
      Receiving H path (pieces size content)
        (Assembling size content) base expected arrived s ∧
      Placeable H path base := by
  rcases hPending with ⟨hExpected, hOpens, hPlaceable,
    ⟨hNone, hUnstarted, hStorable⟩ |
    ⟨entry, hEntry, hWorking, hWritable⟩⟩
  · rcases hStorable.parent with ⟨base, hMade, hWritable⟩
    exact ⟨base, ⟨hExpected, hOpens, hWritable,
      Or.inl ⟨hNone, hUnstarted, hMade⟩⟩,
      hPlaceable.createDirectories hMade⟩
  · exact ⟨s.disk, ⟨hExpected, hOpens, hWritable,
      Or.inr ⟨entry, hEntry, hWorking, fun _ _ => rfl⟩⟩,
      hPlaceable⟩

/- Away from the temporary file, what held still holds. -/
theorem pending_of_receiving
    {base : Disk}
    (hSome : arrived ≠ ∅)
    (hReceiving : Receiving H path (pieces size content)
      (Assembling size content) base expected arrived s)
    (hPlaceable : Placeable H path base) :
    Pending H size path expected content arrived s := by
  rcases hReceiving with ⟨hExpected, hOpens, hWritable,
    ⟨hNone, -⟩ | ⟨entry, hEntry, hWorking, hOnto⟩⟩
  · exact absurd hNone hSome
  · have hFile : s.disk.lookup (H.locate path) ≠
        some .dir := by
      rw [hOnto _ hPlaceable.apart.symm]
      exact hPlaceable.file
    refine ⟨hExpected, hOpens,
      ⟨hPlaceable.parent, hPlaceable.apart,
        hPlaceable.below, hFile, hPlaceable.moves,
        hPlaceable.reads⟩,
      Or.inr ⟨entry, hEntry, hWorking, ?_⟩⟩
    rcases hWorking.file with ⟨file, hTemp, -⟩
    rw [FileTree.payload?_eq_some_iff] at hTemp
    unfold Filesystem.writable at hWritable ⊢
    rw [Bool.and_eq_true, beq_iff_eq, bne_iff_ne]
      at hWritable ⊢
    have hAbove : (H.locate (tempPathOf path)).dropLast ≠
        H.locate (tempPathOf path) := by
      intro hSame
      rw [hSame] at hWritable
      exact hWritable.2 hWritable.1
    refine ⟨?_, ?_⟩
    · rw [hOnto _ hAbove]
      exact hWritable.1
    · rw [hTemp]
      simp

/-
  A chunk that was missing: the last one brings the file to
  its place, and any other one the download a step on.
-/
theorem InTransit.own
    (hSize : 0 < size)
    (hReceivable : Receivable H path)
    (hLimit : pieces size content ≤ maxAllowedTotalChunks)
    (hExpected : expected = "" ∨
      expected = H.digest.hash content)
    (hTransit : InTransit H size path expected content
      arrived s)
    {i : ℕ}
    (hInside : i < pieces size content)
    (hMissing : i ∉ arrived)
    (peerId : String) :
    InTransit H size path expected content
      (insert i arrived)
      (handleChunk H size (piece size path content i) peerId
        s) := by
  rcases hTransit with ⟨hAll, -⟩ | ⟨hRest, hPending⟩
  · exact absurd (hAll i hInside) hMissing
  rcases hPending.receiving with
    ⟨base, hReceiving, hPlaceable⟩
  rcases receiving_step hReceivable hLimit
    (steps_assembling size (fun _ _ => rfl))
    (fun _ => assembling_empty) hReceiving hRest hInside
    peerId with
    ⟨hAll, entry, disk, s', hHandled, hWorking, hOnto,
      hHash⟩ | ⟨hRest', hNext⟩
  · refine Or.inl ⟨hAll, ?_⟩
    rcases hWorking.file with ⟨file, hFile, hAssembling⟩
    have hContent : file.content = content :=
      Reassembly.eq_of_holds hSize hAssembling.1
        hAssembling.2 hAll
    have hFinal := finalize_of_assembled (s := s') peerId
      hPlaceable hReceiving.writable hOnto hWorking.temp
      ((FileTree.payload?_eq_some_iff _ _ _).mp hFile)
      (by rwa [hHash, hContent])
    have hHere : handleChunk H size
        (piece size path content i) peerId s =
          finalizeReceivedFile H path peerId entry
            { s' with disk := disk } := hHandled
    rw [hHere]
    refine ⟨⟨file.mtime, ?_⟩, hFinal.2.1, hFinal.2.2⟩
    rw [hFinal.1, ← hContent]
  · exact Or.inr ⟨hRest', pending_of_receiving
      (Set.insert_nonempty _ _).ne_empty hNext hPlaceable⟩

------------------------------------------------------------
-- All Chunks
------------------------------------------------------------

/- The numbers of the path's own chunks, as they arrive. -/
def ownPieces
    (path : String)
    (chunks : List (ChunkHeader × String)) : List ℕ :=
  ((chunks.map Prod.fst).filter
    (fun hdr => hdr.filePath = path)).map
      ChunkHeader.chunkIndex

/- The chunks are handled one after the other. -/
def handleChunks
    (H : Host)
    (chunkDataSize : ℕ)
    (chunks : List (ChunkHeader × String))
    (s : LocalState) : LocalState :=
  chunks.foldl (fun s chunk =>
    handleChunk H chunkDataSize chunk.1 chunk.2 s) s

/-
  A chunk of the path is one of the file's; a chunk of any
  other path leaves the download alone.
-/
def Fits
    (H : Host)
    (size : ℕ)
    (path : String)
    (content : Content)
    (chunk : ChunkHeader × String) : Prop :=
  (∃ i < pieces size content,
      chunk.1 = piece size path content i) ∨
    Apart H path chunk.1.filePath

/-
  The chunks are handled one after the other, those of the
  path among all the others, and each of them once.
-/
theorem inTransit_handleChunks
    (hSize : 0 < size)
    (hReceivable : Receivable H path)
    (hLimit : pieces size content ≤ maxAllowedTotalChunks)
    (hExpected : expected = "" ∨
      expected = H.digest.hash content)
    {chunks : List (ChunkHeader × String)}
    (hFits : ∀ chunk ∈ chunks, Fits H size path content
      chunk)
    (hOnce : (ownPieces path chunks).Nodup)
    (hNew : ∀ i ∈ ownPieces path chunks, i ∉ arrived)
    (hTemps : OwnTemps s)
    (hTransit : InTransit H size path expected content
      arrived s) :
    InTransit H size path expected content
      (arrived ∪ {i | i ∈ ownPieces path chunks})
      (handleChunks H size chunks s) := by
  induction chunks generalizing arrived s with
  | nil =>
      have hNone : arrived ∪ {i | i ∈ ownPieces path []} =
          arrived := by
        ext i
        simp [ownPieces]
      rw [hNone]
      exact hTransit
  | cons chunk rest ih =>
      have hLater : ∀ chunk ∈ rest,
          Fits H size path content chunk :=
        fun chunk hMem =>
          hFits chunk (List.mem_cons_of_mem _ hMem)
      have hTemps' : OwnTemps
          (handleChunk H size chunk.1 chunk.2 s) :=
        OwnTemps.chunk hTemps chunk.2
      rcases hFits chunk List.mem_cons_self with
        ⟨i, hInside, hChunk⟩ | hApart
      · have hPieces : ownPieces path (chunk :: rest) =
            i :: ownPieces path rest := by
          simp [ownPieces, hChunk, piece, blockChunk]
        rw [hPieces] at hOnce hNew ⊢
        rw [List.nodup_cons] at hOnce
        have hNext := hTransit.own hSize hReceivable hLimit
          hExpected hInside (hNew i List.mem_cons_self)
          chunk.2
        rw [← hChunk] at hNext
        have hRun := ih hLater hOnce.2 (fun j hJ hOld => by
          rcases hOld with rfl | hArrived
          · exact hOnce.1 hJ
          · exact hNew j (List.mem_cons_of_mem _ hJ)
              hArrived) hTemps' hNext
        have hSame : arrived ∪
            {j | j ∈ i :: ownPieces path rest} =
              insert i arrived ∪
                {j | j ∈ ownPieces path rest} := by
          ext j
          simp [or_left_comm, or_assoc]
        rw [hSame]
        exact hRun
      · have hPieces : ownPieces path (chunk :: rest) =
            ownPieces path rest := by
          simp [ownPieces, hApart.ne.symm]
        rw [hPieces] at hOnce hNew ⊢
        exact ih hLater hOnce hNew hTemps'
          (hTransit.other hApart hTemps size chunk.2)

end Download

------------------------------------------------------------
-- Many Files
------------------------------------------------------------

/-
  An upload of a whole file that ran to its end, during
  which the file did not change.
-/
structure Sent (config : TransferConfig) where
  host : Host
  peerId : String
  payload : Json
  node : LocalState
  events : List Upload.Event
  start : Upload
  final : Upload
  content : Content
  queued : queueUpload host peerId payload node = some start
  whole : start.currentChunk = 0
  unchanged : ∀ e ∈ events, Upload.Unchanged content e
  runs : Transition.run (Upload.step config) start events =
    some final
  complete : final.phase = .ended .complete

namespace Sent

variable
  {config : TransferConfig}
  (S : Snappy)
  (t : Sent config)

/- The packets that the transport took. -/
def packets : List (List UInt8) :=
  t.final.accepted.map (Outgoing.binaryPacket S.compress)

/-
  A node that can store the file and has nothing of it yet.
  A digest, if it was announced, is the file's.
-/
structure Awaited
    (H : Host)
    (s : LocalState) : Prop where
  count : pieces config.chunkDataSize t.content ≤
    maxAllowedTotalChunks
  receivable : Receivable H t.start.path
  unstarted : Unstarted H t.start.path s
  storable : Storable H t.start.path s.disk
  placeable : Placeable H t.start.path s.disk
  announced : expectedHashOf s t.start.path = "" ∨
    expectedHashOf s t.start.path = H.digest.hash t.content

variable
  {t}
  {H : Host}
  {s : LocalState}

theorem Awaited.accepted_eq (hAwaited : t.Awaited H s) :
    t.final.accepted =
      (List.range (pieces config.chunkDataSize
        t.content)).map (piece config.chunkDataSize
          t.start.path t.content) :=
  accepted_of_complete t.queued t.whole t.unchanged t.runs
    t.complete
    (Nat.lt_of_le_of_lt hAwaited.count (by decide))

/- Each packet is read as the chunk that was packed. -/
theorem Awaited.parsed_packets (hAwaited : t.Awaited H s) :
    (t.packets S).map (fun packet =>
        (parseChunkPayload S packet.tail).1) =
      t.final.accepted.map toWire := by
  have hFits : pieces config.chunkDataSize t.content <
      2 ^ 32 :=
    Nat.lt_of_le_of_lt hAwaited.count (by decide)
  unfold packets
  rw [List.map_map, hAwaited.accepted_eq]
  apply List.map_congr_left
  intro hdr hMem
  rcases List.mem_map.mp hMem with ⟨i, hI, rfl⟩
  rw [List.mem_range] at hI
  have hLength := hAwaited.receivable.length
  unfold maxAllowedRelativePathLen at hLength
  exact parseChunkPayload_binaryPacket S
    hAwaited.receivable.path_ne_empty
    (Nat.le_trans hLength (by decide))
    (Nat.lt_trans hI hFits) hFits rfl

theorem Awaited.pending (hAwaited : t.Awaited H s) :
    Pending H config.chunkDataSize t.start.path
      (expectedHashOf s t.start.path) t.content ∅ s :=
  ⟨rfl, hAwaited.storable.opens, hAwaited.placeable,
    Or.inl ⟨rfl, hAwaited.unstarted, hAwaited.storable⟩⟩

end Sent

/- One of several lists is all that is left of them. -/
theorem flatMap_eq_of_pairwise
    {α β : Type}
    {R : α → α → Prop}
    {f : α → List β}
    {items : List α}
    {item : α}
    (hItem : item ∈ items)
    (hPairs : items.Pairwise R)
    (hOthers : ∀ other ∈ items,
      R other item ∨ R item other → f other = []) :
    items.flatMap f = f item := by
  rcases List.append_of_mem hItem with ⟨front, back, rfl⟩
  rw [List.pairwise_append, List.pairwise_cons] at hPairs
  rcases hPairs with ⟨-, ⟨hRight, -⟩, hLeft⟩
  have hFront : front.flatMap f = [] := by
    apply List.flatMap_eq_nil_iff.mpr
    intro other hMem
    exact hOthers other (List.mem_append_left _ hMem)
      (Or.inl (hLeft other hMem item List.mem_cons_self))
  have hBack : back.flatMap f = [] := by
    apply List.flatMap_eq_nil_iff.mpr
    intro other hMem
    exact hOthers other (List.mem_append_right _
      (List.mem_cons_of_mem _ hMem))
      (Or.inr (hRight other hMem))
  rw [List.flatMap_append, List.flatMap_cons, hFront, hBack,
    List.append_nil, List.nil_append]

section Many

variable
  {S : Snappy}
  {H : Host}
  {config : TransferConfig}
  {s : LocalState}
  {sent : List (Sent config)}
  {chunks : List (ChunkHeader × String)}

/- The paths of two uploads leave each other alone. -/
def BothApart
    (H : Host)
    (t u : Sent config) : Prop :=
  Apart H t.start.path u.start.path ∧
    Apart H u.start.path t.start.path

instance : Std.Symm (@BothApart config H) :=
  ⟨fun _ _ hBoth => hBoth.symm⟩

/- The chunks of one upload among those of all. -/
theorem ownPieces_perm
    (hAwaited : ∀ t ∈ sent, t.Awaited H s)
    (hApart : sent.Pairwise (BothApart H))
    (hReceived : (chunks.map Prod.fst).Perm
      (sent.flatMap (fun t => t.final.accepted)))
    {t : Sent config}
    (hSent : t ∈ sent) :
    (ownPieces t.start.path chunks).Perm
      (List.range (pieces config.chunkDataSize
        t.content)) := by
  have hPaths : ∀ u ∈ sent, ∀ hdr ∈ u.final.accepted,
      hdr.filePath = u.start.path := by
    intro u hU hdr hMem
    rw [(hAwaited u hU).accepted_eq] at hMem
    rcases List.mem_map.mp hMem with ⟨i, -, rfl⟩
    rfl
  have hOwn := (hReceived.filter (fun hdr =>
    hdr.filePath = t.start.path)).map ChunkHeader.chunkIndex
  have hAll : t.final.accepted.filter
      (fun hdr => hdr.filePath = t.start.path) =
        t.final.accepted := by
    apply List.filter_eq_self.mpr
    intro hdr hMem
    simpa using hPaths t hSent hdr hMem
  rw [List.filter_flatMap, flatMap_eq_of_pairwise hSent
    hApart, hAll, (hAwaited t hSent).accepted_eq,
    List.map_map] at hOwn
  · exact hOwn.trans (.of_eq (List.map_id _))
  · intro u hU hEither
    have hOther : u.start.path ≠ t.start.path := by
      rcases hEither with ⟨hLeft, -⟩ | ⟨-, hRight⟩
      · exact hLeft.ne
      · exact hRight.ne
    apply List.filter_eq_nil_iff.mpr
    intro hdr hMem hSame
    apply hOther
    rw [← hPaths u hU hdr hMem]
    simpa using hSame

/- The chunks that were read are those that were packed. -/
theorem received_of_packets
    {packets : List (List UInt8)}
    (hPackets : packets.Perm (sent.flatMap (Sent.packets S)))
    (hChunks : chunks.map (fun chunk => toWire chunk.1) =
      packets.map (fun packet =>
        (parseChunkPayload S packet.tail).1))
    (hAwaited : ∀ t ∈ sent, t.Awaited H s) :
    (chunks.map Prod.fst).Perm
      (sent.flatMap (fun t => t.final.accepted)) := by
  apply (List.map_perm_map_iff toWire_injective).mp
  have hWire := hPackets.map (fun packet =>
    (parseChunkPayload S packet.tail).1)
  rw [← hChunks, List.map_flatMap] at hWire
  rw [List.map_map, List.map_flatMap]
  refine hWire.trans (.of_eq ?_)
  apply List.flatMap_congr
  intro u hU
  exact (hAwaited u hU).parsed_packets S

/- Each chunk is one of the file, or of a file apart. -/
theorem fits_of_received
    (hReceived : (chunks.map Prod.fst).Perm
      (sent.flatMap (fun t => t.final.accepted)))
    (hAwaited : ∀ t ∈ sent, t.Awaited H s)
    (hApart : sent.Pairwise (BothApart H))
    {t : Sent config}
    (hSent : t ∈ sent) :
    ∀ chunk ∈ chunks, Fits H config.chunkDataSize
      t.start.path t.content chunk := by
  intro chunk hChunk
  have hMem := hReceived.mem_iff.mp
    (List.mem_map_of_mem hChunk)
  rcases List.mem_flatMap.mp hMem with ⟨u, hU, hHdr⟩
  rw [(hAwaited u hU).accepted_eq] at hHdr
  rcases List.mem_map.mp hHdr with ⟨i, hI, hHdr⟩
  by_cases hSame : u = t
  · subst hSame
    exact Or.inl ⟨i, List.mem_range.mp hI, hHdr.symm⟩
  · have hBoth := hApart.forall hSent hU (Ne.symm hSame)
    refine Or.inr ?_
    rw [← hHdr]
    exact hBoth.1

/- A file all chunks of which were handled is in place. -/
theorem arrived_of_received
    (hSize : 0 < config.chunkDataSize)
    (hReceived : (chunks.map Prod.fst).Perm
      (sent.flatMap (fun t => t.final.accepted)))
    (hTemps : OwnTemps s)
    (hAwaited : ∀ t ∈ sent, t.Awaited H s)
    (hApart : sent.Pairwise (BothApart H))
    {t : Sent config}
    (hSent : t ∈ sent) :
    Arrived H t.start.path t.content
      (handleChunks H config.chunkDataSize chunks s) := by
  have hAwaits := hAwaited t hSent
  have hOwn := ownPieces_perm hAwaited hApart hReceived hSent
  have hPos := Reassembly.pieceCount_pos hSize
    t.content.length
  have hStart : InTransit H config.chunkDataSize
      t.start.path (expectedHashOf s t.start.path) t.content
        ∅ s :=
    Or.inr ⟨fun hAll => hAll 0 hPos, hAwaits.pending⟩
  rcases inTransit_handleChunks hSize hAwaits.receivable
    hAwaits.count hAwaits.announced
    (fits_of_received hReceived hAwaited hApart hSent)
    (hOwn.nodup_iff.mpr List.nodup_range)
    (fun i _ hNone => hNone) hTemps hStart with
    ⟨-, hArrived⟩ | ⟨hRest, -⟩
  · exact hArrived
  · refine absurd (fun k hK => Or.inr ?_) hRest
    exact hOwn.mem_iff.mpr (List.mem_range.mpr hK)

end Many

theorem isSome_pausedRun :
    (Transition.run (Upload.step ⟨2, 5⟩)
      (beginUpload ⟨"a.txt", some (0, "", 0)⟩ "" 3)
      Upload.pausedRun).isSome = true := by
  decide +kernel

/- The upload at the end of the run that pauses. -/
def resumedUpload : Upload :=
  (Transition.run (Upload.step ⟨2, 5⟩)
    (beginUpload ⟨"a.txt", some (0, "", 0)⟩ "" 3)
    Upload.pausedRun).get isSome_pausedRun

theorem resumedUpload_complete :
    resumedUpload.phase = .ended .complete := by
  decide +kernel

/- A file of two chunks, which paused in between. -/
def sentLetter : Sent ⟨2, 5⟩ where
  host := Host.plain
  peerId := "p"
  payload := FileRequest.toJson ⟨"a.txt", none⟩
  node := Upload.sampleSender
  events := Upload.pausedRun
  start := beginUpload ⟨"a.txt", some (0, "", 0)⟩ "" 3
  final := resumedUpload
  content := [97, 98, 99]
  queued := rfl
  whole := rfl
  unchanged := by simp [Upload.Unchanged, Upload.pausedRun]
  runs := (Option.some_get _).symm
  complete := resumedUpload_complete

/- A file of one chunk. -/
def sentNote : Sent ⟨2, 5⟩ where
  host := Host.plain
  peerId := "p"
  payload := FileRequest.toJson ⟨"b.txt", none⟩
  node := (LocalState.empty Host.plain .source
    .oneWay).userWrites Host.plain "b.txt" [98]
  events := [.openFile (some [98]), .sendChunk [98] 0,
    .finish true]
  start := beginUpload ⟨"b.txt", some (0, "", 0)⟩ "" 1
  final := (Transition.run (Upload.step ⟨2, 5⟩)
    (beginUpload ⟨"b.txt", some (0, "", 0)⟩ "" 1)
    [.openFile (some [98]), .sendChunk [98] 0,
      .finish true]).get (by decide +kernel)
  content := [98]
  queued := rfl
  whole := rfl
  unchanged := by simp [Upload.Unchanged]
  runs := (Option.some_get _).symm
  complete := by decide +kernel

/- The second chunk of one file, the other file, the rest. -/
def mixedChunks : List (ChunkHeader × String) :=
  [(piece 2 "a.txt" [97, 98, 99] 1, "p"),
    (piece 2 "b.txt" [98] 0, "q"),
    (piece 2 "a.txt" [97, 98, 99] 0, "p")]

end TransferManager

end VeritasSync
