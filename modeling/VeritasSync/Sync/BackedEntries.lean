import Mathlib.Logic.Function.Basic
import VeritasSync.Sync.DownloadTasks

/-
  Entries that count their bits and whose temporary file has
  the bytes: what keeps them so, and what a lookup hands out
  from them.

  Main declarations:
    * `TransferManager.WellFormed`,
      `TransferManager.SameChunks`
    * `TransferManager.Backed`,
      `TransferManager.Backed.markChunk`
    * `TransferManager.handed_of_lookup`
-/

namespace VeritasSync

namespace TransferManager

------------------------------------------------------------
-- Entries And Their Files
------------------------------------------------------------

/-
  The entry counts its bits, and knows its temporary file
  once it knows its total.
-/
structure WellFormed
    (path : String)
    (entry : ReceivingFile) : Prop where
  counted : Counted entry
  temp : entry.tempPath = tempPathOf path ∨
    entry.tempPath = "" ∧ entry.totalChunks = 0

/-
  The temporary file has the bytes of every chunk whose bit
  is set, and is there as long as the stream is open.
-/
structure Backed
    (H : Host)
    (path : String)
    (chunkDataSize : ℕ)
    (stored : ℕ → Content)
    (entry : ReceivingFile)
    (disk : Disk) : Prop where
  short : ∀ i ∈ Bitmap.marked entry.receivedBitmap,
    (stored i).length ≤ chunkDataSize
  bytes : (Bitmap.marked entry.receivedBitmap).Nonempty ∨
      entry.streamOpen = true →
    ∃ file,
      disk.payload? (H.locate (tempPathOf path)) =
        some file ∧
      Reassembly.Holds chunkDataSize stored
        (Bitmap.marked entry.receivedBitmap) file.content

/- The entry keeps its chunks, and opens no stream. -/
structure SameChunks
    (entry entry' : ReceivingFile) : Prop where
  temp : entry'.tempPath = entry.tempPath
  total : entry'.totalChunks = entry.totalChunks
  count : entry'.receivedChunks = entry.receivedChunks
  bitmap : entry'.receivedBitmap = entry.receivedBitmap
  stream : entry'.streamOpen = true →
    entry.streamOpen = true

section Backed

variable
  {H : Host}
  {path : String}
  {chunkDataSize : ℕ}
  {stored : ℕ → Content}
  {entry entry' : ReceivingFile}
  {disk disk' : Disk}

theorem SameChunks.refl (entry : ReceivingFile) :
    SameChunks entry entry :=
  ⟨rfl, rfl, rfl, rfl, id⟩

theorem WellFormed.of_sameChunks
    (hWell : WellFormed path entry)
    (hSame : SameChunks entry entry') :
    WellFormed path entry' := by
  constructor
  · constructor
    · rw [hSame.bitmap, hSame.total]
      exact hWell.counted.size
    · rw [hSame.bitmap, hSame.count]
      exact hWell.counted.count
  · rw [hSame.temp, hSame.total]
    exact hWell.temp

theorem WellFormed.temp_eq
    (hWell : WellFormed path entry)
    (hTotal : 0 < entry.totalChunks) :
    entry.tempPath = tempPathOf path :=
  hWell.temp.resolve_right (fun hNew => by
    have hZero := hNew.2
    omega)

theorem wellFormed_announced
    (path peerId hash : String)
    (size : ℕ) :
    WellFormed path (announced peerId hash size) where
  counted := ⟨rfl, rfl⟩
  temp := Or.inr ⟨rfl, rfl⟩

/- Without bits and without a stream no file is needed. -/
theorem backed_of_unmarked
    (hMarks : Bitmap.marked entry.receivedBitmap = ∅)
    (hClosed : entry.streamOpen = false) :
    Backed H path chunkDataSize stored entry disk where
  short i hMark := by
    rw [hMarks] at hMark
    exact absurd hMark (Set.notMem_empty i)
  bytes hNeeds := by
    rw [hMarks, hClosed] at hNeeds
    simp at hNeeds

/- Closing the stream or keeping files changes nothing. -/
theorem Backed.mono
    (hBacked : Backed H path chunkDataSize stored entry disk)
    (hMarks : Bitmap.marked entry'.receivedBitmap =
      Bitmap.marked entry.receivedBitmap)
    (hStream : entry'.streamOpen = true →
      entry.streamOpen = true)
    (hKeeps : ∀ file,
      disk.payload? (H.locate (tempPathOf path)) =
        some file →
      disk'.payload? (H.locate (tempPathOf path)) =
        some file) :
    Backed H path chunkDataSize stored entry' disk' where
  short := by
    rw [hMarks]
    exact hBacked.short
  bytes hNeeds := by
    rw [hMarks] at hNeeds ⊢
    rcases hBacked.bytes (hNeeds.imp_right hStream) with
      ⟨file, hFile, hHolds⟩
    exact ⟨file, hKeeps _ hFile, hHolds⟩

/- Once the stream is open the file is there. -/
theorem Backed.open
    (hBacked : Backed H path chunkDataSize stored entry disk)
    (hKeeps : KeepsFiles disk disk')
    (hFile : entry.streamOpen = false →
      ∃ file, disk'.payload? (H.locate (tempPathOf path)) =
        some file) :
    Backed H path chunkDataSize stored
      { entry with streamOpen := true } disk' where
  short := hBacked.short
  bytes _ := by
    by_cases hOld :
        (Bitmap.marked entry.receivedBitmap).Nonempty ∨
          entry.streamOpen = true
    · rcases hBacked.bytes hOld with ⟨file, hOldFile, hHolds⟩
      exact ⟨file, hKeeps _ _ hOldFile, hHolds⟩
    · rw [not_or, Set.not_nonempty_iff_eq_empty,
        Bool.not_eq_true] at hOld
      rcases hFile hOld.2 with ⟨file, hNew⟩
      refine ⟨file, hNew, ?_⟩
      rw [hOld.1]
      exact Reassembly.holds_empty _ _ _

theorem payload?_writeStream
    {H' : Host}
    {temp : Loc}
    {offset : ℕ}
    {bytes : Content}
    {file : File}
    (hFile : disk.payload? temp = some file) :
    (writeStream H' disk temp offset bytes).payload? temp =
      some ⟨writeAt file.content offset bytes, H'.now⟩ := by
  rw [writeStream, hFile, FileTree.payload?_eq_some_iff,
    Filesystem.lookup_writeFile, if_pos rfl]

/- A chunk written through the open stream is backed. -/
theorem Backed.markChunk
    (hBacked : Backed H path chunkDataSize stored entry disk)
    (hOpen : entry.streamOpen = true)
    {index : ℕ}
    (hInside : index < entry.receivedBitmap.length)
    (hFresh : index ∉ Bitmap.marked entry.receivedBitmap)
    {bytes : Content}
    (hShort : bytes.length ≤ chunkDataSize)
    (H' : Host) :
    Backed H path chunkDataSize
      (Function.update stored index bytes)
      (markChunk index entry)
      (writeStream H' disk (H.locate (tempPathOf path))
        (index * chunkDataSize) bytes) := by
  have hMarks : Bitmap.marked
      (TransferManager.markChunk index entry).receivedBitmap =
        insert index (Bitmap.marked entry.receivedBitmap) :=
    Bitmap.marked_set hInside
  have hOld : ∀ i ∈ Bitmap.marked entry.receivedBitmap,
      Function.update stored index bytes i = stored i := by
    intro i hMark
    apply Function.update_of_ne
    rintro rfl
    exact hFresh hMark
  rcases hBacked.bytes (Or.inr hOpen) with
    ⟨file, hFile, hHolds⟩
  have hShortOld : ∀ i ∈ Bitmap.marked entry.receivedBitmap,
      (Function.update stored index bytes i).length ≤
        chunkDataSize := by
    intro i hMark
    rw [hOld i hMark]
    exact hBacked.short i hMark
  have hShortNew : (Function.update stored index bytes
      index).length ≤ chunkDataSize := by
    rw [Function.update_self]
    exact hShort
  constructor
  · intro i hMark
    rw [hMarks] at hMark
    rcases Set.mem_insert_iff.mp hMark with rfl | hBefore
    · exact hShortNew
    · exact hShortOld i hBefore
  · intro _
    refine ⟨_, payload?_writeStream hFile, ?_⟩
    rw [hMarks]
    have hNext := (hHolds.congr hOld).writeAt hShortOld 0
      hShortNew
    rw [Function.update_self] at hNext
    exact hNext

/- An entry without bits is backed after any other write. -/
theorem Backed.writeStream_of_unmarked
    (hBacked : Backed H path chunkDataSize stored entry disk)
    (hMarks : Bitmap.marked entry.receivedBitmap = ∅)
    (H' : Host)
    (offset : ℕ)
    (bytes : Content) :
    Backed H path chunkDataSize stored entry
      (writeStream H' disk (H.locate (tempPathOf path))
        offset bytes) where
  short := hBacked.short
  bytes hNeeds := by
    rcases hBacked.bytes hNeeds with ⟨file, hFile, -⟩
    refine ⟨_, payload?_writeStream hFile, ?_⟩
    rw [hMarks]
    exact Reassembly.holds_empty _ _ _

end Backed

------------------------------------------------------------
-- Changes Under The Lock Of The Map
------------------------------------------------------------

/-
  What announcing, cleaning up and cancelling make of an
  entry: its chunks stay, or it is newly announced.
-/
def Changed
    (old : Option ReceivingFile)
    (recv' : ReceivingFile) : Prop :=
  (∃ recv, old = some recv ∧ SameChunks recv recv') ∨
    (old = none ∧ ∃ peerId hash size,
      recv' = announced peerId hash size)

section Changes

variable
  {path other : String}
  {s : LocalState}
  {recv' : ReceivingFile}

theorem changed_of_eq
    {old : Option ReceivingFile}
    (hSame : old = some recv') :
    Changed old recv' :=
  Or.inl ⟨recv', hSame, SameChunks.refl recv'⟩

theorem Changed.wellFormed
    {old : Option ReceivingFile}
    (hChanged : Changed old recv')
    (hWell : ∀ recv, old = some recv →
      WellFormed path recv) :
    WellFormed path recv' := by
  rcases hChanged with ⟨recv, hOld, hSame⟩ |
    ⟨-, peerId, hash, size, hNew⟩
  · exact (hWell recv hOld).of_sameChunks hSame
  · rw [hNew]
    exact wellFormed_announced path peerId hash size

theorem changed_registerExpectedMetadata
    {peerId hash : String}
    {size : ℕ}
    (hRecv : (registerExpectedMetadata path peerId hash
      size s).receiving.lookup other = some recv') :
    Changed (s.receiving.lookup other) recv' := by
  unfold registerExpectedMetadata at hRecv
  by_cases hOther : other = path
  · subst hOther
    cases hEntry : s.receiving.lookup other with
    | none =>
        rw [hEntry] at hRecv
        dsimp only [setReceiving] at hRecv
        rw [AList.lookup_insert] at hRecv
        exact Or.inr ⟨rfl, peerId, hash, size,
          (Option.some.inj hRecv).symm⟩
    | some recv =>
        rw [hEntry] at hRecv
        dsimp only at hRecv
        split at hRecv
        · rw [hEntry] at hRecv
          exact changed_of_eq hRecv
        · rw [setReceiving, AList.lookup_insert] at hRecv
          cases hRecv
          exact Or.inl ⟨recv, rfl, rfl, rfl, rfl, rfl, id⟩
  · apply changed_of_eq
    rw [← hRecv]
    split
    · exact (AList.lookup_insert_ne hOther).symm
    · split
      · rfl
      · exact (AList.lookup_insert_ne hOther).symm

theorem sameChunks_cleanedEntry
    {expired : Bool}
    {recv recv' : ReceivingFile}
    (hCleaned : cleanedEntry expired recv = some recv') :
    SameChunks recv recv' := by
  unfold cleanedEntry at hCleaned
  split at hCleaned
  · cases hCleaned
    exact SameChunks.refl recv
  · split at hCleaned
    · cases hCleaned
    · split at hCleaned
      · cases hCleaned
        exact ⟨rfl, rfl, rfl, rfl, nofun⟩
      · cases hCleaned
        exact SameChunks.refl recv

theorem sameChunks_cancelledEntry
    {peerId : String}
    {recv recv' : ReceivingFile}
    (hCancelled : cancelledEntry peerId recv =
      some recv') :
    SameChunks recv recv' := by
  unfold cancelledEntry at hCancelled
  split at hCancelled
  · cases hCancelled
    exact ⟨rfl, rfl, rfl, rfl, nofun⟩
  · cases hCancelled
    exact SameChunks.refl recv

end Changes

------------------------------------------------------------
-- What A Lookup Does
------------------------------------------------------------

/-
  The entry that a lookup hands out is the old one with its
  bits, or it starts anew.
-/
structure Handed
    (path : String)
    (total : ℕ)
    (old : Option ReceivingFile)
    (disk disk' : Disk)
    (entry : ReceivingFile) : Prop where
  well : WellFormed path entry
  count : entry.totalChunks = total
  bits : (Bitmap.marked entry.receivedBitmap = ∅ ∧
      entry.streamOpen = false) ∨
    ∃ recv, old = some recv ∧
      Bitmap.marked entry.receivedBitmap =
        Bitmap.marked recv.receivedBitmap ∧
      entry.streamOpen = recv.streamOpen ∧
      disk' = disk
  same : ∀ recv, old = some recv →
    recv.totalChunks = total →
    0 < total →
    entry.receivedBitmap = recv.receivedBitmap

section Lookup

variable
  {H : Host}
  {path peerId : String}
  {total : ℕ}
  {recv : ReceivingFile}
  {s s' : LocalState}
  {found : ChunkLookupResult}

theorem counted_replicate
    {entry : ReceivingFile}
    (hBits : entry.receivedBitmap =
      List.replicate entry.totalChunks false)
    (hCount : entry.receivedChunks = 0) :
    Counted entry where
  size := by
    rw [hBits, List.length_replicate]
  count := by
    rw [hBits, hCount]
    simp [List.count_replicate]

theorem handed_newReceiving
    (path peerId : String)
    (total : ℕ)
    (disk disk' : Disk) :
    Handed path total none disk disk'
      (newReceiving path peerId total) where
  well := ⟨counted_replicate rfl rfl, Or.inl rfl⟩
  count := rfl
  bits := Or.inl ⟨Bitmap.marked_replicate total, rfl⟩
  same _ hOld := by cases hOld

/- Only the place of the temporary file is filled in. -/
theorem entry_adoptTempPath
    (found : ChunkLookupResult) :
    (adoptTempPath path found).entry =
      { found.entry with
        tempPath :=
          if found.entry.tempPath = "" then
            tempPathOf path
          else
            found.entry.tempPath } := by
  unfold adoptTempPath
  split
  · rfl
  · rfl

/- An entry with its total learns its temporary file. -/
theorem handed_adoptTempPath
    {disk disk' : Disk}
    {old : Option ReceivingFile}
    (hCounted : Counted found.entry)
    (hTemp : found.entry.tempPath = tempPathOf path ∨
      found.entry.tempPath = "")
    (hCount : found.entry.totalChunks = total)
    (hBits : (Bitmap.marked found.entry.receivedBitmap = ∅ ∧
        found.entry.streamOpen = false) ∨
      ∃ recv, old = some recv ∧
        Bitmap.marked found.entry.receivedBitmap =
          Bitmap.marked recv.receivedBitmap ∧
        found.entry.streamOpen = recv.streamOpen ∧
        disk' = disk)
    (hSame : ∀ recv, old = some recv →
      recv.totalChunks = total →
      0 < total →
      found.entry.receivedBitmap = recv.receivedBitmap) :
    Handed path total old disk disk'
      { (adoptTempPath path found).entry with
        busy := true } := by
  rw [entry_adoptTempPath]
  refine ⟨⟨⟨hCounted.size, hCounted.count⟩, Or.inl ?_⟩,
    hCount, hBits, hSame⟩
  dsimp only
  rcases hTemp with hPath | hNew
  · rw [hPath, if_neg (tempPathOf_ne_empty path)]
  · rw [if_pos hNew]

/- The entry with its total and its temporary file. -/
theorem handed_adopt
    (hWell : WellFormed path recv)
    (hTotal : 0 < total) :
    Handed path total (some recv) s.disk
      (adoptTotal H path total
        { recv with peerId := peerId } s).2.disk
      { (adoptTempPath path (adoptTotal H path total
          { recv with peerId := peerId } s).1).entry with
        busy := true } := by
  have hTemp : recv.tempPath = tempPathOf path ∨
      recv.tempPath = "" :=
    hWell.temp.imp_right And.left
  unfold adoptTotal
  by_cases hZero : recv.totalChunks = 0
  · have hBits : recv.receivedBitmap = [] := by
      rw [← List.length_eq_zero_iff, hWell.counted.size]
      exact hZero
    have hNone : recv.receivedChunks = 0 := by
      rw [hWell.counted.count, hBits, List.count_nil]
    have hResized : resizeBitmap recv.receivedBitmap total =
        List.replicate total false := by
      simp [resizeBitmap, hBits]
    rw [if_pos hZero]
    apply handed_adoptTempPath
    · exact counted_replicate hResized hNone
    · exact hTemp
    · rfl
    · refine Or.inr ⟨recv, rfl, ?_, rfl, rfl⟩
      dsimp only
      rw [hResized, hBits, Bitmap.marked_replicate]
      exact (Bitmap.marked_replicate 0).symm
    · intro old hOld hSame
      cases hOld
      omega
  · rw [if_neg hZero]
    by_cases hOther : recv.totalChunks = total
    · rw [if_neg (by simpa using hOther)]
      apply handed_adoptTempPath
      · exact ⟨hWell.counted.size, hWell.counted.count⟩
      · exact hTemp
      · exact hOther
      · exact Or.inr ⟨recv, rfl, rfl, rfl, rfl⟩
      · intro old hOld _ _
        cases hOld
        rfl
    · rw [if_pos hOther]
      apply handed_adoptTempPath
      · exact counted_replicate rfl rfl
      · exact Or.inl rfl
      · rfl
      · exact Or.inl ⟨Bitmap.marked_replicate total, rfl⟩
      · intro old hOld hSame
        cases hOld
        exact absurd hSame hOther

/- What a lookup hands out, from an entry in order. -/
theorem handed_of_lookup
    (hWell : ∀ recv, s.receiving.lookup path = some recv →
      WellFormed path recv)
    (hTotal : 0 < total)
    (hLookup : lookupOrCreateReceiving H path total peerId
      s = (some found, s')) :
    Handed path total (s.receiving.lookup path) s.disk
      s'.disk found.entry := by
  unfold lookupOrCreateReceiving at hLookup
  split at hLookup
  · cases hLookup
  · cases hEntry : s.receiving.lookup path with
    | none =>
        rw [hEntry] at hLookup
        cases hLookup
        exact handed_newReceiving path peerId total _ _
    | some recv =>
        rw [hEntry] at hLookup
        cases hLookup
        exact handed_adopt (hWell recv hEntry) hTotal

end Lookup

------------------------------------------------------------
-- What A Chunk Stores
------------------------------------------------------------

/- The chunk's bit is set already. -/
def isDuplicate
    (hdr : ChunkHeader)
    (entry : ReceivingFile) : Bool :=
  (fitBitmap hdr entry.receivedBitmap).getD
    hdr.chunkIndex false

/- The bytes of the chunks that set the entry's bits. -/
def noteStored
    (hdr : ChunkHeader)
    (entry : ReceivingFile)
    (stored : ℕ → Content) : ℕ → Content :=
  if isDuplicate hdr entry then
    stored
  else
    Function.update stored hdr.chunkIndex
      hdr.uncompressedData

section Store

variable
  {hdr : ChunkHeader}
  {entry : ReceivingFile}

theorem isDuplicate_of_marked
    (hMarked : hdr.chunkIndex ∈
      Bitmap.marked entry.receivedBitmap) :
    isDuplicate hdr entry = true := by
  have hBelow := Bitmap.lt_length_of_mem_marked hMarked
  rw [isDuplicate, fitBitmap_of_lt hBelow]
  exact hMarked

theorem isDuplicate_of_fresh
    (hBelow : hdr.chunkIndex < entry.receivedBitmap.length)
    (hFresh : hdr.chunkIndex ∉
      Bitmap.marked entry.receivedBitmap) :
    isDuplicate hdr entry = false := by
  rw [isDuplicate, fitBitmap_of_lt hBelow]
  exact Bool.eq_false_of_not_eq_true hFresh

theorem noteStored_of_marked
    (hMarked : hdr.chunkIndex ∈
      Bitmap.marked entry.receivedBitmap)
    (stored : ℕ → Content) :
    noteStored hdr entry stored = stored := by
  rw [noteStored, isDuplicate_of_marked hMarked, if_pos rfl]

theorem noteStored_of_fresh
    (hBelow : hdr.chunkIndex < entry.receivedBitmap.length)
    (hFresh : hdr.chunkIndex ∉
      Bitmap.marked entry.receivedBitmap)
    (stored : ℕ → Content) :
    noteStored hdr entry stored =
      Function.update stored hdr.chunkIndex
        hdr.uncompressedData := by
  rw [noteStored, isDuplicate_of_fresh hBelow hFresh,
    if_neg Bool.false_ne_true]

end Store

end TransferManager

end VeritasSync
