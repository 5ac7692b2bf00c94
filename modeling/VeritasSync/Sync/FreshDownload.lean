import VeritasSync.Sync.Assembly

/-
  A download that starts anew while a temporary file of an
  earlier one still lies at its place.  The stream opens
  what is there and writes over it, so the end of a longer
  file stays.

  Main declarations:
    * `TransferManager.leftoverTemp`, `TransferManager.Fresh`
    * `TransferManager.Overwriting`
    * `TransferManager.finalizeCalls_of_fresh`
    * `TransferManager.assembled_of_fresh_iff`
-/

namespace VeritasSync

namespace TransferManager

open PathUtils

------------------------------------------------------------
-- The First Chunk
------------------------------------------------------------

/- What an earlier download left at the temporary place. -/
def leftoverTemp
    (H : Host)
    (path : String)
    (disk : Disk) : Option Content :=
  (disk.payload? (H.locate (tempPathOf path))).map
    File.content

/- No entry has received anything for the path. -/
def Fresh
    (path : String)
    (s : LocalState) : Prop :=
  s.receiving.lookup path = none ∨
    ∃ peerId hash size, s.receiving.lookup path =
      some (announced peerId hash size)

section First

variable
  {H : Host}
  {chunkDataSize : ℕ}
  {path : String}
  {total : ℕ}
  {blocks : ℕ → Content}
  {P : Set ℕ → Content → Prop}
  {entry : ReceivingFile}
  {disk : Disk}
  {s : LocalState}

/- The directories are made beside the temporary file. -/
theorem lookup_tempPath_createDirectories
    {made : Disk}
    (hMade : Filesystem.createDirectories H disk
      (H.locate (Filesystem.parentText path)) = some made)
    (hWritable : Filesystem.writable made
      (H.locate (tempPathOf path)) = true) :
    made.lookup (H.locate (tempPathOf path)) =
      disk.lookup (H.locate (tempPathOf path)) := by
  have hLookup := Filesystem.lookup_createDirectories hMade
    (H.locate (tempPathOf path))
  split at hLookup
  · simp [Filesystem.writable, hLookup] at hWritable
  · exact hLookup

/- No directory is in the place of the temporary file. -/
theorem exists?_of_storable
    (hStorable : Storable H path disk)
    (hNone : disk.payload? (H.locate (tempPathOf path)) =
      none) :
    Filesystem.exists? disk (H.locate (tempPathOf path)) =
      false := by
  rcases hStorable.parent with ⟨made, hMade, hWritable⟩
  have hSame := lookup_tempPath_createDirectories hMade hWritable
  unfold Filesystem.exists?
  cases hNode : disk.lookup (H.locate (tempPathOf path)) with
  | none => rfl
  | some node =>
      cases node with
      | file file =>
          rw [(FileTree.payload?_eq_some_iff _ _ _).mpr hNode]
            at hNone
          cases hNone
      | dir =>
          rw [hNode] at hSame
          simp [Filesystem.writable, hSame] at hWritable

/- A temporary file that is there is opened as it is. -/
theorem writePhase_of_old
    (chunkDataSize : ℕ)
    {hdr : ChunkHeader}
    (hPath : hdr.filePath = path)
    (hTemp : entry.tempPath = tempPathOf path)
    (hStream : entry.streamOpen = false)
    {file : File}
    (hOld : disk.payload? (H.locate (tempPathOf path)) =
      some file)
    (hStorable : Storable H path disk) :
    ∃ disk',
      writePhase H chunkDataSize hdr ⟨entry, true, true⟩
          disk =
        storeChunk H chunkDataSize hdr
          { entry with streamOpen := true } disk' ∧
      disk'.payload? (H.locate (tempPathOf path)) =
        some file := by
  rcases hStorable.parent with ⟨made, hMade, hWritable⟩
  have hStill : made.payload?
      (H.locate (tempPathOf path)) = some file := by
    rw [← hOld]
    exact FileTree.payload?_congr
      (lookup_tempPath_createDirectories hMade hWritable)
  have hExists : Filesystem.exists? made
      (H.locate (tempPathOf path)) = true := by
    rw [FileTree.payload?_eq_some_iff] at hStill
    simp [Filesystem.exists?, hStill]
  refine ⟨made, ?_, hStill⟩
  simp [writePhase, hPath, hMade, openStream, hTemp,
    hStream, hStorable.opens, hExists, hStill]

/- The first chunk writes over what was left. -/
theorem exists_working_of_fresh
    (chunkDataSize : ℕ)
    (blocks : ℕ → Content)
    (hSafe : isPathSafe H path = true)
    (hFresh : Fresh path s)
    (hStorable : Storable H path s.disk)
    (hStart : P ∅ ((leftoverTemp H path s.disk).getD []))
    (i : ℕ)
    (peerId : String) :
    ∃ found s' entry disk,
      lookupOrCreateReceiving H path total peerId s =
        (some found, s') ∧
      writePhase H chunkDataSize
          (blockChunk path total blocks i) found s'.disk =
        storeChunk H chunkDataSize
          (blockChunk path total blocks i) entry disk ∧
      Working H path total P ∅ entry disk := by
  rcases lookupOrCreateReceiving_of_unstarted hSafe hFresh
    total peerId with
    ⟨entry, hLookup, hTemp, hCount, hZero, hBits, hStream⟩
  have hHere : (blockChunk path total blocks i).filePath =
    path := rfl
  have hPhase : ∃ disk' file,
      writePhase H chunkDataSize
          (blockChunk path total blocks i)
          ⟨entry, true, true⟩ s.disk =
        storeChunk H chunkDataSize
          (blockChunk path total blocks i)
          { entry with streamOpen := true } disk' ∧
      disk'.payload? (H.locate (tempPathOf path)) =
        some file ∧
      file.content = (leftoverTemp H path s.disk).getD [] := by
    cases hOld : s.disk.payload?
        (H.locate (tempPathOf path)) with
    | some file =>
        rcases writePhase_of_old chunkDataSize hHere hTemp
          hStream hOld hStorable with ⟨disk, hEq, hFile⟩
        exact ⟨disk, file, hEq, hFile,
          by simp [leftoverTemp, hOld]⟩
    | none =>
        have hMissing : Filesystem.exists? s.disk
            (H.locate (tempPathOf path)) = false :=
          exists?_of_storable hStorable hOld
        rcases writePhase_of_new chunkDataSize hHere hTemp
          hStream hMissing hStorable with
          ⟨disk, hEq, hFile⟩
        exact ⟨disk, _, hEq, hFile,
          by simp [leftoverTemp, hOld]⟩
  rcases hPhase with ⟨disk, file, hEq, hFile, hContent⟩
  refine ⟨_, _, _, disk, hLookup, hEq, ?_⟩
  refine ⟨hTemp, hCount, ⟨?_, ?_⟩, rfl, ?_, file, hFile, ?_⟩
  · simp [hBits, hCount]
  · simp [hBits, hZero, List.count_replicate]
  · rw [hBits, Bitmap.marked_replicate]
  · rwa [hContent]

/-
  The chunk that brings the last missing index calls
  finalize, once, on what was written over the leftover.
-/
theorem finalizeCalls_of_fresh
    (hReceivable : Receivable H path)
    (hLimit : total ≤ maxAllowedTotalChunks)
    (hSteps : Steps chunkDataSize total blocks P)
    (hFresh : Fresh path s)
    (hStorable : Storable H path s.disk)
    (hStart : P ∅ ((leftoverTemp H path s.disk).getD []))
    (arrivals : List (ℕ × String))
    (last : ℕ × String)
    (hInside : ∀ arrival ∈ arrivals, arrival.1 < total)
    (hLast : last.1 < total)
    (hMissing : ¬ ∀ k < total, k ∈ indices arrivals)
    (hAll : ∀ k < total,
      k ∈ insert last.1 (indices arrivals)) :
    ∃ entry disk,
      finalizeCalls H chunkDataSize
          (deliveries path total blocks
            (arrivals ++ [last])) s =
        List.replicate arrivals.length none ++
          [some (entry, disk)] ∧
      Working H path total P
        (insert last.1 (indices arrivals)) entry disk := by
  have hFirst := @exists_working_of_fresh H path total P s
    chunkDataSize blocks hReceivable.safe hFresh hStorable
    hStart
  have hNone : ¬ ∀ k < total, k ∈ (∅ : Set ℕ) :=
    fun hEvery => hEvery last.1 hLast
  cases arrivals with
  | nil =>
      have hEmpty : indices [] = ∅ := by
        ext k
        simp [indices]
      rw [hEmpty] at hAll ⊢
      rcases finalizeCall_cases_of_working hReceivable hLimit
        hSteps hNone hLast last.2 (hFirst last.1 last.2) with
        ⟨-, entry, disk, hCall, hWorking⟩ | ⟨hRest, -⟩
      · refine ⟨entry, disk, ?_, hWorking⟩
        simp [deliveries, finalizeCalls, hCall]
      · exact absurd hAll hRest
  | cons arrival rest =>
      rcases arrival with ⟨i, peerId⟩
      have hSplit : indices ((i, peerId) :: rest) =
          insert i ∅ ∪ indices rest := by
        rw [← union_indices_cons, Set.empty_union]
      rw [hSplit] at hMissing hAll ⊢
      rcases finalizeCall_cases_of_working hReceivable hLimit
        hSteps hNone (hInside _ List.mem_cons_self) peerId
        (hFirst i peerId) with
        ⟨hEvery, -⟩ | ⟨-, hCall, hNext⟩
      · exact absurd (fun k hK => Or.inl (hEvery k hK))
          hMissing
      · rcases finalizeCalls_of_last hReceivable hLimit hSteps
          rest last (fun arrival hArrival =>
            hInside arrival (List.mem_cons_of_mem _ hArrival))
          hLast (fun hNo => absurd hNo
            (Set.insert_nonempty _ _).ne_empty)
          hNext hMissing hAll with
          ⟨entry, disk, hRest, hWorking⟩
        refine ⟨entry, disk, ?_, hWorking⟩
        simp only [deliveries, List.cons_append,
          List.map_cons, finalizeCalls, hCall,
          List.length_cons, List.replicate_succ]
        exact congrArg _ hRest

end First

------------------------------------------------------------
-- What Is Assembled
------------------------------------------------------------

/- The chunks of a content over an older one. -/
def Overwriting
    (chunkDataSize : ℕ)
    (content old : Content)
    (arrived : Set ℕ)
    (stored : Content) : Prop :=
  Reassembly.Holds chunkDataSize
      (Reassembly.piece chunkDataSize content) arrived
      stored ∧
    Reassembly.KeepsTail content old stored

section Assemble

variable
  {H : Host}
  {chunkDataSize : ℕ}
  {path : String}
  {content : Content}
  {s : LocalState}

theorem overwriting_start (old : Content) :
    Overwriting chunkDataSize content old ∅ old :=
  ⟨Reassembly.holds_empty _ _ _, fun _ _ => rfl⟩

theorem steps_overwriting
    (total : ℕ)
    (old : Content) :
    Steps chunkDataSize total
      (Reassembly.piece chunkDataSize content)
      (Overwriting chunkDataSize content old) := by
  have hShort : ∀ i,
      (Reassembly.piece chunkDataSize content i).length ≤
        chunkDataSize := by
    intro i
    rw [Reassembly.length_piece]
    exact Nat.min_le_left _ _
  intro arrived stored i _ _ hOver
  exact ⟨Reassembly.Holds.writeAt (fun k _ => hShort k)
      hOver.1 0 (hShort i), hOver.2.writeAt_piece 0 i⟩

/-
  However the chunks of a content arrive, finalize is called
  on the content followed by what a longer leftover had
  there.  So it is the content exactly when the leftover is
  missing or no longer than it.
-/
theorem assembled_of_fresh_iff
    (hSize : 0 < chunkDataSize)
    (hReceivable : Receivable H path)
    (hLimit :
      Reassembly.pieceCount chunkDataSize content.length ≤
        maxAllowedTotalChunks)
    (hFresh : Fresh path s)
    (hStorable : Storable H path s.disk)
    (arrivals : List (ℕ × String))
    (last : ℕ × String)
    (hInside : ∀ arrival ∈ arrivals ++ [last], arrival.1 <
      Reassembly.pieceCount chunkDataSize content.length)
    (hMissing : ∃ k <
      Reassembly.pieceCount chunkDataSize content.length,
        k ∉ indices arrivals)
    (hAll : ∀ k <
      Reassembly.pieceCount chunkDataSize content.length,
        k ∈ indices (arrivals ++ [last])) :
    let chunks := (arrivals ++ [last]).map (fun arrival =>
      (chunkOf chunkDataSize path content arrival.1,
        arrival.2))
    ∃ call stored,
      finalizeCalls H chunkDataSize chunks s =
        List.replicate arrivals.length none ++
          [some call] ∧
      assembled H call = some stored ∧
      (stored = content ↔
        ∀ old, leftoverTemp H path s.disk = some old →
          old.length ≤ content.length) := by
  intro chunks
  have hFits := Nat.lt_of_le_of_lt hLimit
    (by decide : maxAllowedTotalChunks < 2 ^ 32)
  have hChunks : chunks = deliveries path
      (Reassembly.pieceCount chunkDataSize content.length)
      (Reassembly.piece chunkDataSize content)
      (arrivals ++ [last]) := by
    simp only [chunks, deliveries, chunkOf,
      chunkCount_eq_pieceCount hFits]
  have hEvery : ∀ k <
      Reassembly.pieceCount chunkDataSize content.length,
        k ∈ insert last.1 (indices arrivals) := by
    intro k hK
    rcases hAll k hK with ⟨peerId, hArrival⟩
    rcases List.mem_append.mp hArrival with hFront | hEnd
    · exact Or.inr ⟨peerId, hFront⟩
    · rw [List.mem_singleton] at hEnd
      exact Or.inl (congrArg Prod.fst hEnd)
  rcases hMissing with ⟨missing, hBelow, hAbsent⟩
  rcases finalizeCalls_of_fresh hReceivable hLimit
    (steps_overwriting _ _) hFresh hStorable
    (overwriting_start _) arrivals last
    (fun arrival hFront => hInside arrival
      (List.mem_append_left _ hFront))
    (hInside last (by simp))
    (fun hNone => hAbsent (hNone missing hBelow)) hEvery with
    ⟨entry, disk, hCalls, hWorking⟩
  rcases assembled_of_working hWorking with
    ⟨stored, hStored, hOver⟩
  have hEq : stored = content ++ ((leftoverTemp H path
      s.disk).getD []).drop content.length :=
    Reassembly.eq_append_drop_of_holds hSize hOver.2 hOver.1
      hEvery
  refine ⟨(entry, disk), stored, ?_, hStored, ?_⟩
  · rw [hChunks, hCalls]
  · rw [hEq, List.append_right_eq_self,
      List.drop_eq_nil_iff]
    cases hOld : leftoverTemp H path s.disk with
    | none => simp
    | some old => simp

end Assemble

/- A host on which an earlier download was given up. -/
def givenUp (old : Content) : LocalState :=
  (LocalState.empty Host.plain .destination
    .biDirectional).userWrites Host.plain
      (tempPathOf "a.txt") old

theorem assembled_over_short_leftover :
    let chunk := chunkOf 2 "a.txt" [97, 98, 97]
    ∃ call stored,
      finalizeCalls Host.plain 2
          [(chunk 1, "peer"), (chunk 1, "other"),
            (chunk 0, "peer")] (givenUp [98, 98]) =
        [none, none, some call] ∧
      assembled Host.plain call = some stored ∧
      (stored = [97, 98, 97] ↔
        ∀ old, leftoverTemp Host.plain "a.txt"
            (givenUp [98, 98]).disk = some old →
          old.length ≤ 3) := by
  refine assembled_of_fresh_iff (by decide)
    ⟨by decide, by decide, by decide⟩ (by decide)
    (Or.inl (by decide)) ⟨by decide, ⟨_, rfl, by decide⟩⟩
    [(1, "peer"), (1, "other")] (0, "peer") (by decide)
    ⟨0, by decide, ?_⟩ ?_
  · rintro ⟨peerId, hArrival⟩
    simp at hArrival
  · intro k hK
    have hIndex : k = 0 ∨ k = 1 := by
      have hTwo : k < 2 := hK
      omega
    rcases hIndex with rfl | rfl
    · exact ⟨"peer", by simp⟩
    · exact ⟨"peer", by simp⟩

/- One byte over three others. -/
theorem leftover_not_cut_off :
    (givenUp [97, 97, 97]).receiving.lookup "a.txt" = none ∧
      ∃ call,
        finalizeCalls Host.plain 2
            [(chunkOf 2 "a.txt" [98] 0, "peer")]
            (givenUp [97, 97, 97]) =
          [some call] ∧
        assembled Host.plain call = some [98, 97, 97] :=
  ⟨by decide, _, rfl, by decide⟩

end TransferManager

end VeritasSync
