import VeritasSync.Storage.WatchedRun

/-
  Which of the committed changes are withheld from the
  peers.

  Main declarations:
    * `EchoSafety.WithholdsOnlyEchoes`
    * `EchoSafety.Careful`, `EchoSafety.Inv`
    * `EchoSafety.withholdsOnlyEchoes_of_run`
    * `EchoSafety.lost_of_marked`
-/

namespace VeritasSync

namespace EchoSafety

open StateManager Transition WatchedRun

------------------------------------------------------------
-- The Property
------------------------------------------------------------

/-
  A file that a round committed without reporting it was last
  written by a peer when the round read it.
-/
def WithholdsOnlyEchoes (s : System) : Prop :=
  ∀ round ∈ s.log, ∀ r ∈ hashed round.1, ∀ info,
    r.info? = some info → info ∉ round.2.fileUpdates →
      r.source = .peer

/-
  The digest may be reported for the file: its content has
  it, or a row with its time stamp.
-/
def MayReport
    (H : Host)
    (s : LocalState)
    (loc : Loc)
    (file : File)
    (hash : String) : Prop :=
  H.digest.hash file.content = hash ∨
    ∃ row, s.fileStore.lookup (H.relative loc) = some row ∧
      row.mtime = file.mtime ∧ row.hash = hash

/- What has been read and waits to be committed. -/
def inFlight (s : System) : List Reading :=
  s.reading ++ s.posted.flatten

/-
  A digest is marked only while nothing that was written
  locally under the path has it, on the disk or in a round
  under way, and a local program writes nothing under a path
  that has the digest marked for it.
-/
def Careful
    (H : Host)
    (s : System) : Event → Prop
| .mark path hash =>
    (∀ loc file, s.node.disk.lookup loc =
        some (.file file) →
      s.written loc = .user → H.relative loc = path →
        ¬ MayReport H s.node loc file hash) ∧
    ∀ r ∈ inFlight s, r.source = .user →
      r.fails = false → ∀ info, r.info? = some info →
        info.path = path → info.hash ≠ hash
| .edit disk =>
    ∀ loc file, disk.lookup loc = some (.file file) →
      disk.lookup loc ≠ s.node.disk.lookup loc →
        ∀ hash, Marked s.node (H.relative loc) hash →
          ¬ MayReport H s.node loc file hash
| _ => True

------------------------------------------------------------
-- The Invariant
------------------------------------------------------------

/- What was written locally is not taken for an echo. -/
structure Inv
    (H : Host)
    (s : System) : Prop where
  onDisk : ∀ loc file, s.node.disk.lookup loc =
      some (.file file) →
    s.written loc = .user →
      ∀ hash, Marked s.node (H.relative loc) hash →
        ¬ MayReport H s.node loc file hash
  inFlight : ∀ r ∈ inFlight s, r.source = .user →
    r.fails = false → ∀ info, r.info? = some info →
      ¬ Marked s.node info.path info.hash
  log : WithholdsOnlyEchoes s

theorem inv_start
    (H : Host)
    (node : LocalState) :
    Inv H (start node) where
  onDisk _ _ _ _ _ hMarked := nomatch hMarked
  inFlight _ hIn := nomatch hIn
  log _ hIn := nomatch hIn

section Steps

variable
  {H : Host}
  {existsFails : Loc → Bool}
  {s s' : System}

/- A digest that a scan ends up with may be reported. -/
theorem mayReport_finalHash
    {node : LocalState}
    {loc : Loc}
    {file : File}
    (hFile : node.disk.lookup loc = some (.file file))
    (hHash : (inspectFile H node.fileStore loc
        file).needCalc = true →
      finalHash H node.disk
        (inspectFile H node.fileStore loc file) ≠ "") :
    MayReport H node loc file (finalHash H node.disk
      (inspectFile H node.fileStore loc file)) := by
  have hPayload : node.disk.payload? loc = some file :=
    (FileTree.payload?_eq_some_iff _ _ _).mpr hFile
  unfold inspectFile finalHash at hHash ⊢
  dsimp only at hHash ⊢
  cases hCached : cachedMeta node.fileStore (H.relative loc)
      file.mtime with
  | some row =>
      right
      rcases cachedMeta_eq_some_iff.mp hCached with
        ⟨hStored, hMtime⟩
      exact ⟨row, hStored, hMtime, rfl⟩
  | none =>
      left
      have hSome := hHash (by rw [hCached]; rfl)
      rw [hCached] at hSome
      unfold scanHash at hSome ⊢
      simp only [Option.isNone_none, if_true,
        hPayload] at hSome ⊢
      split at hSome
      · exact absurd rfl hSome
      next hReadable => rw [if_neg hReadable]

/- What one more reading says is not marked. -/
theorem not_marked_readChange
    (hInv : Inv H s)
    {change : String}
    {info : FileInfo}
    (hUser : (readChange H existsFails s.node s.written
      change).source = .user)
    (hFine : (readChange H existsFails s.node s.written
      change).fails = false)
    (hInfo : (readChange H existsFails s.node s.written
      change).info? = some info) :
    ¬ Marked s.node info.path info.hash := by
  rw [info?_readChange, Option.map_eq_some_iff] at hInfo
  rcases hInfo with ⟨pending, hPending, rfl⟩
  rw [fails_readChange, changeFails] at hFine
  have hCheck : checkChange H existsFails s.node change =
      .file pending := by
    cases hCase : checkChange H existsFails s.node change <;>
      simp [hCase, ChangeCheck.file?] at hPending
    rw [hPending]
  rw [hCheck] at hFine
  rcases file?_checkChange_iff.mp hPending with
    ⟨file, hFile, rfl, -⟩
  intro hMarked
  apply hInv.onDisk _ file hFile hUser _ hMarked
  apply mayReport_finalHash hFile
  intro hNeeds hEmpty
  simp [hNeeds, hEmpty] at hFine

theorem inv_receive
    {path : String}
    {file : File}
    (hInv : Inv H s)
    (hStep : receive H path file s = some s') :
    Inv H s' := by
  unfold receive at hStep
  dsimp only at hStep
  split at hStep
  · rw [← Option.some.inj hStep]
    refine ⟨?_, hInv.inFlight, hInv.log⟩
    intro loc other hFile hUser
    dsimp only at hFile hUser
    by_cases hSame : loc = H.locate path
    · rw [hSame, Function.update_self] at hUser
      cases hUser
    · rw [Function.update_of_ne hSame] at hUser
      rw [AList.lookup_insert_ne hSame] at hFile
      exact hInv.onDisk loc other hFile hUser
  · cases hStep

theorem marked_markFileReceived
    {node : LocalState}
    {path hash other otherHash : String}
    (hMarked : Marked (markFileReceived path hash node)
      other otherHash) :
    other = path ∧ otherHash = hash ∨
      Marked node other otherHash := by
  unfold Marked markFileReceived at hMarked
  dsimp only at hMarked
  by_cases hSame : other = path
  · rw [hSame, AList.lookup_insert] at hMarked
    exact Or.inl ⟨hSame, (Option.some.inj hMarked).symm⟩
  · rw [AList.lookup_insert_ne hSame] at hMarked
    exact Or.inr hMarked

theorem inv_mark
    {path hash : String}
    (hInv : Inv H s)
    (hCareful : Careful H s (.mark path hash)) :
    Inv H { s with
      node := markFileReceived path hash s.node } := by
  refine ⟨?_, ?_, hInv.log⟩
  · intro loc file hFile hUser other hMarked
    rcases marked_markFileReceived hMarked with
      ⟨hPath, hHash⟩ | hOld
    · rw [hHash]
      exact hCareful.1 loc file hFile hUser hPath
    · exact hInv.onDisk loc file hFile hUser other hOld
  · intro r hIn hUser hFine info hInfo hMarked
    rcases marked_markFileReceived hMarked with
      ⟨hPath, hHash⟩ | hOld
    · exact hCareful.2 r hIn hUser hFine info hInfo hPath
        hHash
    · exact hInv.inFlight r hIn hUser hFine info hInfo hOld

theorem inv_edit
    {disk : Disk}
    (hInv : Inv H s)
    (hCareful : Careful H s (.edit disk)) :
    Inv H (edit disk s) := by
  refine ⟨?_, hInv.inFlight, hInv.log⟩
  intro loc file hFile hUser hash hMarked
  unfold edit at hUser
  dsimp only at hUser
  by_cases hSame :
      disk.lookup loc = s.node.disk.lookup loc
  · rw [if_pos hSame] at hUser
    have hOld : s.node.disk.lookup loc =
        some (.file file) :=
      hSame.symm.trans hFile
    exact hInv.onDisk loc file hOld hUser hash hMarked
  · exact hCareful loc file hFile hSame hash hMarked

theorem inv_read
    (hInv : Inv H s)
    (change : String) :
    Inv H { s with
      reading := s.reading ++
        [readChange H existsFails s.node s.written
          change] } := by
  refine ⟨hInv.onDisk, ?_, hInv.log⟩
  intro r hIn hUser hFine info hInfo
  unfold inFlight at hIn
  rw [List.append_assoc, List.mem_append] at hIn
  rcases hIn with hReading | hLater
  · exact hInv.inFlight r (List.mem_append_left _ hReading)
      hUser hFine info hInfo
  · rcases List.mem_cons.mp hLater with rfl | hPosted
    · exact not_marked_readChange hInv hUser hFine hInfo
    · exact hInv.inFlight r (List.mem_append_right _ hPosted)
        hUser hFine info hInfo

theorem inv_post (hInv : Inv H s) :
    Inv H { s with
      reading := []
      posted := s.posted ++ [s.reading] } := by
  refine ⟨hInv.onDisk, ?_, hInv.log⟩
  intro r hIn
  apply hInv.inFlight r
  unfold inFlight at hIn ⊢
  simp only [List.flatten_append, List.flatten_cons,
    List.flatten_nil, List.append_nil, List.nil_append,
    List.mem_append] at hIn ⊢
  exact hIn.symm

/- What is committed has not failed. -/
theorem fails_of_mem_hashed
    {readings : List Reading}
    {r : Reading}
    {info : FileInfo}
    (hIn : r ∈ hashed readings)
    (hInfo : r.info? = some info) :
    r ∈ readings ∧ r.fails = false := by
  have hFile : (r.check == .failed) = false := by
    unfold Reading.info? at hInfo
    cases hCheck : r.check with
    | failed => simp [hCheck, ChangeCheck.file?] at hInfo
    | skipped => rfl
    | file pending => rfl
    | dir path => rfl
    | deleted path => rfl
  unfold hashed at hIn
  unfold Reading.fails
  rw [hFile, Bool.false_or]
  split at hIn
  next =>
    rcases List.mem_filter.mp hIn with ⟨hMem, hHash⟩
    rw [bne_iff_ne] at hHash
    simp [hMem, hHash]
  next hNone =>
    have hNeeds : r.needsHash = false := by
      rw [Bool.eq_false_iff]
      intro hNeeds
      exact hNone (List.any_eq_true.mpr ⟨r, hIn, hNeeds⟩)
    simp [hIn, hNeeds]

/- After a commit its own digests are not marked. -/
theorem onDisk_commit
    (hInv : Inv H s)
    (readings : List Reading)
    {loc : Loc}
    {file : File}
    {hash : String}
    (hFile : (commitScanned (collect readings)
      s.node).2.disk.lookup loc = some (.file file))
    (hUser : s.written loc = .user)
    (hMarked : Marked (commitScanned (collect readings)
      s.node).2 (H.relative loc) hash) :
    ¬ MayReport H (commitScanned (collect readings)
      s.node).2 loc file hash := by
  have hOld : s.node.disk.lookup loc =
      some (.file file) := by
    rw [← hFile]
    exact (congrArg (AList.lookup loc)
      (disk_commitChanges _ _ _ _ s.node)).symm
  rcases marked_commitChanges_iff.mp hMarked with
    ⟨hBefore, hUnused⟩
  intro hReport
  apply hInv.onDisk loc file hOld hUser hash hBefore
  rcases hReport with hDigest | ⟨row, hRow, hMtime, hHash⟩
  · exact Or.inl hDigest
  · rcases row_cases_commitChanges hRow with
      hOldRow | ⟨info, hInfo, hPath, hOwn⟩
    · exact Or.inr ⟨row, hOldRow, hMtime, hHash⟩
    · exact absurd ⟨hPath, hOwn.trans hHash⟩
        (hUnused info hInfo)

/- What a local program wrote is reported. -/
theorem mem_fileUpdates_commit
    (hInv : Inv H s)
    {readings : List Reading}
    (hFlying : ∀ r ∈ readings, r ∈ inFlight s)
    {r : Reading}
    {info : FileInfo}
    (hReported : r ∈ hashed readings)
    (hInfo : r.info? = some info)
    (hUser : r.source = .user) :
    info ∈ (commitScanned (collect readings)
      s.node).1.fileUpdates := by
  rcases fails_of_mem_hashed hReported hInfo with
    ⟨hIn, hFine⟩
  have hResult :
      info ∈ (collect readings).fileUpdateResults :=
    List.mem_filterMap.mpr ⟨r, hReported, hInfo⟩
  exact mem_fileUpdates_commitChanges hResult
    (hInv.inFlight r (hFlying r hIn) hUser hFine info hInfo)

theorem inv_commit
    (hInv : Inv H s)
    (hStep : commit s = some s') :
    Inv H s' := by
  unfold commit at hStep
  cases hPosted : s.posted with
  | nil =>
      rw [hPosted] at hStep
      cases hStep
  | cons readings rest =>
      rw [hPosted] at hStep
      rw [← Option.some.inj hStep]
      have hFlying : ∀ r, r ∈ readings ∨ r ∈ s.reading ∨
          r ∈ rest.flatten → r ∈ inFlight s := by
        intro r hIn
        unfold inFlight
        rw [hPosted, List.flatten_cons, List.mem_append,
          List.mem_append]
        tauto
      refine ⟨?_, ?_, ?_⟩
      · intro loc file hFile hUser hash hMarked
        exact onDisk_commit hInv readings hFile hUser hMarked
      · intro r hIn hUser hFine info hInfo hMarked
        have hWas : r ∈ inFlight s :=
          hFlying r (Or.inr (List.mem_append.mp hIn))
        exact hInv.inFlight r hWas hUser hFine info hInfo
          (marked_commitChanges_iff.mp hMarked).1
      · intro round hRound r hReported info hInfo hWithheld
        rcases List.mem_append.mp hRound with hOld | hNew
        · exact hInv.log round hOld r hReported info hInfo
            hWithheld
        · rw [List.mem_singleton] at hNew
          subst hNew
          cases hSource : r.source with
          | peer => rfl
          | user =>
              have hOwn : ∀ r ∈ readings, r ∈ inFlight s :=
                fun r hIn => hFlying r (Or.inl hIn)
              exact absurd (mem_fileUpdates_commit hInv hOwn
                hReported hInfo hSource) hWithheld

theorem inv_step
    {e : Event}
    (hInv : Inv H s)
    (hCareful : Careful H s e)
    (hStep : step H existsFails s e = some s') :
    Inv H s' := by
  cases e with
  | receive path file => exact inv_receive hInv hStep
  | mark path hash =>
      rw [← Option.some.inj hStep]
      exact inv_mark hInv hCareful
  | edit disk =>
      rw [← Option.some.inj hStep]
      exact inv_edit hInv hCareful
  | read change =>
      rw [← Option.some.inj hStep]
      exact inv_read hInv change
  | post =>
      rw [← Option.some.inj hStep]
      exact inv_post hInv
  | commit => exact inv_commit hInv hStep

end Steps

/-
  In every run whose marks and edits are careful, only the
  watcher's reports of received files are withheld.
-/
theorem withholdsOnlyEchoes_of_run
    {H : Host}
    {existsFails : Loc → Bool}
    {node : LocalState}
    {events : List Event}
    {s : System}
    (hCareful : Meets (step H existsFails) (Careful H)
      (start node) events)
    (hRun : run (step H existsFails) (start node) events =
      some s) :
    WithholdsOnlyEchoes s :=
  (invariant_of_run
    (fun _ _ _ hInv hCareful hStep =>
      inv_step hInv hCareful hStep)
    (inv_start H node) hCareful hRun).log

------------------------------------------------------------
-- When an Edit Is Lost
------------------------------------------------------------

section Lost

variable
  {r : Reading}

theorem hashed_single (hFine : r.fails = false) :
    hashed [r] = [r] := by
  unfold Reading.fails at hFine
  rw [Bool.or_eq_false_iff, Bool.and_eq_false_iff] at hFine
  unfold hashed
  split
  next hNeeds =>
    rw [List.any_cons, List.any_nil, Bool.or_false] at hNeeds
    rcases hFine.2 with hNot | hHash
    · rw [hNeeds] at hNot
      cases hNot
    · simpa using hHash
  next => rfl

/- A round of one file whose digest is marked is silent. -/
theorem fileUpdates_single
    {node : LocalState}
    {info : FileInfo}
    (hFine : r.fails = false)
    (hInfo : r.info? = some info)
    (hMarked : Marked node info.path info.hash) :
    (commitScanned (collect [r]) node).1.fileUpdates =
      [] := by
  have hResults : (collect [r]).fileUpdateResults =
      [info] := by
    unfold collect
    dsimp only
    rw [hashed_single hFine, List.filterMap_cons_some hInfo,
      List.filterMap_nil]
  unfold commitScanned
  rw [(keepsEchoes_commitChanges _ _ _ _ node).1, hResults,
    List.foldl_cons, List.foldl_nil]
  rcases commitFile_cases (.empty, node) info with
    ⟨-, hEq⟩ | ⟨hNot, -⟩
  · rw [hEq]
    rfl
  · exact absurd hMarked hNot

/-
  With nothing under way, a file that was written locally is
  withheld by the next round if its digest is marked then.
-/
theorem lost_of_marked
    {H : Host}
    {existsFails : Loc → Bool}
    {s : System}
    {change : String}
    {info : FileInfo}
    (hIdle : s.reading = [] ∧ s.posted = [])
    (hRead : readChange H existsFails s.node s.written
      change = r)
    (hUser : r.source = .user)
    (hFine : r.fails = false)
    (hInfo : r.info? = some info)
    (hMarked : Marked s.node info.path info.hash) :
    ∃ s', run (step H existsFails) s
        [.read change, .post, .commit] = some s' ∧
      ¬ WithholdsOnlyEchoes s' := by
  rcases s with ⟨node, written, reading, posted, log⟩
  rcases hIdle with ⟨rfl, rfl⟩
  refine ⟨_, rfl, ?_⟩
  intro hOnly
  dsimp only at hOnly hRead
  rw [List.nil_append, hRead] at hOnly
  have hRound : ([r], (commitScanned (collect [r]) node).1) ∈
      log ++ [([r],
        (commitScanned (collect [r]) node).1)] :=
    List.mem_append_right _ List.mem_cons_self
  have hReported : r ∈ hashed [r] := by
    rw [hashed_single hFine]
    exact List.mem_cons_self
  have hWithheld : info ∉
      (commitScanned (collect [r]) node).1.fileUpdates := by
    rw [fileUpdates_single hFine hInfo hMarked]
    exact List.not_mem_nil
  have hPeer := hOnly _ hRound r hReported info hInfo
    hWithheld
  rw [hUser] at hPeer
  cases hPeer

end Lost

------------------------------------------------------------
-- Examples
------------------------------------------------------------

def noneFails (_ : Loc) : Bool := false

def samplePeer : LocalState :=
  .empty .plain .source .biDirectional

/- The tree with one file in it. -/
def diskWith
    (content : Content)
    (mtime : Int) : Disk :=
  AList.insert ["r", "a.txt"] (.file ⟨content, mtime⟩)
    samplePeer.disk

/- The digest of the content `a`. -/
def hashA : String := Digest.sampleHash [97]

/- A round that finds the file. -/
def round : List Event :=
  [.read "/r/a.txt", .post, .commit]

/- A download is committed, and then the file is edited. -/
def echoThenEdit : List Event :=
  [.receive "a.txt" ⟨[97], 1⟩, .mark "a.txt" hashA] ++
    round ++ [.edit (diskWith [98] 2)] ++ round

theorem loc_of_file_diskWith
    {content : Content}
    {mtime : Int}
    {loc : Loc}
    {file : File}
    (hFile : (diskWith content mtime).lookup loc =
      some (.file file)) :
    loc = ["r", "a.txt"] := by
  by_contra hOther
  unfold diskWith at hFile
  rw [AList.lookup_insert_ne hOther] at hFile
  have hDirs : ∀ entry ∈ samplePeer.disk.entries,
      entry.2 = .dir := by
    decide
  have hDir := hDirs ⟨loc, .file file⟩
    (AList.mem_lookup_iff.mp (Option.mem_def.mpr hFile))
  cases hDir

theorem withholdsOnlyEchoes_echoThenEdit :
    ∃ s, run (step .plain noneFails) (start samplePeer)
        echoThenEdit = some s ∧
      s.node.receivedFiles = ∅ ∧
        WithholdsOnlyEchoes s := by
  have hCareful : Meets (step .plain noneFails)
      (Careful .plain) (start samplePeer) echoThenEdit := by
    refine .cons trivial rfl (.cons ⟨?_, nofun⟩ rfl ?_)
    · intro loc file hFile hUser
      have hPlace : loc = ["r", "a.txt"] :=
        loc_of_file_diskWith hFile
      rw [hPlace] at hUser
      cases hUser
    · refine .cons trivial rfl (.cons trivial rfl
        (.cons trivial rfl (.cons ?_ rfl ?_)))
      -- the mark has been used up by the first round
      · exact fun _ _ _ _ _ hMarked => nomatch hMarked
      · exact .cons trivial rfl (.cons trivial rfl
          (.cons trivial rfl trivial))
  exact ⟨_, rfl, rfl, withholdsOnlyEchoes_of_run hCareful
    rfl⟩

/-
  The download is edited before a round has seen it, and the
  edit is undone after its commit.
-/
def editUndone : List Event :=
  [.receive "a.txt" ⟨[97], 1⟩, .mark "a.txt" hashA,
    .edit (diskWith [98] 2)] ++ round ++
    [.edit (diskWith [97] 3)] ++ round

theorem not_withholdsOnlyEchoes_editUndone :
    ∃ s, run (step .plain noneFails) (start samplePeer)
        editUndone = some s ∧ ¬ WithholdsOnlyEchoes s := by
  refine ⟨_, rfl, ?_⟩
  intro hOnly
  have hPeer := hOnly _ (List.mem_cons_of_mem _
    List.mem_cons_self) _ List.mem_cons_self _ rfl
      List.not_mem_nil
  cases hPeer

end EchoSafety

end VeritasSync
