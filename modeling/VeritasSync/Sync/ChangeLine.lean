import VeritasSync.Sync.ChangeOrder

/-
  Changes on their way: what waits in the two pools and in
  the channel, and the line in which it waits.  When each
  pool keeps its order, so does the line as a whole.

  Main declarations:
    * `ChangeOrder.mem_waiting_commitStep`,
      `ChangeOrder.waiting_sendStep`,
      `ChangeOrder.mem_waiting_workStep`
    * `ChangeOrder.line`, `ChangeOrder.mem_waiting_iff`
    * `ChangeOrder.waiting_deliverStep`
    * `ChangeOrder.inLine_commitStep`,
      `ChangeOrder.inLine_sendStep`,
      `ChangeOrder.inLine_workStep`
-/

namespace VeritasSync

open StateManager BroadcastManager TransferManager
open SyncHandler PathUtils

namespace ChangeOrder

------------------------------------------------------------
-- Changes On Their Way
------------------------------------------------------------

section Ways

variable
  {change : Change}
  {item : ℕ × Change}

/- The steps of a batch carry out its changes. -/
theorem exists_batchOps_iff (batch : Batch) :
    (∃ op ∈ batchOps batch, op.change = change) ↔
      change ∈ batch.changes := by
  have hMap : ∀ {α : Type} (items : List α)
      (op : α → Op) (make : α → Change),
      (∀ item, (op item).change = make item) →
      ((∃ x ∈ items.map op, x.change = change) ↔
        change ∈ items.map make) := by
    intro α items op make hMake
    simp [hMake]
  cases batch with
  | fileUpdates files =>
      exact hMap _ .process .update (fun _ => rfl)
  | fileDeletes paths =>
      exact hMap _ .deleteFile .deleteFile (fun _ => rfl)
  | dirs creates deletes =>
      simp only [batchOps, Batch.changes, List.mem_append,
        or_and_right, exists_or]
      rw [hMap creates .createDir .createDir (fun _ => rfl),
        hMap (sortByLength deletes) .deleteTree .deleteDir
          (fun _ => rfl)]
      simp [sortByLength]

theorem exists_batches_iff
    {α : Type}
    {size : ℕ}
    (hSize : 0 < size)
    (items : List α)
    (p : α → Prop) :
    (∃ batch ∈ batches size items, ∃ x ∈ batch, p x) ↔
      ∃ x ∈ items, p x := by
  constructor
  · rintro ⟨batch, hBatch, x, hX, hP⟩
    refine ⟨x, ?_, hP⟩
    rw [← flatten_batches hSize items]
    exact List.mem_flatten.mpr ⟨batch, hBatch, hX⟩
  · rintro ⟨x, hX, hP⟩
    rw [← flatten_batches hSize items] at hX
    rcases List.mem_flatten.mp hX with ⟨batch, hBatch, hIn⟩
    exact ⟨batch, hBatch, x, hIn, hP⟩

theorem mem_namedUpdates_iff (files : List FileInfo) :
    change ∈ (namedFiles files).map .update ↔
      ∃ info ∈ files, info.path.isEmpty = false ∧
        .update info = change := by
  simp [namedFiles, and_assoc]

/- A test that what is looked for passes drops none of it. -/
theorem exists_mem_filter_iff
    {α : Type}
    {test : α → Bool}
    {p : α → Prop}
    {items : List α}
    (hTest : ∀ x, p x → test x = true) :
    (∃ x ∈ items.filter test, p x) ↔ ∃ x ∈ items, p x := by
  simp only [List.mem_filter]
  constructor
  · rintro ⟨x, ⟨hX, -⟩, hP⟩
    exact ⟨x, hX, hP⟩
  · rintro ⟨x, hX, hP⟩
    exact ⟨x, ⟨hX, hTest x hP⟩, hP⟩

/- A round posts its changes. -/
theorem exists_commitBroadcasts_iff (c : Committed) :
    (∃ sent ∈ commitBroadcasts c,
      ∃ batch ∈ sent, change ∈ batch.changes) ↔
      change ∈ c.changes := by
  have hUpdates : (∃ batch ∈
        broadcastFileUpdatesBatch c.fileUpdates,
        change ∈ batch.changes) ↔
      change ∈ (namedFiles c.fileUpdates).map .update := by
    rw [mem_namedUpdates_iff]
    refine Iff.trans ?_ (exists_batches_iff
      fileUpdateBatchSize_pos c.fileUpdates _)
    simp [broadcastFileUpdatesBatch, Batch.changes,
      mem_namedUpdates_iff]
  have hDeletes : (∃ batch ∈
        broadcastFileDeletesBatch c.fileDeletes,
        change ∈ batch.changes) ↔
      change ∈ c.fileDeletes.map .deleteFile := by
    rw [List.mem_map]
    refine Iff.trans ?_ (exists_batches_iff
      fileDeleteBatchSize_pos c.fileDeletes _)
    simp [broadcastFileDeletesBatch, Batch.changes]
  have hDirs : (∃ batch ∈
        broadcastDirChangesBatch c.dirCreates c.dirDeletes,
        change ∈ batch.changes) ↔
      change ∈ c.dirCreates.map .createDir ++
        c.dirDeletes.map .deleteDir := by
    unfold broadcastDirChangesBatch
    split
    next hEmpty =>
      rw [Bool.and_eq_true, List.isEmpty_iff,
        List.isEmpty_iff] at hEmpty
      simp [hEmpty.1, hEmpty.2]
    next => simp [Batch.changes]
  rw [commitBroadcasts, exists_mem_filter_iff]
  · simp only [List.mem_cons, List.not_mem_nil, or_false,
      exists_eq_or_imp, exists_eq_left, hUpdates, hDeletes,
      hDirs, Committed.changes, List.mem_append, or_assoc]
  · rintro sent ⟨batch, hBatch, -⟩
    rw [Bool.not_eq_true', List.isEmpty_eq_false_iff]
    exact List.ne_nil_of_mem hBatch

/-
  An entry of a list is replaced by one that matters to less
  items, or to the same: what is lost is `q`.
-/
theorem exists_mem_set_iff
    {α : Type}
    {items : List α}
    {k : ℕ}
    {old : α}
    {p : α → Prop}
    {q : Prop}
    (new : α)
    (hAt : items[k]? = some old)
    (hSplit : p old ↔ q ∨ p new) :
    ((∃ x ∈ items.set k new, p x) ∨ q) ↔
      ∃ x ∈ items, p x := by
  have hOld := List.mem_of_getElem? hAt
  constructor
  · rintro (⟨x, hX, hP⟩ | hQ)
    · rcases List.mem_or_eq_of_mem_set hX with hIn | hNew
      · exact ⟨x, hIn, hP⟩
      · subst hNew
        exact ⟨old, hOld, hSplit.mpr (Or.inr hP)⟩
    · exact ⟨old, hOld, hSplit.mpr (Or.inl hQ)⟩
  · rintro ⟨x, hX, hP⟩
    rcases List.mem_iff_getElem?.mp hX with ⟨i, hI⟩
    by_cases hSame : i = k
    · subst hSame
      rw [hAt] at hI
      cases hI
      rcases hSplit.mp hP with hQ | hNew
      · exact Or.inr hQ
      · left
        refine ⟨new, ?_, hNew⟩
        rcases List.getElem?_eq_some_iff.mp hAt with
          ⟨hLess, -⟩
        exact List.mem_set hLess new
    · left
      refine ⟨x, ?_, hP⟩
      apply List.mem_of_getElem? (i := i)
      rw [List.getElem?_set_ne (Ne.symm hSame), hI]

variable
  {H : Host}
  {peerId : String}
  {sys sys' : System}
  {k : ℕ}

/- A round brings its changes on their way. -/
theorem mem_waiting_commitStep
    {results : List FileInfo}
    {deletes dirs failed : List String}
    (hSource : sys.source.role = .source) :
    item ∈ waiting (commitStep results deletes dirs failed
      sys) ↔
      item ∈ waiting sys ∨ item.1 = sys.rounds.length ∧
        item.2 ∈ (commitChanges results deletes dirs failed
          sys.source).1.changes := by
  have hPosted := @exists_commitBroadcasts_iff item.2
    (commitChanges results deletes dirs failed sys.source).1
  have hCan : canBroadcast sys.source.role
      sys.source.mode = true := by
    rw [hSource]
    rfl
  have hTasks : (∃ task ∈ (commitBroadcasts (commitChanges
        results deletes dirs failed sys.source).1).map
          (fun batches => (sys.rounds.length, batches)),
        task.1 = item.1 ∧
          ∃ batch ∈ task.2, item.2 ∈ batch.changes) ↔
      item.1 = sys.rounds.length ∧
        item.2 ∈ (commitChanges results deletes dirs failed
          sys.source).1.changes := by
    rw [← hPosted]
    constructor
    · rintro ⟨task, hTask, hRound, hBatch⟩
      rcases List.mem_map.mp hTask with ⟨sent, hSent, rfl⟩
      exact ⟨hRound.symm, sent, hSent, hBatch⟩
    · rintro ⟨hRound, sent, hSent, hBatch⟩
      exact ⟨_, List.mem_map_of_mem hSent, hRound.symm,
        hBatch⟩
  unfold waiting commitStep
  dsimp only
  rw [if_pos hCan]
  simp only [Set.mem_ofPred_eq, List.mem_append,
    or_and_right, exists_or]
  rw [hTasks]
  exact or_right_comm

/- A batch goes from the pool into the channel. -/
theorem waiting_sendStep
    (hStep : sendStep k sys = some sys') :
    waiting sys' = waiting sys := by
  unfold sendStep at hStep
  split at hStep
  next round batch rest hAt =>
    cases hStep
    ext item
    have hMoved := exists_mem_set_iff
      (p := fun task => task.1 = item.1 ∧
        ∃ batch ∈ task.2, item.2 ∈ batch.changes)
      (q := round = item.1 ∧ item.2 ∈ batch.changes)
      (round, rest) hAt (by simp [and_or_left])
    simp only [waiting, Set.mem_ofPred_eq, List.mem_append,
      List.mem_singleton, or_and_right, exists_or,
      exists_eq_left] at hMoved ⊢
    rw [← hMoved, or_assoc, or_assoc]
    exact or_congr_right or_left_comm
  next => cases hStep

/- The file that is wanted is the one looked at. -/
theorem processSingleFile_fst
    {H : Host}
    {info wanted : FileInfo}
    {s : LocalState}
    (hWanted : (processSingleFile H peerId info s).1 =
      some wanted) :
    wanted = info := by
  rcases processSingleFile_cases H peerId info s with
    ⟨-, hEq⟩ | ⟨-, s', -, ⟨-, hEq⟩ | ⟨-, hEq⟩⟩
  · rw [hEq] at hWanted
    exact (Option.some.inj hWanted).symm
  · rw [hEq] at hWanted
    cases hWanted
  · rw [hEq] at hWanted
    dsimp only at hWanted
    split at hWanted
    · exact (Option.some.inj hWanted).symm
    · cases hWanted

/- The steps that a step adds are for the same change. -/
theorem change_of_added
    {H : Host}
    {op added : Op}
    {s : LocalState}
    (hAdded : added ∈ (perform H peerId op s).1) :
    added.change = op.change := by
  cases op with
  | process info =>
      rcases List.mem_map.mp hAdded with
        ⟨wanted, hWanted, rfl⟩
      rw [Option.mem_toList] at hWanted
      rw [processSingleFile_fst hWanted]
      rfl
  | request info => cases hAdded
  | deleteFile other => cases hAdded
  | createDir other => cases hAdded
  | deleteTree other => cases hAdded

/- What is left of a task after its first step. -/
theorem exists_carriedOut_iff
    {op : Op}
    {rest added : List Op}
    {round : ℕ}
    (hAdded : ∀ x ∈ added, x.change = op.change) :
    (round = item.1 ∧
      ∃ x ∈ op :: rest, x.change = item.2) ↔
      (round = item.1 ∧ op.change = item.2) ∨
        round = item.1 ∧
          ∃ x ∈ rest ++ added, x.change = item.2 := by
  rw [← and_or_left]
  apply and_congr_right
  intro _
  constructor
  · rintro ⟨x, hX, hSame⟩
    rcases List.mem_cons.mp hX with hHead | hTail
    · exact Or.inl (hHead ▸ hSame)
    · exact Or.inr
        ⟨x, List.mem_append_left _ hTail, hSame⟩
  · rintro (hHead | ⟨x, hX, hSame⟩)
    · exact ⟨op, List.mem_cons_self, hHead⟩
    · rcases List.mem_append.mp hX with hTail | hNew
      · exact ⟨x, List.mem_cons_of_mem _ hTail, hSame⟩
      · refine ⟨op, List.mem_cons_self, ?_⟩
        rw [← hAdded x hNew, hSame]

/- A step is done, and may have to be followed by another. -/
theorem mem_waiting_workStep
    {refusals : Refusals}
    {round : ℕ}
    {op : Op}
    {rest : List Op}
    (hAt : sys.working[k]? = some (round, op :: rest))
    (hStep : workStep H peerId refusals k sys =
      some sys') :
    item ∈ waiting sys ↔
      item ∈ waiting sys' ∨ item = (round, op.change) := by
  unfold workStep at hStep
  rw [hAt] at hStep
  cases hStep
  have hMoved := exists_mem_set_iff
    (p := fun task => task.1 = item.1 ∧
      ∃ op ∈ task.2, op.change = item.2)
    (q := round = item.1 ∧ op.change = item.2)
    (round, rest ++ (perform (H.during refusals) peerId op
      sys.node).1) hAt
    (exists_carriedOut_iff (fun _ => change_of_added))
  have hItem : item = (round, op.change) ↔
      round = item.1 ∧ op.change = item.2 := by
    rw [Prod.ext_iff, eq_comm, @eq_comm _ item.2]
  simp only [waiting, Set.mem_ofPred_eq]
  rw [← hMoved, hItem, or_assoc, or_assoc]

end Ways

------------------------------------------------------------
-- The Line Of Waiting Changes
------------------------------------------------------------

/- What is left of a task of the receiver's pool. -/
def undone (task : ℕ × List Op) : Set (ℕ × Change) :=
  { item |
    task.1 = item.1 ∧ ∃ op ∈ task.2, op.change = item.2 }

/- What a batch in the channel carries. -/
def carried (sent : ℕ × Batch) : Set (ℕ × Change) :=
  { item | sent.1 = item.1 ∧ item.2 ∈ sent.2.changes }

/- What is left of a task of the source's pool. -/
def unsent (task : ℕ × List Batch) : Set (ℕ × Change) :=
  { item |
    task.1 = item.1 ∧
      ∃ batch ∈ task.2, item.2 ∈ batch.changes }

/-
  The changes that wait, those ahead first: at the receiver,
  in the channel, at the source.
-/
def line (sys : System) : List (Set (ℕ × Change)) :=
  sys.working.map undone ++ sys.channel.map carried ++
    sys.sending.map unsent

section Line

variable
  {H : Host}
  {peerId : String}
  {node : LocalState}
  {sys sys' : System}
  {touches : ℕ × Change → String → Prop}
  {refusals : Refusals}
  {k : ℕ}

theorem mem_waiting_iff {item : ℕ × Change} :
    item ∈ waiting sys ↔ ∃ task ∈ line sys, item ∈ task := by
  simp only [waiting, line, undone, carried, unsent,
    Set.mem_ofPred_eq, List.mem_append, List.mem_map,
    or_and_right, exists_or, exists_exists_and_eq_and]
  rw [or_assoc]
  exact or_comm.trans
    ((or_congr_left or_comm).trans or_assoc)

/- The tasks of a new round go to the end of the line. -/
theorem inLine_commitStep
    (hLine : Precedence.InLine Prod.fst touches (line sys))
    (hEarlier : ∀ item ∈ waiting sys,
      item.1 < sys.rounds.length)
    (results : List FileInfo)
    (deletes dirs failed : List String) :
    Precedence.InLine Prod.fst touches
      (line (commitStep results deletes dirs failed
        sys)) := by
  have hRound : ∀ more : List (ℕ × List Batch),
      (∀ task ∈ more, task.1 = sys.rounds.length) →
      ∀ task ∈ more.map unsent, ∀ item ∈ task,
        item.1 = sys.rounds.length := by
    intro more hMore task hTask item hItem
    rcases List.mem_map.mp hTask with ⟨posted, hIn, rfl⟩
    exact hItem.1.symm.trans (hMore posted hIn)
  have hAppend : ∀ more : List (ℕ × List Batch),
      (∀ task ∈ more, task.1 = sys.rounds.length) →
      Precedence.InLine Prod.fst touches
        (line { sys with
          sending := sys.sending ++ more }) := by
    intro more hMore
    have hSplit : line { sys with
        sending := sys.sending ++ more } =
          line sys ++ more.map unsent := by
      unfold line
      rw [List.map_append, List.append_assoc _ _
        (more.map unsent)]
    rw [hSplit]
    apply hLine.append
    · apply Precedence.inLine_of_rank_eq
      intro task hTask a hA task' hTask' b hB
      rw [hRound more hMore task hTask a hA,
        hRound more hMore task' hTask' b hB]
    · intro task hTask a hA task' hTask' b hB
      rw [hRound more hMore task' hTask' b hB]
      exact Nat.le_of_lt (hEarlier a
        (mem_waiting_iff.mpr ⟨task, hTask, hA⟩))
  unfold commitStep
  apply hAppend
  intro task hTask
  split at hTask
  · rcases List.mem_map.mp hTask with ⟨batches, -, rfl⟩
    rfl
  · cases hTask

/- A batch that is sent in turn keeps the line in order. -/
theorem inLine_sendStep
    (hLine : Precedence.InLine Prod.fst
      (fun item => Touches H node.receiving item.2)
      (line sys))
    (hTurn : InTurn H node sys (.send k))
    (hStep : sendStep k sys = some sys') :
    Precedence.InLine Prod.fst
      (fun item => Touches H node.receiving item.2)
      (line sys') := by
  unfold sendStep at hStep
  split at hStep
  next round batch rest hAt =>
    cases hStep
    have hSplit : line { sys with
        sending := sys.sending.set k (round, rest)
        channel := sys.channel ++ [(round, batch)] } =
        (sys.working.map undone ++
            sys.channel.map carried) ++
          carried (round, batch) ::
            (sys.sending.map unsent).set k
              (unsent (round, rest)) := by
      unfold line
      simp [List.map_set]
    rw [hSplit]
    apply Precedence.InLine.takeFrom
    · exact hLine
    · rw [List.getElem?_map, hAt]
      rfl
    · rintro a ⟨hA, -⟩ b ⟨hB, -⟩
      exact hA.symm.trans hB
    · rintro item ⟨hRound, hIn⟩
      exact ⟨hRound, batch, List.mem_cons_self, hIn⟩
    · rintro item ⟨hRound, other, hOther, hIn⟩
      exact ⟨hRound, other,
        List.mem_cons_of_mem _ hOther, hIn⟩
    · intro j hJ task hTask a hA b hB hLess hOverlap
      rw [List.getElem?_map, Option.map_eq_some_iff]
        at hTask
      rcases hTask with ⟨posted, hPosted, rfl⟩
      rcases hA with ⟨hRound, hIn⟩
      rcases hB with ⟨hRound', other, hOther, hIn'⟩
      refine hTurn round batch rest hAt j hJ posted hPosted
        ?_ other hOther a.2 hIn b.2 hIn' hOverlap
      rw [hRound']
      exact hLess.trans_eq hRound.symm
  next => cases hStep

/- A batch that is delivered keeps its place in the line. -/
theorem line_deliverStep
    (hRole : sys.node.role = .destination)
    (hStep : deliverStep sys = some sys') :
    line sys' = line sys := by
  have hCan : canReceive sys.node.role sys.node.mode =
      true := by
    rw [hRole]
    rfl
  unfold deliverStep at hStep
  split at hStep
  next => cases hStep
  next round batch rest hChannel =>
    cases hStep
    have hSame : undone (round, batchOps batch) =
        carried (round, batch) := by
      ext item
      exact and_congr_right
        (fun _ => exists_batchOps_iff batch)
    unfold line
    rw [if_pos hCan, hChannel]
    simp [hSame]

theorem waiting_deliverStep
    (hRole : sys.node.role = .destination)
    (hStep : deliverStep sys = some sys') :
    waiting sys' = waiting sys := by
  ext item
  rw [mem_waiting_iff, mem_waiting_iff,
    line_deliverStep hRole hStep]

/- The tasks of the receiver's pool stand in front. -/
theorem getElem?_line
    (hLess : k < sys.working.length) :
    (line sys)[k]? = sys.working[k]?.map undone := by
  unfold line
  rw [List.append_assoc, List.getElem?_append_left
    (by rw [List.length_map]; exact hLess),
    List.getElem?_map]

/- A step takes its change off, or some of it. -/
theorem inLine_workStep
    (hLine : Precedence.InLine Prod.fst touches (line sys))
    (hStep : workStep H peerId refusals k sys =
      some sys') :
    Precedence.InLine Prod.fst touches (line sys') := by
  unfold workStep at hStep
  split at hStep
  next round op rest hAt =>
    cases hStep
    rcases List.getElem?_eq_some_iff.mp hAt with ⟨hLess, -⟩
    have hPlace : (line sys)[k]? =
        some (undone (round, op :: rest)) := by
      rw [getElem?_line hLess, hAt]
      rfl
    have hFewer : undone (round, rest ++
          (perform (H.during refusals) peerId op
            sys.node).1) ⊆
        undone (round, op :: rest) := by
      rintro item ⟨hRound, hOp⟩
      exact (exists_carriedOut_iff
        (fun _ => change_of_added)).mpr
          (Or.inr ⟨hRound, hOp⟩)
    have hSet := Precedence.InLine.set hLine hPlace hFewer
    unfold line at hSet ⊢
    rw [List.append_assoc, List.set_append_left _ _
      (by rw [List.length_map]; exact hLess)] at hSet
    rw [List.map_set, List.append_assoc]
    exact hSet
  next => cases hStep

/-
  A step that is done in turn has no change of an earlier
  round to wait for, wherever that may be.
-/
theorem clear_of_inTurn
    (hLine : Precedence.InLine Prod.fst
      (fun item => Touches H node.receiving item.2)
      (line sys))
    (hTurn : InTurn H node sys (.work refusals k))
    {round : ℕ}
    {op : Op}
    {rest : List Op}
    (hAt : sys.working[k]? = some (round, op :: rest))
    {item : ℕ × Change}
    (hWaits : item ∈ waiting sys)
    (hEarlier : item.1 < round) :
    ¬ Precedence.Overlap (Touches H node.receiving)
      op.change item.2 := by
  rcases List.getElem?_eq_some_iff.mp hAt with ⟨hLess, -⟩
  rcases mem_waiting_iff.mp hWaits with
    ⟨task, hTask, hItem⟩
  have hClear : ∀ task ∈ line sys,
      Precedence.Apart Prod.fst
        (fun item => Touches H node.receiving item.2)
        {(round, op.change)} task := by
    apply Precedence.InLine.clear hLine
    · rw [getElem?_line hLess, hAt]
      rfl
    · rintro a ⟨hA, -⟩ b ⟨hB, -⟩
      exact hA.symm.trans hB
    · rintro a rfl
      exact ⟨rfl, op, List.mem_cons_self, rfl⟩
    · rintro j hJ task' hTask' a rfl b hB hLess' hOverlap
      rw [getElem?_line (hJ.trans hLess),
        Option.map_eq_some_iff] at hTask'
      rcases hTask' with ⟨posted, hPosted, rfl⟩
      rcases hB with ⟨hRound, other, hOther, hChange⟩
      refine hTurn round op rest hAt j hJ posted hPosted
        ?_ other hOther ?_
      · rw [hRound]
        exact hLess'
      · rw [hChange]
        exact hOverlap
  exact hClear task hTask (round, op.change) rfl item hItem
    hEarlier

end Line

end ChangeOrder

end VeritasSync
