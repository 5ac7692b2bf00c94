import Mathlib.Data.List.Perm.Subperm
import VeritasSync.Sync.CountedEntries
import VeritasSync.Sync.DownloadTasks
import VeritasSync.Sync.UploadLoop

/-
  The two progress counters of a transfer manager: the files
  to be transferred and those that are done, over the chunks
  of any paths and any uploads at the same time.

  Main declarations:
    * `Progress.Session`, `Progress.step`
    * `Progress.Consistent`, `Progress.StillInMap`
    * `Progress.consistent_iff`
-/

namespace VeritasSync

namespace Progress

open TransferManager

------------------------------------------------------------
-- The Session
------------------------------------------------------------

/- What is counted: an entry of a path, or an upload. -/
inductive Item where
| received (path : String) (entry : ℕ)
| sent (upload : ℕ)
deriving DecidableEq, Repr

/- A request waits for a worker, is sent, or is over. -/
inductive Sending where
| queued (request : FileRequest)
| running (u : Upload)
| over

/-
  All paths share the node.  Uploads have numbers, and keep
  their places when they are over.

  `totals` and `dones` are kept for the statements only:
  what the two counters have counted.
-/
structure Session where
  node : LocalState
  receivers : String → ChunkPhases.Receiver
  uploads : List Sending
  sessionTotal : ℕ
  sessionDone : ℕ
  totals : List Item
  dones : List Item

namespace Session

/- The receiver of a path, on the node as it is now. -/
def receiver
    (path : String)
    (s : Session) : ChunkPhases.Receiver :=
  { s.receivers path with node := s.node }

def setReceiver
    (path : String)
    (p : ChunkPhases.Receiver)
    (s : Session) : Session :=
  { s with
    node := p.node
    receivers := Function.update s.receivers path p }

def setUpload
    (n : ℕ)
    (sending : Sending)
    (s : Session) : Session :=
  { s with uploads := s.uploads.set n sending }

def addUpload
    (request : FileRequest)
    (s : Session) : Session :=
  { s with uploads := s.uploads ++ [.queued request] }

/- Count what a step adds to the total and to the done. -/
def count
    (total done : Option Item)
    (s : Session) : Session :=
  { s with
    sessionTotal := s.sessionTotal + total.toList.length
    sessionDone := s.sessionDone + done.toList.length
    totals := total.toList ++ s.totals
    dones := done.toList ++ s.dones }

end Session

/- The receiver of a path with what a restart found. -/
def restoredReceiver
    (node : LocalState)
    (recv : Option ReceivingFile) : ChunkPhases.Receiver :=
  match recv with
  | none => ChunkPhases.start node
  | some recv =>
      (ChunkPhases.start node).setCurrent (some recv)

/- The counters of a node whose entries were restored. -/
def restored (node : LocalState) : Session where
  node := node
  receivers := fun path =>
    restoredReceiver node (node.receiving.lookup path)
  uploads := []
  sessionTotal := node.receiving.keys.length
  sessionDone := 0
  totals :=
    node.receiving.keys.map (fun path => .received path 0)
  dones := []

/- A new transfer manager: every restored row is counted. -/
def opened
    (H : Host)
    (m : Downloads) : Session :=
  restored
    (loadDownloadState H { m with
      node := { m.node with receiving := ∅ } }).node

------------------------------------------------------------
-- Steps
------------------------------------------------------------

inductive Event where
| receive : String → ChunkPhases.Event → Event
| queueUpload : String → Json → Event
| beginUpload : Bool → ℕ → Event
| upload : Upload.Event → ℕ → Event

/- A cancelled timer ends an upload without counting it. -/
def uploadDone (u : Upload) : Bool :=
  match u.phase with
  | .ended .cancelled => false
  | .ended _ => true
  | _ => false

section Steps

variable
  (H : Host)
  (config : TransferConfig)

/-
  `beginUpload` tells whether the state manager is there; an
  upload whose file is missing is done at once.
-/
def step
    (s : Session) : Event → Option Session
| .receive path event =>
    let p := s.receiver path
    (ChunkPhases.step H path config.chunkDataSize p
      event).map (fun p' =>
        (s.setReceiver path p').count
          ((ChunkPhases.countsTotal H p event).map
            (.received path))
          ((ChunkPhases.countsDone H config.chunkDataSize p
            event).map (.received path)))
| .queueUpload peerId payload =>
    if peerId = "" then
      some s
    else
      match parseUploadRequest H payload with
      | none => some s
      | some request =>
          some ((s.addUpload request).count
            (some (.sent s.uploads.length)) none)
| .beginUpload managed n =>
    match s.uploads[n]? with
    | some (.queued request) =>
        let loc := H.locate request.path
        if !managed then
          some (s.setUpload n .over)
        else if Filesystem.exists? s.node.disk loc then
          some (s.setUpload n
            (.running (beginUpload request
              (StateManager.getFileHash s.node request.path)
              (fileSize s.node.disk loc))))
        else
          some ((s.setUpload n .over).count none
            (some (.sent n)))
    | _ => none
| .upload event n =>
    match s.uploads[n]? with
    | some (.running u) =>
        (u.step config event).map (fun u' =>
          (s.setUpload n (.running u')).count none
            (if uploadDone u' then some (.sent n) else none))
    | _ => none

end Steps

/-
  Every file is counted as done at most once per time it was
  counted in the total, and the counters agree.
-/
structure Consistent (s : Session) : Prop where
  once : ∀ item, s.dones.count item ≤ s.totals.count item
  le : s.sessionDone ≤ s.sessionTotal

/-
  A task that fails or finishes works on the entry that the
  map has for its path.
-/
def StillInMap
    (H : Host)
    (config : TransferConfig)
    (s : Session) : Event → Prop
| .receive path event =>
    ∀ k ∈ ChunkPhases.countsDone H config.chunkDataSize
        (s.receiver path) event,
      (s.receivers path).current = some k
| _ => True

------------------------------------------------------------
-- The Counters In Order
------------------------------------------------------------

/- The upload has not been counted as done. -/
def Sending.pending : Sending → Bool
| .queued _ => true
| .running u =>
    match u.phase with
    | .ended _ => false
    | _ => true
| .over => false

/-
  Every path has its ledger, every upload is counted when it
  is queued and not as done before it is over, and the
  counters count what is listed.
-/
structure InOrder (s : Session) : Prop where
  ledgers : ∀ path, ChunkPhases.Ledger (s.receivers path)
    (fun k => s.totals.count (.received path k))
    (fun k => s.dones.count (.received path k))
  queued : ∀ n, s.totals.count (.sent n) =
    if n < s.uploads.length then 1 else 0
  sent : ∀ n,
    s.dones.count (.sent n) ≤ s.totals.count (.sent n)
  unsent : ∀ n sending, s.uploads[n]? = some sending →
    sending.pending = true →
    s.dones.count (.sent n) = 0
  total : s.sessionTotal = s.totals.length
  done : s.sessionDone = s.dones.length

section Order

variable
  {H : Host}
  {config : TransferConfig}
  {s s' : Session}

theorem count_toList_append
    (counted : Option Item)
    (items : List Item)
    (item : Item) :
    (counted.toList ++ items).count item =
      items.count item +
        if counted = some item then 1 else 0 := by
  cases counted with
  | none => simp
  | some other => simp [List.count_cons]

theorem consistent_of_inOrder (hOrder : InOrder s) :
    Consistent s := by
  have hOnce : ∀ item,
      s.dones.count item ≤ s.totals.count item := by
    intro item
    cases item with
    | received path k => exact (hOrder.ledgers path).dones_le k
    | sent n => exact hOrder.sent n
  have hSubperm : List.Subperm s.dones s.totals :=
    List.subperm_ext_iff.mpr (fun item _ => hOnce item)
  refine ⟨hOnce, ?_⟩
  rw [hOrder.total, hOrder.done]
  exact hSubperm.length_le

/- A step of one path counts entries of that path only. -/
theorem count_map_received
    (counted : Option ℕ)
    (items : List Item)
    (path other : String)
    (k : ℕ) :
    ((counted.map (Item.received path)).toList ++
        items).count (.received other k) =
      if other = path then
        ChunkPhases.countUp counted
          (fun k => items.count (.received path k)) k
      else
        items.count (.received other k) := by
  rw [count_toList_append, ChunkPhases.countUp]
  by_cases hPath : other = path
  · subst hPath
    simp
  · simp [hPath, Ne.symm hPath]

theorem count_map_received_sent
    (counted : Option ℕ)
    (items : List Item)
    (path : String)
    (n : ℕ) :
    ((counted.map (Item.received path)).toList ++
        items).count (.sent n) = items.count (.sent n) := by
  rw [count_toList_append]
  simp

/- The ledgers when a step of one path has counted. -/
theorem InOrder.receive
    (hOrder : InOrder s)
    {path : String}
    {p : ChunkPhases.Receiver}
    {total done : Option ℕ}
    (hLedger : ChunkPhases.Ledger p
      (ChunkPhases.countUp total
        (fun k => s.totals.count (.received path k)))
      (ChunkPhases.countUp done
        (fun k => s.dones.count (.received path k)))) :
    InOrder ((s.setReceiver path p).count
      (total.map (.received path))
      (done.map (.received path))) := by
  constructor
  case ledgers =>
    intro other
    simp only [Session.count, Session.setReceiver,
      count_map_received]
    by_cases hPath : other = path
    · subst hPath
      simp only [Function.update_self, if_true]
      exact hLedger
    · simp only [Function.update_of_ne hPath, hPath,
        if_false]
      exact hOrder.ledgers other
  case queued =>
    intro n
    simp only [Session.count, Session.setReceiver,
      count_map_received_sent]
    exact hOrder.queued n
  case sent =>
    intro n
    simp only [Session.count, Session.setReceiver,
      count_map_received_sent]
    exact hOrder.sent n
  case unsent =>
    intro n sending hSending hPending
    simp only [Session.count, Session.setReceiver,
      count_map_received_sent]
    exact hOrder.unsent n sending hSending hPending
  case total =>
    simp [Session.count, Session.setReceiver, hOrder.total]
    omega
  case done =>
    simp [Session.count, Session.setReceiver, hOrder.done]
    omega

/- A request that is queued is counted. -/
theorem InOrder.queue
    (hOrder : InOrder s)
    (request : FileRequest) :
    InOrder ((s.addUpload request).count
      (some (.sent s.uploads.length)) none) := by
  have hNew := hOrder.queued s.uploads.length
  rw [if_neg (Nat.lt_irrefl _)] at hNew
  constructor
  case ledgers =>
    intro path
    simpa [Session.count, Session.addUpload] using
      hOrder.ledgers path
  case queued =>
    intro n
    simp only [Session.count, Session.addUpload,
      count_toList_append, hOrder.queued n,
      List.length_append, List.length_singleton,
      Option.some.injEq, Item.sent.injEq]
    split_ifs <;> omega
  case sent =>
    intro n
    have hLe := hOrder.sent n
    simp only [Session.count, Session.addUpload,
      count_toList_append, Option.toList_none,
      List.nil_append]
    omega
  case unsent =>
    intro n sending hSending hPending
    simp only [Session.count, Session.addUpload,
      Option.toList_none, List.nil_append] at hSending ⊢
    rw [List.getElem?_append] at hSending
    split at hSending
    next => exact hOrder.unsent n sending hSending hPending
    next hBeyond =>
      have hLe := hOrder.sent n
      rw [hOrder.queued n, if_neg hBeyond] at hLe
      omega
  case total =>
    simp [Session.count, Session.addUpload, hOrder.total]
  case done =>
    simp [Session.count, Session.addUpload, hOrder.done]

/- An upload under way goes on, or is over and counted. -/
theorem InOrder.setUpload
    (hOrder : InOrder s)
    {n : ℕ}
    {old sending : Sending}
    (hOld : s.uploads[n]? = some old)
    (hPending : old.pending = true)
    (counted : Bool)
    (hCounted : sending.pending = true →
      counted = false) :
    InOrder ((s.setUpload n sending).count none
      (if counted then some (.sent n) else none)) := by
  have hZero := hOrder.unsent n old hOld hPending
  have hOthers : ∀ j, j ≠ n →
      (if counted = true then some (Item.sent n) else none) ≠
        some (.sent j) := by
    intro j hJ
    cases counted with
    | true => simpa using Ne.symm hJ
    | false => simp
  have hInside : n < s.uploads.length :=
    (List.getElem?_eq_some_iff.mp hOld).choose
  have hOne := hOrder.queued n
  rw [if_pos hInside] at hOne
  constructor
  case ledgers =>
    intro path
    cases counted with
    | true =>
        simpa [Session.count, Session.setUpload] using
          hOrder.ledgers path
    | false => exact hOrder.ledgers path
  case queued =>
    intro j
    simp only [Session.count, Session.setUpload,
      Option.toList_none, List.nil_append,
      List.length_set]
    exact hOrder.queued j
  case sent =>
    intro j
    have hLe := hOrder.sent j
    simp only [Session.count, Session.setUpload,
      count_toList_append, Option.toList_none,
      List.nil_append]
    by_cases hJ : j = n
    · subst hJ
      cases counted with
      | true => simp [hZero, hOne]
      | false => simp [hZero]
    · rw [if_neg (hOthers j hJ)]
      exact hLe
  case unsent =>
    intro j other hOther hOpen
    simp only [Session.count, Session.setUpload,
      count_toList_append] at hOther ⊢
    by_cases hJ : j = n
    · subst hJ
      rw [List.getElem?_set_self hInside,
        Option.some.injEq] at hOther
      rw [← hOther] at hOpen
      rw [hCounted hOpen, hZero]
      simp
    · rw [List.getElem?_set_ne (Ne.symm hJ)] at hOther
      rw [if_neg (hOthers j hJ)]
      exact hOrder.unsent j other hOther hOpen
  case total => exact hOrder.total
  case done =>
    simp [Session.count, Session.setUpload, hOrder.done]
    omega

/- Only an upload that has not ended takes a step. -/
theorem pending_of_step
    {u u' : Upload}
    {event : Upload.Event}
    (hStep : u.step config event = some u') :
    (Sending.running u).pending = true := by
  have hPhase : u.phase = .ready ∨ u.phase = .waiting := by
    rcases Upload.step_cases hStep with
      ⟨_, -, hReady, -⟩ | ⟨_, _, _, -, hReady, -⟩ |
      ⟨_, -, hReady, -⟩ | ⟨_, -, hWaiting, -⟩
    · exact Or.inl hReady
    · exact Or.inl hReady
    · exact Or.inl hReady
    · exact Or.inr hWaiting
  unfold Sending.pending
  rcases hPhase with hReady | hWaiting
  · simp [hReady]
  · simp [hWaiting]

theorem not_uploadDone_of_pending
    (u : Upload)
    (hPending : (Sending.running u).pending = true) :
    uploadDone u = false := by
  unfold uploadDone
  cases hPhase : u.phase with
  | ready => rfl
  | waiting => rfl
  | ended ending => simp [Sending.pending, hPhase] at hPending

/- A step keeps the order if it counts what the map has. -/
theorem inOrder_of_step
    {event : Event}
    (hOrder : InOrder s)
    (hStill : StillInMap H config s event)
    (hStep : step H config s event = some s') :
    InOrder s' := by
  cases event with
  | receive path event =>
      simp only [step, Option.map_eq_some_iff] at hStep
      rcases hStep with ⟨p', hNext, hEq⟩
      rw [← hEq]
      apply hOrder.receive
      exact ChunkPhases.ledger_of_step
        ((hOrder.ledgers path).onNode s.node) hStill hNext
  | queueUpload peerId payload =>
      simp only [step] at hStep
      split at hStep
      · cases hStep
        exact hOrder
      · split at hStep
        · cases hStep
          exact hOrder
        · cases hStep
          exact hOrder.queue _
  | beginUpload managed n =>
      simp only [step] at hStep
      split at hStep
      next request hOld =>
        split at hStep
        · cases hStep
          exact hOrder.setUpload hOld rfl false
            (fun _ => rfl)
        · split at hStep
          · cases hStep
            exact hOrder.setUpload hOld rfl false
              (fun _ => rfl)
          · cases hStep
            exact hOrder.setUpload hOld rfl true
              (fun hOver => by cases hOver)
      next => cases hStep
  | upload event n =>
      simp only [step] at hStep
      split at hStep
      next u hOld =>
        rw [Option.map_eq_some_iff] at hStep
        rcases hStep with ⟨u', hNext, hEq⟩
        rw [← hEq]
        apply hOrder.setUpload hOld
        · exact pending_of_step hNext
        · exact not_uploadDone_of_pending u'
      next => cases hStep

/- An entry outside the map is counted a second time. -/
theorem not_consistent_of_step
    {event : Event}
    (hOrder : InOrder s)
    (hGone : ¬ StillInMap H config s event)
    (hStep : step H config s event = some s') :
    ¬ Consistent s' := by
  cases event with
  | receive path event =>
      simp only [StillInMap, not_forall] at hGone
      rcases hGone with ⟨k, hCounts, hGone⟩
      rcases ChunkPhases.exists_step_of_countsDone path
        hCounts with ⟨-, hTotal, task, hTask, hEntry⟩
      simp only [step, Option.map_eq_some_iff] at hStep
      rcases hStep with ⟨p', -, hEq⟩
      have hLedger := hOrder.ledgers path
      have hOne := (hLedger.started task hTask).2
      have hDone := hLedger.past task hTask
        (by rw [hEntry]; exact hGone)
      rw [hEntry] at hOne hDone
      intro hConsistent
      have hTwice := hConsistent.once (.received path k)
      rw [← hEq] at hTwice
      simp only [Session.count, Session.setReceiver,
        hTotal, Option.mem_def.mp hCounts,
        count_map_received, if_true, ChunkPhases.countUp_none,
        ChunkPhases.countUp_self] at hTwice
      omega
  | queueUpload peerId payload => exact absurd trivial hGone
  | beginUpload managed n => exact absurd trivial hGone
  | upload event n => exact absurd trivial hGone

/- A step that cannot be taken counts nothing. -/
theorem stillInMap_of_stuck
    {event : Event}
    (hStuck : step H config s event = none) :
    StillInMap H config s event := by
  cases event with
  | receive path event =>
      intro k hCounts
      rcases ChunkPhases.exists_step_of_countsDone path
        hCounts with ⟨⟨p', hNext⟩, -⟩
      simp [step, hNext] at hStuck
  | queueUpload peerId payload => trivial
  | beginUpload managed n => trivial
  | upload event n => trivial

end Order

------------------------------------------------------------
-- Runs
------------------------------------------------------------

/- Restored entries have a temporary file. -/
theorem tempPath_of_restored
    {H : Host}
    {m : Downloads}
    {path : String}
    {recv : ReceivingFile}
    (hEmpty : m.node.receiving = ∅)
    (hRecv : (loadDownloadState H m).node.receiving.lookup
      path = some recv) :
    recv.tempPath ≠ "" := by
  cases hAttached : m.attached with
  | false =>
      simp [loadDownloadState, hAttached, hEmpty] at hRecv
  | true =>
      rw [lookup_receiving_load hAttached, hEmpty] at hRecv
      split at hRecv
      next task =>
        split at hRecv
        next hFound =>
          rw [← Option.some.inj hRecv]
          simp only [tempFound, Bool.and_eq_true,
            bne_iff_ne] at hFound
          exact hFound.1
        next => simp at hRecv
      next => simp at hRecv

theorem count_restored
    (node : LocalState)
    (path : String)
    (k : ℕ) :
    (restored node).totals.count (.received path k) =
      if path ∈ node.receiving ∧ k = 0 then 1 else 0 := by
  by_cases hZero : k = 0
  · subst hZero
    have hInjective : Function.Injective
        (fun path : String => Item.received path 0) := by
      intro a b hSame
      cases hSame
      rfl
    have hCount := List.count_map_of_injective
      node.receiving.keys _ hInjective path
    simp only [restored, hCount, and_true, AList.mem_keys]
    exact List.Nodup.count node.receiving.keys_nodup
  · rw [if_neg (fun hBoth => hZero hBoth.2),
      List.count_eq_zero]
    intro hMem
    rcases List.mem_map.mp hMem with ⟨other, -, hSame⟩
    cases hSame
    exact hZero rfl

theorem inOrder_opened
    (H : Host)
    (m : Downloads) :
    InOrder (opened H m) := by
  constructor
  case ledgers =>
    intro path
    rw [opened]
    simp only [count_restored]
    cases hRecv : (loadDownloadState H { m with
        node := { m.node with
          receiving := ∅ } }).node.receiving.lookup path with
    | none =>
        have hNot := AList.lookup_eq_none.mp hRecv
        simp only [restored, hRecv, hNot, false_and, if_false]
        exact ChunkPhases.ledger_start _
    | some recv =>
        have hMem := AList.lookup_isSome.mp
          (Option.isSome_of_eq_some hRecv)
        have hTemp := tempPath_of_restored rfl hRecv
        simp only [restored, hRecv, hMem, true_and]
        apply (ChunkPhases.ledger_start _).put
        · exact fun hNone => absurd hNone hTemp
        · exact fun _ hNone => by cases hNone
        · rw [if_neg hTemp]
          rfl
        · exact Nat.zero_le _
        · exact fun k hK => if_neg hK
  case queued =>
    intro n
    simp [opened, restored, List.count_eq_zero]
  case sent =>
    intro n
    exact Nat.zero_le _
  case unsent =>
    intro n sending hSending
    cases hSending
  case total => simp [opened, restored]
  case done => rfl

/-
  In a run the counters stay consistent exactly when every
  task that fails or finishes does so on the entry that the
  map has for its path.
-/
theorem consistent_iff
    (H : Host)
    (config : TransferConfig)
    (m : Downloads)
    (events : List Event) :
    Transition.Always (step H config) Consistent
        (opened H m) events ↔
      Transition.Meets (step H config)
        (StillInMap H config) (opened H m) events := by
  apply Transition.always_iff_meets
  · exact fun _ => consistent_of_inOrder
  · exact fun _ _ _ => inOrder_of_step
  · exact fun _ _ _ => not_consistent_of_step
  · exact fun _ _ => stillInMap_of_stuck
  · exact inOrder_opened H m

/- The only chunk of a file comes from two peers. -/
def oneChunk : ChunkHeader where
  filePath := "a.txt"
  chunkIndex := 0
  totalChunks := 1
  uncompressedData := [97]
  valid := true

/- One task finishes the file while the other one waits. -/
def receivedTwice : List Event :=
  [.receive "a.txt" (.lookup .none oneChunk "first"),
    .receive "a.txt" (.lookup .none oneChunk "second"),
    .receive "a.txt" (.prepare .none 0),
    .receive "a.txt" (.store .none 0),
    .receive "a.txt" (.finalize .none 0),
    .receive "a.txt" (.erase 0),
    .receive "a.txt" (.prepare .none 0)]

theorem counted_twice :
    ∃ s,
      Transition.run (step Host.plain ⟨1024, 5⟩)
          (opened Host.plain
            { node := LocalState.empty Host.plain
                .destination .oneWay
              tasks := ∅
              attached := true }) receivedTwice = some s ∧
      s.sessionTotal = 1 ∧
      s.sessionDone = 2 ∧
      ¬ Consistent s := by
  refine ⟨_, rfl, rfl, rfl, ?_⟩
  intro hConsistent
  exact absurd hConsistent.le (by decide)

end Progress

end VeritasSync
