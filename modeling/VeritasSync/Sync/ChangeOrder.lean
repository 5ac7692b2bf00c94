import VeritasSync.Library.Precedence
import VeritasSync.Library.Transition
import VeritasSync.P2p.BroadcastManager
import VeritasSync.Storage.CommitChanges

/-
  Local changes on their way from a source to a receiver:
  committed in rounds, posted to the worker pool of the
  source, sent over an ordered channel, and posted to the
  worker pool of the receiver.

  Main declarations:
    * `Change`, `Batch.changes`
    * `SyncHandler.Op`, `SyncHandler.perform`
    * `ChangeOrder.System`, `ChangeOrder.step`
    * `ChangeOrder.Effect`, `ChangeOrder.LastChangeWins`
    * `ChangeOrder.InTurn`
-/

namespace VeritasSync

open StateManager BroadcastManager TransferManager
open PathUtils

------------------------------------------------------------
-- Changes
------------------------------------------------------------

inductive Change where
| update : FileInfo → Change
| deleteFile : String → Change
| createDir : String → Change
| deleteDir : String → Change
deriving DecidableEq, Repr

namespace StateManager

/- The changes of a round.  An update names its file. -/
def Committed.changes (c : Committed) : List Change :=
  (SyncHandler.namedFiles c.fileUpdates).map .update ++
    c.fileDeletes.map .deleteFile ++
    c.dirCreates.map .createDir ++
    c.dirDeletes.map .deleteDir

end StateManager

namespace Batch

/- The changes that a receiver reads from a batch. -/
def changes : Batch → List Change
| .fileUpdates files =>
    (SyncHandler.namedFiles files).map .update
| .fileDeletes paths => paths.map .deleteFile
| .dirs creates deletes =>
    creates.map .createDir ++ deletes.map .deleteDir

end Batch

namespace BroadcastManager

/-
  The tasks that the callbacks of one round post: one for
  the updates, the deletions and the directories each, if
  there are any.
-/
def commitBroadcasts (c : Committed) : List (List Batch) :=
  [broadcastFileUpdatesBatch c.fileUpdates,
    broadcastFileDeletesBatch c.fileDeletes,
    broadcastDirChangesBatch c.dirCreates
      c.dirDeletes].filter (fun batches => !batches.isEmpty)

end BroadcastManager

------------------------------------------------------------
-- The Operations Of A Task
------------------------------------------------------------

namespace SyncHandler

/-
  What a task of the worker pool does step by step.  Another
  task can come between two steps.
-/
inductive Op where
| process : FileInfo → Op
| request : FileInfo → Op
| deleteFile : String → Op
| createDir : String → Op
| deleteTree : String → Op
deriving DecidableEq, Repr

/- The change that a step belongs to. -/
def Op.change : Op → Change
| .process info => .update info
| .request info => .update info
| .deleteFile path => .deleteFile path
| .createDir path => .createDir path
| .deleteTree path => .deleteDir path

/- The steps that handling a batch posts. -/
def batchOps : Batch → List Op
| .fileUpdates files => (namedFiles files).map .process
| .fileDeletes paths => paths.map .deleteFile
| .dirs creates deletes =>
    creates.map .createDir ++
      (sortByLength deletes).map .deleteTree

/- Nothing is done while the root cannot be resolved. -/
def whenResolved
    (H : Host)
    (act : LocalState → LocalState)
    (s : LocalState) : LocalState :=
  if H.canonicalFails "" then s else act s

/-
  One step, and the steps it adds at the end of its task: a
  file that is wanted is requested after all the files of
  the batch were looked at.
-/
def perform
    (H : Host)
    (peerId : String) :
    Op → LocalState → List Op × LocalState
| .process info, s =>
    let processed := processSingleFile H peerId info s
    (processed.1.toList.map .request, processed.2)
| .request info, s => ([], requestFile H peerId s info)
| .deleteFile path, s =>
    ([], whenResolved H (deleteSafeFile H · path) s)
| .createDir path, s =>
    ([], whenResolved H (createBatchDir H · path) s)
| .deleteTree path, s =>
    ([], whenResolved H (deleteSafeTree H · path) s)

/- The next step of a task. -/
def advance
    (H : Host)
    (peerId : String) :
    List Op × LocalState → List Op × LocalState
| ([], s) => ([], s)
| (op :: rest, s) =>
    let performed := perform H peerId op s
    (rest ++ performed.1, performed.2)

/- The task that the handler of a batch posts. -/
def batchTask : Batch → Task
| .fileUpdates files => .updateBatch (namedFiles files)
| .fileDeletes paths => .deleteBatch paths
| .dirs creates deletes => .dirBatch creates deletes

end SyncHandler

namespace SyncHandler

section Alone

variable
  (H : Host)
  (peerId : String)

theorem iterate_advance_cons
    (op : Op)
    (rest : List Op)
    (s : LocalState)
    (n : ℕ) :
    (advance H peerId)^[n + 1] (op :: rest, s) =
      (advance H peerId)^[n]
        (rest ++ (perform H peerId op s).1,
          (perform H peerId op s).2) := rfl

/- Steps that add none are a loop over their changes. -/
theorem iterate_advance_foldl
    {α : Type}
    (op : α → Op)
    (act : LocalState → α → LocalState)
    (hPerform : ∀ item s,
      perform H peerId (op item) s = ([], act s item))
    (items : List α)
    (rest : List Op)
    (s : LocalState) :
    (advance H peerId)^[items.length]
        (items.map op ++ rest, s) =
      (rest, items.foldl act s) := by
  induction items generalizing s with
  | nil => rfl
  | cons item items ih =>
      rw [List.length_cons, List.map_cons, List.cons_append,
        iterate_advance_cons, hPerform, List.append_nil]
      exact ih (act s item)

/- The files are looked at, and requests are added. -/
theorem iterate_advance_process
    (files : List FileInfo)
    (added : List Op)
    (s : LocalState) :
    (advance H peerId)^[files.length]
        (files.map .process ++ added, s) =
      (added ++ (processFiles H peerId files s).1.map
          .request,
        (processFiles H peerId files s).2) := by
  induction files generalizing added s with
  | nil => simp [processFiles]
  | cons info rest ih =>
      rw [List.length_cons, List.map_cons, List.cons_append,
        iterate_advance_cons, List.append_assoc, ih]
      simp [perform, processFiles]

theorem whenResolved_foldl
    {α : Type}
    (act : LocalState → α → LocalState)
    (items : List α)
    (s : LocalState) :
    items.foldl
        (fun s item => whenResolved H (act · item) s) s =
      if H.canonicalFails "" then
        s
      else
        items.foldl act s := by
  unfold whenResolved
  cases H.canonicalFails "" with
  | true =>
      simp only [if_true]
      induction items with
      | nil => rfl
      | cons item rest ih => exact ih
  | false => rfl

/-
  Left alone, the steps of a batch do what the task that its
  handler posts does.
-/
theorem iterate_advance_batchOps
    (batch : Batch)
    (s : LocalState) :
    ∃ n, (advance H peerId)^[n] (batchOps batch, s) =
      ([], runTask H peerId (batchTask batch) s) := by
  cases batch with
  | fileUpdates files =>
      have hProcess := iterate_advance_process H peerId
        (namedFiles files) [] s
      have hRequest := iterate_advance_foldl H peerId
        .request (requestFile H peerId) (fun _ _ => rfl)
        (processFiles H peerId (namedFiles files) s).1 []
        (processFiles H peerId (namedFiles files) s).2
      rw [List.append_nil, List.nil_append] at hProcess
      rw [List.append_nil] at hRequest
      refine ⟨(processFiles H peerId (namedFiles files)
        s).1.length + (namedFiles files).length, ?_⟩
      rw [Function.iterate_add_apply, batchOps, hProcess,
        hRequest]
      rfl
  | fileDeletes paths =>
      have hDelete := iterate_advance_foldl H peerId
        .deleteFile
        (fun s path =>
          whenResolved H (deleteSafeFile H · path) s)
        (fun _ _ => rfl) paths [] s
      rw [List.append_nil, whenResolved_foldl] at hDelete
      exact ⟨_, hDelete⟩
  | dirs creates deletes =>
      have hCreate := iterate_advance_foldl H peerId
        .createDir
        (fun s path =>
          whenResolved H (createBatchDir H · path) s)
        (fun _ _ => rfl) creates
        ((sortByLength deletes).map .deleteTree) s
      have hDelete := iterate_advance_foldl H peerId
        .deleteTree
        (fun s path =>
          whenResolved H (deleteSafeTree H · path) s)
        (fun _ _ => rfl) (sortByLength deletes) []
        (creates.foldl
          (fun s path =>
            whenResolved H (createBatchDir H · path) s) s)
      rw [List.append_nil] at hDelete
      refine ⟨(sortByLength deletes).length +
        creates.length, ?_⟩
      rw [Function.iterate_add_apply, batchOps, hCreate,
        hDelete, whenResolved_foldl, whenResolved_foldl]
      unfold runTask batchTask dirBatch
      cases H.canonicalFails "" with
      | true => rfl
      | false => rfl

end Alone

/- The handler of a batch posts its task. -/
theorem posted_dispatch_message
    (p : PeerSession)
    (batch : Batch)
    (hReceive : canReceive p.role p.mode = true)
    (hNone : p.accumulator = none) :
    (MessageRouter.dispatch p batch.message).posted =
      p.posted ++ [batchTask batch] := by
  have hPosts : ∀ task update,
      (checkInSession ((accumulate update p).post
        task)).posted = p.posted ++ [task] := by
    intro task update
    simp [checkInSession, checkAndRunCompletion, accumulate,
      PeerSession.post, hNone]
  unfold MessageRouter.dispatch
  rw [if_pos hReceive]
  cases batch with
  | fileUpdates files => exact hPosts _ _
  | fileDeletes paths => rfl
  | dirs creates deletes => exact hPosts _ _

end SyncHandler

open SyncHandler

namespace ChangeOrder

------------------------------------------------------------
-- The System
------------------------------------------------------------

/- A step that was performed, for a change of a round. -/
structure Performed where
  round : ℕ
  op : Op
  refusals : Refusals
  before : LocalState

/- The receiver right after the step. -/
def Performed.after
    (H : Host)
    (peerId : String)
    (e : Performed) : LocalState :=
  (perform (H.during e.refusals) peerId e.op e.before).2

/-
  `rounds` and `log` are kept for the statements only, and
  so is the number of the round at every batch and task.
-/
structure System where
  source : LocalState
  rounds : List (List Change)
  sending : List (ℕ × List Batch)
  channel : List (ℕ × Batch)
  working : List (ℕ × List Op)
  node : LocalState
  log : List Performed

def start (source node : LocalState) : System where
  source := { source with role := .source }
  rounds := []
  sending := []
  channel := []
  working := []
  node := { node with role := .destination }
  log := []

/-
  `send k` lets the `k`-th task of the source's pool send
  its next batch, and `work k` the `k`-th task of the
  receiver's pool do its next step.
-/
inductive Event where
| commit : List FileInfo → List String → List String →
    List String → Event
| send : ℕ → Event
| deliver : Event
| work : Refusals → ℕ → Event

section Steps

variable
  (H : Host)
  (peerId : String)

def commitStep
    (results : List FileInfo)
    (deletes dirs failed : List String)
    (sys : System) : System :=
  let committed :=
    commitChanges results deletes dirs failed sys.source
  { sys with
    source := committed.2
    rounds := sys.rounds ++ [committed.1.changes]
    sending := sys.sending ++
      if canBroadcast sys.source.role sys.source.mode then
        (commitBroadcasts committed.1).map
          (fun batches => (sys.rounds.length, batches))
      else
        [] }

def sendStep
    (k : ℕ)
    (sys : System) : Option System :=
  match sys.sending[k]? with
  | some (round, batch :: rest) =>
      some
        { sys with
          sending := sys.sending.set k (round, rest)
          channel := sys.channel ++ [(round, batch)] }
  | _ => none

def deliverStep (sys : System) : Option System :=
  match sys.channel with
  | [] => none
  | (round, batch) :: rest =>
      some
        { sys with
          channel := rest
          working := sys.working ++
            if canReceive sys.node.role sys.node.mode then
              [(round, batchOps batch)]
            else
              [] }

def workStep
    (refusals : Refusals)
    (k : ℕ)
    (sys : System) : Option System :=
  match sys.working[k]? with
  | some (round, op :: rest) =>
      let performed :=
        perform (H.during refusals) peerId op sys.node
      some
        { sys with
          working := sys.working.set k
            (round, rest ++ performed.1)
          node := performed.2
          log := sys.log ++
            [⟨round, op, refusals, sys.node⟩] }
  | _ => none

def step
    (sys : System) : Event → Option System
| .commit results deletes dirs failed =>
    some (commitStep results deletes dirs failed sys)
| .send k => sendStep k sys
| .deliver => deliverStep sys
| .work refusals k => workStep H peerId refusals k sys

end Steps

/- Every batch was sent, delivered and handled. -/
structure Settled (sys : System) : Prop where
  sending : ∀ task ∈ sys.sending, task.2 = []
  channel : sys.channel = []
  working : ∀ task ∈ sys.working, task.2 = []

/- The changes that are still to be carried out. -/
def waiting (sys : System) : Set (ℕ × Change) :=
  { item |
    (∃ task ∈ sys.sending, task.1 = item.1 ∧
      ∃ batch ∈ task.2, item.2 ∈ batch.changes) ∨
    (∃ sent ∈ sys.channel, sent.1 = item.1 ∧
      item.2 ∈ sent.2.changes) ∨
    (∃ task ∈ sys.working, task.1 = item.1 ∧
      ∃ op ∈ task.2, op.change = item.2) }

------------------------------------------------------------
-- What A Change Touches
------------------------------------------------------------

/-
  The paths that carrying out a change can alter: its own,
  what lies below it when a tree is removed or moved aside,
  the directories above one that is created, the conflict
  copies of an updated file, and the partial content of the
  download that the receiver had begun for it.
-/
def Touches
    (H : Host)
    (begun : AList (fun _ : String => ReceivingFile)) :
    Change → String → Prop
| .update info, path =>
    H.locate info.path <+: H.locate path ∨
      (∃ now, H.locate
        (conflictPath { H with now := now } info.path) <+:
          H.locate path) ∨
      ∃ recv, begun.lookup info.path = some recv ∧
        H.locate recv.tempPath = H.locate path
| .deleteFile other, path =>
    H.locate other = H.locate path
| .createDir other, path =>
    H.locate path <+: H.locate other
| .deleteDir other, path =>
    H.locate other <+: H.locate path

/- What is there of a path at the receiver. -/
structure PathView where
  node : Option (Node File)
  tracked : Option FileInfo
  listed : Bool
  requests : List FileRequest
deriving DecidableEq

def requestsFor (path : String) : Action → Option FileRequest
| .requested request =>
    if request.path = path then some request else none
| _ => none

def view
    (H : Host)
    (s : LocalState)
    (path : String) : PathView where
  node := s.disk.lookup (H.locate path)
  tracked := s.fileMap.lookup path
  listed := s.dirMap.contains path
  requests := s.actions.filterMap (requestsFor path)

------------------------------------------------------------
-- What A Change Comes To
------------------------------------------------------------

/- The receiver resolves its root and accepts the name. -/
def Permitted
    (H : Host)
    (path : String) : Prop :=
  H.canonicalFails "" = false ∧
    isPathSafeWithCanonicalRoot H path = true

/-
  A file in conflict with the announced one, which cannot be
  moved aside.
-/
structure Stuck
    (H : Host)
    (peerId : String)
    (info : FileInfo)
    (s : LocalState) : Prop where
  present : s.disk.lookup (H.locate info.path) ≠ none
  base : getBaseHash s peerId info.path ≠ ""
  localChanged :
    calculateSHA256 H s.disk (H.locate info.path) ≠
      getBaseHash s peerId info.path
  remoteChanged :
    info.hash ≠ getBaseHash s peerId info.path
  refused :
    Filesystem.rename H s.disk (H.locate info.path)
      (H.locate (conflictPath H info.path)) = none

/-
  An announced file is not asked for when its digest is the
  one last recorded, when the local file is known to have
  it, or when a conflicting file is stuck.
-/
def Unneeded
    (H : Host)
    (peerId : String)
    (info : FileInfo)
    (s : LocalState) : Prop :=
  let checked := checkedState H info s
  shouldIgnoreEcho checked peerId info.path info.hash =
      true ∨
    (checked.disk.lookup (H.locate info.path) ≠ none ∧
      knownEqual H info checked = true) ∨
    Stuck H peerId info checked

/-
  After an update the file is asked for, unless it need not
  be, and nothing of it is deleted.
-/
structure Updated
    (H : Host)
    (peerId : String)
    (info : FileInfo)
    (s : LocalState)
    (now : PathView) : Prop where
  asked :
    (∃ request, request.path = info.path ∧
      now.requests =
        (view H s info.path).requests ++ [request]) ∨
    Unneeded H peerId info s ∧
      now.requests = (view H s info.path).requests
  kept :
    now.node = (view H s info.path).node ∨
      ∃ recv, s.receiving.lookup info.path = some recv ∧
        H.locate recv.tempPath = H.locate info.path

/- Nothing keeps a single node from being removed. -/
structure Removable
    (H : Host)
    (path : String)
    (s : LocalState) : Prop where
  permitted : Permitted H path
  allowed : H.removeFails (H.locate path) = false
  childless :
    FileTree.hasChild s.disk (H.locate path) = false

/-
  After a deletion the path is gone, with its entry if there
  was something to remove, and not asked for.
-/
structure FileDeleted
    (H : Host)
    (other path : String)
    (s : LocalState)
    (now : PathView) : Prop where
  gone : Removable H other s → now.node = none
  forgotten : Removable H other s → path = other →
    (view H s path).node ≠ none → now.tracked = none
  silent : now.requests = (view H s path).requests

/- Nothing keeps a directory from being created. -/
structure Creatable
    (H : Host)
    (path : String)
    (s : LocalState) : Prop where
  permitted : Permitted H path
  allowed : H.createFails (H.locate path) = false
  free : FileTree.blocked s.disk (H.locate path) = false

/- After a creation the directory is there and tracked. -/
structure DirCreated
    (H : Host)
    (other path : String)
    (s : LocalState)
    (now : PathView) : Prop where
  stands : Creatable H other s → now.node = some .dir
  tracked : Creatable H other s → path = other →
    now.listed = true
  silent : now.requests = (view H s path).requests

/-
  After a recursive deletion all is gone that the host lets
  go, and the directory is forgotten once it is.
-/
structure DirDeleted
    (H : Host)
    (other path : String)
    (s : LocalState)
    (now : PathView) : Prop where
  gone : Permitted H other →
    Filesystem.survivor H s.disk (H.locate other)
      (H.locate path) = false →
    now.node = none
  forgotten : Permitted H other →
    Filesystem.removeAllFails H s.disk (H.locate other) =
      false →
    path = other → now.listed = false
  silent : now.requests = (view H s path).requests

/-
  What a change asks for at a path that it touches, in the
  state `s` in which it is carried out.  Of an update only
  its own path is of interest.
-/
def Effect
    (H : Host)
    (peerId : String)
    (change : Change)
    (path : String)
    (s : LocalState)
    (now : PathView) : Prop :=
  match change with
  | .update info =>
      path = info.path → Updated H peerId info s now
  | .deleteFile other => FileDeleted H other path s now
  | .createDir other => DirCreated H other path s now
  | .deleteDir other => DirDeleted H other path s now

------------------------------------------------------------
-- The Property
------------------------------------------------------------

/-
  What is there of a path is what the last of the changes
  that touch it asks for; the last one to be carried out is
  of the last round that has one, and nothing was done to
  the path after it.
-/
structure LastChangeWins
    (H : Host)
    (peerId : String)
    (node : LocalState)
    (sys : System) : Prop where
  untouched : ∀ path,
    (∀ changes ∈ sys.rounds, ∀ change ∈ changes,
      ¬ Touches H node.receiving change path) →
    view H sys.node path = view H node path
  last : ∀ path round changes,
    sys.rounds[round]? = some changes →
    (∃ change ∈ changes,
      Touches H node.receiving change path) →
    (∀ later changes', round < later →
      sys.rounds[later]? = some changes' →
      ∀ change ∈ changes',
        ¬ Touches H node.receiving change path) →
    ∃ e,
      Precedence.LastTouch
        (fun e => Touches H node.receiving e.op.change)
        sys.log path e ∧
      e.round = round ∧
      e.op.change ∈ changes ∧
      view H sys.node path =
        view H (e.after H peerId) path ∧
      Effect (H.during e.refusals) peerId e.op.change path
        e.before (view H sys.node path)

/-
  Each pool keeps the order in which tasks were posted to
  it: it takes nothing up that touches a path in common with
  what is left of a task of an earlier round before it.
-/
def InTurn
    (H : Host)
    (node : LocalState)
    (sys : System) : Event → Prop
| .send k =>
    ∀ round batch rest,
      sys.sending[k]? = some (round, batch :: rest) →
      ∀ j < k, ∀ task, sys.sending[j]? = some task →
        task.1 < round → ∀ left ∈ task.2,
          ∀ change ∈ batch.changes,
            ∀ earlier ∈ left.changes,
              ¬ Precedence.Overlap
                (Touches H node.receiving) change earlier
| .work _ k =>
    ∀ round op rest,
      sys.working[k]? = some (round, op :: rest) →
      ∀ j < k, ∀ task, sys.working[j]? = some task →
        task.1 < round → ∀ left ∈ task.2,
          ¬ Precedence.Overlap (Touches H node.receiving)
            op.change left.change
| _ => True

end ChangeOrder

end VeritasSync
