import Mathlib.Logic.Function.Basic
import VeritasSync.Sync.Protocol

/-
  What one node holds for one sync task, and the small
  operations of the state manager on it.

  `LocalState` gathers the disk, the in-memory maps, the
  rows of the database and the unfinished downloads.  Its
  `actions` are the visible effects in the order in which
  the handlers had them.

  Key definitions include:
    * `ReceivingFile`, `Action`, `LocalState`
    * `StateManager.recordSyncSuccess`
    * `StateManager.removePathFromMap`
    * `StateManager.shouldIgnoreEcho`
-/

namespace VeritasSync

------------------------------------------------------------
-- State
------------------------------------------------------------

/-
  One unfinished download.  `tempPath` is relative to the
  sync root and empty until the first chunk arrives.
-/
structure ReceivingFile where
  tempPath : String
  totalChunks : ℕ
  receivedChunks : ℕ
  receivedBitmap : List Bool
  peerId : String
  expectedHash : String
  expectedSize : ℕ
  busy : Bool
  streamOpen : Bool
deriving DecidableEq, Repr

/- A visible effect of a handler. -/
inductive Action where
| createdDirs : String → Action
| removed : String → Action
| removedTree : String → Action
| renamed : String → String → Action
| requested : FileRequest → Action
deriving DecidableEq, Repr

structure LocalState where
  role : SyncRole
  mode : SyncMode
  disk : Disk
  fileMap : AList (fun _ : String => FileInfo)
  dirMap : List String
  fileStore : AList (fun _ : String => FileMetadata)
  history : String → String → Option SyncHistory
  receivedFiles : AList (fun _ : String => String)
  pendingChanges : List String
  receiving : AList (fun _ : String => ReceivingFile)
  actions : List Action

namespace LocalState

/- Append one effect. -/
def act
    (s : LocalState)
    (action : Action) : LocalState :=
  { s with actions := s.actions ++ [action] }

/- The effects of a step that leads from `s` to `s'`. -/
def newActions (s s' : LocalState) : List Action :=
  s'.actions.drop s.actions.length

/-
  Going from `s` to `s'`, effects were only appended, and
  each of them satisfies `p`.
-/
def Emits
    (p : Action → Prop)
    (s s' : LocalState) : Prop :=
  ∃ extra, s'.actions = s.actions ++ extra ∧
    ∀ action ∈ extra, p action

theorem Emits.of_actions_eq
    {p : Action → Prop}
    {s s' : LocalState}
    (hActions : s'.actions = s.actions) :
    Emits p s s' :=
  ⟨[], by simp [hActions], by simp⟩

theorem Emits.of_append
    {p : Action → Prop}
    {s s' : LocalState}
    {action : Action}
    (hActions : s'.actions = s.actions ++ [action])
    (hAction : p action) :
    Emits p s s' :=
  ⟨[action], hActions, by simpa using hAction⟩

/- A step with one effect. -/
theorem emits_append_iff
    {p : Action → Prop}
    {s s' : LocalState}
    {action : Action}
    (hActions : s'.actions = s.actions ++ [action]) :
    Emits p s s' ↔ p action := by
  constructor
  · rintro ⟨extra, hExtra, hAll⟩
    rw [hActions, List.append_cancel_left_eq] at hExtra
    exact hAll action (by simp [← hExtra])
  · exact Emits.of_append hActions

theorem Emits.trans
    {p : Action → Prop}
    {s s' s'' : LocalState}
    (hFirst : Emits p s s')
    (hSecond : Emits p s' s'') :
    Emits p s s'' := by
  rcases hFirst with ⟨first, hFirst, hAllFirst⟩
  rcases hSecond with ⟨second, hSecond, hAllSecond⟩
  refine ⟨first ++ second, ?_, ?_⟩
  · rw [hSecond, hFirst, List.append_assoc]
  · intro action hMem
    rcases List.mem_append.mp hMem with hMem | hMem
    · exact hAllFirst action hMem
    · exact hAllSecond action hMem

theorem Emits.mono
    {p q : Action → Prop}
    {s s' : LocalState}
    (hEmits : Emits p s s')
    (hImp : ∀ action, p action → q action) :
    Emits q s s' := by
  rcases hEmits with ⟨extra, hActions, hAll⟩
  exact ⟨extra, hActions,
    fun action hMem => hImp action (hAll action hMem)⟩

/- Two steps emit what either of them emits. -/
theorem Emits.trans_iff
    {p : Action → Prop}
    {s s' s'' : LocalState}
    (hFirst : Emits (fun _ => True) s s')
    (hSecond : Emits (fun _ => True) s' s'') :
    Emits p s s'' ↔ Emits p s s' ∧ Emits p s' s'' := by
  constructor
  · rintro ⟨extra, hExtra, hAll⟩
    rcases hFirst with ⟨first, hFirst, -⟩
    rcases hSecond with ⟨second, hSecond, -⟩
    rw [hSecond, hFirst, List.append_assoc,
      List.append_cancel_left_eq] at hExtra
    subst hExtra
    simp only [List.mem_append] at hAll
    exact ⟨⟨first, hFirst,
        fun action hMem => hAll action (Or.inl hMem)⟩,
      ⟨second, hSecond,
        fun action hMem => hAll action (Or.inr hMem)⟩⟩
  · rintro ⟨hFirst, hSecond⟩
    exact hFirst.trans hSecond

/- A loop emits what its steps emit. -/
theorem Emits.foldl
    {α : Type}
    {p : Action → Prop}
    {step : LocalState → α → LocalState}
    {items : List α}
    (s : LocalState)
    (hStep : ∀ s, ∀ item ∈ items,
      Emits p s (step s item)) :
    Emits p s (items.foldl step s) :=
  List.foldlRecOn items step (Emits.of_actions_eq rfl)
    (fun s' hEmits item hItem =>
      hEmits.trans (hStep s' item hItem))

/- A node with nothing tracked and an empty root. -/
def empty
    (H : Host)
    (role : SyncRole)
    (mode : SyncMode) : LocalState where
  role := role
  mode := mode
  disk := (FileTree.createDirectories ∅ H.root).getD ∅
  fileMap := ∅
  dirMap := []
  fileStore := ∅
  history := fun _ _ => none
  receivedFiles := ∅
  pendingChanges := []
  receiving := ∅
  actions := []

/- A local user or program writes a file. -/
def userWrites
    (H : Host)
    (path : String)
    (content : Content)
    (s : LocalState) : LocalState :=
  let loc := H.locate path
  { s with
    disk :=
      AList.insert loc (.file ⟨content, H.now⟩)
        ((FileTree.createDirectories s.disk
          loc.dropLast).getD s.disk) }

end LocalState

------------------------------------------------------------
-- Operations
------------------------------------------------------------

namespace StateManager

/- The cached digest of a path, empty when untracked. -/
def getFileHash
    (s : LocalState)
    (path : String) : String :=
  match s.fileMap.lookup path with
  | some info => info.hash
  | none => ""

def getAllFiles (s : LocalState) : List FileInfo :=
  s.fileMap.entries.map Sigma.snd

def getLocalDirectories (s : LocalState) : List String :=
  s.dirMap

def getFullHistory
    (s : LocalState)
    (peerId path : String) : Option SyncHistory :=
  s.history peerId path

/- The recorded digest, empty when there is no row. -/
def getBaseHash
    (s : LocalState)
    (peerId path : String) : String :=
  match s.history peerId path with
  | some row => row.hash
  | none => ""

/- Insert or overwrite one `sync_history` row. -/
def updateSyncHistory
    (H : Host)
    (peerId path hash : String)
    (s : LocalState) : LocalState :=
  { s with
    history :=
      Function.update s.history peerId
        (Function.update (s.history peerId) path
          (some ⟨hash, H.now⟩)) }

def recordSyncSuccess
    (H : Host)
    (peerId path hash : String)
    (s : LocalState) : LocalState :=
  updateSyncHistory H peerId path hash s

def recordFileSent
    (H : Host)
    (peerId path hash : String)
    (s : LocalState) : LocalState :=
  updateSyncHistory H peerId path hash s

/-
  The digest the peer announces is the one last recorded
  for it.
-/
def shouldIgnoreEcho
    (s : LocalState)
    (peerId path remoteHash : String) : Bool :=
  getBaseHash s peerId path != "" &&
    getBaseHash s peerId path == remoteHash

def addDirToMap
    (path : String)
    (s : LocalState) : LocalState :=
  { s with dirMap := s.dirMap.insert path }

def removeDirFromMap
    (path : String)
    (s : LocalState) : LocalState :=
  { s with dirMap := s.dirMap.filter (fun dir => dir != path) }

/- Forget a file: map, `files` row and history rows. -/
def removePathFromMap
    (path : String)
    (s : LocalState) : LocalState :=
  { s with
    fileMap := s.fileMap.erase path
    fileStore := s.fileStore.erase path
    history := fun peerId key =>
      if key = path then none else s.history peerId key }

def markFileReceived
    (path hash : String)
    (s : LocalState) : LocalState :=
  { s with
    receivedFiles := s.receivedFiles.insert path hash }

@[simp] theorem updateSyncHistory_history
    (H : Host)
    (peerId path hash : String)
    (s : LocalState)
    (peer key : String) :
    (updateSyncHistory H peerId path hash s).history
        peer key =
      if peer = peerId ∧ key = path then
        some ⟨hash, H.now⟩
      else
        s.history peer key := by
  unfold updateSyncHistory
  by_cases hPeer : peer = peerId
  · subst hPeer
    by_cases hKey : key = path
    · subst hKey
      simp
    · simp [hKey]
  · simp [hPeer]

theorem getBaseHash_congr
    {s s' : LocalState}
    (peerId path : String)
    (hHistory : s'.history = s.history) :
    getBaseHash s' peerId path =
      getBaseHash s peerId path := by
  unfold getBaseHash
  rw [hHistory]

/- An echo is exactly a repeated, non-empty digest. -/
theorem shouldIgnoreEcho_iff
    (s : LocalState)
    (peerId path remoteHash : String) :
    shouldIgnoreEcho s peerId path remoteHash = true ↔
      getBaseHash s peerId path ≠ "" ∧
        getBaseHash s peerId path = remoteHash := by
  simp [shouldIgnoreEcho]

/-
  The digest recorded with the peer is the one of
  `content`: the content has not changed since then.
-/
def MatchesBase
    (H : Host)
    (s : LocalState)
    (peerId path : String)
    (content : Content) : Prop :=
  ∃ row, s.history peerId path = some row ∧
    row.hash = H.digest.hash content

theorem matchesBase_iff_getBaseHash
    (H : Host)
    (s : LocalState)
    (peerId path : String)
    (content : Content) :
    MatchesBase H s peerId path content ↔
      getBaseHash s peerId path = H.digest.hash content := by
  unfold MatchesBase getBaseHash
  cases s.history peerId path with
  | none => simp [Ne.symm (H.digest.hash_ne_empty content)]
  | some row => simp

end StateManager

end VeritasSync
