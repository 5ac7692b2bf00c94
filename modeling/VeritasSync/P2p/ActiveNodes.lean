import VeritasSync.Common.ConfigLoading
import VeritasSync.Library.Transition
import VeritasSync.P2p.WebUI

/-
  The nodes that the process runs, one for each task that
  could be started.  The requests of the web page change
  both; they are looked at one at a time.

  Main declarations:
    * `SyncNode.start`, `SyncNode.Startable`
    * `ActiveNodes.Process`, `ActiveNodes.boot`
    * `ActiveNodes.handle`, `ActiveNodes.step`
    * `ActiveNodes.Readable`, `ActiveNodes.FileHolds`,
      `ActiveNodes.LeftIn`
    * `ActiveNodes.boot_cases`
-/

namespace VeritasSync

open Config
open WebUIServer (Server Starting Removing Calls Response
  Request)

------------------------------------------------------------
-- Starting a Node
------------------------------------------------------------

namespace SyncNode

/- The outcomes of what starting a node calls. -/
structure StartCalls where
  convertsPath : Bool
  folderExists : Bool
  createsDirectories : Bool
  createsP2PManager : Bool
  createsStateManager : Bool
  throwsLater : Bool

/- A node is only made to be started once. -/
def start
    (C : StartCalls)
    (task : SyncTask) : Starting :=
  if !isValidSyncKey task.syncKey then
    .refuses
  else if task.syncFolder = "" then
    .refuses
  else if task.role ≠ "source" ∧
      task.role ≠ "destination" then
    .refuses
  else if !C.convertsPath then
    .refuses
  else if !C.folderExists && !C.createsDirectories then
    .refuses
  else if !C.createsP2PManager then
    .refuses
  else if !C.createsStateManager then
    .refuses
  -- the first scan, or the connection to the tracker
  else if C.throwsLater then
    .throws
  else
    .starts

/- The tasks that can be started at all. -/
structure Startable (task : SyncTask) : Prop where
  key : isValidSyncKey task.syncKey = true
  folder : task.syncFolder ≠ ""
  role : task.role = "source" ∨ task.role = "destination"

theorem startable_of_start
    {C : StartCalls}
    {task : SyncTask}
    (hStart : start C task = .starts) :
    Startable task := by
  unfold start at hStart
  split at hStart
  · cases hStart
  next hKey =>
    split at hStart
    · cases hStart
    next hFolder =>
      split at hStart
      · cases hStart
      next hRole =>
        refine ⟨by simpa using hKey, hFolder, ?_⟩
        by_contra hNeither
        exact hRole (not_or.mp hNeither)

theorem start_ne_absent
    (C : StartCalls)
    (task : SyncTask) :
    start C task ≠ .absent := by
  unfold start
  split_ifs <;> simp

end SyncNode

namespace ActiveNodes

open SyncNode (StartCalls Startable)

------------------------------------------------------------
-- The Process
------------------------------------------------------------

/-
  The web server, the files beside the configuration, and
  the nodes that run, each with the task it was made for.
-/
structure Process where
  server : Server
  backup : Stored
  advanced : Stored
  nodes : List SyncTask

def Process.tasks (p : Process) : List SyncTask :=
  p.server.config.tasks

def keysOf (tasks : List SyncTask) : List String :=
  tasks.map SyncTask.syncKey

/- What the web server reads when it is made. -/
def reloadConfig : Stored → Config
| .json json =>
    match fromJson json {} with
    | (c, true) => c
    | (_, false) => {}
| .missing => {}
| .garbled => {}

/-
  The tasks of the configuration, one after the other.  One
  that does not start is left out; an exception is fatal.
-/
def startAll
    (C : ℕ → StartCalls) :
    ℕ → List SyncTask → Option (List SyncTask)
| _, [] => some []
| i, task :: tasks =>
    match SyncNode.start (C i) task with
    | .throws => none
    | .starts =>
        (startAll C (i + 1) tasks).map (fun nodes =>
          task :: nodes)
    | .refuses => startAll C (i + 1) tasks
    | .absent => startAll C (i + 1) tasks

/-
  The start of the process.  The nodes are made from what
  the process has loaded, the server reads the file again.
-/
def boot
    (S : Startup)
    (C : ℕ → StartCalls)
    (dir : ConfigDir) : Option Process :=
  let loaded := loadConfigOrCreateDefault S dir
  (startAll C 0 loaded.1.tasks).map (fun nodes =>
    { server := ⟨reloadConfig loaded.2.config,
        loaded.2.config⟩
      backup := loaded.2.backup
      advanced := loaded.2.advanced
      nodes := nodes })

------------------------------------------------------------
-- Requests
------------------------------------------------------------

/- Of the calls only those that are not callbacks count. -/
structure Outcomes where
  calls : Calls
  node : StartCalls
  -- what stopping a node throws, if it does
  stopping : Option String

def onTaskAdd
    (O : Outcomes)
    (task : SyncTask)
    (nodes : List SyncTask) : List SyncTask × Starting :=
  match SyncNode.start O.node task with
  | .starts => (nodes ++ [task], .starts)
  | other => (nodes, other)

def onTaskRemove
    (O : Outcomes)
    (syncKey : String)
    (nodes : List SyncTask) : List SyncTask × Removing :=
  if nodes.any (fun node => node.syncKey == syncKey) then
    match O.stopping with
    | some what => (nodes, .throws what)
    | none =>
        (nodes.eraseP (fun node => node.syncKey == syncKey),
          .returns)
  else
    (nodes, .returns)

/- The task that the callback gets, if it is called. -/
def addedTask
    (C : Calls)
    (body : Option Json)
    (s : Server) : Option SyncTask :=
  if !C.authorized then
    none
  else
    match body with
    | none => none
    | some json =>
        match WebUIServer.parseTask C json with
        | .error _ => none
        | .ok task =>
            if s.config.tasks.any
                (fun t => t.syncKey == task.syncKey) then
              none
            else if (WebUIServer.saveConfigInternal C.saving
                (WebUIServer.withTasks
                  (s.config.tasks ++ [task]) s)).2 then
              some task
            else
              none

/- The task that is gone once the file has been saved. -/
def removedTask
    (C : Calls)
    (id : String)
    (s : Server) : Option (ℕ × SyncTask) :=
  if !C.authorized then
    none
  else
    match WebUIServer.parseTaskIndex id with
    | .error _ => none
    | .ok idx =>
        match s.config.tasks[idx]? with
        | none => none
        | some removed =>
            if (WebUIServer.saveConfigInternal C.saving
                (WebUIServer.withTasks
                  (s.config.tasks.eraseIdx idx) s)).2 then
              some (idx, removed)
            else
              none

/- What the callbacks do, and how they then return. -/
def callBack
    (O : Outcomes)
    (p : Process) : Request → List SyncTask × Calls
| .postConfig _ => (p.nodes, O.calls)
| .postTask body =>
    match addedTask O.calls body p.server with
    | none => (p.nodes, O.calls)
    | some task =>
        let called := onTaskAdd O task p.nodes
        (called.1, { O.calls with starting := called.2 })
| .deleteTask id =>
    match removedTask O.calls id p.server with
    | none => (p.nodes, O.calls)
    | some (_, removed) =>
        if removed.syncKey = "" then
          (p.nodes, O.calls)
        else
          let called :=
            onTaskRemove O removed.syncKey p.nodes
          (called.1, { O.calls with removing := called.2 })

def handle
    (O : Outcomes)
    (request : Request)
    (p : Process) : Process × Response :=
  let called := callBack O p request
  let after :=
    WebUIServer.handle called.2 request p.server
  ({ p with server := after.1, nodes := called.1 }, after.2)

------------------------------------------------------------
-- Steps
------------------------------------------------------------

/- However the process ends, it begins with its files. -/
inductive Event
| request : Outcomes → Request → Event
| restart : Startup → (ℕ → StartCalls) → Event

def step (p : Process) : Event → Option Process
| .request O request => some (handle O request p).1
| .restart S C =>
    boot S C ⟨p.server.file, p.backup, p.advanced⟩

/-
  Stopping a node does not throw, and the file that is
  written at the start is written whole if it is opened.
-/
def Smooth : Event → Prop
| .request O _ => O.stopping = none
| .restart S _ => S.configWriting ≠ .cut

/- The tasks that a file is read to hold. -/
def storedTasks : Stored → List SyncTask
| .json json =>
    if (configFromJson json {}).2 then
      (configFromJson json {}).1.tasks
    else
      []
| .missing => []
| .garbled => []

/- Every node is started that is to be. -/
def Starts (p : Process) : Event → Prop
| .request O (.postTask body) =>
    ∀ task, addedTask O.calls body p.server = some task →
      SyncNode.start O.node task = .starts
| .request _ (.postConfig _) => True
| .request _ (.deleteTask _) => True
| .restart _ C =>
    ∀ i task, (storedTasks p.server.file)[i]? = some task →
      SyncNode.start (C i) task = .starts

------------------------------------------------------------
-- The File
------------------------------------------------------------

section Files

variable
  {file : Stored}

/- What the process can read the server can read as well. -/
def Readable : Stored → Prop
| .json json =>
    (configFromJson json {}).2 = true →
      (fromJson json {}).2 = true
| .missing => True
| .garbled => True

theorem mem_configFields_tasks :
    opt "tasks" taskList tasksPlace ∈ configFields :=
  List.mem_flatten.mpr
    ⟨[opt "tasks" taskList tasksPlace],
      by simp, List.mem_cons_self⟩

/- The other file has no tasks in it. -/
theorem tasks_advancedFromJson
    (json : Json)
    (c : Config) :
    (advancedFromJson json c).1.tasks = c.tasks := by
  refine get_assignAll_of_apart (q := tasksPlace) ?_ c
  intro e hMem
  exact (allApart_files _ mem_configFields_tasks e
    hMem).symm

theorem storedTasks_of_read
    {json : Json}
    {c : Config}
    {ok : Bool}
    (hRead : configFromJson json {} = (c, ok)) :
    storedTasks (.json json) =
      if ok then c.tasks else [] := by
  rw [storedTasks, hRead]

theorem tasks_reloadConfig
    (hReadable : Readable file) :
    (reloadConfig file).tasks = storedTasks file := by
  cases file with
  | missing => rfl
  | garbled => rfl
  | json json =>
      cases hRead : configFromJson json {} with
      | mk c ok =>
          rw [storedTasks_of_read hRead]
          simp only [Readable, fromJson, hRead] at hReadable
          simp only [reloadConfig, fromJson, hRead]
          cases ok with
          | false => rfl
          | true =>
              have hTasks := tasks_advancedFromJson json c
              have hDone := hReadable rfl
              cases hRest : advancedFromJson json c with
              | mk d done =>
                  simp only [hRest] at hDone hTasks
                  subst hDone
                  simp only [hRest, if_true]
                  exact hTasks

theorem storedTasks_of_agrees
    {s : Server}
    (hAgrees : WebUIServer.Agrees s) :
    storedTasks s.file = s.config.tasks := by
  unfold WebUIServer.Agrees at hAgrees
  cases hFile : s.file with
  | missing => simp [hFile] at hAgrees
  | garbled => simp [hFile] at hAgrees
  | json json =>
      simp only [hFile] at hAgrees
      rw [storedTasks, if_pos hAgrees.1]
      exact hAgrees.2 _ mem_configFields_tasks

theorem storedTasks_written (c : Config) :
    storedTasks (.json (configToJson c)) = c.tasks :=
  storedTasks_of_agrees (WebUIServer.agrees_written c)

/- A file that was written holds no field of the other. -/
theorem readable_written (c : Config) :
    Readable (.json (configToJson c)) := by
  intro hBasics
  cases hRead : configFromJson (configToJson c) {} with
  | mk d ok =>
      rw [hRead] at hBasics
      subst hBasics
      simp only [fromJson, hRead]
      apply assignAll_completes
      simp [advancedFields, group, networkAdvancedFields,
        transferFields, kcpFields, syncFields,
        loggingAdvancedFields, webuiAdvancedFields,
        llmAdvancedFields, databaseFields,
        advancedGroupFields, opt, Entry.within,
        configToJson, configMembers, networkBasicMembers,
        loggingBasicMembers, webuiBasicMembers,
        llmBasicMembers, Json.find?]

/- The file can be read, and the tasks in it are such. -/
structure FileHolds
    (Q : List SyncTask → Prop)
    (file : Stored) : Prop where
  readable : Readable file
  tasks : Q (storedTasks file)

/-
  What becomes of the file: it stays, it is unreadable, or
  one of some lists of tasks is in it.
-/
def LeftIn
    (lists : List (List SyncTask))
    (file file' : Stored) : Prop :=
  file' = file ∨ file' = .garbled ∨
    ∃ c : Config, c.tasks ∈ lists ∧
      file' = .json (configToJson c)

theorem FileHolds.leftIn
    {Q : List SyncTask → Prop}
    {lists : List (List SyncTask)}
    {file' : Stored}
    (hHolds : FileHolds Q file)
    (hNil : Q [])
    (hLists : ∀ tasks ∈ lists, Q tasks)
    (hLeft : LeftIn lists file file') :
    FileHolds Q file' := by
  rcases hLeft with rfl | rfl | ⟨c, hTasks, rfl⟩
  · exact hHolds
  · exact ⟨trivial, hNil⟩
  · refine ⟨readable_written c, ?_⟩
    rw [storedTasks_written]
    exact hLists _ hTasks

theorem leftIn_save
    {lists : List (List SyncTask)}
    {s : Server}
    (hTasks : s.config.tasks ∈ lists)
    (saving : WebUIServer.Saving) :
    LeftIn lists s.file
      (WebUIServer.saveConfigInternal saving s).1.file := by
  cases saving with
  | openFails => exact Or.inl rfl
  | dumpFails => exact Or.inr (Or.inl rfl)
  | cut => exact Or.inr (Or.inl rfl)
  | done => exact Or.inr (Or.inr ⟨s.config, hTasks, rfl⟩)

end Files

------------------------------------------------------------
-- The Start
------------------------------------------------------------

section Boot

variable
  {S : Startup}
  {C : ℕ → StartCalls}
  {dir : ConfigDir}
  {p : Process}

/- A file that is put aside has had no tasks in it. -/
theorem loadConfigJson_tasks
    (S : Startup)
    (dir : ConfigDir) :
    (loadConfigJson S dir).config.tasks =
        storedTasks dir.config ∧
      ((loadConfigJson S dir).dir.config = dir.config ∨
        (loadConfigJson S dir).dir.config = .missing ∧
          storedTasks dir.config = []) := by
  have hAside : ∀ file : Stored, file = dir.config →
      storedTasks file = [] →
      (backUp S dir).config.tasks = storedTasks file ∧
        ((backUp S dir).dir.config = file ∨
          (backUp S dir).dir.config = .missing ∧
            storedTasks file = []) := by
    intro file hFile hNone
    refine ⟨hNone.symm, ?_⟩
    unfold backUp
    cases S.renameFails with
    | true => exact Or.inl hFile.symm
    | false => exact Or.inr ⟨rfl, hNone⟩
  unfold loadConfigJson
  cases hFile : dir.config with
  | missing => exact ⟨rfl, Or.inl hFile⟩
  | garbled => exact hAside _ hFile.symm rfl
  | json json =>
      dsimp only
      cases hRead : configFromJson json {} with
      | mk c ok =>
          have hTasks := storedTasks_of_read hRead
          cases ok with
          | false => exact hAside _ hFile.symm hTasks
          | true =>
              rw [hTasks]
              dsimp only
              split
              · exact ⟨rfl, Or.inl hFile⟩
              · exact ⟨rfl, Or.inl hFile⟩

theorem loadAdvancedJson_keeps (l : Loading) :
    (loadAdvancedJson l).config.tasks = l.config.tasks ∧
      (loadAdvancedJson l).dir = l.dir := by
  unfold loadAdvancedJson
  split
  · exact ⟨rfl, rfl⟩
  · exact ⟨rfl, rfl⟩
  next json _ =>
    have hTasks := tasks_advancedFromJson json l.config
    split
    next hRead =>
      rw [hRead] at hTasks
      exact ⟨hTasks, rfl⟩
    next hRead =>
      rw [hRead] at hTasks
      exact ⟨hTasks, rfl⟩

/- Writing the file back does not lose its tasks. -/
theorem writeBack_holds
    {l : Loading}
    {tasks : List SyncTask}
    (hTasks : l.config.tasks = tasks)
    (hFile : FileHolds (· = tasks) l.dir.config)
    (hCut : S.configWriting ≠ .cut) :
    FileHolds (· = tasks) (writeBack S l).config := by
  unfold writeBack
  dsimp only
  split
  next =>
    cases hWriting : S.configWriting with
    | refused => exact hFile
    | cut => exact absurd hWriting hCut
    | done =>
        refine ⟨readable_written l.config, ?_⟩
        exact (storedTasks_written l.config).trans hTasks
  next => exact hFile

/-
  The server has the tasks that the file had and still has,
  and the nodes are made from them.
-/
theorem boot_cases
    (hReadable : Readable dir.config)
    (hCut : S.configWriting ≠ .cut)
    (hBoot : boot S C dir = some p) :
    p.tasks = storedTasks dir.config ∧
      FileHolds (· = p.tasks) p.server.file ∧
      startAll C 0 p.tasks = some p.nodes := by
  rcases Option.map_eq_some_iff.mp hBoot with
    ⟨nodes, hNodes, rfl⟩
  have hLoad := loadConfigJson_tasks S dir
  have hKeeps := loadAdvancedJson_keeps
    (loadConfigJson S dir)
  have hTasks := hKeeps.1.trans hLoad.1
  have hFile : FileHolds (· = storedTasks dir.config)
      (loadAdvancedJson
        (loadConfigJson S dir)).dir.config := by
    rw [hKeeps.2]
    rcases hLoad.2 with hSame | ⟨hMissing, hNone⟩
    · rw [hSame]
      exact ⟨hReadable, rfl⟩
    · rw [hMissing, hNone]
      exact ⟨trivial, rfl⟩
  have hWritten := writeBack_holds hTasks hFile hCut
  have hServer := (tasks_reloadConfig
    hWritten.readable).trans hWritten.tasks
  refine ⟨hServer, ⟨hWritten.readable, ?_⟩, ?_⟩
  · exact hWritten.tasks.trans hServer.symm
  · rw [← hNodes]
    exact congrArg _ (hServer.trans hTasks.symm)

/- The nodes that are made are those of some of the tasks. -/
theorem startAll_sublist
    {i : ℕ}
    {tasks nodes : List SyncTask}
    (hStart : startAll C i tasks = some nodes) :
    nodes.Sublist tasks ∧ ∀ t ∈ nodes, Startable t := by
  induction tasks generalizing i nodes with
  | nil =>
      rw [← Option.some.inj hStart]
      exact ⟨List.Sublist.slnil, by simp⟩
  | cons task tasks ih =>
      rw [startAll] at hStart
      cases hFirst : SyncNode.start (C i) task with
      | throws => simp [hFirst] at hStart
      | absent =>
          exact absurd hFirst (SyncNode.start_ne_absent _ _)
      | refuses =>
          rw [hFirst] at hStart
          have hRest := ih hStart
          exact ⟨hRest.1.cons task, hRest.2⟩
      | starts =>
          rw [hFirst] at hStart
          rcases Option.map_eq_some_iff.mp hStart with
            ⟨others, hOthers, rfl⟩
          have hRest := ih hOthers
          refine ⟨hRest.1.cons_cons task, ?_⟩
          exact List.forall_mem_cons.mpr
            ⟨SyncNode.startable_of_start hFirst, hRest.2⟩

theorem startAll_eq
    {i : ℕ}
    {tasks nodes : List SyncTask}
    (hStarts : ∀ j task, tasks[j]? = some task →
      SyncNode.start (C (i + j)) task = .starts)
    (hStart : startAll C i tasks = some nodes) :
    nodes = tasks := by
  induction tasks generalizing i nodes with
  | nil => exact (Option.some.inj hStart).symm
  | cons task tasks ih =>
      have hFirst := hStarts 0 task rfl
      rw [Nat.add_zero] at hFirst
      rw [startAll, hFirst] at hStart
      rcases Option.map_eq_some_iff.mp hStart with
        ⟨others, hOthers, rfl⟩
      refine congrArg _ (ih (fun j later hLater => ?_)
        hOthers)
      rw [Nat.add_assoc, Nat.add_comm 1]
      exact hStarts (j + 1) later hLater

end Boot

end ActiveNodes

end VeritasSync
