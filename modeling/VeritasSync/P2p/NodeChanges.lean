import VeritasSync.P2p.ActiveNodes

/-
  What one request of the web page can make of the tasks, of
  the file they are kept in and of the nodes.

  Main declarations:
    * `ActiveNodes.postConfig_tasks`
    * `ActiveNodes.postTask_of_none`,
      `ActiveNodes.postTask_of_some`
    * `ActiveNodes.deleteTask_of_none`,
      `ActiveNodes.deleteTask_of_some`
    * `ActiveNodes.Change`, `ActiveNodes.handle_cases`
-/

namespace VeritasSync

open Config
open WebUIServer (Server Starting Removing Calls Response
  Request)

namespace ActiveNodes

------------------------------------------------------------
-- What a Request Does
------------------------------------------------------------

section Requests

open WebUIServer (saveConfigInternal withTasks postConfig
  postTask deleteTask)

variable
  {O : Outcomes}
  {C : Calls}
  {s : Server}
  {p : Process}

theorem tasks_saveConfigInternal
    (saving : WebUIServer.Saving)
    (s : Server) :
    (saveConfigInternal saving s).1.config = s.config := by
  cases saving <;> rfl

theorem tasks_assignAll_optionalFields
    (json : Json)
    (c : Config) :
    (assignAll WebUIServer.optionalFields json c).1.tasks =
      c.tasks := by
  refine get_assignAll_of_apart (q := tasksPlace) ?_ c
  simp only [WebUIServer.optionalFields,
    List.forall_mem_cons, List.not_mem_nil, false_implies,
    implies_true, and_true, Place.Apart]
  and_intros <;> intros <;> rfl

/- The new configuration has the old tasks. -/
theorem postConfig_tasks
    (C : Calls)
    (body : Option Json)
    (s : Server) :
    (postConfig C body s).1.config.tasks = s.config.tasks ∧
      LeftIn [s.config.tasks] s.file
        (postConfig C body s).1.file := by
  have hEarly : ∀ res : Response,
      (s, res).1.config.tasks = s.config.tasks ∧
        LeftIn [s.config.tasks] s.file (s, res).1.file :=
    fun _ => ⟨rfl, Or.inl rfl⟩
  unfold postConfig
  split
  · exact hEarly _
  · split
    · exact hEarly _
    next json =>
      split
      · exact hEarly _
      next hosts _ =>
        split
        · exact hEarly _
        · unfold WebUIServer.applyConfig
          have hTasks := tasks_assignAll_optionalFields json
            (WebUIServer.hostsPlace.set s.config
              (hosts.map WebUIServer.toUshort))
          have hOld : (WebUIServer.hostsPlace.set s.config
              (hosts.map WebUIServer.toUshort)).tasks =
                s.config.tasks := rfl
          rw [hOld] at hTasks
          dsimp only
          generalize assignAll WebUIServer.optionalFields
            json _ = filled at hTasks ⊢
          have hSaved := leftIn_save
            (s := { s with config := filled.1 })
            (List.mem_singleton.mpr hTasks) C.saving
          have hConfig := tasks_saveConfigInternal C.saving
            { s with config := filled.1 }
          split
          · exact ⟨hTasks, Or.inl rfl⟩
          · split
            · exact ⟨(congrArg Config.tasks hConfig).trans
                hTasks, hSaved⟩
            · exact ⟨(congrArg Config.tasks hConfig).trans
                hTasks, hSaved⟩

/- A saving that reports an error has written nothing. -/
theorem leftIn_of_unsaved
    {saving : WebUIServer.Saving}
    (hUnsaved : (saveConfigInternal saving s).2 = false)
    (lists : List (List SyncTask)) :
    LeftIn lists s.file
      (saveConfigInternal saving s).1.file := by
  cases saving with
  | openFails => exact Or.inl rfl
  | dumpFails => exact Or.inr (Or.inl rfl)
  | cut => cases hUnsaved
  | done => cases hUnsaved

/- The task is not there when the callback is not called. -/
theorem postTask_of_none
    {body : Option Json}
    (hNone : addedTask C body s = none) :
    (postTask C body s).1.config = s.config ∧
      LeftIn [s.config.tasks] s.file
        (postTask C body s).1.file := by
  have hEarly : ∀ res : Response,
      (s, res).1.config = s.config ∧
        LeftIn [s.config.tasks] s.file (s, res).1.file :=
    fun _ => ⟨rfl, Or.inl rfl⟩
  unfold postTask
  unfold addedTask at hNone
  split
  · exact hEarly _
  next hAuth =>
    rw [if_neg hAuth] at hNone
    split
    · exact hEarly _
    next json =>
      dsimp only at hNone
      split
      · exact hEarly _
      next task hTask =>
        rw [hTask] at hNone
        dsimp only at hNone
        split
        · exact hEarly _
        next hNew =>
          rw [if_neg hNew] at hNone
          unfold WebUIServer.saveTask
          dsimp only
          split at hNone
          · cases hNone
          next hSaved =>
            rw [if_neg hSaved]
            have hLeft := leftIn_of_unsaved
              (Bool.eq_false_iff.mpr hSaved) [s.config.tasks]
            refine ⟨?_, hLeft⟩
            simp [withTasks, tasks_saveConfigInternal]

/-
  What the callback is called for is new, and is then in the
  configuration.
-/
theorem postTask_of_some
    {body : Option Json}
    {task : SyncTask}
    (hSome : addedTask C body s = some task) :
    (∀ t ∈ s.config.tasks, t.syncKey ≠ task.syncKey) ∧
      ∃ file, LeftIn [s.config.tasks ++ [task]] s.file file ∧
        ∀ starting : Starting,
          postTask { C with starting := starting } body s =
            WebUIServer.startTask
              { C with starting := starting } task
              (WebUIServer.added task file s) := by
  unfold addedTask at hSome
  split at hSome
  · cases hSome
  next hAuth =>
    split at hSome
    · cases hSome
    next json =>
      split at hSome
      · cases hSome
      next task' hTask =>
        split at hSome
        · cases hSome
        next hNew =>
          split at hSome
          next hSaved =>
            cases hSome
            refine ⟨by simpa using hNew, _, leftIn_save
              (s := withTasks (s.config.tasks ++ [task]) s)
              List.mem_cons_self C.saving, ?_⟩
            intro starting
            have hParse : WebUIServer.parseTask
                { C with starting := starting } json =
                  .ok task := hTask
            unfold postTask
            rw [if_neg hAuth]
            dsimp only
            rw [hParse]
            dsimp only
            rw [if_neg hNew, WebUIServer.saveTask,
              if_pos hSaved]
            refine congrArg _ ?_
            have hConfig := tasks_saveConfigInternal C.saving
              (withTasks (s.config.tasks ++ [task]) s)
            cases hSave : saveConfigInternal C.saving
              (withTasks (s.config.tasks ++ [task]) s) with
            | mk s' ok =>
                rw [hSave] at hConfig
                cases s'
                cases hConfig
                rfl
          next => cases hSome

/- No task is gone when nothing has been removed. -/
theorem deleteTask_of_none
    {id : String}
    (hNone : removedTask C id s = none) :
    (deleteTask C id s).1.config = s.config ∧
      LeftIn [s.config.tasks] s.file
        (deleteTask C id s).1.file := by
  have hEarly : ∀ res : Response,
      (s, res).1.config = s.config ∧
        LeftIn [s.config.tasks] s.file (s, res).1.file :=
    fun _ => ⟨rfl, Or.inl rfl⟩
  unfold deleteTask
  unfold removedTask at hNone
  split
  · exact hEarly _
  next hAuth =>
    rw [if_neg hAuth] at hNone
    split
    · exact hEarly _
    next idx hIdx =>
      rw [hIdx] at hNone
      dsimp only at hNone
      split
      · exact hEarly _
      next removed hFound =>
        rw [hFound] at hNone
        unfold WebUIServer.removeTask
        dsimp only at hNone ⊢
        split at hNone
        · cases hNone
        next hSaved =>
          rw [if_neg hSaved]
          have hLeft := leftIn_of_unsaved
            (Bool.eq_false_iff.mpr hSaved) [s.config.tasks]
          refine ⟨?_, hLeft⟩
          rcases List.getElem?_eq_some_iff.mp hFound with
            ⟨hLt, rfl⟩
          simp [withTasks, tasks_saveConfigInternal,
            List.insertIdx_eraseIdx_getElem hLt]

theorem deleteTask_of_some
    {id : String}
    {idx : ℕ}
    {removed : SyncTask}
    (hSome : removedTask C id s = some (idx, removed)) :
    s.config.tasks[idx]? = some removed ∧
      ∀ removing : Removing,
        let after :=
          deleteTask { C with removing := removing } id s
        after.1.config.tasks = s.config.tasks.eraseIdx idx ∧
          LeftIn [s.config.tasks.eraseIdx idx] s.file
            after.1.file := by
  unfold removedTask at hSome
  split at hSome
  · cases hSome
  next hAuth =>
    split at hSome
    · cases hSome
    next idx' hIdx =>
      split at hSome
      · cases hSome
      next removed' hFound =>
        split at hSome
        next hSaved =>
          cases hSome
          refine ⟨hFound, ?_⟩
          intro removing
          unfold deleteTask
          rw [if_neg hAuth]
          dsimp only
          rw [hIdx]
          dsimp only
          rw [hFound]
          dsimp only
          rw [WebUIServer.removeTask, if_pos hSaved]
          have hSame : ∀ (D : Calls) key s',
              (WebUIServer.notifyRemoved D key s').1 =
                s' := by
            intro D key s'
            unfold WebUIServer.notifyRemoved
            split
            · split
              · rfl
              · rfl
            · rfl
            · rfl
          rw [hSame, tasks_saveConfigInternal]
          exact ⟨rfl, leftIn_save
            (s := withTasks (s.config.tasks.eraseIdx idx) s)
            List.mem_cons_self C.saving⟩
        next => cases hSome

/- What one request can make of the process. -/
inductive Change
    (O : Outcomes)
    (p : Process) : Request → Process → Prop
-- no task comes or goes
| kept
    {request : Request}
    {server : Server}
    (hTasks : server.config.tasks = p.tasks)
    (hFile : LeftIn [p.tasks] p.server.file server.file) :
    Change O p request { p with server := server }
-- the new task has a node
| added
    {body : Option Json}
    {task : SyncTask}
    {server : Server}
    (hNew : ∀ t ∈ p.tasks, t.syncKey ≠ task.syncKey)
    (hStart : SyncNode.start O.node task = .starts)
    (hTasks : server.config.tasks = p.tasks ++ [task])
    (hFile : LeftIn [p.tasks ++ [task]] p.server.file
      server.file) :
    Change O p (.postTask body)
      { p with server := server, nodes := p.nodes ++ [task] }
-- the new task is taken out, or stays there with no node
| unstarted
    {body : Option Json}
    {task : SyncTask}
    {server : Server}
    (hAdded : addedTask O.calls body p.server = some task)
    (hNew : ∀ t ∈ p.tasks, t.syncKey ≠ task.syncKey)
    (hStart : SyncNode.start O.node task ≠ .starts)
    (hTasks : server.config.tasks = p.tasks ∨
      server.config.tasks = p.tasks ++ [task])
    (hFile : LeftIn [p.tasks ++ [task], p.tasks]
      p.server.file server.file) :
    Change O p (.postTask body) { p with server := server }
-- an empty key is not looked for
| removed
    {id : String}
    {idx : ℕ}
    {task : SyncTask}
    {server : Server}
    {nodes : List SyncTask}
    (hFound : p.tasks[idx]? = some task)
    (hNodes : nodes =
        p.nodes.eraseP (fun node =>
          node.syncKey == task.syncKey) ∨
      task.syncKey = "" ∧ nodes = p.nodes)
    (hTasks : server.config.tasks = p.tasks.eraseIdx idx)
    (hFile : LeftIn [p.tasks.eraseIdx idx] p.server.file
      server.file) :
    Change O p (.deleteTask id)
      { p with server := server, nodes := nodes }

theorem LeftIn.mono
    {lists more : List (List SyncTask)}
    {file file' : Stored}
    (hLeft : LeftIn lists file file')
    (hMore : lists ⊆ more) :
    LeftIn more file file' := by
  rcases hLeft with hSame | hGarbled | ⟨c, hTasks, hFile⟩
  · exact Or.inl hSame
  · exact Or.inr (Or.inl hGarbled)
  · exact Or.inr (Or.inr ⟨c, hMore hTasks, hFile⟩)

theorem LeftIn.trans
    {lists : List (List SyncTask)}
    {file file' file'' : Stored}
    (hFirst : LeftIn lists file file')
    (hNext : LeftIn lists file' file'') :
    LeftIn lists file file'' := by
  rcases hNext with rfl | hGarbled | hWritten
  · exact hFirst
  · exact Or.inr (Or.inl hGarbled)
  · exact Or.inr (Or.inr hWritten)

/- A request for a new task, when its node is to start. -/
theorem change_postTask
    {body : Option Json}
    {task : SyncTask}
    (hAdded : addedTask O.calls body p.server = some task) :
    Change O p (.postTask body)
      (handle O (.postTask body) p).1 := by
  rcases postTask_of_some hAdded with
    ⟨hNew, file, hFile, hPost⟩
  have hBoth : LeftIn [p.tasks ++ [task], p.tasks]
      p.server.file file :=
    hFile.mono (by simp [Process.tasks])
  simp only [handle, callBack, hAdded, WebUIServer.handle,
    hPost, onTaskAdd]
  cases hStart : SyncNode.start O.node task with
  | absent =>
      exact absurd hStart (SyncNode.start_ne_absent _ _)
  | starts => exact .added hNew hStart rfl hFile
  | throws =>
      exact .unstarted hAdded hNew (by simp [hStart])
        (Or.inr rfl) hBoth
  | refuses =>
      simp only [WebUIServer.startTask,
        WebUIServer.rollBack_added hNew]
      refine .unstarted hAdded hNew (by simp [hStart])
        (Or.inl ?_) (hBoth.trans ?_)
      · rw [tasks_saveConfigInternal]
        rfl
      · exact leftIn_save (s := { p.server with
          file := file }) (by simp [Process.tasks]) _

/- A request that takes a task out, when the node stops. -/
theorem change_deleteTask
    {id : String}
    {idx : ℕ}
    {task : SyncTask}
    (hStops : O.stopping = none)
    (hRemoved : removedTask O.calls id p.server =
      some (idx, task)) :
    Change O p (.deleteTask id)
      (handle O (.deleteTask id) p).1 := by
  rcases deleteTask_of_some hRemoved with
    ⟨hFound, hDelete⟩
  simp only [handle, callBack, hRemoved,
    WebUIServer.handle, onTaskRemove, hStops]
  split
  next hEmpty =>
    have hAfter := hDelete O.calls.removing
    exact .removed hFound (Or.inr ⟨hEmpty, rfl⟩) hAfter.1
      hAfter.2
  next =>
    have hAfter := hDelete .returns
    split
    next =>
      exact .removed hFound (Or.inl rfl) hAfter.1 hAfter.2
    next hNone =>
      refine .removed hFound (Or.inl ?_) hAfter.1 hAfter.2
      rw [List.eraseP_of_forall_not]
      exact fun node hMem hKey =>
        hNone (List.any_eq_true.mpr ⟨node, hMem, hKey⟩)

theorem handle_cases
    (hStops : O.stopping = none)
    (request : Request)
    (p : Process) :
    Change O p request (handle O request p).1 := by
  cases request with
  | postConfig body =>
      have hConfig := postConfig_tasks O.calls body p.server
      exact .kept hConfig.1 hConfig.2
  | postTask body =>
      cases hAdded : addedTask O.calls body p.server with
      | some task => exact change_postTask hAdded
      | none =>
          have hPost := postTask_of_none hAdded
          simp only [handle, callBack, hAdded,
            WebUIServer.handle]
          exact .kept (congrArg Config.tasks hPost.1) hPost.2
  | deleteTask id =>
      cases hRemoved : removedTask O.calls id p.server with
      | some found => exact change_deleteTask hStops hRemoved
      | none =>
          have hDelete := deleteTask_of_none hRemoved
          simp only [handle, callBack, hRemoved,
            WebUIServer.handle]
          exact .kept (congrArg Config.tasks hDelete.1)
            hDelete.2

end Requests

end ActiveNodes

end VeritasSync
